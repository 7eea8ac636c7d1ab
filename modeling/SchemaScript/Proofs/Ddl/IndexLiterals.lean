import SchemaScript.Proofs.Ddl.StoredIndex

/-!
# Literals of stored indexes

Which literals of a stored definition the statement written from it keeps (`Index.literals_kept_iff`). Each of the
rewritings works on the whole text and knows of no quotes, and none makes the text longer, so that the literals stay
just if each of them holds nothing that is rewritten. Where a literal of the expression goes on behind the parenthesis
that is taken for its end, there must be nothing to rewrite behind it either (`StoredIndex.KeepsLiterals`).
-/

namespace SchemaScript

open Ddl

namespace StoredIndex

variable {s r : List Char} {p : StoredIndex}

/-! ## Literals of the short form -/

/-- The text behind the first opening parenthesis. -/
def inner (s : List Char) : List Char :=
  (s.dropWhile (· != '(')).drop 1

theorem inner_of_leads {front : List Char} (h : Leads front s ('(' :: r)) : inner s = r := by
  obtain ⟨head, rfl, hhead, -⟩ := h
  have hdrop : (head ++ '(' :: r).dropWhile (· != '(') = '(' :: r := by
    rw [List.dropWhile_append_of_pos fun c hc => by simpa using (hhead c hc).2]
    rfl
  rw [inner, hdrop]
  rfl

/-- Between the expression and its predicate there are just the word `WHERE` and one blank on either side. -/
def IsTight (p : StoredIndex) (s : List Char) : Prop :=
  ∃ last, IsEnd last ∧ inner s = p.expression ++ (") WHERE ".toList ++ (p.predicate.getD [] ++ last))

theorem isTight_iff {between condition last : List Char} (hpredicate : p.predicate = some condition)
    (hinner : inner s = p.expression ++ (between ++ (condition ++ last))) (hlast : IsEnd last)
    (hcondition : condition ≠ [] ∧ '\n' ∉ condition) (hlength : ") WHERE ".toList.length ≤ between.length) :
    IsTight p s ↔ between = ") WHERE ".toList := by
  unfold IsTight
  rw [hinner, hpredicate, Option.getD_some]
  constructor
  · rintro ⟨last', hlast', hsame⟩
    have hrest := List.append_cancel_left hsame
    have hlengths := congrArg List.length hrest
    simp only [List.length_append] at hlengths
    by_cases hequal : between.length = ") WHERE ".toList.length
    · exact (List.append_inj hrest hequal).1
    · -- then only one of the texts ends with a line end
      exfalso
      have hends := congrArg List.getLast? hrest
      obtain rfl : last' = ['\n'] := hlast'.resolve_left fun h => by
        rw [h] at hlengths
        simp only [List.length_nil] at hlengths
        omega
      obtain rfl : last = [] := hlast.resolve_right fun h => by
        rw [h] at hlengths
        omega
      rw [List.append_nil, List.getLast?_append_of_ne_nil _ hcondition.1, List.getLast?_append_of_ne_nil _ (by simp),
        List.getLast?_append_of_ne_nil _ (by simp)] at hends
      exact hcondition.2 (List.mem_of_getLast? hends)
  · intro hsame
    exact ⟨last, hlast, by rw [hsame]⟩

/-- The short form leaves the literals of the definition alone: all in the expression are in short form, and if one of
them goes on behind the expression, nothing is changed there either. -/
structure KeepsLiterals (p : StoredIndex) (s : List Char) : Prop where
  short : ∀ item ∈ literals .outside p.expression, IsShort item
  tight : Quoting.outside.after p.expression = .text → IsTight p s

theorem isPlain_shortOpening (h : read? s = some p) : IsPlain p.shortOpening := by
  obtain ⟨-, -, -, hname, hschema, htable, hmethod⟩ := exists_of_read? h
  have hword {w : List Char} (hw : ∀ c ∈ w, Text.isWordChar c) : IsPlain w := (isHead_of_word hw).isPlain
  have hreference : IsPlain (reference p.schema p.table) := by
    unfold reference
    split
    · next w hw =>
      exact isPlain_append_iff.mpr ⟨hword (hschema w hw),
        List.forall_mem_cons.mpr ⟨by unfold IsMark; decide, hword htable⟩⟩
    · exact hword htable
  have husage : IsPlain (if p.method == "btree".toList then [] else " USING ".toList ++ p.method) := by
    split
    · decide
    · exact isPlain_append_iff.mpr ⟨by decide, hword hmethod⟩
  have hunique : IsPlain (if p.isUnique then "UNIQUE ".toList else []) := by
    split <;> decide
  unfold shortOpening opening
  simp only [isPlain_append_iff]
  exact ⟨⟨by decide, hunique, by decide, hword hname, by decide, hreference⟩, husage, by decide⟩

theorem forall₂_length_short (items : List (List Char)) :
    List.Forall₂ (fun item item' => item.length ≤ item'.length) (items.map Ddl.short) items := by
  induction items with
  | nil => exact .nil
  | cons item items ih =>
    exact .cons ((blind_short.shrinks item).elim (fun h => (congrArg List.length h).le) Nat.le_of_lt) ih

theorem forall₂_length_refl (items : List (List Char)) :
    List.Forall₂ (fun item item' => item.length ≤ item'.length) items items :=
  List.forall₂_same.mpr fun _ _ => Nat.le_refl _

/-- An expression in short form with a text behind it that no quotes part from it, once in a longer form and with a line
end. -/
theorem literals_short_iff {e w v y last : List Char} (hw : IsPlain w) (hv : IsPlain v) (hlast : IsPlain last)
    (hlength : v.length ≤ w.length) (hclosed : Quoting.outside.after (e ++ (w ++ (y ++ last))) = .outside) :
    Quoting.outside.after (Ddl.short e ++ (v ++ y)) = .outside ∧
    List.Forall₂ (fun item item' => item.length ≤ item'.length)
      (literals .outside (Ddl.short e ++ (v ++ y))) (literals .outside (e ++ (w ++ (y ++ last)))) ∧
    (literals .outside (Ddl.short e ++ (v ++ y)) = literals .outside (e ++ (w ++ (y ++ last))) ↔
      (∀ item ∈ literals .outside e, IsShort item) ∧ (Quoting.outside.after e = .text → w = v)) := by
  have hshort : (literals .outside e).map Ddl.short = literals .outside e ↔
      ∀ item ∈ literals .outside e, IsShort item := by
    rw [map_eq_self_iff]
    simp only [short_eq_self_iff]
  rw [Quoting.after_append, Quoting.after_append, Quoting.after_append, Quoting.after_of_isPlain hw,
    Quoting.after_of_isPlain hlast] at hclosed
  have hend : literals (Quoting.outside.after e) (y ++ last) = literals (Quoting.outside.after e) y := by
    rw [literals_append_of_closed (by rw [hclosed]; decide), hclosed, literals_of_isPlain hlast]
    exact List.append_nil _
  refine ⟨?_, ?_⟩
  · rw [Quoting.after_append, blind_short.after_eq, Quoting.after_append, Quoting.after_of_isPlain hv, hclosed]
  by_cases hopen : Quoting.outside.after e = .text
  · -- a literal begins in the expression and ends in the text behind it
    obtain ⟨items, item, hitems, hmore⟩ := exists_open_literal hopen
    obtain ⟨items', item', hitems', hmore'⟩ :=
      exists_open_literal (s := Ddl.short e) ((blind_short.after_eq ..).trans hopen)
    rw [blind_short.literals_eq, hitems, List.map_append] at hitems'
    obtain ⟨rfl, hitem⟩ := List.append_inj' hitems' rfl
    obtain rfl := List.singleton_inj.mp hitem
    obtain ⟨first, rest, hrest⟩ := exists_literals_text y
    rw [hopen] at hend
    rw [hmore, hmore', literals_plain_append hw, literals_plain_append hv, if_pos rfl, if_pos rfl, hend, hrest]
    have hitem : (Ddl.short item).length ≤ item.length :=
      (blind_short.shrinks item).elim (fun h => (congrArg List.length h).le) Nat.le_of_lt
    refine ⟨List.rel_append (forall₂_length_short items) (.cons ?_ (forall₂_length_refl rest)), ?_⟩
    · simp only [List.length_append]
      omega
    · rw [← hshort, hitems, List.map_append]
      constructor
      · intro h
        obtain ⟨hkept, hrest⟩ := List.append_inj h (List.length_map _)
        have hstraddling : Ddl.short item ++ (v ++ first) = item ++ (w ++ first) := (List.cons.inj hrest).1
        have hlengths := congrArg List.length hstraddling
        simp only [List.length_append] at hlengths
        obtain ⟨hsame, hbehind⟩ := List.append_inj hstraddling (by omega)
        exact ⟨by rw [hkept, List.map_singleton, hsame], fun _ => (List.append_cancel_right hbehind).symm⟩
      · rintro ⟨hkept, hsame⟩
        obtain ⟨hkept, hitem⟩ := List.append_inj hkept (List.length_map _)
        rw [hkept, List.singleton_inj.mp hitem, hsame hopen]
  · have hopen' : Quoting.outside.after (Ddl.short e) ≠ .text := by rwa [blind_short.after_eq]
    rw [literals_append_of_closed hopen, literals_append_of_closed hopen', blind_short.after_eq,
      literals_plain_append hw, literals_plain_append hv, if_neg hopen, if_neg hopen, hend, blind_short.literals_eq]
    refine ⟨List.rel_append (forall₂_length_short _) (forall₂_length_refl _), ?_⟩
    rw [List.append_left_inj, hshort]
    exact ⟨fun h => ⟨h, fun h' => absurd h' hopen⟩, And.left⟩

theorem literals_text_iff (h : read? s = some p) (hclosed : Quoting.outside.after s = .outside) :
    Quoting.outside.after p.text.toList = .outside ∧
    List.Forall₂ (fun item item' => item.length ≤ item'.length)
      (literals .outside p.text.toList) (literals .outside s) ∧
    (literals .outside p.text.toList = literals .outside s ↔ KeepsLiterals p s) := by
  have hfront := isPlain_shortOpening h
  obtain ⟨tail, hleads, htail, -⟩ := exists_of_read? h
  have hinner := inner_of_leads hleads
  obtain ⟨head, rfl, hhead, -⟩ := hleads
  have hopen {head r : List Char} (hhead : IsPlain head) :
      literals .outside (head ++ '(' :: r) = literals .outside r ∧
        Quoting.outside.after (head ++ '(' :: r) = Quoting.outside.after r := by
    refine ⟨?_, ?_⟩
    · rw [literals_plain_append hhead]
      rfl
    · rw [Quoting.after_append, Quoting.after_of_isPlain hhead]
      rfl
  rw [toList_text, (hopen hfront).1, (hopen hfront).2, (hopen hhead.isPlain).1]
  rw [(hopen hhead.isPlain).2] at hclosed
  have hend {last : List Char} (hlast : IsEnd last) : IsPlain last := by
    rcases hlast with rfl | rfl <;> decide
  generalize hcondition : p.predicate = condition at htail
  cases htail with
  | none hlast =>
    obtain ⟨hafter, hshorter, hiff⟩ := literals_short_iff (w := [')']) (v := [')']) (y := []) (by decide) (by decide)
      (hend hlast) (Nat.le_refl _) hclosed
    have hwhole : Quoting.outside.after p.expression ≠ .text := by
      intro htext
      rw [Quoting.after_append, htext, Quoting.after_of_isPlain] at hclosed
      · contradiction
      · exact List.forall_mem_cons.mpr ⟨by unfold IsMark; decide, hend hlast⟩
    exact ⟨hafter, hshorter,
      hiff.trans ⟨fun h => ⟨h.1, fun htext => absurd htext hwhole⟩, fun h => ⟨h.1, fun _ => rfl⟩⟩⟩
  | @predicate gap gap' condition last hgap hgap' honeLine hlast =>
    have hplain {gap : List Char} (hgap : IsGap gap) : IsPlain gap := (isHead_of_blank hgap.blank).isPlain
    have hsplit : ')' :: (gap ++ ("WHERE".toList ++ (gap' ++ (condition ++ last)))) =
        (")".toList ++ (gap ++ ("WHERE".toList ++ gap'))) ++ (condition ++ last) := by
      simp
    have hbetween : IsPlain (")".toList ++ (gap ++ ("WHERE".toList ++ gap'))) := by
      simp only [isPlain_append_iff]
      exact ⟨by decide, hplain hgap, by decide, hplain hgap'⟩
    have hlength : ") WHERE ".toList.length ≤ (")".toList ++ (gap ++ ("WHERE".toList ++ gap'))).length := by
      have := List.length_pos_iff.mpr hgap.nonempty
      have := List.length_pos_iff.mpr hgap'.nonempty
      have hword : ") WHERE ".toList.length = 8 ∧ ")".toList.length = 1 ∧ "WHERE".toList.length = 5 := by decide
      simp only [List.length_append]
      omega
    rw [hsplit] at hclosed hinner ⊢
    obtain ⟨hafter, hshorter, hiff⟩ := literals_short_iff (v := ") WHERE ".toList) hbetween (by decide) (hend hlast)
      hlength hclosed
    have htight := isTight_iff hcondition hinner hlast honeLine hlength
    exact ⟨hafter, hshorter, hiff.trans ⟨fun h => ⟨h.1, fun htext => htight.mpr (h.2 htext)⟩,
      fun h => ⟨h.1, fun htext => htight.mp (h.2 htext)⟩⟩⟩

/-! ## Literals without a schema and a method -/

/-- There is nothing in the text that is left out. -/
structure IsCleared (lead? : Option (List Char)) (s : List Char) : Prop where
  method : ¬ " USING btree".toList <:+: s
  qualifier : ∀ lead ∈ lead?, ¬ Text.Occurs isBoundary lead none s

theorem blind_dropQualifier {lead : List Char} (hlead : lead ≠ []) (hplain : IsPlain lead) :
    Blind (dropQualifier lead 0 none) := by
  have h : Blind (Text.rewrite isBoundary lead [] 0 none) :=
    blind_rewrite hlead (List.length_pos_iff.mpr hlead) hplain (by decide) fun m hm => by
      rcases hm with rfl | rfl <;> decide
  rwa [← funext fun s => dropQualifier_eq_rewrite lead 0 none s] at h

theorem blind_cleared {lead? : Option (List Char)} (hlead : ∀ lead ∈ lead?, lead ≠ [] ∧ IsPlain lead) :
    Blind (cleared lead?) := by
  have hmethod : Blind (replaced " USING btree" "") := blind_replaced (by decide) (by decide) (by decide)
  cases lead? with
  | none => exact hmethod
  | some lead =>
    obtain ⟨hne, hplain⟩ := hlead lead rfl
    exact hmethod.comp (blind_dropQualifier hne hplain)

theorem cleared_eq_self_iff {lead? : Option (List Char)} (hlead : ∀ lead ∈ lead?, lead ≠ [] ∧ IsPlain lead)
    (s : List Char) : cleared lead? s = s ↔ IsCleared lead? s := by
  have hmethod : Blind (replaced " USING btree" "") := blind_replaced (by decide) (by decide) (by decide)
  cases lead? with
  | none =>
    refine (replaced_eq_self_iff (by decide) s).trans
      ⟨fun h => ⟨h, fun lead hlead => by contradiction⟩, IsCleared.method⟩
  | some lead =>
    obtain ⟨hne, hplain⟩ := hlead lead rfl
    refine (hmethod.comp_eq_self_iff (blind_dropQualifier hne hplain) s).trans ?_
    have hshorter : ([] : List Char).length < lead.length := List.length_pos_iff.mpr hne
    rw [dropQualifier_eq_rewrite, Text.rewrite_eq_self_iff hne hshorter, replaced_eq_self_iff (by decide)]
    refine ⟨fun ⟨hqualifier, hmethod⟩ => ⟨hmethod, fun l hl => ?_⟩, fun h => ⟨h.qualifier lead rfl, h.method⟩⟩
    obtain rfl := Option.some.inj hl
    exact hqualifier

/-! ## Literals of the whole statement -/

/-- Blanks and semicolons at the ends of a text do not change its literals. -/
theorem literals_of_ends {front core back : List Char} (hfront : IsPlain front) (hback : IsPlain back)
    (hclosed : Quoting.outside.after (front ++ (core ++ back)) = .outside) :
    literals .outside core = literals .outside (front ++ (core ++ back)) ∧ Quoting.outside.after core = .outside := by
  rw [Quoting.after_append, Quoting.after_of_isPlain hfront, Quoting.after_append, Quoting.after_of_isPlain hback]
    at hclosed
  refine ⟨?_, hclosed⟩
  rw [literals_plain_append hfront, if_neg (by decide), literals_append_of_closed (by rw [hclosed]; decide), hclosed,
    literals_of_isPlain hback]
  exact (List.append_nil _).symm

theorem literals_strip {definition : String} (hclosed : Quoting.outside.after definition.toList = .outside) :
    literals .outside (Text.strip definition).toList = literals .outside definition.toList ∧
      Quoting.outside.after (Text.strip definition).toList = .outside := by
  obtain ⟨front, back, hsplit, hfront, hback⟩ := Text.exists_trim definition.toList
  rw [Text.strip, String.toList_ofList]
  generalize Text.trim definition.toList = core at hsplit ⊢
  rw [hsplit] at hclosed ⊢
  exact literals_of_ends (isHead_of_blank hfront).isPlain (isHead_of_blank hback).isPlain hclosed

theorem literals_bare {definition : String} (hclosed : Quoting.outside.after definition.toList = .outside) :
    literals .outside (bare definition) = literals .outside definition.toList ∧
      Quoting.outside.after (bare definition) = .outside := by
  obtain ⟨hstrip, hafter⟩ := literals_strip hclosed
  obtain ⟨semicolons, hsplit, hmarks⟩ := exists_bare definition
  rw [Text.strip, String.toList_ofList, hsplit] at hstrip hafter
  rw [← hstrip]
  have hplain : IsPlain [] := by decide
  refine literals_of_ends hplain (fun c hc => ?_) hafter
  rw [hmarks c hc]
  unfold IsMark
  decide

theorem literals_simplified_iff {definition : String} (hclosed : Quoting.outside.after definition.toList = .outside) :
    Quoting.outside.after (simplified (Text.strip definition)).toList = .outside ∧
    List.Forall₂ (fun item item' => item.length ≤ item'.length)
      (literals .outside (simplified (Text.strip definition)).toList) (literals .outside definition.toList) ∧
    (literals .outside (simplified (Text.strip definition)).toList = literals .outside definition.toList ↔
      ∀ p, shortened? definition = some p → KeepsLiterals p (bare definition)) := by
  have hsame : shortened? (Text.strip definition) = shortened? definition := by
    unfold shortened?
    rw [bare_strip]
  rw [simplified_eq, hsame]
  cases hshort : shortened? definition with
  | none =>
    obtain ⟨hliterals, hafter⟩ := literals_strip hclosed
    dsimp only
    rw [hliterals]
    exact ⟨hafter, forall₂_length_refl _, fun _ p hp => absurd hp.symm (Option.some_ne_none p), fun _ => rfl⟩
  | some p =>
    obtain ⟨hread, -⟩ := Option.filter_eq_some_iff.mp hshort
    obtain ⟨hliterals, hafter⟩ := literals_bare hclosed
    obtain ⟨hclosed', hshorter, hiff⟩ := literals_text_iff hread hafter
    rw [hliterals] at hshorter hiff
    refine ⟨hclosed', hshorter, hiff.trans ⟨fun h q hq => ?_, fun h => h p rfl⟩⟩
    obtain rfl := Option.some.inj hq
    exact h

/-- Texts that may be shorter than others already are these others if they are once they are made even shorter. -/
theorem map_eq_iff_of_shorter {f : List Char → List Char} (hf : Blind f) {items items' : List (List Char)}
    (h : List.Forall₂ (fun item item' => item.length ≤ item'.length) items items') :
    items.map f = items' ↔ items = items' ∧ ∀ item ∈ items', f item = item := by
  have hone {item item' : List Char} (hle : item.length ≤ item'.length) :
      f item = item' ↔ item = item' ∧ f item' = item' := by
    constructor
    · intro hsame
      rcases hf.shrinks item with hstays | hless
      · obtain rfl := hstays.symm.trans hsame
        exact ⟨rfl, hsame⟩
      · rw [hsame] at hless
        omega
    · rintro ⟨rfl, hsame⟩
      exact hsame
  induction h with
  | nil => simp
  | cons hle hrest ih =>
    rw [List.map_cons, List.cons.injEq, List.cons.injEq, hone hle, List.forall_mem_cons]
    exact (and_congr Iff.rfl ih).trans and_and_and_comm

end StoredIndex

namespace Index

open StoredIndex

/-- The statement that is written from a definition, without a comment. -/
def fromStored (index : Index) (definition : String) (target : Option String) : String :=
  let text := index.fromDefinition definition target
  text ++ (if Text.endsWith text ";" then "" else ";")

theorem literals_fromStored_iff {index : Index} {definition : String} {target : Option String}
    (hclosed : Quoting.outside.after definition.toList = .outside)
    (hplain : ∀ lead ∈ index.ownQualifier? target, IsPlain lead) :
    literals .outside (index.fromStored definition target).toList = literals .outside definition.toList ↔
      (∀ item ∈ literals .outside definition.toList, IsCleared (index.ownQualifier? target) item) ∧
        ∀ p, shortened? definition = some p → KeepsLiterals p (bare definition) := by
  have hlead (lead : List Char) (h : lead ∈ index.ownQualifier? target) : lead ≠ [] ∧ IsPlain lead :=
    ⟨ownQualifier_ne_nil h, hplain lead h⟩
  have hblind := blind_cleared hlead
  obtain ⟨hafter, hshorter, hiff⟩ := literals_simplified_iff hclosed
  have hend : IsPlain (if Text.endsWith (index.fromDefinition definition target) ";" then "" else ";").toList := by
    split <;> decide
  have htext : Quoting.outside.after (index.fromDefinition definition target).toList = .outside := by
    rw [toList_fromDefinition, hblind.after_eq, hafter]
  unfold fromStored
  rw [String.toList_append, literals_append_of_closed (by rw [htext]; decide), htext, literals_of_isPlain hend,
    if_neg (by decide), List.append_nil, toList_fromDefinition, hblind.literals_eq,
    map_eq_iff_of_shorter hblind hshorter, hiff, and_comm]
  simp only [cleared_eq_self_iff hlead]

/-- The literals of an expression and of a stored definition are kept just if they hold nothing that is rewritten: in an
expression neither a cast to text nor an operator between blanks, in a definition neither the usual method nor the
schema that is left out, and where the definition is one of an index on an expression also not what is rewritten in
there. All else that is done to a definition are edits. -/
theorem literals_kept_iff (expression : String) (index : Index) (definition : String) (target : Option String) :
    (literals .outside (indexExpression expression).toList = literals .outside expression.toList ↔
      ∀ item ∈ literals .outside expression.toList, IsShort item) ∧
    (index.name.isGiven → index.definition.given = some definition →
      index.ddl target = index.fromStored definition target ++
        Ddl.commentAfter ("INDEX " ++ Ddl.reference index.schema index.name target) index.comment ∧
      IsEdition (index.ownQualifier? target) definition.toList (index.fromDefinition definition target).toList ∧
      (Quoting.outside.after definition.toList = .outside → (∀ lead ∈ index.ownQualifier? target, IsPlain lead) →
        (literals .outside (index.fromStored definition target).toList = literals .outside definition.toList ↔
          (∀ item ∈ literals .outside definition.toList, IsCleared (index.ownQualifier? target) item) ∧
            ∀ p, shortened? definition = some p → KeepsLiterals p (bare definition)))) := by
  refine ⟨literals_indexExpression_iff expression, fun hname hdefinition =>
    ⟨?_, isEdition_fromDefinition index definition target, literals_fromStored_iff⟩⟩
  unfold ddl fromStored
  rw [hname, hdefinition]
  rfl

/-- An index on the part of a text before a mark that looks like a cast. -/
def partsKind : Index :=
  { schema := "public", table := "parts", name := "parts_kind"
    definition := "CREATE INDEX parts_kind ON public.parts USING btree (split_part(path, '::text'::text, 1))" }

/-- The mark is left out with the casts, so that the statement is about another part of the text. -/
theorem partsKind_loses_mark :
    partsKind.ddl (some "public") = "CREATE INDEX parts_kind ON parts (split_part(path, '', 1));" ∧
    literals .outside (partsKind.ddl (some "public")).toList ≠
      literals .outside (partsKind.definition.given.getD "").toList := by
  obtain ⟨hddl, -, hiff⟩ := (literals_kept_iff "split_part(path, '::text'::text, 1)" partsKind
    "CREATE INDEX parts_kind ON public.parts USING btree (split_part(path, '::text'::text, 1))" (some "public")).2
    (by decide) (by decide)
  have hnone : Ddl.commentAfter ("INDEX " ++ Ddl.reference partsKind.schema partsKind.name (some "public"))
      partsKind.comment = "" := rfl
  rw [hnone, String.append_empty] at hddl
  refine ⟨by decide +kernel, ?_⟩
  rw [hddl]
  refine fun hsame => ?_
  obtain ⟨-, hparts⟩ := (hiff (by decide +kernel) (by decide +kernel)).mp hsame
  obtain ⟨p, hp, hexpression⟩ : ∃ p, shortened?
      "CREATE INDEX parts_kind ON public.parts USING btree (split_part(path, '::text'::text, 1))" = some p ∧
      p.expression = "split_part(path, '::text'::text, 1)".toList :=
    Option.map_eq_some_iff.mp (by decide +kernel)
  have hmark : "::text".toList ∈ literals .outside p.expression := by
    rw [hexpression]
    decide +kernel
  exact ((hparts p hp).short _ hmark).cast (List.infix_refl _)

end Index
end SchemaScript
