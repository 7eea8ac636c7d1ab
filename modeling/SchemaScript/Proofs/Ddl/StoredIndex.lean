import SchemaScript.Ddl.Index
import SchemaScript.Proofs.Ddl.Literals
import SchemaScript.Proofs.Text.Basic
import Mathlib.Logic.Relation

/-!
# Stored definitions of indexes

A definition that is taken apart consists of words and blanks, the expression between parentheses, and perhaps a
predicate (`exists_of_read?`). The statement written from any definition comes from it by edits at single places:
a schema or the usual method is left out, an expression gets its short form, or blanks become one
(`Index.isEdition_fromDefinition`).
-/

namespace SchemaScript

open Ddl

namespace StoredIndex

variable {s r : List Char} {p : StoredIndex}

/-! ## The parts of a definition -/

/-- In front of the expression there are words, blanks and points. -/
def IsHead (s : List Char) : Prop :=
  ∀ c ∈ s, ¬ IsMark c ∧ c ≠ '('

theorem IsHead.append {t : List Char} (h : IsHead s) (h' : IsHead t) : IsHead (s ++ t) :=
  List.forall_mem_append.mpr ⟨h, h'⟩

theorem IsHead.isPlain (h : IsHead s) : IsPlain s :=
  fun c hc => (h c hc).1

theorem isHead_of_blank (h : ∀ c ∈ s, Text.isBlank c) : IsHead s := by
  intro c hc
  have hblank := h c hc
  refine ⟨?_, ?_⟩
  · rintro (rfl | rfl) <;> exact absurd hblank (by decide)
  · rintro rfl
    exact absurd hblank (by decide)

theorem isHead_of_word (h : ∀ c ∈ s, Text.isWordChar c) : IsHead s := by
  intro c hc
  have hword := h c hc
  refine ⟨?_, ?_⟩
  · rintro (rfl | rfl) <;> exact absurd hword (by decide)
  · rintro rfl
    exact absurd hword (by decide)

/-- Blanks, and at least one. -/
structure IsGap (s : List Char) : Prop where
  blank : ∀ c ∈ s, Text.isBlank c
  nonempty : s ≠ []

/-- The second text is the first one with single blanks for some of its gaps. -/
inductive Respaced : List Char → List Char → Prop
  | refl (s : List Char) : Respaced s s
  | gap {s : List Char} (h : IsGap s) : Respaced s [' ']
  | append {s s' t t' : List Char} (h : Respaced s s') (h' : Respaced t t') : Respaced (s ++ t) (s' ++ t')

/-- The second text begins with the first one, which may have more blanks there, and the third one is left. -/
def Leads (front s r : List Char) : Prop :=
  ∃ head, s = head ++ r ∧ IsHead head ∧ Respaced head front

theorem Leads.trans {front front' t : List Char} (h : Leads front s r) (h' : Leads front' r t) :
    Leads (front ++ front') s t := by
  obtain ⟨head, rfl, hhead, hfront⟩ := h
  obtain ⟨head', rfl, hhead', hfront'⟩ := h'
  exact ⟨head ++ head', (List.append_assoc ..).symm, hhead.append hhead', hfront.append hfront'⟩

theorem exists_of_blanks? (h : blanks? s = some r) : ∃ gap, s = gap ++ r ∧ IsGap gap := by
  cases s with
  | nil => contradiction
  | cons c s =>
    rw [blanks?] at h
    split at h
    · next hc =>
      obtain rfl := Option.some.inj h
      refine ⟨c :: s.takeWhile Text.isBlank, ?_, ⟨List.forall_mem_cons.mpr ⟨hc, fun d hd => ?_⟩, by simp⟩⟩
      · rw [List.cons_append, List.takeWhile_append_dropWhile]
      · exact List.mem_takeWhile_imp hd
    · contradiction

theorem exists_of_after? {lead : List Char} (h : Text.after? lead s = some r) : s = lead ++ r := by
  unfold Text.after? at h
  split at h
  · next hprefix =>
    obtain ⟨rest, rfl⟩ := List.isPrefixOf_iff_prefix.mp hprefix
    obtain rfl := Option.some.inj h
    rw [List.drop_left]
  · contradiction

theorem leads_of_blanks? (h : blanks? s = some r) : Leads [' '] s r := by
  obtain ⟨gap, rfl, hgap⟩ := exists_of_blanks? h
  exact ⟨gap, rfl, isHead_of_blank hgap.blank, .gap hgap⟩

theorem leads_of_keyword? {word : String} {front : List Char} (hword : word.toList.all Text.isWordChar)
    (hfront : front = word.toList ++ [' ']) (h : keyword? word s = some r) : Leads front s r := by
  subst hfront
  obtain ⟨rest, hrest, hblanks⟩ := Option.bind_eq_some_iff.mp h
  obtain rfl := exists_of_after? hrest
  exact .trans ⟨word.toList, rfl, isHead_of_word (List.all_eq_true.mp hword), .refl _⟩ (leads_of_blanks? hblanks)

theorem leads_of_word? {w : List Char} (h : word? s = some (w, r)) :
    Leads w s r ∧ ∀ c ∈ w, Text.isWordChar c := by
  unfold word? at h
  split at h
  · contradiction
  · obtain ⟨rfl, rfl⟩ := Prod.mk.inj (Option.some.inj h)
    have hword (c : Char) (hc : c ∈ s.takeWhile Text.isWordChar) : Text.isWordChar c := List.mem_takeWhile_imp hc
    exact ⟨⟨_, List.takeWhile_append_dropWhile.symm, isHead_of_word hword, .refl _⟩, hword⟩

/-- The table with its schema, if any. -/
def reference (schema : Option (List Char)) (table : List Char) : List Char :=
  match schema with
  | some w => w ++ '.' :: table
  | none => table

theorem leads_of_reference? {schema : Option (List Char)} {table : List Char}
    (h : reference? s = some (schema, table, r)) : Leads (reference schema table) s r ∧
      (∀ w ∈ schema, ∀ c ∈ w, Text.isWordChar c) ∧ ∀ c ∈ table, Text.isWordChar c := by
  obtain ⟨⟨first, rest⟩, hfirst, hmore⟩ := Option.bind_eq_some_iff.mp h
  obtain ⟨hleads, hword⟩ := leads_of_word? hfirst
  dsimp only at hmore
  split at hmore
  · next t =>
    obtain ⟨⟨second, u⟩, hsecond, hlast⟩ := Option.bind_eq_some_iff.mp hmore
    obtain ⟨hleads', hword'⟩ := leads_of_word? hsecond
    obtain ⟨rfl, hrest⟩ := Prod.mk.inj (Option.some.inj hlast)
    obtain ⟨rfl, rfl⟩ := Prod.mk.inj hrest
    have hpoint : Leads ['.'] ('.' :: t) t :=
      ⟨['.'], rfl, List.forall_mem_singleton.mpr ⟨by unfold IsMark; decide, by decide⟩, .refl _⟩
    exact ⟨hleads.trans (hpoint.trans hleads'), by simpa using hword, hword'⟩
  · obtain ⟨rfl, hrest⟩ := Prod.mk.inj (Option.some.inj hmore)
    obtain ⟨rfl, rfl⟩ := Prod.mk.inj hrest
    exact ⟨hleads, by simp, hword⟩

/-- A final line end, or nothing. -/
def IsEnd (s : List Char) : Prop :=
  s = [] ∨ s = ['\n']

theorem IsEnd.isBlank (h : IsEnd s) : ∀ c ∈ s, Text.isBlank c := by
  rcases h with rfl | rfl
  · exact List.forall_mem_nil _
  · exact List.forall_mem_singleton.mpr (by decide)

theorem exists_of_lastLine? {line : List Char} (h : lastLine? s = some line) :
    '\n' ∉ line ∧ ∃ last, s = line ++ last ∧ IsEnd last := by
  unfold lastLine? at h
  have hsplit : s.takeWhile (· != '\n') ++ s.dropWhile (· != '\n') = s := List.takeWhile_append_dropWhile
  have hline : '\n' ∉ s.takeWhile (· != '\n') := fun hmem =>
    absurd (List.mem_takeWhile_imp hmem) (by decide)
  dsimp only at h
  split at h
  · next hdrop =>
    obtain rfl := Option.some.inj h
    exact ⟨hline, [], by rw [← hdrop, hsplit], .inl rfl⟩
  · next hdrop =>
    obtain rfl := Option.some.inj h
    exact ⟨hline, ['\n'], by rw [← hdrop, hsplit], .inr rfl⟩
  · contradiction

/-- What may stand behind the expression and its closing parenthesis. -/
inductive IsTail : Option (List Char) → List Char → Prop
  | none {last : List Char} (hlast : IsEnd last) : IsTail none last
  | predicate {gap gap' condition last : List Char} (hgap : IsGap gap) (hgap' : IsGap gap')
      (hcondition : condition ≠ [] ∧ '\n' ∉ condition) (hlast : IsEnd last) :
    IsTail (some condition) (gap ++ ("WHERE".toList ++ (gap' ++ (condition ++ last))))

theorem exists_of_lastBlank? {condition : List Char} (h : lastBlank? s = some condition) :
    (condition ≠ [] ∧ '\n' ∉ condition) ∧ ∃ front last, s = front ++ (condition ++ last) ∧ front ≠ [] ∧ IsEnd last := by
  have hsplit := s.reverse_reverse
  unfold lastBlank? at h
  rw [← hsplit]
  generalize s.reverse = back at h
  dsimp only at h
  split at h
  · next c d r hcons =>
    split at h
    · contradiction
    · next hc =>
      obtain rfl := Option.some.inj h
      refine ⟨⟨by simp, ?_⟩, ?_⟩
      · exact fun hmem => hc (beq_iff_eq.mpr (List.mem_singleton.mp hmem).symm)
      split at hcons
      · subst hcons
        exact ⟨(d :: r).reverse, ['\n'], by simp, by simp, .inr rfl⟩
      · subst hcons
        exact ⟨(d :: r).reverse, [], by simp, by simp, .inl rfl⟩
  · contradiction

theorem isTail_of_predicate? {condition : List Char} (h : predicate? s = some condition) :
    IsTail (some condition) s := by
  obtain ⟨t, ht, hafter⟩ := Option.bind_eq_some_iff.mp h
  obtain ⟨r, hr, hblanks⟩ := Option.bind_eq_some_iff.mp hafter
  obtain ⟨u, hu, hlines⟩ := Option.bind_eq_some_iff.mp hblanks
  obtain ⟨line, hline, hcondition⟩ := Option.bind_eq_some_iff.mp hlines
  obtain ⟨gap, rfl, hgap⟩ := exists_of_blanks? ht
  obtain rfl := exists_of_after? hr
  obtain ⟨gap', rfl, hgap'⟩ := exists_of_blanks? hu
  obtain ⟨honeLine, last, rfl, hlast⟩ := exists_of_lastLine? hline
  split at hcondition
  · obtain ⟨hblank, front, last', hsplit, hfront, hlast'⟩ := exists_of_lastBlank? hcondition
    rw [hsplit]
    refine .predicate hgap ⟨fun c hc => ?_, hfront⟩ hblank hlast'
    have hmem : c ∈ gap' ++ ([] ++ last) := hsplit ▸ List.mem_append_left _ hc
    rcases List.mem_append.mp hmem with hmem | hmem
    · exact hgap'.blank c hmem
    · rcases hlast with rfl | rfl
      · contradiction
      · rw [List.mem_singleton.mp hmem]
        decide
  · next hline =>
    obtain rfl := Option.some.inj hcondition
    exact .predicate hgap hgap' ⟨hline, honeLine⟩ hlast

theorem exists_of_expression? {before e : List Char} {condition : Option (List Char)}
    (h : expression? before s = some (e, condition)) :
    ∃ tail, before.reverse ++ s = e ++ ')' :: tail ∧ IsTail condition tail := by
  induction s generalizing before with
  | nil => contradiction
  | cons c r ih =>
    rw [expression?] at h
    split at h
    · next found hfound =>
      obtain rfl := Option.some.inj h
      split at hfound
      · next hclose =>
        obtain ⟨hc, -⟩ := Bool.and_eq_true_iff.mp hclose
        obtain rfl := beq_iff_eq.mp hc
        split at hfound
        · next hpredicate =>
          obtain ⟨rfl, rfl⟩ := Prod.mk.inj (Option.some.inj hfound)
          exact ⟨r, rfl, isTail_of_predicate? hpredicate⟩
        · split at hfound
          · next hline =>
            obtain ⟨rfl, rfl⟩ := Prod.mk.inj (Option.some.inj hfound)
            obtain ⟨-, last, hr, hlast⟩ := exists_of_lastLine? (beq_iff_eq.mp hline)
            rw [List.nil_append] at hr
            exact ⟨r, rfl, .none (hr ▸ hlast)⟩
          · contradiction
      · contradiction
    · split at h
      · contradiction
      · obtain ⟨tail, hsplit, htail⟩ := ih h
        refine ⟨tail, ?_, htail⟩
        rw [← hsplit, List.reverse_cons, List.append_assoc, List.singleton_append]

/-- What a definition says up to its table. -/
def opening (p : StoredIndex) : List Char :=
  "CREATE ".toList ++ ((if p.isUnique then "UNIQUE ".toList else []) ++ ("INDEX ".toList ++ (p.name ++
    (" ON ".toList ++ reference p.schema p.table))))

/-- A definition that is taken apart consists of words and blanks, the expression between parentheses, and perhaps a
predicate. -/
theorem exists_of_read? (h : read? s = some p) : ∃ tail,
    Leads (p.opening ++ (" USING ".toList ++ (p.method ++ [' ']))) s ('(' :: (p.expression ++ ')' :: tail)) ∧
    IsTail p.predicate tail ∧ (∀ c ∈ p.name, Text.isWordChar c) ∧ (∀ w ∈ p.schema, ∀ c ∈ w, Text.isWordChar c) ∧
    (∀ c ∈ p.table, Text.isWordChar c) ∧ ∀ c ∈ p.method, Text.isWordChar c := by
  unfold read? at h
  simp only [Option.bind_eq_bind, Option.bind_eq_some_iff] at h
  obtain ⟨a, ha, b, hb, ⟨name, c⟩, hname, d, hd, e, he, ⟨schema, table, f⟩, hreference, g, hg, i, hi, ⟨method, j⟩,
    hmethod, k, hk, l, hl, ⟨expression, condition⟩, hexpression, hp⟩ := h
  cases p with | mk isUnique
  obtain ⟨hunique, rfl, rfl, rfl, rfl, rfl, rfl⟩ := StoredIndex.mk.inj (Option.some.inj hp)
  have hindex : Leads ((if isUnique then "UNIQUE ".toList else []) ++ "INDEX ".toList) a b := by
    rw [← hunique]
    cases hfound : keyword? "UNIQUE" a with
    | none =>
      rw [hfound] at hb
      exact leads_of_keyword? (by decide) rfl hb
    | some t =>
      rw [hfound] at hb
      have hfirst : Leads "UNIQUE ".toList a t := leads_of_keyword? (by decide) rfl hfound
      exact hfirst.trans (leads_of_keyword? (by decide) rfl hb)
  obtain ⟨hnameleads, hnamed⟩ := leads_of_word? hname
  obtain ⟨htableleads, hschema, htable⟩ := leads_of_reference? hreference
  obtain ⟨hmethodleads, hmethod⟩ := leads_of_word? hmethod
  obtain ⟨tail, hsplit, htail⟩ := exists_of_expression? hexpression
  obtain rfl := exists_of_after? hl
  rw [List.reverse_nil, List.nil_append] at hsplit
  have hcreate : Leads "CREATE ".toList s a := leads_of_keyword? (by decide) (by decide) ha
  have hon : Leads " ON ".toList c e :=
    (leads_of_blanks? hd).trans (leads_of_keyword? (by decide) rfl he)
  have husing : Leads " USING ".toList f i :=
    (leads_of_blanks? hg).trans (leads_of_keyword? (by decide) rfl hi)
  refine ⟨tail, ?_, htail, hnamed, hschema, htable, hmethod⟩
  rw [← hsplit]
  have hall := hcreate.trans <| hindex.trans <| hnameleads.trans <| hon.trans <|
    htableleads.trans <| husing.trans <| hmethodleads.trans (leads_of_blanks? hk)
  unfold opening
  simpa only [List.append_assoc, List.singleton_append] using hall

/-! ## The short form of a definition -/

/-- What the short form says before the expression: the usual method is left out. -/
def shortOpening (p : StoredIndex) : List Char :=
  p.opening ++ ((if p.method == "btree".toList then [] else " USING ".toList ++ p.method) ++ [' '])

theorem toList_text (p : StoredIndex) : p.text.toList = p.shortOpening ++ '(' :: (Ddl.short p.expression ++ ')' ::
    (match p.predicate with | some condition => " WHERE ".toList ++ condition | none => [])) := by
  have hunique : (if p.isUnique then "UNIQUE " else "").toList = if p.isUnique then "UNIQUE ".toList else [] := by
    split <;> rfl
  have husage : (if p.method == "btree".toList then "" else " USING " ++ String.ofList p.method).toList =
      if p.method == "btree".toList then [] else " USING ".toList ++ p.method := by
    split
    · rfl
    · exact (String.toList_append ..).trans (congrArg _ String.toList_ofList)
  unfold text shortOpening opening reference
  rcases p.schema with _ | w <;> rcases p.predicate with _ | condition <;>
    simp only [String.toList_append, hunique, husage, toList_indexExpression, String.toList_ofList,
      List.append_assoc] <;>
    rfl

/-! ## Leaving out a schema -/

/-- No word character and no point stands before. -/
def isBoundary : Option Char → Bool
  | some l => !(Text.isWordChar l || l == '.')
  | none => true

theorem dropQualifier_eq_rewrite (lead : List Char) (skip : Nat) (last : Option Char) (s : List Char) :
    dropQualifier lead skip last s = Text.rewrite isBoundary lead [] skip last s := by
  induction s generalizing skip last with
  | nil => cases skip <;> rfl
  | cons c s ih =>
    cases skip with
    | succ skip => exact ih skip (some c)
    | zero =>
      rw [Text.rewrite, List.nil_append, ← ih, ← ih]
      cases last <;> rfl

/-- The text without the schema, if any, and without the usual method. -/
def cleared (lead? : Option (List Char)) (s : List Char) : List Char :=
  replaced " USING btree" "" (match lead? with | some lead => dropQualifier lead 0 none s | none => s)

theorem exists_bare (definition : String) : ∃ semicolons, Text.trim definition.toList = bare definition ++ semicolons ∧
    ∀ c ∈ semicolons, c = ';' := by
  refine ⟨((Text.trim definition.toList).reverse.takeWhile (· == ';')).reverse, ?_, fun c hc => ?_⟩
  · rw [bare, ← List.reverse_append, List.takeWhile_append_dropWhile, List.reverse_reverse]
  · have hmark := List.mem_takeWhile_imp (List.mem_reverse.mp hc)
    exact beq_iff_eq.mp hmark

theorem bare_strip (definition : String) : bare (Text.strip definition) = bare definition := by
  unfold bare
  rw [Text.strip, String.toList_ofList, Text.trim_trim]

/-- The parts of a definition that is brought into short form. -/
def shortened? (definition : String) : Option StoredIndex :=
  (read? (bare definition)).filter fun p => Ddl.looksLikeExpression (String.ofList p.expression)

theorem simplified_eq (definition : String) :
    simplified definition = match shortened? definition with | some p => p.text | none => definition := by
  unfold simplified shortened?
  cases read? (bare definition) with
  | none => rfl
  | some p =>
    rw [Option.filter_some]
    dsimp only
    split <;> rfl

/-! ## Edits -/

/-- What may be written anew where `front` stands before it: casts, operators between blanks and gaps get shorter, and
the usual method and a schema are left out. -/
inductive Edit (lead? : Option (List Char)) (front : List Char) : List Char → List Char → Prop
  | cast : Edit lead? front "::text".toList []
  | textOperator : Edit lead? front " ->> ".toList "->>".toList
  | operator : Edit lead? front " -> ".toList "->".toList
  | gap {gap : List Char} (hgap : IsGap gap) : Edit lead? front gap [' ']
  | method : Edit lead? front " USING btree".toList []
  | qualifier {lead : List Char} (hlead : lead ∈ lead?) (hfront : isBoundary front.getLast?) : Edit lead? front lead []

/-- One edit at one place of a text. -/
inductive EditStep (lead? : Option (List Char)) : List Char → List Char → Prop
  | intro {front old new : List Char} (h : Edit lead? front old new) (back : List Char) :
    EditStep lead? (front ++ (old ++ back)) (front ++ (new ++ back))

/-- The second text comes from the first one by edits. -/
def Edited (lead? : Option (List Char)) : List Char → List Char → Prop :=
  Relation.ReflTransGen (EditStep lead?)

/-- The second text comes by edits from the first one without blanks and semicolons at its ends. -/
def IsEdition (lead? : Option (List Char)) (definition text : List Char) : Prop :=
  ∃ front core back, definition = front ++ (core ++ back) ∧ (∀ c ∈ front, Text.isBlank c) ∧
    (∀ c ∈ back, Text.isBlank c ∨ c = ';') ∧ Edited lead? core text

variable {lead? : Option (List Char)}

theorem edited_of_respaced {t : List Char} (h : Respaced s t) (front back : List Char) :
    Edited lead? (front ++ (s ++ back)) (front ++ (t ++ back)) := by
  induction h generalizing front back with
  | refl => exact .refl
  | gap hgap => exact .single (.intro (.gap hgap) back)
  | @append s s' t t' h h' ih ih' =>
    have hfirst := ih front (t ++ back)
    have hsecond := ih' (front ++ s') back
    simp only [List.append_assoc] at hfirst hsecond ⊢
    exact hfirst.trans hsecond

/-- Of two places the later one is written anew first, so that the text before each one is the old text. -/
theorem edited_rewrite {ready : Option Char → Bool} {old new : List Char} (hold : old ≠ [])
    (hedit : ∀ front c, ready (some c) → Edit lead? (front ++ [c]) old new) {front : List Char} {last : Option Char}
    (hfront : ready last → Edit lead? front old new) (s back : List Char) :
    Edited lead? (front ++ (s ++ back)) (front ++ (Text.rewrite ready old new 0 last s ++ back)) := by
  induction last, s using Text.rewrite_induction ready hold generalizing front with
  | nil last => exact .refl
  | hit last s hready ih =>
    have hlater := @ih (front ++ old) fun hready' => by
      obtain ⟨before, c, rfl⟩ := List.eq_nil_or_concat' old |>.resolve_left hold
      rw [List.getLast?_concat] at hready'
      rw [← List.append_assoc]
      exact hedit _ c hready'
    rw [Text.rewrite_hit hold hready]
    simp only [List.append_assoc] at hlater ⊢
    exact hlater.tail (.intro (hfront hready) _)
  | miss last c s hmiss ih =>
    have hlater := @ih (front ++ [c]) (hedit front c)
    rw [Text.rewrite_miss hmiss]
    simpa only [List.append_assoc, List.cons_append, List.nil_append] using hlater

theorem edited_replaced (old new : String) (hold : old.toList ≠ [])
    (hedit : ∀ front, Edit lead? front old.toList new.toList) (front s back : List Char) :
    Edited lead? (front ++ (s ++ back)) (front ++ (replaced old new s ++ back)) :=
  edited_rewrite hold (fun _ _ _ => hedit _) (fun _ => hedit front) s back

theorem edited_short (front e back : List Char) :
    Edited lead? (front ++ (e ++ back)) (front ++ (Ddl.short e ++ back)) :=
  (edited_replaced "::text" "" (by decide) (fun _ => .cast) front e back).trans <|
    (edited_replaced " ->> " "->>" (by decide) (fun _ => .textOperator) front _ back).trans <|
      edited_replaced " -> " "->" (by decide) (fun _ => .operator) front _ back

theorem edited_cleared (hlead : ∀ lead ∈ lead?, lead ≠ []) (s : List Char) : Edited lead? s (cleared lead? s) := by
  have hmethod (s : List Char) : Edited lead? ([] ++ (s ++ [])) ([] ++ (replaced " USING btree" "" s ++ [])) :=
    edited_replaced " USING btree" "" (by decide) (fun _ => .method) [] s []
  simp only [List.nil_append, List.append_nil] at hmethod
  unfold cleared
  cases lead? with
  | none => exact hmethod s
  | some lead =>
    have hqualifier : Edited (some lead) ([] ++ (s ++ [])) ([] ++ (Text.rewrite isBoundary lead [] 0 none s ++ [])) :=
      edited_rewrite (hlead lead rfl) (fun front c hc => .qualifier rfl (by rwa [List.getLast?_concat]))
        (fun _ => .qualifier rfl rfl) s []
    rw [← dropQualifier_eq_rewrite] at hqualifier
    simp only [List.nil_append, List.append_nil] at hqualifier
    exact hqualifier.trans (hmethod _)

theorem edited_text (lead? : Option (List Char)) (h : read? s = some p) :
    ∃ core last, s = core ++ last ∧ IsEnd last ∧ Edited lead? core p.text.toList := by
  obtain ⟨tail, ⟨head, rfl, -, hhead⟩, htail, -⟩ := exists_of_read? h
  have hopening (back : List Char) : Edited lead? (head ++ back) (p.shortOpening ++ back) := by
    refine .trans (edited_of_respaced hhead [] back) ?_
    unfold shortOpening
    split
    · next hmethod =>
      rw [beq_iff_eq.mp hmethod]
      simp only [List.append_assoc]
      exact .single (.intro .method ([' '] ++ back))
    · simp only [List.append_assoc]
      exact .refl
  rw [toList_text]
  have hexpression (back : List Char) : Edited lead? (head ++ '(' :: (p.expression ++ back))
      (p.shortOpening ++ '(' :: (Ddl.short p.expression ++ back)) := by
    have hshort : Edited lead? _ _ := edited_short (p.shortOpening ++ ['(']) p.expression back
    simp only [List.append_assoc, List.singleton_append] at hshort
    exact (hopening _).trans hshort
  generalize p.predicate = condition at htail
  cases htail with
  | none hlast => exact ⟨head ++ '(' :: (p.expression ++ [')']), tail, by simp, hlast, hexpression [')']⟩
  | @predicate gap gap' condition last hgap hgap' honeLine hlast =>
    refine ⟨head ++ '(' :: (p.expression ++ ')' :: (gap ++ ("WHERE".toList ++ (gap' ++ condition)))), last, by simp,
      hlast, (hexpression _).trans ?_⟩
    have hgaps : Edited lead? _ _ := edited_of_respaced
      (.append (.gap hgap) (.append (.refl "WHERE".toList) (.gap hgap')))
      (p.shortOpening ++ '(' :: (Ddl.short p.expression ++ [')'])) condition
    simp only [List.append_assoc, List.cons_append, List.nil_append] at hgaps
    exact hgaps

end StoredIndex

namespace Index

open StoredIndex

variable {index : Index} {definition : String} {target : Option String}

/-- The target schema with its point, where it is the schema of the index. -/
def ownQualifier? (index : Index) (target : Option String) : Option (List Char) :=
  (index.schema.given.filter (some · == target)).map fun schema => (schema ++ ".").toList

theorem toList_fromDefinition (index : Index) (definition : String) (target : Option String) :
    (index.fromDefinition definition target).toList =
      cleared (index.ownQualifier? target) (simplified (Text.strip definition)).toList := by
  refine (Text.toList_replaceAll ..).trans (congrArg (replaced " USING btree" "") ?_)
  unfold ownQualifier?
  cases index.schema.given with
  | none => rfl
  | some schema =>
    rw [Option.filter_some]
    by_cases htarget : some schema == target
    · simp only [htarget, if_true, Option.map_some, String.toList_ofList]
    · simp only [htarget, if_false, Option.map_none, Bool.false_eq_true]

theorem ownQualifier_ne_nil {lead : List Char} (h : lead ∈ index.ownQualifier? target) : lead ≠ [] := by
  obtain ⟨schema, -, rfl⟩ := Option.map_eq_some_iff.mp h
  simp

/-- What is written from a definition is the definition without blanks and semicolons at its ends, but for edits. -/
theorem isEdition_fromDefinition (index : Index) (definition : String) (target : Option String) :
    IsEdition (index.ownQualifier? target) definition.toList (index.fromDefinition definition target).toList := by
  obtain ⟨front, back, hsplit, hfront, hback⟩ := Text.exists_trim definition.toList
  have hcleared (s : List Char) :
      Edited (index.ownQualifier? target) s (cleared (index.ownQualifier? target) s) :=
    edited_cleared (fun _ => ownQualifier_ne_nil) s
  rw [toList_fromDefinition, simplified_eq]
  cases hshort : shortened? (Text.strip definition) with
  | none =>
    rw [Text.strip, String.toList_ofList]
    exact ⟨front, _, back, hsplit, hfront, fun c hc => .inl (hback c hc), hcleared _⟩
  | some p =>
    obtain ⟨hread, -⟩ := Option.filter_eq_some_iff.mp hshort
    rw [bare_strip] at hread
    obtain ⟨core, last, hcore, hlast, hedited⟩ := edited_text (index.ownQualifier? target) hread
    obtain ⟨semicolons, hsemicolons, hmarks⟩ := exists_bare definition
    refine ⟨front, core, last ++ (semicolons ++ back), ?_, hfront, fun c hc => ?_, hedited.trans (hcleared _)⟩
    · rw [hsplit, hsemicolons, hcore]
      simp only [List.append_assoc]
    · rcases List.mem_append.mp hc with hc | hc
      · exact .inl (hlast.isBlank c hc)
      · exact (List.mem_append.mp hc).symm.imp (hback c) (hmarks c)

end Index
end SchemaScript
