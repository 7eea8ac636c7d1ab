import SchemaScript.Proofs.Sql.TypeName
import Mathlib.Data.List.TakeWhile

/-!
# Texts without a schema in front

Where the first point of a text comes only behind an opening parenthesis, no schema stands in front of it, and
none does in front of its canonical spelling (`Unqualified.canonicalType`). So there is nothing that could be
taken off (`dropSchema_of_not_qualified`).
-/

namespace SchemaScript.Sql

/-- No point stands before the first opening parenthesis. -/
def Unqualified (s : List Char) : Prop :=
  '.' ∉ s.takeWhile (· != '(')

instance (s : List Char) : Decidable (Unqualified s) :=
  inferInstanceAs (Decidable ('.' ∉ s.takeWhile (· != '(')))

variable {s t lead : List Char}

theorem unqualified_of_no_point (h : '.' ∉ s) : Unqualified s :=
  fun hpoint => h ((List.takeWhile_prefix _).subset hpoint)

/-- What is put between parentheses behind the text does not count. -/
theorem unqualified_append (h : '.' ∉ s) (t : List Char) : Unqualified (s ++ '(' :: t) := by
  intro hpoint
  refine h ?_
  induction s with
  | nil => simp at hpoint
  | cons c s ih =>
    rw [List.cons_append, List.takeWhile_cons] at hpoint
    split at hpoint
    · rcases List.mem_cons.mp hpoint with rfl | hpoint
      · exact List.mem_cons_self ..
      · exact List.mem_cons_of_mem c (ih (fun hs => h (List.mem_cons_of_mem c hs)) hpoint)
    · contradiction

namespace Unqualified

theorem of_prefix (h : Unqualified s) (hfront : t <+: s) : Unqualified t := by
  obtain ⟨r, rfl⟩ := hfront
  intro hpoint
  refine h ?_
  rw [List.takeWhile_append]
  split
  · exact List.mem_append_left _ ((List.takeWhile_prefix _).subset hpoint)
  · exact hpoint

theorem append (h : Unqualified s) (ht : '.' ∉ t) : Unqualified (s ++ t) := by
  intro hpoint
  rw [List.takeWhile_append] at hpoint
  split at hpoint
  · next hall =>
    rcases List.mem_append.mp hpoint with hpoint | hpoint
    · exact h (by rwa [(List.takeWhile_prefix _).eq_of_length hall])
    · exact ht ((List.takeWhile_prefix _).subset hpoint)
  · exact h hpoint

theorem trimStart (h : Unqualified s) : Unqualified (Text.trimStart s) := by
  induction s with
  | nil => exact h
  | cons c s ih =>
    unfold Text.trimStart
    rw [List.dropWhile_cons]
    split
    · next hblank =>
      refine ih fun hpoint => h ?_
      have hc : (c != '(') = true := by
        rw [bne_iff_ne]
        rintro rfl
        contradiction
      rw [List.takeWhile_cons, if_pos hc]
      exact List.mem_cons_of_mem c hpoint
    · exact h

theorem trim (h : Unqualified s) : Unqualified (Text.trim s) :=
  h.trimStart.of_prefix (Text.trimEnd_prefix _)

theorem not_prefix (h : Unqualified s) (hpoint : '.' ∈ lead) (hopen : '(' ∉ lead) : ¬ lead <+: s := by
  intro hfront
  have hlead : lead.takeWhile (· != '(') = lead := by
    refine List.takeWhile_eq_self_iff.mpr fun c hc => ?_
    rw [bne_iff_ne]
    rintro rfl
    exact hopen hc
  refine h.of_prefix hfront ?_
  rwa [hlead]

theorem bareTypeName (h : Unqualified s) : Unqualified (bareTypeName s) := by
  unfold Sql.bareTypeName
  dsimp only
  unfold Text.after?
  rw [if_neg fun hfront => h.trim.not_prefix (by decide) (by decide) (List.isPrefixOf_iff_prefix.mp hfront)]
  exact h.trim

theorem canonicalScalar (h : Unqualified s) : Unqualified (canonicalScalar s).toList := by
  have halias {name spelling : String} (hname : alias? name = some spelling) : '.' ∉ spelling.toList := by
    obtain ⟨entry, hentry, rfl⟩ := Option.map_eq_some_iff.mp hname
    have hall : ∀ entry ∈ typeAliases, '.' ∉ entry.2.toList := by decide
    exact hall entry (List.mem_of_find?_eq_some hentry)
  unfold Sql.canonicalScalar
  split
  · next element helement =>
    rw [String.toList_append]
    refine append ?_ (by decide)
    cases hname : alias? element with
    | some spelling => exact unqualified_of_no_point (halias hname)
    | none =>
      unfold underscoreElement? at helement
      split at helement
      · next c r =>
        obtain rfl := Option.some.inj (Option.ite_none_right_eq_some.mp helement).2
        rw [Option.getD_none, String.toList_ofList]
        exact fun hpoint => h (List.mem_cons_of_mem '_' hpoint)
      · contradiction
  · cases hname : alias? (String.ofList s) with
    | some spelling => exact unqualified_of_no_point (halias hname)
    | none => simpa using h

theorem canonicalWithin (h : Unqualified s) (depth : Nat) : Unqualified (canonicalWithin depth s).toList := by
  induction depth generalizing s with
  | zero =>
    rw [Sql.canonicalWithin, String.toList_ofList]
    exact h
  | succ depth ih =>
    rw [Sql.canonicalWithin]
    split
    · decide
    · split
      · next element helement =>
        rw [String.toList_append]
        refine (ih (h.bareTypeName.of_prefix ?_)).append (by decide)
        unfold arrayElement? at helement
        split at helement
        · next r hr =>
          obtain rfl := Option.some.inj helement
          rw [← List.reverse_suffix, List.reverse_reverse, hr]
          exact List.suffix_append [']', '['] r
        · contradiction
      · exact h.bareTypeName.canonicalScalar

/-- The canonical spelling of a type that has no schema in front has none either. -/
theorem canonicalType {name : String} (h : Unqualified name.toList) : Unqualified (canonicalType name).toList :=
  h.canonicalWithin _

end Unqualified

/-! ## Schemas that can be taken off -/

/-- The text begins with the schema and a point, whether the schema is quoted there or not. -/
def isQualifiedBy (schema text : String) : Bool :=
  Text.startsWith text (schema ++ ".") || Text.startsWith text ("\"" ++ schema ++ "\".")

variable {schema text : String}

theorem isQualifiedBy_iff : isQualifiedBy schema text = true ↔
    (schema ++ ".").toList <+: text.toList ∨ ("\"" ++ schema ++ "\".").toList <+: text.toList := by
  simp only [isQualifiedBy, Text.startsWith, Bool.or_eq_true, List.isPrefixOf_iff_prefix]

theorem isQualifiedBy_of_unqualified (h : Unqualified text.toList) (hschema : '(' ∉ schema.toList) :
    isQualifiedBy schema text = false := by
  rw [← Bool.not_eq_true, isQualifiedBy_iff]
  rintro (hfront | hfront)
  · exact h.not_prefix (by simp) (by simpa using hschema) hfront
  · exact h.not_prefix (by simp) (by simpa using hschema) hfront

/-- What stands between parentheses behind the text does not put a schema in front of it. -/
theorem isQualifiedBy_append (h : isQualifiedBy schema text = false) (hschema : '(' ∉ schema.toList)
    (rest : String) : isQualifiedBy schema (text ++ "(" ++ rest) = false := by
  have hfront {lead : List Char} (hopen : '(' ∉ lead) (hlead : lead <+: (text ++ "(" ++ rest).toList) :
      lead <+: text.toList := by
    have hletters : (text ++ "(" ++ rest).toList = text.toList ++ '(' :: rest.toList := by simp
    rw [hletters] at hlead
    rcases List.prefix_or_prefix_of_prefix hlead (List.prefix_append _ _) with hshort | ⟨more, rfl⟩
    · exact hshort
    · rcases more with _ | ⟨c, more⟩
      · exact ⟨[], by simp⟩
      · rw [List.prefix_append_right_inj, List.cons_prefix_cons] at hlead
        exact absurd (hlead.1 ▸ List.mem_append_right _ (List.mem_cons_self ..)) hopen
  rw [← Bool.not_eq_true, isQualifiedBy_iff] at h ⊢
  exact fun hqualified => h (hqualified.imp (hfront (by simpa using hschema)) (hfront (by simpa using hschema)))

theorem dropSchema_of_not_qualified (h : isQualifiedBy schema text = false) :
    dropSchema (some text) (some schema) = some text := by
  unfold dropSchema
  cases hgiven : Text.given (some schema) with
  | none => rfl
  | some x =>
    obtain rfl := Option.some.inj (Text.given_eq_some_iff.mp hgiven).1
    simp only [isQualifiedBy, Text.startsWith, Bool.or_eq_false_iff] at h
    simp only [Text.after?, h.1, h.2, Bool.false_eq_true, if_false]

end SchemaScript.Sql
