import SchemaScript.Ddl.Object
import SchemaScript.Ddl.Table
import SchemaScript.Proofs.Text.Basic
import SchemaScript.Sql.Name
import SchemaScript.Sql.TypeName
import Mathlib.Data.List.Basic

/-!
# Names of types

A name that no type of the system has is its own canonical spelling, alone and behind the name of its schema
(`OwnName.canonicalType_eq`, `OwnName.canonicalType_qualified`), and the schema can be taken off again
(`dropSchema_qualified`).

A canonical spelling is a name that no rule changes, with any number of brackets behind it (`IsCanonical`). It is its
own spelling, and every name leads to one (`isCanonical_canonicalType`), unless blanks or the schema of the system come
to light where both have been taken off before. So spelling a type a second time changes nothing
(`canonicalType_again`).
-/

namespace SchemaScript.Sql

/-! ## Schemas in front of names -/

section

variable {lead s t rest : List Char}

theorem after?_eq_some_iff : Text.after? lead s = some rest ↔ s = lead ++ rest := by
  unfold Text.after?
  rw [Option.ite_none_right_eq_some, List.isPrefixOf_iff_prefix]
  constructor
  · rintro ⟨⟨t, rfl⟩, h⟩
    rw [List.drop_left, Option.some.injEq] at h
    rw [h]
  · rintro rfl
    exact ⟨List.prefix_append lead rest, by rw [List.drop_left]⟩

theorem after?_eq_none {c : Char} (hlead : c ∈ lead) (hs : c ∉ s) : Text.after? lead s = none := by
  rw [Option.eq_none_iff_forall_ne_some]
  intro rest h
  rw [after?_eq_some_iff.mp h] at hs
  exact hs (List.mem_append_left rest hlead)

/-- Where there is one point, only what stands in front of it can be taken off with it. -/
theorem after?_point {schema : List Char} (hs : '.' ∉ s) (ht : '.' ∉ t) :
    Text.after? (schema ++ ['.']) (s ++ '.' :: t) = if schema = s then some t else none := by
  refine Option.ext fun rest => ?_
  rw [after?_eq_some_iff, List.append_assoc, List.singleton_append,
    List.append_cons_inj_of_notMem hs ht, Option.ite_none_right_eq_some, Option.some.injEq]
  simp [eq_comm]

end

variable {name schema : String}

theorem dropSchema_of_no_point (h : '.' ∉ name.toList) (target : Option String) :
    dropSchema (some name) target = some name := by
  unfold dropSchema
  cases Text.given target with
  | none => rfl
  | some s =>
    have hbare : Text.after? (s ++ ".").toList name.toList = none := after?_eq_none (by simp) h
    have hquoted : Text.after? ("\"" ++ s ++ "\".").toList name.toList = none := after?_eq_none (by simp) h
    simp only [hbare, hquoted]

/-- A schema is taken off where it is the target. -/
theorem dropSchema_qualified (hne : schema ≠ "") (hschema : '.' ∉ schema.toList) (hname : '.' ∉ name.toList)
    (hquote : '"' ∉ (schema ++ "." ++ name).toList) (target : Option String) :
    dropSchema (some (schema ++ "." ++ name)) target =
      some (if target = some schema then name else schema ++ "." ++ name) := by
  unfold dropSchema
  cases htarget : Text.given target with
  | none =>
    have hother : target ≠ some schema := by
      rintro rfl
      rw [Text.given_eq_some_iff.mpr ⟨rfl, hne⟩] at htarget
      contradiction
    rw [if_neg hother]
  | some s =>
    obtain ⟨rfl, -⟩ := Text.given_eq_some_iff.mp htarget
    have hletters : (schema ++ "." ++ name).toList = schema.toList ++ '.' :: name.toList := by simp
    have hbare : Text.after? (s ++ ".").toList (schema ++ "." ++ name).toList =
        if s = schema then some name.toList else none := by
      rw [hletters, String.toList_append, show ".".toList = ['.'] from rfl, after?_point hschema hname]
      simp only [String.toList_inj]
    have hquoted : Text.after? ("\"" ++ s ++ "\".").toList (schema ++ "." ++ name).toList = none :=
      after?_eq_none (by simp) hquote
    by_cases hs : s = schema
    · rw [if_pos hs] at hbare
      rw [if_pos (congrArg some hs)]
      simp only [hbare, String.ofList_toList]
    · rw [if_neg hs] at hbare
      simp only [hbare, hquoted, Option.some.injEq, hs, if_false]

/-! ## Names without anything to take off -/

section

variable {s : List Char}

/-- Neither blanks at the ends nor the schema of the system in front have to go. -/
@[mk_iff] structure IsTidy (s : List Char) : Prop where
  begins : ∀ c ∈ s.head?, Text.isBlank c = false
  ends : ∀ c ∈ s.getLast?, Text.isBlank c = false
  unprefixed : ¬ catalogPrefix <+: s

-- An instance for all characters would go through every one of them; here and below only those of the name count.
instance (s : List Char) : Decidable (IsTidy s) :=
  have (c : Option Char) : Decidable (∀ a ∈ c, Text.isBlank a = false) := Option.decidableForallMem _
  decidable_of_iff _ (isTidy_iff s).symm

theorem not_catalogPrefix_append {s brackets : List Char} (h : ¬ catalogPrefix <+: s) (hpoint : '.' ∉ brackets) :
    ¬ catalogPrefix <+: s ++ brackets := by
  intro hcatalog
  rcases List.prefix_or_prefix_of_prefix hcatalog (List.prefix_append s brackets) with hname | ⟨a, ha⟩
  · exact h hname
  · rcases List.eq_nil_or_concat a with rfl | ⟨front, c, rfl⟩
    · rw [List.append_nil] at ha
      exact h (ha ▸ List.prefix_rfl)
    · -- the prefix would have to end inside the brackets
      have hlast : c = '.' := by
        have hend := congrArg List.getLast? ha
        rw [List.concat_eq_append, ← List.append_assoc, List.getLast?_concat] at hend
        exact Option.some.inj hend
      rw [← ha, List.prefix_append_right_inj] at hcatalog
      exact hpoint (hcatalog.subset (by simp [hlast]))

theorem bareTypeName_of_unprefixed (h : ¬ catalogPrefix <+: Text.trim s) : bareTypeName s = Text.trim s := by
  unfold bareTypeName Text.after?
  dsimp only
  rw [if_neg (by rwa [List.isPrefixOf_iff_prefix]), Option.getD_none]

theorem length_bareTypeName_le (s : List Char) : (bareTypeName s).length ≤ s.length := by
  have htrim : (Text.trim s).length ≤ s.length := by
    have hend := (Text.trimEnd_prefix (Text.trimStart s)).length_le
    have hstart : (Text.trimStart s).length ≤ s.length := (List.dropWhile_suffix _).length_le
    exact hend.trans hstart
  unfold bareTypeName Text.after?
  dsimp only
  split
  · rw [Option.getD_some, List.length_drop]
    exact (Nat.sub_le _ _).trans htrim
  · exact htrim

theorem arrayElement?_eq_some_iff {element : List Char} :
    arrayElement? s = some element ↔ s = element ++ ['[', ']'] := by
  unfold arrayElement?
  rw [← List.reverse_inj, List.reverse_append]
  split
  · next r hr =>
    rw [hr, Option.some.injEq]
    simp [List.reverse_eq_iff]
  · next hother => exact iff_of_false nofun fun heq => hother element.reverse heq

namespace IsTidy

theorem bareTypeName_eq (h : IsTidy s) : bareTypeName s = s := by
  have htrim : Text.trim s = s := Text.trim_eq_self h.begins h.ends
  rw [bareTypeName_of_unprefixed (by rw [htrim]; exact h.unprefixed), htrim]

theorem append_brackets (h : IsTidy s) : IsTidy (s ++ ['[', ']']) where
  begins c hc := by
    cases s with
    | nil =>
      obtain rfl : '[' = c := Option.some.inj hc
      rfl
    | cons d s => exact h.begins c hc
  ends c hc := by
    obtain rfl : ']' = c := by simpa using hc
    rfl
  unprefixed := not_catalogPrefix_append h.unprefixed (by decide)

/-- Under the brackets only blanks at the end can come to light. -/
theorem element (h : IsTidy (s ++ ['[', ']'])) : IsTidy (bareTypeName s) := by
  have hstart : Text.trimStart s = s := by
    cases s with
    | nil => rfl
    | cons c s => exact Text.trimStart_cons_of_not_blank (h.begins c rfl) s
  have hprefix : Text.trim s <+: s ++ ['[', ']'] := by
    rw [Text.trim, hstart]
    exact (Text.trimEnd_prefix s).trans (List.prefix_append _ _)
  have hunprefixed : ¬ catalogPrefix <+: Text.trim s := fun hcatalog => h.unprefixed (hcatalog.trans hprefix)
  rw [bareTypeName_of_unprefixed hunprefixed]
  exact ⟨Text.not_blank_head?_trim s, Text.not_blank_getLast?_trim s, hunprefixed⟩

end IsTidy

/-- Neither blanks nor a schema of the system have to go, and no brackets stand behind. -/
@[mk_iff] structure IsScalarName (name : List Char) : Prop where
  nonempty : name ≠ []
  begins : ∀ c ∈ name.head?, Text.isBlank c = false
  ends : ∀ c ∈ name.getLast?, Text.isBlank c = false
  unprefixed : ¬ catalogPrefix <+: name
  noArray : arrayElement? name = none

instance (name : List Char) : Decidable (IsScalarName name) :=
  have (c : Option Char) : Decidable (∀ a ∈ c, Text.isBlank a = false) := Option.decidableForallMem _
  decidable_of_iff _ (isScalarName_iff name).symm

theorem IsScalarName.isTidy (h : IsScalarName s) : IsTidy s :=
  ⟨h.begins, h.ends, h.unprefixed⟩

theorem IsTidy.isScalarName (h : IsTidy s) (hne : s ≠ []) (harray : arrayElement? s = none) : IsScalarName s :=
  ⟨hne, h.begins, h.ends, h.unprefixed, harray⟩

end

/-! ## Canonical spellings -/

namespace IsScalarName

variable {name : List Char}

theorem canonicalWithin_eq (h : IsScalarName name) (depth : Nat) :
    canonicalWithin (depth + 1) name = canonicalScalar name := by
  have hname : name.isEmpty = false := by simpa using h.nonempty
  have hbare : bareTypeName name = name := h.isTidy.bareTypeName_eq
  unfold canonicalWithin
  simp only [hname, hbare, h.noArray, Bool.false_eq_true, if_false]

theorem canonicalType_eq {name : String} (h : IsScalarName name.toList) :
    canonicalType name = canonicalScalar name.toList :=
  h.canonicalWithin_eq _

theorem canonicalType_array {name : String} (h : IsScalarName name.toList) :
    canonicalType (name ++ "[]") = canonicalScalar name.toList ++ "[]" := by
  have hletters : (name ++ "[]").toList = name.toList ++ ['[', ']'] := by simp
  have hbare := h.isTidy.append_brackets.bareTypeName_eq
  have harray : arrayElement? (name.toList ++ ['[', ']']) = some name.toList := arrayElement?_eq_some_iff.mpr rfl
  unfold canonicalType
  rw [hletters, List.length_append, canonicalWithin, if_neg (by simp)]
  simp only [hbare, harray]
  exact congrArg (· ++ "[]") (h.canonicalWithin_eq _)

end IsScalarName

/-- What no alias has in it, no alias is. -/
theorem alias?_eq_none {name : String} {c : Char} (hname : c ∈ name.toList)
    (hc : ∀ entry ∈ typeAliases, c ∉ entry.1.toList) : alias? name = none := by
  unfold alias?
  rw [Option.map_eq_none_iff, List.find?_eq_none]
  intro entry hentry heq
  rw [beq_iff_eq] at heq
  exact hc entry hentry (heq ▸ hname)

theorem underscoreElement?_eq_none {name : List Char} {c : Char} (hname : c ∈ name) (hunderscore : c ≠ '_')
    (haliases : ∀ entry ∈ typeAliases, c ∉ entry.1.toList) (hbuiltin : ∀ type ∈ builtinTypes, c ∉ type.toList) :
    underscoreElement? name = none := by
  unfold underscoreElement?
  split
  · next d r =>
    have hmem : c ∈ (String.ofList (d :: r)).toList := by
      rw [String.toList_ofList]
      exact (List.mem_cons.mp hname).resolve_left hunderscore
    have hcontains : builtinTypes.contains (String.ofList (d :: r)) = false := by
      rw [← Bool.not_eq_true, List.contains_iff_mem]
      exact fun h => hbuiltin _ h hmem
    dsimp only
    rw [alias?_eq_none hmem haliases, hcontains]
    rfl
  · rfl

/-- A name with a letter that no type of the system has stays as it is. -/
theorem canonicalScalar_of_mem {name : String} {c : Char} (hname : c ∈ name.toList) (hunderscore : c ≠ '_')
    (haliases : ∀ entry ∈ typeAliases, c ∉ entry.1.toList) (hbuiltin : ∀ type ∈ builtinTypes, c ∉ type.toList) :
    canonicalScalar name.toList = name := by
  unfold canonicalScalar
  rw [underscoreElement?_eq_none hname hunderscore haliases hbuiltin]
  dsimp only
  rw [String.ofList_toList, alias?_eq_none hname haliases, Option.getD_none]

/-! ## Modifiers -/

theorem not_mem_intercalate {c : Char} {separator : String} {items : List String} (hseparator : c ∉ separator.toList)
    (hitems : ∀ item ∈ items, c ∉ item.toList) : c ∉ (separator.intercalate items).toList := by
  induction items with
  | nil => simp
  | cons item items ih =>
    rw [List.forall_mem_cons] at hitems
    cases items with
    | nil => simpa using hitems.1
    | cons next items =>
      rw [String.intercalate_cons_cons, String.toList_append, String.toList_append, List.mem_append,
        List.mem_append, not_or, not_or]
      exact ⟨⟨hitems.1, hseparator⟩, ih hitems.2⟩

section

variable {base inner : String}

theorem isScalarName_enclosed (h : IsScalarName base.toList) (hpoint : '.' ∉ inner.toList) :
    IsScalarName (base ++ enclosed inner).toList := by
  have hletters : (base ++ enclosed inner).toList = base.toList ++ ('(' :: inner.toList ++ [')']) := by
    simp [enclosed]
  rw [hletters]
  refine ⟨by simp, fun c hc => ?_, fun c hc => ?_, not_catalogPrefix_append h.unprefixed (by simp [hpoint]), ?_⟩
  · rw [List.head?_append_of_ne_nil _ h.nonempty] at hc
    exact h.begins c hc
  · rw [← List.append_assoc, List.getLast?_concat] at hc
    obtain rfl := Option.some.inj hc
    rfl
  · simp [arrayElement?]

theorem canonicalScalar_enclosed (base inner : String) :
    canonicalScalar (base ++ enclosed inner).toList = base ++ enclosed inner :=
  canonicalScalar_of_mem (c := '(') (by simp [enclosed]) (by decide) (by decide +kernel) (by decide +kernel)

end

/-! ## Names of users -/

/-- The letter can stand in a name that is neither qualified nor quoted nor one of an array. -/
def isNameChar (c : Char) : Bool :=
  !Text.isBlank c && c != '.' && c != '"' && c != ']'

/-- A name that stands for nothing but itself. -/
@[mk_iff] structure PlainName (name : String) : Prop where
  nonempty : name ≠ ""
  letters : ∀ c ∈ name.toList, isNameChar c
  notCatalog : name ≠ "pg_catalog"

instance (name : String) : Decidable (PlainName name) :=
  have : Decidable (∀ c ∈ name.toList, isNameChar c) := List.decidableBAll _ _
  decidable_of_iff _ (plainName_iff name).symm

/-- The name is one of the system's for a type. -/
def isSystemName (name : String) : Bool :=
  (alias? name).isSome || builtinTypes.contains name

/-- A name of a type that the system gives to none of its own, nor to arrays of them, nor to a sequence. -/
@[mk_iff] structure OwnName (name : String) : Prop extends PlainName name where
  unknown : isSystemName name = false
  noElement : underscoreElement? name.toList = none
  noSerial : serialBase? name = none

instance (name : String) : Decidable (OwnName name) :=
  decidable_of_iff _ (ownName_iff name).symm

theorem isScalarName_of_not_blank {s : List Char} (hne : s ≠ []) (hblank : ∀ c ∈ s, Text.isBlank c = false)
    (hbracket : ']' ∉ s) (hcatalog : ¬ catalogPrefix <+: s) : IsScalarName s where
  nonempty := hne
  begins c hc := hblank c (List.mem_of_mem_head? hc)
  ends c hc := hblank c (List.mem_of_mem_getLast? hc)
  unprefixed := hcatalog
  noArray := by
    rw [Option.eq_none_iff_forall_ne_some]
    intro element helement
    rw [arrayElement?_eq_some_iff.mp helement] at hbracket
    simp at hbracket

theorem not_catalogPrefix {s : List Char} (h : '.' ∉ s) : ¬ catalogPrefix <+: s :=
  fun hcatalog => h (hcatalog.subset (by decide))

theorem canonicalScalar_eq_getD {name : String} (h : underscoreElement? name.toList = none) :
    canonicalScalar name.toList = (alias? name).getD name := by
  unfold canonicalScalar
  rw [h]
  dsimp only
  rw [String.ofList_toList]

namespace PlainName

variable {name : String}

theorem not_mem (h : PlainName name) {c : Char} (hc : isNameChar c = false) : c ∉ name.toList := by
  intro hmem
  rw [h.letters c hmem] at hc
  contradiction

theorem not_blank (h : PlainName name) {c : Char} (hc : c ∈ name.toList) : Text.isBlank c = false := by
  have hletter := h.letters c hc
  simp only [isNameChar, Bool.and_eq_true, Bool.not_eq_true'] at hletter
  exact hletter.1.1.1

theorem isScalarName (h : PlainName name) : IsScalarName name.toList :=
  isScalarName_of_not_blank (by simpa using h.nonempty) (fun _ hc => h.not_blank hc) (h.not_mem rfl)
    (not_catalogPrefix (h.not_mem rfl))

/-- With an underscore in front the name stands for an array, if it is one of the system's. -/
theorem canonicalType_underscore (h : PlainName name) :
    canonicalType ("_" ++ name) =
      if isSystemName name then (alias? name).getD name ++ "[]" else "_" ++ name := by
  have hletters : ("_" ++ name).toList = '_' :: name.toList := by simp
  have hscalar : IsScalarName ("_" ++ name).toList := by
    rw [hletters]
    refine isScalarName_of_not_blank (List.cons_ne_nil _ _) ?_ ?_ (not_catalogPrefix ?_)
    · rw [List.forall_mem_cons]
      exact ⟨by decide, fun c hc => h.not_blank hc⟩
    · simp [h.not_mem (c := ']') rfl]
    · simp [h.not_mem (c := '.') rfl]
  have helement : underscoreElement? ("_" ++ name).toList = if isSystemName name then some name else none := by
    rw [hletters]
    cases hname : name.toList with
    | nil => exact absurd (String.toList_eq_nil_iff.mp hname) h.nonempty
    | cons c r =>
      have heq : String.ofList (c :: r) = name := by rw [← hname, String.ofList_toList]
      simp only [underscoreElement?, heq]
      rfl
  rw [hscalar.canonicalType_eq]
  unfold canonicalScalar
  rw [helement]
  by_cases hknown : isSystemName name
  · rw [if_pos hknown, if_pos hknown]
  · rw [if_neg hknown, if_neg hknown]
    dsimp only
    rw [String.ofList_toList, alias?_eq_none (c := '_') (by simp) (by decide), Option.getD_none]

end PlainName

namespace OwnName

variable {schema name : String}

theorem alias?_eq (h : OwnName name) : alias? name = none := by
  have hunknown := (Bool.or_eq_false_iff.mp h.unknown).1
  simpa using hunknown

theorem canonicalScalar_eq (h : OwnName name) : canonicalScalar name.toList = name := by
  rw [canonicalScalar_eq_getD h.noElement, h.alias?_eq, Option.getD_none]

/-- The name is its own spelling. -/
theorem canonicalType_eq (h : OwnName name) : canonicalType name = name :=
  h.isScalarName.canonicalType_eq.trans h.canonicalScalar_eq

theorem canonicalType_underscore (h : OwnName name) : canonicalType ("_" ++ name) = "_" ++ name := by
  rw [h.toPlainName.canonicalType_underscore, h.unknown, if_neg Bool.false_ne_true]

theorem canonicalType_array (h : OwnName name) : canonicalType (name ++ "[]") = name ++ "[]" := by
  rw [h.isScalarName.canonicalType_array, h.canonicalScalar_eq]

/-- Behind its schema the name is no other type's either. -/
theorem isScalarName_qualified (h : OwnName name) (hschema : PlainName schema) :
    IsScalarName (schema ++ "." ++ name).toList := by
  have hletters : (schema ++ "." ++ name).toList = schema.toList ++ '.' :: name.toList := by simp
  rw [hletters]
  refine isScalarName_of_not_blank (by simp) (fun c hc => ?_) ?_ ?_
  · rcases List.mem_append.mp hc with hc | hc
    · exact hschema.not_blank hc
    · rcases List.mem_cons.mp hc with rfl | hc
      · rfl
      · exact h.not_blank hc
  · simp [hschema.not_mem (c := ']') rfl, h.not_mem (c := ']') rfl]
  · have hother : "pg_catalog".toList ≠ schema.toList := fun heq =>
      hschema.notCatalog (String.toList_injective heq).symm
    have hafter : Text.after? ("pg_catalog".toList ++ ['.']) (schema.toList ++ '.' :: name.toList) =
        if "pg_catalog".toList = schema.toList then some name.toList else none :=
      after?_point (hschema.not_mem rfl) (h.not_mem rfl)
    rw [if_neg hother] at hafter
    rintro ⟨rest, hrest⟩
    have hsome := after?_eq_some_iff.mpr hrest.symm
    exact absurd (hsome.symm.trans hafter) (Option.some_ne_none rest)

theorem canonicalScalar_qualified (schema name : String) :
    canonicalScalar (schema ++ "." ++ name).toList = schema ++ "." ++ name :=
  canonicalScalar_of_mem (c := '.') (by simp) (by decide) (by decide +kernel) (by decide +kernel)

theorem serialBase?_qualified (schema name : String) : serialBase? (schema ++ "." ++ name) = none := by
  have hpoint : '.' ∈ (schema ++ "." ++ name).toList := by simp
  generalize schema ++ "." ++ name = base at hpoint
  have hother : base ≠ "SERIAL" ∧ base ≠ "SMALLSERIAL" ∧ base ≠ "BIGSERIAL" := by
    refine ⟨?_, ?_, ?_⟩ <;> (rintro rfl; exact absurd hpoint (by decide))
  simp [serialBase?, hother]

theorem canonicalType_qualified (h : OwnName name) (hschema : PlainName schema) :
    canonicalType (schema ++ "." ++ name) = schema ++ "." ++ name :=
  (h.isScalarName_qualified hschema).canonicalType_eq.trans (canonicalScalar_qualified schema name)

theorem canonicalType_qualified_array (h : OwnName name) (hschema : PlainName schema) :
    canonicalType (schema ++ "." ++ name ++ "[]") = schema ++ "." ++ name ++ "[]" := by
  rw [(h.isScalarName_qualified hschema).canonicalType_array, canonicalScalar_qualified]

end OwnName

/-! ## Written types -/

namespace WrittenType

variable {w : WrittenType} {schema name : String}

theorem base_of_catalog (h : w.path = ["pg_catalog", name]) : w.base = canonicalType name := by
  unfold base
  rw [h]
  simp

theorem base_of_name (h : w.path = [name]) (hname : name ≠ "pg_catalog") : w.base = canonicalType name := by
  unfold base
  rw [h]
  simp [hname]

theorem base_of_schema (h : w.path = [schema, name]) (hschema : schema ≠ "pg_catalog") :
    w.base = canonicalType (schema ++ "." ++ name) := by
  unfold base
  rw [h]
  simp [hschema, String.append_assoc]

end WrittenType

theorem mem_lower_point {s : String} (h : '.' ∈ s.toList) : '.' ∈ (Text.lower s).toList := by
  have hletters (before letters : List Char) (hmem : '.' ∈ letters) :
      '.' ∈ Text.lowerAfter before letters := by
    induction letters generalizing before with
    | nil => contradiction
    | cons c r ih =>
      unfold Text.lowerAfter
      rcases List.mem_cons.mp hmem with rfl | hr
      · exact List.mem_append_left _ (List.mem_singleton_self '.')
      · exact List.mem_append_right _ (ih (c :: before) hr)
  unfold Text.lower
  rw [String.toList_ofList]
  exact hletters [] s.toList h

/-- A type that is named with its schema is none of the system's. -/
theorem isBuiltinType_eq_false {base : String} (hpoint : '.' ∈ base.toList) (hbase : canonicalType base = base) :
    isBuiltinType base = false := by
  have hnone : builtinTypes.contains (Text.lower base) = false := by
    have hpoints : ∀ builtin ∈ builtinTypes, '.' ∉ builtin.toList := by decide +kernel
    rw [← Bool.not_eq_true, List.contains_iff_mem]
    exact fun hmem => hpoints _ hmem (mem_lower_point hpoint)
  unfold isBuiltinType
  rw [hbase, hnone, Bool.or_self]

section

variable {s : List Char} {name : String}

/-! ## Spellings that stay -/

/-- A name that no rule changes, or nothing, with any number of brackets behind it. -/
inductive IsCanonical : List Char → Prop
  | nil : IsCanonical []
  | scalar {s : List Char} (name : IsScalarName s) (same : canonicalScalar s = String.ofList s) : IsCanonical s
  | array {s : List Char} (element : IsCanonical s) : IsCanonical (s ++ ['[', ']'])

theorem IsCanonical.isTidy (h : IsCanonical s) : IsTidy s := by
  induction h with
  | nil => exact ⟨by simp, by simp, by decide⟩
  | scalar name => exact name.isTidy
  | array _ ih => exact ih.append_brackets

/-- A canonical spelling is its own. -/
theorem IsCanonical.canonicalWithin_eq (h : IsCanonical s) {depth : Nat} (hdepth : s.length < depth) :
    canonicalWithin depth s = String.ofList s := by
  induction h generalizing depth with
  | nil =>
    obtain ⟨depth, rfl⟩ := Nat.exists_eq_succ_of_ne_zero (Nat.ne_zero_of_lt hdepth)
    rfl
  | scalar name same =>
    obtain ⟨depth, rfl⟩ := Nat.exists_eq_succ_of_ne_zero (Nat.ne_zero_of_lt hdepth)
    exact (name.canonicalWithin_eq depth).trans same
  | @array s element ih =>
    obtain ⟨depth, rfl⟩ := Nat.exists_eq_succ_of_ne_zero (Nat.ne_zero_of_lt hdepth)
    have hshorter : s.length < depth := by
      rw [List.length_append, List.length_cons] at hdepth
      omega
    have hfound : arrayElement? (s ++ ['[', ']']) = some s := arrayElement?_eq_some_iff.mpr rfl
    rw [canonicalWithin, if_neg (by simp), element.isTidy.append_brackets.bareTypeName_eq, hfound]
    dsimp only
    rw [ih hshorter, String.ofList_append]

theorem isSystemName_of_underscoreElement? (h : underscoreElement? s = some name) : isSystemName name := by
  unfold underscoreElement? at h
  split at h
  · obtain ⟨hknown, heq⟩ := Option.ite_none_right_eq_some.mp h
    rwa [Option.some.inj heq] at hknown
  · contradiction

theorem mem_of_alias?_isSome (h : (alias? name).isSome) : name ∈ typeAliases.map (·.1) := by
  obtain ⟨spelling, hspelling⟩ := Option.isSome_iff_exists.mp h
  obtain ⟨entry, hentry, -⟩ := Option.map_eq_some_iff.mp hspelling
  have hname := List.find?_some hentry
  exact List.mem_map.mpr ⟨entry, List.mem_of_find?_eq_some hentry, beq_iff_eq.mp hname⟩

/-- Every name of the system for a type leads to a name that no rule changes. -/
theorem isCanonical_of_isSystemName (h : isSystemName name) : IsCanonical ((alias? name).getD name).toList := by
  have hall : ∀ name ∈ typeAliases.map (·.1) ++ builtinTypes,
      IsScalarName ((alias? name).getD name).toList ∧
        canonicalScalar ((alias? name).getD name).toList = (alias? name).getD name := by decide +kernel
  have hmem : name ∈ typeAliases.map (·.1) ++ builtinTypes := by
    rw [List.mem_append]
    exact (Bool.or_eq_true_iff.mp h).imp mem_of_alias?_isSome List.contains_iff_mem.mp
  obtain ⟨hscalar, hsame⟩ := hall name hmem
  exact .scalar hscalar (by rw [hsame, String.ofList_toList])

theorem isCanonical_canonicalScalar (h : IsTidy s) (harray : arrayElement? s = none) :
    IsCanonical (canonicalScalar s).toList := by
  by_cases hne : s = []
  · subst hne
    exact .nil
  cases helement : underscoreElement? s with
  | some element =>
    have hbrackets : (canonicalScalar s).toList = ((alias? element).getD element).toList ++ ['[', ']'] := by
      rw [canonicalScalar, helement, String.toList_append]
      rfl
    rw [hbrackets]
    exact .array (isCanonical_of_isSystemName (isSystemName_of_underscoreElement? helement))
  | none =>
    have hname : canonicalScalar s = (alias? (String.ofList s)).getD (String.ofList s) := by
      rw [canonicalScalar, helement]
    rw [hname]
    cases halias : alias? (String.ofList s) with
    | some spelling =>
      have hknown : isSystemName (String.ofList s) := by simp [isSystemName, halias]
      simpa [halias] using isCanonical_of_isSystemName hknown
    | none =>
      rw [Option.getD_none, String.toList_ofList]
      exact .scalar (h.isScalarName hne harray) (by rw [hname, halias, Option.getD_none])

/-- A name is spelt canonically, if nothing but what is taken off once has to be taken off. -/
theorem isCanonical_canonicalWithin {depth : Nat} (hdepth : s.length < depth) (h : IsTidy (bareTypeName s)) :
    IsCanonical (canonicalWithin depth s).toList := by
  induction depth generalizing s with
  | zero => contradiction
  | succ depth ih =>
    rw [canonicalWithin]
    split
    · exact .nil
    cases harray : arrayElement? (bareTypeName s) with
    | none => exact isCanonical_canonicalScalar h harray
    | some element =>
      have hbare := arrayElement?_eq_some_iff.mp harray
      have hshorter : element.length < depth := by
        have hle := length_bareTypeName_le s
        rw [hbare, List.length_append, List.length_cons] at hle
        omega
      rw [hbare] at h
      dsimp only
      rw [String.toList_append]
      exact .array (ih hshorter h.element)

theorem isCanonical_canonicalType (h : IsTidy (bareTypeName name.toList)) : IsCanonical (canonicalType name).toList :=
  isCanonical_canonicalWithin (Nat.lt_succ_self _) h

/-! ## The schema of the system in front -/

/-- How many brackets may be taken off does not matter, if they are enough. -/
theorem canonicalWithin_congr {depth more : Nat} (hdepth : s.length < depth) (hmore : s.length < more) :
    canonicalWithin depth s = canonicalWithin more s := by
  induction depth generalizing s more with
  | zero => contradiction
  | succ depth ih =>
    obtain ⟨more, rfl⟩ := Nat.exists_eq_succ_of_ne_zero (Nat.ne_zero_of_lt hmore)
    rw [canonicalWithin, canonicalWithin]
    cases harray : arrayElement? (bareTypeName s) with
    | none => rfl
    | some element =>
      have hle := length_bareTypeName_le s
      rw [arrayElement?_eq_some_iff.mp harray, List.length_append, List.length_cons] at hle
      dsimp only
      have hsame : canonicalWithin depth element = canonicalWithin more element := ih (by omega) (by omega)
      rw [hsame]

/-- Only what is left of a name counts. -/
theorem canonicalType_congr {other : String} (hname : name ≠ "") (hother : other ≠ "")
    (h : bareTypeName name.toList = bareTypeName other.toList) : canonicalType name = canonicalType other := by
  have hdeep : canonicalType name = canonicalWithin (name.toList.length + other.toList.length + 1) name.toList :=
    canonicalWithin_congr (by omega) (by omega)
  have hdeepOther : canonicalType other = canonicalWithin (name.toList.length + other.toList.length + 1) other.toList :=
    canonicalWithin_congr (by omega) (by omega)
  rw [hdeep, hdeepOther, canonicalWithin, canonicalWithin, if_neg (by simpa using hname),
    if_neg (by simpa using hother), h]

/-- With the schema of the system in front, the same is left of a name as without it. -/
theorem bareTypeName_catalogPrefix (h : IsTidy (bareTypeName (catalogPrefix ++ s))) :
    bareTypeName (catalogPrefix ++ s) = bareTypeName s := by
  have hschema : catalogPrefix = "pg_catalog".toList ++ ['.'] := rfl
  have hend : Text.trimEnd (catalogPrefix ++ s) = catalogPrefix ++ Text.trimEnd s := by
    rw [hschema, List.append_assoc, List.append_assoc]
    exact Text.trimEnd_append_cons rfl _ s
  have hstart : Text.trimStart (catalogPrefix ++ s) = catalogPrefix ++ s := Text.trimStart_cons_of_not_blank rfl _
  have hleft : bareTypeName (catalogPrefix ++ s) = Text.trimEnd s := by
    have hafter : Text.after? catalogPrefix (catalogPrefix ++ Text.trimEnd s) = some (Text.trimEnd s) :=
      after?_eq_some_iff.mpr rfl
    unfold bareTypeName
    rw [Text.trim, hstart, hend]
    dsimp only
    rw [hafter, Option.getD_some]
  rw [hleft] at h ⊢
  have hsame := Text.trim_eq_trimEnd h.begins
  rw [← hsame] at h ⊢
  exact (bareTypeName_of_unprefixed h.unprefixed).symm

/-- A written type has the spelling of its name, though the schema of the system is taken off it beforehand. -/
theorem WrittenType.base_eq {w : WrittenType} (hpath : w.path ≠ []) (hcatalog : w.path ≠ ["pg_catalog"])
    (h : IsTidy (bareTypeName w.joinedPath.toList)) : w.base = canonicalType w.joinedPath := by
  unfold base
  split
  · exact absurd ‹_› hcatalog
  · next rest hrest hw =>
    obtain ⟨first, others, rfl⟩ : ∃ first others, rest = first :: others :=
      List.exists_cons_of_ne_nil (by simpa using hrest)
    have hjoined : w.joinedPath = "pg_catalog." ++ ".".intercalate (first :: others) := by
      rw [joinedPath, hw, String.intercalate_cons_cons]
      rfl
    have hletters : w.joinedPath.toList = catalogPrefix ++ (".".intercalate (first :: others)).toList := by
      rw [hjoined, String.toList_append]
      rfl
    by_cases hempty : ".".intercalate (first :: others) = ""
    · rw [hjoined, hempty]
      decide
    · refine canonicalType_congr hempty (by rw [hjoined]; simp) ?_
      rw [hletters] at h ⊢
      exact (bareTypeName_catalogPrefix h).symm
  · exact absurd ‹_› hpath
  · rfl

theorem typeText?_congr {c d : Column} {target : Option String} (hc : c.isSerial = false) (hd : d.isSerial = false)
    (hdeclared : d.declaredType.map canonicalType = c.declaredType.map canonicalType)
    (hlength : d.maxLength = c.maxLength) (hprecision : d.precision = c.precision) (hscale : d.scale = c.scale) :
    d.typeText? target = c.typeText? target := by
  unfold Column.typeText?
  rw [hc, hd, hdeclared, hlength, hprecision, hscale]
  rfl

/-- Spelling a type again changes nothing, however often: what reads or writes a stored spelling has the one that it
would have found itself. -/
theorem canonicalType_again (h : IsTidy (bareTypeName name.toList)) :
    canonicalType (canonicalType name) = canonicalType name ∧
    (∀ w : WrittenType, w.path ≠ [] → w.path ≠ ["pg_catalog"] → w.joinedPath = name → w.base = canonicalType name) ∧
    (∀ target, Ddl.typeText (canonicalType name) target = Ddl.typeText name target) ∧
    ∀ (c d : Column) (target : Option String), c.isSerial = false → d.isSerial = false →
      c.declaredType = some name → d.declaredType = some (canonicalType name) →
      d.maxLength = c.maxLength → d.precision = c.precision → d.scale = c.scale →
      d.typeText? target = c.typeText? target := by
  have hagain : canonicalType (canonicalType name) = canonicalType name := by
    have hsame := (isCanonical_canonicalType h).canonicalWithin_eq (Nat.lt_succ_self _)
    rwa [String.ofList_toList] at hsame
  refine ⟨hagain, ?_, ?_, ?_⟩
  · rintro w hpath hcatalog rfl
    exact WrittenType.base_eq hpath hcatalog h
  · intro target
    simp only [Ddl.typeText, Field.text?_text, Option.map_some, hagain]
  · intro c d target hc hd hname hspelling
    apply typeText?_congr hc hd
    rw [hname, hspelling, Option.map_some, Option.map_some, hagain]

/-- An array of arrays, under the name that the system keeps for arrays and with blanks before its brackets. -/
theorem spaced_array_spelt_again :
    IsTidy (bareTypeName "  pg_catalog._int4 [] [] ".toList) ∧
    canonicalType "  pg_catalog._int4 [] [] " = "integer[][][]" ∧
    canonicalType "integer[][][]" = "integer[][][]" := by
  have htidy : IsTidy (bareTypeName "  pg_catalog._int4 [] [] ".toList) := by decide
  have hspelling : canonicalType "  pg_catalog._int4 [] [] " = "integer[][][]" := by decide +kernel
  have hagain := (canonicalType_again htidy).1
  rw [hspelling] at hagain
  exact ⟨htidy, hspelling, hagain⟩

end

end SchemaScript.Sql
