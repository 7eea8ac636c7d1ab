import SchemaScript.Effect.Table
import SchemaScript.Proofs.Json.NumberText
import SchemaScript.Proofs.Source.ColumnType

/-!
# Columns that statements declare

What such a column shows of its type, for every type that a column can have (`exists_typedColumn`).
-/

namespace SchemaScript

open Sql

section

variable {w : WrittenType} {shownName : String} {table : Table} {name : String} {position : Int}

open Effect (typedColumn)

/-- A column whose type is none of the system's has its name as seen from the table. -/
theorem typedColumn_of_unknown (harray : w.isArray = false) (hmodifiers : w.storedModifiers = [])
    (hunknown : isBuiltinType w.base = false) :
    typedColumn table name position w = .ok
      { name, position, dataType := "USER-DEFINED", userType := dropSchema (some w.base) table.schema.given } := by
  unfold typedColumn
  rw [harray, hmodifiers]
  simp [hunknown]
  rfl

theorem storedModifiers_eq_nil (h : w.modifiers = []) : w.storedModifiers = [] := by
  unfold WrittenType.storedModifiers
  rw [h, ite_self]

variable (table name position)

/-- A column whose type has no modifiers and no brackets shows the type's name as seen from its table. -/
theorem exists_typedColumn_of_name (harray : w.isArray = false) (hmodifiers : w.storedModifiers = [])
    (hne : shownName ≠ "") (huser : dropSchema (some w.base) table.schema.given = some shownName)
    (hbuiltin : isBuiltinType w.base → shownName = w.base) :
    ∃ column, typedColumn table name position w = .ok column ∧
      ∀ target, column.typeText? target = dropSchema (some (canonicalType shownName)) target := by
  by_cases hknown : isBuiltinType w.base
  · have hbase : w.base ≠ "USER-DEFINED" := fun heq => by
      rw [heq] at hknown
      exact absurd hknown (by decide +kernel)
    refine ⟨{ name, position, dataType := w.base }, ?_, fun target => ?_⟩
    · unfold typedColumn
      rw [harray, hmodifiers]
      simp [hknown]
      rfl
    · refine Column.typeText?_of_name rfl ?_ (.inl rfl) rfl
      rw [Column.declaredType_of_name rfl hbase, hbuiltin hknown]
      rfl
  · refine ⟨_, typedColumn_of_unknown harray hmodifiers (by simpa using hknown), fun target => ?_⟩
    refine Column.typeText?_of_name rfl ?_ (.inl rfl) rfl
    rw [huser, Column.declaredType_of_user rfl rfl hne]
    rfl

/-- A user's type that is written with its schema is stored as it is called from the table's. -/
theorem typedColumn_of_user {holder own : String} (hholder : PlainName holder) (hown : OwnName own)
    (harray : w.isArray = false) (hmodifiers : w.storedModifiers = []) (hbase : w.base = holder ++ "." ++ own) :
    typedColumn table name position w = .ok
      { name, position, dataType := "USER-DEFINED"
        userType := ColumnType.nameFor table.schema.given holder own } := by
  have hunknown : isBuiltinType w.base = false := by
    rw [hbase]
    exact isBuiltinType_eq_false (by simp) (hown.canonicalType_qualified hholder)
  rw [typedColumn_of_unknown harray hmodifiers hunknown, hbase, ColumnType.dropSchema_nameFor hholder hown]
  rfl

/-- A column of an array shows all of its type. -/
theorem exists_typedColumn_of_array (harray : w.isArray = true) :
    ∃ column, typedColumn table name position w = .ok column ∧
      ∀ target, column.typeText? target = dropSchema (some (canonicalType w.text)) target := by
  have hbase : w.text ≠ "USER-DEFINED" := by
    intro heq
    have hlast := congrArg (fun s => s.toList.getLast?) heq
    unfold WrittenType.text at hlast
    rw [if_pos harray] at hlast
    simp at hlast
  refine ⟨{ name, position, dataType := w.text }, ?_, fun target => ?_⟩
  · unfold typedColumn
    rw [if_pos harray]
    rfl
  · refine Column.typeText?_of_name rfl ?_ (.inl rfl) rfl
    rw [Column.declaredType_of_name rfl hbase]
    rfl

theorem wholeModifier_writeInteger (n : Int) : Effect.wholeModifier (Text.writeInteger n) = .ok n := by
  unfold Effect.wholeModifier Effect.wholeNumber
  simp only [Text.readInteger_writeInteger]

section

variable {n : Int} {rest : List Int} (harray : w.isArray = false)

include harray

/-- A text has its length beside the type. -/
theorem exists_typedColumn_of_length (hmodifiers : w.storedModifiers = [Text.writeInteger n])
    (hstays : canonicalType w.base = w.base) (htext : w.base = "character varying" ∨ w.base = "character") :
    ∃ column, typedColumn table name position w = .ok column ∧
      ∀ target, column.typeText? target = some (ColumnType.shown w.base [n]) := by
  refine ⟨{ name, position, dataType := w.base, maxLength := n }, ?_, fun target => ?_⟩
  · unfold typedColumn
    rw [harray, hmodifiers]
    simp [htext, wholeModifier_writeInteger]
  · have hother : w.base ≠ "USER-DEFINED" := by rcases htext with h | h <;> rw [h] <;> decide
    refine Column.typeText?_of_length rfl ?_ rfl htext
    rw [Column.declaredType_of_name rfl hother, Option.map_some, hstays]

/-- A number has its digits beside the type. -/
theorem exists_typedColumn_of_precision {scale : Option Int}
    (hmodifiers : w.storedModifiers = (n :: scale.toList).map Text.writeInteger)
    (hstays : canonicalType w.base = w.base) (hnumeric : w.base = "numeric") :
    ∃ column, typedColumn table name position w = .ok column ∧
      ∀ target, column.typeText? target = some (ColumnType.shown w.base (n :: scale.toList)) := by
  refine ⟨{ name, position, dataType := w.base, precision := n, scale }, ?_, fun target => ?_⟩
  · unfold typedColumn
    rw [harray, hmodifiers]
    cases scale <;> simp [hnumeric, wholeModifier_writeInteger] <;> rfl
  · rw [hnumeric]
    refine Column.typeText?_of_precision rfl ?_ rfl rfl
    rw [Column.declaredType_of_name rfl (by decide), Option.map_some, ← hnumeric, hstays]

/-- Any other column has its modifiers in the type. -/
theorem exists_typedColumn_enclosed (hmodifiers : w.storedModifiers = (n :: rest).map Text.writeInteger)
    (hscalar : IsScalarName w.base.toList) (hpoint : '.' ∉ w.base.toList)
    (htext : ¬ (w.base = "character varying" ∨ w.base = "character")) (hnumeric : w.base ≠ "numeric") :
    ∃ column, typedColumn table name position w = .ok column ∧
      ∀ target, column.typeText? target = some (ColumnType.shown w.base (n :: rest)) := by
  obtain ⟨hvarying, hfixed⟩ := not_or.mp htext
  let inner := ",".intercalate ((n :: rest).map Text.writeInteger)
  have hinner : '.' ∉ inner.toList := not_mem_modifiers (n :: rest)
  have hother : w.base ++ enclosed inner ≠ "USER-DEFINED" := fun heq => by
    have hmem : '(' ∈ (w.base ++ enclosed inner).toList := by simp [enclosed]
    rw [heq] at hmem
    exact absurd hmem (by decide)
  let column : Column := { name, position, dataType := w.base ++ enclosed inner }
  have hbase : column.declaredType.map canonicalType = some (w.base ++ enclosed inner) := by
    rw [Column.declaredType_of_name rfl hother, Option.map_some,
      (isScalarName_enclosed hscalar hinner).canonicalType_eq, canonicalScalar_enclosed]
  refine ⟨column, ?_, fun target => ?_⟩
  · unfold typedColumn
    rw [harray, hmodifiers]
    simp [hvarying, hfixed, hnumeric, inner, column]
    rfl
  · rw [Column.typeText?_of_name rfl hbase (.inl rfl) rfl,
      dropSchema_of_no_point (by simp [enclosed, hpoint, hinner])]
    simp [ColumnType.shown, ColumnType.modifiersText, hvarying, inner]

/-- A column whose type has modifiers shows them. -/
theorem exists_typedColumn_of_modifiers (hmodifiers : w.storedModifiers = (n :: rest).map Text.writeInteger)
    (hscalar : IsScalarName w.base.toList) (hstays : canonicalType w.base = w.base) (hpoint : '.' ∉ w.base.toList)
    (hlength : w.base = "character varying" ∨ w.base = "character" → rest = [])
    (hprecision : rest.length ≤ 1) :
    ∃ column, typedColumn table name position w = .ok column ∧
      ∀ target, column.typeText? target = some (ColumnType.shown w.base (n :: rest)) := by
  by_cases htext : w.base = "character varying" ∨ w.base = "character"
  · obtain rfl := hlength htext
    exact exists_typedColumn_of_length table name position harray hmodifiers hstays htext
  by_cases hnumeric : w.base = "numeric"
  · obtain ⟨scale, rfl⟩ : ∃ scale : Option Int, rest = scale.toList := by
      cases rest with
      | nil => exact ⟨none, rfl⟩
      | cons s rest =>
        obtain rfl := List.eq_nil_of_length_eq_zero (by simpa using hprecision)
        exact ⟨some s, rfl⟩
    exact exists_typedColumn_of_precision table name position harray hmodifiers hstays hnumeric
  · exact exists_typedColumn_enclosed table name position harray hmodifiers hscalar hpoint htext hnumeric

end

namespace ColumnType

variable {t : SystemType} {modifiers : List Int} {holder own schema : String} {isQualified : Bool}
  {array : Option (Option Nat)} {fields : Option String}

theorem base_system (ht : t.Spelt) :
    (written ⟨.system t modifiers, isQualified, array, fields⟩).base = t.spelling := by
  cases isQualified with
  | true => exact WrittenType.base_of_catalog rfl
  | false => exact WrittenType.base_of_name rfl ht.plain.notCatalog

theorem storedModifiers_system (ht : t.Spelt) :
    (written ⟨.system t modifiers, isQualified, array, fields⟩).storedModifiers =
      (scriptModifiers t modifiers).map Text.writeInteger := by
  unfold WrittenType.storedModifiers scriptModifiers
  rw [base_system ht]
  by_cases hinterval : t.internal = "interval"
  · simp [hinterval, ht.interval.mpr hinterval]
  · simp [hinterval, mt ht.interval.mp hinterval]
    rfl

theorem canonicalType_spelling (ht : t.Spelt) : canonicalType t.spelling = t.spelling :=
  ht.scalar.canonicalType_eq.trans ht.stays

theorem spelling_ne_empty (ht : t.Spelt) : t.spelling ≠ "" := by
  simpa using ht.scalar.nonempty

theorem length_scriptModifiers (t : SystemType) (modifiers : List Int) :
    (scriptModifiers t modifiers).length ≤ modifiers.length := by
  unfold scriptModifiers
  split
  · exact Nat.zero_le _
  · exact Nat.le_refl _

theorem exists_typedColumn_system (ht : t.Spelt) (hcount : modifiers.length ≤ t.arity) :
    ∃ column, typedColumn table name position (written ⟨.system t modifiers, isQualified, none, fields⟩) =
        .ok column ∧
      ∀ target, column.typeText? target = some (shown t.spelling (scriptModifiers t modifiers)) := by
  have hbase : (written ⟨.system t modifiers, isQualified, none, fields⟩).base = t.spelling := base_system ht
  have hstored : (written ⟨.system t modifiers, isQualified, none, fields⟩).storedModifiers =
      (scriptModifiers t modifiers).map Text.writeInteger := storedModifiers_system ht
  have hlength := Nat.le_trans (length_scriptModifiers t modifiers) hcount
  cases hkept : scriptModifiers t modifiers with
  | nil =>
    rw [hkept] at hstored
    obtain ⟨column, hcolumn, htext⟩ := exists_typedColumn_of_name table name position rfl hstored
      (spelling_ne_empty ht) (by rw [hbase, dropSchema_of_no_point ht.noPoint.1]) fun _ => hbase.symm
    refine ⟨column, hcolumn, fun target => ?_⟩
    rw [htext, canonicalType_spelling ht, dropSchema_of_no_point ht.noPoint.1]
    rfl
  | cons n rest =>
    rw [hkept] at hstored hlength
    rw [← hbase]
    refine exists_typedColumn_of_modifiers table name position rfl hstored ?_ ?_ ?_ (fun htext => ?_) ?_
    · exact hbase ▸ ht.scalar
    · rw [hbase, canonicalType_spelling ht]
    · exact hbase ▸ ht.noPoint.1
    · rw [hbase] at htext
      have hone := Nat.le_trans hlength (ht.arity.2 htext)
      exact List.eq_nil_of_length_eq_zero (by simpa using hone)
    · have htwo := Nat.le_trans hlength ht.arity.1
      simpa using htwo

theorem exists_typedColumn_system_array (ht : t.Spelt) (bound : Option Nat) :
    ∃ column, typedColumn table name position
        (written ⟨.system t modifiers, isQualified, some bound, fields⟩) = .ok column ∧
      ∀ target, column.typeText? target =
        some (t.spelling ++ modifiersText (scriptModifiers t modifiers) ++ "[]") := by
  have htext : (written ⟨.system t modifiers, isQualified, some bound, fields⟩).text =
      t.spelling ++ modifiersText (scriptModifiers t modifiers) ++ "[]" := by
    unfold WrittenType.text
    rw [storedModifiers_system ht, base_system ht]
    cases scriptModifiers t modifiers <;> simp [modifiersText, written, WrittenType.isArray]
  have hscalar : IsScalarName (t.spelling ++ modifiersText (scriptModifiers t modifiers)).toList ∧
      canonicalScalar (t.spelling ++ modifiersText (scriptModifiers t modifiers)).toList =
        t.spelling ++ modifiersText (scriptModifiers t modifiers) ∧
      '.' ∉ (t.spelling ++ modifiersText (scriptModifiers t modifiers)).toList := by
    unfold modifiersText
    split
    · rw [String.append_empty]
      exact ⟨ht.scalar, ht.stays, ht.noPoint.1⟩
    · have hinner := not_mem_modifiers (scriptModifiers t modifiers)
      refine ⟨isScalarName_enclosed ht.scalar hinner, canonicalScalar_enclosed _ _, ?_⟩
      simpa [enclosed, ht.noPoint.1] using hinner
  obtain ⟨hscalar, hstays, hpoint⟩ := hscalar
  obtain ⟨column, hcolumn, hshown⟩ := exists_typedColumn_of_array table name position
    (w := written ⟨.system t modifiers, isQualified, some bound, fields⟩) rfl
  refine ⟨column, hcolumn, fun target => ?_⟩
  rw [hshown, htext, hscalar.canonicalType_array, hstays, dropSchema_of_no_point]
  simpa using hpoint

theorem base_user (hholder : PlainName holder) (hown : OwnName own) :
    (written ⟨.user holder own, isQualified, array, fields⟩).base =
      if isQualified then holder ++ "." ++ own else own := by
  cases isQualified with
  | true => exact (WrittenType.base_of_schema rfl hholder.notCatalog).trans (hown.canonicalType_qualified hholder)
  | false => exact (WrittenType.base_of_name rfl hown.notCatalog).trans hown.canonicalType_eq

theorem nameFor_given (hholder : PlainName holder) (hschema : table.schema = (schema : Field String)) :
    nameFor table.schema.given holder own = if holder ≠ schema then holder ++ "." ++ own else own := by
  have hgiven : table.schema.given = some holder ↔ holder = schema := by
    rw [hschema, Field.given_text]
    by_cases hempty : schema = ""
    · simp [hempty, hholder.nonempty]
    · simp [hempty, eq_comm]
  unfold nameFor
  by_cases hsame : holder = schema
  · rw [if_pos (hgiven.mpr hsame), if_neg (not_not_intro hsame)]
  · rw [if_neg (mt hgiven.mp hsame), if_pos hsame]

/-- A type of a user, of which the table's schema is taken off when the column is read. -/
theorem exists_typedColumn_user (hholder : PlainName holder) (hown : OwnName own)
    (hschema : table.schema = (schema : Field String)) :
    ∃ column, typedColumn table name position (written ⟨.user holder own, isQualified, none, fields⟩) =
        .ok column ∧
      ∀ target, column.typeText? target =
        some (if isQualified ∧ holder ≠ schema then nameFor target holder own else own) := by
  have hstored := storedModifiers_eq_nil (w := written ⟨.user holder own, isQualified, none, fields⟩) rfl
  cases isQualified with
  | false =>
    have hbase : (written ⟨.user holder own, false, none, fields⟩).base = own := base_user hholder hown
    obtain ⟨column, hcolumn, htext⟩ := exists_typedColumn_of_name table name position rfl hstored hown.nonempty
      (by rw [hbase, dropSchema_of_no_point (hown.not_mem rfl)]) fun _ => hbase.symm
    refine ⟨column, hcolumn, fun target => ?_⟩
    rw [htext, hown.canonicalType_eq, dropSchema_of_no_point (hown.not_mem rfl)]
    simp
  | true =>
    refine ⟨_, typedColumn_of_user table name position hholder hown rfl hstored (base_user hholder hown),
      fun target => ?_⟩
    rw [nameFor_given table hholder hschema,
      Column.typeText?_of_user hholder hown rfl rfl rfl rfl rfl]
    simp

theorem exists_typedColumn_user_array (hholder : PlainName holder) (hown : OwnName own) (bound : Option Nat) :
    ∃ column, typedColumn table name position
        (written ⟨.user holder own, isQualified, some bound, fields⟩) = .ok column ∧
      ∀ target, column.typeText? target =
        some ((if isQualified then nameFor target holder own else own) ++ "[]") := by
  have htext : (written ⟨.user holder own, isQualified, some bound, fields⟩).text =
      (if isQualified then holder ++ "." ++ own else own) ++ "[]" := by
    unfold WrittenType.text
    rw [storedModifiers_eq_nil rfl, base_user hholder hown]
    simp [written, WrittenType.isArray]
  obtain ⟨column, hcolumn, hshown⟩ := exists_typedColumn_of_array table name position
    (w := written ⟨.user holder own, isQualified, some bound, fields⟩) rfl
  refine ⟨column, hcolumn, fun target => ?_⟩
  rw [hshown, htext]
  cases isQualified with
  | false =>
    simp only [Bool.false_eq_true, if_false]
    rw [hown.canonicalType_array, dropSchema_of_no_point (by simpa using hown.not_mem (c := '.') rfl)]
  | true =>
    have hdrop : dropSchema (some (holder ++ "." ++ (own ++ "[]"))) target =
        some (if target = some holder then own ++ "[]" else holder ++ "." ++ (own ++ "[]")) :=
      dropSchema_qualified hholder.nonempty (hholder.not_mem rfl)
        (by simpa using hown.not_mem (c := '.') rfl)
        (by simp [hholder.not_mem (c := '"') rfl, hown.not_mem (c := '"') rfl]) target
    simp only [if_true]
    rw [hown.canonicalType_qualified_array hholder, String.append_assoc, hdrop]
    unfold nameFor
    by_cases htarget : target = some holder <;> simp [htarget, String.append_assoc]

/-- What a column shows that a statement declares. -/
theorem exists_typedColumn {type : ColumnType} (h : type.IsDeclared)
    (hschema : table.schema = (schema : Field String)) :
    ∃ column, typedColumn table name position type.written = .ok column ∧
      ∀ target, column.typeText? target = some (type.scriptText schema target) := by
  obtain ⟨element, isQualified, array, fields⟩ := type
  cases element with
  | system t modifiers =>
    have ht := spelt_of_mem h.1
    cases array with
    | none => exact exists_typedColumn_system table name position ht h.2
    | some bound => exact exists_typedColumn_system_array table name position ht bound
  | user holder own =>
    cases array with
    | none => exact exists_typedColumn_user table name position h.1 h.2 hschema
    | some bound => exact exists_typedColumn_user_array table name position h.1 h.2 bound

end ColumnType

end

end SchemaScript
