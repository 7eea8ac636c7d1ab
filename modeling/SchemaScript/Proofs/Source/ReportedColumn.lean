import SchemaScript.Inspect.Table
import SchemaScript.Proofs.Source.ColumnType

/-!
# Columns that a database reports

What such a column shows of its type, for every type that a column can have (`exists_columnRow_text`).
-/

namespace SchemaScript

open Sql

namespace ColumnType

open Inspect (columnRow)

variable {type : ColumnType} {c : Catalog} {t : Table} {schema table : String} (name : String) (position : Int)

/-- The type that is kept for a column, an array under the spelling of its element. -/
def loadedType (type : ColumnType) : String :=
  if type.array.isSome then canonicalType type.internalName else type.reportedName

theorem reportedName_eq_array_iff (h : type.IsDeclared) : type.reportedName = "ARRAY" ↔ type.array.isSome := by
  obtain ⟨element, isQualified, array, fields⟩ := type
  cases array with
  | some bound => exact iff_of_true rfl rfl
  | none =>
    cases element with
    | system t modifiers => exact iff_of_false (spelt_of_mem h.1).reported.1 Bool.false_ne_true
    | user schema name =>
      have hname : "USER-DEFINED" ≠ "ARRAY" := by decide
      exact iff_of_false hname Bool.false_ne_true

theorem integer?_ofInteger? (n : Option Int) : Inspect.Cell.integer? (.ofInteger? n) = .ok n := by
  cases n <;> rfl

theorem internalName_ne_empty (harray : type.array.isSome) : type.internalName ≠ "" := by
  unfold internalName
  rw [if_pos harray]
  simp

/-- The column has what the row of the type says about it. -/
structure IsLoaded (type : ColumnType) (schema : String) (column : Column) : Prop where
  default : column.default.given = none
  dataType : column.dataType = (type.loadedType : Field String)
  userType : column.userType = Inspect.userTypeName (.text schema) (.text type.reportedName)
    (.text type.reportedSchema) (.text type.internalName)
  maxLength : column.maxLength = (type.reportedLength : Field Int)
  precision : column.precision =
    (if type.loadedType = "numeric" then type.reportedPrecision else none : Option Int)
  scale : column.scale = (if type.loadedType = "numeric" then type.reportedScale else none : Option Int)

/-- The column that is kept for the row. -/
theorem exists_columnRow (h : type.IsDeclared) (ht : c.findTable? schema table = some t) :
    ∃ column : Column,
      (columnRow c (type.row schema table name position)).result =
        .ok (c.modifyTable schema table fun _ => { t with columns := t.columns ++ [column] }) ∧
      type.IsLoaded schema column := by
  have hword : Inspect.Cell.isWord "ARRAY" (.text type.reportedName) = type.array.isSome := by
    rw [Bool.eq_iff_iff, ← reportedName_eq_array_iff h]
    simp [Inspect.Cell.isWord]
  refine ⟨{
    name, position
    dataType := type.loadedType
    userType := Inspect.userTypeName (.text schema) (.text type.reportedName) (.text type.reportedSchema)
      (.text type.internalName)
    default := ⟨.null⟩
    maxLength := type.reportedLength
    precision := (if type.loadedType = "numeric" then type.reportedPrecision else none : Option Int)
    scale := (if type.loadedType = "numeric" then type.reportedScale else none : Option Int)
    comment := ⟨.null⟩
    identity := { generation := ⟨.null⟩, start := (none : Option Int) } }, ?_, ⟨rfl, rfl, rfl, rfl, rfl, rfl⟩⟩
  have hfound : c.findTable? (Inspect.Cell.name (.text schema)) (Inspect.Cell.name (.text table)) = some t := ht
  have hnumeric : ((⟨.text type.loadedType⟩ : Field String) == ⟨.text "numeric"⟩) =
      decide (type.loadedType = "numeric") := by
    rw [Bool.eq_iff_iff]
    simp
  have hnumber (n : Option Int) :
      (if type.loadedType = "numeric" then (.ok n : Except Fault (Option Int)) else .ok none) =
        .ok (if type.loadedType = "numeric" then n else none) := by
    split <;> rfl
  unfold row columnRow Inspect.atTable
  dsimp only
  rw [hfound, hword]
  dsimp only
  by_cases harray : type.array.isSome
  · have hkept : Inspect.Cell.type (.text type.internalName) = .ok (type.loadedType : Field String) := by
      unfold loadedType
      rw [if_pos harray]
      have hne := internalName_ne_empty harray
      simp [Inspect.Cell.type, Inspect.Cell.letters, Json.isNothing, Json.isText, hne]
      rfl
    rw [if_pos harray, hkept]
    simp only [bind, Except.bind, hnumeric, decide_eq_true_eq, integer?_ofInteger?, hnumber]
    rfl
  · have hkept : type.reportedName = type.loadedType := by
      unfold loadedType
      rw [if_neg harray]
    rw [if_neg harray, hkept]
    simp only [bind, Except.bind, pure, Except.pure, hnumeric, decide_eq_true_eq, integer?_ofInteger?, hnumber]
    rfl

theorem canonicalType_underscore {t : SystemType} (ht : t.Spelt) :
    canonicalType ("_" ++ t.internal) =
      if isSystemName t.internal then t.spelling ++ "[]" else "_" ++ t.internal := by
  have hspelling : t.spelling = (alias? t.internal).getD t.internal :=
    ht.plain.isScalarName.canonicalType_eq.trans (canonicalScalar_eq_getD ht.noElement)
  rw [ht.plain.canonicalType_underscore, hspelling]

/-- The spelling of an array stays, whether its element is known or not. -/
theorem arrayName_stays {t : SystemType} (ht : t.Spelt) :
    canonicalType (canonicalType ("_" ++ t.internal)) = canonicalType ("_" ++ t.internal) ∧
      '.' ∉ (canonicalType ("_" ++ t.internal)).toList ∧
      canonicalType ("_" ++ t.internal) ≠ "USER-DEFINED" := by
  have hname := canonicalType_underscore ht
  by_cases hknown : isSystemName t.internal
  · rw [if_pos hknown] at hname
    rw [hname, ht.scalar.canonicalType_array, ht.stays]
    refine ⟨rfl, by simpa using ht.noPoint.1, fun heq => ?_⟩
    have hlast := congrArg (fun s => s.toList.getLast?) heq
    simp at hlast
  · rw [if_neg hknown] at hname
    refine ⟨congrArg canonicalType hname, ?_, ?_⟩
    · rw [hname]
      simpa using ht.plain.not_mem (c := '.') rfl
    · rw [hname]
      intro heq
      have hfirst := congrArg (fun s => s.toList.head?) heq
      simp at hfirst

namespace IsLoaded

variable {t : SystemType} {modifiers : List Int} {holder own : String} {column : Column} {target : Option String}
  {isQualified : Bool} {bound : Option Nat} {fields : Option String}

/-! ## Types of the system -/

section

variable (h : IsLoaded ⟨.system t modifiers, isQualified, none, fields⟩ schema column) (ht : t.Spelt)

include h ht

theorem base_eq : column.declaredType.map canonicalType = some (canonicalType t.reported) := by
  have hname : column.declaredType = some t.reported := Column.declaredType_of_name h.dataType ht.reported.2
  rw [hname, Option.map_some]

theorem precision_eq_none (hother : t.internal ≠ "numeric") : column.precision.text? = none := by
  have hnone : (if t.reported = "numeric" then reportedPrecision ⟨.system t modifiers, isQualified, none, fields⟩
      else none) = none := if_neg (mt ht.numbers.1.mp hother)
  rw [h.precision]
  exact congrArg (fun n : Option Int => (n : Field Int).text?) hnone

/-- The length of a text is kept. -/
theorem typeText?_text (hcount : modifiers.length ≤ t.arity)
    (htext : t.internal = "varchar" ∨ t.internal = "bpchar") :
    column.typeText? target = some (shown (canonicalType t.reported) modifiers) := by
  have hother : t.internal ≠ "char" ∧ t.internal ≠ "varbit" ∧ t.internal ≠ "numeric" ∧
      ["varchar", "bpchar", "bit", "varbit"].contains t.internal = true := by
    rcases htext with h | h <;> rw [h] <;> decide
  obtain ⟨hchar, hvarbit, hnumeric, hlisted⟩ := hother
  have hspelling := ht.agrees.mpr ⟨hchar, hvarbit⟩
  have hreported := htext.imp ht.texts.1.mpr ht.texts.2.mpr
  have hone := Nat.le_trans hcount (ht.arity.2 (hspelling ▸ hreported))
  have hlength : column.maxLength = (modifiers.head? : Field Int) :=
    h.maxLength.trans (congrArg (fun n : Option Int => (n : Field Int)) (if_pos hlisted))
  cases modifiers with
  | nil =>
    rw [Column.typeText?_of_name h.default (h.base_eq ht) (.inl (by rw [hlength]; rfl))
      (h.precision_eq_none ht hnumeric), dropSchema_of_no_point ht.noPoint.2]
    rfl
  | cons n rest =>
    obtain rfl := List.eq_nil_of_length_eq_zero (by simpa using hone)
    exact Column.typeText?_of_length h.default (h.base_eq ht) hlength hreported

/-- The digits of a number are kept, those behind the point too. -/
theorem typeText?_numeric (hcount : modifiers.length ≤ t.arity) (hnumeric : t.internal = "numeric") :
    column.typeText? target = some (shown (canonicalType t.reported) (reportModifiers t modifiers)) := by
  have hbase := h.base_eq ht
  have hreported := ht.numbers.1.mpr hnumeric
  have hfield {n m : Option Int} (heq : n = m) : (n : Field Int) = (m : Field Int) := by rw [heq]
  have hprecision : column.precision = (modifiers.head? : Field Int) :=
    h.precision.trans (hfield ((if_pos hreported).trans (if_pos hnumeric)))
  have hscale : column.scale = (modifiers.head?.map fun _ => (modifiers[1]?).getD 0 : Field Int) :=
    h.scale.trans (hfield ((if_pos hreported).trans (if_pos hnumeric)))
  rw [ht.numbers.2.mpr hnumeric] at hbase ⊢
  rcases modifiers_cases (Nat.le_trans hcount ht.arity.1) with rfl | ⟨p, rfl⟩ | ⟨p, s, rfl⟩
  · have hkept : reportModifiers t [] = [] := by simp [reportModifiers, hnumeric]
    rw [hkept, Column.typeText?_of_name h.default hbase (.inr (by decide)) (by rw [hprecision]; rfl)]
    exact dropSchema_of_no_point (by decide) target
  · have hkept : reportModifiers t [p] = [p, 0] := by simp [reportModifiers, hnumeric]
    rw [hkept]
    exact Column.typeText?_of_precision (s := some 0) h.default hbase hprecision hscale
  · have hkept : reportModifiers t [p, s] = [p, s] := by simp [reportModifiers, hnumeric]
    rw [hkept]
    exact Column.typeText?_of_precision (s := some s) h.default hbase hprecision hscale

/-- Of all others the name is kept. -/
theorem typeText?_other (htext : ¬ (t.internal = "varchar" ∨ t.internal = "bpchar"))
    (hnumeric : t.internal ≠ "numeric") : column.typeText? target = some (canonicalType t.reported) := by
  rw [not_or] at htext
  rw [Column.typeText?_of_name h.default (h.base_eq ht) (.inr ⟨mt ht.texts.1.mp htext.1, mt ht.texts.2.mp htext.2⟩)
    (h.precision_eq_none ht hnumeric), dropSchema_of_no_point ht.noPoint.2]

theorem typeText?_system (hcount : modifiers.length ≤ t.arity) :
    column.typeText? target = some (shown (canonicalType t.reported) (reportModifiers t modifiers)) := by
  by_cases htext : t.internal = "varchar" ∨ t.internal = "bpchar"
  · have hkept : reportModifiers t modifiers = modifiers := if_pos htext
    rw [hkept, h.typeText?_text ht hcount htext]
  by_cases hnumeric : t.internal = "numeric"
  · exact h.typeText?_numeric ht hcount hnumeric
  · have hkept : reportModifiers t modifiers = [] := by simp [reportModifiers, htext, hnumeric]
    rw [hkept, h.typeText?_other ht htext hnumeric]
    rfl

end

theorem typeText?_array (h : IsLoaded ⟨.system t modifiers, isQualified, some bound, fields⟩ schema column)
    (ht : t.Spelt) : column.typeText? target = some (canonicalType ("_" ++ t.internal)) := by
  obtain ⟨hstays, hpoint, hother⟩ := arrayName_stays ht
  have hname : column.declaredType = some (canonicalType ("_" ++ t.internal)) :=
    Column.declaredType_of_name h.dataType hother
  have hbase : column.declaredType.map canonicalType = some (canonicalType ("_" ++ t.internal)) := by
    rw [hname, Option.map_some, hstays]
  rw [Column.typeText?_of_name h.default hbase (.inl (by rw [h.maxLength]; rfl))
    (by rw [h.precision]; split <;> rfl), dropSchema_of_no_point hpoint]

/-! ## Types of users -/

theorem typeText?_user (h : IsLoaded ⟨.user holder own, isQualified, none, fields⟩ schema column)
    (hholder : PlainName holder) (hown : OwnName own) :
    column.typeText? target = some (if holder ≠ schema then nameFor target holder own else own) := by
  have huser : column.userType =
      ((if holder ≠ schema then holder ++ "." ++ own else own : String) : Field String) := by
    rw [h.userType]
    by_cases hsame : holder = schema
    · simp [Inspect.userTypeName, hsame, reportedSchema, internalName]
    · simp [Inspect.userTypeName, Inspect.Cell.isWord, Inspect.Cell.isSet, Json.isNothing, hholder.nonempty,
        hsame, Json.plain, reportedName, reportedSchema, internalName]
  exact Column.typeText?_of_user hholder hown h.default h.dataType huser (by rw [h.maxLength]; rfl)
    (by rw [h.precision]; split <;> rfl)

theorem typeText?_user_array (h : IsLoaded ⟨.user holder own, isQualified, some bound, fields⟩ schema column)
    (hown : OwnName own) : column.typeText? target = some ("_" ++ own) := by
  have hother : "_" ++ own ≠ "USER-DEFINED" := fun heq => by
    have hfirst := congrArg (fun s => s.toList.head?) heq
    simp at hfirst
  have hloaded : column.dataType = ("_" ++ own : String) :=
    h.dataType.trans (congrArg (fun s : String => (s : Field String)) hown.canonicalType_underscore)
  have hbase : column.declaredType.map canonicalType = some ("_" ++ own) := by
    rw [Column.declaredType_of_name hloaded hother, Option.map_some, hown.canonicalType_underscore]
  rw [Column.typeText?_of_name h.default hbase (.inl (by rw [h.maxLength]; rfl))
    (by rw [h.precision]; split <;> rfl), dropSchema_of_no_point (by simpa using hown.not_mem (c := '.') rfl)]

end IsLoaded

/-- What a column shows that a database reports. -/
theorem exists_columnRow_text (h : type.IsDeclared) (ht : c.findTable? schema table = some t) :
    ∃ column : Column,
      (columnRow c (type.row schema table name position)).result =
        .ok (c.modifyTable schema table fun _ => { t with columns := t.columns ++ [column] }) ∧
      ∀ target, column.typeText? target = some (type.reportText schema target) := by
  obtain ⟨column, hrow, hloaded⟩ := exists_columnRow name position h ht
  refine ⟨column, hrow, fun target => ?_⟩
  obtain ⟨element, isQualified, array, fields⟩ := type
  cases element with
  | system t modifiers =>
    cases array with
    | none => exact hloaded.typeText?_system (spelt_of_mem h.1) h.2
    | some bound => exact hloaded.typeText?_array (spelt_of_mem h.1)
  | user holder own =>
    cases array with
    | none => exact hloaded.typeText?_user h.1 h.2
    | some bound => exact hloaded.typeText?_user_array h.2

end ColumnType

end SchemaScript
