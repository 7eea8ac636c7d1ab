import SchemaScript.Ddl.Table
import SchemaScript.Inspect.Row
import SchemaScript.Proofs.Json.NumberText
import SchemaScript.Proofs.Sql.TypeName

/-!
# Types of columns

A type of a column reaches a catalog as a statement has it (`ColumnType.written`) or as a database reports it
(`ColumnType.row`). What is written for the column then depends on the source (`ColumnType.scriptText`,
`ColumnType.reportText`), and it is one text for some types only (`ColumnType.texts_eq_iff`): the length of a
string of bits, the digits of a time and the element of an array are lost in a report.
-/

namespace SchemaScript

open Sql

/-! ## Types -/

/-- A type of the system: the name it has inside, the one under which its columns are reported, and how many
modifiers it takes. -/
structure SystemType where
  internal : String
  reported : String
  arity : Nat := 0
  deriving DecidableEq

/-- The types that keywords name, and `"char"`, which no keyword names. -/
def keywordTypes : List SystemType :=
  [⟨"int2", "smallint", 0⟩, ⟨"int4", "integer", 0⟩, ⟨"int8", "bigint", 0⟩, ⟨"float4", "real", 0⟩,
   ⟨"float8", "double precision", 0⟩, ⟨"numeric", "numeric", 2⟩, ⟨"bool", "boolean", 0⟩,
   ⟨"varchar", "character varying", 1⟩, ⟨"bpchar", "character", 1⟩, ⟨"char", "\"char\"", 0⟩,
   ⟨"bit", "bit", 1⟩, ⟨"varbit", "bit varying", 1⟩, ⟨"interval", "interval", 2⟩,
   ⟨"timestamp", "timestamp without time zone", 1⟩, ⟨"timestamptz", "timestamp with time zone", 1⟩,
   ⟨"time", "time without time zone", 1⟩, ⟨"timetz", "time with time zone", 1⟩]

/-- The types that are reported as they are called. -/
def plainTypes : List String :=
  ["money", "text", "bytea", "date", "point", "line", "lseg", "box", "path", "polygon", "circle", "cidr",
   "inet", "macaddr", "macaddr8", "tsvector", "tsquery", "uuid", "xml", "json", "jsonb", "jsonpath",
   "int4range", "int8range", "numrange", "tsrange", "tstzrange", "daterange", "int4multirange",
   "int8multirange", "nummultirange", "tsmultirange", "tstzmultirange", "datemultirange", "oid", "regclass",
   "regcollation", "regconfig", "regdictionary", "regnamespace", "regoper", "regoperator", "regproc",
   "regprocedure", "regrole", "regtype", "pg_lsn", "pg_snapshot", "txid_snapshot", "name", "refcursor", "tid",
   "xid", "xid8", "cid"]

def systemTypes : List SystemType :=
  keywordTypes ++ plainTypes.map fun name => ⟨name, name, 0⟩

/-- The one spelling of the type. -/
def SystemType.spelling (t : SystemType) : String :=
  canonicalType t.internal

inductive ElementType
  | system (type : SystemType) (modifiers : List Int)
  | user (schema name : String)

/-- A type as columns are declared with it, an array of one dimension perhaps. -/
structure ColumnType where
  element : ElementType
  /-- The schema is written in front of the name. -/
  isQualified : Bool := true
  /-- The brackets of an array, with a bound or without. -/
  array : Option (Option Nat) := none
  /-- The fields that an interval keeps. -/
  fields : Option String := none

namespace ColumnType

/-- A type that the system has, with as many modifiers as it takes, or one with a name of its own. -/
def IsDeclared (type : ColumnType) : Prop :=
  match type.element with
  | .system t modifiers => t ∈ systemTypes ∧ modifiers.length ≤ t.arity
  | .user schema name => PlainName schema ∧ OwnName name

/-! ## What the sources say -/

/-- The type as it is read in a statement. -/
def written (type : ColumnType) : WrittenType where
  path :=
    match type.element, type.isQualified with
    | .system t _, true => ["pg_catalog", t.internal]
    | .system t _, false => [t.internal]
    | .user schema name, true => [schema, name]
    | .user _ name, false => [name]
  modifiers :=
    match type.element with
    | .system _ modifiers => modifiers.map Text.writeInteger
    | .user _ _ => []
  fields := type.fields
  bounds := type.array.toList

def reportedName (type : ColumnType) : String :=
  match type.element, type.array with
  | _, some _ => "ARRAY"
  | .system t _, none => t.reported
  | .user _ _, none => "USER-DEFINED"

def reportedSchema (type : ColumnType) : String :=
  match type.element with
  | .system _ _ => "pg_catalog"
  | .user schema _ => schema

/-- The name inside the database; that of an array has an underscore in front. -/
def internalName (type : ColumnType) : String :=
  let element :=
    match type.element with
    | .system t _ => t.internal
    | .user _ name => name
  if type.array.isSome then "_" ++ element else element

/-- The length of a text or of a string of bits. -/
def reportedLength (type : ColumnType) : Option Int :=
  match type.element, type.array with
  | .system t modifiers, none =>
    if ["varchar", "bpchar", "bit", "varbit"].contains t.internal then modifiers.head? else none
  | _, _ => none

/-- The digits of a number, or its bits. -/
def reportedPrecision (type : ColumnType) : Option Int :=
  match type.element, type.array with
  | .system t modifiers, none =>
    if t.internal = "numeric" then modifiers.head?
    else [("int2", 16), ("int4", 32), ("int8", 64), ("float4", 24), ("float8", 53)].lookup t.internal
  | _, _ => none

/-- The digits behind the point; a precision alone means none. -/
def reportedScale (type : ColumnType) : Option Int :=
  match type.element, type.array with
  | .system t modifiers, none =>
    if t.internal = "numeric" then modifiers.head?.map fun _ => (modifiers[1]?).getD 0
    else if ["int2", "int4", "int8"].contains t.internal then some 0 else none
  | _, _ => none

/-- The row that a database reports for a column of the type, without a default and without an identity. -/
def row (type : ColumnType) (schema table name : String) (position : Int) : Inspect.Row :=
  [.text schema, .text table, .text name, .integer position, .null, .text "YES", .text type.reportedName,
   .text type.reportedSchema, .text type.internalName, .ofInteger? type.reportedLength,
   .ofInteger? type.reportedPrecision, .ofInteger? type.reportedScale, .null, .text "NO", .null, .null, .null,
   .null, .null, .text "NO"]

/-! ## What is written for the column -/

def modifiersText (modifiers : List Int) : String :=
  if modifiers.isEmpty then "" else enclosed (",".intercalate (modifiers.map Text.writeInteger))

/-- The spelling of a type with its modifiers behind it. -/
def shown (spelling : String) (modifiers : List Int) : String :=
  if modifiers.isEmpty then spelling
  else (if spelling = "character varying" then "varchar" else spelling) ++ modifiersText modifiers

/-- The modifiers that a script leaves. -/
def scriptModifiers (t : SystemType) (modifiers : List Int) : List Int :=
  if t.internal = "interval" then [] else modifiers

/-- The modifiers that a report leaves. -/
def reportModifiers (t : SystemType) (modifiers : List Int) : List Int :=
  if t.internal = "varchar" ∨ t.internal = "bpchar" then modifiers
  else if t.internal = "numeric" then
    match modifiers with
    | [precision] => [precision, 0]
    | modifiers => modifiers
  else []

/-- A name as it is written for the schema `target`. -/
def nameFor (target : Option String) (schema name : String) : String :=
  if target = some schema then name else schema ++ "." ++ name

/-- What is written for a column that a statement declares in a table of the schema. -/
def scriptText (type : ColumnType) (schema : String) (target : Option String) : String :=
  match type.element, type.array with
  | .system t modifiers, none => shown t.spelling (scriptModifiers t modifiers)
  | .system t modifiers, some _ => t.spelling ++ modifiersText (scriptModifiers t modifiers) ++ "[]"
  | .user holder name, none =>
    if type.isQualified ∧ holder ≠ schema then nameFor target holder name else name
  | .user holder name, some _ =>
    (if type.isQualified then nameFor target holder name else name) ++ "[]"

/-- What is written for a column that a database reports for a table of the schema. -/
def reportText (type : ColumnType) (schema : String) (target : Option String) : String :=
  match type.element, type.array with
  | .system t modifiers, none => shown (canonicalType t.reported) (reportModifiers t modifiers)
  | .system t _, some _ => canonicalType ("_" ++ t.internal)
  | .user holder name, none => if holder ≠ schema then nameFor target holder name else name
  | .user _ name, some _ => "_" ++ name

variable {holder own : String}

theorem dropSchema_nameFor (hholder : PlainName holder) (hown : OwnName own) (target : Option String) :
    dropSchema (some (holder ++ "." ++ own)) target = some (nameFor target holder own) :=
  dropSchema_qualified hholder.nonempty (hholder.not_mem rfl) (hown.not_mem rfl)
    (by simp [hholder.not_mem (c := '"') rfl, hown.not_mem (c := '"') rfl]) target

end ColumnType

/-! ## Modifiers -/

theorem not_mem_writeInteger {c : Char} (hdigit : c.isDigit = false) (hsign : c ≠ '-') (n : Int) :
    c ∉ (Text.writeInteger n).toList := by
  have hdigits (n : Nat) : c ∉ Text.digits n := fun hmem => by
    rw [Json.isDigit_of_mem_digits hmem] at hdigit
    contradiction
  cases n with
  | ofNat n => simpa [Text.writeInteger, Text.writeNatural] using hdigits n
  | negSucc n => simpa [Text.writeInteger, Text.writeNatural, hsign] using hdigits (n + 1)

theorem not_mem_modifiers (modifiers : List Int) :
    '.' ∉ (",".intercalate (modifiers.map Text.writeInteger)).toList :=
  not_mem_intercalate (by decide) fun item hitem => by
    obtain ⟨n, -, rfl⟩ := List.mem_map.mp hitem
    exact not_mem_writeInteger (by decide) (by decide) n

theorem modifiers_cases {modifiers : List Int} (h : modifiers.length ≤ 2) :
    modifiers = [] ∨ (∃ n, modifiers = [n]) ∨ ∃ n m, modifiers = [n, m] := by
  cases modifiers with
  | nil => exact .inl rfl
  | cons n rest =>
    cases rest with
    | nil => exact .inr (.inl ⟨n, rfl⟩)
    | cons m rest =>
      obtain rfl := List.eq_nil_of_length_eq_zero (by simpa using h)
      exact .inr (.inr ⟨n, m, rfl⟩)

/-! ## The types of the system -/

/-- The type has one spelling, and is found under it or not by the name it is reported under. -/
@[mk_iff] structure SystemType.Spelt (t : SystemType) : Prop where
  plain : PlainName t.internal
  noElement : underscoreElement? t.internal.toList = none
  scalar : IsScalarName t.spelling.toList
  stays : canonicalScalar t.spelling.toList = t.spelling
  noPoint : '.' ∉ t.spelling.toList ∧ '.' ∉ (canonicalType t.reported).toList
  noParenthesis : '(' ∉ t.spelling.toList ∧ '(' ∉ (canonicalType t.reported).toList
  noSerial : serialBase? t.spelling = none
  arity : t.arity ≤ 2 ∧ (t.spelling = "character varying" ∨ t.spelling = "character" → t.arity ≤ 1)
  reported : t.reported ≠ "ARRAY" ∧ t.reported ≠ "USER-DEFINED"
  agrees : canonicalType t.reported = t.spelling ↔ t.internal ≠ "char" ∧ t.internal ≠ "varbit"
  texts : (canonicalType t.reported = "character varying" ↔ t.internal = "varchar") ∧
    (canonicalType t.reported = "character" ↔ t.internal = "bpchar")
  interval : t.spelling = "interval" ↔ t.internal = "interval"
  numbers : (t.reported = "numeric" ↔ t.internal = "numeric") ∧
    (canonicalType t.reported = "numeric" ↔ t.internal = "numeric")

instance (t : SystemType) : Decidable t.Spelt :=
  decidable_of_iff _ (SystemType.spelt_iff t).symm

theorem spelt_of_mem_keywordTypes : ∀ t ∈ keywordTypes, t.Spelt := by decide +kernel

/-- No rule speaks of the name. -/
theorem plainTypes_plain : ∀ name ∈ plainTypes, PlainName name ∧ alias? name = none ∧
    underscoreElement? name.toList = none ∧ '(' ∉ name.toList ∧ name ∉ ["SERIAL", "SMALLSERIAL", "BIGSERIAL", "ARRAY",
      "USER-DEFINED", "char", "varbit", "character varying", "varchar", "character", "bpchar", "numeric",
      "interval"] := by
  decide +kernel

theorem spelt_of_mem_plainTypes {name : String} (h : name ∈ plainTypes) :
    (⟨name, name, 0⟩ : SystemType).Spelt := by
  obtain ⟨hplain, halias, helement, hparenthesis, hother⟩ := plainTypes_plain name h
  simp only [List.mem_cons, List.not_mem_nil, or_false, not_or] at hother
  have hscalar : canonicalScalar name.toList = name := by
    rw [canonicalScalar_eq_getD helement, halias, Option.getD_none]
  have hspelling : canonicalType name = name := hplain.isScalarName.canonicalType_eq.trans hscalar
  have hpoint : '.' ∉ name.toList := hplain.not_mem rfl
  have hserial : serialBase? name = none := by simp [serialBase?, hother]
  refine ⟨hplain, helement, ?_, ?_, ?_, ?_, ?_, ?_, ?_, ?_, ?_, ?_, ?_⟩ <;>
    simp [SystemType.spelling, hspelling, hplain.isScalarName, hscalar, hpoint, hparenthesis, hserial, hother]

theorem spelt_of_mem {t : SystemType} (h : t ∈ systemTypes) : t.Spelt := by
  rcases List.mem_append.mp h with hkeyword | hplain
  · exact spelt_of_mem_keywordTypes t hkeyword
  · obtain ⟨name, hname, rfl⟩ := List.mem_map.mp hplain
    exact spelt_of_mem_plainTypes hname

/-! ## What is written for a column -/

namespace Column

variable {c : Column} {base : String} {target : Option String}

theorem isSerial_eq_false (h : c.default.given = none) : c.isSerial = false := by
  unfold isSerial
  rw [h]

/-- Without a length that counts and without a precision the type is its name. -/
theorem typeText?_of_name (hdefault : c.default.given = none)
    (hbase : c.declaredType.map canonicalType = some base)
    (hlength : c.maxLength.text? = none ∨ base ≠ "character varying" ∧ base ≠ "character")
    (hprecision : c.precision.text? = none) : c.typeText? target = dropSchema (some base) target := by
  unfold typeText?
  rw [isSerial_eq_false hdefault, if_neg Bool.false_ne_true, hbase, hprecision]
  rcases hlength with hlength | ⟨hvarying, hfixed⟩
  · simp [hlength]
  · cases c.maxLength.text? <;> simp [hvarying, hfixed]

theorem typeText?_of_length {n : Int} (hdefault : c.default.given = none)
    (hbase : c.declaredType.map canonicalType = some base) (hlength : c.maxLength = (n : Field Int))
    (htext : base = "character varying" ∨ base = "character") :
    c.typeText? target = some (ColumnType.shown base [n]) := by
  unfold typeText?
  rw [isSerial_eq_false hdefault, if_neg Bool.false_ne_true, hbase, hlength]
  rcases htext with rfl | rfl <;> rfl

theorem typeText?_of_precision {p : Int} {s : Option Int} (hdefault : c.default.given = none)
    (hbase : c.declaredType.map canonicalType = some "numeric") (hprecision : c.precision = (p : Field Int))
    (hscale : c.scale = (s : Field Int)) :
    c.typeText? target = some (ColumnType.shown "numeric" (p :: s.toList)) := by
  unfold typeText?
  rw [isSerial_eq_false hdefault, if_neg Bool.false_ne_true, hbase, hprecision, hscale]
  cases c.maxLength.text? <;> cases s <;> rfl

end Column

theorem Column.declaredType_of_name {c : Column} {base : String} (h : c.dataType = (base : Field String))
    (hbase : base ≠ "USER-DEFINED") : c.declaredType = some base := by
  unfold declaredType
  rw [h]
  simp [hbase]

theorem Column.declaredType_of_user {c : Column} {base : String} (h : c.dataType = ("USER-DEFINED" : Field String))
    (huser : c.userType = (base : Field String)) (hbase : base ≠ "") : c.declaredType = some base := by
  unfold declaredType
  rw [h, huser]
  simp [Field.isGiven, Json.isNothing, hbase]

/-- A type that is stored as it is called from the schema shows as it is called for the target. -/
theorem Column.typeText?_of_user {c : Column} {holder own schema : String} {target : Option String}
    (hholder : PlainName holder) (hown : OwnName own) (hdefault : c.default.given = none)
    (htype : c.dataType = ("USER-DEFINED" : Field String))
    (huser : c.userType = ((if holder ≠ schema then holder ++ "." ++ own else own : String) : Field String))
    (hlength : c.maxLength.text? = none) (hprecision : c.precision.text? = none) :
    c.typeText? target = some (if holder ≠ schema then ColumnType.nameFor target holder own else own) := by
  have hbase : c.declaredType.map canonicalType = some (if holder ≠ schema then holder ++ "." ++ own else own) := by
    rw [Column.declaredType_of_user htype huser (by split <;> simp [hown.nonempty]), Option.map_some]
    split
    · rw [hown.canonicalType_qualified hholder]
    · rw [hown.canonicalType_eq]
  rw [Column.typeText?_of_name hdefault hbase (.inl hlength) hprecision]
  split
  · exact ColumnType.dropSchema_nameFor hholder hown target
  · exact dropSchema_of_no_point (hown.not_mem rfl) target

end SchemaScript
