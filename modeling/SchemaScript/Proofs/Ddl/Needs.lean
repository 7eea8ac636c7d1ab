import SchemaScript.Proofs.Ddl.Incomplete
import SchemaScript.Script.Piece

/-!
# What a statement needs

A statement needs the objects that a field of its own names: the schema it stands in, the types of its columns,
members and parameters, the functions it calls (`Subject.Needs`). What only an expression, a query or a body
mentions is not among them.
-/

namespace SchemaScript

/-! ## References -/

namespace Sql

/-- The name as it is, or between double quotes. -/
def Spells (name text : String) : Prop :=
  text = name ∨ text = quoted name

/-- The text refers to the object, with its schema or without. -/
inductive RefersTo (schema name : String) : String → Prop
  | bare {n} (hname : Spells name n) : RefersTo schema name n
  | qualified {s n} (hschema : Spells schema s) (hname : Spells name n) :
      RefersTo schema name (s ++ "." ++ n)

/-- The text names the type, or arrays of it. -/
inductive NamesType (schema name : String) : String → Prop
  | element {r} (h : RefersTo schema name r) : NamesType schema name r
  | array {r} (h : NamesType schema name r) : NamesType schema name (r ++ "[]")

/-- The text names the function, with or without arguments. -/
inductive NamesFunction (schema name : String) : String → Prop
  | bare {r} (h : RefersTo schema name r) : NamesFunction schema name r
  | call {r arguments} (h : RefersTo schema name r) :
      NamesFunction schema name (r ++ "(" ++ arguments ++ ")")

theorem length_le_quoted (name : String) : name.length ≤ (quoted name).length := by
  have hdoubled (s : List Char) : s.length ≤ (doubleQuotes s).length := by
    induction s with
    | nil => exact Nat.le_refl 0
    | cons c s ih =>
      rw [doubleQuotes, List.flatMap_cons, List.length_append, List.length_cons, Nat.add_comm]
      refine Nat.add_le_add ?_ ih
      split <;> simp
  have hname := hdoubled name.toList
  rw [quoted, String.length_ofList]
  simp only [List.length_append, List.length_cons, String.length_toList] at hname ⊢
  omega

variable {schema name text : String}

theorem RefersTo.length_le (h : RefersTo schema name text) : name.length ≤ text.length := by
  have hspelled {n : String} (hn : Spells name n) : name.length ≤ n.length := by
    rcases hn with rfl | rfl
    · exact Nat.le_refl _
    · exact length_le_quoted name
  cases h with
  | bare hname => exact hspelled hname
  | qualified _ hname =>
    rw [String.length_append]
    exact (hspelled hname).trans (Nat.le_add_left _ _)

theorem NamesType.length_le (h : NamesType schema name text) : name.length ≤ text.length := by
  induction h with
  | element h => exact h.length_le
  | array _ ih =>
    rw [String.length_append]
    exact ih.trans (Nat.le_add_right _ _)

end Sql

/-- The types that a type is built on, as its fields have them. -/
def UserType.parts (t : UserType) : List String :=
  match t.kind with
  | .enum => []
  | .composite => t.members.filterMap (·.dataType.text?)
  | .domain => t.base.text?.toList

namespace Subject

/-- The schema in which the object is created. -/
def schemaField : Subject → Field String
  | extension e => e.schema
  | schema _ => .absent
  | type t => t.schema
  | sequence s => s.schema
  | table t | rowSecurity t => t.schema
  | constraint c => c.schema
  | index i => i.schema
  | trigger t => t.schema
  | policy p => p.schema
  | view v => v.schema
  | function f => f.schema
  | aggregate a => a.schema
  | procedure p => p.schema

def typeFields : Subject → List String
  | type t => t.parts
  | table t => t.columns.filterMap (·.declaredType)
  | function f => (f.returnType :: f.parameters.map (·.dataType)).filterMap (·.text?)
  | aggregate a => [a.stateType, a.returnType].filterMap (·.text?)
  | _ => []

def functionFields : Subject → List String
  | trigger t => t.function.text?.toList
  | aggregate a =>
    Aggregate.supportText a.transition a.transitionSchema none ::
      if a.final.isGiven then [Aggregate.supportText a.final a.finalSchema none] else []
  | _ => []

/-- A field of the object names what the tag stands for. Tables and views can be named as the types of
their rows. -/
inductive Needs (s : Subject) : Tag → Prop
  | schema {key} (named : s.schemaField.given = some key) : Needs s (.schema key)
  | type {schema kind key text} (hasRows : kind ∈ [.type, .table, .view]) (field : text ∈ s.typeFields)
      (named : Sql.NamesType schema key text) : Needs s (.object schema kind key)
  | function {schema key text} (field : text ∈ s.functionFields)
      (named : Sql.NamesFunction schema key text) : Needs s (.object schema .function key)

/-- The object is created before anything of the tag's kind: an extension before the schemas, a type before
tables and views, a table before views, a trigger before functions. -/
def isAhead : Subject → Tag → Bool
  | extension _, .schema _ => true
  | type _, .object _ kind _ => kind == .table || kind == .view
  | table _, .object _ kind _ => kind == .view
  | trigger _, .object _ kind _ => kind == .function
  | _, _ => false

end Subject
end SchemaScript
