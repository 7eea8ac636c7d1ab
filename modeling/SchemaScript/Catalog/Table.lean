import SchemaScript.Catalog.Entries
import SchemaScript.Catalog.Field
import SchemaScript.Catalog.Kind

/-!
# Tables

A table and what it owns: columns, constraints, indexes, triggers and policies.
-/

namespace SchemaScript

/-- How the values of an identity column are generated. -/
structure Identity where
  enabled : Field Bool := false
  generation : Field String := .absent
  start : Field Int := .absent
  increment : Field Int := .absent
  maximum : Field Int := .absent
  minimum : Field Int := .absent
  cycle : Field Bool := false
  deriving DecidableEq, Inhabited

structure Column where
  name : Field String
  position : Field Int
  dataType : Field String
  /-- The type's own name where `dataType` only says that a user defined it. -/
  userType : Field String := .absent
  nullable : Field Bool := true
  default : Field String := .absent
  maxLength : Field Int := .absent
  precision : Field Int := .absent
  scale : Field Int := .absent
  comment : Field String := .absent
  identity : Identity := {}
  deriving DecidableEq, Inhabited

/-- A column as a constraint names it. -/
structure KeyColumn where
  name : Field String
  position : Field Int
  deriving DecidableEq, Inhabited

structure Constraint where
  schema : Field String
  table : Field String
  name : Field String
  kind : ConstraintKind
  columns : List KeyColumn := []
  referencedSchema : Field String := .absent
  referencedTable : Field String := .absent
  referencedColumns : List KeyColumn := []
  condition : Field String := .absent
  onUpdate : Field String := .absent
  onDelete : Field String := .absent
  deferrable : Field Bool := false
  initiallyDeferred : Field Bool := false
  comment : Field String := .absent
  deriving DecidableEq, Inhabited

def Constraint.sortedColumns (c : Constraint) : List KeyColumn :=
  byPosition (·.position) c.columns

def Constraint.sortedReferencedColumns (c : Constraint) : List KeyColumn :=
  byPosition (·.position) c.referencedColumns

/-- A column or an expression of an index. -/
structure IndexColumn where
  name : Field String
  position : Field Int
  direction : Field String := .absent
  operatorClass : Field String := .absent
  deriving DecidableEq, Inhabited

structure Index where
  schema : Field String
  table : Field String
  name : Field String
  kind : IndexKind := .regular
  method : Field String := "btree"
  columns : List IndexColumn := []
  isUnique : Field Bool := false
  isPrimary : Field Bool := false
  isPartial : Field Bool := false
  isConcurrent : Field Bool := false
  predicate : Field String := .absent
  /-- The whole statement, where it is known; then it is preferred to the columns. -/
  definition : Field String := .absent
  comment : Field String := .absent
  deriving DecidableEq, Inhabited

def Index.sortedColumns (index : Index) : List IndexColumn :=
  byPosition (·.position) index.columns

structure Trigger where
  schema : Field String
  table : Field String
  name : Field String
  timing : Timing := .after
  events : List Event := []
  granularity : Granularity := .row
  function : Field String := ""
  condition : Field String := .absent
  comment : Field String := .absent
  deriving DecidableEq, Inhabited

/-- A row security policy. -/
structure Policy where
  schema : Field String
  table : Field String
  name : Field String
  command : PolicyCommand := .all
  permissive : Field Bool := true
  roles : Field (List String) := ([] : List String)
  visible : Field String := .absent
  allowed : Field String := .absent
  deriving DecidableEq, Inhabited

structure Table where
  schema : Field String
  name : Field String
  kind : TableKind := .base
  columns : List Column := []
  constraints : Entries Constraint := .empty
  indexes : Entries Index := .empty
  triggers : Entries Trigger := .empty
  policies : Entries Policy := .empty
  rowSecurity : Field Bool := false
  dependencies : Field (List String) := ([] : List String)
  comment : Field String := .absent
  isPartitioned : Field Bool := false
  partitionStrategy : Field String := .absent
  partitionKey : Field String := .absent
  deriving DecidableEq, Inhabited

namespace Table

def sortedColumns (t : Table) : List Column :=
  byPosition (·.position) t.columns

/-- The first column of that name. -/
def column? (t : Table) (name : String) : Option Column :=
  t.columns.find? fun c => c.name == (name : Field String)

/-- Changes the first column that satisfies `p`. -/
def modifyFirst (p : Column → Bool) (f : Column → Column) : List Column → List Column
  | [] => []
  | c :: columns => if p c then f c :: columns else c :: modifyFirst p f columns

/-- Changes the first column of that name, if there is one. -/
def modifyColumn (t : Table) (name : String) (f : Column → Column) : Table :=
  { t with columns := modifyFirst (fun c => c.name == (name : Field String)) f t.columns }

/-- The foreign keys in the order of the names under which they are kept. -/
def foreignKeys (t : Table) : List Constraint :=
  t.constraints.sortedValues.filter fun c => c.kind == .foreignKey

/-- The first primary key in the order of names. -/
def primaryKey? (t : Table) : Option Constraint :=
  t.constraints.sortedValues.find? fun c => c.kind == .primaryKey

end Table
end SchemaScript
