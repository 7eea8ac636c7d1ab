import SchemaScript.Catalog.Field
import SchemaScript.Catalog.Kind

/-!
# Objects other than tables

Views, sequences, types and extensions, and the routines.
-/

/-!
## Views, sequences, types and extensions
-/

namespace SchemaScript

structure View where
  schema : Field String
  name : Field String
  definition : Field String := ""
  materialized : Field Bool := false
  dependencies : Field (List String) := ([] : List String)
  comment : Field String := .absent
  deriving DecidableEq, Inhabited

structure Sequence where
  schema : Field String
  name : Field String
  dataType : Field String := "bigint"
  start : Field Int := (1 : Int)
  increment : Field Int := (1 : Int)
  minimum : Field Int := .absent
  maximum : Field Int := .absent
  cycle : Field Bool := false
  ownerTable : Field String := .absent
  ownerColumn : Field String := .absent
  comment : Field String := .absent
  deriving DecidableEq, Inhabited

/-- A column owns the sequence, so the column's own definition creates it. -/
def Sequence.isOwned (s : Sequence) : Bool :=
  s.ownerTable.isGiven && s.ownerColumn.isGiven

/-- A member of a composite type. -/
structure Member where
  name : Field String
  dataType : Field String
  position : Field Int := (0 : Int)
  deriving DecidableEq, Inhabited

structure DomainConstraint where
  definition : Field String
  name : Field String := .absent
  deriving DecidableEq, Inhabited

/-- A type; which fields matter depends on its kind. -/
structure UserType where
  schema : Field String
  name : Field String
  kind : TypeKind := .enum
  labels : Field (List String) := ([] : List String)
  members : List Member := []
  base : Field String := .absent
  notNull : Field Bool := false
  default : Field String := .absent
  constraints : List DomainConstraint := []
  comment : Field String := .absent
  deriving DecidableEq, Inhabited

def UserType.isDomain (t : UserType) : Bool :=
  t.kind == .domain

structure Extension where
  name : Field String
  schema : Field String := .absent
  version : Field String := .absent
  comment : Field String := .absent
  deriving DecidableEq, Inhabited

/-- Where a catalog comes from. -/
structure Metadata where
  databaseVersion : Field String := ""
  dumpVersion : Field String := ""
  dumpedAt : Field String := .absent
  source : Field String := .absent
  deriving DecidableEq, Inhabited

/-- The release number of this program. -/
def release : String :=
  "0.3.0"

/-- What catalogs that this program builds say they were dumped by. -/
def dumpVersion : String :=
  "pg-schema " ++ release

end SchemaScript

/-!
## Functions, procedures and aggregates

`arguments` holds the types that tell overloads apart, `signature` the whole parameter list.
-/

namespace SchemaScript

structure Parameter where
  name : Field String
  dataType : Field String
  mode : Field String := .absent
  default : Field String := .absent
  position : Field Int := (0 : Int)
  deriving DecidableEq, Inhabited

/-- The parameter in a parameter list; the mode `IN` is left out. -/
def Parameter.sql (p : Parameter) : String :=
  let words := (p.mode.given.filter (· != "IN")).toList ++ p.name.given.toList ++ [p.dataType.spelled]
  " ".intercalate words ++ (match p.default.text? with | some d => " DEFAULT " ++ d | none => "")

/-- The words of a parameter list are texts, and a type is among them. -/
def Parameter.check (p : Parameter) : Except Fault Unit :=
  let isWord (f : Field String) : Bool := !f.isGiven || f.stored.isText
  if isWord p.mode && isWord p.name && p.dataType.stored.isText then .ok () else .error .wrongForm

structure StoredFunction where
  schema : Field String
  name : Field String
  definition : Field String := ""
  language : Field String := "sql"
  arguments : Field String := ""
  signature : Field String := ""
  returnType : Field String := .absent
  parameters : List Parameter := []
  volatility : Field String := .absent
  isStrict : Field Bool := false
  isSecurityDefiner : Field Bool := false
  comment : Field String := .absent
  deriving DecidableEq, Inhabited

structure Procedure where
  schema : Field String
  name : Field String
  definition : Field String := ""
  language : Field String := "plpgsql"
  arguments : Field String := ""
  signature : Field String := ""
  comment : Field String := .absent
  deriving DecidableEq, Inhabited

/-- An aggregate; an absent initial condition differs from an empty one. -/
structure Aggregate where
  schema : Field String
  name : Field String
  arguments : Field String := ""
  signature : Field String := ""
  returnType : Field String := .absent
  transition : Field String := .absent
  transitionSchema : Field String := .absent
  stateType : Field String := .absent
  initialCondition : Field String := .absent
  final : Field String := .absent
  finalSchema : Field String := .absent
  comment : Field String := .absent
  deriving DecidableEq, Inhabited

/-- A name with the arguments that tell it from its overloads. -/
def routineIdentity (name arguments : Field String) : String :=
  name.spelled ++ "(" ++ arguments.spelled ++ ")"

def StoredFunction.identity (f : StoredFunction) : String :=
  routineIdentity f.name f.arguments

def Procedure.identity (p : Procedure) : String :=
  routineIdentity p.name p.arguments

def Aggregate.identity (a : Aggregate) : String :=
  routineIdentity a.name a.arguments

end SchemaScript
