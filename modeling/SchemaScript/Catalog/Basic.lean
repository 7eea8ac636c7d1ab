import SchemaScript.Catalog.Object
import SchemaScript.Catalog.Table
import SchemaScript.Text.Integer

/-!
# Catalogs

A snapshot of the schemas of a database, with the partitions of tables and indexes beside them.
-/

namespace SchemaScript

structure PartitionAttachment where
  parentSchema : Field String
  parentTable : Field String
  childSchema : Field String
  childTable : Field String
  bound : Field String := .absent
  deriving DecidableEq, Inhabited

structure IndexAttachment where
  parentSchema : Field String
  parentIndex : Field String
  childSchema : Field String
  childIndex : Field String
  deriving DecidableEq, Inhabited

/-- A namespace; `policies` are those that came without a table. -/
structure Schema where
  name : Field String
  owner : Field String := .absent
  tables : Entries Table := .empty
  views : Entries View := .empty
  functions : Entries StoredFunction := .empty
  procedures : Entries Procedure := .empty
  aggregates : Entries Aggregate := .empty
  sequences : Entries Sequence := .empty
  policies : Entries Policy := .empty
  types : Entries UserType := .empty
  deriving DecidableEq, Inhabited

def Schema.isEmpty (s : Schema) : Bool :=
  s.tables.isEmpty && s.views.isEmpty && s.functions.isEmpty && s.procedures.isEmpty &&
    s.aggregates.isEmpty && s.sequences.isEmpty && s.policies.isEmpty && s.types.isEmpty

structure Catalog where
  metadata : Metadata := {}
  schemas : Entries Schema := .empty
  extensions : Entries Extension := .empty
  partitions : List PartitionAttachment := []
  indexPartitions : List IndexAttachment := []
  deriving DecidableEq, Inhabited

namespace Catalog

/-- The schema of that name; a missing one is there, but empty. -/
def schemaOrNew (catalog : Catalog) (name : String) : Schema :=
  (catalog.schemas.get? name).getD { name := (name : Field String) }

/-- Changes the schema of that name, which is created if it is missing. -/
def updateSchema (catalog : Catalog) (name : String) (f : Schema → Schema) : Catalog :=
  { catalog with schemas := catalog.schemas.put name (f (catalog.schemaOrNew name)) }

def findTable? (catalog : Catalog) (schema table : String) : Option Table :=
  (catalog.schemas.get? schema).bind fun s => s.tables.get? table

/-- Changes a table, if it is there. -/
def modifyTable (catalog : Catalog) (schema table : String) (f : Table → Table) : Catalog :=
  { catalog with
    schemas := catalog.schemas.modify schema fun s => { s with tables := s.tables.modify table f } }

end Catalog

/-- A schema and a name joined by a point, or the name alone where there is no schema. -/
def dottedName (schema name : Field String) : Json :=
  match schema.given, name.given with
  | some s, some n => .text (s ++ "." ++ n)
  | _, some _ => name.stored
  | _, none => .text ""

def Table.qualifiedName (t : Table) : String :=
  (dottedName t.schema t.name).plain

/-- A short description. -/
def Table.label (t : Table) : String :=
  "Table(" ++ t.qualifiedName ++ ", " ++ Text.writeNatural t.columns.length ++ " columns)"

def View.label (v : View) : String :=
  "View(" ++ (dottedName v.schema v.name).plain ++ ")"

def Schema.label (s : Schema) : String :=
  "Schema(" ++ s.name.spelled ++ ")"

def Catalog.label (catalog : Catalog) : String :=
  "Catalog(" ++ ", ".intercalate catalog.schemas.sortedNames ++ ")"

end SchemaScript
