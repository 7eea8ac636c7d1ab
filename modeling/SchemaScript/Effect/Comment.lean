import SchemaScript.Catalog.Basic
import SchemaScript.Effect.Object

/-!
# Comments

A comment goes to the object of its kind and name, if the catalog has one.
-/

namespace SchemaScript.Effect

open Sql Logged

/-- Changes an entry, if there is one of that name. -/
def changeNamed? {α : Type} (entries : Entries α) (name : String) (f : α → α) :
    Option (Entries α) :=
  (entries.get? name).map fun value => entries.put name (f value)

/-- Comments the first column of that name. -/
def commentColumn? (table : Table) (name : String) (text : Option String) : Option Table :=
  (table.column? name).map fun _ => table.modifyColumn name fun c => { c with comment := text }

/-- Comments the index in the first table that has one of that name. -/
def commentIndex? (name : String) (text : Option String) :
    List (String × Table) → Option (String × Table)
  | [] => none
  | (key, table) :: tables =>
    match changeNamed? table.indexes name fun index => { index with comment := text } with
    | some indexes => some (key, { table with indexes })
    | none => commentIndex? name text tables

/-- Comments an object of a schema. -/
def commentObject? (s : Schema) (kind : CommentKind) (name : String) (text : Option String) :
    Option Schema :=
  match kind with
  | .table =>
    (changeNamed? s.tables name fun x => { x with comment := text }).map ({ s with tables := · })
  | .view | .materializedView =>
    (changeNamed? s.views name fun x => { x with comment := text }).map ({ s with views := · })
  | .sequence =>
    (changeNamed? s.sequences name fun x => { x with comment := text }).map
      ({ s with sequences := · })
  | .type | .domain =>
    (changeNamed? s.types name fun x => { x with comment := text }).map ({ s with types := · })
  | .function =>
    (changeNamed? s.functions name fun x => { x with comment := text }).map
      ({ s with functions := · })
  | .procedure =>
    (changeNamed? s.procedures name fun x => { x with comment := text }).map
      ({ s with procedures := · })
  | .aggregate =>
    (changeNamed? s.aggregates name fun x => { x with comment := text }).map
      ({ s with aggregates := · })
  | .index =>
    (commentIndex? name text s.tables.pairs).map fun (key, table) =>
      { s with tables := s.tables.put key table }
  | _ => none

/-- Comments what belongs to a table. -/
def commentPart? (table : Table) (kind : CommentKind) (name : String) (text : Option String) :
    Option Table :=
  match kind with
  | .column => commentColumn? table name text
  | .constraint =>
    (changeNamed? table.constraints name fun x => { x with comment := text }).map
      ({ table with constraints := · })
  | .trigger =>
    (changeNamed? table.triggers name fun x => { x with comment := text }).map
      ({ table with triggers := · })
  | _ => none

def commentOnPart? (default : String) (catalog : Catalog) (kind : CommentKind)
    (path : List String) (text : Option String) : Option Catalog :=
  let (schema, name) := splitPath default path.dropLast
  match catalog.findTable? schema name with
  | none => none
  | some table =>
    (commentPart? table kind (path.getLastD "") text).map fun table =>
      catalog.modifyTable schema name fun _ => table

def commentOn? (default : String) (catalog : Catalog) (kind : CommentKind) (path : List String)
    (text : Option String) : Option Catalog :=
  match kind with
  | .extension =>
    (changeNamed? catalog.extensions (path.getLastD "") fun x => { x with comment := text }).map
      ({ catalog with extensions := · })
  | .column | .constraint | .trigger => commentOnPart? default catalog kind path text
  | _ =>
    let (schema, name) := splitPath default path
    match catalog.schemas.get? schema with
    | none => none
    | some s =>
      (commentObject? s kind name text).map fun s =>
        { catalog with schemas := catalog.schemas.put schema s }

/-- A column needs a table in front of it. -/
def comment (default : String) (catalog : Catalog) (kind : CommentKind) (path : List String)
    (text : Option String) : Logged Catalog := do
  if kind == .column && path.length < 2 then
    Logged.fail .columnWithoutTable
  else
    match commentOn? default catalog kind path text with
    | some catalog => return catalog
    | none =>
      debug ("Skipping COMMENT ON " ++ kind.label)
      return catalog

end SchemaScript.Effect
