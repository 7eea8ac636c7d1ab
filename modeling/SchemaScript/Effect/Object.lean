import SchemaScript.Catalog.Basic
import SchemaScript.Log
import SchemaScript.Sql.Statement

/-!
# Names, and the effect of creating simple objects

What most statements ask for, and those that put one object into a schema.
-/

/-!
## What names in statements stand for

A name without a schema belongs to the default schema of the script.
-/

namespace SchemaScript.Effect

open Sql

/-- The schema of a relation. -/
def schemaOf (default : String) (relation : RelationName) : String :=
  Text.givenOr relation.schema default

/-- The schema and the name at the end of a path. -/
def splitPath (default : String) (path : List String) : String × String :=
  match path.reverse with
  | [] => (default, "")
  | [name] => (default, name)
  | name :: schema :: _ => (schema, name)

/-- The whole number, which a decimal may turn out not to be. -/
def wholeNumber (n : Number) : Except Fault Int :=
  match n with
  | .integer value => .ok value
  | .decimal written =>
    match Text.readInteger written with
    | some value => .ok value
    | none => .error (.notANumber written)

/-- A modifier that has to be a whole number. -/
def wholeModifier (written : String) : Except Fault Int :=
  wholeNumber (.decimal written)

def maybeWholeNumber : Option Number → Except Fault (Option Int)
  | some n => do return some (← wholeNumber n)
  | none => return none

/-!
## Views, types, sequences and extensions that statements create
-/

open Sql

def createExtension (catalog : Catalog) (name : String) (schema version : Option String) : Catalog :=
  let extension : Extension := { name, schema, version }
  { catalog with extensions := catalog.extensions.put name extension }

def createView (default : String) (catalog : Catalog) (relation : RelationName)
    (definition : String) (materialized : Bool) : Catalog :=
  let schema := schemaOf default relation
  let view : View := {
    schema
    name := relation.name
    definition
    materialized }
  catalog.updateSchema schema fun s => { s with views := s.views.put relation.name view }

def putType (catalog : Catalog) (schema name : String) (type : UserType) : Catalog :=
  catalog.updateSchema schema fun s => { s with types := s.types.put name type }

def createEnum (default : String) (catalog : Catalog) (path labels : List String) : Catalog :=
  let (schema, name) := splitPath default path
  putType catalog schema name { schema, name, kind := .enum, labels }

def createComposite (default : String) (catalog : Catalog) (relation : RelationName)
    (members : List (String × WrittenType)) : Catalog :=
  let schema := schemaOf default relation
  let members := members.mapIdx fun i (name, type) =>
    { name, dataType := type.text, position := Int.ofNat (i + 1) : Member }
  putType catalog schema relation.name
    { schema, name := relation.name, kind := .composite, members }

def domainRule (type : UserType) : DomainRule → UserType
  | .notNull => { type with notNull := true }
  | .default value => { type with default := value }
  | .check name condition =>
    let constraint : DomainConstraint := { definition := "CHECK " ++ enclosed condition, name }
    { type with constraints := type.constraints ++ [constraint] }
  | .other => type

def createDomain (default : String) (catalog : Catalog) (path : List String) (base : WrittenType)
    (rules : List DomainRule) : Catalog :=
  let (schema, name) := splitPath default path
  let plain : UserType := {
    schema
    name
    kind := .domain
    base := base.text }
  putType catalog schema name (rules.foldl domainRule plain)

/-- Takes over an option; an owner has to be given as a table and a column. -/
def sequenceOption (s : Sequence) : SequenceOption → Except Fault Sequence
  | .dataType type => return { s with dataType := type.text }
  | .start n => do return { s with start := ← wholeNumber n }
  | .increment n => do return { s with increment := ← wholeNumber n }
  | .minimum n => do return { s with minimum := ← maybeWholeNumber n }
  | .maximum n => do return { s with maximum := ← maybeWholeNumber n }
  | .cycle enabled => return { s with cycle := enabled }
  | .ownedBy path =>
    match path.reverse with
    | column :: table :: _ =>
      return { s with ownerTable := table, ownerColumn := column }
    | _ => return s
  | .other => return s

def createSequence (default : String) (catalog : Catalog) (relation : RelationName)
    (options : List SequenceOption) : Except Fault Catalog := do
  let schema := schemaOf default relation
  let plain : Sequence := { schema, name := relation.name }
  let sequence ← options.foldlM sequenceOption plain
  return catalog.updateSchema schema fun s =>
    { s with sequences := s.sequences.put relation.name sequence }

end SchemaScript.Effect
