import SchemaScript.Catalog.Stored
import SchemaScript.Ignore.Rules

/-!
# Workspaces

Catalogs under names. Two names may share one catalog, and a change under one of them then shows
under the other.
-/

namespace SchemaScript

/-- The names, and the place in `catalogs` that each stands for. -/
structure Workspace where
  places : List (String × Nat) := []
  catalogs : List Catalog := []

namespace Workspace

def place? (w : Workspace) (name : String) : Option Nat :=
  w.places.lookup name

def get (w : Workspace) (name : String) : Except Fault Catalog :=
  match (w.place? name).bind (w.catalogs[·]?) with
  | some catalog => .ok catalog
  | none => .error .unknownName

/-- Gives a name a place; the newest place of a name counts. -/
def point (w : Workspace) (name : String) (place : Nat) : Workspace :=
  { w with places := (name, place) :: w.places }

/-- A new catalog under a name. -/
def bind (w : Workspace) (name : String) (catalog : Catalog) : Workspace :=
  { places := (name, w.catalogs.length) :: w.places, catalogs := w.catalogs ++ [catalog] }

/-- Lets `name` share the catalog of `old`. -/
def share (w : Workspace) (old name : String) : Except Fault Workspace :=
  match w.place? old with
  | some place => .ok (w.point name place)
  | none => .error .unknownName

/-- Puts another catalog in the place that a name stands for. -/
def set (w : Workspace) (name : String) (catalog : Catalog) : Workspace :=
  match w.place? name with
  | some place => { w with catalogs := w.catalogs.set place catalog }
  | none => w.bind name catalog

/-- Binds what the rules leave of a catalog to a name; without rules the catalog is shared. -/
def ignore (w : Workspace) (old name : String) : Option IgnoreRules → Logged Workspace
  | none => .ofResult (w.share old name)
  | some rules => do
    let catalog ← .ofResult (w.get old)
    return w.bind name (← catalog.ignoring (some rules))

end Workspace

/-! ## Changes by hand -/

/-- Gives a field of a column, named as in stored catalogs, another value; a name that no field has
changes nothing. -/
def Column.setField (c : Column) (field : String) (value : Json) : Except Fault Column :=
  match c.toJson with
  | .object fields =>
    if fields.any fun f => f.1 == field then Column.ofJson (.object (Json.setField field value fields))
    else .ok c
  | _ => .ok c

/-- The kinds of objects that a schema holds under names. -/
inductive Collection
  | tables
  | views
  | functions
  | procedures
  | aggregates
  | sequences
  | types
  | policies
  deriving DecidableEq, Repr

def Collection.all : List Collection :=
  [tables, views, functions, procedures, aggregates, sequences, types, policies]

/-- The name of the field that holds them in stored catalogs. -/
def Collection.name : Collection → String
  | tables => "tables"
  | views => "views"
  | functions => "functions"
  | procedures => "procedures"
  | aggregates => "aggregates"
  | sequences => "sequences"
  | types => "types"
  | policies => "policies"

def Collection.ofName? (name : String) : Option Collection :=
  Collection.all.find? fun h => h.name == name

def Schema.sortedNamesOf (s : Schema) : Collection → List String
  | .tables => s.tables.sortedNames
  | .views => s.views.sortedNames
  | .functions => s.functions.sortedNames
  | .procedures => s.procedures.sortedNames
  | .aggregates => s.aggregates.sortedNames
  | .sequences => s.sequences.sortedNames
  | .types => s.types.sortedNames
  | .policies => s.policies.sortedNames

/-- The entries with an object more, under its own name. -/
def Entries.putNamed {α : Type} (entries : Entries α) (name : α → Field String)
    (decode : Json → Except Fault α) (value : Json) : Except Fault (Entries α) :=
  (decode value).map fun a => entries.put (name a).spelled a

/-- Puts an object into a schema under its name. -/
def Schema.putObject (s : Schema) (value : Json) : Collection → Except Fault Schema
  | .tables => do return { s with tables := ← s.tables.putNamed (·.name) Table.ofJson value }
  | .views => do return { s with views := ← s.views.putNamed (·.name) View.ofJson value }
  | .functions => do
    return { s with functions := ← s.functions.putNamed (·.name) StoredFunction.ofJson value }
  | .procedures => do
    return { s with procedures := ← s.procedures.putNamed (·.name) Procedure.ofJson value }
  | .aggregates => do
    return { s with aggregates := ← s.aggregates.putNamed (·.name) Aggregate.ofJson value }
  | .sequences => do
    return { s with sequences := ← s.sequences.putNamed (·.name) Sequence.ofJson value }
  | .types => do return { s with types := ← s.types.putNamed (·.name) UserType.ofJson value }
  | .policies => do return { s with policies := ← s.policies.putNamed (·.name) Policy.ofJson value }

/-- Takes an object out of a schema, in which it has to be. -/
def Schema.removeObject (s : Schema) (name : String) (h : Collection) : Except Fault Schema :=
  if !(s.sortedNamesOf h).contains name then .error .unknownName
  else
    .ok (match h with
      | .tables => { s with tables := s.tables.erase name }
      | .views => { s with views := s.views.erase name }
      | .functions => { s with functions := s.functions.erase name }
      | .procedures => { s with procedures := s.procedures.erase name }
      | .aggregates => { s with aggregates := s.aggregates.erase name }
      | .sequences => { s with sequences := s.sequences.erase name }
      | .types => { s with types := s.types.erase name }
      | .policies => { s with policies := s.policies.erase name })

/-- Puts an object into a table under its name; `holding` says where. -/
def Table.putObject (t : Table) (holding : String) (value : Json) : Except Fault Table := do
  match holding with
  | "constraints" =>
    return { t with constraints := ← t.constraints.putNamed (·.name) Constraint.ofJson value }
  | "indexes" => return { t with indexes := ← t.indexes.putNamed (·.name) Index.ofJson value }
  | "triggers" => return { t with triggers := ← t.triggers.putNamed (·.name) Trigger.ofJson value }
  | "policies" => return { t with policies := ← t.policies.putNamed (·.name) Policy.ofJson value }
  | _ => throw .unknownName

/-- Changes the first column of a name, which has to be there. -/
def Table.setColumnField (t : Table) (column field : String) (value : Json) : Except Fault Table :=
  match t.column? column with
  | none => .error .missingColumn
  | some c => (c.setField field value).map fun changed => t.modifyColumn column fun _ => changed

end SchemaScript
