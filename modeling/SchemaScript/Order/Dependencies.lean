import SchemaScript.Catalog.Basic
import SchemaScript.Log
import SchemaScript.Order.Topological
import SchemaScript.Text.Case
import SchemaScript.Text.Search

/-!
# The order of tables and views

A table comes after the tables its foreign keys refer to, a view after the views its query mentions.
-/

namespace SchemaScript

namespace Order

def cycleWarning (names : List String) : String :=
  "Cyclic dependency detected between " ++ Text.shownList names ++
    ", falling back to alphabetical order"

/-- The sorted names; a circle among them is logged. -/
def sortLogged (nodes : List String) (edges : List Edge) : Logged (List String) :=
  let sorted := topological nodes edges
  ⟨if sorted.cyclic.isEmpty then [] else [⟨.warning, cycleWarning sorted.cyclic⟩],
    .ok sorted.names⟩

end Order

namespace Schema

/-- What a foreign key of the table `name` says about the order of tables. -/
inductive KeyEffect
  | edge (referenced : String)
  /-- The referenced table is not in the schema. -/
  | missing (referenced : String)
  /-- The key refers to its own table, to another schema or to nothing. -/
  | none

def keyEffect (s : Schema) (name : String) (key : Constraint) : KeyEffect :=
  let referenced := key.referencedTable
  if !referenced.isGiven || referenced == (name : Field String) then .none
  else if key.referencedSchema.isGiven && key.referencedSchema != s.name then .none
  else
    match referenced.stored.string? with
    | some other => if s.tables.contains other then .edge other else .missing other
    | Option.none => .missing referenced.spelled

/-- The foreign keys of all tables, in the order of names, each with the name of its table. -/
def foreignKeys (s : Schema) : List (String × Constraint) :=
  s.tables.sorted.flatMap fun entry => entry.2.foreignKeys.map fun key => (entry.1, key)

def tableEdges (s : Schema) : List Order.Edge :=
  s.foreignKeys.filterMap fun (name, key) =>
    match s.keyEffect name key with
    | .edge referenced => some ⟨referenced, name⟩
    | _ => Option.none

def missingReferences (s : Schema) : List LogEntry :=
  s.foreignKeys.filterMap fun (name, key) =>
    match s.keyEffect name key with
    | .missing referenced =>
      some ⟨.debug, name ++ " references missing table " ++ referenced ++ ", no ordering edge"⟩
    | _ => Option.none

def sortTables (s : Schema) : Logged (List String) :=
  Logged.bind ⟨s.missingReferences, .ok ()⟩ fun _ => Order.sortLogged s.tables.names s.tableEdges

end Schema

namespace View

/-- The other names that occur somewhere in the query, in any letter case. -/
def references (name : Option String) (definition : Field String) (candidates : List String) :
    List String :=
  let body := Text.lower (definition.givenOr "")
  candidates.filter fun other => some other != name && Text.contains body (Text.lower other)

end View

namespace Schema

def viewEdges (s : Schema) : List Order.Edge :=
  let names := s.views.sortedNames
  s.views.sorted.flatMap fun (name, view) =>
    (View.references (some name) view.definition names).map fun other => ⟨other, name⟩

/-- The queries are searched, so they have to be texts. -/
def sortViews (s : Schema) : Logged (List String) := do
  .ofResult (s.views.sortedValues.forM (·.definition.needText))
  Order.sortLogged s.views.names s.viewEdges

end Schema
end SchemaScript
