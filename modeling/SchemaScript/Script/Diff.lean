import SchemaScript.Catalog.Basic
import SchemaScript.Ddl.Index
import SchemaScript.Ddl.Object
import SchemaScript.Ddl.Routine
import SchemaScript.Ddl.Table
import SchemaScript.Log
import SchemaScript.Order.Dependencies
import SchemaScript.Script.Piece

/-!
# What one catalog adds to another

The script creates every object of the newer catalog that the older one does not keep under the same
name. It goes through the catalog kind by kind; tables bring their indexes, constraints, triggers and
policies along and are followed by their partitions. With a target schema only that schema is gone
through, and its objects are written without a schema.
-/

namespace SchemaScript

open Logged (debug)

namespace Diff

/-- A piece, unless there is nothing to write. `checked` tells whether its text can be written. -/
def emit (tag : Tag) (kind : PieceKind) (name schema : String) (owner : Option String)
    (checked : Except Fault Unit) (text : String) : Logged (List Piece) := do
  .ofResult checked
  if text == "" then
    debug ("Nothing to emit for " ++ kind.label ++ " " ++ name)
    return []
  else return [{ tag, kind, name, schema, owner, text }]

/-- The pieces for each item in turn. -/
def collect {α : Type} (items : List α) (pieces : α → Logged (List Piece)) :
    Logged (List Piece) := do
  return (← items.mapM pieces).flatten

/-- Extensions belong to the whole database, so a target schema does not hide them. -/
def extensions (old new : Catalog) : Logged (List Piece) := do
  let added := new.extensions.sorted.filter fun entry => !old.extensions.contains entry.1
  .ofResult (added.forM fun entry => entry.2.check)
  let pieces : List Piece := added.filterMap fun (key, e) =>
    if e.ddl == "" then none
    else some {
      tag := .extension key
      kind := .extension
      name := e.name.spelled
      schema := Sql.headingSchema e.schema.given none
      text := e.ddl }
  debug ("Emitted " ++ Text.writeNatural pieces.length ++ " extensions")
  return pieces

/-- The target schema itself is there already. -/
def schemas (old new : Catalog) (target : Option String) : Logged (List Piece) :=
  let added := new.schemas.sorted.filter fun entry =>
    !old.schemas.contains entry.1 && some entry.1 != target
  collect added fun (key, s) =>
    emit (.schema key) .schema key (Sql.headingSchema none target) s.owner.given s.check s.ddl

/-- A schema that is gone through, with its older state. -/
structure Pair where
  key : String
  schema : Schema
  old : Option Schema
  target : Option String
  deriving DecidableEq

namespace Pair

def tag (p : Pair) (kind : ObjectKind) (key : String) : Tag :=
  .object p.key kind key

def heading (p : Pair) : String :=
  Sql.headingSchema p.schema.name.given p.target

/-- The schema's entries of one kind that its older state does not have, by name. -/
def added {α : Type} (p : Pair) (entries : Schema → Entries α) : List (String × α) :=
  (entries p.schema).sorted.filter fun entry =>
    match p.old with
    | some old => !(entries old).contains entry.1
    | none => true

end Pair

/-- The schemas that are gone through, in the order of their names. -/
def pairs (old new : Catalog) (target : Option String) : List Pair :=
  (new.schemas.sorted.filter fun entry => target.all (· == entry.1)).map fun (key, schema) =>
    { key, schema, old := old.schemas.get? key, target }

/-- The names can be put in order, or there is nothing to order among them. -/
def isSortable (names : List (Field String)) : Bool :=
  Json.areOrdered (names.map (·.stored)) || names.all fun name => some name == names.head?

/-- Types by name, domains after all others, since they may be built on them. -/
def sortTypes (types : List (String × UserType)) : Logged (List (String × UserType)) :=
  let before (a b : String × UserType) : Bool := a.2.name.stored.precedes b.2.name.stored
  let plain := types.filter fun t => !t.2.isDomain
  let domains := types.filter fun t => t.2.isDomain
  if isSortable (plain.map (·.2.name)) && isSortable (domains.map (·.2.name)) then
    return Order.sort before plain ++ Order.sort before domains
  else .fail .unordered

def types (p : Pair) : Logged (List Piece) := do
  collect (← sortTypes (p.added (·.types))) fun (key, t) =>
    emit (p.tag .type key) (if t.isDomain then .domain else .type) t.name.spelled p.heading
      none t.check (t.ddl p.target)

/-- A sequence that a column owns comes with the column. -/
def sequence (p : Pair) (key : String) (s : Sequence) : Logged (List Piece) :=
  if s.isOwned then do
    debug ("Skipping sequence " ++ key ++ " owned by " ++ s.ownerTable.spelled ++ "." ++
      s.ownerColumn.spelled)
    return []
  else emit (p.tag .sequence key) .sequence key p.heading none s.check (s.ddl p.target)

def sequences (p : Pair) : Logged (List Piece) :=
  collect (p.added (·.sequences)) fun (key, s) => sequence p key s

/-- The partitions inside one schema, in the order in which they were attached. -/
structure Partitions where
  attachments : List PartitionAttachment

namespace Partitions

def inSchema (new : Catalog) (schema : Field String) : Partitions :=
  ⟨new.partitions.filter fun a => a.parentSchema == schema && a.childSchema == schema⟩

/-- Where a table is attached last. -/
def last? (ps : Partitions) (child : String) : Option PartitionAttachment :=
  ps.attachments.reverse.find? fun a => a.childTable == (child : Field String)

def bound? (ps : Partitions) (child : String) : Option String :=
  (ps.last? child).bind (·.bound.given)

/-- The names attached to a table, by code point. -/
def children (ps : Partitions) (parent : String) : Logged (List String) :=
  let attached := ps.attachments.filter fun a => a.parentTable == (parent : Field String)
  let found := attached.map (·.childTable.stored)
  if Json.areOrdered found then
    return Order.sort (fun a b => a ≤ b) (found.filterMap Json.string?)
  else .fail .unordered

/-- The table is attached to a table of the same schema, so it is written together with that one. -/
def isPartition (ps : Partitions) (tables : Entries Table) (name : String) : Bool :=
  match ps.last? name with
  | some a => (a.parentTable.stored.string?.map tables.contains).getD false
  | none => false

end Partitions

/-- The index and its place in a partitioned index. -/
def index (p : Pair) (tag : Tag) (new : Catalog) (key : String) (i : Index) :
    Logged (List Piece) := do
  let own ← emit tag .index key p.heading none i.check (i.ddl p.target)
  let places := new.indexPartitions.filter fun a =>
    a.childSchema == p.schema.name && a.childIndex == (key : Field String)
  let attached ← collect places fun a =>
    emit tag .indexAttach key p.heading none a.check (a.ddl p.target)
  return own ++ attached

/-- What a table owns, apart from what its own statement holds. -/
def tableParts (p : Pair) (tag : Tag) (new : Catalog) (t : Table) : Logged (List Piece) := do
  let indexes ← collect (t.indexes.sorted.filter fun entry => !entry.2.isPrimary.isGiven) fun (key, i) =>
    index p tag new key i
  let constraints ← collect (t.constraints.sorted.filter fun entry => !t.isInline entry.1 entry.2)
    fun (key, c) => emit tag .constraint key p.heading none (c.check p.target) (c.ddl p.target)
  let triggers ← collect t.triggers.sorted fun (key, trigger) =>
    emit tag .trigger key p.heading none trigger.check (trigger.ddl p.target)
  let security ← emit tag .table t.name.spelled p.heading none t.checkRowSecurity
    (t.rowSecurityDdl p.target)
  let policies ← collect t.policies.sorted fun (key, policy) =>
    emit tag .policy key p.heading none policy.check (policy.ddl p.target)
  return indexes ++ constraints ++ triggers ++ security ++ policies

/-- The statement that makes the table a partition of the one it is attached to. -/
def attachment (p : Pair) (ps : Partitions) (name : String) : Option String → Logged (List Piece)
  | none => return []
  | some parent =>
    emit (p.tag .table name) .tableAttach name p.heading none p.schema.name.needText
      (Ddl.attachPartition (Sql.qualified? p.schema.name.given (some parent) p.target)
        (Sql.qualified? p.schema.name.given (some name) p.target) (ps.bound? name))

/-- A table is created unless the older state has it; what is kept as a view never is. -/
def isCreated (p : Pair) (name : String) (t : Table) : Bool :=
  t.kind != .view && p.old.all fun old => !old.tables.contains name

/-- The table and what it owns; `parent` is the table it is attached to. -/
def tablePieces (p : Pair) (new : Catalog) (ps : Partitions) (name : String) (t : Table)
    (parent : Option String) : Logged (List Piece) := do
  let tag := p.tag .table name
  if !isCreated p name t then return []
  let own ← emit tag .table name p.heading none (t.check p.target) (t.ddl p.target)
  if own.isEmpty then return []
  return own ++ (← attachment p ps name parent) ++ (← tableParts p tag new t)

/-- The tables that were handled and the pieces so far. -/
structure Walk where
  handled : List String := []
  pieces : List Piece := []

/-- A table and after it its partitions; no table is handled twice. `depth` bounds how far partitions
may be nested, and is enough when it is greater than the number of tables not yet handled. -/
def tableTree (p : Pair) (new : Catalog) (ps : Partitions) :
    Nat → Option String → Walk → String → Logged Walk
  | 0, _, walk, _ => return walk
  | depth + 1, parent, walk, name =>
    match p.schema.tables.get? name with
    | none => return walk
    | some t =>
      if walk.handled.contains name then return walk
      else do
        let pieces ← tablePieces p new ps name t parent
        let walk : Walk :=
          { handled := walk.handled ++ [name], pieces := walk.pieces ++ pieces }
        (← ps.children name).foldlM (tableTree p new ps depth (some name)) walk

/-- The tables that no other table of the schema is written before, each with what follows it. -/
def walkTables (new : Catalog) (p : Pair) : Logged Walk := do
  let ps := Partitions.inSchema new p.schema.name
  let roots := (← p.schema.sortTables).filter fun name => !ps.isPartition p.schema.tables name
  roots.foldlM (tableTree p new ps (p.schema.tables.size + 1) none) {}

def tables (new : Catalog) (p : Pair) : Logged (List Piece) := do
  let walk ← walkTables new p
  debug ("Processed " ++ Text.writeNatural walk.handled.length ++ " tables in schema " ++
    p.schema.name.spelled)
  return walk.pieces

def view (p : Pair) (name : String) : Logged (List Piece) :=
  match p.schema.views.get? name with
  | none => return []
  | some v =>
    emit (p.tag .view name) (if v.materialized.isGiven then .materializedView else .view) name
      p.heading none v.check (v.ddl p.target)

def views (p : Pair) : Logged (List Piece) := do
  let names := (← p.schema.sortViews).filter fun name =>
    p.old.all fun old => !old.views.contains name
  collect names (view p)

def functions (p : Pair) : Logged (List Piece) :=
  collect (p.added (·.functions)) fun (key, f) =>
    emit (p.tag .function key) .function f.identity p.heading none (f.check p.target)
      (f.ddl p.target)

def aggregates (p : Pair) : Logged (List Piece) :=
  collect (p.added (·.aggregates)) fun (key, a) =>
    emit (p.tag .aggregate key) .aggregate a.identity p.heading none (a.check p.target)
      (a.ddl p.target)

def procedures (p : Pair) : Logged (List Piece) :=
  collect (p.added (·.procedures)) fun (key, r) =>
    emit (p.tag .procedure key) .procedure r.identity p.heading none r.check
      (r.ddl p.target)

/-- The whole script as pieces. An empty target is no target. -/
def pieces (old new : Catalog) (target : Option String) : Logged (List Piece) := do
  let target := Text.given target
  let walked := pairs old new target
  return (← extensions old new) ++ (← schemas old new target) ++ (← collect walked types) ++
    (← collect walked sequences) ++ (← collect walked (tables new)) ++ (← collect walked views) ++
    (← collect walked functions) ++ (← collect walked aggregates) ++ (← collect walked procedures)

end Diff

namespace Catalog

/-- The script that creates what `new` has and `old` has not. -/
def diff (old new : Catalog) (target : Option String) (withHeadings : Bool) : Logged String := do
  return renderPieces withHeadings new.metadata (← Diff.pieces old new target)

def dump (catalog : Catalog) (target : Option String) (withHeadings : Bool) : Logged String :=
  diff {} catalog target withHeadings

end Catalog
end SchemaScript
