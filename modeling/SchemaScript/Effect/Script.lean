import SchemaScript.Effect.Attached
import SchemaScript.Effect.Comment
import SchemaScript.Effect.Object
import SchemaScript.Effect.Routine
import SchemaScript.Effect.Table
import SchemaScript.Sql.Grammar.Script

/-!
# Catalogs from scripts

The statements that create objects take effect first and those that add to objects after them, so
that a script may add to a table before it creates it.
-/

namespace SchemaScript

namespace Effect

open Sql Logged

/-- The catalog so far. A schema may have been declared without a name; `namelessFirst` then says
whether there was no other before it. -/
structure Progress where
  catalog : Catalog
  namelessFirst : Option Bool := none

/-- Declares a schema; one that is there keeps its owner unless another is given. -/
def createSchema (progress : Progress) (name owner : Option String) : Progress :=
  match name with
  | none =>
    let isFirst := progress.catalog.schemas.isEmpty
    { progress with namelessFirst := some (progress.namelessFirst.getD isFirst) }
  | some name =>
    { progress with
      catalog := progress.catalog.updateSchema name fun s =>
        match Text.given owner with
        | some owner => { s with owner }
        | none => s }

/-- What a statement that needs no names of its own schema does to a catalog. -/
def applyTo (default : String) (catalog : Catalog) : Statement → Logged Catalog
  | .createExtension name schema version => return createExtension catalog name schema version
  | .createTable definition => createTable default catalog definition
  | .createView relation definition materialized =>
    return createView default catalog relation definition materialized
  | .createTableAs => do
    debug "Skipping CREATE TABLE AS"
    return catalog
  | .createRoutine definition => createRoutine default catalog definition
  | .createAggregate definition => return createAggregate default catalog definition
  | .define label => do
    debug ("Skipping DefineStmt of kind " ++ label)
    return catalog
  | .createEnum path labels => return createEnum default catalog path labels
  | .createComposite relation members => return createComposite default catalog relation members
  | .createDomain path base rules => return createDomain default catalog path base rules
  | .createSequence relation options => .ofResult (createSequence default catalog relation options)
  | .createIndex definition =>
    withTable default catalog definition.table fun table => return addIndex table definition
  | .alterTable relation commands => alterTable default catalog relation commands
  | .alterIndex relation commands => alterIndex default catalog relation commands
  | .createTrigger definition =>
    withTable default catalog definition.table fun table => return addTrigger table definition
  | .createPolicy definition =>
    withTable default catalog definition.table fun table => return addPolicy table definition
  | .comment kind path text => comment default catalog kind path text
  | .otherComment label => do
    debug ("Skipping COMMENT ON " ++ label)
    return catalog
  | .other label => do
    debug ("Skipping unsupported statement " ++ label)
    return catalog
  | .createSchema _ _ => return catalog

/-- The effect of one statement. -/
def apply (default : String) (progress : Progress) (s : Statement) : Logged Progress := do
  match s with
  | .createSchema name owner => return createSchema progress name owner
  | _ => return { progress with catalog := ← applyTo default progress.catalog s }

/-- The statements in the order in which they take effect. -/
def inOrder (all : List Statement) : List Statement :=
  all.filter (!·.isDependent) ++ all.filter (·.isDependent)

/-- A partition without columns of its own has those of its parent. -/
def inheritColumns (catalog : Catalog) (attachment : PartitionAttachment) : Catalog :=
  match attachment.parentSchema.text?, attachment.parentTable.text?,
    attachment.childSchema.text?, attachment.childTable.text? with
  | some parentSchema, some parentTable, some childSchema, some childTable =>
    match catalog.findTable? parentSchema parentTable with
    | none => catalog
    | some parent =>
      catalog.modifyTable childSchema childTable fun child =>
        if child.columns.isEmpty then { child with columns := parent.columns } else child
  | _, _, _, _ => catalog

def inheritAll (catalog : Catalog) : Catalog :=
  catalog.partitions.foldl inheritColumns catalog

def start : Catalog :=
  { metadata := { source := "sql", dumpVersion } }

/-- The catalog that the statements describe. -/
def catalogOf (default : String) (all : List Statement) : Logged Catalog := do
  let progress ← (inOrder all).foldlM (apply default) { catalog := start }
  let catalog := inheritAll progress.catalog
  match progress.namelessFirst with
  | some isFirst =>
    Logged.fail (.namelessSchema (if catalog.schemas.isEmpty then none else some isFirst))
  | none =>
    debug ("Parsed " ++ Text.writeNatural all.length ++ " statements into " ++ catalog.label)
    return catalog

end Effect

/-- The catalog that a script describes; names without a schema belong to `defaultSchema`. -/
def Catalog.ofSql (sql defaultSchema : String) : Logged Catalog :=
  match Sql.statements sql with
  | .error flaw => Logged.fail (.sql flaw)
  | .ok all => Effect.catalogOf defaultSchema all

theorem Catalog.ofSql_of_ok {sql defaultSchema : String} {all : List Sql.Statement}
    (h : Sql.statements sql = .ok all) :
    Catalog.ofSql sql defaultSchema = Effect.catalogOf defaultSchema all := by
  show (match Sql.statements sql with
    | .error flaw => Logged.fail (.sql flaw)
    | .ok all => Effect.catalogOf defaultSchema all) = _
  rw [h]

theorem Catalog.ofSql_of_error {sql defaultSchema : String} {flaw : Sql.Flaw}
    (h : Sql.statements sql = .error flaw) :
    Catalog.ofSql sql defaultSchema = Logged.fail (.sql flaw) := by
  show (match Sql.statements sql with
    | .error flaw => Logged.fail (.sql flaw)
    | .ok all => Effect.catalogOf defaultSchema all) = _
  rw [h]

/-- The same for a text that may be torn, which no script may be. -/
def Catalog.ofLetters (letters : List Letter) (defaultSchema : String) : Logged Catalog :=
  match Letter.firstGap? letters with
  | some gap => Logged.fail (.sql { cause := .tornText gap, offset := none })
  | none => Catalog.ofSql (Letter.mended letters) defaultSchema

end SchemaScript
