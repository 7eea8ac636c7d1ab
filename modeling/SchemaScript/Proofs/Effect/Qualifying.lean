import SchemaScript.Effect.Script
import SchemaScript.Proofs.Effect.Gives

/-!
# Names with and without their schema

A name that declares or addresses an object may be written with its schema or left to the default schema of the
script. Scripts that become the same once all such names are written in full (`Statement.qualify`) have the same
effect, so that a script may mix both ways (`ofSql_eq_of_qualify_eq`).
-/

namespace SchemaScript

open Sql Effect

/-! ## Writing names in full -/

namespace Sql

/-- The relation with its schema. -/
def RelationName.qualify (default : String) (relation : RelationName) : RelationName :=
  { relation with schema := some (schemaOf default relation) }

/-- The path with the schema before the name. -/
def qualifyPath (default : String) : List String → List String
  | [name] => [default, name]
  | path => path

/-- The same for a path that ends with what belongs to the object. -/
def qualifyOwner (default : String) (path : List String) : List String :=
  qualifyPath default path.dropLast ++ path.getLast?.toList

def ConstraintRule.qualify (default : String) : ConstraintRule → ConstraintRule
  | .references reference deferrable initiallyDeferred =>
    .references { reference with table := reference.table.qualify default } deferrable initiallyDeferred
  | rule => rule

def ConstraintClause.qualify (default : String) (clause : ConstraintClause) : ConstraintClause :=
  { clause with rule := clause.rule.qualify default }

def ColumnRule.qualify (default : String) : ColumnRule → ColumnRule
  | .constraint clause => .constraint (clause.qualify default)
  | rule => rule

def TableElement.qualify (default : String) : TableElement → TableElement
  | .column definition => .column { definition with rules := definition.rules.map (·.qualify default) }
  | .constraint clause => .constraint (clause.qualify default)
  | .other label => .other label

def AlterCommand.qualify (default : String) : AlterCommand → AlterCommand
  | .addConstraint clause => .addConstraint (clause.qualify default)
  | .attachPartition child bound => .attachPartition (child.qualify default) bound
  | command => command

def TableDefinition.qualify (default : String) (definition : TableDefinition) : TableDefinition :=
  { definition with
    relation := definition.relation.qualify default
    elements := definition.elements.map (·.qualify default)
    parents := definition.parents.map (·.qualify default) }

/-- The path in a comment on an object of a kind; extensions have no schema. -/
def CommentKind.qualify (default : String) (kind : CommentKind) (path : List String) : List String :=
  match kind with
  | .extension => path
  | .column | .constraint | .trigger => qualifyOwner default path
  | _ => qualifyPath default path

/-- The statement with the schema before every name that declares or addresses an object. -/
def Statement.qualify (default : String) : Statement → Statement
  | .createTable definition => .createTable (definition.qualify default)
  | .createView relation definition materialized =>
    .createView (relation.qualify default) definition materialized
  | .createRoutine definition => .createRoutine { definition with path := qualifyPath default definition.path }
  | .createAggregate definition =>
    .createAggregate { definition with path := qualifyPath default definition.path }
  | .createEnum path labels => .createEnum (qualifyPath default path) labels
  | .createComposite relation members => .createComposite (relation.qualify default) members
  | .createDomain path base rules => .createDomain (qualifyPath default path) base rules
  | .createSequence relation options => .createSequence (relation.qualify default) options
  | .createIndex definition => .createIndex { definition with table := definition.table.qualify default }
  | .alterTable relation commands =>
    .alterTable (relation.qualify default) (commands.map (·.qualify default))
  | .alterIndex relation commands =>
    .alterIndex (relation.qualify default) (commands.map (·.qualify default))
  | .createTrigger definition => .createTrigger { definition with table := definition.table.qualify default }
  | .createPolicy definition => .createPolicy { definition with table := definition.table.qualify default }
  | .comment kind path text => .comment kind (kind.qualify default path) text
  | statement => statement

end Sql

/-! ## Names keep what they stand for -/

section

variable (default : String)

@[simp] theorem schemaOf_qualify (relation : RelationName) :
    schemaOf default (relation.qualify default) = schemaOf default relation := by
  show Text.givenOr (some (schemaOf default relation)) default = schemaOf default relation
  unfold schemaOf Text.givenOr
  cases hgiven : Text.given relation.schema with
  | none =>
    rw [Option.getD_none]
    cases hdefault : Text.given (some default) with
    | none => rfl
    | some schema => exact Option.some.inj (Text.given_eq_some_iff.mp hdefault).1.symm
  | some schema =>
    rw [Option.getD_some, Text.given_eq_some_iff.mpr ⟨rfl, (Text.given_eq_some_iff.mp hgiven).2⟩, Option.getD_some]

@[simp] theorem name_qualify (relation : RelationName) : (relation.qualify default).name = relation.name := rfl

@[simp] theorem splitPath_qualifyPath (path : List String) :
    splitPath default (qualifyPath default path) = splitPath default path := by
  unfold qualifyPath
  split <;> rfl

theorem qualifyOwner_append (path : List String) (part : String) :
    qualifyOwner default (path ++ [part]) = qualifyPath default path ++ [part] := by
  simp [qualifyOwner]

/-! ## Tables -/

variable (table : Table) (catalog : Catalog)

@[simp] theorem addConstraint_qualify (clause : ConstraintClause) :
    addConstraint default table (clause.qualify default) = addConstraint default table clause := by
  obtain ⟨name, column, listed, rule⟩ := clause
  cases rule with
  | references reference deferrable initiallyDeferred =>
    simp [addConstraint, constraintOf, ConstraintClause.qualify, ConstraintRule.qualify, ConstraintClause.columns]
  | _ => rfl

@[simp] theorem applyRule_qualify (rule : ColumnRule) :
    applyRule default table (rule.qualify default) = applyRule default table rule := by
  cases rule with
  | constraint clause => exact addConstraint_qualify default table clause
  | _ => rfl

@[simp] theorem addElement_qualify (draft : Draft) (element : TableElement) :
    addElement default draft (element.qualify default) = addElement default draft element := by
  cases element with
  | column definition =>
    simp only [TableElement.qualify, addElement, List.foldlM_map, applyRule_qualify]
    rfl
  | constraint clause => simp only [TableElement.qualify, addElement, addConstraint_qualify]
  | other label => rfl

theorem draftOf_qualify (definition : TableDefinition) :
    draftOf default (definition.qualify default) = draftOf default definition := by
  simp only [draftOf, TableDefinition.qualify, schemaOf_qualify, name_qualify, List.foldlM_map, addElement_qualify]
  rfl

theorem attachmentOf_qualify (definition : TableDefinition) :
    attachmentOf default (definition.qualify default) = attachmentOf default definition := by
  unfold attachmentOf TableDefinition.qualify
  cases definition.bound <;> cases definition.parents <;> simp

theorem createTable_qualify (definition : TableDefinition) :
    createTable default catalog (definition.qualify default) = createTable default catalog definition := by
  have hparents : (definition.qualify default).parents.isEmpty = definition.parents.isEmpty := by
    simp [TableDefinition.qualify]
  unfold createTable
  rw [draftOf_qualify, attachmentOf_qualify, hparents]
  simp only [TableDefinition.qualify, schemaOf_qualify, name_qualify]

/-! ## What is added to tables -/

@[simp] theorem withTable_qualify (relation : RelationName) (f : Table → Logged Table) :
    withTable default catalog (relation.qualify default) f = withTable default catalog relation f := by
  simp only [withTable, schemaOf_qualify, name_qualify]

@[simp] theorem applyCommand_qualify (change : Change) (command : AlterCommand) :
    applyCommand default change (command.qualify default) = applyCommand default change command := by
  cases command <;> simp [AlterCommand.qualify, applyCommand]

theorem alterTable_qualify (relation : RelationName) (commands : List AlterCommand) :
    alterTable default catalog (relation.qualify default) (commands.map (·.qualify default)) =
      alterTable default catalog relation commands := by
  simp only [alterTable, withTable_qualify, schemaOf_qualify, name_qualify, List.foldlM_map, applyCommand_qualify]

theorem indexCommand_qualify (relation : RelationName) (found : List IndexAttachment) (command : AlterCommand) :
    indexCommand default (relation.qualify default) found (command.qualify default) =
      indexCommand default relation found command := by
  cases command <;> simp [AlterCommand.qualify, indexCommand, AlterCommand.label]

theorem alterIndex_qualify (relation : RelationName) (commands : List AlterCommand) :
    alterIndex default catalog (relation.qualify default) (commands.map (·.qualify default)) =
      alterIndex default catalog relation commands := by
  simp only [alterIndex, List.foldlM_map, indexCommand_qualify]

theorem comment_qualify (kind : CommentKind) (path : List String) (text : Option String) :
    comment default catalog kind (kind.qualify default path) text = comment default catalog kind path text := by
  have hpart : commentOnPart? default catalog kind (qualifyOwner default path) text =
      commentOnPart? default catalog kind path text := by
    rcases List.eq_nil_or_concat path with rfl | ⟨owner, part, rfl⟩
    · rfl
    · rw [List.concat_eq_append, qualifyOwner_append]
      simp [commentOnPart?]
  have hlength : (qualifyOwner default path).length < 2 ↔ path.length < 2 := by
    rcases List.eq_nil_or_concat path with rfl | ⟨owner, part, rfl⟩
    · rfl
    · rw [List.concat_eq_append, qualifyOwner_append]
      unfold qualifyPath
      split <;> simp
  unfold comment
  cases kind with
  | column => simp only [CommentKind.qualify, commentOn?, hpart, hlength]
  | constraint => simp only [CommentKind.qualify, commentOn?, hpart]; rfl
  | trigger => simp only [CommentKind.qualify, commentOn?, hpart]; rfl
  | extension => rfl
  | _ => simp only [CommentKind.qualify, commentOn?, splitPath_qualifyPath]; rfl

/-! ## Scripts -/

theorem applyTo_qualify (statement : Statement) :
    applyTo default catalog (statement.qualify default) = applyTo default catalog statement := by
  cases statement with
  | createTable definition => exact createTable_qualify default catalog definition
  | createView relation definition materialized =>
    simp only [Statement.qualify, applyTo, createView, schemaOf_qualify, name_qualify]
  | createRoutine definition =>
    simp only [Statement.qualify, applyTo, createRoutine, splitPath_qualifyPath]
    rfl
  | createAggregate definition =>
    simp only [Statement.qualify, applyTo, createAggregate, splitPath_qualifyPath]
  | createEnum path labels => simp only [Statement.qualify, applyTo, createEnum, splitPath_qualifyPath]
  | createComposite relation members =>
    simp only [Statement.qualify, applyTo, createComposite, schemaOf_qualify, name_qualify]
  | createDomain path base rules => simp only [Statement.qualify, applyTo, createDomain, splitPath_qualifyPath]
  | createSequence relation options =>
    simp only [Statement.qualify, applyTo, createSequence, schemaOf_qualify, name_qualify]
  | createIndex definition => simp only [Statement.qualify, applyTo, withTable_qualify]; rfl
  | alterTable relation commands => exact alterTable_qualify default catalog relation commands
  | alterIndex relation commands => exact alterIndex_qualify default catalog relation commands
  | createTrigger definition => simp only [Statement.qualify, applyTo, withTable_qualify]; rfl
  | createPolicy definition => simp only [Statement.qualify, applyTo, withTable_qualify]; rfl
  | comment kind path text => exact comment_qualify default catalog kind path text
  | _ => rfl

theorem apply_qualify (progress : Progress) (statement : Statement) :
    apply default progress (statement.qualify default) = apply default progress statement := by
  have happly := applyTo_qualify default progress.catalog statement
  cases statement with
  | createSchema name owner => rfl
  | _ => exact congrArg (· >>= fun catalog => pure { progress with catalog }) happly

theorem isDependent_qualify (statement : Statement) :
    (statement.qualify default).isDependent = statement.isDependent := by
  cases statement <;> rfl

theorem inOrder_qualify (all : List Statement) :
    inOrder (all.map (·.qualify default)) = (inOrder all).map (·.qualify default) := by
  simp only [inOrder, List.filter_map, List.map_append, Function.comp_def, isDependent_qualify]

theorem catalogOf_qualify (all : List Statement) :
    catalogOf default (all.map (·.qualify default)) = catalogOf default all := by
  simp only [catalogOf, inOrder_qualify, List.foldlM_map, apply_qualify, List.length_map]

end

/-- Scripts whose statements are the same with all names in full describe the same catalog. The word for a type of
the system is no lone name: its path is a full one from the start. -/
theorem ofSql_eq_of_qualify_eq {sql sql' default : String} {all all' : List Statement}
    (h : Sql.statements sql = .ok all) (h' : Sql.statements sql' = .ok all')
    (hsame : all.map (·.qualify default) = all'.map (·.qualify default)) :
    Catalog.ofSql sql default = Catalog.ofSql sql' default := by
  rw [Catalog.ofSql_of_ok h, Catalog.ofSql_of_ok h', ← catalogOf_qualify default all, hsame, catalogOf_qualify]

/-- Four statements that name one table, and what each of them puts in front of its name. -/
def duesText (declared asParent indexed commented : String) : String :=
  "create table " ++ declared ++ "dues (year int); create table late partition of " ++ asParent ++
    "dues default; create index on " ++ indexed ++ "dues (year); comment on column " ++ commented ++
    "dues.year is 'x'"

def duesStatements (declared asParent indexed commented : Option String) : List Statement :=
  [.createTable {
      relation := ⟨declared, "dues"⟩
      elements := [.column { name := "year", type := .ofKeyword "int4" }] },
    .createTable { relation := ⟨none, "late"⟩, parents := [⟨asParent, "dues"⟩], bound := some "DEFAULT" },
    .createIndex { table := ⟨indexed, "dues"⟩, elements := [{ key := "year" }] },
    .comment .column (commented.toList ++ ["dues", "year"]) (some "x")]

theorem dues_in_full :
    (∃ c, (Catalog.ofSql (duesText "" "" "hall." "") "hall").result = .ok c) ∧
      Catalog.ofSql (duesText "" "" "hall." "") "hall" =
        Catalog.ofSql (duesText "hall." "hall." "" "hall.") "hall" := by
  have hread : (Sql.statements (duesText "" "" "hall." "")).toOption =
      some (duesStatements none none (some "hall") none) := by
    decide +kernel
  have hread' : (Sql.statements (duesText "hall." "hall." "" "hall.")).toOption =
      some (duesStatements (some "hall") (some "hall") none (some "hall")) := by
    decide +kernel
  have hread := eq_ok_of_toOption hread
  refine ⟨?_, ofSql_eq_of_qualify_eq hread (eq_ok_of_toOption hread') rfl⟩
  rw [Catalog.ofSql_of_ok hread]
  exact ⟨_, rfl⟩

/-- The comment on the type that a script's last statement is about. -/
def remarkOn (sql : String) : Option (Field String) :=
  (Catalog.ofSql sql "public").result.toOption.bind fun c =>
    (c.schemas.get? "public").bind fun s => (s.types.get? "int").map (·.comment)

/-- Of a type whose name is a word for a type of the system, a comment has to give the schema. -/
theorem comment_on_keyword :
    remarkOn "create type int as enum ('a'); comment on type int is 'x'" = some .absent ∧
      remarkOn "create type int as enum ('a'); comment on type public.int is 'x'" = some "x" := by
  decide +kernel

end SchemaScript
