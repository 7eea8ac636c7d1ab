import SchemaScript.Catalog.Basic
import SchemaScript.Fault
import SchemaScript.Json.Reader
import SchemaScript.Json.Writer

/-!
# Catalogs from JSON values

Unknown fields are passed over and missing ones take their defaults. An object is refused for the
first of these that applies: a nested object is refused, a field without a default is missing, a
field with a closed set of values holds another one.
-/

namespace SchemaScript

namespace Decode

/-- The fields of an object. -/
def fields (value : Json) : Except Fault (List (String × Json)) :=
  match value with
  | .object fields => .ok fields
  | _ => .error .notAnObject

/-- A field from an item that is a name with a value. A name that is no text is no field. -/
def pairOf (index : Nat) (item : Json) : Except Fault (List (String × Json)) :=
  match item with
  | .list [.text name, value] => .ok [(name, value)]
  | .list [.list _, _] | .list [.object _, _] => .error .wrongForm
  | .list [_, _] => .ok []
  | .list items => .error (.notAPair index items.length)
  | .object [(name, _), (value, _)] => .ok [(name, .text value)]
  | .object fields => .error (.notAPair index fields.length)
  | .text s =>
    match s.toList with
    | [name, value] => .ok [(String.ofList [name], .text (String.ofList [value]))]
    | letters => .error (.notAPair index letters.length)
  | _ => .error .wrongForm

/-- The fields that a list of names with values makes; of two with one name the later counts. -/
def pairsOf : Nat → List (String × Json) → List Json → Except Fault (List (String × Json))
  | _, fields, [] => .ok fields
  | index, fields, item :: items => do
    let found ← pairOf index item
    pairsOf (index + 1) (found.foldl (fun all pair => Json.setField pair.1 pair.2 all) fields) items

/-- The fields of an object, or of a list of names with values. -/
def mapping (value : Json) : Except Fault (List (String × Json)) :=
  match value with
  | .object fields => .ok fields
  | .list items => pairsOf 0 [] items
  | .text s => if s == "" then .ok [] else .error (.notAPair 0 1)
  | _ => .error .wrongForm

def required (key : String) (fields : List (String × Json)) : Except Fault Json :=
  match Json.find? key fields with
  | some value => .ok value
  | none => .error .missingField

/-- A field that has to be there, though nothing may be stored for it. -/
def field {α : Type} (key : String) (fields : List (String × Json)) : Except Fault (Field α) :=
  (required key fields).map Field.mk

def fieldOr {α : Type} (key : String) (standIn : Field α) (fields : List (String × Json)) :
    Field α :=
  match Json.find? key fields with
  | some value => ⟨value⟩
  | none => standIn

def items (value : Json) : Except Fault (List Json) :=
  match value.items? with
  | some items => .ok items
  | none => .error .wrongForm

/-- A list of nested objects; nothing counts as an empty list. -/
def listOf {α : Type} (decode : Json → Except Fault α) (key : String)
    (fields : List (String × Json)) : Except Fault (List α) :=
  match Json.find? key fields with
  | none => .ok []
  | some value => if value.isNothing then .ok [] else items value >>= fun items => items.mapM decode

/-- Nested objects by name; nothing counts as no entries. -/
def entriesOf {α : Type} (decode : Json → Except Fault α) (key : String)
    (fields : List (String × Json)) : Except Fault (Entries α) :=
  match Json.find? key fields with
  | none => .ok .empty
  | some value =>
    if value.isNothing then .ok .empty
    else do
      let pairs ← (← Decode.fields value).mapM fun field => do
        return (field.1, ← decode field.2)
      return .ofPairs pairs

/-- One of a closed set of values, by its word. -/
def choose {α : Type} (all : List α) (word : α → String) (choice : Choice) (value : Json) :
    Except Fault α :=
  let found :=
    match value with
    | .text s => all.find? fun a => word a == s
    | _ => none
  match found with
  | some a => .ok a
  | none => .error (.notAChoice choice value.shown)

def choiceOr {α : Type} (all : List α) (word : α → String) (choice : Choice) (key : String)
    (standIn : α) (fields : List (String × Json)) : Except Fault α :=
  match Json.find? key fields with
  | some value => choose all word choice value
  | none => .ok standIn

end Decode

open Decode

def Column.ofJson (value : Json) : Except Fault Column := do
  let fields ← Decode.fields value
  return {
    name := ← Decode.field "name" fields
    position := ← Decode.field "position" fields
    dataType := ← Decode.field "data_type" fields
    userType := fieldOr "udt_name" .absent fields
    nullable := fieldOr "is_nullable" true fields
    default := fieldOr "default" .absent fields
    maxLength := fieldOr "max_length" .absent fields
    precision := fieldOr "precision" .absent fields
    scale := fieldOr "scale" .absent fields
    comment := fieldOr "comment" .absent fields
    identity := {
      enabled := fieldOr "is_identity" false fields
      generation := fieldOr "identity_generation" .absent fields
      start := fieldOr "identity_start" .absent fields
      increment := fieldOr "identity_increment" .absent fields
      maximum := fieldOr "identity_maximum" .absent fields
      minimum := fieldOr "identity_minimum" .absent fields
      cycle := fieldOr "identity_cycle" false fields } }

def KeyColumn.ofJson (value : Json) : Except Fault KeyColumn := do
  let fields ← Decode.fields value
  return { name := ← Decode.field "name" fields, position := ← Decode.field "position" fields }

def Constraint.ofJson (value : Json) : Except Fault Constraint := do
  let fields ← mapping value
  let columns ← listOf KeyColumn.ofJson "columns" fields
  let referencedColumns ← listOf KeyColumn.ofJson "referenced_columns" fields
  let schema ← Decode.field "schema" fields
  let table ← Decode.field "table" fields
  let name ← Decode.field "name" fields
  let kind ← required "type" fields
  return {
    schema, table, name
    kind := ← choose ConstraintKind.all ConstraintKind.text .constraintKind kind
    columns, referencedColumns
    referencedSchema := fieldOr "referenced_schema" .absent fields
    referencedTable := fieldOr "referenced_table" .absent fields
    condition := fieldOr "check_clause" .absent fields
    onUpdate := fieldOr "update_rule" .absent fields
    onDelete := fieldOr "delete_rule" .absent fields
    deferrable := fieldOr "deferrable" false fields
    initiallyDeferred := fieldOr "initially_deferred" false fields
    comment := fieldOr "comment" .absent fields }

def IndexColumn.ofJson (value : Json) : Except Fault IndexColumn := do
  let fields ← Decode.fields value
  return {
    name := ← Decode.field "name" fields
    position := ← Decode.field "position" fields
    direction := fieldOr "direction" .absent fields
    operatorClass := fieldOr "operator" .absent fields }

def Index.ofJson (value : Json) : Except Fault Index := do
  let fields ← mapping value
  let columns ← listOf IndexColumn.ofJson "columns" fields
  let schema ← Decode.field "schema" fields
  let table ← Decode.field "table" fields
  let name ← Decode.field "name" fields
  return {
    schema, table, name
    kind := ← choiceOr IndexKind.all IndexKind.text .indexKind "type" .regular fields
    method := fieldOr "method" "btree" fields
    columns
    isUnique := fieldOr "is_unique" false fields
    isPrimary := fieldOr "is_primary" false fields
    isPartial := fieldOr "is_partial" false fields
    isConcurrent := fieldOr "is_concurrent" false fields
    predicate := fieldOr "where" .absent fields
    definition := fieldOr "definition" .absent fields
    comment := fieldOr "comment" .absent fields }

/-- The events of a trigger; unlike other lists they may be missing but not `null`. -/
def Decode.events (fields : List (String × Json)) : Except Fault (List Event) :=
  match Json.find? "events" fields with
  | none => .ok []
  | some value => items value >>= fun items => items.mapM (choose Event.all Event.text .event)

def Trigger.ofJson (value : Json) : Except Fault Trigger := do
  let fields ← Decode.fields value
  let schema ← Decode.field "schema" fields
  let table ← Decode.field "table" fields
  let name ← Decode.field "name" fields
  let timing ← choiceOr Timing.all Timing.text .timing "timing" .after fields
  let granularity ← choiceOr Granularity.all Granularity.text .level "level" .row fields
  return {
    schema, table, name, timing, granularity
    events := ← Decode.events fields
    function := fieldOr "function" "" fields
    condition := fieldOr "condition" .absent fields
    comment := fieldOr "comment" .absent fields }

def Policy.ofJson (value : Json) : Except Fault Policy := do
  let fields ← Decode.fields value
  let schema ← Decode.field "schema" fields
  let table ← Decode.field "table" fields
  let name ← Decode.field "name" fields
  return {
    schema, table, name
    command := ← choiceOr PolicyCommand.every PolicyCommand.text .policyCommand "command" .all fields
    permissive := fieldOr "permissive" true fields
    roles := fieldOr "roles" ([] : List String) fields
    visible := fieldOr "using" .absent fields
    allowed := fieldOr "with_check" .absent fields }

def Table.ofJson (value : Json) : Except Fault Table := do
  let fields ← mapping value
  let columns ← listOf Column.ofJson "columns" fields
  let constraints ← entriesOf Constraint.ofJson "constraints" fields
  let indexes ← entriesOf Index.ofJson "indexes" fields
  let triggers ← entriesOf Trigger.ofJson "triggers" fields
  let policies ← entriesOf Policy.ofJson "policies" fields
  let schema ← Decode.field "schema" fields
  let name ← Decode.field "name" fields
  return {
    schema, name
    kind := ← choiceOr TableKind.all TableKind.text .tableKind "type" .base fields
    columns, constraints, indexes, triggers, policies
    rowSecurity := fieldOr "rls_enabled" false fields
    dependencies := fieldOr "dependencies" ([] : List String) fields
    comment := fieldOr "comment" .absent fields
    isPartitioned := fieldOr "is_partitioned" false fields
    partitionStrategy := fieldOr "partition_strategy" .absent fields
    partitionKey := fieldOr "partition_key" .absent fields }

def View.ofJson (value : Json) : Except Fault View := do
  let fields ← Decode.fields value
  return {
    schema := ← Decode.field "schema" fields
    name := ← Decode.field "name" fields
    definition := fieldOr "definition" "" fields
    materialized := fieldOr "materialized" false fields
    dependencies := fieldOr "dependencies" ([] : List String) fields
    comment := fieldOr "comment" .absent fields }

def Sequence.ofJson (value : Json) : Except Fault Sequence := do
  let fields ← Decode.fields value
  return {
    schema := ← Decode.field "schema" fields
    name := ← Decode.field "name" fields
    dataType := fieldOr "data_type" "bigint" fields
    start := fieldOr "start_value" (1 : Int) fields
    increment := fieldOr "increment" (1 : Int) fields
    minimum := fieldOr "min_value" .absent fields
    maximum := fieldOr "max_value" .absent fields
    cycle := fieldOr "cycle" false fields
    ownerTable := fieldOr "owned_by_table" .absent fields
    ownerColumn := fieldOr "owned_by_column" .absent fields
    comment := fieldOr "comment" .absent fields }

def Member.ofJson (value : Json) : Except Fault Member := do
  let fields ← Decode.fields value
  return {
    name := ← Decode.field "name" fields
    dataType := ← Decode.field "data_type" fields
    position := fieldOr "position" (0 : Int) fields }

def DomainConstraint.ofJson (value : Json) : Except Fault DomainConstraint := do
  let fields ← Decode.fields value
  return { definition := ← Decode.field "definition" fields, name := fieldOr "name" .absent fields }

def UserType.ofJson (value : Json) : Except Fault UserType := do
  let fields ← mapping value
  let members ← listOf Member.ofJson "columns" fields
  let constraints ← listOf DomainConstraint.ofJson "constraints" fields
  let schema ← Decode.field "schema" fields
  let name ← Decode.field "name" fields
  return {
    schema, name
    kind := ← choiceOr TypeKind.all TypeKind.text .typeKind "kind" .enum fields
    labels := fieldOr "enum_values" ([] : List String) fields
    members
    base := fieldOr "base_type" .absent fields
    notNull := fieldOr "not_null" false fields
    default := fieldOr "default" .absent fields
    constraints
    comment := fieldOr "comment" .absent fields }

def Extension.ofJson (value : Json) : Except Fault Extension := do
  let fields ← Decode.fields value
  return {
    name := ← Decode.field "name" fields
    schema := fieldOr "schema" .absent fields
    version := fieldOr "version" .absent fields
    comment := fieldOr "comment" .absent fields }

def Metadata.ofJson (value : Json) : Except Fault Metadata := do
  let fields ← Decode.fields value
  return {
    databaseVersion := fieldOr "database_version" "" fields
    dumpVersion := fieldOr "dump_version" "" fields
    dumpedAt := fieldOr "dumped_at" .absent fields
    source := fieldOr "source" .absent fields }

def Parameter.ofJson (value : Json) : Except Fault Parameter := do
  let fields ← Decode.fields value
  return {
    name := ← Decode.field "name" fields
    dataType := ← Decode.field "data_type" fields
    mode := fieldOr "mode" .absent fields
    default := fieldOr "default_value" .absent fields
    position := fieldOr "position" (0 : Int) fields }

def StoredFunction.ofJson (value : Json) : Except Fault StoredFunction := do
  let fields ← mapping value
  let parameters ← listOf Parameter.ofJson "parameters" fields
  return {
    schema := ← Decode.field "schema" fields
    name := ← Decode.field "name" fields
    definition := fieldOr "definition" "" fields
    language := fieldOr "language" "sql" fields
    arguments := fieldOr "arguments" "" fields
    signature := fieldOr "signature" "" fields
    returnType := fieldOr "return_type" .absent fields
    parameters
    volatility := fieldOr "volatility" .absent fields
    isStrict := fieldOr "is_strict" false fields
    isSecurityDefiner := fieldOr "is_security_definer" false fields
    comment := fieldOr "comment" .absent fields }

def Procedure.ofJson (value : Json) : Except Fault Procedure := do
  let fields ← Decode.fields value
  return {
    schema := ← Decode.field "schema" fields
    name := ← Decode.field "name" fields
    definition := fieldOr "definition" "" fields
    language := fieldOr "language" "plpgsql" fields
    arguments := fieldOr "arguments" "" fields
    signature := fieldOr "signature" "" fields
    comment := fieldOr "comment" .absent fields }

def Aggregate.ofJson (value : Json) : Except Fault Aggregate := do
  let fields ← Decode.fields value
  return {
    schema := ← Decode.field "schema" fields
    name := ← Decode.field "name" fields
    arguments := fieldOr "arguments" "" fields
    signature := fieldOr "signature" "" fields
    returnType := fieldOr "return_type" .absent fields
    transition := fieldOr "transition_function" .absent fields
    transitionSchema := fieldOr "transition_function_schema" .absent fields
    stateType := fieldOr "state_type" .absent fields
    initialCondition := fieldOr "initial_condition" .absent fields
    final := fieldOr "final_function" .absent fields
    finalSchema := fieldOr "final_function_schema" .absent fields
    comment := fieldOr "comment" .absent fields }

def PartitionAttachment.ofJson (value : Json) : Except Fault PartitionAttachment := do
  let fields ← Decode.fields value
  return {
    parentSchema := ← Decode.field "parent_schema" fields
    parentTable := ← Decode.field "parent_table" fields
    childSchema := ← Decode.field "child_schema" fields
    childTable := ← Decode.field "child_table" fields
    bound := fieldOr "partition_bound" .absent fields }

def IndexAttachment.ofJson (value : Json) : Except Fault IndexAttachment := do
  let fields ← Decode.fields value
  return {
    parentSchema := ← Decode.field "parent_schema" fields
    parentIndex := ← Decode.field "parent_index" fields
    childSchema := ← Decode.field "child_schema" fields
    childIndex := ← Decode.field "child_index" fields }

/-- The name is looked up before all else. -/
def Schema.ofJson (value : Json) : Except Fault Schema := do
  let .object fields := value | throw .wrongForm
  let some name := Json.find? "name" fields | throw .schemaWithoutName
  return {
    name := ⟨name⟩
    owner := fieldOr "owner" .absent fields
    tables := ← entriesOf Table.ofJson "tables" fields
    views := ← entriesOf View.ofJson "views" fields
    functions := ← entriesOf StoredFunction.ofJson "functions" fields
    procedures := ← entriesOf Procedure.ofJson "procedures" fields
    aggregates := ← entriesOf Aggregate.ofJson "aggregates" fields
    sequences := ← entriesOf Sequence.ofJson "sequences" fields
    policies := ← entriesOf Policy.ofJson "policies" fields
    types := ← entriesOf UserType.ofJson "types" fields }

def Catalog.ofJson (value : Json) : Except Fault Catalog := do
  let fields ← Decode.fields value
  let metadata := (Json.find? "metadata" fields).getD .null
  return {
    metadata := ← if metadata.isNothing then pure {} else Metadata.ofJson metadata
    schemas := ← entriesOf Schema.ofJson "schemas" fields
    extensions := ← entriesOf Extension.ofJson "extensions" fields
    partitions := ← listOf PartitionAttachment.ofJson "partition_attachments" fields
    indexPartitions := ← listOf IndexAttachment.ofJson "index_attachments" fields }

end SchemaScript
