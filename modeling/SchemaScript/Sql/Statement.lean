import SchemaScript.Catalog.Kind
import SchemaScript.Sql.TypeName

/-!
# Statements

What a script says, as far as it can matter to a catalog. Of other statements only a label is kept.
-/

namespace SchemaScript.Sql

structure RelationName where
  schema : Option String := none
  name : String
  deriving DecidableEq, Inhabited

/-- The relation that a path names; a database in front of the schema plays no part. -/
def RelationName.ofPath (path : List String) : RelationName :=
  match path.reverse with
  | [] => { name := "" }
  | [name] => { name }
  | name :: schema :: _ => { schema := some schema, name }

/-! ## Sequences and keys -/

inductive SequenceOption
  | dataType (type : WrittenType)
  | start (value : Number)
  | increment (value : Number)
  /-- No value stands for the default. -/
  | minimum (value : Option Number)
  | maximum (value : Option Number)
  | cycle (enabled : Bool)
  | ownedBy (path : List String)
  | other
  deriving DecidableEq, Inhabited

/-- What happens to a row when the row that it refers to goes away. -/
inductive ReferentialAction
  | noAction
  | restrict
  | cascade
  | setNull
  | setDefault
  deriving DecidableEq, Inhabited

def ReferentialAction.text : ReferentialAction → String
  | noAction => "NO ACTION"
  | restrict => "RESTRICT"
  | cascade => "CASCADE"
  | setNull => "SET NULL"
  | setDefault => "SET DEFAULT"

structure Reference where
  table : RelationName
  columns : List String := []
  onUpdate : ReferentialAction := .noAction
  onDelete : ReferentialAction := .noAction
  deriving DecidableEq, Inhabited

inductive ConstraintRule
  | primaryKey
  | unique
  | check (condition : String)
  | references (reference : Reference) (deferrable initiallyDeferred : Bool)
  | exclusion
  /-- A rule that is no constraint of its own in a catalog, under the label it is logged with. -/
  | other (label : String)
  deriving DecidableEq, Inhabited

/-- A constraint as it is declared, behind a column or by itself. -/
structure ConstraintClause where
  name : Option String := none
  /-- The column behind which it stands. -/
  column : Option String := none
  /-- The columns that it lists. -/
  listed : List String := []
  rule : ConstraintRule
  deriving DecidableEq, Inhabited

/-- The columns that it is about. -/
def ConstraintClause.columns (clause : ConstraintClause) : List String :=
  match clause.column with
  | some column => [column]
  | none => clause.listed

/-! ## Tables -/

inductive ColumnRule
  | notNull
  | null
  | default (value : Phrase)
  | identity (always : Bool) (options : List SequenceOption)
  | constraint (clause : ConstraintClause)
  deriving DecidableEq, Inhabited

structure ColumnDefinition where
  name : String
  type : WrittenType
  rules : List ColumnRule := []
  deriving DecidableEq, Inhabited

inductive TableElement
  | column (definition : ColumnDefinition)
  | constraint (clause : ConstraintClause)
  | other (label : String)
  deriving DecidableEq, Inhabited

inductive PartitionStrategy
  | range
  | list
  | hash
  deriving DecidableEq, Inhabited

def PartitionStrategy.text : PartitionStrategy → String
  | range => "RANGE"
  | list => "LIST"
  | hash => "HASH"

/-- How the rows of a table are spread over its partitions. -/
structure Partitioning where
  strategy : PartitionStrategy
  /-- Columns, and expressions between parentheses. -/
  keys : List String
  deriving DecidableEq, Inhabited

structure TableDefinition where
  relation : RelationName
  isTemporary : Bool := false
  elements : List TableElement := []
  parents : List RelationName := []
  /-- The rows that it takes from its parent, if it is a partition. -/
  bound : Option String := none
  partitioning : Option Partitioning := none
  deriving DecidableEq, Inhabited

inductive AlterCommand
  | addConstraint (clause : ConstraintClause)
  | rowSecurity (enabled : Bool)
  | attachPartition (child : RelationName) (bound : String)
  | other (label : String)
  deriving DecidableEq, Inhabited

/-- The label under which a command is logged that has no effect. -/
def AlterCommand.label : AlterCommand → String
  | addConstraint _ => "AT_AddConstraint"
  | rowSecurity true => "AT_EnableRowSecurity"
  | rowSecurity false => "AT_DisableRowSecurity"
  | attachPartition _ _ => "AT_AttachPartition"
  | other label => label

/-! ## Routines -/

inductive ParameterMode
  | default
  | input
  | output
  | both
  | variadic
  deriving DecidableEq, Inhabited

def ParameterMode.text? : ParameterMode → Option String
  | default => none
  | input => some "IN"
  | output => some "OUT"
  | both => some "INOUT"
  | variadic => some "VARIADIC"

def ParameterMode.isOutput : ParameterMode → Bool
  | output | both => true
  | _ => false

structure ParameterDefinition where
  name : Option String := none
  type : WrittenType
  mode : ParameterMode := .default
  default : Option String := none
  deriving DecidableEq, Inhabited

inductive RoutineOption
  | body (parts : List String)
  | language (name : String)
  | volatility (word : String)
  | strict (enabled : Bool)
  | securityDefiner (enabled : Bool)
  | other
  deriving DecidableEq, Inhabited

structure RoutineDefinition where
  path : List String
  isProcedure : Bool := false
  parameters : List ParameterDefinition := []
  /-- The columns of a result that is a table. -/
  resultColumns : List (String × WrittenType) := []
  result : Option WrittenType := none
  options : List RoutineOption := []
  deriving DecidableEq, Inhabited

/-- The value of an entry in a definition list. -/
inductive DefinitionValue
  | type (type : WrittenType)
  | text (value : String)
  deriving DecidableEq, Inhabited

structure AggregateDefinition where
  path : List String
  arguments : List WrittenType := []
  entries : List (String × DefinitionValue) := []
  deriving DecidableEq, Inhabited

/-! ## Other objects -/

inductive DomainRule
  | notNull
  | default (value : String)
  | check (name : Option String) (condition : String)
  | other
  deriving DecidableEq, Inhabited

structure IndexElement where
  /-- The column, or the text of an expression. -/
  key : String
  isExpression : Bool := false
  operatorClass : List String := []
  isDescending : Bool := false
  deriving DecidableEq, Inhabited

structure IndexDefinition where
  name : Option String := none
  table : RelationName
  method : String := "btree"
  elements : List IndexElement
  isUnique : Bool := false
  isConcurrent : Bool := false
  predicate : Option String := none
  deriving DecidableEq, Inhabited

structure TriggerDefinition where
  name : String
  table : RelationName
  timing : Timing
  events : List Event
  granularity : Granularity := .statement
  function : List String
  arguments : List String := []
  condition : Option String := none
  deriving DecidableEq, Inhabited

structure PolicyDefinition where
  name : String
  table : RelationName
  command : PolicyCommand := .all
  permissive : Bool := true
  roles : List String := ["PUBLIC"]
  visible : Option String := none
  allowed : Option String := none
  deriving DecidableEq, Inhabited

/-- The roles that a policy lists; one for everybody alone lists none. -/
def PolicyDefinition.namedRoles (definition : PolicyDefinition) : List String :=
  if definition.roles == ["PUBLIC"] then [] else definition.roles

/-- The kinds of objects whose comments a catalog keeps. -/
inductive CommentKind
  | extension
  | table
  | view
  | materializedView
  | sequence
  | type
  | domain
  | function
  | procedure
  | aggregate
  | index
  | column
  | constraint
  | trigger
  deriving DecidableEq, Inhabited

def CommentKind.label : CommentKind → String
  | extension => "OBJECT_EXTENSION"
  | table => "OBJECT_TABLE"
  | view => "OBJECT_VIEW"
  | materializedView => "OBJECT_MATVIEW"
  | sequence => "OBJECT_SEQUENCE"
  | type => "OBJECT_TYPE"
  | domain => "OBJECT_DOMAIN"
  | function => "OBJECT_FUNCTION"
  | procedure => "OBJECT_PROCEDURE"
  | aggregate => "OBJECT_AGGREGATE"
  | index => "OBJECT_INDEX"
  | column => "OBJECT_COLUMN"
  | constraint => "OBJECT_TABCONSTRAINT"
  | trigger => "OBJECT_TRIGGER"

inductive Statement
  | createSchema (name owner : Option String)
  | createExtension (name : String) (schema version : Option String)
  | createTable (definition : TableDefinition)
  | createView (relation : RelationName) (definition : String) (materialized : Bool)
  /-- A table made from the rows of a query. -/
  | createTableAs
  | createRoutine (definition : RoutineDefinition)
  | createAggregate (definition : AggregateDefinition)
  /-- Another object that is defined by a list of entries, by its label. -/
  | define (label : String)
  | createEnum (path labels : List String)
  | createComposite (relation : RelationName) (members : List (String × WrittenType))
  | createDomain (path : List String) (base : WrittenType) (rules : List DomainRule)
  | createSequence (relation : RelationName) (options : List SequenceOption)
  | createIndex (definition : IndexDefinition)
  | alterTable (relation : RelationName) (commands : List AlterCommand)
  | alterIndex (relation : RelationName) (commands : List AlterCommand)
  | createTrigger (definition : TriggerDefinition)
  | createPolicy (definition : PolicyDefinition)
  /-- The path ends with the object's name; what hangs on a table has the table's name before it. -/
  | comment (kind : CommentKind) (path : List String) (text : Option String)
  /-- A comment on an object of another kind. -/
  | otherComment (label : String)
  /-- Any other statement. -/
  | other (label : String)
  deriving DecidableEq, Inhabited

/-- The statement adds to an object that another statement creates. -/
def Statement.isDependent : Statement → Bool
  | createIndex _ | alterTable _ _ | alterIndex _ _ | createTrigger _ | createPolicy _
  | comment _ _ _ | otherComment _ => true
  | _ => false

end SchemaScript.Sql
