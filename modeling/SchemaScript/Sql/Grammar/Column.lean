import SchemaScript.Sql.Grammar.Setting

/-!
# Reading columns and constraints
-/

namespace SchemaScript.Sql.Reader

/-! ## References -/

def referentialAction : Reader ReferentialAction := do
  if ← acceptWord "no" then
    word "action"
    return .noAction
  if ← acceptWord "restrict" then return .restrict
  if ← acceptWord "cascade" then return .cascade
  word "set"
  match ← oneOf ["null", "default"] with
  | "null" => return .setNull
  | _ => return .setDefault

/-- The columns that an action on a deletion is limited to. -/
def actionColumns (action : ReferentialAction) : Reader (Option (List String)) := do
  match action with
  | .setNull | .setDefault => maybeParenthesized (list columnName)
  | _ => return none

/-- What to do on an update or a deletion; each can be given once. -/
def referentialActions (reference : Reference) : Reader Reference := do
  let step (state : Reference × Bool × Bool) : Reader (Option (Reference × Bool × Bool)) := do
    let (reference, hasUpdate, hasDelete) := state
    let at? ← place
    if ← both (!hasUpdate) (acceptWords ["on", "update"]) then
      let action ← referentialAction
      if (← actionColumns action).isSome then
        breach ("a column list with " ++ action.text ++
          " is only supported for ON DELETE actions") at?
      return some ({ reference with onUpdate := action }, true, hasDelete)
    if ← both (!hasDelete) (acceptWords ["on", "delete"]) then
      let action ← referentialAction
      let _ ← actionColumns action
      return some ({ reference with onDelete := action }, hasUpdate, true)
    if ← both (!(hasUpdate && hasDelete)) (acceptWord "on") then refuse
    return none
  return (← repeated step (reference, false, false)).1

/-- The columns of a key; behind the others there can be one that stands for a period. -/
def periodColumns : Reader (List String) :=
  parenthesized do
    let first ← columnName
    let (columns, _) ← repeated (fun (columns, isClosed) => do
      if isClosed then return none
      unless ← acceptSymbol "," do return none
      if (← atWord "period") && (← isColumnNameAhead 1) then
        skip
        return some ((← columnName) :: columns, true)
      return some ((← columnName) :: columns, false)) ([first], false)
    return columns.reverse

/-- The table and the columns that a foreign key refers to, which are read by `columns`. -/
def reference (r : Rules) (columns : Reader (List String)) : Reader Reference := do
  word "references"
  let table ← relationName r
  let columns ← if ← atSymbol "(" then columns else pure []
  let at? ← place
  if ← acceptWord "match" then
    if (← oneOf ["full", "partial", "simple"]) == "partial" then
      breach "MATCH PARTIAL not yet implemented" at?
  referentialActions { table, columns }

/-! ## Properties of constraints -/

/-- The properties that are written behind a constraint. -/
inductive Property
  | deferrable
  | notDeferrable
  | deferred
  | immediate
  | enforced
  | notEnforced
  | notValid
  | noInherit
  deriving DecidableEq

/-- A property that a column's constraint can have, if one is in front. -/
def columnProperty : Reader (Option Property) := do
  if ← acceptWord "deferrable" then return some .deferrable
  if ← acceptWord "initially" then
    if ← acceptWord "deferred" then return some .deferred
    word "immediate"
    return some .immediate
  if ← acceptWord "enforced" then return some .enforced
  if ← acceptWords ["not", "deferrable"] then return some .notDeferrable
  if ← acceptWords ["not", "enforced"] then return some .notEnforced
  return none

/-- A property that a table's constraint can have, if one is in front. -/
def property : Reader (Option Property) := do
  if let some p ← columnProperty then return some p
  if ← acceptWord "not" then
    word "valid"
    return some .notValid
  if ← acceptWord "no" then
    word "inherit"
    return some .noInherit
  return none

/-- Two properties that contradict each other. -/
def Property.conflict? (all : List Property) : Option String :=
  let both (a b : Property) : Bool := all.contains a && all.contains b
  if both .notDeferrable .deferred then
    some "constraint declared INITIALLY DEFERRED must be DEFERRABLE"
  else if both .notDeferrable .deferrable || both .immediate .deferred || both .enforced .notEnforced
  then some "conflicting constraint properties"
  else none

/-- What is wrong with a property on a constraint of some kind that admits only others. -/
def Property.fault? (kind : String) (allowed all : List Property) : Option String :=
  let isGiven (p : Property) : Bool := all.contains p
  let refused (p : Property) : Bool := isGiven p && !allowed.contains p
  let cannot (words : String) := some (kind ++ " constraints cannot be marked " ++ words)
  if (isGiven .deferrable || isGiven .deferred) && !allowed.contains .deferrable then
    cannot "DEFERRABLE"
  else if refused .notValid then cannot "NOT VALID"
  else if refused .noInherit then cannot "NO INHERIT"
  else if refused .notEnforced then cannot "NOT ENFORCED"
  else if refused .enforced then cannot "ENFORCED"
  else none

/-- Properties that do not contradict each other. -/
def properties : Reader (List Property) :=
  repeated (fun (found : List Property) => do
    let at? ← place
    let some p ← property | return none
    let found := p :: found
    match Property.conflict? found with
    | some text => breach text at?
    | none => return some found) []

/-- Stops if a constraint of this kind cannot have one of the properties, which begin at `at?`. -/
def checkProperties (kind : String) (allowed all : List Property) (at? : Option Nat) :
    Reader Unit := do
  if let some text := Property.fault? kind allowed all then lateBreach text at?

def propertiesOf (kind : String) (allowed : List Property) : Reader (List Property) := do
  let at? ← place
  let all ← properties
  checkProperties kind allowed all at?
  return all

def isDeferrable (all : List Property) : Bool :=
  all.contains .deferrable || all.contains .deferred

/-! ## Constraints of tables -/

/-- The columns of a key, of which the last may be without overlaps. -/
def keyColumns : Reader (List String) :=
  parenthesized do
    let columns ← list columnName
    let _ ← acceptPhrase ["without", "overlaps"]
    return columns

/-- The parameters of the index behind a key. -/
def keyStorage (r : Rules) : Reader Unit := do
  if ← acceptWord "with" then definition r
  indexTablespace

/-- The columns of a key; none if an index gives them. -/
def keyOrIndex (r : Rules) : Reader (List String) := do
  if ← acceptPhrase ["using", "index"] then
    let _ ← columnName
    return []
  let columns ← keyColumns
  includedColumns
  keyStorage r
  return columns

/-- An operator that may have a schema with or without the word `OPERATOR`. -/
def exclusionOperator : Reader Unit := do
  if ← both ((← ahead 1) == some (.symbol "(")) (acceptWord "operator") then
    let _ ← explicitOperator
  else
    let _ ← operatorPath

def exclusion (r : Rules) : Reader Unit := do
  if ← acceptWord "using" then
    let _ ← columnName
  let _ ← parenthesized <| list do
    let _ ← indexElement r
    word "with"
    exclusionOperator
  includedColumns
  keyStorage r
  if ← acceptWord "where" then
    let _ ← parenthesized r.expression

/-- A constraint of a table, after its name. -/
def constraintBody (r : Rules) (name : Option String) : Reader ConstraintClause := do
  if ← acceptWord "check" then
    let condition ← parenthesized r.expression
    let _ ← propertiesOf "CHECK" [.notValid, .noInherit, .enforced, .notEnforced]
    return { name, rule := .check condition.wholeText }
  if ← acceptWord "not" then
    word "null"
    let column ← columnName
    let _ ← propertiesOf "NOT NULL" [.notValid, .noInherit]
    return { name, listed := [column], rule := .other "CONSTR_NOTNULL" }
  if ← acceptWord "unique" then
    let isPlain := !(← atWord "nulls")
    nullsDistinct
    unless isPlain || (← atSymbol "(") do refuse
    let columns ← keyOrIndex r
    let _ ← propertiesOf "UNIQUE" [.deferrable]
    return { name, listed := columns, rule := .unique }
  if ← acceptWord "primary" then
    word "key"
    let columns ← keyOrIndex r
    let _ ← propertiesOf "PRIMARY KEY" [.deferrable]
    return { name, listed := columns, rule := .primaryKey }
  if ← acceptWord "exclude" then
    exclusion r
    let _ ← propertiesOf "EXCLUDE" [.deferrable]
    return { name, rule := .exclusion }
  word "foreign"
  word "key"
  let columns ← periodColumns
  let reference ← reference r periodColumns
  let all ← propertiesOf "FOREIGN KEY" [.deferrable, .notValid, .enforced, .notEnforced]
  return {
    name
    listed := columns
    rule := .references reference (isDeferrable all) (all.contains .deferred) }

/-- A constraint of a table is in front. -/
def atConstraint : Reader Bool := do
  match ← front with
  | some (.word w) =>
    if ["constraint", "check", "unique", "primary", "foreign", "not"].contains w then return true
    let next ← ahead 1
    return w == "exclude" && (next == some (.symbol "(") || next == some (.word "using"))
  | _ => return false

def tableConstraint (r : Rules) : Reader ConstraintClause := do
  let name ← afterWord "constraint" columnName
  constraintBody r name

/-! ## Columns -/

/-- The property of a column's constraint, which is kept apart from it. -/
def propertyLabel : Property → String
  | .deferrable => "CONSTR_ATTR_DEFERRABLE"
  | .notDeferrable => "CONSTR_ATTR_NOT_DEFERRABLE"
  | .deferred => "CONSTR_ATTR_DEFERRED"
  | .immediate => "CONSTR_ATTR_IMMEDIATE"
  | .enforced => "CONSTR_ATTR_ENFORCED"
  | .notEnforced => "CONSTR_ATTR_NOT_ENFORCED"
  | .notValid => ""
  | .noInherit => ""

def noInherit : Reader Unit := do
  if ← acceptWord "no" then word "inherit"

/-- How the values of a column are generated, after the word `GENERATED`. -/
def generation (r : Rules) (clause : ConstraintRule → ColumnRule) : Reader ColumnRule := do
  let at? ← place
  let isAlways ←
    if ← acceptWord "always" then pure true
    else
      words ["by", "default"]
      pure false
  word "as"
  if ← acceptWord "identity" then
    let options ← maybeParenthesized do
      match ← sequenceOptions r with
      | [] => refuse
      | options => pure options
    return .identity isAlways (options.getD [])
  let _ ← parenthesized r.expression
  let _ ← acceptAny ["stored", "virtual"]
  unless isAlways do
    breach "for a generated column, GENERATED ALWAYS must be specified" at?
  return clause (.other "CONSTR_GENERATED")

/-- What stands behind a column: a rule, or the place of a collation, which is passed over. -/
inductive ColumnClause
  | rule (rule : ColumnRule)
  | collation (at? : Option Nat)

/-- A rule of a column that can have a name, if one is in front. -/
def namedRule (r : Rules) (name : Option String) (column : String) : Reader (Option ColumnRule) := do
  let clause (rule : ConstraintRule) : ColumnRule := .constraint { name, column := some column, rule }
  if ← acceptWords ["not", "null"] then
    noInherit
    return some .notNull
  match ← acceptAny ["null", "unique", "primary", "check", "default", "generated"] with
  | some "null" => return some .null
  | some "unique" =>
    nullsDistinct
    keyStorage r
    return some (clause .unique)
  | some "primary" =>
    word "key"
    keyStorage r
    return some (clause .primaryKey)
  | some "check" =>
    let condition ← parenthesized r.expression
    noInherit
    return some (clause (.check condition.wholeText))
  | some "default" => return some (.default (← r.restrictedExpression))
  | some _ => return some (← generation r clause)
  | none =>
    unless ← atWord "references" do return none
    let columns := parenthesized (list columnName)
    return some (clause (.references (← reference r columns) false false))

/-- What stands behind a column, if there is something more. -/
def columnClause (r : Rules) (column : String) : Reader (Option ColumnClause) := do
  if ← acceptWord "constraint" then
    let name ← columnName
    match ← namedRule r (some name) column with
    | some rule => return some (.rule rule)
    | none =>
      let _ ← acceptWord "not"
      refuse
  let at? ← place
  if ← acceptWord "collate" then
    let _ ← anyName
    return some (.collation at?)
  if let some rule ← namedRule r none column then return some (.rule rule)
  if let some p ← columnProperty then
    return some (.rule (.constraint
      { column := some column, rule := .other (propertyLabel p) }))
  if ← acceptWord "not" then refuse
  return none

/-- The rules among the clauses. There can be one collation. -/
def rulesOf (clauses : List ColumnClause) : Reader (List ColumnRule) := do
  let collations := clauses.filterMap fun clause =>
    match clause with
    | .collation at? => some at?
    | .rule _ => none
  if let _ :: at? :: _ := collations then lateBreach "multiple COLLATE clauses not allowed" at?
  return clauses.filterMap fun clause =>
    match clause with
    | .rule rule => some rule
    | .collation _ => none

/-- The rules behind a column. -/
def columnRules (r : Rules) (column : String) : Reader (List ColumnRule) := do
  rulesOf (← many (columnClause r column))

def columnDefinition (r : Rules) : Reader ColumnDefinition := do
  let name ← columnName
  let type ← type r
  for w in ["storage", "compression"] do
    if ← acceptWord w then
      unless ← acceptWord "default" do
        let _ ← columnName
  foreignOptions
  return { name, type, rules := ← columnRules r name }

end SchemaScript.Sql.Reader
