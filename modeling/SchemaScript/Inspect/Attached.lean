import SchemaScript.Inspect.Row
import SchemaScript.Text.Search

/-!
# Rows about triggers, policies and partitions
-/

namespace SchemaScript.Inspect

/-! ## Triggers -/

/-- The bit of a number in two's complement. -/
def hasBit (n : Int) (bit : Nat) : Bool :=
  n / Int.ofNat (1 <<< bit) % 2 == 1

def timingOf (code : Int) : Timing :=
  if hasBit code 6 then .insteadOf else if hasBit code 1 then .before else .after

/-- The events whose bits are set, in the order in which triggers list them. -/
def eventsOf (code : Int) : List Event :=
  ([(2, .insert), (4, .update), (3, .delete), (5, .truncate)] : List (Nat × Event)).filterMap
    fun entry => if hasBit code entry.1 then some entry.2 else none

/-- What follows a run of blanks, of which there has to be one. -/
def afterBlanks? : List Char → Option (List Char)
  | c :: r => if Text.isBlank c then some (Text.trimStart r) else none
  | [] => none

/-- A closing parenthesis and the word that ends a condition begin here. -/
def endsCondition : List Char → Bool
  | ')' :: r =>
    match (afterBlanks? r).bind (Text.after? "EXECUTE".toList) with
    | some t => (afterBlanks? t).isSome
    | none => false
  | _ => false

/-- The characters before the last place where a condition may end. -/
def conditionText? : List Char → Option (List Char)
  | [] => none
  | c :: r =>
    match conditionText? r with
    | some inner => some (c :: inner)
    | none => if endsCondition (c :: r) then some [] else none

/-- What follows the words that open a condition, if they begin here. -/
def conditionStart? (s : List Char) : Option (List Char) :=
  match s with
  | c :: r =>
    if Text.isBlank c then
      ((Text.after? "WHEN".toList r).bind afterBlanks?).bind fun t => Text.after? ['('] t
    else none
  | [] => none

/-- The condition in the statement that creates a trigger, without its outer parentheses. -/
def triggerCondition? : List Char → Option (List Char)
  | [] => none
  | c :: r =>
    match (conditionStart? (c :: r)).bind conditionText? with
    | some inner => some inner
    | none => triggerCondition? r

def triggerRow (catalog : Catalog) : Row → Logged Catalog
  | [schema, table, name, code, functionSchema, function, definition, comment] =>
    atTable catalog schema table fun owner => do
      let bits ←
        match code with
        | .integer n => pure n
        | .flag b => pure (if b then 1 else 0)
        | _ => throw Fault.wrongForm
      let written ←
        if definition.isNothing then pure ""
        else if definition.isText then pure definition.plain
        else throw Fault.wrongForm
      let trigger : Trigger := {
        schema := ⟨schema⟩
        table := ⟨table⟩
        name := ⟨name⟩
        timing := timingOf bits
        events := eventsOf bits
        granularity := if hasBit bits 0 then .row else .statement
        function :=
          if functionSchema == schema then ⟨function⟩
          else functionSchema.plain ++ "." ++ function.plain
        condition := (triggerCondition? written.toList).map String.ofList
        comment := ⟨comment⟩ }
      return { owner with triggers := owner.triggers.put (Cell.name name) trigger }
  | row => .fail (widthFault 8 row)

/-! ## Policies -/

def policyCommand (cell : Json) : Except Fault PolicyCommand :=
  if cell.isNothing then .ok .all
  else Decode.choose PolicyCommand.every PolicyCommand.text .policyCommand cell

def isPermissive (cell : Json) : Except Fault Bool :=
  match cell with
  | .text s => .ok (s == "" || Text.upper s == "PERMISSIVE")
  | _ => if cell.isNothing then .ok true else .error .notAnObject

def policyRow (catalog : Catalog) : Row → Logged Catalog
  | [schema, table, name, permissive, roles, command, visible, allowed] =>
    atTable catalog schema table fun owner => do
      let roles ← Cell.items roles
      let policy : Policy := {
        schema := ⟨schema⟩
        table := ⟨table⟩
        name := ⟨name⟩
        command := ← policyCommand command
        permissive := ← isPermissive permissive
        roles := ⟨.list (roles.filter fun role => !Cell.isWord "public" role)⟩
        visible := ⟨visible⟩
        allowed := ⟨allowed⟩ }
      return { owner with policies := owner.policies.put (Cell.name name) policy }
  | row => .fail (widthFault 8 row)

/-! ## Partitions -/

/-- A child that is an index, or a table with the bound that says which rows it holds. -/
def partitionRow (catalog : Catalog) : Row → Logged Catalog
  | [parentSchema, parent, childSchema, child, kind, bound] =>
    if Cell.isWord "i" kind || Cell.isWord "I" kind then
      let attachment : IndexAttachment := {
        parentSchema := ⟨parentSchema⟩
        parentIndex := ⟨parent⟩
        childSchema := ⟨childSchema⟩
        childIndex := ⟨child⟩ }
      return { catalog with indexPartitions := catalog.indexPartitions ++ [attachment] }
    else if Cell.isSet bound then
      let attachment : PartitionAttachment := {
        parentSchema := ⟨parentSchema⟩
        parentTable := ⟨parent⟩
        childSchema := ⟨childSchema⟩
        childTable := ⟨child⟩
        bound := ⟨bound⟩ }
      return { catalog with partitions := catalog.partitions ++ [attachment] }
    else return catalog
  | row => .fail (widthFault 6 row)

end SchemaScript.Inspect
