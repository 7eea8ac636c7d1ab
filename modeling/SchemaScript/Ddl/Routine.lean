import SchemaScript.Catalog.Object
import SchemaScript.Catalog.Table
import SchemaScript.Ddl.Reference
import SchemaScript.Sql.Name
import SchemaScript.Text.Case

/-!
# Routines, triggers and policies as statements

What runs by itself or is called, and what guards the rows.
-/

/-!
## Functions, procedures and aggregates as statements
-/

namespace SchemaScript

/-- The whole parameter list, or the types alone where that is all there is. -/
def Ddl.parameterList (signature arguments : Field String) : String :=
  signature.givenOr (arguments.givenOr "")

/-- The body of a routine is searched for what could end it. -/
def Ddl.needBody (body : Field String) : Except Fault Unit :=
  if body.stored.isText then .ok () else .error .wrongForm

namespace StoredFunction

/-- The attributes that differ from the usual ones, each on its line. -/
def attributes (f : StoredFunction) : List String :=
  let volatility := Text.upper (f.volatility.givenOr "VOLATILE")
  (if volatility == "VOLATILE" then [] else [volatility]) ++
    (if f.isStrict.isGiven then ["STRICT"] else []) ++
    (if f.isSecurityDefiner.isGiven then ["SECURITY DEFINER"] else [])

def isComplete (f : StoredFunction) : Bool :=
  f.name.isGiven && f.definition.isGiven

def ddl (f : StoredFunction) (target : Option String) : String :=
  if !f.isComplete then ""
  else
    let name := Ddl.reference f.schema f.name target
    let returns :=
      match f.returnType.given with
      | some r => ["RETURNS " ++ Text.spelled (Sql.dropSchema (some r) target)]
      | none => []
    "\n".intercalate
        (["CREATE OR REPLACE FUNCTION " ++ name ++ "(" ++
            Ddl.parameterList f.signature f.arguments ++ ")"] ++
          returns ++ ["LANGUAGE " ++ f.language.givenOr "sql"] ++ f.attributes ++
          ["AS " ++ Sql.dollarQuoted f.definition.spelled ++ ";"]) ++
      Ddl.commentAfter ("FUNCTION " ++ name ++ "(" ++ f.arguments.spelled ++ ")") f.comment

/-- Refuses a function whose statement cannot be written. -/
def check (f : StoredFunction) (target : Option String) : Except Fault Unit := do
  if f.isComplete then
    Ddl.needReference f.schema f.name
    if Text.isGiven target then f.returnType.needText
    f.volatility.needText
    Ddl.needBody f.definition
    f.comment.needText

end StoredFunction

namespace Procedure

def isComplete (p : Procedure) : Bool :=
  p.name.isGiven && p.definition.isGiven

def ddl (p : Procedure) (target : Option String) : String :=
  if !p.isComplete then ""
  else
    let name := Ddl.reference p.schema p.name target
    "CREATE OR REPLACE PROCEDURE " ++ name ++ "(" ++ Ddl.parameterList p.signature p.arguments ++
      ")\nLANGUAGE " ++ p.language.givenOr "plpgsql" ++ "\nAS " ++
      Sql.dollarQuoted p.definition.spelled ++ ";" ++
      Ddl.commentAfter ("PROCEDURE " ++ name ++ "(" ++ p.arguments.spelled ++ ")") p.comment

/-- Refuses a procedure whose statement cannot be written. -/
def check (p : Procedure) : Except Fault Unit := do
  if p.isComplete then
    Ddl.needReference p.schema p.name
    Ddl.needBody p.definition
    p.comment.needText

end Procedure

namespace Aggregate

/-- A support function; its schema is left out where it is the target schema. -/
def supportText (name schema : Field String) (target : Option String) : String :=
  match schema.given with
  | some s => if some s == target then name.spelled else s ++ "." ++ name.spelled
  | none => name.spelled

def isComplete (a : Aggregate) : Bool :=
  a.name.isGiven && a.transition.isGiven && a.stateType.isGiven

def ddl (a : Aggregate) (target : Option String) : String :=
  if !a.isComplete then ""
  else
    let name := Ddl.reference a.schema a.name target
    let parameters := Ddl.parameterList a.signature a.arguments
    let options :=
      ["SFUNC = " ++ supportText a.transition a.transitionSchema target,
       "STYPE = " ++ Text.spelled (Sql.dropSchema a.stateType.given target)] ++
      (match a.initialCondition.text? with
        | some c => ["INITCOND = " ++ Sql.literal c]
        | none => []) ++
      (if a.final.isGiven then ["FINALFUNC = " ++ supportText a.final a.finalSchema target]
        else [])
    "CREATE AGGREGATE " ++ name ++ "(" ++ (if parameters == "" then "*" else parameters) ++
      ") (\n" ++ ",\n".intercalate (options.map ("    " ++ ·)) ++ "\n);" ++
      Ddl.commentAfter ("AGGREGATE " ++ name ++ "(" ++ a.arguments.givenOr "*" ++ ")") a.comment

/-- Refuses an aggregate whose statement cannot be written. -/
def check (a : Aggregate) (target : Option String) : Except Fault Unit := do
  if a.isComplete then
    Ddl.needReference a.schema a.name
    if Text.isGiven target then a.stateType.needText
    let initial := a.initialCondition.stored
    if initial ≠ .null && !initial.isText then throw .notAText
    a.comment.needText

end Aggregate
end SchemaScript

/-!
## Triggers and policies as statements
-/

namespace SchemaScript

namespace Trigger

/-- The events in their fixed order, each once. -/
def eventText (events : List Event) : String :=
  " OR ".intercalate ((Event.all.filter events.contains).map Event.text)

/-- A call of the function; one that already has arguments stays as it is. -/
def functionText (function target : Option String) : String :=
  let f := Text.spelled (Sql.dropSchema function target)
  if Text.endsWith f ")" then f else f ++ "()"

def isComplete (t : Trigger) : Bool :=
  t.name.isGiven && t.table.isGiven && t.function.isGiven && !t.events.isEmpty

def ddl (t : Trigger) (target : Option String) : String :=
  if !t.isComplete then ""
  else
    let table := Ddl.reference t.schema t.table target
    let name := Ddl.nameText t.name
    "CREATE TRIGGER " ++ name ++ " " ++ t.timing.sql ++ " " ++ eventText t.events ++ " ON " ++
      table ++ " FOR EACH " ++ t.granularity.text ++
      (match t.condition.given with | some c => " WHEN " ++ Ddl.wrapped c | none => "") ++
      " EXECUTE FUNCTION " ++ functionText t.function.text? target ++ ";" ++
      Ddl.commentAfter ("TRIGGER " ++ name ++ " ON " ++ table) t.comment

/-- Refuses a trigger whose statement cannot be written. -/
def check (t : Trigger) : Except Fault Unit := do
  if !t.isComplete then return
  Ddl.needReference t.schema t.table
  t.function.needText
  t.name.needText
  t.condition.needText
  t.comment.needText

end Trigger

namespace Policy

def isComplete (p : Policy) : Bool :=
  p.name.isGiven && p.table.isGiven

def ddl (p : Policy) (target : Option String) : String :=
  if !p.isComplete then ""
  else
    "CREATE POLICY " ++ Ddl.nameText p.name ++ " ON " ++ Ddl.reference p.schema p.table target ++
      (if p.permissive.isGiven then "" else " AS RESTRICTIVE") ++
      (if p.command == .all then "" else " FOR " ++ p.command.text) ++
      (if p.roles.isGiven then " TO " ++ ", ".intercalate p.roles.texts else "") ++
      (match p.visible.given with | some e => " USING " ++ Ddl.wrapped e | none => "") ++
      (match p.allowed.given with | some e => " WITH CHECK " ++ Ddl.wrapped e | none => "") ++
      ";"

/-- Refuses a policy whose statement cannot be written. -/
def check (p : Policy) : Except Fault Unit := do
  if !p.isComplete then return
  Ddl.needReference p.schema p.table
  p.name.needText
  p.roles.needTexts .wrongForm
  p.visible.needText
  p.allowed.needText

end Policy
end SchemaScript
