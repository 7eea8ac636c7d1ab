import SchemaScript.Json.Writer
import SchemaScript.Text.Integer

/-!
# Values of settings, dates and times

What a setting can hold.
-/

/-!
## Dates and times

A moment has a text of its own, and messages that list it among other values name its parts.
-/

namespace SchemaScript.Toml

structure Date where
  year : Nat
  month : Nat
  day : Nat
  deriving DecidableEq, Repr

structure Time where
  hour : Nat
  minute : Nat
  second : Nat
  micro : Nat
  deriving DecidableEq, Repr

inductive Moment
  | date (date : Date)
  | time (time : Time)
  /-- The distance from universal time counts in minutes; there may be none. -/
  | dateTime (date : Date) (time : Time) (offset : Option Int)
  deriving DecidableEq, Repr

/-- The number with zeros in front, up to `width` digits. -/
def padded (width n : Nat) : String :=
  let digits := Text.digits n
  String.ofList (List.replicate (width - digits.length) '0' ++ digits)

def Date.text (d : Date) : String :=
  padded 4 d.year ++ "-" ++ padded 2 d.month ++ "-" ++ padded 2 d.day

/-- Six decimals follow the seconds unless all are zero. -/
def Time.text (t : Time) : String :=
  padded 2 t.hour ++ ":" ++ padded 2 t.minute ++ ":" ++ padded 2 t.second ++
    (if t.micro == 0 then "" else "." ++ padded 6 t.micro)

def offsetText (offset : Int) : String :=
  (if offset < 0 then "-" else "+") ++ padded 2 (offset.natAbs / 60) ++ ":" ++
    padded 2 (offset.natAbs % 60)

def Moment.text : Moment → String
  | date d => d.text
  | time t => t.text
  | dateTime d t offset => d.text ++ " " ++ t.text ++ ((offset.map offsetText).getD "")

/-! ### Parts in messages -/

def Date.parts (d : Date) : List String :=
  [d.year, d.month, d.day].map Text.writeNatural

/-- Seconds and their fractions are left out where nothing but zeros would stand. -/
def Time.parts (t : Time) : List String :=
  ([t.hour, t.minute] ++
    (if t.micro != 0 then [t.second, t.micro] else if t.second != 0 then [t.second] else [])).map
    Text.writeNatural

/-- A distance in whole days and the seconds that are left, which are not negative. -/
def offsetParts (offset : Int) : String :=
  let seconds := offset * 60
  let days := seconds / 86400
  (if days == 0 then "" else "days=" ++ Text.writeInteger days ++ ", ") ++ "seconds=" ++
    Text.writeInteger (seconds % 86400)

def zoneShown (offset : Int) : String :=
  if offset == 0 then "datetime.timezone.utc"
  else "datetime.timezone(datetime.timedelta(" ++ offsetParts offset ++ "))"

def called (name : String) (parts : List String) : String :=
  "datetime." ++ name ++ "(" ++ ", ".intercalate parts ++ ")"

def Moment.shown : Moment → String
  | date d => called "date" d.parts
  | time t => called "time" t.parts
  | dateTime d t offset =>
    called "datetime" (d.parts ++ t.parts ++
      (match offset with | some o => ["tzinfo=" ++ zoneShown o] | none => []))

/-!
## Values of settings

What a setting can hold: all that JSON has, and dates and times besides.
-/

inductive Value
  | nothing
  | flag (value : Bool)
  | integer (value : Int)
  | real (value : Binary64)
  | text (value : String)
  | moment (value : Moment)
  | list (items : List Value)
  | table (fields : List (String × Value))
  deriving Inhabited

namespace Value

mutual

def ofJson : Json → Value
  | .null => nothing
  | .flag b => flag b
  | .integer n => integer n
  | .real x => real x
  | .text s => text s
  | .torn letters => text (Letter.mended letters)
  | .list items => list (ofItems items)
  | .object fields => table (ofFields fields)

def ofItems : List Json → List Value
  | [] => []
  | item :: items => ofJson item :: ofItems items

def ofFields : List (String × Json) → List (String × Value)
  | [] => []
  | (name, value) :: fields => (name, ofJson value) :: ofFields fields

end

/-- The values that count as nothing: no value, `false`, zero and everything empty. -/
def isNothing : Value → Bool
  | nothing => true
  | flag b => !b
  | integer n => n == 0
  | real x => x.isZero
  | text s => s == ""
  | moment _ => false
  | list items => items.isEmpty
  | table fields => fields.isEmpty

/-- A field of a table; absent in every other value. -/
def field? (name : String) : Value → Option Value
  | table fields => (fields.find? fun field => field.1 == name).map (·.2)
  | _ => none

/-- The items over which a value can be gone through one by one. -/
def items? : Value → Option (List Value)
  | list items => some items
  | text s => some (s.toList.map fun c => text (String.ofList [c]))
  | table fields => some (fields.map fun field => text field.1)
  | _ => none

mutual

/-- A value as messages show it among others. -/
def shown : Value → String
  | nothing => "None"
  | flag b => if b then "True" else "False"
  | integer n => Text.writeInteger n
  | real x => x.text "inf" "nan"
  | text s => Text.shown s
  | moment m => m.shown
  | list items => "[" ++ ", ".intercalate (shownItems items) ++ "]"
  | table fields => "\x7b" ++ ", ".intercalate (shownFields fields) ++ "\x7d"

def shownItems : List Value → List String
  | [] => []
  | item :: items => shown item :: shownItems items

def shownFields : List (String × Value) → List String
  | [] => []
  | (name, value) :: fields => (Text.shown name ++ ": " ++ shown value) :: shownFields fields

end

/-- A text or a moment as it is, and any other value as messages show it. -/
def plain : Value → String
  | text s => s
  | moment m => m.text
  | value => shown value

end Value
end SchemaScript.Toml
