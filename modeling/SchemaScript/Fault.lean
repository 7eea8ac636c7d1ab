import SchemaScript.Json.Reader
import SchemaScript.Sql.Token
import SchemaScript.Text.Quoted

/-!
# Faults

Everything that can go wrong while a catalog is read, filtered or rendered.
-/

namespace SchemaScript

/-- Why a file could not be opened. -/
inductive FileFlaw
  | missing
  | directory
  | notDirectory
  | nameTooLong
  /-- The path holds the character that ends texts for the system. -/
  | nullCharacter
  deriving DecidableEq, Repr

def FileFlaw.message (flaw : FileFlaw) (path : String) : String :=
  match flaw with
  | missing => "[Errno 2] No such file or directory: " ++ Text.shown path
  | directory => "[Errno 21] Is a directory: " ++ Text.shown path
  | notDirectory => "[Errno 20] Not a directory: " ++ Text.shown path
  | nameTooLong => "[Errno 36] File name too long: " ++ Text.shown path
  | nullCharacter => "embedded null byte"

/-- The choices that a field with a closed set of values offers. -/
inductive Choice
  | tableKind
  | constraintKind
  | indexKind
  | timing
  | event
  | level
  | typeKind
  | policyCommand
  deriving DecidableEq, Repr

def Choice.name : Choice → String
  | tableKind => "TableType"
  | constraintKind => "ConstraintType"
  | indexKind => "IndexType"
  | timing => "TriggerTiming"
  | event => "TriggerEvent"
  | level => "TriggerLevel"
  | typeKind => "TypeKind"
  | policyCommand => "PolicyCommand"

inductive Fault
  /-- The SQL text was refused. -/
  | sql (flaw : Sql.Flaw)
  /-- The text is not JSON. -/
  | json (flaw : Json.Flaw)
  | file (flaw : FileFlaw) (path : String)
  /-- A field with a closed set of values holds another one, shown here as messages show it. -/
  | notAChoice (choice : Choice) (shown : String)
  | notANumber (written : String)
  /-- A pair was needed, and the item there has another length. -/
  | notAPair (index length : Nat)
  | rowTooShort (expected found : Nat)
  | rowTooLong (expected : Nat)
  | noSqlFiles (directory : String)
  | unknownSource (source : String)
  | connection (reason : String)
  | noIgnoreFile (path : String)
  | ignoreFile (path : String)
  /-- An object lacks a field that has no default. -/
  | missingField
  /-- A value is not an object where an object's fields are read. -/
  | notAnObject
  /-- A value has a form that cannot be used here at all. -/
  | wrongForm
  | schemaWithoutName
  /-- A code that stands for no kind of object. -/
  | unknownCode
  /-- No object goes by this name. -/
  | unknownName
  | missingColumn
  /-- Values of several kinds cannot be put in order. -/
  | unordered
  /-- Something else stands where the letters of a text are needed. -/
  | notAText
  /-- A column definition needs a name and a type. -/
  | incompleteColumn
  /-- A schema without a name cannot be listed; beside others it stood `first` or after one. -/
  | namelessSchema (first : Option Bool)
  /-- A comment names a column but no table. -/
  | columnWithoutTable
  deriving DecidableEq, Repr

namespace Fault

/-- What is told about the fault. -/
def message : Fault → String
  | sql flaw => "Failed to parse SQL: " ++ flaw.message
  | json flaw => flaw.message
  | file flaw path => flaw.message path
  | notAChoice choice shown => shown ++ " is not a valid " ++ choice.name
  | notANumber written => "invalid literal for int() with base 10: " ++ Text.shown written
  | notAPair index length =>
    "dictionary update sequence element #" ++ Text.writeNatural index ++ " has length " ++
      Text.writeNatural length ++ "; 2 is required"
  | rowTooShort expected found =>
    "not enough values to unpack (expected " ++ Text.writeNatural expected ++ ", got " ++
      Text.writeNatural found ++ ")"
  | rowTooLong expected =>
    "too many values to unpack (expected " ++ Text.writeNatural expected ++ ")"
  | noSqlFiles directory => "No .sql files found in directory: " ++ directory
  | unknownSource source => "Source type not supported: " ++ source
  | connection reason => "Failed to inspect database: " ++ reason
  | noIgnoreFile path => "Ignore file not found: " ++ path
  | ignoreFile path => "Failed to parse ignore file " ++ path
  | namelessSchema none => "sequence item 0: expected str instance, NoneType found"
  | namelessSchema (some true) => "'<' not supported between instances of 'str' and 'NoneType'"
  | namelessSchema (some false) => "'<' not supported between instances of 'NoneType' and 'str'"
  | columnWithoutTable => "list index out of range"
  | missingField => "a required field is missing"
  | notAnObject => "a value is not an object"
  | wrongForm => "a value has the wrong form"
  | schemaWithoutName => "a schema has no name"
  | unknownCode => "an unknown code"
  | unknownName => "an unknown name"
  | missingColumn => "no such column"
  | unordered => "values of several kinds cannot be ordered"
  | notAText => "a value is not a text"
  | incompleteColumn => "a column has no name or no type"

/-- Faults in what a caller handed over, which a command reports and survives. -/
def isInput : Fault → Bool
  | sql _ | json _ | file _ _ | notAChoice _ _ | notANumber _ | notAPair _ _ | rowTooShort _ _
  | rowTooLong _ | noSqlFiles _ | unknownSource _ | connection _ | noIgnoreFile _
  | ignoreFile _ => true
  | _ => false

end Fault
end SchemaScript
