import SchemaScript.Text.Integer
import SchemaScript.Text.Letter
import SchemaScript.Text.Quoted

/-!
# Words of SQL text, and flaws in it

What the scanner finds, and why it refuses a text.
-/

/-!
## Flaws in SQL text

Why a text was refused, and at which character. A text that merely ends too soon has no position.
-/

namespace SchemaScript.Sql

/-- What can be wrong with a single word of the text. -/
inductive WordFlaw
  | openText
  | openName
  | openDollarQuote
  | openBits
  | openHexBits
  | openComment
  | emptyName
  | junkAfterNumber
  | badHexNumber
  | badOctalNumber
  | badBinaryNumber
  | largeParameter
  | longOperator
  | unicodeEscape
  | unicodeValue
  | surrogatePair
  | escapeCharacter
  | missingEscapeCharacter
  deriving DecidableEq, Repr

def WordFlaw.message : WordFlaw → String
  | openText => "unterminated quoted string"
  | openName => "unterminated quoted identifier"
  | openDollarQuote => "unterminated dollar-quoted string"
  | openBits => "unterminated bit string literal"
  | openHexBits => "unterminated hexadecimal string literal"
  | openComment => "unterminated /* comment"
  | emptyName => "zero-length delimited identifier"
  | junkAfterNumber => "trailing junk after numeric literal"
  | badHexNumber => "invalid hexadecimal integer"
  | badOctalNumber => "invalid octal integer"
  | badBinaryNumber => "invalid binary integer"
  | largeParameter => "parameter number too large"
  | longOperator => "operator too long"
  | unicodeEscape => "invalid Unicode escape"
  | unicodeValue => "invalid Unicode escape value"
  | surrogatePair => "invalid Unicode surrogate pair"
  | escapeCharacter => "invalid Unicode escape character"
  | missingEscapeCharacter => "UESCAPE must be followed by a simple string literal"

inductive Cause
  /-- The grammar has no place for this word. -/
  | unexpected (word : String)
  | endOfInput
  /-- A word that cannot be read. -/
  | badWord (flaw : WordFlaw) (word : String)
  /-- Bytes of a text that write no character. -/
  | badBytes (bytes : List Nat)
  /-- The text is torn, so it has no bytes at all. -/
  | tornText (gap : Letter.Gap)
  /-- A rule beside the grammar is broken; the text names it. -/
  | rule (text : String)
  /-- A rule beside the grammar is broken, as is seen at a word. -/
  | ruleAt (text word : String)
  deriving DecidableEq, Repr

structure Flaw where
  cause : Cause
  /-- The number of characters before the place. -/
  offset : Option Nat
  deriving DecidableEq, Repr

/-- What a message is about; the empty word is the end of the text. -/
def Cause.about (text word : String) : String :=
  if word == "" then text ++ " at end of input" else text ++ " at or near \"" ++ word ++ "\""

/-- A byte in base 16. -/
def Cause.byteText (byte : Nat) : String :=
  "0x" ++ String.ofList (Text.hex 2 byte)

/-- Which letters of a torn text have no bytes; positions count from zero. -/
def Cause.gapText (gap : Letter.Gap) : String :=
  if gap.length == 1 then
    "character '\\u" ++ String.ofList (Text.hex 4 gap.unit) ++ "' in position " ++
      Text.writeNatural gap.position
  else
    "characters in position " ++ Text.writeNatural gap.position ++ "-" ++
      Text.writeNatural (gap.position + gap.length - 1)

def Cause.message : Cause → String
  | unexpected word => about "syntax error" word
  | endOfInput => "syntax error at end of input"
  | badWord flaw word => about flaw.message word
  | badBytes bytes =>
    "invalid byte sequence for encoding \"UTF8\": " ++ " ".intercalate (bytes.map byteText)
  | tornText gap => "'utf-8' codec can't encode " ++ gapText gap ++ ": surrogates not allowed"
  | rule text => text
  | ruleAt text word => about text word

def Flaw.message (flaw : Flaw) : String :=
  match flaw.offset with
  | some n => flaw.cause.message ++ ", at index " ++ Text.writeNatural n
  | none => flaw.cause.message

/-!
## Words of SQL text

A lexeme is a word together with the place where it stands and the characters that write it.
-/

inductive Token
  /-- A bare name or a keyword, folded to lower case. -/
  | word (name : String)
  /-- A keyword that has another meaning than elsewhere because of the word behind it. -/
  | joined (name : String)
  | quotedName (name : String)
  | text (value : String)
  /-- A bit string, written with its leading `b` or `x`. -/
  | bits (written : String)
  | integer (value : Nat)
  /-- A number that is no small integer, as it was written. -/
  | number (written : String)
  | parameter (number : Nat)
  | symbol (characters : String)
  /-- Characters that make up no word. -/
  | flawed (flaw : Flaw)
  deriving DecidableEq, Repr, Inhabited

def Token.isText : Token → Bool
  | text _ => true
  | _ => false

/-- A word that begins a query and is never a name. -/
def Token.opensQuery : Token → Bool
  | word name => ["select", "table", "with"].contains name
  | joined name => name == "with"
  | _ => false

/-- A word that goes on with a query which began between parentheses. -/
def Token.extendsQuery : Token → Bool
  | word name =>
    ["except", "fetch", "for", "intersect", "limit", "offset", "order", "union"].contains name
  | _ => false

/-- A word in front of which the items of a selection end. -/
def Token.endsItems : Token → Bool
  | symbol characters => [")", ",", ";"].contains characters
  | word name =>
    ["create", "except", "fetch", "for", "from", "grant", "group", "having", "intersect", "into",
      "limit", "offset", "on", "order", "returning", "union", "where", "window", "with"].contains name
  | joined name => name == "format"
  | _ => false

/-- A keyword changes its meaning in front of the word `next`. -/
def isJoined (name next : String) : Bool :=
  match name with
  | "format" => next == "json"
  | "not" => ["between", "ilike", "in", "like", "similar"].contains next
  | "nulls" => next == "first" || next == "last"
  | "with" => next == "ordinality" || next == "time"
  | "without" => next == "time"
  | _ => false

structure Lexeme where
  token : Token
  offset : Nat
  source : String
  deriving DecidableEq, Repr, Inhabited

/-- Tells the keywords whose meaning depends on the word behind them. -/
def Lexeme.joinAll : List Lexeme → List Lexeme
  | l :: next :: rest =>
    let joined :=
      match l.token, next.token with
      | .word name, .word other =>
        if isJoined name other then { l with token := .joined name } else l
      | _, _ => l
    joined :: joinAll (next :: rest)
  | rest => rest

/-- The flaw of a text that has no place for this lexeme. -/
def Lexeme.flaw (l : Lexeme) : Flaw :=
  match l.token with
  | .flawed flaw => flaw
  | _ => ⟨.unexpected l.source, some l.offset⟩

end SchemaScript.Sql
