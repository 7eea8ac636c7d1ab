import SchemaScript.Sql.Keyword
import SchemaScript.Sql.Scan

/-!
# Readers

A reader takes lexemes from the front of a list. It looks ahead and never goes back, so that where it
refuses, the lexeme in front is the first one that no statement can have there.
-/

namespace SchemaScript.Sql

abbrev Reader (α : Type) :=
  StateT (List Lexeme) (Except Flaw) α

/-- Words that are always read together with the next one, which may change their meaning. -/
def pairedWords : List String :=
  ["format", "not", "nulls", "with", "without"]

/-- The flaw of the lexeme in front, or of the one behind a word that is read together with it. -/
def tornAhead? : List Lexeme → Option Flaw
  | ⟨.flawed flaw, _, _⟩ :: _ => some flaw
  | ⟨.word w, _, _⟩ :: ⟨.flawed flaw, _, _⟩ :: _ =>
    if pairedWords.contains w then some flaw else none
  | _ => none

/-- The flaw of a text whose remaining lexemes cannot go on. -/
def flawAt (rest : List Lexeme) : Flaw :=
  (tornAhead? rest).getD <|
    match rest with
    | [] => ⟨.endOfInput, none⟩
    | l :: _ => l.flaw

/-- The flaw of a text that breaks a rule, as is seen at the lexeme in front. -/
def ruleFlawAt (text : String) (rest : List Lexeme) : Flaw :=
  (tornAhead? rest).getD <|
    match rest with
    | [] => ⟨.ruleAt text "", none⟩
    | l :: _ => ⟨.ruleAt text l.source, some l.offset⟩

namespace Reader

def refuse {α : Type} : Reader α :=
  fun rest => .error (flawAt rest)

/-- Stops because of a rule beside the grammar; the flaw is said to be at `offset`. -/
def breach {α : Type} (text : String) (offset : Option Nat) : Reader α :=
  fun _ => .error ⟨.rule text, offset⟩

/-- Stops because of a rule beside the grammar that applies only once the lexeme in front is known, so
that a flaw of that lexeme comes first. -/
def lateBreach {α : Type} (text : String) (offset : Option Nat) : Reader α :=
  fun rest => .error ((tornAhead? rest).getD ⟨.rule text, offset⟩)

/-- Stops because of a rule beside the grammar, at the lexeme in front. -/
def breachHere {α : Type} (text : String) : Reader α :=
  fun rest => .error (ruleFlawAt text rest)

def ahead (n : Nat) : Reader (Option Token) :=
  fun rest => .ok (rest[n]?.map (·.token), rest)

def front : Reader (Option Token) :=
  ahead 0

/-- The place of the lexeme in front. -/
def place : Reader (Option Nat) :=
  fun rest => .ok (rest.head?.map (·.offset), rest)

def skip : Reader Unit :=
  fun rest => .ok ((), rest.tail)

def isAt (token : Token) : Reader Bool :=
  return (← front) == some token

/-- Takes the token if it is in front. -/
def accept (token : Token) : Reader Bool := do
  if ← isAt token then
    skip
    return true
  return false

def expect (token : Token) : Reader Unit := do
  unless ← accept token do refuse

def atWord (w : String) : Reader Bool :=
  isAt (.word w)

def acceptWord (w : String) : Reader Bool :=
  accept (.word w)

def word (w : String) : Reader Unit :=
  expect (.word w)

/-- Takes a keyword whose meaning the next word has changed. -/
def acceptJoined (w : String) : Reader Bool :=
  accept (.joined w)

/-- Takes the word `WITH`, whatever comes next. -/
def acceptWith : Reader Bool := do
  if ← acceptWord "with" then return true else acceptJoined "with"

def atSymbol (s : String) : Reader Bool :=
  isAt (.symbol s)

def acceptSymbol (s : String) : Reader Bool :=
  accept (.symbol s)

def symbol (s : String) : Reader Unit :=
  expect (.symbol s)

/-- Both hold; the second is not tried where the first does not hold. -/
def both (condition : Bool) (test : Reader Bool) : Reader Bool :=
  if condition then test else return false

/-- One of them holds; the second is not tried where the first holds. -/
def either (condition : Bool) (test : Reader Bool) : Reader Bool :=
  if condition then return true else test

/-- Words that follow each other. -/
def words : List String → Reader Unit
  | [] => pure ()
  | w :: ws => do
    word w
    words ws

/-- All these words are in front. -/
def atWords (ws : List String) : Reader Bool :=
  fun rest => .ok ((rest.take ws.length).map (·.token) == ws.map Token.word, rest)

/-- Takes the words if all of them are in front. -/
def acceptWords (ws : List String) : Reader Bool := do
  if ← atWords ws then
    words ws
    return true
  return false

/-- Takes the words if the first of them is in front; the others then have to follow. -/
def acceptPhrase : List String → Reader Bool
  | [] => return true
  | w :: ws => do
    if ← acceptWord w then
      words ws
      return true
    return false

/-- Takes one of these words, which has to be in front. -/
def oneOf (ws : List String) : Reader String := do
  match ← front with
  | some (.word w) =>
    if ws.contains w then
      skip
      return w
    refuse
  | _ => refuse

/-- Takes the first of these words that is in front. -/
def acceptAny : List String → Reader (Option String)
  | [] => return none
  | w :: ws => do
    if ← acceptWord w then return some w else acceptAny ws

/-- Repeats a step until it gives nothing more. Every step but the last takes a lexeme, so `limit`, the
number of lexemes, is never reached. -/
def repeatUpTo {α : Type} (step : α → Reader (Option α)) : Nat → α → Reader α
  | 0, a => pure a
  | limit + 1, a => do
    match ← step a with
    | some b => repeatUpTo step limit b
    | none => pure a

def repeated {α : Type} (step : α → Reader (Option α)) (a : α) : Reader α :=
  fun rest => repeatUpTo step (rest.length + 1) a rest

/-- Items one after another, as long as `next` finds one. -/
def many {α : Type} (next : Reader (Option α)) : Reader (List α) := do
  let found ← repeated (fun found => do return (← next).map (· :: found)) []
  return found.reverse

/-- Items with a separator between them, at least one. -/
def separated {α : Type} (separator : String) (item : Reader α) : Reader (List α) := do
  let first ← item
  let rest ← many do
    if ← acceptSymbol separator then return some (← item) else return none
  return first :: rest

def list {α : Type} (item : Reader α) : Reader (List α) :=
  separated "," item

def parenthesized {α : Type} (inner : Reader α) : Reader α := do
  symbol "("
  let a ← inner
  symbol ")"
  return a

/-- The lexemes after the parenthesis that closes the last of `depth` open ones. -/
def afterClosing : Nat → List Lexeme → List Lexeme
  | _, [] => []
  | 0, rest => rest
  | depth + 1, l :: rest =>
    if l.token == .symbol "(" then afterClosing (depth + 2) rest
    else if l.token == .symbol ")" then afterClosing depth rest
    else afterClosing (depth + 1) rest

/-- What is in front begins with a query between parentheses and goes on with that query. -/
def atExtendedQuery : Reader Bool :=
  fun rest =>
    match rest with
    | ⟨.symbol "(", _, _⟩ :: inner =>
      let begins := ((inner.dropWhile (·.token == .symbol "(")).head?.map (·.token)).any fun token =>
        token == .word "values" || token.opensQuery
      let goesOn := (afterClosing 1 inner).head?.any (·.token.extendsQuery)
      .ok (begins && goesOn, rest)
    | _ => .ok (false, rest)

/-- What `inner` reads, if the word is in front. -/
def afterWord {α : Type} (w : String) (inner : Reader α) : Reader (Option α) := do
  if ← acceptWord w then return some (← inner) else return none

/-- Between parentheses, if there are any. -/
def maybeParenthesized {α : Type} (inner : Reader α) : Reader (Option α) := do
  if ← atSymbol "(" then return some (← parenthesized inner) else return none

/-! ## Names and constants -/

/-- The name that a token writes, if it writes one; a bare word has to satisfy `allowed`. -/
def nameOf? (allowed : String → Bool) : Option Token → Option String
  | some (.word w) => if allowed w then some w else none
  | some (.quotedName name) => some name
  | _ => none

def nameWith (allowed : String → Bool) : Reader String := do
  match nameOf? allowed (← front) with
  | some name =>
    skip
    return name
  | none => refuse

/-- The name of a column or table. -/
def columnName : Reader String :=
  nameWith isColumnName

/-- The name of a function or type. -/
def functionName : Reader String :=
  nameWith isFunctionName

/-- A name where any word will do. -/
def label : Reader String :=
  nameWith fun _ => true

/-- A name of something that is neither column nor function. -/
def plainName : Reader String :=
  nameWith fun w => !isReservedKeyword w

/-- A word that no rule of the language gives a meaning. -/
def ownWord : Reader String :=
  nameWith fun w => !isKeyword w

def isColumnNameAhead (n : Nat) : Reader Bool :=
  return (nameOf? isColumnName (← ahead n)).isSome

/-- Names with points in front of them. -/
def pointedLabels : Reader (List String) :=
  many do
    if ← acceptSymbol "." then return some (← label) else return none

/-- A name with the names that lead to it. -/
def anyName : Reader (List String) :=
  return (← columnName) :: (← pointedLabels)

def text : Reader String := do
  match ← front with
  | some (.text value) =>
    skip
    return value
  | _ => refuse

def integer : Reader Nat := do
  match ← front with
  | some (.integer value) =>
    skip
    return value
  | _ => refuse

end Reader
end SchemaScript.Sql
