import SchemaScript.Sql.Name
import SchemaScript.Sql.Token
import SchemaScript.Text.Search
import SchemaScript.Text.Letter

/-!
# Taking SQL text apart

The longest word at the front of the text is taken, then the longest at the front of the rest, and so
on; blanks and comments between words are passed over. Every function here takes the characters that
are left and gives back those that are left after it.
-/

namespace SchemaScript.Sql

def isSpace (c : Char) : Bool :=
  c == ' ' || c == '\t' || c == '\n' || c == '\r' || c == '\x0b' || c == '\x0c'

def isNewline (c : Char) : Bool :=
  c == '\n' || c == '\r'

/-- Letters in any script, and the underscore. -/
def isNameStart (c : Char) : Bool :=
  c.isAlpha || c == '_' || 128 ≤ c.toNat

def isNameContinue (c : Char) : Bool :=
  isNameStart c || c.isDigit || c == '$'

def isOperatorChar (c : Char) : Bool :=
  "~!@#^&|`?+-*/%<>=".toList.contains c

/-- What was found at the front of the text. A place is given by the characters from there on. -/
inductive Scanned
  | word (token : Token) (rest : List Char)
  /-- A text with escapes that are still to be read; its end can say which character begins them. -/
  | escaped (isName : Bool) (content rest : List Char)
  | flawed (cause : Cause) (place : Option (List Char))

/-- The characters from one place to a later one. -/
def sourceBetween (start rest : List Char) : String :=
  String.ofList (start.take (start.length - rest.length))

/-- A flaw that is shown by the characters from one place to a later one. -/
def Scanned.flawedWord (flaw : WordFlaw) (start rest : List Char) : Scanned :=
  .flawed (.badWord flaw (sourceBetween start rest)) (if start.isEmpty then none else some start)

/-- A flaw at a place that is not shown. -/
def Scanned.flawedPlace (flaw : WordFlaw) (start : List Char) : Scanned :=
  .flawed (.rule flaw.message) (some start)

/-! ## Names -/

/-- Names hold at most this many bytes. -/
def nameBytes : Nat :=
  63

/-- The characters at the front that fit into so many bytes. -/
def clip : Nat → List Char → List Char
  | _, [] => []
  | room, c :: r => if c.utf8Size ≤ room then c :: clip (room - c.utf8Size) r else []

def clipName (name : List Char) : String :=
  String.ofList (clip nameBytes name)

/-- The text up to the quote that closes a quoted name; a quote inside is written twice. -/
def quotedInside : List Char → Option (List Char × List Char)
  | [] => none
  | '"' :: '"' :: r => (quotedInside r).map fun found => ('"' :: found.1, found.2)
  | '"' :: r => some ([], r)
  | c :: r => (quotedInside r).map fun found => (c :: found.1, found.2)

/-- A quoted name, after its opening quote; the whole of it begins at `start`. -/
def quotedWord (start s : List Char) (word : List Char → List Char → Scanned) : Scanned :=
  match quotedInside s with
  | none => .flawedWord .openName start []
  | some ([], r) => .flawedWord .emptyName start r
  | some (name, r) => word name r

def bareName (s : List Char) : Scanned :=
  .word (.word (clipName ((s.takeWhile isNameContinue).map Char.toLower)))
    (s.dropWhile isNameContinue)

/-! ## Texts -/

/-- Where a text goes on in a later line: blanks and comments that hold a line end, then a quote. -/
inductive Gap
  | line
  | comment (newline : Bool)
  | nextLine

def continued : Gap → List Char → Option (List Char)
  | _, [] => none
  | .comment newline, c :: r =>
    if isNewline c then continued .nextLine r else continued (.comment newline) r
  | .line, '-' :: '-' :: r => continued (.comment false) r
  | .nextLine, '-' :: '-' :: r => continued (.comment true) r
  | .line, c :: r =>
    if isNewline c then continued .nextLine r
    else if isSpace c then continued .line r
    else none
  | .nextLine, '\'' :: r => some r
  | .nextLine, c :: r => if isSpace c then continued .nextLine r else none

/-- What stands between two quotes, as far as it can be read. -/
inductive Inside (α : Type)
  | closed (content : List α) (rest : List Char)
  | unclosed
  | flawed (flaw : WordFlaw) (isShown : Bool) (start rest : List Char)

namespace Inside

def after {α : Type} (front : List α) : Inside α → Inside α
  | closed content rest => closed (front ++ content) rest
  | other => other

def ofOption {α : Type} : Option (List α × List Char) → Inside α
  | some (content, rest) => closed content rest
  | none => unclosed

/-- Reads the parts of a text up to the last one. `part` reads one part after its opening quote;
`parts` bounds their number. -/
def whole {α : Type} (part : List Char → Inside α) : Nat → List Char → Inside α
  | 0, s => part s
  | parts + 1, s =>
    match part s with
    | closed content r =>
      match continued .line r with
      | none => closed content r
      | some t => (whole part parts t).after content
    | other => other

/-- The word that the content makes; the whole of it begins at `start`. -/
def scanned {α : Type} (openFlaw : WordFlaw) (start : List Char)
    (word : List α → List Char → Scanned) : Inside α → Scanned
  | closed content rest => word content rest
  | unclosed => .flawedWord openFlaw start []
  | flawed flaw true place rest => .flawedWord flaw place rest
  | flawed flaw false place _ => .flawedPlace flaw place

end Inside

/-! ## Escapes -/

def octalValue? (c : Char) : Option Nat :=
  if '0' ≤ c && c ≤ '7' then some (c.toNat - 48) else none

def hexValue? (c : Char) : Option Nat :=
  if '0' ≤ c && c ≤ '9' then some (c.toNat - 48)
  else if 'a' ≤ c && c ≤ 'f' then some (c.toNat - 87)
  else if 'A' ≤ c && c ≤ 'F' then some (c.toNat - 55)
  else none

/-- The number written by the digits at the front, of which at most `limit` count, and how many. -/
def shortNumber (digit? : Char → Option Nat) (base : Nat) : Nat → List Char → Nat × Nat
  | 0, _ => (0, 0)
  | limit + 1, s =>
    let digits := (s.take (limit + 1)).takeWhile fun c => (digit? c).isSome
    (digits.foldl (fun n c => base * n + (digit? c).getD 0) 0, digits.length)

/-- The number that exactly so many digits in base 16 write at the front. -/
def hexNumber? (width : Nat) (s : List Char) : Option Nat :=
  let (n, found) := shortNumber hexValue? 16 width s
  if found == width then some n else none

/-- The first half of a pair that stands for one character. -/
def isHighSurrogate (n : Nat) : Bool :=
  0xd800 ≤ n && n ≤ 0xdbff

def isLowSurrogate (n : Nat) : Bool :=
  0xdc00 ≤ n && n ≤ 0xdfff

def pairedChar (high low : Nat) : Char :=
  Char.ofNat ((high - 0xd800) * 0x400 + (low - 0xdc00) + 0x10000)

def isCodePoint (n : Nat) : Bool :=
  0 < n && n ≤ 0x10ffff

def escapedChar : Char → Char
  | 'b' => '\x08'
  | 'f' => '\x0c'
  | 'n' => '\n'
  | 'r' => '\r'
  | 't' => '\t'
  | 'v' => '\x0b'
  | c => c

/-- The bytes that an escape without a code point stands for, and how many characters it takes after
the backslash. -/
def byteEscape : List Char → List Nat × Nat
  | [] => ([92], 0)
  | c :: r =>
    if (octalValue? c).isSome then
      let (n, width) := shortNumber octalValue? 8 3 (c :: r)
      ([n % 256], width)
    else if c == 'x' && (r.head?.bind hexValue?).isSome then
      let (n, width) := shortNumber hexValue? 16 2 r
      ([n], width + 1)
    else (Text.utf8 (escapedChar c), 1)

/-- How many digits a code point has after this letter. -/
def codePointDigits? : Char → Option Nat
  | 'u' => some 4
  | 'U' => some 8
  | _ => none

/-- One part of a text with escapes, as bytes. The next `skip` characters are already read; `high` is a
first half that waits for its second. -/
def escapedInside : Option Nat → Nat → List Char → Inside Nat
  | none, _, [] => .unclosed
  | some _, _, [] => .flawed .surrogatePair true [] []
  | high, skip + 1, _ :: r => escapedInside high skip r
  | none, 0, '\'' :: '\'' :: r => (escapedInside none 0 r).after [39]
  | none, 0, '\'' :: r => .closed [] r
  | high, 0, '\\' :: c :: r =>
    match codePointDigits? c, high with
    | some width, _ =>
      let place := '\\' :: c :: r
      match hexNumber? width r, high with
      | none, _ => .flawed .unicodeEscape false place r
      | some n, some first =>
        if isLowSurrogate n then
          (escapedInside none (width + 1) (c :: r)).after (Text.utf8 (pairedChar first n))
        else .flawed .surrogatePair true place (r.drop width)
      | some n, none =>
        if isHighSurrogate n then escapedInside (some n) (width + 1) (c :: r)
        else if isLowSurrogate n then .flawed .surrogatePair true place (r.drop width)
        else if isCodePoint n then
          (escapedInside none (width + 1) (c :: r)).after (Text.utf8 (Char.ofNat n))
        else .flawed .unicodeValue true place (r.drop width)
    | none, some _ => .flawed .surrogatePair true ('\\' :: c :: r) (c :: r)
    | none, none =>
      let (bytes, width) := byteEscape (c :: r)
      (escapedInside none width (c :: r)).after bytes
  | some _, 0, c :: r => .flawed .surrogatePair true (c :: r) r
  | none, 0, c :: r => (escapedInside none 0 r).after (Text.utf8 c)

/-- The text that bytes write. -/
def byteText (bytes : List Nat) (rest : List Char) : Scanned :=
  match Text.ofUtf8 bytes with
  | .ok content => .word (.text (String.ofList content)) rest
  | .error found => .flawed (.badBytes found) none

/-- The code point after an escape character, and how many characters write it. -/
def codePoint? (s : List Char) : Option (Nat × Nat) :=
  match hexNumber? 4 s with
  | some n => some (n, 4)
  | none =>
    match s with
    | '+' :: r => (hexNumber? 6 r).map fun n => (n, 7)
    | _ => none

/-- Reads the code points that stand after an escape character. A flaw comes with the characters that
are left at its place. -/
def unescaped (escape : Char) : Option Nat → Nat → List Char →
    Except (WordFlaw × List Char) (List Char)
  | none, _, [] => .ok []
  | some _, _, [] => .error (.surrogatePair, [])
  | high, skip + 1, _ :: r => unescaped escape high skip r
  | high, 0, c :: r =>
    if c != escape then
      if high.isSome then .error (.surrogatePair, c :: r)
      else (unescaped escape none 0 r).map (c :: ·)
    else if r.head? == some escape then
      if high.isSome then .error (.surrogatePair, c :: r)
      else (unescaped escape none 1 r).map (escape :: ·)
    else
      match codePoint? r, high with
      | none, _ => .error (.unicodeEscape, c :: r)
      | some (n, width), some first =>
        if isLowSurrogate n then
          (unescaped escape none width r).map (pairedChar first n :: ·)
        else if isCodePoint n then .error (.surrogatePair, c :: r)
        else .error (.unicodeValue, c :: r)
      | some (n, width), none =>
        if isHighSurrogate n then unescaped escape (some n) width r
        else if isLowSurrogate n then .error (.surrogatePair, c :: r)
        else if isCodePoint n then (unescaped escape none width r).map (Char.ofNat n :: ·)
        else .error (.unicodeValue, c :: r)

/-- The word can begin code points in a text. -/
def isEscapeCharacter (c : Char) : Bool :=
  c.toNat < 128 && !((hexValue? c).isSome || c == '+' || c == '\'' || c == '"' || isSpace c)

/-! ## Words with quotes -/

def textWord (content rest : List Char) : Scanned :=
  .word (.text (String.ofList content)) rest

/-- A text after its opening quote; the whole of it begins at `start`. -/
def plainText (start s : List Char) (word : List Char → List Char → Scanned) : Scanned :=
  (Inside.whole (fun s => .ofOption (scanLiteral s)) s.length s).scanned .openText start word

def escapedText (start s : List Char) : Scanned :=
  (Inside.whole (escapedInside none 0) s.length s).scanned .openText start byteText

/-- The characters up to the next quote. -/
def bitsInside : List Char → Inside Char
  | [] => .unclosed
  | '\'' :: r => .closed [] r
  | c :: r => (bitsInside r).after [c]

def bitText (lead : Char) (flaw : WordFlaw) (start s : List Char) : Scanned :=
  (Inside.whole bitsInside s.length s).scanned flaw start fun content rest =>
    .word (.bits (String.ofList (lead :: content))) rest

/-! ## Dollar quotes and parameters -/

/-- What stands before the first occurrence of `mark`, and after it. -/
def splitFirst (mark : List Char) : List Char → Option (List Char × List Char)
  | [] => if mark.isEmpty then some ([], []) else none
  | c :: r =>
    if mark.isPrefixOf (c :: r) then some ([], (c :: r).drop mark.length)
    else (splitFirst mark r).map fun found => (c :: found.1, found.2)

/-- The name between the dollars of an opening delimiter, and what follows it. -/
def dollarTag? (s : List Char) : Option (List Char × List Char) :=
  let isTagChar (c : Char) : Bool := isNameStart c || c.isDigit
  let tag := if (s.head?.map isNameStart).getD false then s.takeWhile isTagChar else []
  match s.drop tag.length with
  | '$' :: r => some (tag, r)
  | _ => none

def digitsValue (digits : List Char) : Nat :=
  digits.foldl (fun n c => 10 * n + (c.toNat - 48)) 0

/-- The largest number that is a plain integer. -/
def largestInteger : Nat :=
  2147483647

/-- What begins with a dollar, after it. -/
def dollarWord (s : List Char) : Scanned :=
  match s.takeWhile Char.isDigit with
  | [] =>
    match dollarTag? s with
    | none => .word (.symbol "$") s
    | some (tag, r) =>
      match splitFirst ('$' :: tag ++ ['$']) r with
      | some (body, t) => .word (.text (String.ofList body)) t
      | none => .flawedWord .openDollarQuote ('$' :: s) []
  | digits =>
    let r := s.drop digits.length
    if digitsValue digits ≤ largestInteger then .word (.parameter (digitsValue digits)) r
    else .flawedWord .largeParameter ('$' :: s) r

/-! ## Numbers -/

/-- Digits at the front, with single underscores between them. -/
def digitRun (isDigit : Char → Bool) : List Char → List Char
  | '_' :: c :: r => if isDigit c then '_' :: c :: digitRun isDigit r else []
  | c :: r => if isDigit c then c :: digitRun isDigit r else []
  | [] => []

/-- A run that does not begin with an underscore. -/
def decimalRun (s : List Char) : List Char :=
  match s with
  | c :: _ => if c.isDigit then digitRun Char.isDigit s else []
  | [] => []

/-- An exponent: its sign and digits after the letter. `none` is a sign without digits. -/
def exponentRun (s : List Char) : Option (List Char) :=
  match s with
  | e :: r =>
    if e == 'e' || e == 'E' then
      match r with
      | sign :: t =>
        if sign == '+' || sign == '-' then
          match decimalRun t with
          | [] => none
          | digits => some (e :: sign :: digits)
        else
          match decimalRun r with
          | [] => some []
          | digits => some (e :: digits)
      | [] => some []
    else some []
  | [] => some []

def integerToken (value : Nat) (written : List Char) : Token :=
  if value ≤ largestInteger then .integer value else .number (String.ofList written)

/-- A number in another base than ten, whose digits follow its first two characters. -/
def basedNumber (isDigit : Char → Bool) (base : Nat) (flaw : WordFlaw) (s : List Char) : Scanned :=
  let r := s.drop 2
  let digits :=
    match r with
    | '_' :: c :: _ => if isDigit c then digitRun isDigit r else []
    | _ => if (r.head?.map isDigit).getD false then digitRun isDigit r else []
  let run := (s.drop 1).takeWhile isNameContinue
  let own := if digits.isEmpty && r.head? == some '_' then 1 else digits.length
  if 1 + own < run.length then .flawedWord .junkAfterNumber s (s.drop (1 + run.length))
  else if digits.isEmpty then .flawedWord flaw s (r.drop own)
  else
    let value := digits.foldl
      (fun n c => if c == '_' then n else base * n + (hexValue? c).getD 0) 0
    .word (integerToken value (s.take (2 + own))) (r.drop own)

/-- A decimal number; `s` begins with a digit, or with a point and a digit. -/
def decimalNumber (s : List Char) : Scanned :=
  let whole := decimalRun s
  let r := s.drop whole.length
  let fraction :=
    match r with
    | '.' :: '.' :: _ => []
    | '.' :: t => '.' :: decimalRun t
    | _ => []
  let r := r.drop fraction.length
  match exponentRun r with
  | none => .flawedWord .junkAfterNumber s (r.drop 2)
  | some exponent =>
    let written := whole ++ fraction ++ exponent
    let r := r.drop exponent.length
    if (r.head?.map isNameStart).getD false then
      .flawedWord .junkAfterNumber s (r.dropWhile isNameContinue)
    else if fraction.isEmpty && exponent.isEmpty then
      .word (integerToken (digitsValue (whole.filter (· != '_'))) written) r
    else .word (.number (String.ofList written)) r

def numberWord (s : List Char) : Scanned :=
  match s with
  | '0' :: c :: _ =>
    if c == 'x' || c == 'X' then
      basedNumber (fun d => (hexValue? d).isSome) 16 .badHexNumber s
    else if c == 'o' || c == 'O' then
      basedNumber (fun d => (octalValue? d).isSome) 8 .badOctalNumber s
    else if c == 'b' || c == 'B' then
      basedNumber (fun d => d == '0' || d == '1') 2 .badBinaryNumber s
    else decimalNumber s
  | _ => decimalNumber s

/-! ## Operators -/

/-- The characters before a comment begins. -/
def beforeComment : List Char → List Char
  | '-' :: '-' :: _ => []
  | '/' :: '*' :: _ => []
  | c :: r => c :: beforeComment r
  | [] => []

/-- An operator that ends with a plus or minus has to hold one of these characters. -/
def allowsFinalSign (c : Char) : Bool :=
  "~!@#^&|`?%".toList.contains c

/-- Drops final signs, last character first, but not the first character of the operator. -/
def dropFinalSigns : List Char → List Char
  | [c] => [c]
  | c :: r => if c == '+' || c == '-' then dropFinalSigns r else c :: r
  | [] => []

/-- The longest operator at the front; `s` begins with an operator character. -/
def operatorRun (s : List Char) : List Char :=
  let run := beforeComment (s.takeWhile isOperatorChar)
  if run.any allowsFinalSign then run else (dropFinalSigns run.reverse).reverse

/-- An operator, with the one spelling of inequality. -/
def operatorWord (s : List Char) : Scanned :=
  let run := operatorRun s
  let r := s.drop run.length
  if nameBytes < run.length then .flawedWord .longOperator s r
  else .word (.symbol (if run == ['!', '='] then "<>" else String.ofList run)) r

/-! ## Words -/

/-- The end of a comment that is open `depth + 1` times. -/
def commentEnd : Nat → List Char → Option (List Char)
  | _, [] => none
  | depth, '/' :: '*' :: r => commentEnd (depth + 1) r
  | 0, '*' :: '/' :: r => some r
  | depth + 1, '*' :: '/' :: r => commentEnd depth r
  | depth, _ :: r => commentEnd depth r

/-- A text or name behind a letter that says how to read it. -/
def letteredWord? : List Char → Option Scanned
  | c :: '\'' :: r =>
    let s := c :: '\'' :: r
    if c == 'e' || c == 'E' then some (escapedText s r)
    else if c == 'b' || c == 'B' then some (bitText 'b' .openBits s r)
    else if c == 'x' || c == 'X' then some (bitText 'x' .openHexBits s r)
    else if c == 'n' || c == 'N' then some (.word (.word "nchar") ('\'' :: r))
    else none
  | c :: '&' :: q :: r =>
    let s := c :: '&' :: q :: r
    if c != 'u' && c != 'U' then none
    else if q == '\'' then some (plainText s r (.escaped false))
    else if q == '"' then some (quotedWord s r (.escaped true))
    else none
  | _ => none

/-- A word that its first characters alone tell apart from others. -/
def plainWord : List Char → Scanned
  | [] => .word (.symbol "") []
  | '\'' :: r => plainText ('\'' :: r) r textWord
  | '"' :: r => quotedWord ('"' :: r) r fun name rest => .word (.quotedName (clipName name)) rest
  | '$' :: r => dollarWord r
  | ':' :: ':' :: r => .word (.symbol "::") r
  | ':' :: '=' :: r => .word (.symbol ":=") r
  | '.' :: '.' :: r => .word (.symbol "..") r
  | '.' :: c :: r => if c.isDigit then decimalNumber ('.' :: c :: r) else .word (.symbol ".") (c :: r)
  | c :: r =>
    if isNameStart c then bareName (c :: r)
    else if c.isDigit then numberWord (c :: r)
    else if isOperatorChar c then operatorWord (c :: r)
    else .word (.symbol (String.ofList [c])) r

/-- The word at the front of a text that begins with neither blank nor comment. -/
def nextWord (s : List Char) : Scanned :=
  (letteredWord? s).getD (plainWord s)

/-- The text after blanks and comments at its front; a comment without an end stays. -/
def skipGap : Nat → List Char → List Char
  | 0, s => s
  | steps + 1, s =>
    match s with
    | '-' :: '-' :: r => skipGap steps (r.dropWhile fun c => !isNewline c)
    | '/' :: '*' :: r =>
      match commentEnd 0 r with
      | some t => skipGap steps t
      | none => s
    | c :: r => if isSpace c then skipGap steps (r.dropWhile isSpace) else s
    | [] => []

/-- The text from its first word on, and that word; none at the end. -/
def firstWord (s : List Char) : List Char × Option Scanned :=
  let t := skipGap (s.length + 1) s
  match t with
  | [] => ([], none)
  | '/' :: '*' :: _ => (t, some (.flawedWord .openComment t []))
  | _ => (t, some (nextWord t))

/-- A text or name whose escapes begin with `escape`; it stands at `start` and ends before `rest`. The
place of a flaw is counted from the front of what stands between the quotes. -/
def unescapedWord (isName : Bool) (escape : Char) (content start rest : List Char) : Scanned :=
  match unescaped escape none 0 content with
  | .ok value =>
    .word (if isName then .quotedName (clipName value) else .text (String.ofList value)) rest
  | .error (flaw, left) => .flawedPlace flaw (start.drop (3 + (content.length - left.length)))

/-- What the words after a text or name say about its escapes. -/
def withEscapes (isName : Bool) (content start rest : List Char) : Scanned :=
  let plain := unescapedWord isName '\\' content start rest
  match firstWord rest with
  | (_, some (.flawed cause place)) => .flawed cause place
  | (_, some (.word (.word "uescape") r)) =>
    match firstWord r with
    | (_, some (.flawed cause place)) => .flawed cause place
    | (t, some (.word (.text value) end?)) =>
      match value.toList with
      | [c] =>
        if isEscapeCharacter c then unescapedWord isName c content start end?
        else .flawedWord .escapeCharacter t end?
      | _ => .flawedWord .escapeCharacter t end?
    | (t, some (.word _ r)) | (t, some (.escaped _ _ r)) => .flawedWord .missingEscapeCharacter t r
    | (_, none) => .flawedWord .missingEscapeCharacter [] []
  | _ => plain

/-- The words of a text that begins `offset` characters into the whole. Nothing is read after a flaw.
`steps` bounds the number of words. -/
def scanFrom : Nat → Nat → List Char → List Lexeme
  | 0, _, _ => []
  | steps + 1, offset, s =>
    let (t, found?) := firstWord s
    let start := offset + (s.length - t.length)
    let found :=
      match found? with
      | some (.escaped isName content rest) => some (withEscapes isName content t rest)
      | other => other
    match found with
    | some (.word token r) =>
      let width := t.length - r.length
      ⟨token, start, sourceBetween t r⟩ :: scanFrom steps (start + width) r
    | some (.flawed cause place) =>
      let offset := place.map fun p => start + t.length - p.length
      [⟨.flawed ⟨cause, offset⟩, start, ""⟩]
    | _ => []

/-- A text ends at its first zero character. -/
def scan (s : String) : List Lexeme :=
  let s := s.toList.takeWhile (· != '\x00')
  Lexeme.joinAll (scanFrom (s.length + 1) 0 s)

end SchemaScript.Sql
