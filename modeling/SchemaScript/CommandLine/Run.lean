import SchemaScript.Script.Diff
import SchemaScript.Source.Load
import SchemaScript.Text.Integer
import SchemaScript.Text.Search

/-!
# The command line

From the words of a command line to what it prints.
-/

/-!
## Arguments

A command line is a list of words, of which some are options. An option has long names, which may be
cut short as long as only one fits, and short ones, of which several may stand in one word. A value
follows its option or stands in the same word. After two hyphens every word is plain.
-/

namespace SchemaScript.CommandLine

structure Switch where
  names : List String
  takesValue : Bool := false
  deriving DecidableEq, Repr

/-- What a word looks like by itself. -/
inductive Mark
  | plain
  | divider
  | known (switch : Switch) (name : String) (given : Option String)
  | unknown
  deriving DecidableEq, Repr

def Switch.named? (switches : List Switch) (name : String) : Option Switch :=
  switches.find? fun s => s.names.contains name

/-- A number below zero is a plain word. -/
def isNegativeNumber (word : List Char) : Bool :=
  let isDigit (c : Char) : Bool := (Text.digit? c).isSome
  match word with
  | '-' :: body =>
    let body := if body.getLast? == some '\n' then body.dropLast else body
    let whole := body.takeWhile isDigit
    match body.dropWhile isDigit with
    | [] => !whole.isEmpty
    | '.' :: fraction => !fraction.isEmpty && fraction.all isDigit
    | _ => false
  | _ => false

/-- The words before and after the first equals sign. -/
def splitValue? (word : List Char) : Option (String × String) :=
  match word.dropWhile (· != '=') with
  | _ :: value => some (String.ofList (word.takeWhile (· != '=')), String.ofList value)
  | [] => none

/-- The options that a word may mean which is not the whole name of one. -/
def candidates (switches : List Switch) (word : List Char) : List Mark :=
  match word with
  | '-' :: '-' :: _ =>
    let (lead, value) :=
      match splitValue? word with
      | some (lead, value) => (lead, some value)
      | none => (String.ofList word, none)
    switches.flatMap fun s =>
      (s.names.filter fun name => Text.startsWith name lead).map fun name => .known s name value
  | '-' :: c :: more =>
    let name := String.ofList ['-', c]
    (Switch.named? switches name).toList.map fun s => .known s name (some (String.ofList more))
  | _ => []

/-- The mark of a word; none, if it may mean several options. -/
def mark? (switches : List Switch) (word : String) : Option Mark :=
  let s := word.toList
  if s.head? != some '-' then some .plain
  else
    match Switch.named? switches word with
    | some switch => some (.known switch word none)
    | none =>
      if s.length == 1 then some .plain
      else
        let exact :=
          (splitValue? s).bind fun (name, value) =>
            (Switch.named? switches name).map fun switch => Mark.known switch name (some value)
        match exact, candidates switches s with
        | some mark, _ => some mark
        | none, [mark] => some mark
        | none, _ :: _ :: _ => none
        | none, [] => some (if isNegativeNumber s || s.contains ' ' then .plain else .unknown)

/-- The marks of all words. -/
def marks? (switches : List Switch) : List String → Option (List (String × Mark))
  | [] => some []
  | word :: words =>
    if word == "--" then some ((word, .divider) :: words.map fun w => (w, .plain))
    else do
      let mark ← mark? switches word
      return (word, mark) :: (← marks? switches words)

/-! ### Events -/

/-- One use of an option. -/
structure Use where
  switch : Switch
  value : Option String := none
  deriving DecidableEq, Repr

/-- What a command line says, word by word. -/
inductive Event
  | use (use : Use)
  | value (word : String)
  /-- A word that has no place. -/
  | stranger
  /-- Here reading stops. -/
  | refusal
  deriving DecidableEq, Repr

/-- The options in one word after a short one, and the last of them if its value is to follow. -/
def cluster (switches : List Switch) (s : Switch) : List Char → Option (List Use × Option Switch)
  | [] => if s.takesValue then some ([⟨s, some ""⟩], none) else none
  | c :: r =>
    if s.takesValue then some ([⟨s, some (String.ofList (c :: r))⟩], none)
    else
      match Switch.named? switches (String.ofList ['-', c]) with
      | none => none
      | some next =>
        if r.isEmpty then
          if next.takesValue then some ([⟨s, none⟩], some next)
          else some ([⟨s, none⟩, ⟨next, none⟩], none)
        else (cluster switches next r).map fun found => (⟨s, none⟩ :: found.1, found.2)

/-- The options that a word uses, and the last of them if its value is to follow. -/
def usesIn (switches : List Switch) (s : Switch) (name : String) :
    Option String → Option (List Use × Option Switch)
  | none => if s.takesValue then some ([], some s) else some ([⟨s, none⟩], none)
  | some value =>
    if s.takesValue then some ([⟨s, some value⟩], none)
    else if Text.startsWith name "--" then none
    else cluster switches s value.toList

/-- The options that a word uses, and whether the next word is the value of the last of them. -/
def takeUses (switches : List Switch) (s : Switch) (name : String) (given : Option String)
    (rest : List (String × Mark)) : Option (List Use × Bool) :=
  match usesIn switches s name given, rest with
  | none, _ => none
  | some (uses, none), _ => some (uses, false)
  | some (uses, some last), (word, .plain) :: _ => some (uses ++ [⟨last, some word⟩], true)
  | some (_, some _), _ => none

def startsDivided : List (String × Mark) → Bool
  | (_, .divider) :: _ => true
  | _ => false

/-- Reads a command line with `places` plain words; `taken` tells that the next word is used up. -/
def eventsFrom (switches : List Switch) : (places : Nat) → (taken : Bool) →
    List (String × Mark) → List Event
  | _, _, [] => []
  | places, true, _ :: rest => eventsFrom switches places false rest
  | places, false, (_, .known s name given) :: rest =>
    match takeUses switches s name given rest with
    | none => [.refusal]
    | some (uses, taken) => uses.map .use ++ eventsFrom switches places taken rest
  | places, false, (_, .unknown) :: rest => .stranger :: eventsFrom switches places false rest
  | 0, false, _ :: rest => .stranger :: eventsFrom switches 0 false rest
  | places + 1, false, (_, .divider) :: rest =>
    if rest.isEmpty then [.stranger] else eventsFrom switches (places + 1) false rest
  | places + 1, false, (word, .plain) :: rest =>
    .value word :: eventsFrom switches places (startsDivided rest) rest

def events (switches : List Switch) (places : Nat) (words : List (String × Mark)) : List Event :=
  eventsFrom switches places false words

/-- Reads a command line up to its first plain word; returns that word with all after it. -/
def leadingFrom (switches : List Switch) : (taken : Bool) → List (String × Mark) →
    List Event × List String
  | _, [] => ([], [])
  | true, _ :: rest => leadingFrom switches false rest
  | false, (_, .known s name given) :: rest =>
    match takeUses switches s name given rest with
    | none => ([.refusal], [])
    | some (uses, taken) =>
      let (more, words) := leadingFrom switches taken rest
      (uses.map .use ++ more, words)
  | false, (_, .unknown) :: rest =>
    let (more, words) := leadingFrom switches false rest
    (.stranger :: more, words)
  | false, (_, .divider) :: _ => ([.refusal], [])
  | false, (word, .plain) :: rest => ([], word :: rest.map (·.1))

def leadingEvents (switches : List Switch) (words : List (String × Mark)) :
    List Event × List String :=
  leadingFrom switches false words

/-!
## Invocations

What the user asks for: to dump one source, or to render what a second one adds to the first.
-/

inductive Action
  | dump (source : String)
  | diff (old new : String)
  deriving DecidableEq, Repr

structure Invocation where
  action : Action
  verbosity : Nat := 0
  schema : Option String := none
  comments : Bool := false
  ignoreFile : Option String := none
  output : Option String := none
  deriving DecidableEq, Repr

/-- Why nothing is to be done. -/
inductive Ending
  | help
  | usage
  deriving DecidableEq, Repr

def Switch.help : Switch :=
  { names := ["-h", "--help"] }

def Switch.verbose : Switch :=
  { names := ["-v", "--verbose"] }

def Switch.schema : Switch :=
  { names := ["--schema"], takesValue := true }

def Switch.comments : Switch :=
  { names := ["--comments"] }

def Switch.ignoreFile : Switch :=
  { names := ["--ignore-file"], takesValue := true }

def Switch.output : Switch :=
  { names := ["-o", "--output"], takesValue := true }

/-- The options before the command. -/
def leading : List Switch :=
  [.help, .verbose]

/-- The options after the command. -/
def common : List Switch :=
  [.help, .schema, .comments, .ignoreFile, .output]

/-- Options and plain words so far. -/
structure Gathered where
  verbosity : Nat := 0
  schema : Option String := none
  comments : Bool := false
  ignoreFile : Option String := none
  output : Option String := none
  words : List String := []
  strange : Bool := false

/-- Of an option with a value the last use counts. -/
def Gathered.use (gathered : Gathered) (u : Use) : Gathered :=
  if u.switch = .verbose then { gathered with verbosity := gathered.verbosity + 1 }
  else if u.switch = .comments then { gathered with comments := true }
  else if u.switch = .schema then { gathered with schema := u.value }
  else if u.switch = .ignoreFile then { gathered with ignoreFile := u.value }
  else { gathered with output := u.value }

/-- Goes through the events in order; what asks for help before a refusal gets it. -/
def gather (gathered : Gathered) : List Event → Except Ending Gathered
  | [] => .ok gathered
  | .use u :: events =>
    if u.switch = .help then .error .help else gather (gathered.use u) events
  | .value word :: events => gather { gathered with words := gathered.words ++ [word] } events
  | .stranger :: events => gather { gathered with strange := true } events
  | .refusal :: _ => .error .usage

/-- The number of sources that a command takes. -/
def sources? (command : String) : Option Nat :=
  [("dump", 1), ("diff", 2)].lookup command

def action? (words : List String) : Option Action :=
  match words with
  | [source] => some (.dump source)
  | [old, new] => some (.diff old new)
  | _ => none

/-- The words after the command. -/
def readCommon (places : Nat) (gathered : Gathered) (words : List String) :
    Except Ending Invocation := do
  let some marked := marks? common words | throw .usage
  let gathered ← gather gathered (events common places marked)
  if gathered.words.length != places || gathered.strange then throw .usage
  match action? gathered.words with
  | none => throw .usage
  | some action =>
    return {
      action
      verbosity := gathered.verbosity
      schema := gathered.schema
      comments := gathered.comments
      ignoreFile := gathered.ignoreFile
      output := gathered.output }

/-- The whole command line. -/
def Invocation.ofWords (words : List String) : Except Ending Invocation := do
  let some marked := marks? leading words | throw .usage
  let (before, rest) := leadingEvents leading marked
  let gathered ← gather {} before
  match rest with
  | [] => throw .usage
  | command :: words =>
    match sources? command with
    | some places => readCommon places gathered words
    | none => throw .usage

/-!
## Running an invocation

A run reads files and leaves a report: the exit code, what was printed, and the files as they are
afterwards. Faults in what the user handed over are printed; any other fault ends the run.
-/

structure Report where
  exitCode : Nat
  stdout : String := ""
  stderr : String := ""
  files : Files

/-- The least grave entries of the log that are printed. -/
def threshold : (verbosity : Nat) → Level
  | 0 => .warning
  | 1 => .info
  | _ => .debug

/-- The lines of the log that are printed. -/
def logLines (verbosity : Nat) (log : List LogEntry) : String :=
  String.join ((log.filter fun entry => (threshold verbosity).rank ≤ entry.level.rank).map fun entry =>
    entry.level.name ++ ": " ++ entry.text ++ "\n")

/-- A source without what the ignore rules take away. -/
def loadCatalog (files : Files) (answer : List String → Logged Catalog) (invocation : Invocation)
    (word : String) : Logged Catalog := do
  let schemas := (Text.given invocation.schema).toList
  let catalog ← Catalog.ofSource files (answer schemas) "public" word
  Logged.info ("Loaded " ++ catalog.label ++ " from " ++ word)
  catalog.ignoring (← IgnoreRules.find files invocation.ignoreFile)

/-- The script that an invocation asks for. -/
def script (files : Files) (answer : List String → Logged Catalog) (invocation : Invocation) :
    Logged String :=
  match invocation.action with
  | .dump source => do
    let catalog ← loadCatalog files answer invocation source
    catalog.dump invocation.schema invocation.comments
  | .diff old new => do
    let oldCatalog ← loadCatalog files answer invocation old
    let newCatalog ← loadCatalog files answer invocation new
    oldCatalog.diff newCatalog invocation.schema invocation.comments

/-- Puts the script where it belongs: into a file if one is named. Returns what is left to print and
the files. -/
def deliver (files : Files) (output : Option String) (text : String) : Logged (String × Files) :=
  match Text.given output with
  | none => return (text, files)
  | some path => do
    let files ← .ofResult (files.write path text)
    Logged.info ("SQL written to: " ++ path)
    return ("", files)

/-- Runs an invocation. -/
def Invocation.run (files : Files) (answer : List String → Logged Catalog)
    (invocation : Invocation) : Except Fault Report :=
  let outcome := do deliver files invocation.output (← script files answer invocation)
  let log := logLines invocation.verbosity outcome.log
  match outcome.result with
  | .ok (stdout, files) => .ok { exitCode := 0, stdout, stderr := log, files }
  | .error fault =>
    if fault.isInput then
      .ok { exitCode := 1, stderr := log ++ "Error: " ++ fault.message ++ "\n", files }
    else .error fault

/-- The exit code of a run that does nothing. -/
def Ending.exitCode : Ending → Nat
  | help => 0
  | usage => 2

end SchemaScript.CommandLine
