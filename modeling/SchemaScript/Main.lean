import SchemaScript.CommandLine.Run

/-!
# The program

Reads from disk what the command line names, runs the invocation on it, and carries out its report.
-/

namespace SchemaScript

/-- The entries below a directory, of which only scripts are read. -/
partial def readBelow (path : String) (add : String → String → IO Unit) : IO Unit := do
  let here := (← IO.currentDir) / path
  for entry in ← here.readDir do
    let inner := path ++ "/" ++ entry.fileName
    if ← entry.path.isDir then
      add (inner ++ "/") ""
      readBelow inner add
    else if FileTree.isScript entry.fileName then add inner (← IO.FS.readFile inner)

/-- Puts into `files` what stands at a path, with everything below it. -/
def gatherPath (files : IO.Ref Files) (path : String) : IO Unit := do
  let found := (← IO.currentDir) / path
  let add (inner text : String) : IO Unit := files.modify fun f => f.add inner text
  if path.isEmpty then return
  else if ← found.isDir then
    add (path ++ "/") ""
    readBelow path add
  else if ← found.pathExists then add path (← IO.FS.readFile path)

/-- Puts into `files` what decides whether a path can be written to. -/
def gatherTarget (files : IO.Ref Files) (path : String) : IO Unit := do
  let here ← IO.currentDir
  let parent := String.ofList (path.toList.reverse.dropWhile (· != '/')).reverse
  if !parent.isEmpty then
    if ← (here / parent).isDir then files.modify fun f => f.add parent ""
  if ← (here / path).isDir then files.modify fun f => f.add (path ++ "/") ""
  else if ← (here / path).pathExists then files.modify fun f => f.add path ""

def sourcesOf : CommandLine.Action → List String
  | .dump source => [source]
  | .diff old new => [old, new]

/-- The files that an invocation may touch. -/
def gatherFiles (invocation : CommandLine.Invocation) : IO Files := do
  let here := (Files.parts (← IO.currentDir).toString).filter (!·.isEmpty)
  let files ← IO.mkRef ({ root := FileTree.put (.directory []) here (.directory []), here } : Files)
  for path in sourcesOf invocation.action ++ [IgnoreRules.defaultPath] do
    gatherPath files path
  for path in invocation.ignoreFile.toList do
    gatherPath files path
  for path in (Text.given invocation.output).toList do
    if !(← files.get).holds path then gatherTarget files path
  files.get

/-- No database can be reached from here. -/
def unreachable (_ : List String) : Logged Catalog :=
  .fail (.connection "no connection")

end SchemaScript

open SchemaScript

def main (words : List String) : IO UInt32 := do
  match CommandLine.Invocation.ofWords words with
  | .error ending => return ending.exitCode.toUInt32
  | .ok invocation =>
    match invocation.run (← gatherFiles invocation) unreachable with
    | .error fault =>
      IO.eprintln fault.message
      return 1
    | .ok report =>
      IO.eprint report.stderr
      IO.print report.stdout
      if let some path := Text.given invocation.output then
        if report.exitCode == 0 then
          if let .ok text := report.files.readRaw path then IO.FS.writeFile path text
      return report.exitCode.toUInt32
