import CodeSearch.CommandLine.Run
import CodeSearch.Files.Disk
import CodeSearch.Settings.Logging

/-! # The program

The part of the disk that a command may look at is read first; the command then runs on what was
read. Directories that are never walked and files of no known language are not read.
-/

namespace CodeSearch.Program

/-- The variables that the settings and the log are taken from. -/
def variableNames : List String :=
  ["MAX_CACHE_ENTRIES", "MAX_FILE_SIZE", "EMBEDDING_DIM", "EMBEDDING_BATCH_SIZE", "CACHE_TTL",
    "STALENESS", "MIN_SCORE", "LOG_LEVEL", "LOG_FILE"].map fun name => Environment.family ++ name

def readEnvironment : IO Environment := do
  let found ← variableNames.filterMapM fun name => do
    return (← IO.getEnv name).map fun value => (name, value)
  return .ofList found

/-- Reads a file unless that fails. -/
def readFile (disk : Disk) (path : String) : IO Disk := do
  try
    let bytes ← IO.FS.readBinFile path
    return disk.write path (.file bytes.toList)
  catch _ => return disk

/-- Reads a directory with everything below it that a walk may visit. A link to a directory is not
walked. -/
partial def readTree (settings : Settings Float) (disk : Disk) (path : String) : IO Disk := do
  let mut disk := Disk.makeDirectory disk path
  let here ← IO.currentDir
  let entries ← try (here / path).readDir catch _ => pure #[]
  for entry in entries do
    let member := Path.join path entry.fileName
    match (← entry.path.symlinkMetadata).type with
    | .dir =>
      unless settings.ignoresDirectory entry.fileName do
        disk ← readTree settings disk member
    | _ =>
      if isIndexable entry.fileName then
        disk ← readFile disk member
  return disk

/-- Notes that a directory is there, if it is. -/
def noteDirectory (disk : Disk) (path : String) : IO Disk := do
  let here ← IO.currentDir
  return if ← (here / path).isDir then disk.makeDirectory path else disk

/-- Reads the project and the file of variables that an invocation names, and looks at the place of
the log. -/
def readDisk (environment : Environment) (invocation : Invocation) : IO Disk := do
  let disk ← match environment.setting? "LOG_FILE" with
    | none => pure ∅
    | some path => noteDirectory (← noteDirectory ∅ (Path.parent path)) path
  let disk ← match invocation.command.path? with
    | none => pure disk
    | some path => try readTree {} disk (Path.absolute path) catch _ => pure disk
  match invocation.variableFile with
  | none => return disk
  | some path => readFile disk path

/-- Paths that are not absolute lie in the working directory. -/
def absoluteIn (directory path : String) : String :=
  if path.isEmpty then path else Path.join directory path

def seconds (milliseconds : Nat) : Float := Float.ofNat milliseconds / 1000

/-- Prints what a command gives; how long it took is given as text. -/
def report (elapsed : String) (outcome : CommandOutcome) : IO Nat := do
  for line in outcome.output elapsed do
    IO.println line
  for line in outcome.errors do
    IO.eprintln line
  if let some (host, port) := outcome.served? then
    IO.println (Log.name ++ " is to be served on http://" ++ host ++ ":" ++ toString port)
  return outcome.code

/-- Runs an invocation and prints what it gives. -/
def perform (invocation : Invocation) : IO Nat := do
  let directory := (← IO.currentDir).toString
  let invocation :=
    { invocation with
      command := invocation.command.mapPath (absoluteIn directory)
      variableFile := invocation.variableFile.map (absoluteIn directory) }
  let environment ← readEnvironment
  let files := (← readDisk environment invocation).fileSystem
  let start ← IO.monoMsNow
  let outcome ← IO.lazyPure fun _ =>
    CommandLine.run environment files (seconds start) invocation
  match outcome with
  | .error fault =>
    IO.eprintln fault.message
    return 1
  | .ok outcome => report (Numeral.fixed 2 (seconds ((← IO.monoMsNow) - start))) outcome

end CodeSearch.Program

/-- Runs the command that the arguments name; the result is the code of the process. -/
def main (arguments : List String) : IO UInt32 := do
  match CodeSearch.CommandLine.read arguments with
  | .error ending =>
    for line in ending.output do
      IO.println line
    if ending.exit = .usage then
      for line in CodeSearch.CommandLine.programPage.callLines do
        IO.eprintln line
    return ending.exit.code.toUInt32
  | .ok invocation => return (← CodeSearch.Program.perform invocation).toUInt32
