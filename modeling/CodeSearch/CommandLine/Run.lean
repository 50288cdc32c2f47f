import CodeSearch.CommandLine.Command
import CodeSearch.Numeral.Fixed
import CodeSearch.Session.Schedule
import CodeSearch.Settings.Logging
import CodeSearch.Settings.VariableFile

/-! # Running commands

The log is set up first. A command then opens a session, puts its calls to it and prints what they
answer. Faults of settings and of arguments are printed as errors.
-/

namespace CodeSearch

/-- How a command ends. -/
inductive CommandOutcome where
  | failed (message : String)
  | answered (answer : Answer Float)
  | counted (totals : Totals Float)
  /-- The address that is to be served. -/
  | served (host : String) (port : Int)

namespace CommandLine

/-- The number of places that scores are printed with. -/
def scorePlaces : Nat := 3

def countLines (counts : OrderedMap String Nat) : List String :=
  (counts.entries.mergeSort fun a b => textLE a.1 b.1).map fun (kind, count) =>
    "  " ++ kind ++ ": " ++ toString count

/-- The report on a pass; how long it took is given as text. -/
def reportLines (elapsed : String) (report : PassReport) : List String :=
  let first := "Indexed " ++ toString report.filesIndexed ++ "/" ++ toString report.filesScanned ++
    " files: " ++ toString report.chunksCreated ++ " chunks in " ++ elapsed ++ "s"
  first :: (countLines report.kindCounts ++ report.errors.map fun error => "  error: " ++ error)

def hitLine (hit : Hit Float) : String :=
  let name := (hit.chunk.symbol.map fun symbol => " " ++ symbol.name).getD ""
  Numeral.fixed scorePlaces hit.score ++ " [" ++ hit.relevance.name ++ "] " ++ hit.chunk.filePath ++
    ":" ++ toString hit.chunk.startLine ++ "-" ++ toString hit.chunk.endLine ++ " " ++
    hit.chunk.kind.name ++ name

def itemLines (item : ContextItem Float) : List String := [
  "=== " ++ item.path ++ " (" ++ Numeral.fixed scorePlaces item.score ++ ") ===", item.content, ""]

def totalsLines (totals : Totals Float) : List String := [
  "path: " ++ totals.path.getD "None",
  "file_count: " ++ toString totals.files,
  "chunk_count: " ++ toString totals.chunks,
  "embedding_count: " ++ toString totals.embeddings,
  "cache_size: " ++ toString totals.cachedAnswers] ++ countLines totals.kindCounts

/-- Puts calls to a session one after another; the first that fails ends them. The outcome is that
of the last call. -/
def ask (schedule : Schedule Float) (last : Outcome Float) :
    List (Request Float) → Outcome Float × Schedule Float
  | [] => (last, schedule)
  | request :: rest =>
    let (schedule, id) := schedule.call request
    match (schedule.session.outcome? id).getD last with
    | .ok answer => ask schedule (.ok answer) rest
    | .error fault => (.error fault, schedule)

def queryArgument (query : Option String) : Argument String :=
  match query with
  | some query => .given query
  | none => .other "list"

/-- The calls that a command makes. -/
def requests : Command → List (Request Float)
  | .index path force => [.index (.given path) force]
  | .search path query limit minScore fileTypes =>
    let options : OptionsArgument Float :=
      .given (limit.map .given) (minScore.map fun score => .given (.real score)) fileTypes none true
    [.index (.given path) false, .search (queryArgument query) options]
  | .context path query limit => [.context (queryArgument query) (.given path) (.given limit)]
  | .stats path => [.index (.given path) false]
  | .serve _ _ => []

/-- The environment with the variables of a file, if there is such a file. -/
def withVariables (files : FileSystem) (environment : Environment) :
    Option String → Except SettingsFault Environment
  | none => .ok environment
  | some path =>
    match files.read path with
    | .ok content => environment.withFile content
    | .error (.undecodable message) => .error (.unreadable message)
    | .error (.invalid message) => .error (.unreadable message)
    | .error _ => .ok environment

/-- Runs a command with a session of its own. -/
def runInSession (settings : Settings Float) (files : FileSystem) (now : Float)
    (command : Command) : CommandOutcome :=
  let schedule : Schedule Float := { session := .opened settings files now }
  match ask schedule (.ok .cleared) (requests command), command with
  | (.error fault, _), _ => .failed fault.message
  | (.ok _, schedule), .stats _ => .counted schedule.session.totals
  | (.ok answer, _), _ => .answered answer

/-- Sets the log up as an invocation asks for. A server does so again by itself. -/
def setUpLog (environment : Environment) (files : FileSystem) (invocation : Invocation) :
    Except LogFault Log := do
  let log ← Log.setUp {} files environment invocation.logLevel none
  match invocation.command with
  | .serve _ _ => log.setUp files environment none none
  | _ => .ok log

/-- Runs an invocation of the program. Serving is left to the caller, who is told the address. -/
def run (environment : Environment) (files : FileSystem) (now : Float) (invocation : Invocation) :
    Except LogFault CommandOutcome := do
  let _ ← setUpLog environment files invocation
  match invocation.command with
  | .serve host port => return .served host port
  | command =>
    let settings := do
      Settings.ofEnvironment (← withVariables files environment invocation.variableFile)
    match settings with
    | .error fault => return .failed fault.message
    | .ok settings => return runInSession settings files now command

end CommandLine

namespace CommandOutcome

open CommandLine

/-- What a search or a request for context prints if it finds nothing. -/
def nothingFound? : CommandOutcome → Option String
  | answered (.found []) => some "No results"
  | answered (.shown []) => some "No relevant files"
  | _ => none

/-- The code with which the program ends. -/
def code (outcome : CommandOutcome) : Nat :=
  match outcome with
  | failed _ => 2
  | _ => if outcome.nothingFound?.isSome then 1 else 0

/-- The lines that are printed; how long the command took is given as text. -/
def output (elapsed : String) (outcome : CommandOutcome) : List String :=
  match outcome with
  | answered (.indexed report) => reportLines elapsed report
  | answered (.found (hit :: hits)) => (hit :: hits).map hitLine
  | answered (.shown (item :: items)) => (item :: items).flatMap itemLines
  | counted totals => totalsLines totals
  | _ => outcome.nothingFound?.toList

/-- The lines that are printed as errors. -/
def errors : CommandOutcome → List String
  | failed message => ["Error: " ++ message]
  | _ => []

def served? : CommandOutcome → Option (String × Int)
  | served host port => some (host, port)
  | _ => none

end CommandOutcome

end CodeSearch
