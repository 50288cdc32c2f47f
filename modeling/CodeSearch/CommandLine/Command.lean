import CodeSearch.CommandLine.Help
import CodeSearch.Numeral.Parse

/-! # Commands

The first word names the command; what stands in front of it are options of the program, what stands
behind it belongs to the command.
-/

namespace CodeSearch

/-- What the program is asked to do. A query may have been left out. -/
inductive Command where
  | index (path : String) (force : Bool)
  | search (path : String) (query : Option String) (limit : Option Int) (minScore : Option Float)
      (fileTypes : Option (List String))
  | context (path : String) (query : Option String) (limit : Int)
  | stats (path : String)
  | serve (host : String) (port : Int)

namespace Command

/-- The project that a command is about. -/
def path? : Command → Option String
  | index path _ => some path
  | search path _ _ _ _ => some path
  | context path _ _ => some path
  | stats path => some path
  | serve _ _ => none

/-- The command with its path changed. -/
def mapPath (change : String → String) : Command → Command
  | index path force => index (change path) force
  | search path query limit minScore fileTypes =>
    search (change path) query limit minScore fileTypes
  | context path query limit => context (change path) query limit
  | stats path => stats (change path)
  | serve host port => serve host port

end Command

/-- A command with the options of the program. -/
structure Invocation where
  logLevel : Option String
  variableFile : Option String
  command : Command

namespace CommandLine

def integer? (text : String) : Option Int := Numeral.integer? text.toList

def real? (text : String) : Option Float := Numeral.real? text.toList

def helpRule : OptionRule := ⟨"help", ["-h", "--help"], .help, "show this help message and exit"⟩

def textRule (key : String) (names : List String) (placeholder meaning : String) : OptionRule :=
  ⟨key, names, .value placeholder fun _ => true, meaning⟩

def integerRule (key : String) (names : List String) (placeholder meaning : String) : OptionRule :=
  ⟨key, names, .value placeholder fun text => (integer? text).isSome, meaning⟩

def realRule (key : String) (names : List String) (placeholder meaning : String) : OptionRule :=
  ⟨key, names, .value placeholder fun text => (real? text).isSome, meaning⟩

/-- What a command expects, and the command that the arguments then stand for. -/
structure CommandForm where
  purpose : String
  /-- The words that are expected, with their meanings. -/
  words : List (String × String)
  rules : List OptionRule
  build : Parsed → Option Command

def projectWord : String × String := ("path", "Project root")

def indexForm : CommandForm where
  purpose := "Index a project"
  words := [projectWord]
  rules := [helpRule, ⟨"force", ["--force"], .flag, "Reindex even if the index is fresh"⟩]
  build parsed :=
    match parsed.words with
    | [some path] => some (.index path (parsed.value? "force").isSome)
    | _ => none

def searchForm : CommandForm where
  purpose := "Search a project"
  words := [projectWord, ("query", "Search query")]
  rules := [helpRule,
    integerRule "limit" ["-k", "--limit"] "LIMIT" "Maximum number of results",
    realRule "score" ["--min-score"] "MIN_SCORE" "Minimum similarity score",
    textRule "type" ["--file-type"] "FILE_TYPES" "Restrict to an extension (repeatable)"]
  build parsed :=
    let types := parsed.values "type"
    match parsed.words with
    | [some path, query] =>
      some (.search path query ((parsed.value? "limit").bind integer?)
        ((parsed.value? "score").bind real?) (if types.isEmpty then none else some types))
    | _ => none

def contextForm : CommandForm where
  purpose := "Print LLM context for a request"
  words := [projectWord, ("query", "The request")]
  rules := [helpRule, integerRule "limit" ["-l", "--limit"] "LIMIT" "Maximum number of files"]
  build parsed :=
    match parsed.words with
    | [some path, query] =>
      some (.context path query (((parsed.value? "limit").bind integer?).getD 5))
    | _ => none

def statsForm : CommandForm where
  purpose := "Index a project and print statistics"
  words := [projectWord]
  rules := [helpRule]
  build parsed :=
    match parsed.words with
    | [some path] => some (.stats path)
    | _ => none

def serveForm : CommandForm where
  purpose := "Start the HTTP server"
  words := []
  rules := [helpRule, textRule "host" ["--host"] "HOST" "Bind address",
    integerRule "port" ["-p", "--port"] "PORT" "Port"]
  build parsed :=
    some (.serve ((parsed.value? "host").getD "127.0.0.1")
      (((parsed.value? "port").bind integer?).getD 8000))

def forms : List (String × CommandForm) := [
  ("index", indexForm), ("search", searchForm), ("context", contextForm), ("stats", statsForm),
  ("serve", serveForm)]

/-- The word with which the program is called. -/
def programName : String := "coderag"

def programRules : List OptionRule := [
  helpRule,
  textRule "log" ["--log-level"] "LOG_LEVEL" "Logging level (default: INFO)",
  textRule "variables" ["--env-file"] "ENV_FILE" "Path to a .env file with CODERAG_* settings"]

/-- The help page of the program lists its commands. -/
def programPage : HelpPage :=
  let choice := "\x7b" ++ ",".intercalate (forms.map Prod.fst) ++ "\x7d"
  { title := programName
    purpose := some "Semantic codebase index and context retrieval"
    rules := programRules
    places := [choice, "..."]
    words := { label := choice, meaning := none } :: forms.map fun (name, form) =>
      { indent := 4, label := name, meaning := some form.purpose } }

def CommandForm.page (name : String) (form : CommandForm) : HelpPage :=
  { title := programName ++ " " ++ name
    rules := form.rules
    places := form.words.map Prod.fst
    words := form.words.map fun (word, meaning) => { label := word, meaning := some meaning } }

/-- How the program ends if the arguments lead to no command: why, and what it prints. -/
structure Ending where
  exit : Exit
  output : List String := []

/-- Those who ask for help are shown the page. -/
def HelpPage.ending (page : HelpPage) : Exit → Ending
  | .help => { exit := .help, output := page.lines }
  | .usage => { exit := .usage }

/-- Reads the arguments of a command. -/
def readCommand (name : String) (arguments : List String) : Except Ending Command := do
  let form ← match forms.lookup name with
    | some form => .ok form
    | none => .error { exit := .usage }
  let parsed := do consume form.rules form.words.length {} (← tokens form.rules arguments)
  match form.build (← parsed.mapError (form.page name).ending) with
  | some command => .ok command
  | none => .error { exit := .usage }

/-- Takes the options of the program up to the first word, which names the command. `arguments` are
the texts of the tokens. -/
def readProgram (parsed : Parsed) : List Token → List String → Except Ending Invocation
  | .word name :: _, _ :: arguments => do
    let command ← readCommand name arguments
    if parsed.stray then .error { exit := .usage }
    else
      return { logLevel := parsed.value? "log", variableFile := parsed.value? "variables", command }
  | .unknown :: rest, _ :: arguments => readProgram parsed.markStray rest arguments
  | .known rule name attached :: .word text :: rest, _ :: next :: arguments =>
    match takeAlone programRules parsed rule name attached true with
    | .error exit => .error (programPage.ending exit)
    | .ok (some parsed) => readProgram parsed (.word text :: rest) (next :: arguments)
    | .ok none => readProgram (parsed.addSetting rule.key text) rest arguments
  | .known rule name attached :: rest, _ :: arguments =>
    match takeAlone programRules parsed rule name attached false with
    | .error exit => .error (programPage.ending exit)
    | .ok (some parsed) => readProgram parsed rest arguments
    | .ok none => .error { exit := .usage }
  | _, _ => .error { exit := .usage }

/-- Reads the arguments of the program. -/
def read (arguments : List String) : Except Ending Invocation := do
  readProgram {} (← (tokens programRules arguments).mapError programPage.ending) arguments

end CommandLine

end CodeSearch
