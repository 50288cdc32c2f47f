import CodeSearch.Files.Basic
import CodeSearch.Json.Value
import CodeSearch.Settings.Environment

/-! # The log

How much is logged is set by a level, which is known by name. Two further names belong to the log
and stand for no level; they are refused, while names that mean nothing stand for the standard
level. Where the log goes is decided at the first setting-up and stays; a file has to be one that
lines can be added to.
-/

namespace CodeSearch

/-- Why the log is not set up. -/
inductive LogFault where
  /-- The name stands for a text, which names no level. -/
  | unknownLevel (text : String)
  /-- The name stands for something that is neither a number nor a text. -/
  | notLevel (form : String)
  /-- The level is given by something without capitals. -/
  | noCapitals (kind : String)
  /-- The log cannot be written to its file. -/
  | file (fault : FileFault)
  deriving DecidableEq

def LogFault.message : LogFault → String
  | unknownLevel text => "Unknown level: " ++ quotedText text
  | notLevel form => "Level not an integer or a valid string: " ++ form
  | noCapitals kind => "'" ++ kind ++ "' object has no attribute 'upper'"
  | file fault => fault.message

/-- The log of the program: the least level that is written, and how many places it goes to. -/
structure Log where
  level : Nat := 0
  handlers : Nat := 0

namespace Log

/-- The name of the log. -/
def name : String := "coderag"

/-- The plain form of a line. -/
def plainFormat : String := "%(levelname)s:%(name)s:%(message)s"

/-- The plain form in each style of writing forms, as the table of styles shows it. -/
def styleTable : String :=
  "\x7b'%': (<class 'logging.PercentStyle'>, '%(levelname)s:%(name)s:%(message)s'), " ++
  "'\x7b': (<class 'logging.StrFormatStyle'>, " ++
  "'\x7blevelname\x7d:\x7bname\x7d:\x7bmessage\x7d'), " ++
  "'$': (<class 'logging.StringTemplateStyle'>, " ++
  "'$\x7blevelname\x7d:$\x7bname\x7d:$\x7bmessage\x7d')\x7d"

/-- What the names in capitals stand for. -/
def meanings : List (String × Except LogFault Nat) := [
  ("NOTSET", .ok 0), ("DEBUG", .ok 10), ("INFO", .ok 20), ("WARN", .ok 30), ("WARNING", .ok 30),
  ("ERROR", .ok 40), ("CRITICAL", .ok 50), ("FATAL", .ok 50),
  ("BASIC_FORMAT", .error (.unknownLevel plainFormat)), ("_STYLES", .error (.notLevel styleTable))]

def standardLevel : Nat := 20

/-- The capitals of a letter that occurs in the names. Beside the plain small letters these are the
one without a dot, the long one and its joined forms. -/
def capitals (c : Char) : List Char :=
  if c = 'ı' then ['I']
  else if c = 'ſ' then ['S']
  else if c = 'ﬅ' || c = 'ﬆ' then ['S', 'T']
  else [c.toUpper]

/-- The level of a name in any case; a name without a meaning stands for the standard level. -/
def levelOf (name : String) : Except LogFault Nat :=
  (meanings.lookup (String.ofList (name.toList.flatMap capitals))).getD (.ok standardLevel)

/-- An empty text counts as not given. -/
def given (text : Option String) : Option String := text.filter fun value => !value.isEmpty

/-- The name of a level that is given by a value of any kind; what holds nothing gives none. -/
def levelName (level : Value) : Except LogFault (Option String) :=
  match level with
  | .text name => .ok (some name)
  | level => if level.isTrue then .error (.noCapitals level.kindName) else .ok none

/-- Why the log cannot be written to a file, if it cannot. A path that is not absolute lies in the
directory of work. -/
def fileFault? (files : FileSystem) (path : String) : Option FileFault :=
  if Path.isAbsolute path then files.appendFault? (Path.normalize path) else none

/-- Sets the log up. The level may change every time, the number of places only the first time: the
console, and a file if one is named. -/
def setUp (log : Log) (files : FileSystem) (environment : Environment)
    (level file : Option String) : Except LogFault Log := do
  let level ← levelOf (((given level).or (environment.setting? "LOG_LEVEL")).getD "INFO")
  let file := (given file).or (environment.setting? "LOG_FILE")
  if log.handlers ≠ 0 then return { log with level }
  else
    match file.bind (fileFault? files) with
    | some fault => .error (.file fault)
    | none => return { level, handlers := if file.isSome then 2 else 1 }

end Log

end CodeSearch
