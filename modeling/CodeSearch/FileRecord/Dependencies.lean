import CodeSearch.Language
import CodeSearch.Pattern
import CodeSearch.Text.Pieces

/-! # Dependencies and exports of a file

Which modules a file names, and which names it offers, is read off its text by patterns. Every
form in which a module is named is searched for in the whole text, and each identifier is kept once.
-/

namespace CodeSearch

/-- Keeps the first of equal members. -/
def unique : List (List Char) → List (List Char)
  | [] => []
  | item :: rest => item :: (unique rest).filter (· != item)

namespace Dependencies

open Pattern

def isQuote (c : Char) : Bool := c == '\'' || c == '"'

/-- A module specifier in quotes. -/
def quoted : Pattern :=
  all [one isQuote, captured (run (fun c => !isQuote c) 1), one isQuote]

/-- What an import takes: anything up to a semicolon, of which no blank is the first character. -/
def taken : Pattern := all [one fun c => !Text.isBlank c && c != ';', few (· != ';')]

/-- Two blanks or more. -/
def wideGap : Pattern := run Text.isBlank 2

/-- An import from a module, of something or of nothing. -/
def importFrom : Pattern :=
  all [word "import", either (all [gap, taken, one Text.isBlank]) wideGap, word "from", gap, quoted]

/-- An import for its effect alone. -/
def sideEffectImport : Pattern := all [lineStart, blanks, word "import", gap, quoted]

def required : Pattern := all [word "require(", blanks, quoted, blanks, word ")"]

/-- An import from a module, at the start of a line. -/
def fromImport : Pattern :=
  all [lineStart, blanks, word "from", gap, captured (run (fun c => !Text.isBlank c) 1),
    gap, word "import", gap]

def isModuleList (c : Char) : Bool := Text.isWord c || c == '.' || c == ',' || c == ' '

/-- An import of modules, at the start of a line. Blanks alone are no list of modules. -/
def moduleImport : Pattern :=
  all [lineStart, blanks, word "import", gap, captured (run isModuleList 1)]

/-- The parts of a list written with commas. -/
def listed (text : List Char) : List (List Char) := Text.splitAt (· == ',') text

/-- The modules of an import list, without the names they are given. -/
def moduleNames (text : List Char) : List (List Char) :=
  ((listed text).map fun part => (Text.trim part).takeWhile (· != ' ')).filter fun name =>
    !name.isEmpty

def texts (pattern : Pattern) (content : List Char) : List (List Char) :=
  (pattern.captures content).map Capture.text

/-- The specifiers of all forms of import, form by form. -/
def specifiers (language : Language) (content : List Char) : List (List Char) :=
  match language with
  | .typescript | .javascript =>
    texts importFrom content ++ texts sideEffectImport content ++ texts required content
  | .python => texts fromImport content ++ (texts moduleImport content).flatMap moduleNames
  | _ => []

/-- The keywords that may stand between `export` and a name. -/
def exportable : Pattern :=
  any [word "const", word "let", word "var", all [word "function", optional (word "*")],
    word "class", word "interface", word "type", word "enum"]

def exportDeclaration : Pattern :=
  all [word "export", gap, optional (all [word "default", gap]), optional (all [word "async", gap]),
    exportable, gap, name]

def exportList : Pattern :=
  all [word "export", blanks, word "\x7b", captured (run (· != '}') 0), word "\x7d"]

/-- The name under which a part of an export list is offered: its last word. -/
def exportedName? (part : List Char) : Option (List Char) := (Text.words part).getLast?

/-- The names that declarations and lists offer. -/
def exported (language : Language) (content : List Char) : List (List Char) :=
  match language with
  | .typescript | .javascript =>
    texts exportDeclaration content ++
      (texts exportList content).flatMap fun list => (listed list).filterMap exportedName?
  | _ => []

end Dependencies

/-- Runs a search for a language given by its tag and keeps each identifier once. -/
def identifiers (search : Language → List Char → List (List Char)) (content tag : String) :
    List String :=
  match Language.ofName? tag with
  | some language => (unique (search language content.toList)).map String.ofList
  | none => []

/-- The modules that a text depends on. -/
def extractDependencies (content tag : String) : List String :=
  identifiers Dependencies.specifiers content tag

/-- The names that a text exports. -/
def extractExports (content tag : String) : List String :=
  identifiers Dependencies.exported content tag

end CodeSearch
