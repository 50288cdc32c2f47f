import CodeSearch.Settings.Environment
import CodeSearch.Text.Pieces

/-! # Files of variables

A file binds variables, one to a line: a name, an equals sign and a value, which may be quoted.
Lines that do not have this form are passed over. Values may refer to variables. What the
environment already holds, even if it is empty, is not changed.
-/

namespace CodeSearch.VariableFile

/-- A line of the file: the name that it binds and its value. Without a name nothing is bound; a
name without a value is only declared. -/
structure Binding where
  name : Option String
  value : Option String

/-- A blank that does not end the line. -/
def isInlineBlank (c : Char) : Bool := Text.isBlank c && c != '\n' && c != '\r'

def skipInlineBlanks (text : List Char) : List Char := text.dropWhile isInlineBlank

/-- The word of export in front of a name, if blanks follow it on the line, is passed over. -/
def skipExport (text : List Char) : List Char :=
  match Text.dropOpening? "export".toList text with
  | some rest => if rest.head?.any isInlineBlank then skipInlineBlanks rest else text
  | none => text

def isNameChar (c : Char) : Bool := c != '=' && c != '#' && !Text.isBlank c

/-- The name at the start of a line; a comment has none. As with all readers here, the result is
what was read with the text behind it, or the place at which the line ceases to be well formed. -/
def readName (text : List Char) : Except (List Char) (Option String × List Char) :=
  match text with
  | '#' :: _ => .ok (none, text)
  | '\'' :: rest =>
    let (name, behind) := rest.span (· != '\'')
    match name, behind with
    | _ :: _, '\'' :: behind => .ok (some (String.ofList name), behind)
    | _, _ => .error text
  | _ =>
    let (name, behind) := text.span isNameChar
    if name.isEmpty then .error text else .ok (some (String.ofList name), behind)

/-- The text up to the mark that closes a quotation, and the text behind the mark. A backslash takes
the next character of its line along, so a mark behind a backslash does not close. -/
def closing? (mark : Char) : List Char → Option (List Char × List Char)
  | [] => none
  | [c] => if c = mark then some ([], []) else none
  | c :: d :: rest =>
    if c = mark then some ([], d :: rest)
    else if c = '\\' then
      if d = '\n' then none
      else (closing? mark rest).map fun (inside, behind) => (c :: d :: inside, behind)
    else (closing? mark (d :: rest)).map fun (inside, behind) => (c :: inside, behind)

/-- What an escape between double marks stands for. -/
def escapeInDouble? : Char → Option Char
  | '\\' => some '\\'
  | '\'' => some '\''
  | '"' => some '"'
  | 'a' => some '\x07'
  | 'b' => some '\x08'
  | 'f' => some '\x0c'
  | 'n' => some '\n'
  | 'r' => some '\r'
  | 't' => some '\t'
  | 'v' => some '\x0b'
  | _ => none

/-- What an escape between single marks stands for. -/
def escapeInSingle? : Char → Option Char
  | '\\' => some '\\'
  | '\'' => some '\''
  | _ => none

/-- Replaces escapes; a backslash in front of any other character stands for itself. -/
def unescape (escape? : Char → Option Char) : List Char → List Char
  | '\\' :: c :: rest =>
    match escape? c with
    | some d => d :: unescape escape? rest
    | none => '\\' :: unescape escape? (c :: rest)
  | c :: rest => c :: unescape escape? rest
  | [] => []

/-- The text in front of a comment: a hash behind a blank. -/
def dropComment (behindBlank : Bool) : List Char → List Char
  | [] => []
  | c :: rest =>
    if c = '#' && behindBlank then [] else c :: dropComment (Text.isBlank c) rest

def isLineEnd (c : Char) : Bool := c == '\n' || c == '\r'

/-- The value behind the equals sign and its blanks, if any. -/
def readValue (behindBlank : Bool) (text : List Char) :
    Except (List Char) (String × List Char) :=
  match text with
  | [] => .ok ("", [])
  | c :: rest =>
    if c = '\'' || c = '"' then
      let escape? := if c = '"' then escapeInDouble? else escapeInSingle?
      match closing? c rest with
      | some (inside, behind) => .ok (String.ofList (unescape escape? inside), behind)
      | none => .error text
    else if isLineEnd c then .ok ("", text)
    else
      let (line, behind) := text.span fun d => !isLineEnd d
      .ok (String.ofList (Text.trimRight (dropComment behindBlank line)), behind)

def skipComment (text : List Char) : List Char :=
  match skipInlineBlanks text with
  | '#' :: rest => rest.dropWhile fun c => !isLineEnd c
  | _ => text

/-- Nothing but blanks may stand in front of the line's end. -/
def readLineEnd (text : List Char) : Except (List Char) (List Char) :=
  match skipInlineBlanks text with
  | [] => .ok []
  | c :: rest => if isLineEnd c then .ok rest else .error text

/-- The value of a line whose name was read, if an equals sign follows. -/
def readAssignment (text : List Char) : Except (List Char) (Option String × List Char) :=
  match text with
  | '=' :: rest => do
    let (value, behind) ← readValue (rest.head?.any isInlineBlank) (skipInlineBlanks rest)
    .ok (some value, behind)
  | _ => .ok (none, text)

/-- A line that is not blank, from its first character on. -/
def readLine (text : List Char) : Except (List Char) (Binding × List Char) := do
  let (name, rest) ← readName (skipExport text)
  let (value, rest) ← readAssignment (skipInlineBlanks rest)
  let rest ← readLineEnd (skipComment rest)
  .ok (⟨name, value⟩, rest)

/-- What follows the line on which a text starts. -/
def nextLine (text : List Char) : List Char := (text.dropWhile fun c => !isLineEnd c).drop 1

/-- The bindings of a text. Every line takes at least one character, so as many steps as there are
characters are enough. -/
def readBindings : Nat → List Char → List Binding
  | 0, _ => []
  | fuel + 1, text =>
    match text.dropWhile Text.isBlank with
    | [] => []
    | text =>
      match readLine text with
      | .ok (binding, rest) => binding :: readBindings fuel rest
      | .error place => readBindings fuel (nextLine place)

/-- A piece of a value: plain text, or a variable and what stands for it if it is not known. -/
inductive Piece where
  | plain (c : Char)
  | reference (name : String) (otherwise : String)

/-- A reference that starts behind its dollar sign, and how many characters it takes. -/
def reference? (text : List Char) : Option (Piece × Nat) :=
  match text with
  | '{' :: rest =>
    let (name, behind) := rest.span fun c => c != '}' && c != ':'
    match behind with
    | '}' :: _ => some (.reference (String.ofList name) "", name.length + 2)
    | ':' :: '-' :: behind =>
      let (otherwise, behind) := behind.span (· != '}')
      if behind.isEmpty then none
      else
        some (.reference (String.ofList name) (String.ofList otherwise),
          name.length + otherwise.length + 4)
    | _ => none
  | _ => none

/-- The pieces of a value; `skip` counts characters of the last reference. -/
def pieces (skip : Nat) : List Char → List Piece
  | [] => []
  | c :: rest =>
    match skip with
    | skip + 1 => pieces skip rest
    | 0 =>
      match if c = '$' then reference? rest else none with
      | some (piece, length) => piece :: pieces length rest
      | none => .plain c :: pieces 0 rest

/-- The bindings so far, in the order in which their names first appear. -/
abbrev Bindings := OrderedMap String (Option String)

/-- The environment comes before the file. A variable that is only declared is empty. -/
def lookUp (environment : Environment) (bound : Bindings) (name otherwise : String) : String :=
  match environment.get? name with
  | some value => value
  | none =>
    match bound.get? name with
    | some value => value.getD ""
    | none => otherwise

def resolve (environment : Environment) (bound : Bindings) (value : String) : String :=
  String.join ((pieces 0 value.toList).map fun
    | .plain c => String.singleton c
    | .reference name otherwise => lookUp environment bound name otherwise)

/-- Binds a name; its value may refer to the environment and to what is bound above it. -/
def bind (environment : Environment) (bound : Bindings) (binding : Binding) : Bindings :=
  match binding.name with
  | none => bound
  | some name => bound.insert name (binding.value.map (resolve environment bound))

/-- The text behind a byte order mark. -/
def dropOrderMark (text : List Char) : List Char :=
  if text.head? = some '\ufeff' then text.drop 1 else text

/-- All bindings of a file. -/
def bindings (environment : Environment) (content : String) : Bindings :=
  let text := Text.unifyLineEnds (dropOrderMark content.toList)
  (readBindings (text.length + 1) text).foldl (bind environment) ∅

/-- Sets a variable unless it is set already. -/
def setNew (environment : Environment) (name value : String) : Except SettingsFault Environment :=
  if environment.contains name then .ok environment
  else if name.toList.contains '\x00' || value.toList.contains '\x00' then .error .nullCharacter
  else if name.toList.contains '=' then .error .illegalName
  else .ok (environment.insert name value)

/-- Sets the variables that have a value, one after another. -/
def setAll (environment : Environment) :
    List (String × Option String) → Except SettingsFault Environment
  | [] => .ok environment
  | (_, none) :: rest => setAll environment rest
  | (name, some value) :: rest => do setAll (← setNew environment name value) rest

end CodeSearch.VariableFile

namespace CodeSearch

/-- The environment together with what a file binds. -/
def Environment.withFile (environment : Environment) (content : String) :
    Except SettingsFault Environment :=
  VariableFile.setAll environment (VariableFile.bindings environment content).entries

end CodeSearch
