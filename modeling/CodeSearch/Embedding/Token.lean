import CodeSearch.Scalar
import CodeSearch.Text.Case
import CodeSearch.Text.Pieces

/-! # Tokens

Text is brought into a normal form of single spaces and padded operators, and then taken apart three
times: into its words in lower case, into the parts of its identifiers, and into the words of its
comments as they are written. A token's class decides how much it weighs.
-/

namespace CodeSearch.Token

/-- Characters that are set apart by spaces. -/
def isOperator (c : Char) : Bool :=
  c == '{' || c == '}' || c == '(' || c == ')' || c == ';' || c == ',' || c == '='

/-- Sets every operator between two spaces; a space that stood beside it is not kept. The text has
no two spaces in a row, and `behind` tells whether an operator was just written. -/
def padOperators (behind : Bool) : List Char → List Char
  | [] => []
  | c :: rest =>
    if c = ' ' then
      if behind || rest.head?.any isOperator then padOperators false rest
      else ' ' :: padOperators false rest
    else if isOperator c then ' ' :: c :: ' ' :: padOperators true rest
    else c :: padOperators false rest

def normalizeChars (text : List Char) : List Char :=
  Text.trim (padOperators false (Text.collapseBlanks text))

/-- The words of a text in lower case. -/
def lowerWords (text : List Char) : List (List Char) :=
  Text.words ((Text.lower text).map fun c => if Text.isWord c || Text.isBlank c then c else ' ')

/-- An identifier starts with a small letter, or with a capital in front of one. -/
def startsIdentifier (c : Char) (rest : List Char) : Bool :=
  Text.isAsciiLower c || (Text.isAsciiUpper c && rest.head?.any Text.isAsciiLower)

/-- The identifiers of a text; `current` is the one being read, last character first. -/
def identifiersFrom (current : List Char) : List Char → List (List Char)
  | [] => if current.isEmpty then [] else [current.reverse]
  | c :: rest =>
    if !current.isEmpty && Text.isAsciiAlphanumeric c then identifiersFrom (c :: current) rest
    else
      let next := identifiersFrom (if startsIdentifier c rest then [c] else []) rest
      if current.isEmpty then next else current.reverse :: next

/-- The parts of an identifier, each starting at a capital, in lower case. -/
def identifierParts (identifier : List Char) : List (List Char) :=
  (Text.words (identifier.flatMap fun c => if Text.isAsciiUpper c then [' ', c] else [c])).map
    fun part => part.map Char.toLower

/-- How many characters there are up to the end of a block comment. -/
def blockLength? : List Char → Option Nat
  | [] => none
  | c :: rest =>
    if c = '*' && rest.head? == some '/' then some 2 else (blockLength? rest).map (· + 1)

/-- The length of the comment that starts with a slash in front of the given text. -/
def commentLength? : List Char → Option Nat
  | '/' :: rest => some (2 + (rest.takeWhile (· != '\n')).length)
  | '*' :: rest => (blockLength? rest).map (· + 2)
  | _ => none

/-- The comments of a text from left to right; `skip` counts characters of the last one. -/
def commentsFrom (skip : Nat) : List Char → List (List Char)
  | [] => []
  | c :: rest =>
    match skip with
    | skip + 1 => commentsFrom skip rest
    | 0 =>
      if c = '/' then
        match commentLength? rest with
        | some length => (c :: rest).take length :: commentsFrom (length - 1) rest
        | none => commentsFrom 0 rest
      else commentsFrom 0 rest

/-- Takes the marks of comments out of a text. -/
def dropMarks : List Char → List Char
  | '/' :: '/' :: rest => dropMarks rest
  | '/' :: '*' :: rest => dropMarks rest
  | '*' :: '/' :: rest => dropMarks rest
  | c :: rest => c :: dropMarks rest
  | [] => []

/-- The longer words of the comments. -/
def commentWords (text : List Char) : List (List Char) :=
  (commentsFrom 0 text).flatMap fun comment =>
    (Text.words (dropMarks comment)).filter fun word => decide (2 < word.length)

/-- All tokens of a text, without those of one character. -/
def tokens (text : List Char) : List (List Char) :=
  (lowerWords text ++ (identifiersFrom [] text).flatMap identifierParts ++ commentWords text).filter
    fun token => decide (1 < token.length)

/-- Words of programming languages. -/
def keywords : List String := [
  "function", "class", "interface", "type", "const", "let", "var", "async", "await", "return", "if",
  "else", "for", "while", "switch", "import", "export", "from", "default", "extends", "implements",
  "public", "private", "protected", "static", "abstract", "readonly", "string", "number", "boolean",
  "object", "array", "void", "any", "null", "undefined", "true", "false", "this", "super", "def",
  "elif", "lambda", "yield", "raise", "try", "except", "finally", "with", "self", "none"]

/-- Names of types. -/
def typeNames : List String := [
  "string", "number", "boolean", "object", "array", "void", "any", "null", "undefined", "promise",
  "map", "set"]

/-- A letter and then letters or digits. -/
def isIdentifier (token : List Char) : Bool :=
  match token with
  | [] => false
  | c :: rest =>
    (Text.isAsciiLower c || Text.isAsciiUpper c) && rest.all Text.isAsciiAlphanumeric

/-- Keywords weigh most, then type names, then identifiers, then all other code. -/
def weight {α : Type} [Scalar α] (token : List Char) : α :=
  let name := String.ofList (Text.lower token)
  if keywords.contains name then 2.0
  else if typeNames.contains name then 1.7
  else if decide (2 < token.length) && isIdentifier token then 1.5
  else 1.0

end CodeSearch.Token

namespace CodeSearch

/-- The normal form in which code is embedded. -/
def normalizeCode (code : String) : String := String.ofList (Token.normalizeChars code.toList)

/-- The tokens of a text, pass by pass. -/
def tokenize (text : String) : List String := (Token.tokens text.toList).map String.ofList

end CodeSearch
