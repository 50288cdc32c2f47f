import CodeSearch.Language
import CodeSearch.Text.Pieces

/-! # Where a declaration ends

The scanner reads the lines of a declaration and counts braces, and parentheses where they matter.
What stands in literals and comments does not count. The declaration ends on the line of the first
closing brace, after an opening one, that leaves nothing open.

A quote behind a backslash neither opens nor closes a literal. Where slashes mark comments, single
and double quotes do not reach beyond their line.
-/

namespace CodeSearch

/-- What the scanner has to know of a language. -/
structure Lexis where
  family : CommentFamily := .slashes
  /-- A single quote opens a literal only if one character and a closing quote follow. -/
  quotesOnlyChars : Bool := false

/-- The rules for a language tag. -/
def Lexis.ofTag (tag : String) : Lexis :=
  { family := commentFamilyOf tag
    quotesOnlyChars := (Language.ofName? tag).any Language.quotesOnlyChars }

/-- What surrounds the place that is scanned. -/
inductive Surrounding where
  | code
  | quoted (mark : Char)
  | blockComment
  deriving DecidableEq

/-- The state of a scan: what surrounds it, what is open, and whether a brace was opened at all. -/
structure Scan where
  inside : Surrounding := .code
  braces : Int := 0
  parens : Int := 0
  opened : Bool := false

/-- What a character leads to. -/
inductive Reaction where
  /-- The scan goes on behind `skip` further characters. -/
  | goOn (skip : Nat) (scan : Scan)
  /-- The rest of the line is a comment. -/
  | commented
  /-- The declaration ends here. -/
  | closed

namespace Boundary

def isQuote (c : Char) : Bool := c == '"' || c == '\'' || c == '`'

def isHex (c : Char) : Bool :=
  Text.isAsciiDigit c || (decide ('a' ≤ c) && decide (c ≤ 'f')) ||
    (decide ('A' ≤ c) && decide (c ≤ 'F'))

/-- The length of an escape by code point in braces, with the quote that closes it. -/
def codePointLength? (text : List Char) : Option Nat :=
  match text with
  | 'u' :: '{' :: rest =>
    let hex := rest.takeWhile isHex
    match rest.drop hex.length with
    | '}' :: '\'' :: _ => if hex.isEmpty then none else some (hex.length + 4)
    | _ => none
  | _ => none

/-- How many characters of a character literal follow its opening quote, if there is one. -/
def charLiteralLength? : List Char → Option Nat
  | '\\' :: rest =>
    match codePointLength? rest with
    | some length => some (length + 1)
    | none =>
      match rest with
      | c :: '\'' :: _ => if c = '\n' then none else some 3
      | _ => none
  | c :: '\'' :: _ => if c = '\'' then none else some 2
  | _ => none

def opensLineComment (family : CommentFamily) (c : Char) (rest : List Char) : Bool :=
  match family with
  | .slashes => c == '/' && rest.head? == some '/'
  | .hash => c == '#'
  | .none => false

def opensBlockComment (family : CommentFamily) (c : Char) (rest : List Char) : Bool :=
  family == .slashes && c == '/' && rest.head? == some '*'

/-- Counts a character that is neither in a literal nor in a comment. -/
def count (countParens : Bool) (scan : Scan) (c : Char) : Reaction :=
  if c = '(' && countParens then .goOn 0 { scan with parens := scan.parens + 1 }
  else if c = ')' && countParens then .goOn 0 { scan with parens := scan.parens - 1 }
  else if c = '{' then .goOn 0 { scan with braces := scan.braces + 1, opened := true }
  else if c = '}' then
    let left := scan.braces - 1
    if scan.opened && left == 0 && scan.parens == 0 then .closed
    else .goOn 0 { scan with braces := left }
  else .goOn 0 scan

/-- What a character of code leads to, given what follows it on its line. -/
def reactInCode (lexis : Lexis) (countParens escaped : Bool) (scan : Scan) (c : Char)
    (rest : List Char) : Reaction :=
  if c = '\'' && lexis.quotesOnlyChars then .goOn ((charLiteralLength? rest).getD 0) scan
  else if isQuote c && !escaped then .goOn 0 { scan with inside := .quoted c }
  else if opensLineComment lexis.family c rest then .commented
  else if opensBlockComment lexis.family c rest then .goOn 1 { scan with inside := .blockComment }
  else count countParens scan c

/-- What a character leads to; it is escaped if a backslash stands before it. -/
def react (lexis : Lexis) (countParens escaped : Bool) (scan : Scan) (c : Char)
    (rest : List Char) : Reaction :=
  match scan.inside with
  | .blockComment =>
    if c = '*' && rest.head? == some '/' then .goOn 1 { scan with inside := .code }
    else .goOn 0 scan
  | .quoted mark =>
    if c = mark && !escaped then .goOn 0 { scan with inside := .code } else .goOn 0 scan
  | .code => reactInCode lexis countParens escaped scan c rest

/-- Scans the rest of a line; nothing is left of the scan if the declaration ends on it. `before` is
the character in front, and `skip` counts characters that are passed over. -/
def scanLine (lexis : Lexis) (countParens : Bool) (skip : Nat) (before : Option Char)
    (scan : Scan) : List Char → Option Scan
  | [] => some scan
  | c :: rest =>
    match skip with
    | skip + 1 => scanLine lexis countParens skip (some c) scan rest
    | 0 =>
      match react lexis countParens (before == some '\\') scan c rest with
      | .goOn skip scan => scanLine lexis countParens skip (some c) scan rest
      | .commented => some scan
      | .closed => none

/-- Where slashes mark comments, the line's end ends single and double quotes. -/
def endLine (family : CommentFamily) (scan : Scan) : Scan :=
  if family = .slashes ∧ (scan.inside = .quoted '"' ∨ scan.inside = .quoted '\'') then
    { scan with inside := .code }
  else scan

/-- The number of the line, counted from zero, on which the declaration ends. -/
def scanLines (lexis : Lexis) (countParens : Bool) (scan : Scan) : List (List Char) → Option Nat
  | [] => none
  | line :: rest =>
    match scanLine lexis countParens 0 none scan line with
    | none => some 0
    | some scan => (scanLines lexis countParens (endLine lexis.family scan) rest).map (· + 1)

/-- The lines that follow each other from a place on. A place in front of the first line counts from
the end, and the first line follows the last one there; nothing lies further in front. -/
def linesFrom? (lines : List (List Char)) (start : Int) : Option (List (List Char)) :=
  if 0 ≤ start then some (lines.drop start.toNat)
  else if start < -(lines.length : Int) then none
  else some (lines.drop (start + lines.length).toNat ++ lines)

/-- The line on which the declaration that starts at a given place ends; there is no result if lines
are looked at and the place is none. -/
def findEndFrom? (lexis : Lexis) (countParens : Bool) (maxLines : Int) (lines : List (List Char))
    (start : Int) : Option (Option Int) :=
  let count := (min (start + maxLines) lines.length - start).toNat
  let found (window : List (List Char)) : Option Int :=
    (scanLines lexis countParens {} (window.take count)).map (start + ·)
  if count = 0 then some none else (linesFrom? lines start).map found

/-- The line on which the declaration that starts on a given line ends, if that is one of the next
`maxLines` lines. Lines are counted from zero. -/
def findEnd? (lexis : Lexis) (countParens : Bool) (maxLines : Int) (lines : List (List Char))
    (start : Nat) : Option Nat :=
  (scanLines lexis countParens {} ((lines.drop start).take maxLines.toNat)).map (start + ·)

end Boundary

/-- What a search for the end of a declaration gives. -/
inductive BoundaryResult where
  | failed
  | unknown
  | found (line : Int)

/-- Finds the last line of a declaration: given the lines, the first line, whether parentheses count
and how many lines are looked at. A scanner may fail. -/
structure BoundaryScanner where
  findEnd : List (List Char) → Nat → Bool → Int → BoundaryResult

/-- The scanner that counts braces never fails. -/
def BoundaryScanner.counting (lexis : Lexis) : BoundaryScanner where
  findEnd lines start countParens maxLines :=
    match Boundary.findEnd? lexis countParens maxLines lines start with
    | some line => .found line
    | none => .unknown

end CodeSearch
