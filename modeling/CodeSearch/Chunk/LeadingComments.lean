import CodeSearch.Language
import CodeSearch.Text.Pieces

/-! # Comments above a declaration

Lines are read upwards from a declaration until one is neither a comment nor one of the lines that
may stand between a comment and its declaration. What remains of each comment line without its marks
is collected from top to bottom.
-/

namespace CodeSearch.LeadingComments

/-- What a line above a declaration means for the comment there. -/
inductive LineMeaning where
  | comment (text : List Char)
  /-- The line may stand between a comment and its declaration. -/
  | between
  /-- The comment cannot reach further up. -/
  | boundary

def dropStars (text : List Char) : List Char := text.dropWhile (· == '*')

/-- Takes the end of a block comment off: a slash, the stars before it and the blanks before those.
-/
def dropClosing (text : List Char) : List Char :=
  match text.reverse with
  | '/' :: '*' :: before => ((dropStars before).dropWhile Text.isBlank).reverse
  | _ => text

/-- Takes the stars off that continue a block comment. A star in front of a slash stays: it belongs
to the end of the comment. -/
def dropContinuation (text : List Char) : List Char :=
  let stars := text.takeWhile (· == '*')
  match text.drop stars.length with
  | '/' :: rest => if stars.length ≤ 1 then text else '*' :: '/' :: rest
  | rest => Text.trimLeft rest

def isPunctuation (c : Char) : Bool :=
  c == '{' || c == '}' || c == '[' || c == ']' || c == ';' || c == ',' || c == '(' || c == ')'

/-- The meaning of a trimmed line where slashes mark comments. -/
def slashedLine (line : List Char) : LineMeaning :=
  match line with
  | '/' :: '/' :: rest => .comment (Text.trimLeft (rest.dropWhile (· == '/')))
  | '/' :: '*' :: rest => .comment (dropClosing (Text.trimLeft (dropStars rest)))
  | '*' :: rest => .comment (dropClosing (dropContinuation ('*' :: rest)))
  | _ => if line.all isPunctuation then .between else .boundary

/-- The meaning of a trimmed line where a hash marks comments. -/
def hashedLine (line : List Char) : LineMeaning :=
  match line with
  | '#' :: rest => .comment (Text.trimLeft (rest.dropWhile (· == '#')))
  | [] => .between
  | '@' :: _ => .between
  | _ => .boundary

def meaning (family : CommentFamily) (line : List Char) : LineMeaning :=
  match family with
  | .slashes => slashedLine (Text.trim line)
  | .hash => hashedLine (Text.trim line)
  | .none => .boundary

/-- Collects comments from the lines above a declaration, the nearest line first. -/
def collect (family : CommentFamily) : List (List Char) → List (List Char)
  | [] => []
  | line :: above =>
    match meaning family line with
    | .boundary => []
    | .between => collect family above
    | .comment text =>
      let text := Text.trim text
      if text.isEmpty then collect family above else collect family above ++ [text]

/-- The lines above an index, the nearest first, at most `lookback` of them. No lines can be named
above an index that lies beyond the end. -/
def linesAbove? (lines : List (List Char)) (index lookback : Int) : Option (List (List Char)) :=
  let count := (min index lookback).toNat
  if count = 0 then some []
  else if lines.length < index.toNat then none
  else some ((lines.take index.toNat).reverse.take count)

/-- The comments above the line of an index. Without comment marks no line is looked at. -/
def above? (family : CommentFamily) (lines : List (List Char)) (index lookback : Int) :
    Option (List (List Char)) :=
  if family = .none then some [] else (linesAbove? lines index lookback).map (collect family)

end CodeSearch.LeadingComments
