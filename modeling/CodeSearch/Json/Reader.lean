import CodeSearch.Json.Value
import CodeSearch.Numeral.Parse
import CodeSearch.OrderedMap
import CodeSearch.Text.Pieces

/-! # Reading JSON

The reader takes the text from the front and hands back what is left. Besides standard JSON it reads
the words for infinities and for the undefined number. Of repeated field names the last value
counts.
-/

namespace CodeSearch.Json

/-- Why a text was not read. -/
inductive ReadError where
  | malformed
  /-- A whole number has more digits than are ever converted. -/
  | longInteger
  /-- Lists and records lie too deep in one another. -/
  | tooDeep

def isSpace (c : Char) : Bool := c == ' ' || c == '\n' || c == '\t' || c == '\r'

def skipSpace (text : List Char) : List Char := text.dropWhile isSpace

/-- Four hexadecimal digits and what follows them. -/
def hexUnit? : List Char → Option (Nat × List Char)
  | a :: b :: c :: d :: rest => do
    let values ← [a, b, c, d].mapM Text.hexValue?
    some (values.foldl (fun total value => total * 16 + value) 0, rest)
  | _ => none

def isHighHalf (unit : Nat) : Bool := decide (0xD800 ≤ unit) && decide (unit < 0xDC00)

def isLowHalf (unit : Nat) : Bool := decide (0xDC00 ≤ unit) && decide (unit < 0xE000)

/-- The character of a pair of halves. -/
def joinedChar (high low : Nat) : Char :=
  Char.ofNat (0x10000 + (high - 0xD800) * 0x400 + (low - 0xDC00))

/-- The character that a unit starts, together with the half behind it if the two form a pair. A
half that stands alone has no character and is replaced. -/
def unitChar (unit : Nat) (rest : List Char) : Char × List Char :=
  if isHighHalf unit then
    match rest with
    | '\\' :: 'u' :: tail =>
      match hexUnit? tail with
      | some (low, after) =>
        if isLowHalf low then (joinedChar unit low, after)
        else (Char.ofNat 0xFFFD, rest)
      | none => (Char.ofNat 0xFFFD, rest)
    | _ => (Char.ofNat 0xFFFD, rest)
  else if isLowHalf unit then (Char.ofNat 0xFFFD, rest)
  else (Char.ofNat unit, rest)

/-- What a one-letter escape stands for. -/
def escaped? : Char → Option Char
  | '"' => some '"'
  | '\\' => some '\\'
  | '/' => some '/'
  | 'b' => some '\x08'
  | 'f' => some '\x0c'
  | 'n' => some '\n'
  | 'r' => some '\r'
  | 't' => some '\t'
  | _ => none

/-- The rest of a text behind its opening quote; `seen` holds its characters, last first, and `fuel`
bounds their number. -/
def readText (seen : List Char) : Nat → List Char → Except ReadError (String × List Char)
  | 0, _ => .error .malformed
  | _ + 1, [] => .error .malformed
  | fuel + 1, c :: rest =>
    if c = '"' then .ok (String.ofList seen.reverse, rest)
    else if c = '\\' then
      match rest with
      | 'u' :: tail =>
        match hexUnit? tail with
        | some (unit, after) =>
          let (char, after) := unitChar unit after
          readText (char :: seen) fuel after
        | none => .error .malformed
      | d :: tail =>
        match escaped? d with
        | some char => readText (char :: seen) fuel tail
        | none => .error .malformed
      | [] => .error .malformed
    else if c.toNat < 32 then .error .malformed
    else readText (c :: seen) fuel rest

/-- The digits of a whole number: a zero alone, or digits that start with another. -/
def wholeDigits : List Char → List Char × List Char
  | '0' :: rest => (['0'], rest)
  | text => text.span Text.isAsciiDigit

/-- A point with digits behind it; a point without digits is left where it is. -/
def fractionDigits : List Char → List Char × List Char
  | '.' :: rest =>
    let (found, after) := rest.span Text.isAsciiDigit
    if found.isEmpty then ([], '.' :: rest) else (found, after)
  | text => ([], text)

/-- An exponent with digits; without digits it is left where it is. -/
def exponentPart (text : List Char) : Option Int × List Char :=
  match text with
  | c :: rest =>
    if c = 'e' || c = 'E' then
      let (negative, body) := Numeral.signed rest
      let (found, after) := body.span Text.isAsciiDigit
      let size : Int := Numeral.ofDigits (found.map fun d => d.toNat - '0'.toNat)
      if found.isEmpty then (none, text) else (some (if negative then -size else size), after)
    else (none, text)
  | [] => (none, [])

def readNumber (negative : Bool) (text : List Char) : Except ReadError (Value × List Char) :=
  let (whole, rest) := wholeDigits text
  if whole.isEmpty then .error .malformed
  else
    let (behind, rest) := fractionDigits rest
    let (exponent, rest) := exponentPart rest
    let count := Numeral.ofDigits ((whole ++ behind).map fun d => d.toNat - '0'.toNat)
    if behind.isEmpty && exponent.isNone then
      if Numeral.digitLimit < whole.length then .error .longInteger
      else .ok (.integer (if negative then -(count : Int) else count), rest)
    else .ok (.real (Numeral.toFloat negative count (exponent.getD 0 - behind.length)), rest)

/-- The words that stand for a value of their own. -/
def wordValue? (text : List Char) : Option (Value × List Char) :=
  let forms : List (String × Value) := [
    ("null", .null), ("true", .bool true), ("false", .bool false), ("NaN", .real (0 / 0)),
    ("Infinity", .real (1 / 0)), ("-Infinity", .real (-(1 / 0)))]
  forms.findSome? fun (word, value) =>
    (Text.dropOpening? word.toList text).map fun rest => (value, rest)

mutual

/-- Reads one value; `fuel` bounds the number of steps and `depth` what may still be opened. -/
def readValue (depth : Nat) : Nat → List Char → Except ReadError (Value × List Char)
  | 0, _ => .error .malformed
  | fuel + 1, text =>
    match wordValue? text with
    | some found => .ok found
    | none =>
      match text, depth with
      | '"' :: rest, _ => do
        let (s, rest) ← readText [] fuel rest
        .ok (.text s, rest)
      | '[' :: _, 0 => .error .tooDeep
      | '[' :: rest, depth + 1 =>
        match skipSpace rest with
        | ']' :: rest => .ok (.list [], rest)
        | rest => do
          let (items, rest) ← readItems depth fuel rest
          .ok (.list items, rest)
      | '{' :: _, 0 => .error .tooDeep
      | '{' :: rest, depth + 1 =>
        match skipSpace rest with
        | '}' :: rest => .ok (.record [], rest)
        | rest => do
          let (fields, rest) ← readFields depth fuel rest
          .ok (.record (OrderedMap.ofList fields).entries, rest)
      | '-' :: rest, _ => readNumber true rest
      | text, _ => readNumber false text

/-- Reads the members of a list up to its closing bracket. -/
def readItems (depth : Nat) : Nat → List Char → Except ReadError (List Value × List Char)
  | 0, _ => .error .malformed
  | fuel + 1, text => do
    let (item, rest) ← readValue depth fuel (skipSpace text)
    match skipSpace rest with
    | ']' :: rest => .ok ([item], rest)
    | ',' :: rest =>
      let (items, rest) ← readItems depth fuel rest
      .ok (item :: items, rest)
    | _ => .error .malformed

/-- Reads the fields of a record up to its closing brace. -/
def readFields (depth : Nat) :
    Nat → List Char → Except ReadError (List (String × Value) × List Char)
  | 0, _ => .error .malformed
  | fuel + 1, text =>
    match skipSpace text with
    | '"' :: rest => do
      let (name, rest) ← readText [] fuel rest
      match skipSpace rest with
      | ':' :: rest =>
        let (value, rest) ← readValue depth fuel (skipSpace rest)
        match skipSpace rest with
        | '}' :: rest => .ok ([(name, value)], rest)
        | ',' :: rest =>
          let (fields, rest) ← readFields depth fuel rest
          .ok ((name, value) :: fields, rest)
        | _ => .error .malformed
      | _ => .error .malformed
    | _ => .error .malformed

end

/-- How many lists and records may lie in one another. -/
def depthLimit : Nat := 950

/-- Reads a text that holds one value and nothing else but space around it. Every character is
looked at by at most two of the readers above. -/
def read (text : String) : Except ReadError Value := do
  let chars := skipSpace text.toList
  let (value, rest) ← readValue depthLimit (2 * chars.length + 2) chars
  if (skipSpace rest).isEmpty then .ok value else .error .malformed

end CodeSearch.Json
