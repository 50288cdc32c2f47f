import CodeSearch.Text.Class

/-! # Reading numbers

Settings and command lines give numbers as text: digits of any script, with blanks around them and
single underscores between digits.
-/

namespace CodeSearch.Numeral

/-- A blank around a number: an ASCII one, or any blank beyond ASCII. -/
def isPadding (c : Char) : Bool :=
  if c.toNat < 128 then c == ' ' || (decide (9 ≤ c.toNat) && decide (c.toNat ≤ 13))
  else Text.isBlank c

def stripPadding (text : List Char) : List Char :=
  ((text.dropWhile isPadding).reverse.dropWhile isPadding).reverse

/-- The sign in front of a number; none means positive. -/
def signed : List Char → Bool × List Char
  | '-' :: rest => (true, rest)
  | '+' :: rest => (false, rest)
  | text => (false, text)

/-- Digits with single underscores between them, as their values; `previous` tells whether the
character before was a digit. -/
def digitRun? (previous : Bool) : List Char → Option (List Nat)
  | [] => if previous then some [] else none
  | c :: rest =>
    match Text.digitValue? c with
    | some value => (digitRun? true rest).map (value :: ·)
    | none => if c = '_' && previous then digitRun? false rest else none

def ofDigits (values : List Nat) : Nat := values.foldl (fun total value => total * 10 + value) 0

/-- Whole numbers have at most this many digits. -/
def digitLimit : Nat := 4300

/-- Reads a whole number. -/
def integer? (text : List Char) : Option Int := do
  let (negative, body) := signed (stripPadding text)
  let values ← digitRun? false body
  if digitLimit < values.length then none
  else some (if negative then -(ofDigits values : Int) else ofDigits values)

/-- A decimal number `digits * 10 ^ exponent` as the nearest double. Numbers with a leading digit
far beyond the range are infinite or zero, whatever their digits. -/
def toFloat (negative : Bool) (count : Nat) (exponent : Int) : Float :=
  let size := (Nat.toDigits 10 count).length
  let magnitude : Float :=
    if count = 0 then 0
    else if exponent + size > 400 then 1 / 0
    else if exponent + size < -400 then 0
    else if exponent < 0 then Float.ofScientific count true (-exponent).toNat
    else Float.ofScientific count false exponent.toNat
  if negative then -magnitude else magnitude

/-- Splits off a maximal run of digits and underscores. -/
def spanDigits (text : List Char) : List Char × List Char :=
  text.span fun c => (Text.digitValue? c).isSome || c == '_'

/-- The digits of a part of a number that may be left out. -/
def optionalRun? (text : List Char) : Option (List Nat) :=
  if text.isEmpty then some [] else digitRun? false text

/-- The exponent part, if there is one. -/
def exponent? : List Char → Option Int
  | [] => some 0
  | c :: rest =>
    if c = 'e' || c = 'E' then
      let (negative, body) := signed rest
      (digitRun? false body).map fun values =>
        if negative then -(ofDigits values : Int) else ofDigits values
    else none

/-- The unsigned decimal numbers: digits before or after a point, and an exponent. -/
def decimal? (negative : Bool) (text : List Char) : Option Float := do
  let (whole, rest) := spanDigits text
  let (behind, rest) :=
    match rest with
    | '.' :: rest => spanDigits rest
    | _ => ([], rest)
  if whole.isEmpty && behind.isEmpty then none
  else
    let front ← optionalRun? whole
    let back ← optionalRun? behind
    let exponent ← exponent? rest
    some (toFloat negative (ofDigits (front ++ back)) (exponent - back.length))

/-- Reads a number, an infinity or an undefined value. -/
def real? (text : List Char) : Option Float :=
  let (negative, body) := signed (stripPadding text)
  let name := String.ofList (body.map Char.toLower)
  if name = "inf" || name = "infinity" then some (if negative then -(1 / 0) else 1 / 0)
  else if name = "nan" then some (0 / 0)
  else decimal? negative body

end CodeSearch.Numeral
