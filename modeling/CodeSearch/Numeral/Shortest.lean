import CodeSearch.Numeral.Binary

/-! # Shortest decimal texts

A double is written with the fewest digits that read back as the same double, and among those with
the digits nearest to its value. The real numbers that read back as a given double form an interval
around it; a decimal grid has a point in that interval exactly if one of the value's two neighbours
on the grid is one.
-/

namespace CodeSearch.Numeral

/-- Positive fractions with a common denominator: a double's value and the ends of the interval that
reads back as it. The ends belong to the interval if its mantissa is even. -/
structure Reading where
  low : Nat
  value : Nat
  high : Nat
  denominator : Nat
  closed : Bool

/-- A quarter of the last binary place is the unit, so that every end is whole. -/
def Reading.ofBinary (mantissa : Nat) (exponent : Int) : Reading :=
  let narrow := mantissa == twoTo 52 && decide (exponent > -1074)
  let unit := if exponent - 2 < 0 then 1 else twoTo (exponent - 2).toNat
  { low := (4 * mantissa - (if narrow then 1 else 2)) * unit
    value := 4 * mantissa * unit
    high := (4 * mantissa + 2) * unit
    denominator := if exponent - 2 < 0 then twoTo (2 - exponent).toNat else 1
    closed := mantissa % 2 == 0 }

/-- The exponent of the leading decimal digit. -/
def Reading.leading (r : Reading) : Int :=
  if r.denominator ≤ r.value then (digits (r.value / r.denominator)).length - 1
  else
    let below := (digits (r.denominator / r.value)).length
    if r.denominator ≤ r.value * tenTo (below - 1) then 1 - below else -below

/-- Whether `count` grid steps of `10 ^ place` lie in the interval. -/
def Reading.holds (r : Reading) (count : Nat) (place : Int) : Bool :=
  let point := count * r.denominator * tenTo place.toNat
  let low := r.low * tenTo (-place).toNat
  let high := r.high * tenTo (-place).toNat
  if r.closed then decide (low ≤ point) && decide (point ≤ high)
  else decide (low < point) && decide (point < high)

/-- The value's neighbour on the grid of `10 ^ place` that lies in the interval, the nearer one of
two and the even one at equal distance. -/
def Reading.nearest? (r : Reading) (place : Int) : Option Nat :=
  let numerator := r.value * tenTo (-place).toNat
  let step := r.denominator * tenTo place.toNat
  let below := numerator / step
  let rest := 2 * (numerator % step)
  match r.holds below place, r.holds (below + 1) place with
  | false, false => none
  | true, false => some below
  | false, true => some (below + 1)
  | true, true =>
    if rest < step then some below
    else if step < rest then some (below + 1)
    else if below % 2 = 0 then some below else some (below + 1)

/-- Tries one digit more at a time; seventeen digits always suffice. -/
def Reading.search (r : Reading) (leading : Int) : Nat → Nat → Nat × Int
  | _, 0 => (r.value / r.denominator, 0)
  | count, more + 1 =>
    let place := leading - count
    match r.nearest? place with
    | some found => (found, place)
    | none => r.search leading (count + 1) more

/-- Positional notation is used from `10 ^ (-4)` up to `10 ^ 16`. -/
def positional (exponent : Int) : Bool := decide (-4 ≤ exponent) && decide (exponent < 16)

/-- Writes the digits of a number whose leading digit stands for `10 ^ exponent`. A whole number
keeps one zero behind the point; an exponent has a sign and at least two digits. -/
def layOut (shown : List Char) (exponent : Int) : List Char :=
  if positional exponent then
    if exponent < 0 then
      ['0', '.'] ++ List.replicate (-exponent - 1).toNat '0' ++ shown
    else
      let whole := (exponent + 1).toNat
      let filled := shown ++ List.replicate (whole - shown.length) '0'
      let behind := filled.drop whole
      filled.take whole ++ ['.'] ++ (if behind.isEmpty then ['0'] else behind)
  else
    let mark := if exponent < 0 then ['e', '-'] else ['e', '+']
    let point := if shown.length ≤ 1 then [] else '.' :: shown.drop 1
    shown.take 1 ++ point ++ mark ++ padded 2 exponent.natAbs

/-- The shortest text of a double. -/
def shortest (x : Float) : String :=
  match Binary.ofFloat x with
  | .undefined => "nan"
  | .infinite negative => if negative then "-inf" else "inf"
  | .finite negative mantissa exponent =>
    let sign := if negative then ['-'] else []
    let body :=
      if mantissa = 0 then ['0', '.', '0']
      else
        let reading := Reading.ofBinary mantissa exponent
        let (count, place) := reading.search reading.leading 0 17
        let all := digits count
        let shown := (all.reverse.dropWhile (· == '0')).reverse
        layOut shown (place + all.length - 1)
    String.ofList (sign ++ body)

end CodeSearch.Numeral
