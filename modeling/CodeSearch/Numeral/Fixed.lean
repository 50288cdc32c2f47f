import CodeSearch.Numeral.Binary

/-! # Numbers with a fixed count of decimal places

The exact value is rounded once, to the nearest multiple of the last place, a half to the even one.
-/

namespace CodeSearch.Numeral

/-- The nearest whole number to a quotient, of two the even one. -/
def roundDiv (numerator denominator : Nat) : Nat :=
  let low := numerator / denominator
  let rest := 2 * (numerator % denominator)
  if rest < denominator then low
  else if denominator < rest then low + 1
  else if low % 2 = 0 then low else low + 1

/-- The value in units of the last of `places` decimal places. -/
def scaled (places mantissa : Nat) (exponent : Int) : Nat :=
  if exponent < 0 then roundDiv (mantissa * tenTo places) (twoTo (-exponent).toNat)
  else mantissa * tenTo places * twoTo exponent.toNat

/-- A number written with exactly so many decimal places. -/
def fixed (places : Nat) (x : Float) : String :=
  match Binary.ofFloat x with
  | .undefined => "nan"
  | .infinite negative => if negative then "-inf" else "inf"
  | .finite negative mantissa exponent =>
    let units := scaled places mantissa exponent
    let sign := if negative then ['-'] else []
    let whole := digits (units / tenTo places)
    let point := if places = 0 then [] else '.' :: padded places (units % tenTo places)
    String.ofList (sign ++ whole ++ point)

end CodeSearch.Numeral
