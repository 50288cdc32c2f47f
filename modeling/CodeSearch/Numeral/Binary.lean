/-! # Doubles as exact binary fractions

A finite double is a whole number times a power of two. Decimal texts are computed from that value
and not from a rounded one.
-/

namespace CodeSearch.Numeral

/-- A power of two. -/
abbrev twoTo (n : Nat) : Nat := Nat.pow 2 n

/-- A power of ten. -/
abbrev tenTo (n : Nat) : Nat := Nat.pow 10 n

/-- What a double stands for. -/
inductive Binary where
  | undefined
  | infinite (negative : Bool)
  /-- The value `mantissa * 2 ^ exponent`, with the sign of a zero kept. -/
  | finite (negative : Bool) (mantissa : Nat) (exponent : Int)

/-- The fields of the double's bits: one of sign, eleven of exponent, the rest of fraction. -/
def Binary.ofFloat (x : Float) : Binary :=
  let bits : Nat := x.toBits.toNat
  let negative := bits / twoTo 63 == 1
  let raised : Nat := bits / twoTo 52 % twoTo 11
  let fraction : Nat := bits % twoTo 52
  if raised = 2047 then
    if fraction = 0 then .infinite negative else .undefined
  else if raised = 0 then .finite negative fraction (-1074)
  else .finite negative (twoTo 52 + fraction) ((raised : Int) - 1075)

/-- Digits in base ten, the leading one first. -/
def digits (n : Nat) : List Char := Nat.toDigits 10 n

/-- Zeros in front fill a number up to a width. -/
def padded (width n : Nat) : List Char :=
  let shown := digits n
  List.replicate (width - shown.length) '0' ++ shown

end CodeSearch.Numeral
