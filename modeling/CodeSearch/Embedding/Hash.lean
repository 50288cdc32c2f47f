/-! # Hashing tokens

The hash is the polynomial of a token's UTF-16 units at 31, computed in words of 32 bits. Its sign
is dropped at the end.
-/

namespace CodeSearch

/-- The UTF-16 units of a character: one, or a pair for characters beyond the first plane. -/
def utf16Units (c : Char) : List UInt32 :=
  let code : UInt32 := c.val
  if code < 0x10000 then [code]
  else
    let above : UInt32 := code - 0x10000
    [(0xD800 : UInt32) + (above >>> 10), (0xDC00 : UInt32) + (above &&& 0x3FF)]

/-- One unit more: thirty-one times the value so far, and the unit. -/
def hashStep (value unit : UInt32) : UInt32 := (value <<< 5) - value + unit

/-- The hash of a sequence of units, as a word. -/
def hashUnits (units : List UInt32) : UInt32 := units.foldl hashStep 0

/-- The size of a word read as a signed number. -/
def signedSize (value : UInt32) : Nat :=
  if value < 0x80000000 then value.toNat else 0x100000000 - value.toNat

/-- The hash of a token. -/
def tokenHash (token : String) : Nat := signedSize (hashUnits (token.toList.flatMap utf16Units))

end CodeSearch
