import CodeSearch.Json.Reader

/-! # Encodings of JSON

A JSON text comes as bytes in one of five encodings. It starts with ASCII characters, so the nulls
among its first bytes tell which encoding it is.
-/

namespace CodeSearch.Json

/-- How characters are written as bytes; a flag tells whether the high byte comes first. -/
inductive Encoding where
  | utf8
  | utf16 (highFirst : Bool)
  | utf32 (highFirst : Bool)
  deriving DecidableEq

def Encoding.ofBytes : List UInt8 → Encoding
  | a :: b :: c :: d :: _ =>
    if a = 0 then (if b = 0 then .utf32 true else .utf16 true)
    else if b = 0 then (if c = 0 && d = 0 then .utf32 false else .utf16 false)
    else .utf8
  | [a, b] => if a = 0 then .utf16 true else if b = 0 then .utf16 false else .utf8
  | _ => .utf8

/-- The number that bytes stand for when the highest one comes first. -/
def unitOf (bytes : List UInt8) : Nat := bytes.foldl (fun total byte => total * 256 + byte.toNat) 0

/-- Bytes taken two at a time. -/
def pairs? (highFirst : Bool) : List UInt8 → Option (List Nat)
  | [] => some []
  | a :: b :: rest =>
    (pairs? highFirst rest).map (unitOf (if highFirst then [a, b] else [b, a]) :: ·)
  | _ => none

/-- Bytes taken four at a time. -/
def quads? (highFirst : Bool) : List UInt8 → Option (List Nat)
  | [] => some []
  | a :: b :: c :: d :: rest =>
    (quads? highFirst rest).map (unitOf (if highFirst then [a, b, c, d] else [d, c, b, a]) :: ·)
  | _ => none

/-- The character of a number; a half of a pair has none and is replaced. -/
def scalarChar (unit : Nat) : Char :=
  if isHighHalf unit || isLowHalf unit then Char.ofNat 0xFFFD else Char.ofNat unit

/-- The characters that units of 16 bits stand for. -/
def joinHalves : List Nat → List Char
  | high :: low :: rest =>
    if isHighHalf high && isLowHalf low then joinedChar high low :: joinHalves rest
    else scalarChar high :: joinHalves (low :: rest)
  | [unit] => [scalarChar unit]
  | [] => []

/-- The characters that bytes in a given encoding stand for; `text` is their reading as UTF-8. -/
def Encoding.decode? (text : String) (bytes : List UInt8) : Encoding → Option String
  | .utf8 => some text
  | .utf16 highFirst => (pairs? highFirst bytes).map fun units => String.ofList (joinHalves units)
  | .utf32 highFirst => do
    let units ← quads? highFirst bytes
    if units.all fun unit => decide (unit < 0x110000) then
      some (String.ofList (units.map scalarChar))
    else none

/-- A text whose bytes may have been meant in another encoding than UTF-8, as it was meant. One mark
of the byte order in front of UTF-8 is passed over. -/
def recode? (text : String) : Option String :=
  match text.toList with
  | '\ufeff' :: rest => some (String.ofList rest)
  | chars =>
    if (chars.take 4).contains '\x00' then
      let bytes := text.toUTF8.toList
      (Encoding.ofBytes bytes).decode? text bytes
    else some text

end CodeSearch.Json
