import CodeSearch.Text.Quoted

/-! # UTF-8

Bytes are read as text only if every character is written in its shortest form and is no half of a
pair. The first place where that fails is reported with the bytes that were understood so far.
-/

namespace CodeSearch.Text

/-- Why bytes are not text. -/
inductive Utf8Reason where
  | start
  | continuation
  | truncated

/-- Where bytes cease to be text: how many come before, how many belong to the failure, and the
first of them. -/
structure Utf8Fault where
  position : Nat
  width : Nat
  byte : UInt8
  reason : Utf8Reason

def Utf8Reason.name : Utf8Reason → String
  | start => "invalid start byte"
  | continuation => "invalid continuation byte"
  | truncated => "unexpected end of data"

def Utf8Fault.message (fault : Utf8Fault) : String :=
  let place :=
    if fault.width = 1 then
      "byte 0x" ++ String.ofList (hexDigits 2 fault.byte.toNat) ++ " in position " ++
        toString fault.position
    else
      "bytes in position " ++ toString fault.position ++ "-" ++
        toString (fault.position + fault.width - 1)
  "'utf-8' codec can't decode " ++ place ++ ": " ++ fault.reason.name

def isContinuation (byte : UInt8) : Bool := decide (0x80 ≤ byte) && decide (byte < 0xC0)

/-- How many bytes follow a first byte, if it starts a character. -/
def followers? (byte : UInt8) : Option Nat :=
  if byte < 0x80 then some 0
  else if byte < 0xC2 then none
  else if byte < 0xE0 then some 1
  else if byte < 0xF0 then some 2
  else if byte < 0xF5 then some 3
  else none

/-- Whether a second byte may follow a first one: overlong forms, halves of pairs and numbers beyond
the last character are ruled out here. -/
def mayFollow (first second : UInt8) : Bool :=
  isContinuation second &&
    (first != 0xE0 || decide (0xA0 ≤ second)) && (first != 0xED || decide (second < 0xA0)) &&
    (first != 0xF0 || decide (0x90 ≤ second)) && (first != 0xF4 || decide (second < 0x90))

/-- How many of the following bytes are as they must be, up to the number that is asked for. -/
def goodFollowers (first : UInt8) (wanted : Nat) (bytes : List UInt8) : Nat :=
  match bytes.take wanted with
  | [] => 0
  | second :: rest =>
    if mayFollow first second then 1 + (rest.takeWhile isContinuation).length else 0

/-- The bits of a first byte that belong to the character. -/
def leadingBits (first : UInt8) (following : Nat) : Nat :=
  match following with
  | 0 => first.toNat
  | 1 => first.toNat % 32
  | 2 => first.toNat % 16
  | _ => first.toNat % 8

def codePoint (first : UInt8) (following : List UInt8) : Nat :=
  following.foldl (fun total byte => total * 64 + byte.toNat % 64)
    (leadingBits first following.length)

/-- Reads bytes from a position on; `skip` counts those that belong to the last character. -/
def decodeFrom (position skip : Nat) : List UInt8 → Except Utf8Fault (List Char)
  | [] => .ok []
  | byte :: rest =>
    match skip with
    | skip + 1 => decodeFrom (position + 1) skip rest
    | 0 =>
      match followers? byte with
      | none => .error ⟨position, 1, byte, .start⟩
      | some wanted =>
        let good := goodFollowers byte wanted rest
        if good = wanted then
          let c := Char.ofNat (codePoint byte (rest.take wanted))
          (decodeFrom (position + 1) wanted rest).map (c :: ·)
        else if good = rest.length then .error ⟨position, good + 1, byte, .truncated⟩
        else .error ⟨position, good + 1, byte, .continuation⟩

def decodeUtf8 (bytes : List UInt8) : Except Utf8Fault (List Char) := decodeFrom 0 0 bytes

end CodeSearch.Text
