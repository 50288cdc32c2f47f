import CodeSearch.Json.Value
import CodeSearch.Numeral.Binary
import CodeSearch.Numeral.Parse
import CodeSearch.Text.Pieces

/-! # Fields of request bodies

Fields are read leniently: numbers and truth values may be given as texts, and numbers and truth
values may stand for each other where nothing is lost. All faults of a body are found, not only the
first.
-/

namespace CodeSearch.Http

/-- What is wrong with a part of a body. -/
inductive FieldFault where
  | missing
  | malformed
  | notRecord
  | notText
  | notList
  | notBool
  | unreadableBool
  | notInteger
  | unreadableInteger
  | fraction
  | infinite
  | tooLong
  | notNumber
  | unreadableNumber
  deriving DecidableEq

/-- The name under which a fault is reported. -/
def FieldFault.name : FieldFault → String
  | missing => "missing"
  | malformed => "json_invalid"
  | notRecord => "model_attributes_type"
  | notText => "string_type"
  | notList => "list_type"
  | notBool => "bool_type"
  | unreadableBool => "bool_parsing"
  | notInteger => "int_type"
  | unreadableInteger => "int_parsing"
  | fraction => "int_from_float"
  | infinite => "finite_number"
  | tooLong => "int_parsing_size"
  | notNumber => "float_type"
  | unreadableNumber => "float_parsing"

/-- A fault, the way to it from the top of the body, and the value that it is about. -/
structure PlacedFault where
  place : List String
  fault : FieldFault
  input : Value

/-- What was read, or every fault that was found. -/
inductive Checked (β : Type) where
  | passed (value : β)
  | failed (faults : List PlacedFault)

namespace Checked

variable {β γ : Type}

def map (function : β → γ) : Checked β → Checked γ
  | passed value => passed (function value)
  | failed faults => failed faults

/-- Faults of both sides are kept. -/
def apply : Checked (β → γ) → Checked β → Checked γ
  | passed function, passed value => passed (function value)
  | failed faults, passed _ => failed faults
  | passed _, failed faults => failed faults
  | failed first, failed second => failed (first ++ second)

/-- A part of the body lies under a name. -/
def below (name : String) : Checked β → Checked β
  | passed value => passed value
  | failed faults => failed (faults.map fun fault => { fault with place := name :: fault.place })

def refuse (input : Value) (fault : FieldFault) : Checked β := failed [⟨[], fault, input⟩]

def ofExcept (input : Value) : Except FieldFault β → Checked β
  | .ok value => passed value
  | .error fault => refuse input fault

/-- Reads every item and keeps the faults of all. -/
def all : List (Checked β) → Checked (List β)
  | [] => passed []
  | first :: rest => (first.map List.cons).apply (all rest)

end Checked

/-- A space of any script; separators of records are none. -/
def isSpace (c : Char) : Bool := Text.isBlank c && !(decide (28 ≤ c.toNat) && decide (c.toNat ≤ 31))

def trimSpace (text : List Char) : List Char :=
  ((text.dropWhile isSpace).reverse.dropWhile isSpace).reverse

def readText : Value → Checked String
  | .text text => .passed text
  | value => .refuse value .notText

/-- Texts that stand for truth values, in lower case. -/
def boolNames : List (String × Bool) := [
  ("0", false), ("off", false), ("f", false), ("false", false), ("n", false), ("no", false),
  ("1", true), ("on", true), ("t", true), ("true", true), ("y", true), ("yes", true)]

/-- The whole number that a number stands for, if it is not too large for a word of 64 bits. -/
def wholeOf (x : Float) : Except FieldFault Int :=
  match Numeral.Binary.ofFloat x with
  | .undefined => .error .infinite
  | .infinite _ => .error .infinite
  | .finite negative mantissa exponent =>
    let scale := Numeral.twoTo (-exponent).toNat
    if mantissa % scale ≠ 0 then .error .fraction
    else
      let size := mantissa / scale * Numeral.twoTo exponent.toNat
      if Numeral.twoTo 63 ≤ size then .error .tooLong
      else .ok (if negative then -(size : Int) else size)

def boolOfInteger (n : Int) : Except FieldFault Bool :=
  if n = 0 then .ok false else if n = 1 then .ok true else .error .unreadableBool

def boolOf : Value → Except FieldFault Bool
  | .bool b => .ok b
  | .text text =>
    match boolNames.lookup (String.ofList (text.toList.map Char.toLower)) with
    | some b => .ok b
    | none => .error .unreadableBool
  | .integer n => boolOfInteger n
  | .real x =>
    match wholeOf x with
    | .ok n => boolOfInteger n
    | .error _ => .error .notBool
  | _ => .error .notBool

def readBool (value : Value) : Checked Bool := .ofExcept value (boolOf value)

/-- The number behind zeros at its front, which underscores may follow. In front of a point the
character before it stays; without any other digit the last character does. -/
def afterZeros? (previous : Char) : List Char → Option (List Char)
  | [] => some [previous]
  | c :: rest =>
    if c = '0' || c = '_' then afterZeros? c rest
    else if c = '-' || Text.isAsciiDigit c then some (c :: rest)
    else if c = '.' then some (previous :: c :: rest)
    else none

/-- A number that starts with a digit or a minus, without the zeros at its front. -/
def dropLeadingZeros? : List Char → Option (List Char)
  | '0' :: rest => afterZeros? '0' rest
  | c :: rest => if c = '-' || Text.isAsciiDigit c then some (c :: rest) else none
  | [] => none

/-- A number without a fraction of zeros. -/
def dropZeroFraction (text : List Char) : List Char :=
  let (whole, rest) := text.span (· != '.')
  match rest with
  | '.' :: '0' :: zeros => if zeros.all (· == '0') then whole else text
  | _ => text

/-- Single underscores inside a text may be left out. -/
def dropUnderscores? (previous : Bool) : List Char → Option (List Char)
  | [] => if previous then some [] else none
  | '_' :: rest => if previous then dropUnderscores? false rest else none
  | c :: rest => (dropUnderscores? true rest).map (c :: ·)

/-- A plus is dropped, unless a minus follows. -/
def dropPlus? : List Char → Option (List Char)
  | '+' :: '-' :: _ => none
  | '+' :: rest => some rest
  | text => some text

/-- The digits of a number that starts with no zero, unless it is zero. -/
def plainDigits? (text : List Char) : Option (List Nat) :=
  if text.all Text.isAsciiDigit && (text.head? != some '0' || text.length == 1) then
    Numeral.digitRun? false text
  else none

/-- Reads a whole number of ASCII digits. -/
def integerOfText (text : List Char) : Except FieldFault Int :=
  let cleaned := do
    let unsigned ← dropPlus? (trimSpace text)
    let number ← dropLeadingZeros? unsigned
    dropUnderscores? false (dropZeroFraction number)
  let (negative, body) := match cleaned with
    | some ('-' :: body) => (true, plainDigits? body)
    | cleaned => (false, cleaned.bind plainDigits?)
  match body with
  | none => .error .unreadableInteger
  | some digits =>
    let size : Int := Numeral.ofDigits digits
    if Numeral.digitLimit < digits.length then .error .tooLong
    else .ok (if negative then -size else size)

def integerOf : Value → Except FieldFault Int
  | .integer n => .ok n
  | .bool b => .ok (if b then 1 else 0)
  | .text text => integerOfText text.toList
  | .real x => wholeOf x
  | _ => .error .notInteger

def readInteger (value : Value) : Checked Int := .ofExcept value (integerOf value)

/-- Reads a number of ASCII digits without underscores. -/
def plainNumber? (text : List Char) : Option Float :=
  if text.all fun c => decide (c.toNat < 128) && c != '_' && !isSpace c then
    Numeral.real? text
  else none

def numberOfText (text : List Char) : Except FieldFault Float :=
  match (plainNumber? (trimSpace text)).or ((dropUnderscores? false text).bind plainNumber?) with
  | some x => .ok x
  | none => .error .unreadableNumber

def numberOf : Value → Except FieldFault Float
  | .real x => .ok x
  | .integer n =>
    let x := Float.ofInt n
    if x.isInf then .error .notNumber else .ok x
  | .bool b => .ok (if b then 1 else 0)
  | .text text => numberOfText text.toList
  | _ => .error .notNumber

def readNumber (value : Value) : Checked Float := .ofExcept value (numberOf value)

/-- Reads a list item by item. -/
def readList {β : Type} (readItem : Value → Checked β) : Value → Checked (List β)
  | .list items =>
    .all (items.zipIdx.map fun (item, index) => (readItem item).below (toString index))
  | value => .refuse value .notList

/-- Null stands for nothing. -/
def readOptional {β : Type} (read : Value → Checked β) : Value → Checked (Option β)
  | .null => .passed none
  | value => (read value).map some

/-- A field that must be there. -/
def required {β : Type} (name : String) (read : Value → Checked β) (body : Value) : Checked β :=
  match body.field? name with
  | some value => (read value).below name
  | none => Checked.below name (.refuse body .missing)

/-- A field that may be left out. -/
def optional {β : Type} (name : String) (read : Value → Checked β) (default : β) (body : Value) :
    Checked β :=
  match body.field? name with
  | some value => (read value).below name
  | none => .passed default

end CodeSearch.Http
