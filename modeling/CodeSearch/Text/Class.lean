import CodeSearch.Text.DigitTable
import CodeSearch.Text.UnprintableRanges
import CodeSearch.Text.WordRanges

/-! # Classes of characters

Words, blanks and digits of every script. These are the classes that tokens, queries, declaration
patterns and numbers in settings are made of.
-/

namespace CodeSearch.Text

/-- A letter, digit or numeral of any script, or an underscore. -/
def isWord (c : Char) : Bool := wordRanges.contains c.toNat

/-- Every space of Unicode, with the controls that end lines or separate records. -/
def blankRanges : Ranges := [
  (9, 13), (28, 32), (133, 133), (160, 160), (5760, 5760), (8192, 8202), (8232, 8233), (8239, 8239),
  (8287, 8287), (12288, 12288)]

def isBlank (c : Char) : Bool := blankRanges.contains c.toNat

def isPrintable (c : Char) : Bool := !unprintableRanges.contains c.toNat

/-- The value of a decimal digit of any script. -/
def digitValue? (c : Char) : Option Nat :=
  (digitZeros.find? fun first => decide (first ≤ c.toNat) && decide (c.toNat < first + 10)).map
    (c.toNat - ·)

def isAsciiDigit (c : Char) : Bool := decide ('0' ≤ c) && decide (c ≤ '9')

def isAsciiLower (c : Char) : Bool := decide ('a' ≤ c) && decide (c ≤ 'z')

def isAsciiUpper (c : Char) : Bool := decide ('A' ≤ c) && decide (c ≤ 'Z')

def isAsciiAlphanumeric (c : Char) : Bool :=
  isAsciiLower c || isAsciiUpper c || isAsciiDigit c

/-- The value of a hexadecimal digit. -/
def hexValue? (c : Char) : Option Nat :=
  if isAsciiDigit c then some (c.toNat - '0'.toNat)
  else if 'a' ≤ c ∧ c ≤ 'f' then some (c.toNat - 'a'.toNat + 10)
  else if 'A' ≤ c ∧ c ≤ 'F' then some (c.toNat - 'A'.toNat + 10)
  else none

end CodeSearch.Text
