import CodeSearch.Text.Class

/-! # Quoted texts

Messages show a text between quotes. The single mark is used unless the text holds it and does not
hold the double one. Characters that do not print are written by their numbers.
-/

namespace CodeSearch.Text

/-- The lower hexadecimal digits of a number, filled with zeros up to a width. -/
def hexDigits (width n : Nat) : List Char :=
  let shown := Nat.toDigits 16 n
  List.replicate (width - shown.length) '0' ++ shown

/-- The number of a character behind a letter that tells how many digits follow. -/
def numbered (c : Char) : List Char :=
  if c.toNat < 0x100 then '\\' :: 'x' :: hexDigits 2 c.toNat
  else if c.toNat < 0x10000 then '\\' :: 'u' :: hexDigits 4 c.toNat
  else '\\' :: 'U' :: hexDigits 8 c.toNat

/-- A character as it stands between marks. -/
def shownChar (mark c : Char) : List Char :=
  if c = mark || c = '\\' then ['\\', c]
  else if c = '\t' then ['\\', 't']
  else if c = '\n' then ['\\', 'n']
  else if c = '\r' then ['\\', 'r']
  else if isPrintable c then [c]
  else numbered c

/-- The mark that needs no escape, if there is one. -/
def quoteMark (text : List Char) : Char :=
  if text.contains '\'' && !text.contains '"' then '"' else '\''

def quoted (text : List Char) : List Char :=
  let mark := quoteMark text
  mark :: (text.flatMap (shownChar mark) ++ [mark])

end CodeSearch.Text

namespace CodeSearch

/-- A text as messages show it. -/
def quotedText (text : String) : String := String.ofList (Text.quoted text.toList)

end CodeSearch
