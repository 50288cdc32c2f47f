import CodeSearch.Json.Value
import CodeSearch.Numeral.Shortest

/-! # Writing JSON -/

namespace CodeSearch.Json

/-- Quotes, backslashes and controls are escaped; all else stands as it is. -/
def escape (c : Char) : List Char :=
  if c = '"' then ['\\', '"']
  else if c = '\\' then ['\\', '\\']
  else if c.toNat < 32 then
    ['\\', 'u', '0', '0', Nat.digitChar (c.toNat / 16), Nat.digitChar (c.toNat % 16)]
  else [c]

def quote (text : String) : String :=
  String.ofList ('"' :: (text.toList.flatMap escape ++ ['"']))

/-- Pieces with commas between them. -/
def commaSeparated : List String → String
  | [] => ""
  | [piece] => piece
  | piece :: rest => piece ++ "," ++ commaSeparated rest

mutual

def write : Value → String
  | .null => "null"
  | .bool b => if b then "true" else "false"
  | .integer n => toString n
  | .real x => Numeral.shortest x
  | .text s => quote s
  | .list items => "[" ++ commaSeparated (writeItems items) ++ "]"
  | .record fields => "\x7b" ++ commaSeparated (writeFields fields) ++ "\x7d"

def writeItems : List Value → List String
  | [] => []
  | item :: rest => write item :: writeItems rest

def writeFields : List (String × Value) → List String
  | [] => []
  | (name, value) :: rest => (quote name ++ ":" ++ write value) :: writeFields rest

end

end CodeSearch.Json
