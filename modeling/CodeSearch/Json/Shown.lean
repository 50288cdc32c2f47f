import CodeSearch.Json.Value
import CodeSearch.Numeral.Shortest
import CodeSearch.Text.Quoted

/-! # Values as messages show them

Keys and messages show a value in a notation of their own, in which texts are quoted unless they
stand alone.
-/

namespace CodeSearch.Value

mutual

/-- A value as it stands inside another one. -/
def shown : Value → String
  | null => "None"
  | bool b => if b then "True" else "False"
  | integer n => toString n
  | real x => Numeral.shortest x
  | text s => quotedText s
  | list items => "[" ++ ", ".intercalate (shownItems items) ++ "]"
  | record fields => "\x7b" ++ ", ".intercalate (shownFields fields) ++ "\x7d"

def shownItems : List Value → List String
  | [] => []
  | item :: rest => shown item :: shownItems rest

def shownFields : List (String × Value) → List String
  | [] => []
  | (name, value) :: rest => (quotedText name ++ ": " ++ shown value) :: shownFields rest

end

/-- A value by itself: a text stands as it is. -/
def plain : Value → String
  | text s => s
  | value => shown value

end CodeSearch.Value
