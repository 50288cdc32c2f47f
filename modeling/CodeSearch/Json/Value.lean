/-! # Values that callers send

Arguments and request bodies arrive as dynamic values. Whole numbers and real numbers are kept
apart, because some answers show which of the two was given.
-/

namespace CodeSearch

/-- A value as a caller supplied it, of any kind. -/
inductive Value where
  | null
  | bool (b : Bool)
  | integer (n : Int)
  | real (x : Float)
  | text (s : String)
  | list (items : List Value)
  | record (fields : List (String × Value))
  deriving Inhabited

namespace Value

/-- The name of a value's kind, as messages about a wrong kind print it. -/
def kindName : Value → String
  | null => "NoneType"
  | bool _ => "bool"
  | integer _ => "int"
  | real _ => "float"
  | text _ => "str"
  | list _ => "list"
  | record _ => "dict"

def isNull : Value → Bool
  | null => true
  | _ => false

/-- Nothing, false, zero and everything empty count as no; the rest counts as yes. -/
def isTrue : Value → Bool
  | null => false
  | bool b => b
  | integer n => n != 0
  | real x => x != 0
  | text s => !s.isEmpty
  | list items => !items.isEmpty
  | record fields => !fields.isEmpty

mutual

/-- Whether every number in a value is finite. -/
def isFinite : Value → Bool
  | real x => x.isFinite
  | list items => allFinite items
  | record fields => fieldsFinite fields
  | _ => true

def allFinite : List Value → Bool
  | [] => true
  | item :: rest => isFinite item && allFinite rest

def fieldsFinite : List (String × Value) → Bool
  | [] => true
  | (_, value) :: rest => isFinite value && fieldsFinite rest

end

/-- The field of a record, if it has one of that name. -/
def field? (v : Value) (name : String) : Option Value :=
  match v with
  | record fields => fields.lookup name
  | _ => none

end Value

end CodeSearch
