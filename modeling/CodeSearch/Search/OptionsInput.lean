import CodeSearch.Json.Shown
import CodeSearch.Search.Ranking

/-! # Options of any kind

Callers that are not checked may put any value into the options of a search. Empty lists of types
are kept as they are given; others are put into normal form, for which their members must be of
kinds that can be sorted. What is wrong with a limit or a least score shows only when it is used.
-/

namespace CodeSearch

/-- Why options cannot be used as they were given. -/
inductive OptionsFault where
  | notIterable (kind : String)
  /-- A file type is no text and has no lower case. -/
  | noLowerCase (kind : String)
  | unhashable (kind : String)
  | incomparable (left right : String)
  /-- A member of a list is no text, and the list cannot be written into a key. -/
  | notText (place : Nat) (kind : String)
  /-- The limit is no whole number. -/
  | notIndex
  deriving DecidableEq

def OptionsFault.message : OptionsFault → String
  | notIterable kind => "'" ++ kind ++ "' object is not iterable"
  | noLowerCase kind => "'" ++ kind ++ "' object has no attribute 'lower'"
  | unhashable kind => "unhashable type: '" ++ kind ++ "'"
  | incomparable left right =>
    "'<' not supported between instances of '" ++ left ++ "' and '" ++ right ++ "'"
  | notText place kind =>
    "sequence item " ++ toString place ++ ": expected str instance, " ++ kind ++ " found"
  | notIndex => "slice indices must be integers or None or have an __index__ method"

namespace Value

/-- The number that a value is or stands for: the truth values count as one and zero. -/
def number? : Value → Option (Number Float)
  | integer n => some (.whole n)
  | real x => some (.real x)
  | bool b => some (.whole (if b then 1 else 0))
  | _ => none

def text? : Value → Option String
  | text s => some s
  | _ => none

/-- The members of a value: the characters of a text, or the names of a record. -/
def members : Value → Except OptionsFault (List Value)
  | text s => .ok (s.toList.map fun c => text (String.singleton c))
  | list items => .ok items
  | record fields => .ok (fields.map fun field => text field.1)
  | value => .error (.notIterable value.kindName)

/-- Only values without parts can be told apart in a set. -/
def isHashable : Value → Bool
  | list _ => false
  | record _ => false
  | _ => true

/-- Whether two values without parts count as one. -/
def same (a b : Value) : Bool :=
  match a.number?, b.number? with
  | some x, some y => x.value == y.value
  | none, none => a.plain == b.plain && a.kindName == b.kindName
  | _, _ => false

/-- A list without the values that count as one with an earlier value. -/
def distinct (values : List Value) : List Value :=
  (values.foldl (fun kept value => if kept.any value.same then kept else value :: kept) []).reverse

/-- Values without parts in rising order, if all are texts or all are numbers. -/
def sorted (values : List Value) : Except OptionsFault (List Value) :=
  match values.mapM text?, values.mapM number?, values with
  | some texts, _, _ => .ok ((sortedSet texts).map text)
  | none, some _, _ => .ok (byRising (fun value => (value.number?.map Number.value).getD 0) values)
  | none, none, [value] => .ok [value]
  | none, none, a :: b :: _ => .error (.incomparable b.kindName a.kindName)
  | none, none, [] => .ok []

/-- A list of file types in normal form. -/
def fileTypes (value : Value) : Except OptionsFault Value := do
  let plainTypes ← (← value.members).mapM fun
    | text fileType => .ok (SearchOptions.plainType fileType)
    | member => .error (.noLowerCase member.kindName)
  return list ((sortedSet plainTypes).map text)

/-- A list of kinds of chunks in normal form. -/
def boostTypes (value : Value) : Except OptionsFault Value := do
  let members ← value.members
  match members.find? fun member => !member.isHashable with
  | some member => .error (.unhashable member.kindName)
  | none => return list (← sorted (distinct members))

/-- The texts of a list, written one after another. -/
def joined (value : Value) : Except OptionsFault String := do
  let texts ← value.members.toOption.getD [] |>.zipIdx.mapM fun
    | (text s, _) => .ok s
    | (member, place) => .error (.notText place member.kindName)
  return ",".intercalate texts

end Value

/-- The options of a search as they were given. -/
structure OptionsInput where
  limit : Value := .null
  minScore : Value := .null
  fileTypes : Value := .null
  boostTypes : Value := .null
  useCache : Value := .bool true

namespace OptionsInput

/-- The options with their lists in normal form. -/
def normalized (options : OptionsInput) : Except OptionsFault OptionsInput := do
  let fileTypes ←
    if options.fileTypes.isTrue then options.fileTypes.fileTypes else .ok options.fileTypes
  let boostTypes ←
    if options.boostTypes.isTrue then options.boostTypes.boostTypes else .ok options.boostTypes
  return { options with fileTypes, boostTypes }

/-- The key under which the answer to a query is remembered. -/
def cacheKey (options : OptionsInput) (query : String) : Except OptionsFault String := do
  let fileTypes ← options.fileTypes.joined
  let boostTypes ← options.boostTypes.joined
  return String.intercalate "|"
    [normalizeQuery query, options.limit.plain, options.minScore.plain, fileTypes, boostTypes]

/-- The texts of a list of types; other members fit no chunk. -/
def typesOf (value : Value) : Option (List String) :=
  if value.isNull then none else some ((value.members.toOption.getD []).filterMap Value.text?)

/-- The options with what has another kind than is asked for left out. -/
def typed (options : OptionsInput) : SearchOptions Float :=
  { limit := match options.limit.number? with
      | some (.whole n) => some n
      | _ => none
    minScore := options.minScore.number?
    fileTypes := typesOf options.fileTypes
    boostTypes := typesOf options.boostTypes
    useCache := options.useCache.isTrue }

/-- Ranks a corpus. The least score is compared with as soon as there is a chunk of an allowed type;
the limit is looked at last. -/
def rank (settings : Settings Float) (embedder : Embedder Float) (query : String)
    (options : OptionsInput) (corpus : List (Embedding Float)) :
    Except OptionsFault (List (Hit Float)) := do
  let options ← options.normalized
  let wish := Ranking.Wish.of embedder query options.typed
  let compares := corpus.any fun embedding => Ranking.isAllowed wish embedding.chunk
  if !options.minScore.isNull && options.minScore.number?.isNone && compares then
    .error (.incomparable "float" options.minScore.kindName)
  else if !options.limit.isNull && options.typed.limit.isNone then .error .notIndex
  else return CodeSearch.rank settings embedder query options.typed corpus

end OptionsInput

end CodeSearch
