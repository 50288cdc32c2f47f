import CodeSearch.Scalar
import CodeSearch.Search.Query
import CodeSearch.Text.Sorting

/-! # Search options

Options narrow a search. Lists of types are kept in a normal form, so that neither order nor
repetition matters. A search is remembered under a key that lists the query and all options.
-/

namespace CodeSearch

/-- A number as a caller gave it, whole or not. -/
inductive Number (α : Type) where
  | whole (n : Int)
  | real (x : α)

namespace Number

variable {α : Type} [Scalar α]

def value : Number α → α
  | whole n => Scalar.ofInt n
  | real x => x

def text : Number α → String
  | whole n => toString n
  | real x => Scalar.text x

end Number

/-- What a caller may say about a search; what is left out falls back to the settings. -/
structure SearchOptions (α : Type) where
  limit : Option Int := none
  minScore : Option (Number α) := none
  fileTypes : Option (List String) := none
  boostTypes : Option (List String) := none
  useCache : Bool := true

namespace SearchOptions

variable {α : Type} [Scalar α]

/-- A file type without its points in front, in lower case. -/
def plainType (fileType : String) : String :=
  String.ofList ((Text.lower fileType.toList).dropWhile (· == '.'))

/-- The options with their lists sorted and without repetition. -/
def normalized (options : SearchOptions α) : SearchOptions α :=
  { options with
    fileTypes := options.fileTypes.map fun types => sortedSet (types.map plainType)
    boostTypes := options.boostTypes.map sortedSet }

/-- The file types that are searched; none given means all. -/
def allowedTypes (options : SearchOptions α) : List String := options.fileTypes.getD []

def boostedTypes (options : SearchOptions α) : List String := options.boostTypes.getD []

/-- How an option that is not given is written in a key. -/
def absentText : String := "None"

/-- The key under which the answer to a query is remembered. -/
def cacheKey (options : SearchOptions α) (query : String) : String :=
  String.intercalate "|" [
    normalizeQuery query,
    (options.limit.map toString).getD absentText,
    (options.minScore.map Number.text).getD absentText,
    String.intercalate "," options.allowedTypes,
    String.intercalate "," options.boostedTypes]

end SearchOptions

end CodeSearch
