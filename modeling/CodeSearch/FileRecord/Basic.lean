import CodeSearch.FileRecord.Dependencies
import CodeSearch.Symbol.Extraction

/-! # File records

What the index keeps about a file besides its chunks. Times are values of a scalar type.
-/

namespace CodeSearch

/-- The symbols and the module interface of one file. -/
structure FileRecord (α : Type) where
  path : String
  language : String
  /-- The length of the content in bytes of UTF-8. -/
  size : Nat
  indexedAt : α
  symbols : List Symbol
  imports : List String
  dependencies : List String
  exports : List String

/-- Imports and dependencies are the same identifiers. -/
def FileRecord.build {α : Type} (path content language : String) (indexedAt : α) : FileRecord α :=
  let dependencies := extractDependencies content language
  { path
    language
    size := content.utf8ByteSize
    indexedAt
    symbols := extractSymbols content language path
    imports := dependencies
    dependencies
    exports := extractExports content language }

end CodeSearch
