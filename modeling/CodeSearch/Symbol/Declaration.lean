import CodeSearch.Language
import CodeSearch.Pattern
import CodeSearch.Symbol.Basic

/-! # Declaration patterns

Each language has a table of patterns. What a pattern captures is the declared name; the first
pattern of the table that captures a name on a line decides its kind.
-/

namespace CodeSearch

/-- A pattern for declarations and the kind that it stands for. -/
structure Declaration where
  pattern : Pattern
  kind : SymbolKind

namespace Declaration

open Pattern

/-- A keyword that starts a word, a gap and the name. -/
def keyword (text : String) (kind : SymbolKind) : Declaration :=
  ⟨all [wordEdge, word text, gap, name], kind⟩

/-- Type arguments or nothing. -/
def typeArguments : Pattern :=
  optional (all [word "<", run (· != '>') 0, word ">"])

/-- Something in parentheses. -/
def parenthesised : Pattern := all [word "(", run (· != ')') 0, word ")"]

def script : List Declaration := [
  ⟨all [wordEdge, word "function", wordEdge, blanks, optional (word "*"), blanks, name], .function⟩,
  keyword "class" .classType,
  keyword "interface" .interface,
  ⟨all [wordEdge, word "type", gap, name, blanks, typeArguments, blanks, word "="], .type⟩,
  keyword "enum" .enum]

def python : List Declaration := [
  ⟨all [lineStart, blanks, optional (all [word "async", gap]), word "def", gap, name], .function⟩,
  ⟨all [lineStart, blanks, word "class", gap, name], .classType⟩]

def go : List Declaration := [
  ⟨all [lineStart, blanks, word "func", gap, optional (all [parenthesised, blanks]), name],
    .function⟩,
  ⟨all [lineStart, blanks, word "type", gap, name, gap, word "struct", wordEdge], .classType⟩,
  ⟨all [lineStart, blanks, word "type", gap, name, gap, word "interface", wordEdge], .interface⟩]

/-- A visibility, possibly with a scope, or nothing. -/
def visibility : Pattern := optional (all [word "pub", optional parenthesised, gap])

def rust : List Declaration := [
  ⟨all [wordEdge, visibility, optional (all [word "async", gap]), word "fn", gap, name], .function⟩,
  ⟨all [wordEdge, visibility, word "struct", gap, name], .classType⟩,
  ⟨all [wordEdge, visibility, word "trait", gap, name], .interface⟩,
  ⟨all [wordEdge, visibility, word "enum", gap, name], .enum⟩]

/-- An enumeration written as a class counts as an enumeration, so enumerations come first. -/
def classBased : List Declaration := [
  ⟨all [wordEdge, word "enum", gap, optional (all [word "class", gap]), name], .enum⟩,
  keyword "class" .classType,
  keyword "interface" .interface]

/-- The table of a language. Languages without one have no symbols. -/
def table : Language → List Declaration
  | .typescript | .javascript => script
  | .python => python
  | .go => go
  | .rust => rust
  | .java | .kotlin | .csharp => classBased
  | _ => []

/-- The table of a language tag. -/
def tableOf (tag : String) : List Declaration :=
  match Language.ofName? tag with
  | some language => table language
  | none => []

end Declaration

end CodeSearch
