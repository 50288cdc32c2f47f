import CodeSearch.Symbol.Declaration
import CodeSearch.Text.Pieces

/-! # Finding symbols

Each line is searched on its own. Of the names found on a line every one is kept once; names are in
the order of their columns, and of several finds in one column that of the earlier pattern counts.
-/

namespace CodeSearch

/-- A name found on a line, with its column and the kind of the pattern that found it. -/
structure Finding where
  column : Nat
  name : List Char
  kind : SymbolKind
  deriving DecidableEq

/-- What the patterns of a table find on a line, pattern by pattern. -/
def findings (table : List Declaration) (line : List Char) : List Finding :=
  table.flatMap fun declaration =>
    (declaration.pattern.captures line).map fun capture =>
      ⟨capture.offset, capture.text, declaration.kind⟩

/-- Only the first find of each name is kept. -/
def keepFirst : List Finding → List Finding
  | [] => []
  | finding :: rest =>
    finding :: (keepFirst rest).filter fun later => later.name != finding.name

/-- The finds of a line in the order of their columns, each name once. -/
def lineFindings (table : List Declaration) (line : List Char) : List Finding :=
  keepFirst ((findings table line).mergeSort fun a b => decide (a.column ≤ b.column))

/-- Signatures are cut at this length. -/
def signatureLimit : Nat := 200

/-- The symbols of one line, given its number. -/
def lineSymbols (table : List Declaration) (filePath : String) (number : Nat) (line : List Char) :
    List Symbol :=
  (lineFindings table line).map fun finding =>
    { name := String.ofList finding.name
      kind := finding.kind
      filePath
      line := number
      signature := some (String.ofList ((Text.trim line).take signatureLimit)) }

/-- The symbols of consecutive lines, the first of which has the given number. -/
def symbolsFrom (table : List Declaration) (filePath : String) :
    Nat → List (List Char) → List Symbol
  | _, [] => []
  | number, line :: rest =>
    lineSymbols table filePath number line ++ symbolsFrom table filePath (number + 1) rest

theorem symbolsFrom_append (table : List Declaration) (filePath : String) (number : Nat)
    (first second : List (List Char)) :
    symbolsFrom table filePath number (first ++ second) =
      symbolsFrom table filePath number first ++
        symbolsFrom table filePath (number + first.length) second := by
  induction first generalizing number with
  | nil => rfl
  | cons line rest ih =>
    simp only [List.cons_append, symbolsFrom, ih, List.append_assoc, List.length_cons]
    rw [Nat.add_assoc, Nat.add_comm 1]

/-- The symbols of a text in a language given by its tag, from top to bottom. -/
def extractSymbols (content tag filePath : String) : List Symbol :=
  symbolsFrom (Declaration.tableOf tag) filePath 1 (Text.lines content.toList)

end CodeSearch
