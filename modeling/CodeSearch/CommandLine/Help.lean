import CodeSearch.CommandLine.Options

/-! # Help

A help page shows how a command is called, and what its words and its options mean. Calls that are
too long for a line are filled into several; meanings stand in a column of their own.
-/

namespace CodeSearch.CommandLine

/-- A label on a help page and its meaning, if it has one. -/
structure HelpEntry where
  indent : Nat := 2
  label : String
  meaning : Option String

/-- What a help page shows. -/
structure HelpPage where
  /-- The words with which a call begins. -/
  title : String
  purpose : Option String := none
  rules : List OptionRule
  /-- What stands for words where calls are shown. -/
  places : List String
  words : List HelpEntry

/-- Lines are no longer than this. -/
def lineWidth : Nat := 78

/-- Meanings begin no further right than this. -/
def lastColumn : Nat := 24

/-- Fills parts behind a first one into lines, as many to a line as there is room for. -/
def fillBehind (room : Nat) (line : String) : List String → List String
  | [] => [line]
  | part :: rest =>
    let longer := line ++ " " ++ part
    if longer.length ≤ room then fillBehind room longer rest else line :: fillBehind room part rest

def fill (room : Nat) : List String → List String
  | [] => []
  | part :: rest => fillBehind room part rest

def spaces (count : Nat) : String := String.ofList (List.replicate count ' ')

namespace OptionRule

/-- A name of an option with what stands for its value. -/
def call (rule : OptionRule) (name : String) : String :=
  match rule.kind with
  | .value placeholder _ => name ++ " " ++ placeholder
  | _ => name

/-- The option where calls are shown: by its first name. -/
def place (rule : OptionRule) : String :=
  "[" ++ String.join ((rule.names.take 1).map rule.call) ++ "]"

def entry (rule : OptionRule) : HelpEntry :=
  { label := ", ".intercalate (rule.names.map rule.call), meaning := some rule.meaning }

end OptionRule

/-- The lines of an entry whose meaning begins in a given column. -/
def HelpEntry.lines (column : Nat) (entry : HelpEntry) : List String :=
  let left := spaces entry.indent ++ entry.label
  match entry.meaning with
  | none => [left]
  | some meaning =>
    if left.length + 2 ≤ column then [left ++ spaces (column - left.length) ++ meaning]
    else [left, spaces column ++ meaning]

namespace HelpPage

/-- How the command is called. Where one line does not do, options and words have lines apart. -/
def callLines (page : HelpPage) : List String :=
  let opening := "usage: " ++ page.title
  let options := page.rules.map OptionRule.place
  let whole := " ".intercalate (opening :: (options ++ page.places))
  if whole.length ≤ lineWidth then [whole]
  else
    let indent := opening.length + 1
    match fill (lineWidth - indent) options ++ fill (lineWidth - indent) page.places with
    | [] => [opening]
    | first :: rest => (opening ++ " " ++ first) :: rest.map fun line => spaces indent ++ line

/-- The column of meanings: right of all labels, if that is not too far. -/
def column (page : HelpPage) : Nat :=
  let entries := page.words ++ page.rules.map OptionRule.entry
  min lastColumn ((entries.map fun entry => entry.label.length + 4).foldl max 0)

/-- A titled group of entries; an empty one is left out. -/
def sectionLines (page : HelpPage) (title : String) (entries : List HelpEntry) : List String :=
  if entries.isEmpty then [] else "" :: title :: entries.flatMap (HelpEntry.lines page.column)

def lines (page : HelpPage) : List String :=
  page.callLines ++ (page.purpose.toList.flatMap fun purpose => ["", purpose]) ++
    page.sectionLines "positional arguments:" page.words ++
    page.sectionLines "options:" (page.rules.map OptionRule.entry)

end HelpPage

end CodeSearch.CommandLine
