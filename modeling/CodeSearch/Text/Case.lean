import CodeSearch.Text.CaseTable
import CodeSearch.Text.FoldTable

/-! # Lower case and case folding

Lower-casing looks at a character's neighbours only for the capital sigma, whose small form at the
end of a word differs. Folding looks at one character at a time.
-/

namespace CodeSearch.Text

def isCased (c : Char) : Bool := casedRanges.contains c.toNat

def isCaseIgnorable (c : Char) : Bool := caseIgnorableRanges.contains c.toNat

/-- Whether the first character that counts for case is a cased letter. -/
def startsCased (text : List Char) : Bool :=
  match text.dropWhile isCaseIgnorable with
  | [] => false
  | c :: _ => isCased c

/-- The lower-case form of a character away from its neighbours. -/
def lowerChar (c : Char) : List Char :=
  if c.toNat = 0x130 then ['i', Char.ofNat 0x307]
  else [((CaseRun.image? lowerRuns c.toNat).map Char.ofNat).getD c]

/-- `before` holds what was read, nearest first. A sigma after a cased letter and before none is
final. -/
def lowerFrom (before : List Char) : List Char → List Char
  | [] => []
  | c :: rest =>
    let small :=
      if c = 'Σ' then
        if startsCased before && !startsCased rest then ['ς'] else ['σ']
      else lowerChar c
    small ++ lowerFrom (c :: before) rest

def lower (text : List Char) : List Char := lowerFrom [] text

def foldChar (c : Char) : List Char :=
  match foldExpansions.lookup c.toNat with
  | some expansion => expansion.map Char.ofNat
  | none => [((CaseRun.image? foldRuns c.toNat).map Char.ofNat).getD c]

/-- Texts with equal foldings differ in case only. -/
def fold (text : List Char) : List Char := text.flatMap foldChar

end CodeSearch.Text

namespace CodeSearch

/-- The lower-case form of a text. -/
def lowerCase (text : String) : String := String.ofList (Text.lower text.toList)

/-- The form in which names are compared without regard to case. -/
def foldCase (text : String) : String := String.ofList (Text.fold text.toList)

end CodeSearch
