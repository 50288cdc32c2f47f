import CodeSearch.Text.Pieces

/-! # Sorted texts -/

namespace CodeSearch

/-- The texts that occur in a list, each once, in rising order. -/
def sortedSet (texts : List String) : List String := texts.eraseDups.mergeSort textLE

theorem mem_sortedSet (text : String) (texts : List String) :
    text ∈ sortedSet texts ↔ text ∈ texts := by
  rw [sortedSet, List.mem_mergeSort, List.mem_eraseDups]

end CodeSearch
