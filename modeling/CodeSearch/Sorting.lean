/-! # Sorting by keys

Members are sorted by a key, and those whose keys do not differ keep their order. A number that is
undefined compares with nothing, not even with itself, so that with such keys no order is the right
one. Then members are inserted one after another by halving, behind the run with which the list
begins.
-/

namespace CodeSearch.Sorting

variable {β : Type}

/-- The members that follow `last` for as long as each goes on from the one before it, and the rest.
-/
def spanRun (goesOn : β → β → Bool) (last : β) : List β → List β × List β
  | [] => ([], [])
  | next :: rest =>
    if goesOn last next then
      let (run, rest) := spanRun goesOn next rest
      (next :: run, rest)
    else ([], next :: rest)

/-- The run with which a list begins, and the rest. A falling run is turned around. -/
def openingRun (less : β → β → Bool) : List β → List β × List β
  | first :: second :: rest =>
    if less second first then
      let (run, rest) := spanRun (fun last next => less next last) second rest
      ((first :: second :: run).reverse, rest)
    else
      let (run, rest) := spanRun (fun last next => !less next last) second rest
      (first :: second :: run, rest)
  | short => (short, [])

/-- The place between two others at which a member is inserted, found by halving. -/
def place (less : β → β → Bool) (sorted : List β) (member : β) (low high : Nat) : Nat :=
  if low < high then
    let middle := low + (high - low) / 2
    if sorted[middle]?.any (less member) then place less sorted member low middle
    else place less sorted member (middle + 1) high
  else low
termination_by high - low

def insert (less : β → β → Bool) (sorted : List β) (member : β) : List β :=
  let place := place less sorted member 0 sorted.length
  sorted.take place ++ member :: sorted.drop place

/-- Inserts one member after another behind the opening run. -/
def insertAll (less : β → β → Bool) (members : List β) : List β :=
  let (run, rest) := openingRun less members
  rest.foldl (insert less) run

theorem spanRun_append (goesOn : β → β → Bool) (last : β) (members : List β) :
    (spanRun goesOn last members).1 ++ (spanRun goesOn last members).2 = members := by
  induction members generalizing last with
  | nil => rfl
  | cons next rest ih =>
    by_cases on : goesOn last next = true
    · simp [spanRun, on, ih]
    · simp [spanRun, on]

theorem openingRun_perm (less : β → β → Bool) (members : List β) :
    ((openingRun less members).1 ++ (openingRun less members).2).Perm members := by
  match members with
  | [] => simp [openingRun]
  | [member] => simp [openingRun]
  | first :: second :: rest =>
    by_cases falls : less second first = true
    · rw [openingRun, if_pos falls]
      refine ((List.reverse_perm _).append_right _).trans ?_
      simp [spanRun_append]
    · rw [openingRun, if_neg falls]
      simp [spanRun_append]

theorem insert_perm (less : β → β → Bool) (sorted : List β) (member : β) :
    (insert less sorted member).Perm (member :: sorted) := by
  refine List.perm_middle.trans ?_
  rw [List.take_append_drop]

theorem foldl_insert_perm (less : β → β → Bool) (sorted members : List β) :
    (members.foldl (insert less) sorted).Perm (sorted ++ members) := by
  induction members generalizing sorted with
  | nil => simp
  | cons member rest ih =>
    refine (ih _).trans (((insert_perm less sorted member).append_right rest).trans ?_)
    exact List.perm_middle.symm

theorem insertAll_perm (less : β → β → Bool) (members : List β) :
    (insertAll less members).Perm members :=
  (foldl_insert_perm less _ _).trans (openingRun_perm less members)

private theorem append_inj_of_filter (holds : β → Bool)
    {first second first' second' : List β}
    (same : first ++ second = first' ++ second') (before : ∀ member ∈ first, holds member = true)
    (behind : ∀ member ∈ second, holds member = false)
    (before' : ∀ member ∈ first', holds member = true)
    (behind' : ∀ member ∈ second', holds member = false) : first = first' ∧ second = second' := by
  have kept : ∀ {front back : List β}, (∀ member ∈ front, holds member = true) →
      (∀ member ∈ back, holds member = false) → (front ++ back).filter holds = front := by
    intro front back before behind
    rw [List.filter_append, List.filter_eq_self.mpr before,
      List.filter_eq_nil_iff.mpr fun member known => by simp [behind member known], List.append_nil]
  have front : first = first' := by rw [← kept before behind, same, kept before' behind']
  exact ⟨front, List.append_cancel_left (front ▸ same)⟩

/-- Members may be selected before or behind a stable sort. -/
theorem filter_mergeSort {le : β → β → Bool}
    (trans : ∀ a b c, le a b = true → le b c = true → le a c = true)
    (total : ∀ a b, (le a b || le b a) = true) (keep : β → Bool) (members : List β) :
    (members.mergeSort le).filter keep = (members.filter keep).mergeSort le := by
  induction members with
  | nil => simp
  | cons member rest ih =>
    obtain ⟨front, back, sorted, others, smaller⟩ := List.mergeSort_cons trans total member rest
    rw [others, List.filter_append] at ih
    rw [sorted, List.filter_append, List.filter_cons, List.filter_cons]
    split
    · next kept =>
      obtain ⟨front', back', sorted', others', smaller'⟩ :=
        List.mergeSort_cons trans total member (rest.filter keep)
      have behind : ∀ {front back members : List β}, (member :: members).mergeSort le =
          front ++ member :: back → ∀ other ∈ back, (!le member other) = false := by
        intro front back members sorted other known
        have rising := List.pairwise_mergeSort trans total (member :: members)
        rw [sorted] at rising
        have below := (List.pairwise_cons.mp (List.pairwise_append.mp rising).2.1).1 other known
        simp [below]
      obtain ⟨sameFront, sameBack⟩ := append_inj_of_filter (fun other => !le member other)
        (ih.trans others') (fun other known => smaller other (List.mem_filter.mp known).1)
        (fun other known => behind sorted other (List.mem_filter.mp known).1) smaller'
        (behind sorted')
      rw [sorted', sameFront, sameBack]
    · exact ih

end CodeSearch.Sorting

namespace CodeSearch

variable {α β : Type} [LT α] [DecidableLT α] [LE α] [DecidableLE α]

/-- Whether all keys compare with themselves. -/
def keysDefined (key : β → α) (members : List β) : Bool :=
  members.all fun member => decide (key member ≤ key member)

/-- Members with smaller keys come first; members whose keys do not differ keep their order. -/
def byRising (key : β → α) (members : List β) : List β :=
  if keysDefined key members then members.mergeSort fun a b => !decide (key b < key a)
  else Sorting.insertAll (fun a b => decide (key a < key b)) members

/-- Members with greater keys come first; members whose keys do not differ keep their order. -/
def byFalling (key : β → α) (members : List β) : List β :=
  if keysDefined key members then members.mergeSort fun a b => !decide (key a < key b)
  else (Sorting.insertAll (fun a b => decide (key a < key b)) members.reverse).reverse

theorem byFalling_perm (key : β → α) (members : List β) : (byFalling key members).Perm members := by
  unfold byFalling
  split
  · exact List.mergeSort_perm members _
  · exact (List.reverse_perm _).trans
      ((Sorting.insertAll_perm _ _).trans (List.reverse_perm members))

/-- Where every key compares with itself, sorting merges. -/
theorem byFalling_eq_mergeSort (key : β → α) (members : List β)
    (defined : ∀ member ∈ members, key member ≤ key member) :
    byFalling key members = members.mergeSort fun a b => !decide (key a < key b) := by
  rw [byFalling, if_pos (by simpa [keysDefined] using defined)]

end CodeSearch
