import CodeSearch.Files.Walk
import CodeSearch.Sorting
import Mathlib.Data.List.Pairwise
import Mathlib.Data.String.Basic

/-! # The order of a walk

A listing is walked in an order in which directories come before files and names rise without regard
to case. So it leads to the directories first and to the files of the directory itself last.
-/

namespace CodeSearch.Walk

variable {α : Type} [Scalar α] {settings : Settings α} {entries : List Entry}

theorem textLE_iff {a b : String} : textLE a b = true ↔ a ≤ b := by
  simp only [textLE, Bool.not_eq_true', decide_eq_false_iff_not, not_lt]

theorem precedes_trans (a b c : Entry) (first : precedes a b = true)
    (second : precedes b c = true) : precedes a c = true := by
  unfold precedes at first second ⊢
  cases kindA : a.isDirectory <;> cases kindB : b.isDirectory <;> cases kindC : c.isDirectory <;>
    simp_all [textLE_iff]
  · exact first.trans second
  · exact first.trans second

theorem precedes_total (a b : Entry) : (precedes a b || precedes b a) = true := by
  unfold precedes
  cases kindA : a.isDirectory <;> cases kindB : b.isDirectory <;> simp [textLE_iff, le_total]

/-- Of two entries the second one does not come first by its name, case aside. -/
def Rises (a b : Entry) : Prop := foldCase a.name ≤ foldCase b.name

instance (a b : Entry) : Decidable (Rises a b) := inferInstanceAs (Decidable (_ ≤ _))

theorem precedes_iff {a b : Entry} :
    precedes a b = true ↔
      a.isDirectory = b.isDirectory ∧ Rises a b ∨ a.isDirectory = true ∧ b.isDirectory = false := by
  unfold precedes Rises
  cases a.isDirectory <;> cases b.isDirectory <;> simp [textLE_iff]

/-- A directory that is walked. -/
def isWalked (settings : Settings α) (entry : Entry) : Bool :=
  entry.isDirectory && !settings.ignoresDirectory entry.name

/-- A file that is found. -/
def isFound (settings : Settings α) (entry : Entry) : Bool :=
  !entry.isDirectory && (!settings.ignoresFile entry.name && isIndexable entry.name)

theorem target?_of_isWalked {entry : Entry} (walked : isWalked settings entry = true) :
    target? settings entry = some (.directory entry.path) := by
  obtain ⟨directory, kept⟩ := Bool.and_eq_true_iff.mp walked
  rw [target?, if_pos directory, if_neg (by simpa using kept)]

theorem target?_of_isFound {entry : Entry} (found : isFound settings entry = true) :
    target? settings entry = some (.file entry.path) := by
  obtain ⟨file, kept⟩ := Bool.and_eq_true_iff.mp found
  rw [target?, if_neg (by simpa using file), if_pos kept]

theorem target?_of_neither {entry : Entry} (unwalked : isWalked settings entry = false)
    (unfound : isFound settings entry = false) : target? settings entry = none := by
  unfold isWalked at unwalked
  unfold isFound at unfound
  rw [target?]
  cases kind : entry.isDirectory <;> simp_all

private theorem filterMap_target? {sorted : List Entry}
    (rising : sorted.Pairwise fun a b => precedes a b = true) :
    sorted.filterMap (target? settings) =
      (sorted.filter (isWalked settings)).map (fun entry => .directory entry.path) ++
        (sorted.filter (isFound settings)).map fun entry => .file entry.path := by
  induction sorted with
  | nil => rfl
  | cons entry rest ih =>
    obtain ⟨first, rising⟩ := List.pairwise_cons.mp rising
    rw [List.filterMap_cons, List.filter_cons, List.filter_cons, ih rising]
    cases walked : isWalked settings entry with
    | true =>
      have other : isFound settings entry = false := by
        simp [isFound, (Bool.and_eq_true_iff.mp walked).1]
      simp [target?_of_isWalked walked, other]
    | false =>
      cases found : isFound settings entry with
      | false => simp [target?_of_neither walked found]
      | true =>
        have file : entry.isDirectory = false := by
          simpa using (Bool.and_eq_true_iff.mp found).1
        have none : rest.filter (isWalked settings) = [] := by
          refine List.filter_eq_nil_iff.mpr fun other member below => ?_
          have directory := (Bool.and_eq_true_iff.mp below).1
          rcases precedes_iff.mp (first other member) with ⟨same, -⟩ | ⟨ahead, -⟩
          · rw [file, directory] at same
            cases same
          · rw [file] at ahead
            cases ahead
        simp [target?_of_isFound found, none]

/-- A listing leads to its directories that are walked, and then to its files that are found, both
with rising names. -/
theorem targets_eq (settings : Settings α) (entries : List Entry) :
    ∃ directories own : List Entry,
      directories.Perm (entries.filter (isWalked settings)) ∧
      own.Perm (entries.filter (isFound settings)) ∧
      directories.Pairwise Rises ∧ own.Pairwise Rises ∧
      targets settings entries =
        directories.map (fun entry => .directory entry.path) ++
          own.map fun entry => .file entry.path := by
  have perm := List.mergeSort_perm entries precedes
  have rising := List.pairwise_mergeSort precedes_trans precedes_total entries
  have rises : ∀ {keep : Entry → Bool} {kind : Bool},
      (∀ entry, keep entry = true → entry.isDirectory = kind) →
        ((entries.mergeSort precedes).filter keep).Pairwise Rises := by
    intro keep kind same
    refine (rising.filter keep).imp_of_mem fun {a b} inA inB ahead => ?_
    have kindA := same a (List.mem_filter.mp inA).2
    have kindB := same b (List.mem_filter.mp inB).2
    rcases precedes_iff.mp ahead with ⟨-, rises⟩ | ⟨directory, file⟩
    · exact rises
    · rw [← kindB, file, directory] at kindA
      cases kindA
  refine ⟨_, _, perm.filter _, perm.filter _, ?_, ?_, filterMap_target? rising⟩
  · exact rises fun entry walked => (Bool.and_eq_true_iff.mp walked).1
  · exact rises fun entry found => by simpa using (Bool.and_eq_true_iff.mp found).1

/-! ## Names that differ in more than case -/

/-- Entries of one kind whose names differ in more than case. -/
def DifferByName (a b : Entry) : Prop :=
  a.isDirectory = b.isDirectory → foldCase a.name ≠ foldCase b.name

instance (a b : Entry) : Decidable (DifferByName a b) := inferInstanceAs (Decidable (_ → _))

instance : Std.Symm DifferByName := ⟨fun _ _ differ same => (differ same.symm).symm⟩

/-- No two directories and no two files have names that differ in case only. -/
def NamesApart (entries : List Entry) : Prop := entries.Pairwise DifferByName

instance (entries : List Entry) : Decidable (NamesApart entries) :=
  inferInstanceAs (Decidable (List.Pairwise _ _))

/-- Names that differ in more than case have one order. -/
theorem NamesApart.mergeSort_eq {others : List Entry} (apart : NamesApart entries)
    (same : entries.Perm others) : entries.mergeSort precedes = others.mergeSort precedes := by
  have perm := List.mergeSort_perm entries precedes
  have permOthers := List.mergeSort_perm others precedes
  have antisymm : ∀ a ∈ entries, ∀ b ∈ entries, precedes a b = true → precedes b a = true →
      a = b := by
    intro a inA b inB ahead behind
    by_contra different
    have differ : DifferByName a b := List.Pairwise.forall apart inA inB different
    rcases precedes_iff.mp ahead with ⟨kind, rises⟩ | ⟨directory, file⟩
    · rcases precedes_iff.mp behind with ⟨-, falls⟩ | ⟨directory, file⟩
      · exact differ kind (le_antisymm rises falls)
      · rw [directory, file] at kind
        cases kind
    · rcases precedes_iff.mp behind with ⟨kind, -⟩ | ⟨other, -⟩
      · rw [directory, file] at kind
        cases kind
      · rw [file] at other
        cases other
  refine List.Perm.eq_of_pairwise ?_
    (List.pairwise_mergeSort precedes_trans precedes_total entries)
    (List.pairwise_mergeSort precedes_trans precedes_total others)
    ((perm.trans same).trans permOthers.symm)
  intro a b inA inB ahead behind
  exact antisymm a (perm.mem_iff.mp inA) b (same.mem_iff.mpr (permOthers.mem_iff.mp inB)) ahead behind

/-- Such a listing leads to the same targets in whatever order it is given. -/
theorem NamesApart.targets_eq {others : List Entry} (apart : NamesApart entries)
    (same : entries.Perm others) : targets settings entries = targets settings others := by
  rw [targets, targets, apart.mergeSort_eq same]

theorem NamesApart.targets_of_sorted {sorted : List Entry} (apart : NamesApart entries)
    (same : entries.Perm sorted) (rising : sorted.Pairwise fun a b => precedes a b = true) :
    targets settings entries = sorted.filterMap (target? settings) := by
  rw [apart.targets_eq same, targets, List.mergeSort_of_pairwise rising]

end CodeSearch.Walk
