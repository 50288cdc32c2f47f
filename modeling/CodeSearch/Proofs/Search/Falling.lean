import CodeSearch.Proofs.Numeral.Order
import CodeSearch.Sorting

/-! # Falling order

Where all keys are defined, sorting by falling keys is stable, and it commutes with selecting and
renaming members. Selecting what has a high key commutes with taking the first members.
-/

namespace CodeSearch

namespace Sorting

variable {β : Type}

/-- Members that do not precede each other strictly keep the order they had. -/
theorem pairwise_mergeSort_stable {le : β → β → Bool}
    (trans : ∀ a b c, le a b = true → le b c = true → le a c = true)
    (total : ∀ a b, (le a b || le b a) = true) {earlier : β → β → Prop} {members : List β}
    (ordered : members.Pairwise earlier) :
    (members.mergeSort le).Pairwise fun a b => le a b = true ∧ (le b a = true → earlier a b) := by
  induction members with
  | nil => simp
  | cons member rest ih =>
    obtain ⟨before, later⟩ := List.pairwise_cons.mp ordered
    obtain ⟨front, back, sorted, others, smaller⟩ := List.mergeSort_cons trans total member rest
    have known := ih later
    have rising := List.pairwise_mergeSort trans total (member :: rest)
    have inRest : ∀ other ∈ back, other ∈ rest := by
      intro other inBack
      apply List.mem_mergeSort.mp
      rw [others]
      exact List.mem_append_right front inBack
    rw [others] at known
    rw [sorted] at rising ⊢
    obtain ⟨fronts, backs, across⟩ := List.pairwise_append.mp known
    obtain ⟨-, rises, rises'⟩ := List.pairwise_append.mp rising
    apply List.pairwise_append.mpr
    refine ⟨fronts, List.pairwise_cons.mpr ⟨?_, backs⟩, ?_⟩
    · intro other inBack
      constructor
      · exact (List.pairwise_cons.mp rises).1 other inBack
      · exact fun _ => before other (inRest other inBack)
    · intro other inFront last inBack
      rcases List.mem_cons.mp inBack with rfl | inBack
      · constructor
        · exact rises' other inFront last List.mem_cons_self
        · intro precedes
          have precedesNot := smaller other inFront
          rw [precedes] at precedesNot
          cases precedesNot
      · exact across other inFront last inBack

/-- Where a kept member is preceded by kept ones only, selecting commutes with taking the first. -/
theorem filter_take_of_pairwise {keep : β → Bool} {members : List β}
    (falls : members.Pairwise fun a b => keep b = true → keep a = true) (count : ℕ) :
    (members.take count).filter keep = (members.filter keep).take count := by
  induction members generalizing count with
  | nil => simp
  | cons member rest ih =>
    obtain ⟨before, later⟩ := List.pairwise_cons.mp falls
    cases count with
    | zero => simp
    | succ count =>
      by_cases kept : keep member = true
      · simp [kept, ih later]
      · have none : rest.filter keep = [] :=
          List.filter_eq_nil_iff.mpr fun other inRest keeps => kept (before other inRest keeps)
        have none' : (rest.take count).filter keep = [] := by simp [ih later, none]
        simp [kept, none, none']

end Sorting

section Falling

variable {α β γ : Type} [Scalar α]

/-- Whether a number may stand in front of another in falling order. Undefined ones come last. -/
def fallsTo (x y : α) : Bool := decide (y ≤ x) || !decide (Scalar.IsDefined y)

theorem fallsTo_iff {x y : α} : fallsTo x y = true ↔ y ≤ x ∨ ¬ Scalar.IsDefined y := by
  simp [fallsTo]

theorem fallsTo_iff_of_isDefined {x y : α} (defined : Scalar.IsDefined y) :
    fallsTo x y = true ↔ y ≤ x := by
  simp [fallsTo, defined]

variable [OrderedScalar α]

theorem fallsTo_trans (x y z : α) (first : fallsTo x y = true) (second : fallsTo y z = true) :
    fallsTo x z = true := by
  rw [fallsTo_iff] at first second ⊢
  rcases second with below | undefined
  · have middle : y ≤ x := first.resolve_right fun undefined =>
      undefined (OrderedScalar.defined below).2
    exact .inl (OrderedScalar.trans below middle)
  · exact .inr undefined

theorem fallsTo_total (x y : α) : (fallsTo x y || fallsTo y x) = true := by
  rw [Bool.or_eq_true, fallsTo_iff, fallsTo_iff]
  by_cases first : Scalar.IsDefined x
  · by_cases second : Scalar.IsDefined y
    · rcases OrderedScalar.total first second with le | ge
      · exact .inr (.inl le)
      · exact .inl (.inl ge)
    · exact .inl (.inr second)
  · exact .inr (.inr first)

/-- The keys of all members are defined. -/
def KeysDefined (key : β → α) (members : List β) : Prop :=
  ∀ member ∈ members, Scalar.IsDefined (key member)

variable {key : β → α} {members : List β}

theorem byFalling_eq_fallsTo (defined : KeysDefined key members) :
    byFalling key members = members.mergeSort fun a b => fallsTo (key a) (key b) := by
  rw [byFalling_eq_mergeSort key members defined]
  have agree : ∀ a ∈ members, ∀ b ∈ members,
      (!decide (key a < key b)) = fallsTo (key (id a)) (key (id b)) := by
    intro a inA b inB
    rw [Bool.eq_iff_iff, fallsTo_iff_of_isDefined (defined (id b) inB)]
    simpa using OrderedScalar.not_lt_iff (defined a inA) (defined b inB)
  simpa using List.map_mergeSort (s := fun a b => fallsTo (key a) (key b)) agree

/-- Members may be selected before or behind the sort. -/
theorem filter_byFalling (defined : KeysDefined key members) (keep : β → Bool) :
    (byFalling key members).filter keep = byFalling key (members.filter keep) := by
  have kept : KeysDefined key (members.filter keep) :=
    fun member inKept => defined member (List.mem_filter.mp inKept).1
  rw [byFalling_eq_fallsTo defined, byFalling_eq_fallsTo kept]
  exact Sorting.filter_mergeSort (fun a b c => fallsTo_trans (key a) (key b) (key c))
    (fun a b => fallsTo_total (key a) (key b)) keep members

/-- Members with equal keys keep the order they had. -/
theorem pairwise_byFalling (defined : KeysDefined key members) {earlier : β → β → Prop}
    (ordered : members.Pairwise earlier) :
    (byFalling key members).Pairwise fun a b =>
      key b ≤ key a ∧ (key a ≤ key b → earlier a b) := by
  have stable := Sorting.pairwise_mergeSort_stable
    (fun a b c => fallsTo_trans (key a) (key b) (key c))
    (fun a b => fallsTo_total (key a) (key b)) ordered
  rw [← byFalling_eq_fallsTo defined] at stable
  apply stable.imp_of_mem
  intro a b inA inB known
  have definedA := defined a ((byFalling_perm key members).mem_iff.mp inA)
  have definedB := defined b ((byFalling_perm key members).mem_iff.mp inB)
  rwa [fallsTo_iff_of_isDefined definedB, fallsTo_iff_of_isDefined definedA] at known

/-- What is sorted may be named otherwise before or behind the sort. -/
theorem map_byFalling (name : γ → β) {others : List γ}
    (defined : KeysDefined key (others.map name)) :
    (byFalling (key ∘ name) others).map name = byFalling key (others.map name) := by
  have defined' : KeysDefined (key ∘ name) others :=
    fun other inOthers => defined (name other) (List.mem_map_of_mem inOthers)
  rw [byFalling_eq_fallsTo defined, byFalling_eq_fallsTo defined']
  exact List.map_mergeSort fun _ _ _ _ => rfl

end Falling

end CodeSearch
