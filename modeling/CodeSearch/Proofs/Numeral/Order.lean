import CodeSearch.Scalar
import Mathlib.Algebra.Order.Group.Int
import Mathlib.Data.Prod.Lex
import Mathlib.Order.Compare

/-! # The order of scalars

Numbers that are defined stand in a linear order, in which two of them may count as equal without
being the same, as the two zeros of doubles do. An undefined one compares with nothing, not even
with itself. Doubles obey these laws: they are compared by their side of zero, their exponent and
their mantissa.
-/

namespace CodeSearch

/-- A number that is defined compares with itself. -/
def Scalar.IsDefined {α : Type} [Scalar α] (x : α) : Prop := x ≤ x

instance {α : Type} [Scalar α] (x : α) : Decidable (Scalar.IsDefined x) :=
  inferInstanceAs (Decidable (x ≤ x))

/-- The laws by which scores are compared with one another and with the highest bound of a label. -/
class OrderedScalar (α : Type) [Scalar α] : Prop where
  defined {x y : α} : x ≤ y → Scalar.IsDefined x ∧ Scalar.IsDefined y
  trans {x y z : α} : x ≤ y → y ≤ z → x ≤ z
  total {x y : α} : Scalar.IsDefined x → Scalar.IsDefined y → x ≤ y ∨ y ≤ x
  lt_iff {x y : α} : x < y ↔ x ≤ y ∧ ¬ y ≤ x
  highest_lt_one : (0.7 : α) < Scalar.ofNat 1

namespace OrderedScalar

variable {α : Type} [Scalar α] [OrderedScalar α] {x y z : α}

theorem le_of_lt (less : x < y) : x ≤ y := (lt_iff.mp less).1

theorem not_le_of_lt (less : x < y) : ¬ y ≤ x := (lt_iff.mp less).2

theorem not_lt_iff (first : Scalar.IsDefined x) (second : Scalar.IsDefined y) :
    ¬ x < y ↔ y ≤ x := by
  constructor
  · intro notLess
    by_contra notLe
    have other : x ≤ y := (total first second).resolve_right notLe
    exact notLess (lt_iff.mpr ⟨other, notLe⟩)
  · intro le less
    exact not_le_of_lt less le

theorem not_le_iff (first : Scalar.IsDefined x) (second : Scalar.IsDefined y) :
    ¬ x ≤ y ↔ y < x := by
  rw [← not_lt_iff second first, not_not]

theorem lt_of_lt_of_le (less : x < y) (le : y ≤ z) : x < z := by
  apply lt_iff.mpr
  constructor
  · exact trans (le_of_lt less) le
  · intro back
    exact not_le_of_lt less (trans le back)

theorem one_isDefined : Scalar.IsDefined (Scalar.ofNat 1 : α) :=
  (defined (le_of_lt highest_lt_one)).2

end OrderedScalar

/-! ## Doubles -/

namespace Numeral

open Float.Model

/-- Where a double stands among all others: its side of zero first, then its exponent and its
mantissa. An undefined number stands nowhere. -/
def standing? : UnpackedFloat → Option (ℤ ×ₗ ℤ ×ₗ ℤ)
  | .notANumber => none
  | .infinity .negative => some (toLex (-2, toLex (0, 0)))
  | .finite .negative mantissa exponent _ => some (toLex (-1, toLex (-exponent, -(mantissa : ℤ))))
  | .zero _ => some (toLex (0, toLex (0, 0)))
  | .finite .positive mantissa exponent _ => some (toLex (1, toLex (exponent, (mantissa : ℤ))))
  | .infinity .positive => some (toLex (2, toLex (0, 0)))

private theorem compare_pair {β : Type} [Ord β] (x y : ℤ) (u v : β) :
    compare (toLex (x, u)) (toLex (y, v)) = (compare x y).then (compare u v) := rfl

private theorem compare_neg (x y : ℤ) : compare (-x) (-y) = compare y x := by
  rcases lt_trichotomy x y with less | rfl | more
  · rw [compare_gt_iff_gt.mpr less, compare_gt_iff_gt.mpr (Int.neg_lt_neg less)]
  · simp
  · rw [compare_lt_iff_lt.mpr more, compare_lt_iff_lt.mpr (Int.neg_lt_neg more)]

private theorem compare_natCast (m n : ℕ) : compare (m : ℤ) (n : ℤ) = compare m n := by
  rcases lt_trichotomy m n with less | rfl | more
  · rw [compare_lt_iff_lt.mpr less, compare_lt_iff_lt.mpr (Int.ofNat_lt.mpr less)]
  · simp
  · rw [compare_gt_iff_gt.mpr more, compare_gt_iff_gt.mpr (Int.ofNat_lt.mpr more)]

/-- Doubles are compared by where they stand. -/
theorem compare_eq_standing (a b : UnpackedFloat) :
    a.compare b = (standing? a).bind fun x => (standing? b).map (compare x) := by
  -- on different sides of zero, and at zero and the infinities, the sides decide
  rcases a with (_ | _) | _ | _ | ⟨_ | _, m, e, _⟩ <;>
    rcases b with (_ | _) | _ | _ | ⟨_ | _, n, f, _⟩ <;> try rfl
  case finite.negative.finite.negative =>
    change some ((compare e f).then (compare m n)).swap =
      some (compare (toLex ((-1 : ℤ), toLex (-e, -(m : ℤ)))) (toLex (-1, toLex (-f, -(n : ℤ)))))
    simp [compare_pair, compare_neg, compare_natCast, Ordering.swap_then, Int.compare_swap,
      Nat.compare_swap]
  case finite.positive.finite.positive =>
    change some ((compare e f).then (compare m n)) =
      some (compare (toLex ((1 : ℤ), toLex (e, (m : ℤ)))) (toLex (1, toLex (f, (n : ℤ)))))
    simp [compare_pair, compare_natCast]

theorem le_iff_standing (x y : Float) : x ≤ y ↔
    ∃ a ∈ standing? x.toModel.unpack, ∃ b ∈ standing? y.toModel.unpack, a ≤ b := by
  change decide (x.toModel.unpack.le y.toModel.unpack = true) = true ↔ _
  rw [decide_eq_true_iff, UnpackedFloat.le, compare_eq_standing]
  cases standing? x.toModel.unpack with
  | none => simp
  | some a =>
    cases standing? y.toModel.unpack with
    | none => simp
    | some b => simp [Ordering.isLE_iff_ne_gt, compare_le_iff_le]

theorem lt_iff_standing (x y : Float) : x < y ↔
    ∃ a ∈ standing? x.toModel.unpack, ∃ b ∈ standing? y.toModel.unpack, a < b := by
  change decide (x.toModel.unpack.lt y.toModel.unpack = true) = true ↔ _
  rw [decide_eq_true_iff, UnpackedFloat.lt, compare_eq_standing]
  cases standing? x.toModel.unpack with
  | none => simp
  | some a =>
    cases standing? y.toModel.unpack with
    | none => simp
    | some b => simp [compare_lt_iff_lt]

end Numeral

/-- Doubles obey the laws, those that are undefined included. -/
instance : OrderedScalar Float where
  defined := by
    intro x y le
    obtain ⟨a, here, b, there, -⟩ := (Numeral.le_iff_standing x y).mp le
    constructor
    · exact (Numeral.le_iff_standing x x).mpr ⟨a, here, a, here, le_refl a⟩
    · exact (Numeral.le_iff_standing y y).mpr ⟨b, there, b, there, le_refl b⟩
  trans := by
    intro x y z first second
    obtain ⟨a, here, b, there, below⟩ := (Numeral.le_iff_standing x y).mp first
    obtain ⟨b', there', c, last, above⟩ := (Numeral.le_iff_standing y z).mp second
    obtain rfl := Option.mem_unique there there'
    exact (Numeral.le_iff_standing x z).mpr ⟨a, here, c, last, below.trans above⟩
  total := by
    intro x y first second
    obtain ⟨a, here, -, -, -⟩ := (Numeral.le_iff_standing x x).mp first
    obtain ⟨b, there, -, -, -⟩ := (Numeral.le_iff_standing y y).mp second
    rcases le_total a b with below | above
    · exact .inl ((Numeral.le_iff_standing x y).mpr ⟨a, here, b, there, below⟩)
    · exact .inr ((Numeral.le_iff_standing y x).mpr ⟨b, there, a, here, above⟩)
  lt_iff := by
    intro x y
    rw [Numeral.lt_iff_standing, Numeral.le_iff_standing, Numeral.le_iff_standing]
    constructor
    · rintro ⟨a, here, b, there, less⟩
      refine ⟨⟨a, here, b, there, less.le⟩, ?_⟩
      rintro ⟨b', there', a', here', above⟩
      obtain rfl := Option.mem_unique here here'
      obtain rfl := Option.mem_unique there there'
      exact not_le_of_gt less above
    · rintro ⟨⟨a, here, b, there, below⟩, notAbove⟩
      refine ⟨a, here, b, there, lt_of_not_ge fun above => ?_⟩
      exact notAbove ⟨b, there, a, here, above⟩
  highest_lt_one := by decide +kernel

end CodeSearch
