import CodeSearch.Proofs.Numeral.Readings
import Mathlib.Analysis.Real.Sqrt
import Mathlib.Tactic.FieldSimp

/-! # Rounding to doubles

An operation on doubles cuts the exact result to a whole number of binary places and keeps two bits
of what it has cut off. These decide to which of the two neighbours the result is rounded. Rounding
keeps the order in relation to all doubles, and what lies less than half a place above a double is
not rounded up.
-/

namespace CodeSearch.Numeral

open Float.Model Float.Model.UnpackedFloat

variable {x : ℝ} {mantissa count : ℕ} {exponent place : ℤ} {accuracy : Accuracy} {sign : Sign}

/-! ## Cut numbers -/

/-- Where a number lies behind the whole number that it was cut to. -/
def Leaves : Accuracy → ℝ → Prop
  | .exact, rest => rest = 0
  | .inexact .lt, rest => 0 < rest ∧ rest < 1 / 2
  | .inexact .eq, rest => rest = 1 / 2
  | .inexact .gt, rest => 1 / 2 < rest ∧ rest < 1

theorem Leaves.bounds {rest : ℝ} (leaves : Leaves accuracy rest) : 0 ≤ rest ∧ rest < 1 := by
  rcases accuracy with _ | _ | _ | _ <;> simp only [Leaves] at leaves <;> constructor <;> linarith

/-- The mantissa and the two bits behind it tell where a number lies. -/
def IsCut (cut : ExtendedMantissa) (x : ℝ) : Prop := Leaves cut.accuracy (x - cut.mantissa)

variable {cut : ExtendedMantissa}

theorem isCut_of_leaves (leaves : Leaves accuracy (x - mantissa)) :
    IsCut (.ofMantissaAndAccuracy mantissa accuracy) x := by
  rcases accuracy with _ | _ | _ | _ <;> exact leaves

theorem IsCut.shiftRightOne (isCut : IsCut cut x) : IsCut cut.shiftRightOne (x / 2) := by
  obtain ⟨mantissa, first, later⟩ := cut
  have parts : (mantissa : ℝ) = 2 * (mantissa / 2 : ℕ) + (mantissa % 2 : ℕ) := by
    exact_mod_cast (Nat.div_add_mod mantissa 2).symm
  rcases Nat.mod_two_eq_zero_or_one mantissa with last | last <;> cases first <;> cases later <;>
    simp only [IsCut, ExtendedMantissa.shiftRightOne, ExtendedMantissa.accuracy, Leaves, last,
      bne_self_eq_false, show (1 != 0) = true from rfl, Bool.or_true, Bool.or_false] at isCut ⊢ <;>
    rw [last] at parts <;> push_cast at parts <;> first | linarith | (constructor <;> linarith)

/-- Shifting the digits out one by one loses nothing that rounding needs. -/
theorem IsCut.shiftRight (isCut : IsCut cut x) (shift : ℕ) :
    IsCut (cut >>> shift) (x / 2 ^ shift) := by
  induction shift with
  | zero =>
    rw [pow_zero, div_one]
    exact isCut
  | succ shift ih =>
    rw [pow_succ, ← div_div]
    exact ih.shiftRightOne

/-- The rounded mantissa is a whole number next to the number. -/
theorem IsCut.near (isCut : IsCut cut x) : |(cut.roundedMantissa : ℝ) - x| ≤ 1 / 2 := by
  obtain ⟨mantissa, first, later⟩ := cut
  have parity : ((mantissa % 2 : ℕ) : ℝ) ≤ 1 := by
    exact_mod_cast Nat.le_of_lt_succ (Nat.mod_lt mantissa (by decide))
  have parity' : (0 : ℝ) ≤ ((mantissa % 2 : ℕ) : ℝ) := Nat.cast_nonneg _
  rw [abs_le]
  cases first <;> cases later <;>
    simp only [IsCut, ExtendedMantissa.accuracy, Leaves] at isCut <;>
    simp only [ExtendedMantissa.roundedMantissa, ExtendedMantissa.accuracy,
      Accuracy.roundToNearestEven] <;> push_cast <;> constructor <;> linarith

/-- Between two neighbours the even one is taken. -/
theorem IsCut.even (isCut : IsCut cut x) (tie : |(cut.roundedMantissa : ℝ) - x| = 1 / 2) :
    Even cut.roundedMantissa := by
  obtain ⟨mantissa, first, later⟩ := cut
  cases first <;> cases later <;>
    simp only [IsCut, ExtendedMantissa.accuracy, Leaves] at isCut <;>
    simp only [ExtendedMantissa.roundedMantissa, ExtendedMantissa.accuracy,
      Accuracy.roundToNearestEven] at tie ⊢
  case true.false =>
    rw [Nat.even_add, Nat.even_iff, Nat.even_iff, Nat.mod_mod]
  -- elsewhere the number lies nearer to one neighbour than to the other
  all_goals
    exfalso
    push_cast at tie
    rcases abs_eq (by norm_num) |>.mp tie with side | side <;> linarith

/-! ## Nearest doubles -/

/-- The whole number of binary places that is nearest to a number, counted as doubles count. Between
two such numbers it is the even one. -/
structure IsNearest (x : ℝ) (count : ℕ) (place : ℤ) : Prop where
  near : |(count : ℝ) - x / 2 ^ place| ≤ 1 / 2
  even : |(count : ℝ) - x / 2 ^ place| = 1 / 2 → Even count
  small : x / 2 ^ place < 2 ^ 53
  bounded : -1074 ≤ place
  full : 2 ^ 52 ≤ x / 2 ^ place ∨ place = -1074

/-- A result of rounding: nothing or a double, of the value of the nearest count of places. -/
def IsRounded (x : ℝ) (sign : Sign) (result : UnpackedFloat) : Prop :=
  ∃ count place, IsNearest x count place ∧ ((count = 0 ∧ result = .zero sign) ∨
    ∃ mantissa exponent positive, IsDouble mantissa exponent ∧
      (mantissa : ℝ) * 2 ^ exponent = count * 2 ^ place ∧
      result = .finite sign mantissa exponent positive)

private theorem targetExponent_eq (total : ℤ) :
    Format.binary64.targetExponent total = max (total - 53) (-1074) := rfl

private theorem nearest_shiftToTargetExponent
    (fits : exponent ≤ Format.binary64.targetExponent (totalExponent mantissa exponent))
    (leaves : Leaves accuracy (x / 2 ^ exponent - mantissa)) :
    let shifted := shiftToTargetExponent .binary64 mantissa exponent accuracy
    IsNearest x shifted.1.roundedMantissa shifted.2 := by
  rw [targetExponent_eq, totalExponent] at fits
  obtain ⟨shift, target⟩ := Int.le.dest fits
  have scale : x / 2 ^ (exponent + (shift : ℤ)) = x / 2 ^ exponent / 2 ^ shift := by
    rw [zpow_add₀ two_ne_zero, zpow_natCast, div_div]
  have shifted : shiftToTargetExponent .binary64 mantissa exponent accuracy =
      (ExtendedMantissa.ofMantissaAndAccuracy mantissa accuracy >>> shift, exponent + shift) := by
    rw [shiftToTargetExponent, shiftToExponent, targetExponent_eq, totalExponent, ← target,
      show (exponent + (shift : ℤ) - exponent).toNat = shift by omega]
  obtain ⟨below, above⟩ := leaves.bounds
  have isCut := (isCut_of_leaves leaves).shiftRight shift
  rw [shifted]
  constructor
  · rw [scale]
    exact isCut.near
  · rw [scale]
    exact isCut.even
  · have fewer : mantissa + 1 ≤ 2 ^ (53 + shift) :=
      Nat.lt_log2_self.trans_le (Nat.pow_le_pow_right (by decide) (by omega))
    rw [scale, div_lt_iff₀ (by positivity), ← pow_add]
    calc x / 2 ^ exponent < (mantissa + 1 : ℕ) := by push_cast; linarith
      _ ≤ 2 ^ (53 + shift) := by exact_mod_cast fewer
  · omega
  · refine or_iff_not_imp_right.mpr fun other => ?_
    have log : 52 + shift = mantissa.log2 := by omega
    have some : mantissa ≠ 0 := by
      rintro rfl
      simp at log
    rw [scale, le_div_iff₀ (by positivity), ← pow_add, log]
    calc (2 : ℝ) ^ mantissa.log2 ≤ mantissa := by exact_mod_cast Nat.log2_self_le some
      _ ≤ x / 2 ^ exponent := by linarith

namespace IsNearest

variable (nearest : IsNearest x count place)

include nearest

theorem count_le : count ≤ 2 ^ 53 := by
  have upper : (count : ℝ) < (2 ^ 53 + 1 : ℕ) := by
    push_cast
    linarith [(abs_le.mp nearest.near).2, nearest.small]
  exact Nat.lt_succ_iff.mp (Nat.cast_lt.mp upper)

theorem le_count (other : place ≠ -1074) : 2 ^ 52 ≤ count := by
  have lower : ((2 ^ 52 : ℕ) : ℝ) < (count + 1 : ℕ) := by
    push_cast
    linarith [(abs_le.mp nearest.near).1, nearest.full.resolve_right other]
  exact Nat.lt_succ_iff.mp (Nat.cast_lt.mp lower)

/-- A count of places that is full after rounding is written with the next place. -/
theorem shiftToTargetExponent_exact : shiftToTargetExponent .binary64 count place .exact =
    if count < 2 ^ 53 then (⟨count, false, false⟩, place)
    else (⟨2 ^ 52, false, false⟩, place + 1) := by
  rw [shiftToTargetExponent, shiftToExponent, targetExponent_eq, totalExponent]
  split
  · next small =>
    have log : count.log2 ≤ 52 := by
      by_cases zero : count = 0
      · simp [zero]
      · exact Nat.le_of_lt_succ ((Nat.log2_lt zero).mpr small)
    have bounded := nearest.bounded
    rw [show (max ((count.log2 : ℤ) + 1 + place - 53) (-1074) - place).toNat = 0 by omega]
    exact congrArg _ (add_zero place)
  · next large =>
    have bounded := nearest.bounded
    rw [le_antisymm nearest.count_le (not_lt.mp large), Nat.log2_two_pow,
      show (max (((53 : ℕ) : ℤ) + 1 + place - 53) (-1074) - place).toNat = 1 by omega]
    rfl

theorem eq_zero (none : x ≤ 0) : count = 0 := by
  have below : x / 2 ^ place ≤ 0 := div_nonpos_of_nonpos_of_nonneg none (by positivity)
  have less : (count : ℝ) < (1 : ℕ) := by
    push_cast
    linarith [(abs_le.mp nearest.near).2]
  exact Nat.lt_one_iff.mp (Nat.cast_lt.mp less)

/-- A double that is not above the number is not above the rounded number. -/
theorem le_of_le (double : IsDouble mantissa exponent) (below : mantissa * 2 ^ exponent ≤ x) :
    (mantissa : ℝ) * 2 ^ exponent ≤ count * 2 ^ place := by
  rcases le_or_gt place exponent with finer | coarser
  · obtain ⟨more, rfl⟩ := Int.le.dest finer
    rw [zpow_add₀ two_ne_zero, zpow_natCast, mul_left_comm, mul_comm] at below ⊢
    have whole : ((mantissa * 2 ^ more : ℕ) : ℝ) < (count + 1 : ℕ) := by
      have places := (le_div_iff₀ (by positivity)).mpr below
      push_cast
      linarith [(abs_le.mp nearest.near).1]
    refine mul_le_mul_of_nonneg_right ?_ (by positivity)
    exact_mod_cast Nat.lt_succ_iff.mp (Nat.cast_lt.mp whole)
  · have full := nearest.le_count (ne_of_gt (double.bounded.trans_lt coarser))
    calc (mantissa : ℝ) * 2 ^ exponent ≤ 2 ^ 53 * 2 ^ exponent := by
          have small : (mantissa : ℝ) ≤ (2 ^ 53 : ℕ) := Nat.cast_le.mpr double.small.le
          gcongr
          exact_mod_cast small
      _ = 2 ^ 52 * 2 ^ (exponent + 1) := by rw [zpow_add_one₀ two_ne_zero]; ring
      _ ≤ count * 2 ^ place := by
          have many : ((2 ^ 52 : ℕ) : ℝ) ≤ count := Nat.cast_le.mpr full
          gcongr
          · exact_mod_cast many
          · exact one_le_two
          · exact coarser

/-- A number that exceeds a double by less than half a place is rounded to nothing above it. -/
theorem le_of_lt_half (double : IsDouble mantissa exponent)
    (near : x < (mantissa + 1 / 2) * 2 ^ exponent) :
    (count : ℝ) * 2 ^ place ≤ mantissa * 2 ^ exponent := by
  rcases lt_trichotomy place exponent with finer | rfl | coarser
  · have full : 2 ^ 52 ≤ mantissa :=
      double.full.resolve_right (ne_of_gt (nearest.bounded.trans_lt finer))
    have few : (count : ℝ) ≤ (2 ^ 53 : ℕ) := Nat.cast_le.mpr nearest.count_le
    have many : ((2 ^ 52 : ℕ) : ℝ) ≤ mantissa := Nat.cast_le.mpr full
    calc (count : ℝ) * 2 ^ place ≤ 2 ^ 53 * 2 ^ place := by
          gcongr
          exact_mod_cast few
      _ = 2 ^ 52 * 2 ^ (place + 1) := by rw [zpow_add_one₀ two_ne_zero]; ring
      _ ≤ mantissa * 2 ^ exponent := by
          gcongr
          · exact_mod_cast many
          · exact one_le_two
          · exact finer
  · have whole : (count : ℝ) < (mantissa + 1 : ℕ) := by
      have places := (div_lt_iff₀ (by positivity)).mpr near
      push_cast
      linarith [(abs_le.mp nearest.near).2]
    gcongr
    exact Nat.lt_succ_iff.mp (Nat.cast_lt.mp whole)
  · -- the number would have more places than the double has
    exfalso
    have full := nearest.full.resolve_right (ne_of_gt (double.bounded.trans_lt coarser))
    rw [le_div_iff₀ (by positivity)] at full
    have few : ((mantissa + 1 : ℕ) : ℝ) ≤ (2 ^ 53 : ℕ) := Nat.cast_le.mpr double.small
    push_cast at few
    have wider : (2 : ℝ) ^ (exponent + 1) ≤ 2 ^ place :=
      zpow_le_zpow_right₀ one_le_two coarser
    rw [zpow_add_one₀ two_ne_zero] at wider
    have unit : (0 : ℝ) < 2 ^ exponent := by positivity
    nlinarith

private theorem place_le {y : ℝ} {count' : ℕ} {place' : ℤ} (nearest' : IsNearest y count' place')
    (le : x ≤ y) : place ≤ place' := by
  by_contra less
  have full := nearest.full.resolve_right (by have := nearest'.bounded; omega)
  have small := nearest'.small
  have wider : (2 : ℝ) ^ (place' + 1) ≤ 2 ^ place := zpow_le_zpow_right₀ one_le_two (not_le.mp less)
  rw [le_div_iff₀ (by positivity)] at full
  rw [div_lt_iff₀ (by positivity)] at small
  rw [zpow_add_one₀ two_ne_zero] at wider
  nlinarith

/-- Rounding keeps the order. In the same places two counts can be out of order at a tie only, and
there one of them is odd. -/
theorem mono {y : ℝ} {count' : ℕ} {place' : ℤ} (nearest' : IsNearest y count' place') (le : x ≤ y) :
    (count : ℝ) * 2 ^ place ≤ count' * 2 ^ place' := by
  rcases (nearest.place_le nearest' le).lt_or_eq with finer | rfl
  · have few : (count : ℝ) ≤ (2 ^ 53 : ℕ) := Nat.cast_le.mpr nearest.count_le
    have many : ((2 ^ 52 : ℕ) : ℝ) ≤ count' :=
      Nat.cast_le.mpr (nearest'.le_count (ne_of_gt (nearest.bounded.trans_lt finer)))
    calc (count : ℝ) * 2 ^ place ≤ 2 ^ 53 * 2 ^ place := by
          gcongr
          exact_mod_cast few
      _ = 2 ^ 52 * 2 ^ (place + 1) := by rw [zpow_add_one₀ two_ne_zero]; ring
      _ ≤ count' * 2 ^ place' := by
          gcongr
          · exact_mod_cast many
          · exact one_le_two
          · exact finer
  · refine mul_le_mul_of_nonneg_right (Nat.cast_le.mpr (not_lt.mp fun less => ?_)) (by positivity)
    have scaled : x / 2 ^ place ≤ y / 2 ^ place := by gcongr
    have step : (count' : ℝ) + 1 ≤ count := by exact_mod_cast less
    have low := (abs_le.mp nearest.near).2
    have high := (abs_le.mp nearest'.near).1
    have tie : (count : ℝ) - x / 2 ^ place = 1 / 2 := by linarith
    have tie' : (count' : ℝ) - y / 2 ^ place = -(1 / 2) := by linarith
    have next : count = count' + 1 := by
      have same : (count : ℝ) = (count' + 1 : ℕ) := by push_cast; linarith
      exact_mod_cast same
    have even := nearest.even (by rw [tie, abs_of_pos (by norm_num)])
    have even' := nearest'.even (by rw [tie', abs_neg, abs_of_pos (by norm_num)])
    rw [next, Nat.even_add_one] at even
    exact even even'

end IsNearest

theorem isNearest_zero : IsNearest 0 0 (-1074) := by
  constructor <;> norm_num

/-- A double is nearest to itself. -/
theorem IsDouble.isNearest (double : IsDouble mantissa exponent) :
    IsNearest (mantissa * 2 ^ exponent) mantissa exponent := by
  have same : (mantissa : ℝ) * 2 ^ exponent / 2 ^ exponent = mantissa :=
    mul_div_cancel_right₀ _ (by positivity)
  constructor
  · rw [same, sub_self, abs_zero]
    norm_num
  · rw [same, sub_self, abs_zero]
    norm_num
  · rw [same]
    exact_mod_cast double.small
  · exact double.bounded
  · rw [same]
    exact double.full.imp_left fun full => by exact_mod_cast full

theorem IsDouble.isRounded (double : IsDouble mantissa exponent) (sign : Sign) :
    IsRounded (mantissa * 2 ^ exponent) sign (.finite sign mantissa exponent double.some) :=
  ⟨mantissa, exponent, double.isNearest, .inr ⟨mantissa, exponent, _, double, rfl, rfl⟩⟩

/-- What the operations on doubles round, is rounded to its nearest double. -/
theorem isRounded_roundWithAccuracy
    (fits : exponent ≤ Format.binary64.targetExponent (totalExponent mantissa exponent))
    (leaves : Leaves accuracy (x / 2 ^ exponent - mantissa)) (sign : Sign) :
    IsRounded x sign (roundWithAccuracy .binary64 sign mantissa exponent accuracy) := by
  have nearest := nearest_shiftToTargetExponent fits leaves
  rw [roundWithAccuracy]
  generalize shiftToTargetExponent .binary64 mantissa exponent accuracy = shifted at nearest
  obtain ⟨cut, place⟩ := shifted
  refine ⟨cut.roundedMantissa, place, nearest, ?_⟩
  dsimp only at nearest ⊢
  by_cases small : cut.roundedMantissa < 2 ^ 53
  · have again := nearest.shiftToTargetExponent_exact.trans (if_pos small)
    rw [again]
    by_cases zero : cut.roundedMantissa = 0
    · exact .inl ⟨zero, dif_pos zero⟩
    · have positive := Nat.pos_of_ne_zero zero
      exact .inr ⟨_, place, positive, ⟨positive, small, nearest.bounded,
        or_iff_not_imp_right.mpr nearest.le_count⟩, rfl, dif_neg zero⟩
  · have again := nearest.shiftToTargetExponent_exact.trans (if_neg small)
    have bounded := nearest.bounded
    rw [again]
    refine .inr ⟨2 ^ 52, place + 1, by decide, ⟨by decide, by decide, by omega, .inl le_rfl⟩, ?_,
      dif_neg (Nat.two_pow_pos 52).ne'⟩
    rw [le_antisymm nearest.count_le (not_lt.mp small), zpow_add_one₀ two_ne_zero]
    push_cast
    ring

/-! ## Operations -/

section Operations

variable {mantissa' : ℕ} {exponent' : ℤ}

private theorem fits_of_large (large : 2 ^ 52 ≤ mantissa ∨ exponent ≤ -1074) :
    exponent ≤ Format.binary64.targetExponent (totalExponent mantissa exponent) := by
  -- enough digits fill the mantissa, unless its last place is the last of all
  rw [targetExponent_eq, totalExponent]
  rcases large with many | low
  · have some : mantissa ≠ 0 := by
      rintro rfl
      simp at many
    have log := (Nat.le_log2 some).mpr many
    omega
  · omega

/-- A product is exact before it is rounded. -/
theorem isRounded_of_large (large : 2 ^ 52 ≤ mantissa ∨ exponent ≤ -1074) (sign : Sign) :
    IsRounded (mantissa * 2 ^ exponent) sign
      (roundWithAccuracy .binary64 sign mantissa exponent .exact) := by
  refine isRounded_roundWithAccuracy (fits_of_large large) ?_ sign
  change (mantissa : ℝ) * 2 ^ exponent / 2 ^ exponent - mantissa = 0
  rw [mul_div_cancel_right₀ _ (by positivity), sub_self]

theorem isRounded_mul (double : IsDouble mantissa exponent) (double' : IsDouble mantissa' exponent')
    (sign : Sign) : IsRounded (mantissa * 2 ^ exponent * (mantissa' * 2 ^ exponent')) sign
      (roundWithAccuracy .binary64 sign (mantissa * mantissa') (exponent + exponent') .exact) := by
  have large : 2 ^ 52 ≤ mantissa * mantissa' ∨ exponent + exponent' ≤ -1074 := by
    rcases double.full with full | low
    · exact .inl (full.trans (Nat.le_mul_of_pos_right _ double'.some))
    · rcases double'.full with full | low'
      · exact .inl (full.trans (Nat.le_mul_of_pos_left _ double.some))
      · exact .inr (by omega)
  have rounded := isRounded_of_large large sign
  rwa [Nat.cast_mul, zpow_add₀ two_ne_zero, mul_mul_mul_comm] at rounded

private theorem shiftLeft_mul (mantissa shift : ℕ) (exponent : ℤ) :
    ((mantissa <<< shift : ℕ) : ℝ) * 2 ^ (exponent - (shift : ℤ)) = mantissa * 2 ^ exponent := by
  rw [Nat.shiftLeft_eq, Nat.cast_mul, Nat.cast_pow, mul_assoc, Nat.cast_ofNat, ← zpow_natCast,
    ← zpow_add₀ two_ne_zero, add_sub_cancel]

private theorem two_pow_le_shiftLeft (some : mantissa ≠ 0) {bits shift : ℕ}
    (log : bits ≤ mantissa.log2 + shift) : 2 ^ bits ≤ mantissa <<< shift := by
  calc 2 ^ bits ≤ 2 ^ (mantissa.log2 + shift) := Nat.pow_le_pow_right (by decide) log
    _ = 2 ^ mantissa.log2 * 2 ^ shift := pow_add 2 _ _
    _ ≤ mantissa * 2 ^ shift := Nat.mul_le_mul_right _ (Nat.log2_self_le some)
    _ = mantissa <<< shift := (Nat.shiftLeft_eq _ _).symm

theorem isRounded_round (some : mantissa ≠ 0) (sign : Sign) :
    IsRounded (mantissa * 2 ^ exponent) sign
      (UnpackedFloat.round .binary64 sign mantissa exponent) := by
  rw [UnpackedFloat.round, targetExponent_eq, totalExponent, decreaseExponent]
  dsimp only
  generalize shifted : (exponent - max ((mantissa.log2 : ℤ) + 1 + exponent - 53) (-1074)).toNat =
    shift
  rw [← shiftLeft_mul mantissa shift exponent]
  refine isRounded_of_large ?_ sign
  by_cases low : exponent - (shift : ℤ) ≤ -1074
  · exact .inr low
  · exact .inl (two_pow_le_shiftLeft some (by omega))

private theorem isRounded_normalize {whole : ℤ} (nonneg : 0 ≤ whole) :
    IsRounded (whole * 2 ^ exponent) .positive
      (UnpackedFloat.normalize .binary64 whole exponent .positive) := by
  rw [UnpackedFloat.normalize]
  rcases nonneg.eq_or_lt with rfl | positive
  · rw [Int.cast_zero, zero_mul]
    exact ⟨0, -1074, isNearest_zero, .inl ⟨rfl, rfl⟩⟩
  · have cast : (whole : ℝ) = whole.toNat := by exact_mod_cast (Int.toNat_of_nonneg nonneg).symm
    rw [Int.compare_eq_gt.mpr positive, cast]
    exact isRounded_round (by omega) .positive

private theorem apply_shiftLeft_mul (sign : Sign) (mantissa : ℕ) (finer : place ≤ exponent) :
    (sign.apply mantissa : ℝ) * 2 ^ exponent =
      (sign.apply (mantissa <<< (exponent - place).toNat : ℕ) : ℤ) * 2 ^ place := by
  have same : (mantissa : ℝ) * 2 ^ exponent =
      (mantissa <<< (exponent - place).toNat : ℕ) * 2 ^ place := by
    rw [← shiftLeft_mul mantissa (exponent - place).toNat]
    congr 2
    omega
  cases sign with
  | positive => exact_mod_cast same
  | negative =>
    simp only [Sign.apply, Int.cast_neg, Int.cast_natCast, neg_mul]
    rw [same]

theorem isRounded_add (positive : 0 < mantissa) (positive' : 0 < mantissa') :
    IsRounded (mantissa * 2 ^ exponent + mantissa' * 2 ^ exponent') .positive
      (UnpackedFloat.add .binary64 (.finite .positive mantissa exponent positive)
        (.finite .positive mantissa' exponent' positive')) := by
  have first := apply_shiftLeft_mul .positive mantissa (min_le_left exponent exponent')
  have second := apply_shiftLeft_mul .positive mantissa' (min_le_right exponent exponent')
  simp only [Sign.apply, Int.cast_natCast] at first second
  rw [first, second, ← add_mul, ← Nat.cast_add, ← Int.cast_natCast]
  exact isRounded_normalize (Int.natCast_nonneg _)

/-- A difference that is not below zero, of numbers on any side of it. -/
theorem isRounded_sub {sign sign' : Sign} (positive : 0 < mantissa) (positive' : 0 < mantissa')
    (falls : (sign'.apply mantissa' : ℝ) * 2 ^ exponent' ≤ sign.apply mantissa * 2 ^ exponent) :
    IsRounded (sign.apply mantissa * 2 ^ exponent - sign'.apply mantissa' * 2 ^ exponent') .positive
      (UnpackedFloat.sub .binary64 (.finite sign mantissa exponent positive)
        (.finite sign' mantissa' exponent' positive')) := by
  rw [apply_shiftLeft_mul sign mantissa (min_le_left exponent exponent'),
    apply_shiftLeft_mul sign' mantissa' (min_le_right exponent exponent')] at falls ⊢
  rw [← sub_mul, ← Int.cast_sub]
  refine isRounded_normalize (sub_nonneg.mpr ?_)
  exact_mod_cast le_of_mul_le_mul_right falls (by positivity)

private theorem leaves_accuracyOfFraction {rest whole : ℕ} (less : rest < whole) :
    Leaves (accuracyOfFraction rest whole) (rest / whole) := by
  have positive : (0 : ℝ) < whole := Nat.cast_pos.mpr (Nat.zero_lt_of_lt less)
  have below : (rest : ℝ) < whole := Nat.cast_lt.mpr less
  unfold accuracyOfFraction
  split
  · next zero =>
    rw [zero, Nat.cast_zero, zero_div]
    exact rfl
  · next some =>
    have above : (0 : ℝ) < rest := Nat.cast_pos.mpr (Nat.pos_of_ne_zero some)
    rcases lt_trichotomy (2 * rest) whole with half | half | half
    · rw [compare_lt_iff_lt.mpr half]
      have half : (2 : ℝ) * rest < whole := by exact_mod_cast half
      exact ⟨div_pos above positive, by rw [div_lt_div_iff₀ positive two_pos]; linarith⟩
    · rw [compare_eq_iff_eq.mpr half]
      have half : (2 : ℝ) * rest = whole := by exact_mod_cast half
      change (rest : ℝ) / whole = 1 / 2
      rw [div_eq_div_iff positive.ne' two_ne_zero]
      linarith
    · rw [compare_gt_iff_gt.mpr half]
      have half : (whole : ℝ) < 2 * rest := by exact_mod_cast half
      exact ⟨by rw [div_lt_div_iff₀ two_pos positive]; linarith, (div_lt_one positive).mpr below⟩

theorem isRounded_div (positive : 0 < mantissa) (positive' : 0 < mantissa') :
    IsRounded (mantissa * 2 ^ exponent / (mantissa' * 2 ^ exponent')) .positive
      (UnpackedFloat.div .binary64 (.finite .positive mantissa exponent positive)
        (.finite .positive mantissa' exponent' positive')) := by
  unfold UnpackedFloat.div
  dsimp only
  simp only [divCore, targetExponent_eq, totalExponent]
  generalize finer : min (exponent - exponent') (max ((mantissa.log2 : ℤ) + 1 + exponent -
    ((mantissa'.log2 : ℤ) + 1 + exponent') - 53) (-1074)) = place
  generalize shifted : (exponent - exponent' - place).toNat = shift
  have some : (0 : ℝ) < mantissa' := Nat.cast_pos.mpr positive'
  refine isRounded_roundWithAccuracy (fits_of_large ?_) ?_ .positive
  · by_cases low : place ≤ -1074
    · exact .inr low
    · refine .inl ((Nat.le_div_iff_mul_le positive').mpr ?_)
      calc 2 ^ 52 * mantissa' ≤ 2 ^ 52 * 2 ^ (mantissa'.log2 + 1) :=
            Nat.mul_le_mul_left _ Nat.lt_log2_self.le
        _ = 2 ^ (52 + (mantissa'.log2 + 1)) := (pow_add 2 _ _).symm
        _ ≤ mantissa <<< shift := two_pow_le_shiftLeft positive.ne' (by omega)
  · have quotient : mantissa * 2 ^ exponent / (mantissa' * 2 ^ exponent') / 2 ^ place =
        ((mantissa <<< shift : ℕ) : ℝ) / mantissa' := by
      rw [← shiftLeft_mul mantissa shift exponent, show exponent - (shift : ℤ) = exponent' + place by
        omega, zpow_add₀ two_ne_zero]
      field_simp
    have parts : ((mantissa <<< shift : ℕ) : ℝ) / mantissa' =
        (mantissa <<< shift / mantissa' : ℕ) + (mantissa <<< shift % mantissa' : ℕ) / mantissa' := by
      rw [div_eq_iff some.ne', add_mul, div_mul_cancel₀ _ some.ne', mul_comm]
      exact_mod_cast (Nat.div_add_mod _ _).symm
    rw [quotient, parts, add_sub_cancel_left]
    exact leaves_accuracyOfFraction (Nat.mod_lt _ positive')

private theorem leaves_sqrt (square : ℕ) :
    Leaves (if square - square.sqrt * square.sqrt = 0 then .exact
      else .inexact (if square - square.sqrt * square.sqrt ≤ square.sqrt then .lt else .gt))
      (√(square : ℝ) - square.sqrt) := by
  have low := Nat.sqrt_le square
  have high := Nat.lt_succ_sqrt square
  generalize square.sqrt = root at low high ⊢
  have nonneg : (0 : ℝ) ≤ root := Nat.cast_nonneg root
  have high : (square : ℝ) < (root + 1) ^ 2 := by
    rw [sq]
    exact_mod_cast high
  split
  · next whole =>
    have squared : (square : ℝ) = root ^ 2 := by
      rw [sq]
      exact_mod_cast (by omega : square = root * root)
    rw [squared, Real.sqrt_sq nonneg]
    exact sub_self _
  · next rest =>
    split
    · next small =>
      have above : (root : ℝ) ^ 2 < square := by
        rw [sq]
        exact_mod_cast (by omega : root * root < square)
      have below : (square : ℝ) < (root + 1 / 2) ^ 2 := by
        have whole : (square : ℝ) ≤ root * root + root := by
          exact_mod_cast (by omega : square ≤ root * root + root)
        nlinarith
      constructor
      · exact sub_pos.mpr (Real.lt_sqrt_of_sq_lt above)
      · rw [sub_lt_iff_lt_add']
        exact (Real.sqrt_lt' (by positivity)).mpr below
    · next large =>
      have above : ((root : ℝ) + 1 / 2) ^ 2 < square := by
        have whole : (root * root + root + 1 : ℝ) ≤ square := by
          exact_mod_cast (by omega : root * root + root + 1 ≤ square)
        nlinarith
      constructor
      · rw [lt_sub_iff_add_lt']
        exact Real.lt_sqrt_of_sq_lt above
      · rw [sub_lt_iff_lt_add']
        exact (Real.sqrt_lt' (by positivity)).mpr high

private theorem isRounded_root (some : mantissa ≠ 0) (halves : place ≤ exponent / 2)
    (bounded : place ≤ max (((mantissa.log2 : ℤ) + 1 + exponent + 1) / 2 - 53) (-1074)) :
    let square := mantissa <<< (exponent - 2 * place).toNat
    IsRounded √(mantissa * 2 ^ exponent) .positive
      (roundWithAccuracy .binary64 .positive square.sqrt place
        (if square - square.sqrt * square.sqrt = 0 then .exact
          else .inexact (if square - square.sqrt * square.sqrt ≤ square.sqrt then .lt else .gt))) := by
  generalize shifted : (exponent - 2 * place).toNat = shift
  intro square
  have squared : √(mantissa * 2 ^ exponent) / 2 ^ place = √(square : ℝ) := by
    rw [← shiftLeft_mul mantissa shift exponent, show exponent - (shift : ℤ) = place * 2 by omega,
      zpow_mul, zpow_ofNat, Real.sqrt_mul (Nat.cast_nonneg _), Real.sqrt_sq (by positivity),
      mul_div_cancel_right₀ _ (by positivity)]
  refine isRounded_roundWithAccuracy (fits_of_large ?_) (squared ▸ leaves_sqrt square) .positive
  by_cases last : place ≤ -1074
  · exact .inr last
  · refine .inl (Nat.le_sqrt.mpr ?_)
    rw [← pow_add]
    exact two_pow_le_shiftLeft some (by omega)

theorem isRounded_sqrt (positive : 0 < mantissa) : IsRounded √(mantissa * 2 ^ exponent) .positive
    (UnpackedFloat.sqrt .binary64 (.finite .positive mantissa exponent positive)) :=
  isRounded_root positive.ne' (min_le_left _ _) (min_le_right _ _)

end Operations

end CodeSearch.Numeral
