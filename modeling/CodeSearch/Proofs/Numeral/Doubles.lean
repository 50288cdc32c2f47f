import CodeSearch.Proofs.Numeral.Order
import CodeSearch.Proofs.Numeral.Rounding

/-! # Doubles that are not negative

A double that is finite and not negative stands for a number. The sums, products, quotients and
roots of such doubles are those of their numbers, rounded, and none of them is undefined. A sum that
has come to a power of two stays there as long as all that is added to it is far below.
-/

namespace CodeSearch.Numeral

open Float.Model Float.Model.UnpackedFloat

variable {mantissa : ℕ} {exponent k : ℤ} {sign : Sign} {x y : Float} {r s bound : ℝ}

/-! ## Packing -/

private theorem unpackSign_packed (raised : BitVec 11) (fraction : BitVec 52) :
    Sign.ofBitVec (unpackSign (packComponents .binary64 sign raised fraction)) = sign := by
  unfold unpackSign packComponents BitVec.extractLsb
  rw [BitVec.extractLsb'_append_eq_of_le (by decide), BitVec.extractLsb'_append_eq_of_le (by decide)]
  cases sign <;> rfl

private theorem toNat_one_append (fraction : BitVec 52) :
    (1#1 ++ fraction).toNat = 2 ^ 52 + fraction.toNat := by
  rw [BitVec.toNat_append, ← Nat.shiftLeft_add_eq_or_of_lt fraction.isLt]
  rfl

-- What a double's fields stand for.
private def ofFields (sign : Sign) (raised : BitVec 11) (fraction : BitVec 52) : UnpackedFloat :=
  if raised = -1#11 then if fraction = 0#52 then .infinity sign else .notANumber
  else if raised = 0#11 then
    if zero : fraction = 0#52 then .zero sign
    else .finite sign fraction.toNat (raised.toNat - 1075 + 1)
      (by simpa [BitVec.toNat_pos, BitVec.pos_iff_ne_zero])
  else .finite sign (1#1 ++ fraction).toNat (raised.toNat - 1075)
    (by rw [toNat_one_append]; omega)

private theorem unpack_eq_ofFields (bits : BitVec Format.binary64.numBits) :
    UnpackedFloat.unpack .binary64 bits =
      ofFields (Sign.ofBitVec (unpackSign bits)) (unpackExponent bits) (unpackMantissa bits) := rfl

private theorem unpack_packComponents (raised : BitVec 11) (fraction : BitVec 52) :
    UnpackedFloat.unpack .binary64 (packComponents .binary64 sign raised fraction) =
      ofFields sign raised fraction :=
  (unpack_eq_ofFields _).trans (congr (congr (congrArg ofFields
    (unpackSign_packed raised fraction)) unpackExponent_packComponents)
      unpackMantissa_packComponents)

private theorem isDouble_of_ofFields {given : Sign} {raised : BitVec 11} {fraction : BitVec 52}
    {positive : 0 < mantissa}
    (fields : ofFields given raised fraction = .finite sign mantissa exponent positive) :
    IsDouble mantissa exponent := by
  have small : fraction.toNat < 2 ^ 52 := fraction.isLt
  by_cases top : raised = -1#11
  · rw [ofFields, if_pos top] at fields
    by_cases none : fraction = 0#52
    · rw [if_pos none] at fields
      cases fields
    · rw [if_neg none] at fields
      cases fields
  rw [ofFields, if_neg top] at fields
  by_cases low : raised = 0#11
  · rw [if_pos low] at fields
    by_cases none : fraction = 0#52
    · rw [dif_pos none] at fields
      cases fields
    · rw [dif_neg none] at fields
      cases fields
      rw [low]
      exact ⟨positive, by omega, by decide, .inr (by decide)⟩
  · rw [if_neg low] at fields
    cases fields
    have least : 0 < raised.toNat := by simpa [BitVec.toNat_pos, BitVec.pos_iff_ne_zero] using low
    rw [toNat_one_append]
    exact ⟨by omega, by omega, by omega, .inl (by omega)⟩

/-- Taking a double apart gives the fields of a double. -/
theorem isDouble_of_unpack {positive : 0 < mantissa}
    (unpacked : x.toModel.unpack = .finite sign mantissa exponent positive) :
    IsDouble mantissa exponent :=
  isDouble_of_ofFields ((unpack_eq_ofFields _).symm.trans unpacked)

private theorem finite_congr {mantissa' : ℕ} {exponent' : ℤ} {positive : 0 < mantissa}
    {positive' : 0 < mantissa'} (mantissas : mantissa = mantissa') (exponents : exponent = exponent') :
    UnpackedFloat.finite sign mantissa exponent positive =
      .finite sign mantissa' exponent' positive' := by
  subst mantissas exponents
  rfl

private theorem pack_finite (small : mantissa < 2 ^ 53) (positive : 0 < mantissa) :
    UnpackedFloat.pack .binary64 (.finite sign mantissa exponent positive) =
      if 2048 ≤ (exponent + 1075).toNat + 1 then packedInfinity .binary64 sign
      else if 2 ^ 52 ≤ mantissa then
        packComponents .binary64 sign (BitVec.ofNat 11 (exponent + 1075).toNat)
          (BitVec.ofNat 52 mantissa)
      else packComponents .binary64 sign 0#11 (BitVec.ofNat 52 mantissa) := by
  have biased : (exponent + Format.binary64.exponentBias +
      Format.binary64.mantissaBitsWithoutImplicit).toNat = (exponent + 1075).toNat := by
    change (exponent + (1023 : ℕ) + (52 : ℕ)).toNat = _
    congr 1
    omega
  have full : mantissa.log2 + 1 = Format.binary64.mantissaBits ↔ 2 ^ 52 ≤ mantissa := by
    change mantissa.log2 + 1 = 53 ↔ _
    rw [← Nat.le_log2 positive.ne']
    have := (Nat.log2_lt positive.ne').mpr small
    omega
  unfold UnpackedFloat.pack
  simp only [biased, full]

/-- A mantissa and an exponent make a double, an infinite one where the exponent is too large. -/
theorem unpack_pack (double : IsDouble mantissa exponent) (positive : 0 < mantissa) :
    (Float.Model.pack (.finite sign mantissa exponent positive)).unpack =
      if exponent ≤ 971 then .finite sign mantissa exponent positive else .infinity sign := by
  obtain ⟨-, small, bounded, full⟩ := double
  change UnpackedFloat.unpack .binary64 (UnpackedFloat.pack .binary64 _) = _
  rw [pack_finite small positive]
  by_cases fits : exponent ≤ 971
  · have raised : (BitVec.ofNat 11 (exponent + 1075).toNat).toNat = (exponent + 1075).toNat := by
      rw [BitVec.toNat_ofNat, Nat.mod_eq_of_lt (by omega)]
    rw [if_pos fits, if_neg (by omega)]
    by_cases normal : 2 ^ 52 ≤ mantissa
    · have some : BitVec.ofNat 11 (exponent + 1075).toNat ≠ 0#11 := by
        intro zero
        rw [zero, BitVec.toNat_zero] at raised
        omega
      have finite : BitVec.ofNat 11 (exponent + 1075).toNat ≠ -1#11 := by
        intro ones
        rw [ones] at raised
        change 2047 = _ at raised
        omega
      rw [if_pos normal, unpack_packComponents, ofFields, if_neg finite, if_neg some]
      apply finite_congr
      · rw [toNat_one_append]
        change 2 ^ 52 + mantissa % 2 ^ 52 = mantissa
        omega
      · omega
    · have last := full.resolve_left normal
      have fraction : (BitVec.ofNat 52 mantissa).toNat = mantissa := by
        rw [BitVec.toNat_ofNat, Nat.mod_eq_of_lt (by omega)]
      have some : BitVec.ofNat 52 mantissa ≠ 0#52 := by
        intro zero
        rw [zero, BitVec.toNat_zero] at fraction
        omega
      rw [if_neg normal, unpack_packComponents, ofFields, if_neg (by decide), if_pos rfl, dif_neg some]
      exact finite_congr fraction last.symm
  · rw [if_neg fits, if_pos (by omega), packedInfinity, unpack_packComponents]
    rfl

theorem unpack_pack_zero (sign : Sign) :
    (Float.Model.pack (.zero sign)).unpack = .zero sign := by
  cases sign <;> rfl

theorem unpack_pack_infinity (sign : Sign) :
    (Float.Model.pack (.infinity sign)).unpack = .infinity sign := by
  cases sign <;> rfl

/-! ## Values -/

/-- The double is finite and not negative, and stands for the number. -/
inductive Measures (x : Float) : ℝ → Prop
  | zero (sign : Sign) (unpacked : x.toModel.unpack = .zero sign) : Measures x 0
  | finite (mantissa : ℕ) (exponent : ℤ) (positive : 0 < mantissa)
      (double : IsDouble mantissa exponent) (bounded : exponent ≤ 971)
      (unpacked : x.toModel.unpack = .finite .positive mantissa exponent positive) :
      Measures x (mantissa * 2 ^ exponent)

/-- Where a double is taken apart to whole fields, they are its value. -/
theorem measures_of_unpack {positive : 0 < mantissa} (double : 2 ^ 52 ≤ mantissa ∧ mantissa < 2 ^ 53)
    (bounded : -1074 ≤ exponent ∧ exponent ≤ 971)
    (unpacked : x.toModel.unpack = .finite .positive mantissa exponent positive) :
    Measures x (mantissa * 2 ^ exponent) :=
  .finite _ _ positive ⟨positive, double.2, bounded.1, .inl double.1⟩ bounded.2 unpacked

/-- The double is not negative; it may be infinite. -/
def IsUnsigned (x : Float) : Prop :=
  x.toModel.unpack = .infinity .positive ∨ ∃ value, Measures x value

/-- The numbers that doubles stand for, however large. -/
inductive IsValue : ℝ → Prop
  | zero : IsValue 0
  | double {mantissa : ℕ} {exponent : ℤ} (double : IsDouble mantissa exponent) :
      IsValue (mantissa * 2 ^ exponent)

/-- The double is the number, rounded. It is infinite if the number lies half a place or more above
all doubles. Otherwise it is on the same side of every value as the number, and not above a double
that the number exceeds by less than half a place. -/
inductive Approximates (x : Float) (number : ℝ) : Prop
  | infinite (unpacked : x.toModel.unpack = .infinity .positive)
      (large : ∀ mantissa exponent, IsDouble mantissa exponent → exponent ≤ 971 →
        ((mantissa : ℝ) + 1 / 2) * 2 ^ exponent ≤ number)
  | finite (value : ℝ) (measures : Measures x value)
      (low : ∀ lower, IsValue lower → lower ≤ number → lower ≤ value)
      (high : ∀ upper, IsValue upper → number ≤ upper → value ≤ upper)
      (near : ∀ mantissa exponent, IsDouble mantissa exponent →
        number < ((mantissa : ℝ) + 1 / 2) * 2 ^ exponent → value ≤ mantissa * 2 ^ exponent)

theorem Measures.nonneg (measures : Measures x r) : 0 ≤ r := by
  cases measures with
  | zero => exact le_rfl
  | finite => positivity

theorem Measures.unique (measures : Measures x r) (measures' : Measures x s) : r = s := by
  cases measures with
  | zero sign unpacked =>
    cases measures' with
    | zero => rfl
    | finite _ _ _ _ _ unpacked' => cases unpacked.symm.trans unpacked'
  | finite mantissa exponent positive double bounded unpacked =>
    cases measures' with
    | zero sign' unpacked' => cases unpacked.symm.trans unpacked'
    | finite _ _ _ _ _ unpacked' =>
      cases unpacked.symm.trans unpacked'
      rfl

theorem Measures.isValue (measures : Measures x r) : IsValue r := by
  cases measures with
  | zero => exact .zero
  | finite _ _ _ double => exact .double double

/-- The least value above zero. -/
theorem IsValue.least (value : IsValue r) (positive : 0 < r) : 2 ^ (-1074 : ℤ) ≤ r := by
  cases value with
  | zero => exact absurd positive (lt_irrefl 0)
  | @double mantissa exponent double =>
    have some : (1 : ℝ) ≤ mantissa := Nat.one_le_cast.mpr double.some
    calc (2 : ℝ) ^ (-1074 : ℤ) ≤ 2 ^ exponent := zpow_le_zpow_right₀ one_le_two double.bounded
      _ ≤ mantissa * 2 ^ exponent := le_mul_of_one_le_left (by positivity) some

private theorem two_pow_mul_zpow (k : ℤ) : ((2 ^ 52 : ℕ) : ℝ) * 2 ^ (k - 52) = 2 ^ k := by
  rw [Nat.cast_pow, Nat.cast_ofNat, ← zpow_natCast, ← zpow_add₀ two_ne_zero]
  congr 1
  omega

/-- Powers of two are values as far as the last place. -/
theorem isValue_two_zpow (bounded : -1074 ≤ k) : IsValue (2 ^ k) := by
  by_cases normal : -1022 ≤ k
  · have same : (2 : ℝ) ^ k = ((2 ^ 52 : ℕ) : ℝ) * 2 ^ (k - 52) := by
      rw [two_pow_mul_zpow]
    rw [same]
    exact .double ⟨by decide, by decide, by omega, .inl le_rfl⟩
  · obtain ⟨more, rfl⟩ := Int.le.dest bounded
    have same : (2 : ℝ) ^ ((-1074 : ℤ) + more) = ((2 ^ more : ℕ) : ℝ) * 2 ^ (-1074 : ℤ) := by
      rw [zpow_add₀ two_ne_zero, zpow_natCast, mul_comm]
      push_cast
      rfl
    rw [same]
    exact .double ⟨Nat.two_pow_pos more, Nat.pow_lt_pow_right (by decide) (by omega), le_rfl,
      .inr rfl⟩

namespace Approximates

theorem isUnsigned (approximates : Approximates x r) : IsUnsigned x := by
  cases approximates with
  | infinite unpacked => exact .inl unpacked
  | finite value measures => exact .inr ⟨value, measures⟩

/-- What is less than half a place above a power of two is rounded to nothing above it. -/
theorem exists_le (approximates : Approximates x r) (least : -1022 ≤ k) (most : k ≤ 1023)
    (near : r < 2 ^ k + 2 ^ (k - 53)) : ∃ value, Measures x value ∧ value ≤ 2 ^ k ∧
      (∀ lower, IsValue lower → lower ≤ r → lower ≤ value) ∧
      ∀ upper, IsValue upper → r ≤ upper → value ≤ upper := by
  have double : IsDouble (2 ^ 52) (k - 52) := ⟨by decide, by decide, by omega, .inl le_rfl⟩
  have same := two_pow_mul_zpow k
  have half : (((2 ^ 52 : ℕ) : ℝ) + 1 / 2) * 2 ^ (k - 52) = 2 ^ k + 2 ^ (k - 53) := by
    rw [add_mul, same, show k - 52 = k - 53 + 1 by omega, zpow_add_one₀ two_ne_zero]
    ring
  cases approximates with
  | infinite _ large => exact absurd (half ▸ large _ _ double (by omega)) (not_le.mpr near)
  | finite value measures low high near' =>
    exact ⟨value, measures, same ▸ near' _ _ double (half ▸ near), low, high⟩

end Approximates

/-- A larger double has no smaller exponent. -/
theorem exponent_le_of_le {mantissa' : ℕ} {exponent' : ℤ}
    (double : IsDouble mantissa exponent) (double' : IsDouble mantissa' exponent')
    (le : (mantissa : ℝ) * 2 ^ exponent ≤ mantissa' * 2 ^ exponent') : exponent ≤ exponent' := by
  by_contra less
  have full : ((2 ^ 52 : ℕ) : ℝ) ≤ mantissa :=
    Nat.cast_le.mpr (double.full.resolve_right (by have := double'.bounded; omega))
  have small : (mantissa' : ℝ) < (2 ^ 53 : ℕ) := Nat.cast_lt.mpr double'.small
  have wider : (2 : ℝ) ^ (exponent' + 1) ≤ 2 ^ exponent :=
    zpow_le_zpow_right₀ one_le_two (not_le.mp less)
  rw [zpow_add_one₀ two_ne_zero] at wider
  push_cast at full small
  have unit : (0 : ℝ) < 2 ^ exponent' := by positivity
  nlinarith

/-- Rounding gives a double that is not negative. -/
theorem approximates_of_isRounded {result : UnpackedFloat} (rounded : IsRounded r .positive result)
    (packed : x.toModel.unpack = (Float.Model.pack result).unpack) : Approximates x r := by
  obtain ⟨count, place, nearest, same⟩ := rounded
  have low : ∀ lower, IsValue lower → lower ≤ r → lower ≤ count * 2 ^ place := by
    intro lower value below
    cases value with
    | zero => positivity
    | double double => exact nearest.le_of_le double below
  have high : ∀ upper, IsValue upper → r ≤ upper → count * 2 ^ place ≤ upper := by
    intro upper value above
    cases value with
    | zero => rw [nearest.eq_zero above, Nat.cast_zero, zero_mul]
    | double double =>
      refine nearest.le_of_lt_half double (above.trans_lt ?_)
      rw [add_mul]
      exact lt_add_of_pos_right _ (by positivity)
  rcases same with ⟨rfl, rfl⟩ | ⟨mantissa, exponent, positive, double, value, rfl⟩
  · rw [unpack_pack_zero] at packed
    rw [Nat.cast_zero, zero_mul] at low high
    exact .finite 0 (.zero _ packed) low high fun _ _ _ _ => by positivity
  · rw [unpack_pack double] at packed
    rw [← value] at low high
    by_cases bounded : exponent ≤ 971
    · rw [if_pos bounded] at packed
      refine .finite _ (.finite _ _ positive double bounded packed) low high ?_
      intro upper place' double' near
      exact value ▸ nearest.le_of_lt_half double' near
    · rw [if_neg bounded] at packed
      refine .infinite packed fun upper place' double' bounded' => ?_
      by_contra near
      have least := nearest.le_of_lt_half double' (not_le.mp near)
      exact bounded ((exponent_le_of_le double double' (value ▸ least)).trans bounded')

/-- A double is its own value, rounded. -/
theorem Measures.approximates (measures : Measures x r) : Approximates x r := by
  refine .finite r measures (fun _ _ below => below) (fun _ _ above => above) ?_
  intro upper place double' near
  cases measures with
  | zero => positivity
  | finite mantissa exponent positive double bounded unpacked =>
    exact double.isNearest.le_of_lt_half double' near

/-! ## Operations on values -/

theorem Measures.add (measures : Measures x r) (measures' : Measures y s) :
    Approximates (x + y) (r + s) := by
  have sum : (x + y).toModel.unpack = (Float.Model.pack
    (UnpackedFloat.add .binary64 x.toModel.unpack y.toModel.unpack)).unpack := rfl
  cases measures with
  | zero sign unpacked =>
    rw [unpacked] at sum
    cases measures' with
    | zero sign' unpacked' =>
      rw [unpacked'] at sum
      rw [add_zero]
      cases sign <;> cases sign' <;>
        exact (Measures.zero _ (sum.trans (unpack_pack_zero _))).approximates
    | finite mantissa exponent positive double bounded unpacked' =>
      rw [unpacked'] at sum
      rw [zero_add]
      exact (Measures.finite _ _ positive double bounded
        (sum.trans ((unpack_pack double positive).trans (if_pos bounded)))).approximates
  | finite mantissa exponent positive double bounded unpacked =>
    rw [unpacked] at sum
    cases measures' with
    | zero sign' unpacked' =>
      rw [unpacked'] at sum
      rw [add_zero]
      exact (Measures.finite _ _ positive double bounded
        (sum.trans ((unpack_pack double positive).trans (if_pos bounded)))).approximates
    | finite mantissa' exponent' positive' double' bounded' unpacked' =>
      rw [unpacked'] at sum
      exact approximates_of_isRounded (isRounded_add positive positive') sum

theorem Measures.mul (measures : Measures x r) (measures' : Measures y s) :
    Approximates (x * y) (r * s) := by
  have product : (x * y).toModel.unpack = (Float.Model.pack
    (UnpackedFloat.mul .binary64 x.toModel.unpack y.toModel.unpack)).unpack := rfl
  cases measures with
  | zero sign unpacked =>
    rw [unpacked] at product
    rw [zero_mul]
    cases measures' with
    | zero sign' unpacked' | finite _ _ _ _ _ unpacked' =>
      rw [unpacked'] at product
      exact (Measures.zero _ (product.trans (unpack_pack_zero _))).approximates
  | finite mantissa exponent positive double bounded unpacked =>
    rw [unpacked] at product
    cases measures' with
    | zero sign' unpacked' =>
      rw [unpacked'] at product
      rw [mul_zero]
      exact (Measures.zero _ (product.trans (unpack_pack_zero _))).approximates
    | finite mantissa' exponent' positive' double' bounded' unpacked' =>
      rw [unpacked'] at product
      exact approximates_of_isRounded (isRounded_mul double double' _) product

theorem Measures.div (measures : Measures x r) (measures' : Measures y s) (positive : 0 < s) :
    Approximates (x / y) (r / s) := by
  have quotient : (x / y).toModel.unpack = (Float.Model.pack
    (UnpackedFloat.div .binary64 x.toModel.unpack y.toModel.unpack)).unpack := rfl
  cases measures' with
  | zero => exact absurd positive (lt_irrefl 0)
  | finite mantissa' exponent' positive' double' bounded' unpacked' =>
    rw [unpacked'] at quotient
    cases measures with
    | zero sign unpacked =>
      rw [unpacked] at quotient
      rw [zero_div]
      exact (Measures.zero _ (quotient.trans (unpack_pack_zero _))).approximates
    | finite mantissa exponent positive double bounded unpacked =>
      rw [unpacked] at quotient
      exact approximates_of_isRounded (isRounded_div positive positive') quotient

/-- A finite number is nothing beside an infinite one. -/
theorem Measures.div_infinite (measures : Measures x r)
    (infinite : y.toModel.unpack = .infinity .positive) : Measures (x / y) 0 := by
  have quotient : (x / y).toModel.unpack = (Float.Model.pack
    (UnpackedFloat.div .binary64 x.toModel.unpack y.toModel.unpack)).unpack := rfl
  rw [infinite] at quotient
  cases measures with
  | zero sign unpacked | finite _ _ _ _ _ unpacked =>
    rw [unpacked] at quotient
    exact .zero _ (quotient.trans (unpack_pack_zero _))

theorem Measures.sqrt (measures : Measures x r) : Approximates x.sqrt √r := by
  have root : x.sqrt.toModel.unpack = (Float.Model.pack
    (UnpackedFloat.sqrt .binary64 x.toModel.unpack)).unpack := rfl
  cases measures with
  | zero sign unpacked =>
    rw [unpacked] at root
    rw [Real.sqrt_zero]
    exact (Measures.zero _ (root.trans (unpack_pack_zero _))).approximates
  | finite mantissa exponent positive double bounded unpacked =>
    rw [unpacked] at root
    exact approximates_of_isRounded (isRounded_sqrt positive) root

/-- What is not negative stays so if it is multiplied by a finite number above zero. -/
theorem IsUnsigned.mul (unsigned : IsUnsigned x) (measures : Measures y s) (positive : 0 < s) :
    IsUnsigned (x * y) := by
  rcases unsigned with infinite | ⟨r, measures'⟩
  · cases measures with
    | zero => exact absurd positive (lt_irrefl 0)
    | finite mantissa exponent positive double bounded unpacked =>
      have product : (x * y).toModel.unpack = (Float.Model.pack
        (UnpackedFloat.mul .binary64 x.toModel.unpack y.toModel.unpack)).unpack := rfl
      rw [infinite, unpacked] at product
      exact .inl (product.trans (unpack_pack_infinity _))
  · exact (measures'.mul measures).isUnsigned

private theorem approximates_toUInt64 {n : ℕ} (some : 0 < n) (short : n < 2 ^ 53) :
    Approximates n.toUInt64.toFloat n := by
  have kept : n.toUInt64.toNat = n := Nat.mod_eq_of_lt (by omega)
  have packed : n.toUInt64.toFloat.toModel.unpack = (Float.Model.pack
    (UnpackedFloat.normalize .binary64 (n.toUInt64.toNat : ℤ) 0 .positive)).unpack := rfl
  rw [kept, UnpackedFloat.normalize, Int.compare_eq_gt.mpr (by omega)] at packed
  have rounded : IsRounded (n * 2 ^ (0 : ℤ)) .positive
      (UnpackedFloat.round .binary64 .positive n 0) := isRounded_round some.ne' .positive
  rw [zpow_zero, mul_one] at rounded
  exact approximates_of_isRounded rounded packed

private theorem approximates_ofScientific {n : ℕ} (some : 0 < n) (long : ¬ n < 2 ^ 53) :
    Approximates (Scalar.ofNat n : Float) n := by
  have scaled : (Scalar.ofNat n : Float).toModel = Float.Model.ofScientific n 0 := by
    change (Float.ofScientific n false 0).toModel = _
    rw [Float.ofScientific, dif_neg fun fits => long fits.1]
    rfl
  have packed : (Scalar.ofNat n : Float).toModel.unpack = (Float.Model.pack
      (roundWithAccuracy .binary64 .positive (n <<< 53 * 1) (-53 + 0) .exact)).unpack := by
    rw [scaled, Float.Model.ofScientific, UnpackedFloat.ofScientific, dif_neg some.ne',
      if_neg (by decide), if_neg (by simp), if_pos le_rfl]
    rfl
  have rounded : IsRounded n .positive
      (roundWithAccuracy .binary64 .positive (n <<< 53 * 1) (-53 + 0) .exact) := by
    have same : ((n <<< 53 * 1 : ℕ) : ℝ) * 2 ^ (-53 + 0 : ℤ) = n := by
      rw [mul_one, Nat.shiftLeft_eq, Nat.cast_mul, mul_assoc, Nat.cast_pow, Nat.cast_ofNat,
        ← zpow_natCast, ← zpow_add₀ two_ne_zero]
      exact mul_one _
    rw [← same]
    refine isRounded_of_large (.inl ?_) .positive
    rw [mul_one, Nat.shiftLeft_eq]
    omega
  exact approximates_of_isRounded rounded packed

/-- Whole numbers above zero are at least one also as doubles. -/
theorem one_le_ofNat {n : ℕ} (some : 0 < n) : (Scalar.ofNat n : Float).toModel.unpack =
    .infinity .positive ∨ ∃ value, Measures (Scalar.ofNat n : Float) value ∧ 1 ≤ value := by
  have one : IsValue 1 := by simpa using isValue_two_zpow (show -1074 ≤ (0 : ℤ) by decide)
  have least : (1 : ℝ) ≤ n := Nat.one_le_cast.mpr some
  by_cases short : n < 2 ^ 53
  · have product : (Scalar.ofNat n : Float) =
        n.toUInt64.toFloat * Float.ofBits 0x3FF0000000000000 := by
      change Float.ofScientific n false 0 = _
      rw [Float.ofScientific, dif_pos ⟨short, by decide⟩]
      rfl
    have unit : Measures (Float.ofBits 0x3FF0000000000000) 1 := by
      have measures : Measures (Float.ofBits 0x3FF0000000000000) ((2 ^ 52 : ℕ) * 2 ^ (0 - 52 : ℤ)) :=
        measures_of_unpack (by decide) (by decide) rfl
      rwa [two_pow_mul_zpow, zpow_zero] at measures
    have below : (n : ℝ) < 2 ^ (53 : ℤ) + 2 ^ (53 - 53 : ℤ) := by
      have less : (n : ℝ) < 2 ^ (53 : ℤ) := by exact_mod_cast short
      exact less.trans (lt_add_of_pos_right (2 ^ (53 : ℤ)) (by positivity))
    obtain ⟨value, measures, -, low, -⟩ :=
      (approximates_toUInt64 some short).exists_le (by decide) (by decide) below
    rw [product]
    cases measures.mul unit with
    | infinite unpacked => exact .inl unpacked
    | finite value' measures' low' =>
      exact .inr ⟨value', measures', low' 1 one ((low 1 one least).trans (mul_one _).ge)⟩
  · cases approximates_ofScientific some short with
    | infinite unpacked => exact .inl unpacked
    | finite value measures low => exact .inr ⟨value, measures, low 1 one least⟩

/-! ## Order -/

theorem IsUnsigned.isDefined (unsigned : IsUnsigned x) : Scalar.IsDefined x := by
  refine (le_iff_standing x x).mpr ?_
  rcases unsigned with unpacked | ⟨_, ⟨_, unpacked⟩ | ⟨_, _, _, _, _, unpacked⟩⟩ <;> rw [unpacked] <;>
    exact ⟨_, rfl, _, rfl, le_rfl⟩

theorem Measures.pos_iff (measures : Measures x r) : (Scalar.ofNat 0 : Float) < x ↔ 0 < r := by
  have zero : standing? (Scalar.ofNat 0 : Float).toModel.unpack = some (toLex (0, toLex (0, 0))) := by
    decide +kernel
  rw [lt_iff_standing, zero]
  cases measures with
  | zero sign unpacked =>
    have same : standing? (.zero sign) = some (toLex (0, toLex (0, 0))) := rfl
    rw [unpacked, same]
    simp
  | finite mantissa exponent positive double bounded unpacked =>
    have same : standing? (.finite .positive mantissa exponent positive) =
        some (toLex (1, toLex (exponent, (mantissa : ℤ)))) := rfl
    have above : (0 : ℝ) < mantissa * 2 ^ exponent := by
      have some : (0 : ℝ) < mantissa := Nat.cast_pos.mpr positive
      positivity
    rw [unpacked, same]
    simp [above, Prod.Lex.toLex_lt_toLex]

theorem Measures.le_zero_iff (measures : Measures x r) : x ≤ (Scalar.ofNat 0 : Float) ↔ r ≤ 0 := by
  have zero : Scalar.IsDefined (Scalar.ofNat 0 : Float) := by decide +kernel
  have defined : Scalar.IsDefined x := IsUnsigned.isDefined (.inr ⟨r, measures⟩)
  rw [← OrderedScalar.not_lt_iff zero defined, measures.pos_iff, not_lt]

/-! ## Bounds -/

/-- The double is finite, not negative and not above the bound. -/
def IsAtMost (bound : ℝ) (x : Float) : Prop := ∃ value, Measures x value ∧ value ≤ bound

theorem IsAtMost.mono {bound' : ℝ} (atMost : IsAtMost bound x) (le : bound ≤ bound') :
    IsAtMost bound' x := by
  obtain ⟨value, measures, below⟩ := atMost
  exact ⟨value, measures, below.trans le⟩

/-- What rounds a number below a power of two, is below the power of two. -/
theorem Approximates.isAtMost (approximates : Approximates x r) (least : -1022 ≤ k)
    (most : k ≤ 1023) (le : r ≤ 2 ^ k) : IsAtMost (2 ^ k) x := by
  obtain ⟨value, measures, above, -⟩ := approximates.exists_le least most
    (le.trans_lt (lt_add_of_pos_right _ (by positivity)))
  exact ⟨value, measures, above⟩

theorem IsAtMost.mul {bound' : ℝ} (atMost : IsAtMost bound x) (atMost' : IsAtMost bound' y)
    (least : -1022 ≤ k) (most : k ≤ 1023) (le : bound * bound' ≤ 2 ^ k) :
    IsAtMost (2 ^ k) (x * y) := by
  obtain ⟨r, measures, below⟩ := atMost
  obtain ⟨s, measures', below'⟩ := atMost'
  exact (measures.mul measures').isAtMost least most
    ((mul_le_mul below below' measures'.nonneg (measures.nonneg.trans below)).trans le)

/-- A sum that has come to a power of two absorbs what is far below it, and no sum falls. -/
theorem Measures.absorb (measures : Measures x r) (atMost : r ≤ 2 ^ k) (measures' : Measures y s)
    (least : -1022 ≤ k) (most : k ≤ 1023) (small : s < 2 ^ (k - 53)) :
    ∃ value, Measures (x + y) value ∧ value ≤ 2 ^ k ∧ r ≤ value ∧ s ≤ value := by
  obtain ⟨value, sum, above, low, -⟩ := (measures.add measures').exists_le least most
    (add_lt_add_of_le_of_lt atMost small)
  exact ⟨value, sum, above, low r measures.isValue (le_add_of_nonneg_right measures'.nonneg),
    low s measures'.isValue (le_add_of_nonneg_left measures.nonneg)⟩

theorem IsAtMost.add (atMost : IsAtMost (2 ^ k) x) (atMost' : IsAtMost bound y)
    (least : -1022 ≤ k) (most : k ≤ 1023) (small : bound < 2 ^ (k - 53)) :
    IsAtMost (2 ^ k) (x + y) := by
  obtain ⟨r, measures, below⟩ := atMost
  obtain ⟨s, measures', below'⟩ := atMost'
  obtain ⟨value, sum, above, -⟩ :=
    measures.absorb below measures' least most (below'.trans_lt small)
  exact ⟨value, sum, above⟩

theorem isAtMost_zero (nonneg : 0 ≤ bound) : IsAtMost bound (Scalar.ofNat 0) :=
  ⟨0, .zero .positive rfl, nonneg⟩

end CodeSearch.Numeral
