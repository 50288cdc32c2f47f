import CodeSearch.Proofs.Numeral.Doubles

/-! # Differences of times

The later the end and the earlier the start, the longer the time between. Rounding keeps this, so
that it holds of the times that the program reads off its clock. Infinite times are among them; the
difference of two that are the same is undefined.
-/

namespace CodeSearch

/-- Differences grow with their ends, as far as there are differences. -/
class MonotoneSub (τ : Type) [Scalar τ] : Prop where
  sub_le_sub {start start' stop stop' : τ} : start ≤ start' → start' ≤ stop → stop ≤ stop' →
    Scalar.IsDefined (stop - start') → stop - start' ≤ stop' - start

namespace MonotoneSub

variable {τ : Type} [Scalar τ] [OrderedScalar τ] [MonotoneSub τ] {time start start' stop stop' : τ}

/-- A time that is reached is reached from an earlier start to a later end. -/
theorem le_sub_of_le_sub (starts : start ≤ start') (runs : start' ≤ stop) (stops : stop ≤ stop')
    (reached : time ≤ stop - start') : time ≤ stop' - start :=
  OrderedScalar.trans reached (sub_le_sub starts runs stops (OrderedScalar.defined reached).2)

/-- Up to an end that is not infinite there is a time from every start. -/
theorem isDefined_sub (finite : Scalar.IsDefined (stop - stop)) (runs : start ≤ stop) :
    Scalar.IsDefined (stop - start) :=
  have ends := (OrderedScalar.defined runs).2
  (OrderedScalar.defined (sub_le_sub runs ends ends finite)).2

end MonotoneSub

namespace Numeral

open Float.Model Float.Model.UnpackedFloat

variable {mantissa mantissa' : ℕ} {exponent exponent' : ℤ} {u v : UnpackedFloat} {x y : Float}
  {r s : ℝ}

/-- Doubles above zero are ordered by their exponents first. -/
theorem value_le_iff (double : IsDouble mantissa exponent) (double' : IsDouble mantissa' exponent') :
    (mantissa : ℝ) * 2 ^ exponent ≤ mantissa' * 2 ^ exponent' ↔
      toLex (exponent, (mantissa : ℤ)) ≤ toLex (exponent', (mantissa' : ℤ)) := by
  have unit : (0 : ℝ) < 2 ^ exponent := by positivity
  rw [Prod.Lex.toLex_le_toLex]
  constructor
  · intro le
    rcases (exponent_le_of_le double double' le).lt_or_eq with less | rfl
    · exact .inl less
    · exact .inr ⟨rfl, Int.ofNat_le.mpr (Nat.cast_le.mp (le_of_mul_le_mul_right le unit))⟩
  · rintro (less | ⟨same, le⟩)
    · by_contra more
      exact not_le.mpr less (exponent_le_of_le double' double (not_le.mp more).le)
    · obtain rfl : exponent = exponent' := same
      have le : (mantissa : ℝ) ≤ mantissa' := Nat.cast_le.mpr (Int.ofNat_le.mp le)
      gcongr

/-! ## Numbers on both sides of zero -/

/-- The number that a finite double denotes. -/
inductive Denotes : UnpackedFloat → ℝ → Prop
  | zero (sign : Sign) : Denotes (.zero sign) 0
  | finite {mantissa : ℕ} {exponent : ℤ} (sign : Sign) (positive : 0 < mantissa)
      (double : IsDouble mantissa exponent) :
      Denotes (.finite sign mantissa exponent positive) (sign.apply mantissa * 2 ^ exponent)

/-- A double that compares with itself is infinite or denotes a number. -/
theorem kinds_of_isDefined (defined : Scalar.IsDefined x) :
    (∃ sign, x.toModel.unpack = .infinity sign) ∨ ∃ r, Denotes x.toModel.unpack r := by
  obtain ⟨place, stands, -⟩ := (le_iff_standing x x).mp defined
  cases unpacked : x.toModel.unpack with
  | infinity sign => exact .inl ⟨sign, rfl⟩
  | notANumber =>
    rw [unpacked] at stands
    cases stands
  | zero sign => exact .inr ⟨0, .zero sign⟩
  | finite sign mantissa exponent positive =>
    exact .inr ⟨_, .finite sign positive (isDouble_of_unpack unpacked)⟩

/-- Doubles are in the order of their numbers. -/
theorem Denotes.le_of_standing (denotes : Denotes u r) (denotes' : Denotes v s)
    {a b : ℤ ×ₗ ℤ ×ₗ ℤ} (stands : a ∈ standing? u) (stands' : b ∈ standing? v) (le : a ≤ b) :
    r ≤ s := by
  cases denotes with
  | zero sign =>
    cases stands
    cases denotes' with
    | zero => exact le_rfl
    | finite sign' positive' double' =>
      cases sign' <;> cases stands'
      · simp [Prod.Lex.toLex_le_toLex] at le
      · simp only [Sign.apply]
        positivity
  | @finite mantissa exponent sign positive double =>
    have above : (0 : ℝ) ≤ mantissa * 2 ^ exponent := by positivity
    cases denotes' with
    | zero =>
      cases stands'
      cases sign <;> cases stands
      · simpa [Sign.apply] using above
      · simp [Prod.Lex.toLex_le_toLex] at le
    | @finite mantissa' exponent' sign' positive' double' =>
      have above' : (0 : ℝ) ≤ mantissa' * 2 ^ exponent' := by positivity
      cases sign <;> cases sign' <;> cases stands <;> cases stands' <;>
        simp only [Sign.apply, Int.cast_neg, Int.cast_natCast, neg_mul, neg_le_neg_iff]
      · refine (value_le_iff double' double).mpr ?_
        simpa [Prod.Lex.toLex_le_toLex, eq_comm] using le
      · exact (Left.neg_nonpos_iff.mpr above).trans above'
      · simp [Prod.Lex.toLex_le_toLex] at le
      · refine (value_le_iff double double').mpr ?_
        simpa [Prod.Lex.toLex_le_toLex] using le

/-! ## Rounded differences -/

/-- The double stands where the number stands, rounded. -/
def Stands (x : Float) (r : ℝ) : Prop :=
  ∃ rounded, IsRounded r .positive rounded ∧
    standing? x.toModel.unpack = standing? (Float.Model.pack rounded).unpack

theorem Stands.le (stands : Stands x r) (stands' : Stands y s) (le : r ≤ s) : x ≤ y := by
  obtain ⟨rounded, ⟨count, place, nearest, result⟩, here⟩ := stands
  obtain ⟨rounded', ⟨count', place', nearest', result'⟩, there⟩ := stands'
  have below := nearest.mono nearest' le
  rw [le_iff_standing, here, there]
  rcases result with ⟨rfl, rfl⟩ | ⟨mantissa, exponent, positive, double, value, rfl⟩
  · rw [unpack_pack_zero]
    rcases result' with ⟨rfl, rfl⟩ | ⟨mantissa', exponent', positive', double', value', rfl⟩
    · rw [unpack_pack_zero]
      exact ⟨_, rfl, _, rfl, le_rfl⟩
    · rw [unpack_pack double']
      by_cases finite : exponent' ≤ 971
      · rw [if_pos finite]
        exact ⟨_, rfl, _, rfl, by simp [Prod.Lex.toLex_le_toLex]⟩
      · rw [if_neg finite]
        exact ⟨_, rfl, _, rfl, by simp [Prod.Lex.toLex_le_toLex]⟩
  · rcases result' with ⟨rfl, rfl⟩ | ⟨mantissa', exponent', positive', double', value', rfl⟩
    · have above : (0 : ℝ) < mantissa * 2 ^ exponent := by positivity
      rw [value] at above
      rw [Nat.cast_zero, zero_mul] at below
      exact absurd above (not_lt.mpr below)
    · rw [← value, ← value', value_le_iff double double', Prod.Lex.toLex_le_toLex] at below
      rw [unpack_pack double, unpack_pack double']
      by_cases finite : exponent' ≤ 971
      · rw [if_pos finite, if_pos (by omega)]
        refine ⟨_, rfl, _, rfl, ?_⟩
        simpa [Prod.Lex.toLex_le_toLex] using below
      · rw [if_neg finite]
        by_cases finite : exponent ≤ 971
        · rw [if_pos finite]
          exact ⟨_, rfl, _, rfl, by simp [Prod.Lex.toLex_le_toLex]⟩
        · rw [if_neg finite]
          exact ⟨_, rfl, _, rfl, le_rfl⟩

private theorem unpack_sub (x y : Float) : (x - y).toModel.unpack = (Float.Model.pack
    (UnpackedFloat.sub .binary64 x.toModel.unpack y.toModel.unpack)).unpack := rfl

/-- A difference that is not below zero is rounded. -/
theorem Denotes.sub (denotes : Denotes x.toModel.unpack r) (denotes' : Denotes y.toModel.unpack s)
    (falls : s ≤ r) : Stands (x - y) (r - s) := by
  have difference := unpack_sub x y
  generalize x.toModel.unpack = u at denotes difference
  generalize y.toModel.unpack = v at denotes' difference
  rw [Stands, difference]
  cases denotes with
  | zero sign =>
    cases denotes' with
    | zero sign' =>
      rw [sub_self]
      refine ⟨.zero .positive, ⟨0, -1074, isNearest_zero, .inl ⟨rfl, rfl⟩⟩, ?_⟩
      cases sign <;> cases sign' <;> rfl
    | @finite mantissa exponent sign' positive double =>
      cases sign' with
      | positive =>
        have above : (0 : ℝ) < mantissa * 2 ^ exponent := by positivity
        exact absurd falls (not_le.mpr above)
      | negative =>
        have value : 0 - (Sign.negative.apply mantissa : ℝ) * 2 ^ exponent =
            mantissa * 2 ^ exponent := by simp [Sign.apply]
        rw [value]
        exact ⟨_, double.isRounded .positive, rfl⟩
  | @finite mantissa exponent sign positive double =>
    cases denotes' with
    | zero sign' =>
      rw [sub_zero]
      cases sign with
      | positive => exact ⟨_, double.isRounded .positive, rfl⟩
      | negative =>
        have above : (0 : ℝ) < mantissa * 2 ^ exponent := by positivity
        simp only [Sign.apply, Int.cast_neg, Int.cast_natCast, neg_mul] at falls
        linarith
    | finite sign' positive' double' => exact ⟨_, isRounded_sub positive positive' falls, rfl⟩

/-! ## Infinite times -/

section

variable {place : ℤ ×ₗ ℤ ×ₗ ℤ} (stands : place ∈ standing? u)

include stands

private theorem le_highest : place ≤ toLex (2, toLex (0, 0)) := by
  rcases u with (_ | _) | _ | _ | ⟨_ | _, m, e, _⟩ <;> cases stands <;>
    simp [Prod.Lex.toLex_le_toLex]

private theorem eq_highest (above : toLex (2, toLex (0, 0)) ≤ place) : u = .infinity .positive := by
  rcases u with (_ | _) | _ | _ | ⟨_ | _, m, e, _⟩ <;> cases stands
  case infinity.positive.refl => rfl
  all_goals simp [Prod.Lex.toLex_le_toLex] at above

private theorem eq_lowest (below : place ≤ toLex (-2, toLex (0, 0))) : u = .infinity .negative := by
  rcases u with (_ | _) | _ | _ | ⟨_ | _, m, e, _⟩ <;> cases stands
  case infinity.negative.refl => rfl
  all_goals simp [Prod.Lex.toLex_le_toLex] at below

end

private theorem lowest_of_le (le : x ≤ y) (lowest : y.toModel.unpack = .infinity .negative) :
    x.toModel.unpack = .infinity .negative := by
  obtain ⟨a, here, b, there, below⟩ := (le_iff_standing x y).mp le
  rw [lowest] at there
  cases there
  exact eq_lowest here below

private theorem highest_of_le (le : x ≤ y) (highest : x.toModel.unpack = .infinity .positive) :
    y.toModel.unpack = .infinity .positive := by
  obtain ⟨a, here, b, there, below⟩ := (le_iff_standing x y).mp le
  rw [highest] at here
  cases here
  exact eq_highest there below

private theorem le_of_highest (defined : Scalar.IsDefined x)
    (highest : y.toModel.unpack = .infinity .positive) : x ≤ y := by
  obtain ⟨a, here, -, -, -⟩ := (le_iff_standing x x).mp defined
  exact (le_iff_standing x y).mpr ⟨a, here, _, by rw [highest]; rfl, le_highest here⟩

private theorem not_isDefined_sub {sign : Sign} (stop : x.toModel.unpack = .infinity sign)
    (start : y.toModel.unpack = .infinity sign) : ¬ Scalar.IsDefined (x - y) := by
  intro defined
  obtain ⟨place, stands, -⟩ := (le_iff_standing _ _).mp defined
  rw [unpack_sub, stop, start] at stands
  cases sign <;> cases stands

private theorem highest_sub_of_lowest (defined : Scalar.IsDefined x)
    (later : x.toModel.unpack ≠ .infinity .negative)
    (start : y.toModel.unpack = .infinity .negative) :
    (x - y).toModel.unpack = .infinity .positive := by
  rw [unpack_sub, start]
  rcases kinds_of_isDefined defined with ⟨_ | _, infinite⟩ | ⟨r, finite⟩
  · exact absurd infinite later
  · rw [infinite]
    exact unpack_pack_infinity .positive
  · generalize x.toModel.unpack = u at finite
    cases finite <;> exact unpack_pack_infinity .positive

private theorem highest_sub_of_denotes (stop : x.toModel.unpack = .infinity .positive)
    (start : Denotes y.toModel.unpack r) : (x - y).toModel.unpack = .infinity .positive := by
  rw [unpack_sub, stop]
  generalize y.toModel.unpack = v at start
  cases start <;> exact unpack_pack_infinity .positive

private theorem Denotes.of_between {z : Float} (denotes : Denotes x.toModel.unpack r)
    (denotes' : Denotes z.toModel.unpack s) (first : x ≤ y) (second : y ≤ z) :
    ∃ t, Denotes y.toModel.unpack t := by
  rcases kinds_of_isDefined (OrderedScalar.defined second).1 with ⟨_ | _, infinite⟩ | finite
  · rw [lowest_of_le first infinite] at denotes
    cases denotes
  · rw [highest_of_le second infinite] at denotes'
    cases denotes'
  · exact finite

private theorem Denotes.le (denotes : Denotes x.toModel.unpack r)
    (denotes' : Denotes y.toModel.unpack s) (le : x ≤ y) : r ≤ s := by
  obtain ⟨a, here, b, there, below⟩ := (le_iff_standing x y).mp le
  exact denotes.le_of_standing denotes' here there below

end Numeral

open Numeral in
instance : MonotoneSub Float where
  sub_le_sub := by
    intro start start' stop stop' starts runs stops defined
    rcases kinds_of_isDefined (OrderedScalar.defined starts).1 with ⟨_ | _, infinite⟩ | ⟨r, first⟩
    · refine le_of_highest defined (highest_sub_of_lowest (OrderedScalar.defined stops).2 ?_ infinite)
      intro lowest
      have lowest' := lowest_of_le stops lowest
      exact not_isDefined_sub lowest' (lowest_of_le runs lowest') defined
    · have highest := highest_of_le starts infinite
      exact absurd defined (not_isDefined_sub (highest_of_le runs highest) highest)
    · rcases kinds_of_isDefined (OrderedScalar.defined stops).2 with ⟨_ | _, infinite⟩ | ⟨s, last⟩
      · rw [lowest_of_le starts (lowest_of_le runs (lowest_of_le stops infinite))] at first
        cases first
      · exact le_of_highest defined (highest_sub_of_denotes infinite first)
      · obtain ⟨r', first'⟩ := first.of_between last starts (OrderedScalar.trans runs stops)
        obtain ⟨s', last'⟩ := first'.of_between last runs stops
        have between := first'.le last' runs
        have outside := (first.le first' starts).trans (between.trans (last'.le last stops))
        exact (last'.sub first' between).le (last.sub first outside)
          (sub_le_sub (last'.le last stops) (first.le first' starts))

end CodeSearch
