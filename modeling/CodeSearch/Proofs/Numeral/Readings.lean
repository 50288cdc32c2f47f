import CodeSearch.Numeral.Shortest
import Mathlib.Algebra.Order.Field.Power
import Mathlib.Algebra.Order.Field.Rat
import Mathlib.Tactic.Linarith
import Mathlib.Tactic.NormNum
import Mathlib.Tactic.Ring

/-! # Numbers that read back as a double

The numbers that read back as a double form an interval, and the intervals of different doubles have
nothing in common. Among the numbers of seventeen digits there is one in each of them, so the search
for the shortest digits ends inside the interval.
-/

namespace CodeSearch.Numeral

/-- What the fields of a double that is neither zero nor infinite can be. -/
structure IsDouble (mantissa : Nat) (exponent : Int) : Prop where
  some : 0 < mantissa
  small : mantissa < 2 ^ 53
  bounded : -1074 ≤ exponent
  full : 2 ^ 52 ≤ mantissa ∨ exponent = -1074

namespace Reading

/-- A number reads back as the double. -/
def Reads (r : Reading) (x : ℚ) : Prop :=
  if r.closed then r.low ≤ x * r.denominator ∧ x * r.denominator ≤ r.high
  else r.low < x * r.denominator ∧ x * r.denominator < r.high

variable {r : Reading}

private theorem tenTo_split (place : Int) :
    (10 : ℚ) ^ place * tenTo (-place).toNat = tenTo place.toNat := by
  change (10 : ℚ) ^ place * ((10 ^ (-place).toNat : ℕ) : ℚ) = ((10 ^ place.toNat : ℕ) : ℚ)
  push_cast
  rw [← zpow_natCast, ← zpow_natCast, ← zpow_add₀ (by norm_num)]
  congr 1
  omega

private theorem tenTo_pos (place : Int) : (0 : ℚ) < tenTo (-place).toNat :=
  Nat.cast_pos.mpr (Nat.pow_pos (by decide))

private theorem le_grid_iff (bound step : Nat) (place : Int) :
    bound * tenTo (-place).toNat ≤ step * tenTo place.toNat ↔ (bound : ℚ) ≤ step * 10 ^ place := by
  rw [← @Nat.cast_le ℚ, Nat.cast_mul, Nat.cast_mul, ← tenTo_split place, ← mul_assoc,
    mul_le_mul_iff_of_pos_right (tenTo_pos place)]

private theorem grid_le_iff (bound step : Nat) (place : Int) :
    step * tenTo place.toNat ≤ bound * tenTo (-place).toNat ↔ (step : ℚ) * 10 ^ place ≤ bound := by
  rw [← @Nat.cast_le ℚ, Nat.cast_mul, Nat.cast_mul, ← tenTo_split place, ← mul_assoc,
    mul_le_mul_iff_of_pos_right (tenTo_pos place)]

theorem holds_iff (count : Nat) (place : Int) :
    r.holds count place = true ↔ r.Reads (count * 10 ^ place) := by
  have point : (count : ℚ) * 10 ^ place * r.denominator =
      (count * r.denominator : ℕ) * 10 ^ place := by
    push_cast
    ring
  unfold holds Reads
  rw [point]
  split
  · rw [Bool.and_eq_true, decide_eq_true_iff, decide_eq_true_iff, le_grid_iff, grid_le_iff]
  · rw [Bool.and_eq_true, decide_eq_true_iff, decide_eq_true_iff, ← not_le, ← not_le, le_grid_iff,
      grid_le_iff, not_le, not_le]

/-- The value lies properly inside its interval. -/
structure IsProper (r : Reading) : Prop where
  denominator : 0 < r.denominator
  low : r.low < r.value
  high : r.value < r.high

/-- What the search takes is in the interval. -/
theorem holds_of_nearest? {count : Nat} {place : Int} (found : r.nearest? place = some count) :
    r.holds count place = true := by
  unfold nearest? at found
  dsimp only at found
  split at found
  · cases found
  · next below _ => cases found; exact below
  · next _ above => cases found; exact above
  · next below above =>
    split at found
    · cases found; exact below
    · split at found
      · cases found; exact above
      · split at found
        · cases found; exact below
        · cases found; exact above

/-- A grid that is finer than the interval has a point in it, next to the value. -/
theorem nearest?_isSome (proper : r.IsProper) {place : Int}
    (fine : (r.denominator : ℚ) * 10 ^ place + r.low < r.high) :
    (r.nearest? place).isSome = true := by
  have fine : r.denominator * tenTo place.toNat + r.low * tenTo (-place).toNat <
      r.high * tenTo (-place).toNat := by
    have scaled := mul_lt_mul_of_pos_right fine (tenTo_pos place)
    rw [add_mul, mul_assoc, tenTo_split] at scaled
    exact_mod_cast scaled
  have step : 0 < r.denominator * tenTo place.toNat :=
    Nat.mul_pos proper.denominator (Nat.pow_pos (by decide))
  have scale : 0 < tenTo (-place).toNat := Nat.pow_pos (by decide)
  have low := Nat.mul_lt_mul_of_pos_right proper.low scale
  have high := Nat.mul_lt_mul_of_pos_right proper.high scale
  unfold nearest?
  dsimp only
  generalize below : r.value * tenTo (-place).toNat / (r.denominator * tenTo place.toNat) = count
  -- the value lies between two neighbours on the grid
  have from_ := Nat.div_mul_le_self (r.value * tenTo (-place).toNat)
    (r.denominator * tenTo place.toNat)
  have upTo := Nat.lt_div_mul_add step (a := r.value * tenTo (-place).toNat)
  rw [below, ← Nat.mul_assoc] at from_ upTo
  split
  · next notBelow notAbove =>
    exfalso
    by_cases closed : r.closed = true
    · simp only [holds, closed, if_true, Nat.add_mul, Nat.one_mul, Bool.and_eq_false_iff,
        decide_eq_false_iff_not, not_le] at notBelow notAbove
      omega
    · simp only [holds, closed, Bool.false_eq_true, if_false, Nat.add_mul, Nat.one_mul,
        Bool.and_eq_false_iff, decide_eq_false_iff_not, not_lt] at notBelow notAbove
      omega
  · rfl
  · rfl
  · split
    · rfl
    · split
      · rfl
      · split <;> rfl

/-- The search ends in the interval if one of the grids that it tries has a point there. -/
theorem search_holds {leading : Int} {more count k : Nat} (from_ : count ≤ k)
    (before : k < count + more) (found : (r.nearest? (leading - k)).isSome = true) :
    r.holds (r.search leading count more).1 (r.search leading count more).2 = true := by
  induction more generalizing count with
  | zero => omega
  | succ more ih =>
    unfold search
    dsimp only
    split
    · next nearest => exact holds_of_nearest? nearest
    · next nothing =>
      have later : count ≠ k := by
        rintro rfl
        rw [nothing] at found
        cases found
      exact ih (by omega) (by omega)

private theorem tenTo_le_of_digits {n : Nat} (positive : 0 < n) :
    10 ^ ((digits n).length - 1) ≤ n := by
  by_cases one : (digits n).length - 1 = 0
  · rw [one]
    exact positive
  · by_contra less
    have fewer := (Nat.length_toDigits_le_iff (b := 10) (by decide) (Nat.pos_of_ne_zero one)).mpr
      (Nat.lt_of_not_le less)
    change (digits n).length ≤ _ at fewer
    omega

private theorem lt_tenTo_digits (n : Nat) : n < 10 ^ (digits n).length :=
  (Nat.length_toDigits_le_iff (by decide) Nat.length_toDigits_pos).mp le_rfl

/-- The leading digit stands for no more than the value. -/
theorem leading_le (denominator : 0 < r.denominator) (value : 0 < r.value) :
    (r.denominator : ℚ) * 10 ^ r.leading ≤ r.value := by
  unfold leading
  split
  · next large =>
    have whole := tenTo_le_of_digits (Nat.div_pos large denominator)
    have length : 1 ≤ (digits (r.value / r.denominator)).length := Nat.length_toDigits_pos
    have bound : r.denominator * 10 ^ ((digits (r.value / r.denominator)).length - 1) ≤ r.value :=
      (Nat.mul_le_mul_left _ whole).trans (Nat.mul_div_le _ _)
    rw [← Nat.cast_one, ← Nat.cast_sub length, zpow_natCast]
    exact_mod_cast bound
  · next small =>
    have length : 1 ≤ (digits (r.denominator / r.value)).length := Nat.length_toDigits_pos
    dsimp only
    split
    · next exact =>
      rw [show (1 : ℤ) - (digits (r.denominator / r.value)).length =
        -(((digits (r.denominator / r.value)).length - 1 : ℕ) : ℤ) by omega, zpow_neg, zpow_natCast,
        ← div_eq_mul_inv, div_le_iff₀ (by positivity)]
      exact_mod_cast exact
    · have quotient := lt_tenTo_digits (r.denominator / r.value)
      rw [Nat.div_lt_iff_lt_mul value, Nat.mul_comm] at quotient
      rw [zpow_neg, zpow_natCast, ← div_eq_mul_inv, div_le_iff₀ (by positivity)]
      exact_mod_cast quotient.le

/-! ## The interval of a double -/

variable {mantissa other : Nat} {exponent : Int}

/-- How far an interval reaches below its value, in quarters of the last binary place. -/
def gap (mantissa : Nat) (exponent : Int) : Nat :=
  if mantissa = 2 ^ 52 ∧ -1074 < exponent then 1 else 2

/-- A quarter of the last binary place. -/
def quarter (exponent : Int) : Nat :=
  if exponent - 2 < 0 then 1 else twoTo (exponent - 2).toNat

private theorem quarter_pos (exponent : Int) : 0 < quarter exponent := by
  unfold quarter
  split
  · decide
  · exact Nat.pow_pos (by decide)

private theorem ofBinary_low (mantissa : Nat) (exponent : Int) :
    (ofBinary mantissa exponent).low = (4 * mantissa - gap mantissa exponent) * quarter exponent := by
  simp only [ofBinary, gap, quarter, Bool.and_eq_true, beq_iff_eq, decide_eq_true_iff, gt_iff_lt]
  rfl

private theorem ofBinary_denominator_pos (mantissa : Nat) (exponent : Int) :
    0 < (ofBinary mantissa exponent).denominator := by
  simp only [ofBinary]
  split
  · exact Nat.pow_pos (by decide)
  · decide

private theorem quarter_eq (mantissa : Nat) (exponent : Int) :
    (2 : ℚ) ^ (exponent - 2) * (ofBinary mantissa exponent).denominator = quarter exponent := by
  simp only [ofBinary, quarter]
  split
  · next negative =>
    change (2 : ℚ) ^ (exponent - 2) * ((2 ^ (2 - exponent).toNat : ℕ) : ℚ) = ((1 : ℕ) : ℚ)
    push_cast
    rw [← zpow_natCast, ← zpow_add₀ (by norm_num), show exponent - 2 + ((2 - exponent).toNat : ℤ) = 0
      by omega, zpow_zero]
  · next whole =>
    change (2 : ℚ) ^ (exponent - 2) * ((1 : ℕ) : ℚ) = ((2 ^ (exponent - 2).toNat : ℕ) : ℚ)
    push_cast
    rw [mul_one, ← zpow_natCast]
    congr 1
    omega

private theorem gap_le (mantissa : Nat) (exponent : Int) :
    1 ≤ gap mantissa exponent ∧ gap mantissa exponent ≤ 2 := by
  unfold gap
  split <;> omega

private theorem cast_low (some : 0 < mantissa) : ((ofBinary mantissa exponent).low : ℚ) =
    (4 * mantissa - gap mantissa exponent) * quarter exponent := by
  have gaps := gap_le mantissa exponent
  rw [ofBinary_low, Nat.cast_mul, Nat.cast_sub (by omega)]
  push_cast
  rfl

private theorem cast_high :
    ((ofBinary mantissa exponent).high : ℚ) = (4 * mantissa + 2) * quarter exponent := by
  change (((4 * mantissa + 2) * quarter exponent : ℕ) : ℚ) = _
  push_cast
  rfl

private theorem cast_value :
    ((ofBinary mantissa exponent).value : ℚ) = 4 * mantissa * quarter exponent := by
  change ((4 * mantissa * quarter exponent : ℕ) : ℚ) = _
  push_cast
  rfl

/-- In quarters of the last binary place an interval has whole ends. -/
theorem reads_ofBinary_iff (some : 0 < mantissa) (t : ℚ) :
    (ofBinary mantissa exponent).Reads (t * 2 ^ (exponent - 2)) ↔
      if mantissa % 2 = 0 then (4 * mantissa - gap mantissa exponent : ℚ) ≤ t ∧ t ≤ 4 * mantissa + 2
      else (4 * mantissa - gap mantissa exponent : ℚ) < t ∧ t < 4 * mantissa + 2 := by
  have unit : (0 : ℚ) < quarter exponent := Nat.cast_pos.mpr (quarter_pos exponent)
  unfold Reads
  rw [mul_assoc, quarter_eq, cast_low some, cast_high]
  simp only [mul_le_mul_iff_of_pos_right unit, mul_lt_mul_iff_of_pos_right unit]
  simp only [ofBinary, beq_iff_eq]

/-- Only positive numbers read back as a double without its sign. -/
theorem pos_of_reads (some : 0 < mantissa) {x : ℚ} (reads : (ofBinary mantissa exponent).Reads x) :
    0 < x := by
  have gaps := gap_le mantissa exponent
  have low : (0 : ℚ) < (ofBinary mantissa exponent).low := by
    rw [ofBinary_low]
    exact_mod_cast Nat.mul_pos (by omega) (quarter_pos exponent)
  have above : (0 : ℚ) < x * (ofBinary mantissa exponent).denominator := by
    unfold Reads at reads
    split at reads
    · exact low.trans_le reads.1
    · exact low.trans reads.1
  exact pos_of_mul_pos_left above (Nat.cast_nonneg _)

private theorem exists_quarters (x : ℚ) (exponent : Int) : ∃ t, x = t * 2 ^ (exponent - 2) :=
  ⟨x / 2 ^ (exponent - 2), (div_mul_cancel₀ x (by positivity)).symm⟩

private theorem ends_of_reads (some : 0 < mantissa) {t : ℚ}
    (reads : (ofBinary mantissa exponent).Reads (t * 2 ^ (exponent - 2))) :
    (4 * mantissa - gap mantissa exponent : ℚ) ≤ t ∧ t ≤ 4 * mantissa + 2 ∧
      (mantissa % 2 = 1 → (4 * mantissa - gap mantissa exponent : ℚ) < t ∧ t < 4 * mantissa + 2) := by
  -- the ends belong to intervals of even mantissas only
  rw [reads_ofBinary_iff some] at reads
  split at reads
  · exact ⟨reads.1, reads.2, fun odd => by omega⟩
  · exact ⟨reads.1.le, reads.2.le, fun _ => reads⟩

private theorem not_reads_of_lt (double : IsDouble mantissa exponent)
    (double' : IsDouble other exponent) (less : mantissa < other) {t : ℚ}
    (reads : (ofBinary mantissa exponent).Reads (t * 2 ^ (exponent - 2)))
    (reads' : (ofBinary other exponent).Reads (t * 2 ^ (exponent - 2))) : False := by
  obtain ⟨-, above, odd⟩ := ends_of_reads double.some reads
  obtain ⟨below, -, odd'⟩ := ends_of_reads double'.some reads'
  have wide : gap other exponent = 2 := by
    refine if_neg ?_
    rintro ⟨lowest, normal⟩
    rcases double.full with full | least
    · omega
    · omega
  rw [wide] at below odd'
  have next : (mantissa : ℚ) + 1 ≤ other := by exact_mod_cast less
  push_cast at below odd'
  -- the intervals touch, and one of two neighbours is odd
  have touch : (other : ℚ) = mantissa + 1 := by linarith
  have follows : other = mantissa + 1 := by exact_mod_cast touch
  rcases Nat.mod_two_eq_zero_or_one mantissa with even | isOdd
  · have := (odd' (by omega)).1
    linarith
  · have := (odd isOdd).2
    linarith

private theorem not_reads_of_exponent_lt {greater : Int} (double : IsDouble mantissa exponent)
    (double' : IsDouble other greater) (less : exponent < greater) {x : ℚ}
    (reads : (ofBinary mantissa exponent).Reads x) (reads' : (ofBinary other greater).Reads x) :
    False := by
  -- the interval lies below that of every double with a greater exponent
  have positive : (2 : ℚ) ^ (greater - exponent) ≥ 2 := by
    calc (2 : ℚ) = 2 ^ (1 : ℤ) := by norm_num
      _ ≤ 2 ^ (greater - exponent) := zpow_le_zpow_right₀ (by norm_num) (by omega)
  obtain ⟨t, rfl⟩ := exists_quarters x greater
  have moved : t * 2 ^ (greater - 2) = t * 2 ^ (greater - exponent) * 2 ^ (exponent - 2) := by
    rw [mul_assoc, ← zpow_add₀ (by norm_num)]
    congr 2
    omega
  rw [moved] at reads
  obtain ⟨-, above, odd⟩ := ends_of_reads double.some reads
  obtain ⟨below, -, -⟩ := ends_of_reads double'.some reads'
  have full : 2 ^ 52 ≤ other := by
    rcases double'.full with full | least
    · exact full
    · have := double.bounded
      omega
  have low : (2 ^ 54 - 1 : ℚ) ≤ t := by
    by_cases lowest : other = 2 ^ 52
    · have narrow : gap other greater = 1 := if_pos ⟨lowest, by have := double.bounded; omega⟩
      rw [narrow, lowest] at below
      norm_num at below ⊢
      linarith
    · have more : (2 ^ 52 + 1 : ℚ) ≤ other := by
        exact_mod_cast Nat.lt_of_le_of_ne full (Ne.symm lowest)
      have gaps : (gap other greater : ℚ) ≤ 2 := by exact_mod_cast (gap_le other greater).2
      linarith
  have high : t * 2 ^ (greater - exponent) < 2 ^ 55 - 2 := by
    by_cases last : mantissa = 2 ^ 53 - 1
    · have strict := (odd (by omega)).2
      rw [last] at strict
      norm_num at strict ⊢
      linarith
    · have fewer : (mantissa : ℚ) + 2 ≤ 2 ^ 53 := by
        have := double.small
        exact_mod_cast (by omega : mantissa + 2 ≤ 2 ^ 53)
      linarith
  nlinarith

private theorem isProper_ofBinary (some : 0 < mantissa) :
    (ofBinary mantissa exponent).IsProper := by
  have unit := quarter_pos exponent
  have gaps := gap_le mantissa exponent
  refine ⟨ofBinary_denominator_pos _ _, ?_, ?_⟩
  · rw [ofBinary_low]
    exact Nat.mul_lt_mul_of_pos_right (by omega) unit
  · exact Nat.mul_lt_mul_of_pos_right (by omega : 4 * mantissa < 4 * mantissa + 2) unit

private theorem grid_is_fine (double : IsDouble mantissa exponent) :
    ((ofBinary mantissa exponent).denominator : ℚ) *
        10 ^ ((ofBinary mantissa exponent).leading - 16) +
      (ofBinary mantissa exponent).low < (ofBinary mantissa exponent).high := by
  -- sixteen places behind the leading digit
  have unit : (0 : ℚ) < quarter exponent := Nat.cast_pos.mpr (quarter_pos exponent)
  have digits : (4 * mantissa : ℚ) < (2 + gap mantissa exponent) * 10 ^ 16 := by
    have small := double.small
    have bound : 4 * mantissa < (2 + gap mantissa exponent) * 10 ^ 16 := by
      unfold gap
      split <;> omega
    exact_mod_cast bound
  have value : 0 < (ofBinary mantissa exponent).value :=
    Nat.mul_pos (Nat.mul_pos (by decide) double.some) (quarter_pos exponent)
  have leading := leading_le (ofBinary_denominator_pos mantissa exponent) value
  rw [show (ofBinary mantissa exponent).leading = (ofBinary mantissa exponent).leading - 16 + 16 by
    omega, zpow_add₀ (by norm_num), ← mul_assoc, cast_value] at leading
  rw [cast_low double.some, cast_high]
  have below : ((ofBinary mantissa exponent).denominator : ℚ) *
      10 ^ ((ofBinary mantissa exponent).leading - 16) * 10 ^ 16 <
        (2 + gap mantissa exponent) * quarter exponent * 10 ^ 16 := by
    calc _ ≤ (4 * mantissa * quarter exponent : ℚ) := leading
      _ < (2 + gap mantissa exponent) * 10 ^ 16 * quarter exponent :=
        mul_lt_mul_of_pos_right digits unit
      _ = _ := by ring
  have step := lt_of_mul_lt_mul_right below (by positivity)
  linarith

/-- The search for the digits of a double ends in its interval. -/
theorem reads_search (double : IsDouble mantissa exponent) :
    let reading := ofBinary mantissa exponent
    let found := reading.search reading.leading 0 17
    reading.Reads (found.1 * 10 ^ found.2) := by
  intro reading found
  refine (holds_iff _ _).mp (search_holds (Nat.zero_le 16) (by omega) ?_)
  exact nearest?_isSome (isProper_ofBinary double.some) (grid_is_fine double)

/-- No number reads back as two doubles. -/
theorem unique_of_reads {exponent' : Int} (double : IsDouble mantissa exponent)
    (double' : IsDouble other exponent') {x : ℚ} (reads : (ofBinary mantissa exponent).Reads x)
    (reads' : (ofBinary other exponent').Reads x) : mantissa = other ∧ exponent = exponent' := by
  rcases Int.lt_trichotomy exponent exponent' with less | rfl | greater
  · exact (not_reads_of_exponent_lt double double' less reads reads').elim
  · refine ⟨?_, rfl⟩
    obtain ⟨t, rfl⟩ := exists_quarters x exponent
    rcases Nat.lt_trichotomy mantissa other with less | same | more
    · exact (not_reads_of_lt double double' less reads reads').elim
    · exact same
    · exact (not_reads_of_lt double' double more reads' reads).elim
  · exact (not_reads_of_exponent_lt double' double greater reads' reads).elim

end Reading

end CodeSearch.Numeral
