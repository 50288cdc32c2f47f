import CodeSearch.Embedding.Basic
import CodeSearch.Proofs.Numeral.Doubles

/-! # Vectors of doubles

However many tokens a text has, the components of its vector stay below a bound, and a vector that
has a length is brought to components of at most two. Neither of them can overflow when cosines are
computed, and a product of two lengths is not rounded to zero, so no cosine is undefined.
-/

namespace CodeSearch

open Numeral

variable {a b vector terms : List Float} {total x : Float} {bound r s : ℝ} {i k : ℤ}

/-! ## Sums of products -/

/-- However many terms there are, a sum stays below a power of two that is far above all of them. -/
theorem exists_sum (least : -1022 ≤ k) (most : k ≤ 1023) (small : bound < 2 ^ (k - 53))
    (bounded : ∀ x ∈ terms, IsAtMost bound x) (measures : Measures total r) (atMost : r ≤ 2 ^ k) :
    ∃ value, Measures (terms.foldl (· + ·) total) value ∧ value ≤ 2 ^ k ∧ r ≤ value ∧
      ∀ x ∈ terms, ∀ s, Measures x s → s ≤ value := by
  induction terms generalizing total r with
  | nil => exact ⟨r, measures, atMost, le_rfl, fun x member => absurd member List.not_mem_nil⟩
  | cons first rest ih =>
    obtain ⟨⟨s, measures', below⟩, bounded⟩ := List.forall_mem_cons.mp bounded
    obtain ⟨sum, added, held, grown, above⟩ :=
      measures.absorb atMost measures' least most (below.trans_lt small)
    obtain ⟨value, summed, held', grown', others⟩ := ih bounded added held
    refine ⟨value, summed, held', grown.trans grown', List.forall_mem_cons.mpr ⟨?_, others⟩⟩
    intro s' measures''
    exact measures''.unique measures' ▸ above.trans grown'

/-- A product of vectors of bounded components is bounded, however many components there are. -/
theorem exists_dotProduct (bounded : ∀ x ∈ a, IsAtMost (2 ^ i) x)
    (bounded' : ∀ x ∈ b, IsAtMost (2 ^ i) x) (least : -511 ≤ i) (far : 2 * i + 53 < k)
    (most : k ≤ 1023) : ∃ value, Measures (dotProduct a b) value ∧ value ≤ 2 ^ k ∧
      ∀ pair ∈ a.zip b, ∀ s, Measures (pair.1 * pair.2) s → s ≤ value := by
  have products : ∀ x ∈ (a.zip b).map fun pair => pair.1 * pair.2, IsAtMost (2 ^ (2 * i)) x := by
    intro x member
    obtain ⟨⟨left, right⟩, pairs, rfl⟩ := List.mem_map.mp member
    obtain ⟨first, second⟩ := List.of_mem_zip pairs
    refine (bounded _ first).mul (bounded' _ second) (by omega) (by omega) (le_of_eq ?_)
    rw [← zpow_add₀ two_ne_zero, two_mul]
  have zero : Measures (Scalar.ofNat 0) 0 := .zero .positive rfl
  obtain ⟨value, measures, held, -, above⟩ := exists_sum (by omega) most
    (zpow_lt_zpow_right₀ one_lt_two (by omega)) products zero (by positivity)
  rw [List.foldl_map] at measures
  exact ⟨value, measures, held, fun pair member => above _ (List.mem_map_of_mem member)⟩

theorem exists_norm (bounded : ∀ x ∈ vector, IsAtMost (2 ^ (60 : ℤ)) x) :
    ∃ square length, Measures (dotProduct vector vector) square ∧ Measures (norm vector) length ∧
      length ≤ 2 ^ (100 : ℤ) ∧ (∀ lower, IsValue lower → lower ≤ √square → lower ≤ length) ∧
      (0 < length → 0 < square) ∧ ∀ x ∈ vector, ∀ s, Measures (x * x) s → s ≤ square := by
  obtain ⟨square, measures, held, above⟩ :=
    exists_dotProduct (k := 200) bounded bounded (by decide) (by decide) (by decide)
  have root : √square ≤ 2 ^ (100 : ℤ) := by
    rw [Real.sqrt_le_iff]
    refine ⟨by positivity, held.trans_eq ?_⟩
    norm_num
  obtain ⟨length, measures', held', low, high⟩ := measures.sqrt.exists_le (k := 100) (by decide)
    (by decide) (root.trans_lt (lt_add_of_pos_right _ (by positivity)))
  refine ⟨square, length, measures, measures', held', low, ?_, ?_⟩
  · intro positive
    by_contra none
    have zero : √square ≤ 0 := (Real.sqrt_eq_zero'.mpr (not_lt.mp none)).le
    exact absurd (high 0 .zero zero) (not_le.mpr positive)
  · intro x member s product
    refine above (x, x) ?_ s product
    rw [List.zip_eq_zipWith, List.zipWith_self]
    exact List.mem_map_of_mem member

/-! ## Directions -/

/-- Rounding does not make a component longer than twice the length of its vector: the leading power
of two of the component is squared and drawn the root of without rounding. Where the square is below
all values, so is the component below the least length. -/
theorem le_two_mul_length {square length : ℝ} (measures : Measures x r) (held : r ≤ 2 ^ (60 : ℤ))
    (value : IsValue square) (positive : 0 < square) (above : ∀ s, Measures (x * x) s → s ≤ square)
    (low : ∀ lower, IsValue lower → lower ≤ √square → lower ≤ length) : r ≤ 2 * length := by
  have nonneg : 0 ≤ length := low 0 .zero (Real.sqrt_nonneg _)
  rcases measures.nonneg.eq_or_lt with zero | some
  · rw [← zero]
    positivity
  obtain ⟨j, lower, upper⟩ := exists_mem_Ico_zpow some one_lt_two
  have least : -1074 < j + 1 :=
    (zpow_lt_zpow_iff_right₀ one_lt_two).mp ((measures.isValue.least some).trans_lt upper)
  by_cases squared : -1074 ≤ 2 * j
  · have small : r * r < 2 ^ (120 : ℤ) + 2 ^ (120 - 53 : ℤ) :=
      (mul_le_mul held held measures.nonneg (by positivity)).trans_lt (by norm_num)
    obtain ⟨product, squares, -, reached, -⟩ :=
      (measures.mul measures).exists_le (by decide) (by decide) small
    have leading : (2 : ℝ) ^ (2 * j) ≤ r * r := by
      rw [two_mul, zpow_add₀ two_ne_zero]
      exact mul_le_mul lower lower (by positivity) measures.nonneg
    have root : (2 : ℝ) ^ j ≤ √square := by
      refine Real.le_sqrt_of_sq_le ?_
      rw [← zpow_natCast, ← zpow_mul, mul_comm]
      exact (reached _ (isValue_two_zpow squared) leading).trans (above _ squares)
    rw [zpow_add_one₀ two_ne_zero, mul_comm] at upper
    exact upper.le.trans (mul_le_mul_of_nonneg_left (low _ (isValue_two_zpow (by omega)) root)
      two_pos.le)
  · have root : (2 : ℝ) ^ (-537 : ℤ) ≤ √square := by
      refine Real.le_sqrt_of_sq_le ?_
      rw [← zpow_natCast, ← zpow_mul]
      exact value.least positive
    have short : (2 : ℝ) ^ (j + 1) ≤ 2 ^ (-537 : ℤ) := zpow_le_zpow_right₀ one_le_two (by omega)
    have length_ := low _ (isValue_two_zpow (by decide)) root
    linarith

/-- The vector is brought to small components, or it has no length that doubles can tell from zero. -/
inductive IsDirection (vector : List Float) : Prop
  | short (small : ∀ x ∈ vector, IsAtMost (2 ^ (1 : ℤ)) x)
  | empty (held : ∀ x ∈ vector, IsAtMost (2 ^ (60 : ℤ)) x)
      (none : norm vector ≤ (Scalar.ofNat 0 : Float))

theorem normalized_isDirection (bounded : ∀ x ∈ vector, IsAtMost (2 ^ (60 : ℤ)) x) :
    IsDirection (normalized vector) := by
  obtain ⟨square, length, measures, measures', -, low, lengthens, above⟩ := exists_norm bounded
  unfold normalized
  dsimp only
  split
  · next long =>
    refine .short fun y member => ?_
    obtain ⟨x, inside, rfl⟩ := List.mem_map.mp member
    obtain ⟨r, component, held⟩ := bounded x inside
    have positive : 0 < length := measures'.pos_iff.mp long
    have ratio : r / length ≤ 2 ^ (1 : ℤ) := by
      rw [zpow_one, div_le_iff₀ positive]
      exact le_two_mul_length component held measures.isValue (lengthens positive)
        (above x inside) low
    exact (component.div measures' positive).isAtMost (by decide) (by decide) ratio
  · next short =>
    refine .empty bounded (measures'.le_zero_iff.mpr (not_lt.mp fun positive => ?_))
    exact short (measures'.pos_iff.mpr positive)

/-! ## Embedded texts -/

private theorem isAtMost_weight (token : List Char) : IsAtMost 2 (Token.weight token : Float) := by
  unfold Token.weight
  dsimp only
  split
  · have keyword : Measures (2.0 : Float) ((4503599627370496 : ℕ) * 2 ^ (-51 : ℤ)) :=
      measures_of_unpack (by decide) (by decide) rfl
    exact ⟨_, keyword, by norm_num⟩
  · split
    · have typeName : Measures (1.7 : Float) ((7656119366529843 : ℕ) * 2 ^ (-52 : ℤ)) :=
        measures_of_unpack (by decide) (by decide) rfl
      exact ⟨_, typeName, by norm_num⟩
    · split
      · have identifier : Measures (1.5 : Float) ((6755399441055744 : ℕ) * 2 ^ (-52 : ℤ)) :=
          measures_of_unpack (by decide) (by decide) rfl
        exact ⟨_, identifier, by norm_num⟩
      · have other : Measures (1.0 : Float) ((4503599627370496 : ℕ) * 2 ^ (-52 : ℤ)) :=
          measures_of_unpack (by decide) (by decide) rfl
        exact ⟨_, other, by norm_num⟩

private theorem isAtMost_spill : IsAtMost 1 (0.3 : Float) := by
  have spill : Measures (0.3 : Float) ((5404319552844595 : ℕ) * 2 ^ (-54 : ℤ)) :=
    measures_of_unpack (by decide) (by decide) rfl
  exact ⟨_, spill, by norm_num⟩

private theorem tokenShare_isAtMost {dimensions count : ℕ} (some : 0 < count) (token : String) :
    IsAtMost (2 ^ (1 : ℤ)) (tokenShare dimensions count token : Share Float).amount := by
  obtain ⟨weight, measures, held⟩ := isAtMost_weight token.toList
  change IsAtMost _ ((Token.weight token.toList : Float) / Scalar.ofNat count)
  rcases one_le_ofNat some with infinite | ⟨value, measures', least⟩
  · exact ⟨0, measures.div_infinite infinite, by positivity⟩
  · refine (measures.div measures' (one_pos.trans_le least)).isAtMost (by decide) (by decide) ?_
    rw [zpow_one]
    exact (div_le_self measures.nonneg least).trans held

theorem addTo_isAtMost {slot : ℕ} {share : Share Float} (held : IsAtMost (2 ^ (60 : ℤ)) total)
    (small : IsAtMost (2 ^ (1 : ℤ)) share.amount) :
    IsAtMost (2 ^ (60 : ℤ)) (share.addTo slot total) := by
  unfold Share.addTo
  split
  · exact held.add small (by decide) (by decide) (by norm_num)
  · split
    · have spilt : IsAtMost (2 ^ (1 : ℤ)) (share.amount * 0.3) :=
        small.mul isAtMost_spill (by decide) (by decide) (mul_one _).le
      exact held.add spilt (by decide) (by decide) (by norm_num)
    · exact held

theorem tokenSums_isAtMost (dimensions : ℕ) (tokens : List String) :
    ∀ x ∈ (tokenSums dimensions tokens : List Float), IsAtMost (2 ^ (60 : ℤ)) x := by
  intro x member
  rw [tokenSums_eq_map] at member
  obtain ⟨slot, -, rfl⟩ := List.mem_map.mp member
  have small : ∀ share ∈ tokenShares dimensions tokens,
      IsAtMost (2 ^ (1 : ℤ)) (share : Share Float).amount := by
    intro share listed
    obtain ⟨token, present, rfl⟩ := List.mem_map.mp listed
    exact tokenShare_isAtMost (List.length_pos_of_mem present) token
  refine List.foldlRecOn _ _ (isAtMost_zero (by positivity)) fun total held share listed => ?_
  exact addTo_isAtMost held (small share listed)

theorem vectorize_isDirection (dimensions : ℕ) (tokens : List String) :
    IsDirection (vectorize dimensions tokens) :=
  normalized_isDirection (tokenSums_isAtMost dimensions tokens)

/-! ## Cosines -/

namespace IsDirection

theorem isAtMost (direction : IsDirection vector) : ∀ x ∈ vector, IsAtMost (2 ^ (60 : ℤ)) x := by
  intro x member
  cases direction with
  | short small => exact (small x member).mono (by norm_num)
  | empty held => exact held x member

/-- A direction with a length has small components. -/
theorem isAtMost_two (direction : IsDirection vector)
    (long : ¬ norm vector ≤ (Scalar.ofNat 0 : Float)) :
    ∀ x ∈ vector, IsAtMost (2 ^ (1 : ℤ)) x := by
  cases direction with
  | short small => exact small
  | empty _ none => exact absurd none long

/-- The length of a direction that has one is not too small to be multiplied with another. -/
theorem exists_length (direction : IsDirection vector)
    (long : ¬ norm vector ≤ (Scalar.ofNat 0 : Float)) : ∃ length, Measures (norm vector) length ∧
      2 ^ (-537 : ℤ) ≤ length ∧ length ≤ 2 ^ (100 : ℤ) := by
  obtain ⟨square, length, measures, measures', held, low, lengthens, -⟩ :=
    exists_norm direction.isAtMost
  have positive : 0 < length := not_le.mp fun none => long (measures'.le_zero_iff.mpr none)
  refine ⟨length, measures', low _ (isValue_two_zpow (by decide)) ?_, held⟩
  refine Real.le_sqrt_of_sq_le ?_
  rw [← zpow_natCast, ← zpow_mul]
  exact measures.isValue.least (lengthens positive)

end IsDirection

/-- The cosine of two directions is not undefined. -/
theorem cosine_isUnsigned (direction : IsDirection a) (direction' : IsDirection b) :
    IsUnsigned (cosine a b) := by
  have zero : IsUnsigned (Scalar.ofNat 0) := .inr ⟨0, .zero .positive rfl⟩
  unfold cosine
  dsimp only
  split
  · exact zero
  · split
    · exact zero
    · next long =>
      obtain ⟨long, long'⟩ := not_or.mp long
      obtain ⟨length, measures, least, most⟩ := direction.exists_length long
      obtain ⟨length', measures', least', most'⟩ := direction'.exists_length long'
      obtain ⟨dot, product, -⟩ := exists_dotProduct (k := 60) (direction.isAtMost_two long)
        (direction'.isAtMost_two long') (by decide) (by decide) (by decide)
      have held : length * length' < 2 ^ (200 : ℤ) + 2 ^ (200 - 53 : ℤ) :=
        (mul_le_mul most most' measures'.nonneg (by positivity)).trans_lt (by norm_num)
      have reached : (2 : ℝ) ^ (-1074 : ℤ) ≤ length * length' := by
        calc (2 : ℝ) ^ (-1074 : ℤ) = 2 ^ (-537 : ℤ) * 2 ^ (-537 : ℤ) := by
              rw [← zpow_add₀ two_ne_zero]
              rfl
          _ ≤ length * length' := mul_le_mul least least' (by positivity) measures.nonneg
      obtain ⟨lengths, measures'', -, low, -⟩ :=
        (measures.mul measures').exists_le (by decide) (by decide) held
      have positive : 0 < lengths := lt_of_lt_of_le (by positivity)
        (low _ (isValue_two_zpow le_rfl) reached)
      exact (product.div measures'' positive).isUnsigned

end CodeSearch
