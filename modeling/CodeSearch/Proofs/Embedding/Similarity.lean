import CodeSearch.Embedding.Basic
import CodeSearch.Proofs.Numeral.Real
import Mathlib.Algebra.BigOperators.Fin
import Mathlib.Algebra.Order.BigOperators.Ring.Finset
import Mathlib.Algebra.Order.BigOperators.Group.List

/-! # Similarity in exact arithmetic

The hashing embedder only adds up weights, so that no component of its vectors is negative. The
cosine of two such vectors lies between zero and one, by the inequality of Cauchy and Schwarz.
-/

namespace CodeSearch

/-- No component of the vector is negative. -/
def IsNonnegative (vector : List ℝ) : Prop := ∀ component ∈ vector, 0 ≤ component

variable {a b vector : List ℝ} {slot dimensions : ℕ} {tokens : List String}

/-! ## Products and lengths -/

theorem dotProduct_eq_sum (a b : List ℝ) :
    dotProduct a b = ((a.zip b).map fun pair => pair.1 * pair.2).sum := by
  rw [dotProduct, List.sum_eq_foldl, List.foldl_map, Scalar.ofNat_real, Nat.cast_zero]

theorem dotProduct_self_eq_sum (vector : List ℝ) :
    dotProduct vector vector = (vector.map fun component => component ^ 2).sum := by
  rw [dotProduct_eq_sum, List.zip_eq_zipWith, List.zipWith_self, List.map_map]
  simp only [Function.comp_def, sq]

theorem dotProduct_self_nonneg (vector : List ℝ) : 0 ≤ dotProduct vector vector := by
  rw [dotProduct_self_eq_sum]
  refine List.sum_nonneg fun square member => ?_
  obtain ⟨component, -, rfl⟩ := List.mem_map.mp member
  exact sq_nonneg component

theorem dotProduct_nonneg (nonneg : IsNonnegative a) (nonneg' : IsNonnegative b) :
    0 ≤ dotProduct a b := by
  rw [dotProduct_eq_sum]
  refine List.sum_nonneg fun product member => ?_
  obtain ⟨pair, inPairs, rfl⟩ := List.mem_map.mp member
  have parts := List.of_mem_zip inPairs
  exact mul_nonneg (nonneg _ parts.1) (nonneg' _ parts.2)

theorem norm_nonneg (vector : List ℝ) : 0 ≤ norm vector := Real.sqrt_nonneg _

private theorem sq_sum_mul_le (pairs : List (ℝ × ℝ)) :
    (pairs.map fun pair => pair.1 * pair.2).sum ^ 2 ≤
      (pairs.map fun pair => pair.1 ^ 2).sum * (pairs.map fun pair => pair.2 ^ 2).sum := by
  simp only [← Fin.sum_univ_fun_getElem]
  exact Finset.sum_mul_sq_le_sq_mul_sq Finset.univ _ _

/-- The product of two vectors is at most the product of their lengths. -/
theorem dotProduct_le_norm_mul_norm (sizes : a.length = b.length) :
    dotProduct a b ≤ norm a * norm b := by
  have squares : dotProduct a a = ((a.zip b).map fun pair => pair.1 ^ 2).sum := by
    have first : (a.zip b).map Prod.fst = a := List.map_fst_zip (by omega)
    conv_lhs => rw [dotProduct_self_eq_sum, ← first, List.map_map]
    rfl
  have squares' : dotProduct b b = ((a.zip b).map fun pair => pair.2 ^ 2).sum := by
    have second : (a.zip b).map Prod.snd = b := List.map_snd_zip (by omega)
    conv_lhs => rw [dotProduct_self_eq_sum, ← second, List.map_map]
    rfl
  have bound : dotProduct a b ^ 2 ≤ dotProduct a a * dotProduct b b := by
    rw [squares, squares', dotProduct_eq_sum]
    exact sq_sum_mul_le (a.zip b)
  calc dotProduct a b ≤ √(dotProduct a a * dotProduct b b) := Real.le_sqrt_of_sq_le bound
    _ = norm a * norm b := Real.sqrt_mul' _ (dotProduct_self_nonneg b)

theorem cosine_nonneg (nonneg : IsNonnegative a) (nonneg' : IsNonnegative b) : 0 ≤ cosine a b := by
  simp only [cosine, Scalar.ofNat_real, Nat.cast_zero]
  split
  · exact le_refl 0
  · split
    · exact le_refl 0
    · exact div_nonneg (dotProduct_nonneg nonneg nonneg')
        (mul_nonneg (norm_nonneg a) (norm_nonneg b))

theorem cosine_le_one (a b : List ℝ) : cosine a b ≤ 1 := by
  simp only [cosine, Scalar.ofNat_real, Nat.cast_zero]
  split
  · exact zero_le_one
  · next sizes =>
    split
    · exact zero_le_one
    · exact div_le_one_of_le₀ (dotProduct_le_norm_mul_norm (not_not.mp sizes))
        (mul_nonneg (norm_nonneg a) (norm_nonneg b))

/-! ## Vectors of tokens -/

theorem Token.weight_nonneg (token : List Char) : (0 : ℝ) ≤ Token.weight token := by
  simp only [Token.weight]
  split_ifs <;> norm_num

theorem Share.addTo_nonneg {total : ℝ} {share : Share ℝ} (nonneg : 0 ≤ total)
    (amount : 0 ≤ share.amount) : 0 ≤ share.addTo slot total := by
  have spilled : 0 ≤ share.amount * 0.3 := mul_nonneg amount (by norm_num)
  unfold Share.addTo
  split_ifs
  · exact add_nonneg nonneg amount
  · exact add_nonneg nonneg spilled
  · exact nonneg

theorem foldl_addTo_nonneg {shares : List (Share ℝ)} (amounts : ∀ share ∈ shares, 0 ≤ share.amount)
    {total : ℝ} (nonneg : 0 ≤ total) : 0 ≤ shares.foldl (Share.addTo slot) total := by
  induction shares generalizing total with
  | nil => exact nonneg
  | cons share rest ih =>
    obtain ⟨amount, others⟩ := List.forall_mem_cons.mp amounts
    exact ih others (Share.addTo_nonneg nonneg amount)

theorem tokenShares_nonneg : ∀ share ∈ tokenShares (α := ℝ) dimensions tokens, 0 ≤ share.amount := by
  intro share member
  obtain ⟨token, -, rfl⟩ := List.mem_map.mp member
  exact div_nonneg (Token.weight_nonneg _) (Nat.cast_nonneg _)

theorem tokenSums_isNonnegative : IsNonnegative (tokenSums dimensions tokens) := by
  rw [tokenSums_eq_map]
  intro component member
  obtain ⟨slot, -, rfl⟩ := List.mem_map.mp member
  exact foldl_addTo_nonneg tokenShares_nonneg (Nat.cast_nonneg 0)

theorem normalized_isNonnegative (nonneg : IsNonnegative vector) :
    IsNonnegative (normalized vector) := by
  simp only [normalized]
  split
  · intro component member
    obtain ⟨long, inVector, rfl⟩ := List.mem_map.mp member
    exact div_nonneg (nonneg long inVector) (norm_nonneg vector)
  · exact nonneg

theorem vectorize_isNonnegative : IsNonnegative (vectorize dimensions tokens) :=
  normalized_isNonnegative tokenSums_isNonnegative

/-- The vectors of texts and chunks have no negative component. -/
theorem Embedder.hashedText_isNonnegative (limit : ℤ) (text : String) :
    IsNonnegative (hashedText dimensions limit text) := vectorize_isNonnegative

theorem Embedder.isNonnegative_of_embedChunk {limit : ℤ} {chunk : Chunk}
    (embedded : (hashing dimensions limit).embedChunk chunk = .ok vector) :
    IsNonnegative vector := by
  cases embedded
  exact vectorize_isNonnegative

end CodeSearch
