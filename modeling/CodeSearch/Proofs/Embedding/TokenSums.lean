import Mathlib.Analysis.Real.Sqrt
import CodeSearch.Proofs.Embedding.Similarity

/-! # Sums of tokens in exact arithmetic

A token pulls at the slot of its hash and, less, at the slots beside it. Over the real numbers a
component of the sums is the mean pull of the tokens at its slot. So neither the order of the tokens
counts nor how often the whole list is repeated, and the sums of two lists in a row are the average
of both, weighted by their lengths.
-/

namespace CodeSearch

variable {dimensions slot : ℕ} {token : String} {tokens others : List String}

/-! ## Pulls -/

/-- The slots that a token with this position pulls at: its own and those beside it. -/
def PullsAt (position slot : ℕ) : Prop :=
  slot = position ∨ slot = position + 1 ∨ slot + 1 = position

/-- What a token adds to a slot before its weight is divided among all tokens. -/
noncomputable def pull (dimensions slot : ℕ) (token : String) : ℝ :=
  Share.addTo slot 0
    { position := tokenHash token % dimensions, amount := Token.weight token.toList }

/-- The mean pull of the tokens at a slot, and zero without tokens. -/
noncomputable def meanPull (dimensions slot : ℕ) (tokens : List String) : ℝ :=
  (tokens.map (pull dimensions slot)).sum / tokens.length

theorem Token.weight_pos (token : List Char) : (0 : ℝ) < Token.weight token := by
  simp only [Token.weight]
  split_ifs <;> norm_num

theorem Share.addTo_eq_add (total : ℝ) (share : Share ℝ) :
    share.addTo slot total = total + share.addTo slot 0 := by
  unfold Share.addTo
  split_ifs <;> ring

/-- A share pulls at the slots that it reaches. -/
theorem Share.addTo_zero_pos_iff {share : Share ℝ} (amount : 0 < share.amount) :
    0 < share.addTo slot 0 ↔ PullsAt share.position slot := by
  have spilled : 0 < share.amount * 0.3 := mul_pos amount (by norm_num)
  unfold Share.addTo PullsAt
  split_ifs with own beside
  · simp [amount, own]
  · simp only [zero_add, spilled, true_iff]
    omega
  · simp only [lt_self_iff_false, false_iff]
    omega

theorem pull_nonneg (dimensions slot : ℕ) (token : String) : 0 ≤ pull dimensions slot token :=
  Share.addTo_nonneg (le_refl 0) (Token.weight_nonneg _)

theorem pull_pos_iff :
    0 < pull dimensions slot token ↔ PullsAt (tokenHash token % dimensions) slot :=
  Share.addTo_zero_pos_iff (Token.weight_pos _)

/-- A token's share is its pull divided by the number of tokens. -/
theorem tokenShare_addTo (dimensions slot count : ℕ) (token : String) :
    (tokenShare dimensions count token).addTo slot 0 = pull dimensions slot token / count := by
  unfold pull Share.addTo
  by_cases own : tokenHash token % dimensions = slot
  · simp [tokenShare, own]
  · by_cases beside :
        tokenHash token % dimensions = slot + 1 ∨ tokenHash token % dimensions + 1 = slot
    · simp [tokenShare, own, beside, mul_div_right_comm]
    · simp [tokenShare, own, beside]

theorem foldl_addTo_eq_sum (shares : List (Share ℝ)) (total : ℝ) :
    shares.foldl (Share.addTo slot) total =
      total + (shares.map fun share => share.addTo slot 0).sum := by
  induction shares generalizing total with
  | nil => simp
  | cons share rest ih =>
    rw [List.foldl_cons, ih, Share.addTo_eq_add, List.map_cons, List.sum_cons, add_assoc]

/-- A component of the sums is the mean pull at its slot. -/
theorem tokenSums_eq_meanPull (dimensions : ℕ) (tokens : List String) :
    tokenSums dimensions tokens =
      (List.range dimensions).map fun slot => meanPull dimensions slot tokens := by
  rw [tokenSums_eq_map]
  refine List.map_congr_left fun slot _ => ?_
  rw [foldl_addTo_eq_sum, tokenShares, List.map_map, Scalar.ofNat_real, Nat.cast_zero, zero_add]
  simp only [Function.comp_def, tokenShare_addTo, div_eq_mul_inv, List.sum_map_mul_right, meanPull]

/-! ## Lists of tokens -/

theorem meanPull_perm (same : tokens.Perm others) :
    meanPull dimensions slot tokens = meanPull dimensions slot others := by
  rw [meanPull, meanPull, (same.map _).sum_eq, same.length_eq]

theorem meanPull_replicate {times : ℕ} (some : 0 < times) :
    meanPull dimensions slot (List.replicate times tokens).flatten =
      meanPull dimensions slot tokens := by
  have nonzero : (times : ℝ) ≠ 0 := by exact_mod_cast some.ne'
  rw [meanPull, meanPull, List.map_flatten, List.sum_flatten]
  simp [mul_div_mul_left _ _ nonzero]

theorem meanPull_append : meanPull dimensions slot (tokens ++ others) =
    (tokens.length * meanPull dimensions slot tokens +
      others.length * meanPull dimensions slot others) / (tokens.length + others.length) := by
  have whole (list : List String) :
      list.length * meanPull dimensions slot list = (list.map (pull dimensions slot)).sum := by
    cases list with
    | nil => simp
    | cons token rest => exact mul_div_cancel₀ _ (Nat.cast_ne_zero.mpr (by simp))
  rw [whole, whole, meanPull]
  simp

/-- Only tokens that reach a slot pull at it, and no two cancel out. -/
theorem meanPull_ne_zero_iff : meanPull dimensions slot tokens ≠ 0 ↔
    ∃ token ∈ tokens, PullsAt (tokenHash token % dimensions) slot := by
  constructor
  · intro nonzero
    by_contra none
    push Not at none
    have still : ∀ x ∈ tokens.map (pull dimensions slot), x = 0 := by
      intro x member
      obtain ⟨token, inTokens, rfl⟩ := List.mem_map.mp member
      have lazy := mt pull_pos_iff.mp (none token inTokens)
      exact le_antisymm (not_lt.mp lazy) (pull_nonneg dimensions slot token)
    exact nonzero (by rw [meanPull, List.sum_eq_zero still, zero_div])
  · rintro ⟨token, member, reaches⟩
    have positive : 0 < (tokens.map (pull dimensions slot)).sum := by
      refine (pull_pos_iff.mpr reaches).trans_le
        (List.single_le_sum ?_ _ (List.mem_map_of_mem member))
      intro x inPulls
      obtain ⟨other, -, rfl⟩ := List.mem_map.mp inPulls
      exact pull_nonneg dimensions slot other
    have some : 0 < tokens.length := List.length_pos_of_mem member
    exact (div_pos positive (Nat.cast_pos.mpr some)).ne'

theorem tokenSums_perm (same : tokens.Perm others) :
    tokenSums (α := ℝ) dimensions tokens = tokenSums dimensions others := by
  simp only [tokenSums_eq_meanPull, meanPull_perm same]

theorem tokenSums_replicate {times : ℕ} (some : 0 < times) :
    tokenSums (α := ℝ) dimensions (List.replicate times tokens).flatten =
      tokenSums dimensions tokens := by
  simp only [tokenSums_eq_meanPull, meanPull_replicate some]

end CodeSearch
