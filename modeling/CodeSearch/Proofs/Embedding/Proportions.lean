import CodeSearch.Proofs.Embedding.TokenSums

/-! # Vectors and the proportions of tokens

The vector of a list of tokens has length one, unless the list is empty, and depends only on the
proportions in which its tokens occur. Two lists with the same proportions therefore have the cosine
one, and two lists without tokens the cosine zero, since there is no angle between zero vectors.
-/

namespace CodeSearch

/-! ## Slots that are looked at -/

section Slots

variable {α : Type} [Scalar α] {dimensions slot : ℕ} {sums : Array α} {share : Share α}

/-- Changes a component where that is asked for, and fails if there is none at the slot. -/
def modifySlot? (asked : Bool) (sums : Array α) (slot : ℕ) (change : α → α) : Option (Array α) :=
  if asked then if slot < sums.size then some (sums.modify slot change) else none else some sums

/-- Adds a share and fails at a slot outside of the vector. The slot in front is looked at unless
the share stands at the first one, and the slot behind unless it stands at the last one. -/
def Share.add? (dimensions : ℕ) (sums : Array α) (share : Share α) : Option (Array α) := do
  let spill (total : α) : α := total + share.amount * 0.3
  let own ← modifySlot? true sums share.position (· + share.amount)
  let front ← modifySlot? (decide (0 < share.position)) own (share.position - 1) spill
  modifySlot? (decide (share.position < dimensions - 1)) front (share.position + 1) spill

/-- The vector of a list of tokens, if no slot outside of it is looked at. -/
def vectorize? (dimensions : ℕ) (tokens : List String) : Option (List α) :=
  let zeros : Array α := Array.replicate dimensions (Scalar.ofNat 0)
  ((tokenShares dimensions tokens).foldlM (Share.add? dimensions) zeros).map fun sums =>
    normalized sums.toList

omit [Scalar α] in
theorem modify_of_size_le {change : α → α} (beyond : sums.size ≤ slot) :
    sums.modify slot change = sums := by
  refine Array.ext_getElem? fun other => ?_
  rw [getElem?_modify_eq_map]
  by_cases own : slot = other
  · subst own
    simp [beyond]
  · simp [own]

omit [Scalar α] in
theorem modifySlot?_eq_some {asked : Bool} {change : α → α}
    (inside : asked = true → slot < sums.size) : modifySlot? asked sums slot change =
      some (if asked then sums.modify slot change else sums) := by
  cases asked with
  | false => rfl
  | true => exact if_pos (inside rfl)

theorem Share.size_add : (Share.add sums share).size = sums.size := by
  simp only [Share.add]
  split <;> simp

theorem Share.add?_eq_some (size : sums.size = dimensions) (inside : share.position < dimensions) :
    Share.add? dimensions sums share = some (Share.add sums share) := by
  subst size
  let spill (total : α) : α := total + share.amount * 0.3
  let own := sums.modify share.position (· + share.amount)
  let front := if share.position = 0 then own else own.modify (share.position - 1) spill
  have ownSize : own.size = sums.size := Array.size_modify
  have frontSize : front.size = sums.size := by
    simp only [front]
    split
    · exact ownSize
    · exact Array.size_modify.trans ownSize
  have first : modifySlot? true sums share.position (· + share.amount) = some own :=
    modifySlot?_eq_some fun _ => inside
  have second : modifySlot? (decide (0 < share.position)) own (share.position - 1) spill =
      some front := by
    rw [modifySlot?_eq_some fun _ => by omega]
    by_cases opens : share.position = 0 <;> simp [front, opens, Nat.pos_iff_ne_zero]
  have third :
      modifySlot? (decide (share.position < sums.size - 1)) front (share.position + 1) spill =
        some (front.modify (share.position + 1) spill) := by
    rw [modifySlot?_eq_some fun asked => by have := of_decide_eq_true asked; omega]
    by_cases more : share.position < sums.size - 1
    · rw [if_pos (decide_eq_true more)]
    · rw [if_neg (by simpa using more), modify_of_size_le (by omega)]
  simp only [Share.add?, first, Option.bind_eq_bind, Option.bind_some]
  exact (congrArg (Option.bind · _) second).trans third

theorem Share.foldlM_add?_eq_some {shares : List (Share α)} (size : sums.size = dimensions)
    (inside : ∀ share ∈ shares, share.position < dimensions) :
    shares.foldlM (Share.add? dimensions) sums = some (shares.foldl Share.add sums) := by
  induction shares generalizing sums with
  | nil => rfl
  | cons share rest ih =>
    obtain ⟨here, later⟩ := List.forall_mem_cons.mp inside
    rw [List.foldlM_cons, Share.add?_eq_some size here]
    exact ih (Share.size_add.trans size) later

/-- No slot outside of the vector is looked at. -/
theorem vectorize?_eq_some (positive : 0 < dimensions) (tokens : List String) :
    vectorize? (α := α) dimensions tokens = some (vectorize dimensions tokens) := by
  have inside : ∀ share ∈ tokenShares (α := α) dimensions tokens, share.position < dimensions := by
    intro share member
    obtain ⟨token, -, rfl⟩ := List.mem_map.mp member
    exact Nat.mod_lt _ positive
  rw [vectorize?, Share.foldlM_add?_eq_some (by simp) inside]
  rfl

end Slots

/-! ## Lengths and angles -/

variable {dimensions slot : ℕ} {tokens others : List String} {vector : List ℝ}

theorem norm_pos_of_mem {component : ℝ} (member : component ∈ vector) (nonzero : component ≠ 0) :
    0 < norm vector := by
  refine Real.sqrt_pos.mpr ?_
  rw [dotProduct_self_eq_sum]
  refine (pow_pos (abs_pos.mpr nonzero) 2).trans_le ?_
  rw [sq_abs]
  refine List.single_le_sum ?_ _ (List.mem_map_of_mem (f := fun component => component ^ 2) member)
  intro square inSquares
  obtain ⟨other, -, rfl⟩ := List.mem_map.mp inSquares
  exact sq_nonneg other

theorem norm_sq (vector : List ℝ) : norm vector ^ 2 = dotProduct vector vector :=
  Real.sq_sqrt (dotProduct_self_nonneg vector)

theorem normalized_of_norm_pos (positive : 0 < norm vector) :
    normalized vector = vector.map (· / norm vector) := by
  simp only [normalized, Scalar.ofNat_real, Nat.cast_zero, if_pos positive]

theorem norm_normalized (positive : 0 < norm vector) : norm (normalized vector) = 1 := by
  have squares : dotProduct (normalized vector) (normalized vector) = 1 := by
    have each : (fun component : ℝ => (component / norm vector) ^ 2) = fun component =>
        component ^ 2 * (norm vector ^ 2)⁻¹ := by
      funext component
      rw [div_pow, div_eq_mul_inv]
    rw [normalized_of_norm_pos positive, dotProduct_self_eq_sum, List.map_map, Function.comp_def,
      each, List.sum_map_mul_right, ← dotProduct_self_eq_sum, ← norm_sq]
    exact mul_inv_cancel₀ (pow_pos positive 2).ne'
  rw [norm, squares, Scalar.sqrt_real, Real.sqrt_one]

theorem cosine_self (unit : norm vector = 1) : cosine vector vector = 1 := by
  have square : dotProduct vector vector = 1 := by rw [← norm_sq, unit, one_pow]
  simp [cosine, unit, square]

theorem norm_replicate_zero (count : ℕ) : norm (List.replicate count (0 : ℝ)) = 0 := by
  rw [norm, dotProduct_self_eq_sum]
  simp

theorem cosine_replicate_zero (count : ℕ) (vector : List ℝ) :
    cosine (List.replicate count 0) vector = 0 := by
  simp [cosine, norm_replicate_zero]

/-! ## Vectors of tokens -/

theorem length_tokenSums : (tokenSums (α := ℝ) dimensions tokens).length = dimensions := by
  simp [tokenSums_eq_meanPull]

theorem length_vectorize : (vectorize (α := ℝ) dimensions tokens).length = dimensions := by
  simp only [vectorize, normalized]
  split
  · rw [List.length_map, length_tokenSums]
  · exact length_tokenSums

theorem tokenSums_nil : tokenSums dimensions [] = List.replicate dimensions (0 : ℝ) := by
  simp [tokenSums_eq_meanPull, meanPull]

theorem vectorize_nil : vectorize dimensions [] = List.replicate dimensions (0 : ℝ) := by
  simp [vectorize, tokenSums_nil, normalized, norm_replicate_zero]

theorem norm_tokenSums_pos (positive : 0 < dimensions) (some : tokens ≠ []) :
    0 < norm (tokenSums (α := ℝ) dimensions tokens) := by
  obtain ⟨token, rest, rfl⟩ := List.exists_cons_of_ne_nil some
  have inside : tokenHash token % dimensions < dimensions := Nat.mod_lt _ positive
  have pulled : meanPull dimensions (tokenHash token % dimensions) (token :: rest) ≠ 0 :=
    meanPull_ne_zero_iff.mpr ⟨token, List.mem_cons_self, .inl rfl⟩
  refine norm_pos_of_mem ?_ pulled
  rw [tokenSums_eq_meanPull]
  exact List.mem_map_of_mem (f := fun slot => meanPull dimensions slot (token :: rest))
    (List.mem_range.mpr inside)

theorem norm_vectorize (positive : 0 < dimensions) (some : tokens ≠ []) :
    norm (vectorize (α := ℝ) dimensions tokens) = 1 :=
  norm_normalized (norm_tokenSums_pos positive some)

theorem vectorize_eq_zero_iff (positive : 0 < dimensions) :
    vectorize dimensions tokens = List.replicate dimensions (0 : ℝ) ↔ tokens = [] := by
  constructor
  · intro zero
    by_contra some
    have unit := norm_vectorize positive some
    rw [zero, norm_replicate_zero] at unit
    exact zero_ne_one unit
  · rintro rfl
    exact vectorize_nil

/-- A component is zero where no token reaches. -/
theorem getElem?_vectorize (positive : 0 < dimensions) (inside : slot < dimensions) :
    ∃ component : ℝ, (vectorize dimensions tokens)[slot]? = some component ∧
      (component ≠ 0 ↔ ∃ token ∈ tokens, PullsAt (tokenHash token % dimensions) slot) := by
  by_cases none : tokens = []
  · refine ⟨0, ?_, by simp [none]⟩
    rw [none, vectorize_nil, List.getElem?_replicate, if_pos inside]
  · have length := norm_tokenSums_pos positive none
    refine ⟨meanPull dimensions slot tokens / norm (tokenSums dimensions tokens), ?_, ?_⟩
    · rw [vectorize, normalized_of_norm_pos length, List.getElem?_map, tokenSums_eq_meanPull]
      simp [inside]
    · rw [← meanPull_ne_zero_iff, div_ne_zero_iff, and_iff_left length.ne']

/-! ## Proportions -/

/-- Every token has the same share of both lists. -/
def Proportional (tokens others : List String) : Prop :=
  ∃ times times' : ℕ, 0 < times ∧ 0 < times' ∧
    ∀ token, times * tokens.count token = times' * others.count token

theorem tokenSums_of_proportional (proportional : Proportional tokens others) :
    tokenSums (α := ℝ) dimensions tokens = tokenSums dimensions others := by
  obtain ⟨times, times', some, some', counts⟩ := proportional
  have same : (List.replicate times tokens).flatten.Perm
      (List.replicate times' others).flatten := by
    refine List.perm_iff_count.mpr fun token => ?_
    simpa [List.count_flatten] using counts token
  rw [← tokenSums_replicate some, tokenSums_perm same, tokenSums_replicate some']

/-- The vector of a list of tokens reflects the proportions of the tokens. No slot outside of it is
looked at; no component is negative, and one is zero where no token reaches; its length is one, and
only the empty list has the zero vector. The sums that it is made from do not depend on the order of
the tokens nor on how often the list is repeated. So two lists with the same proportions have the
cosine one, unless they are empty. -/
theorem vector_reflects_proportions (dimensions : ℕ) (enough : 3 ≤ dimensions)
    (tokens : List String) :
    let vector : List ℝ := vectorize dimensions tokens
    vectorize? dimensions tokens = some vector ∧ vector.length = dimensions ∧
      IsNonnegative vector ∧
      (vector = List.replicate dimensions 0 ↔ tokens = []) ∧ (tokens ≠ [] → norm vector = 1) ∧
      (∀ others, tokens.Perm others →
        tokenSums (α := ℝ) dimensions others = tokenSums dimensions tokens) ∧
      (∀ times, 0 < times →
        tokenSums (α := ℝ) dimensions (List.replicate times tokens).flatten =
          tokenSums dimensions tokens) ∧
      (∀ slot < dimensions, ∃ component, vector[slot]? = some component ∧
        (component ≠ 0 ↔ ∃ token ∈ tokens, PullsAt (tokenHash token % dimensions) slot)) ∧
      ∀ others, Proportional tokens others →
        cosine vector (vectorize dimensions others) = if tokens = [] then 0 else 1 := by
  intro vector
  have positive : 0 < dimensions := by omega
  refine ⟨vectorize?_eq_some positive tokens, length_vectorize, vectorize_isNonnegative,
    vectorize_eq_zero_iff positive, norm_vectorize positive, fun _ same => (tokenSums_perm same).symm,
    fun _ some => tokenSums_replicate some, fun _ inside => getElem?_vectorize positive inside, ?_⟩
  intro others proportional
  have same : vectorize dimensions others = vector := by
    simp only [vector, vectorize, tokenSums_of_proportional proportional]
  rw [same]
  split
  · next none =>
    simp only [vector, none, vectorize_nil]
    exact cosine_replicate_zero dimensions _
  · next some => exact cosine_self (norm_vectorize positive some)

/-- Two words, and the same ones twice in another order. -/
theorem repeated_words_are_in_proportion :
    Proportional ["get", "name"] ["name", "name", "get", "get"] ∧
      norm (vectorize (α := ℝ) 256 ["get", "name"]) = 1 ∧
      cosine (vectorize (α := ℝ) 256 ["get", "name"])
        (vectorize 256 ["name", "name", "get", "get"]) = 1 := by
  have proportional : Proportional ["get", "name"] ["name", "name", "get", "get"] := by
    refine ⟨2, 1, by decide, by decide, fun token => ?_⟩
    simp only [List.count_cons, List.count_nil]
    omega
  obtain ⟨-, -, -, -, unit, -, -, -, angle⟩ :=
    vector_reflects_proportions 256 (by decide) ["get", "name"]
  exact ⟨proportional, unit (by decide), (angle _ proportional).trans (if_neg (by decide))⟩

/-- Two texts without tokens have the same proportions, but no angle is between their vectors. -/
theorem no_angle_without_tokens :
    ¬ ∀ dimensions, 3 ≤ dimensions → ∀ text other : String,
      Proportional (tokenize text) (tokenize other) →
        cosine (vectorize (α := ℝ) dimensions (tokenize text))
          (vectorize dimensions (tokenize other)) = 1 := by
  intro always
  have none : tokenize "x" = [] := by decide +kernel
  have angle := always 3 (le_refl 3) "x" "x" ⟨1, 1, by decide, by decide, fun _ => rfl⟩
  rw [none, vectorize_nil, cosine_replicate_zero] at angle
  exact zero_ne_one angle

end CodeSearch
