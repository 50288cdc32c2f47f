import CodeSearch.Embedding.Hash
import CodeSearch.Embedding.Token

/-! # Vectors

Every token adds its share of the weight to the slot of its hash and spills a part into the slots
beside it. A component of the vector is the sum of the shares in the order of the tokens, which
`tokenSums_eq_map` says slot by slot.
-/

namespace CodeSearch

variable {α : Type} [Scalar α]

/-- What a token adds to its own slot, and where. -/
structure Share (α : Type) where
  position : Nat
  amount : α

/-- Adds a share to a component of the vector if it reaches it. Three tenths spill to each side. -/
def Share.addTo (slot : Nat) (total : α) (share : Share α) : α :=
  if share.position = slot then total + share.amount
  else if share.position = slot + 1 ∨ share.position + 1 = slot then total + share.amount * 0.3
  else total

/-- Adds a share to all components that it reaches. -/
def Share.add (sums : Array α) (share : Share α) : Array α :=
  let spill (total : α) : α := total + share.amount * 0.3
  let sums := sums.modify share.position (· + share.amount)
  let sums := if share.position = 0 then sums else sums.modify (share.position - 1) spill
  sums.modify (share.position + 1) spill

omit [Scalar α] in
theorem getElem?_modify_eq_map (sums : Array α) (position slot : Nat) (function : α → α) :
    (sums.modify position function)[slot]? =
      sums[slot]?.map fun total => if position = slot then function total else total := by
  rw [Array.getElem?_modify]
  split <;> simp [*]

theorem Share.getElem?_add (sums : Array α) (share : Share α) (slot : Nat) :
    (Share.add sums share)[slot]? = sums[slot]?.map fun total => share.addTo slot total := by
  by_cases first : share.position = 0
  · simp only [Share.add, if_pos first, getElem?_modify_eq_map, Option.map_map]
    refine congrArg (sums[slot]?.map ·) (funext fun total => ?_)
    simp only [Function.comp, Share.addTo]
    by_cases own : share.position = slot
    · simp [own]
    · have left : ¬ share.position = slot + 1 := by omega
      simp [own, left]
  · simp only [Share.add, if_neg first, getElem?_modify_eq_map, Option.map_map]
    refine congrArg (sums[slot]?.map ·) (funext fun total => ?_)
    simp only [Function.comp, Share.addTo]
    by_cases own : share.position = slot
    · have left : ¬ share.position - 1 = slot := by omega
      have right : ¬ share.position + 1 = slot := by omega
      rw [if_pos own, if_pos own, if_neg left, if_neg right]
    · rw [if_neg own, if_neg own]
      by_cases right : share.position + 1 = slot
      · have left : ¬ share.position - 1 = slot := by omega
        rw [if_neg left, if_pos right, if_pos (Or.inr right)]
      · by_cases left : share.position = slot + 1
        · have near : share.position - 1 = slot := by omega
          rw [if_pos near, if_neg right, if_pos (Or.inl left)]
        · have far : ¬ share.position - 1 = slot := by omega
          rw [if_neg far, if_neg right, if_neg (not_or.mpr ⟨left, right⟩)]

theorem Share.getElem?_foldl_add (sums : Array α) (shares : List (Share α)) (slot : Nat) :
    (shares.foldl Share.add sums)[slot]? =
      sums[slot]?.map fun total => shares.foldl (Share.addTo slot) total := by
  induction shares generalizing sums with
  | nil => simp
  | cons share rest ih =>
    rw [List.foldl_cons, ih, Share.getElem?_add, Option.map_map]
    rfl

/-- The weight of a token, divided among all tokens of its text. -/
def tokenShare (dimensions count : Nat) (token : String) : Share α :=
  { position := tokenHash token % dimensions
    amount := Token.weight token.toList / Scalar.ofNat count }

/-- The shares of the tokens of a text. -/
def tokenShares (dimensions : Nat) (tokens : List String) : List (Share α) :=
  let count := tokens.length
  tokens.map (tokenShare dimensions count)

/-- The vector of a list of tokens before its length is taken into account. -/
def tokenSums (dimensions : Nat) (tokens : List String) : List α :=
  let zeros : Array α := Array.replicate dimensions (Scalar.ofNat 0)
  ((tokenShares dimensions tokens).foldl Share.add zeros).toList

theorem tokenSums_eq_map (dimensions : Nat) (tokens : List String) :
    tokenSums (α := α) dimensions tokens = (List.range dimensions).map fun slot =>
      (tokenShares dimensions tokens).foldl (Share.addTo slot) (Scalar.ofNat 0) := by
  refine List.ext_getElem? fun slot => ?_
  rw [tokenSums, Array.getElem?_toList, Share.getElem?_foldl_add, List.getElem?_map]
  by_cases inside : slot < dimensions <;> simp [inside]

def dotProduct (a b : List α) : α :=
  (a.zip b).foldl (fun total pair => total + pair.1 * pair.2) (Scalar.ofNat 0)

/-- The length of a vector. -/
def norm (vector : List α) : α := Scalar.sqrt (dotProduct vector vector)

/-- A vector of length one in the same direction; the zero vector has none and stays. -/
def normalized (vector : List α) : List α :=
  let length := norm vector
  if Scalar.ofNat 0 < length then vector.map (· / length) else vector

/-- The vector of a list of tokens. -/
def vectorize (dimensions : Nat) (tokens : List String) : List α :=
  normalized (tokenSums dimensions tokens)

/-- The cosine of the angle between two vectors, and zero where there is no angle. A length is never
negative, so it is zero if it is not above zero. -/
def cosine (a b : List α) : α :=
  if a.length ≠ b.length then Scalar.ofNat 0
  else
    let lengthA := norm a
    let lengthB := norm b
    if lengthA ≤ Scalar.ofNat 0 ∨ lengthB ≤ Scalar.ofNat 0 then Scalar.ofNat 0
    else dotProduct a b / (lengthA * lengthB)

end CodeSearch
