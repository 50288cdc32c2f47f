import CodeSearch.Proofs.Embedding.Doubles
import CodeSearch.Proofs.Search.Narrowing

/-! # Defined scores

Laws of order hold where scores are defined. Over doubles those of every embedder that counts tokens
are: no sum overflows, no length is too small to be multiplied, and the boosts are finite.
-/

namespace CodeSearch

variable {α : Type} [Scalar α]

/-- Whatever the embedder has embedded has a defined score, for all queries and options. -/
def Embedder.ScoresDefined (embedder : Embedder α) : Prop :=
  ∀ (query : String) (options : SearchOptions α) (embedding : Embedding α),
    embedder.embedChunk embedding.chunk = .ok embedding.vector →
    Scalar.IsDefined (Ranking.rawScore (.of embedder query options) embedding)

namespace Ranking

open Numeral

private theorem exists_factor (asked : Bool) {boost factor : Float} {r s : ℝ}
    {k : ℤ} (measures : Measures boost r) (least : 1 ≤ r) (held : r ≤ 2 ^ k)
    (measures' : Measures factor s) (raises : 1 ≤ s) (few : s ≤ 2) (low : 0 ≤ k) (high : k < 1000) :
    ∃ value, Measures (if asked then boost * factor else boost) value ∧ 1 ≤ value ∧
      value ≤ 2 ^ (k + 1) := by
  rw [zpow_add_one₀ two_ne_zero]
  split
  · have one : IsValue 1 := by simpa using isValue_two_zpow (show -1074 ≤ (0 : ℤ) by decide)
    have product : r * s ≤ 2 ^ (k + 1) := by
      rw [zpow_add_one₀ two_ne_zero]
      exact mul_le_mul held few measures'.nonneg (by positivity)
    obtain ⟨value, measures, above, below, -⟩ := (measures.mul measures').exists_le (by omega)
      (by omega) (product.trans_lt (lt_add_of_pos_right _ (by positivity)))
    rw [zpow_add_one₀ two_ne_zero] at above
    exact ⟨value, measures, below 1 one (one_le_mul_of_one_le_of_one_le least raises), above⟩
  · exact ⟨r, measures, least, held.trans (le_mul_of_one_le_right (by positivity) one_le_two)⟩

/-- All factors together make a finite boost. -/
theorem exists_boost (wish : Wish Float) (chunk : Chunk) :
    ∃ value, Measures (boost wish chunk) value ∧ 1 ≤ value := by
  have one : Measures (Scalar.ofNat 1 : Float) ((4503599627370496 : ℕ) * 2 ^ (-52 : ℤ)) :=
    measures_of_unpack (by decide) (by decide) rfl
  have kindFactor : Measures (1.2 : Float) ((5404319552844595 : ℕ) * 2 ^ (-52 : ℤ)) :=
    measures_of_unpack (by decide) (by decide) rfl
  have nameFactor : Measures (1.3 : Float) ((5854679515581645 : ℕ) * 2 ^ (-52 : ℤ)) :=
    measures_of_unpack (by decide) (by decide) rfl
  have commentFactor : Measures (1.15 : Float) ((5179139571476070 : ℕ) * 2 ^ (-52 : ℤ)) :=
    measures_of_unpack (by decide) (by decide) rfl
  obtain ⟨kind, measures, least, held⟩ := exists_factor
    (wish.boostedTypes.contains chunk.kind.name) (k := 0) one (by norm_num) (by norm_num)
    kindFactor (by norm_num) (by norm_num) (by decide) (by decide)
  obtain ⟨name, measures, least, held⟩ := exists_factor
    (chunk.symbol.any fun symbol => mentions wish.keywords symbol.name) measures least held
    nameFactor (by norm_num) (by norm_num) (by decide) (by decide)
  obtain ⟨value, measures, least, -⟩ := exists_factor (chunk.metadata.comments.any fun comments =>
    !comments.isEmpty && mentions wish.keywords comments) measures least held commentFactor
    (by norm_num) (by norm_num) (by decide) (by decide)
  exact ⟨value, measures, least⟩

end Ranking

/-- The embedder counts hashed tokens, whatever chunks it refuses. -/
def Embedder.CountsTokens (embedder : Embedder α) : Prop :=
  ∃ dimensions textLimit, embedder.embedText = hashedText dimensions textLimit ∧
    ∀ chunk vector, embedder.embedChunk chunk = .ok vector →
      vector = hashedChunk dimensions textLimit chunk

/-- Counting tokens gives no undefined scores, however long the texts and the vectors are. -/
theorem Embedder.CountsTokens.scoresDefined {embedder : Embedder Float}
    (counts : embedder.CountsTokens) : embedder.ScoresDefined := by
  obtain ⟨dimensions, textLimit, texts, chunks⟩ := counts
  intro query options embedding embedded
  obtain ⟨boost, measures, raises⟩ :=
    Ranking.exists_boost (.of embedder query options) embedding.chunk
  have direction : IsDirection (embedder.embedText query) := by
    rw [texts]
    exact vectorize_isDirection _ _
  have direction' : IsDirection embedding.vector := by
    rw [chunks _ _ embedded]
    exact vectorize_isDirection _ _
  exact ((cosine_isUnsigned direction direction').mul measures
    (one_pos.trans_le raises)).isDefined

/-- The answer to a search has defined scores, if its corpus has. -/
theorem scores_of_rank [OrderedScalar α] {settings : Settings α} {embedder : Embedder α}
    {query : String} {options : SearchOptions α} {corpus : List (Embedding α)}
    (defined : Ranking.ScoresDefined (.of embedder query options) corpus) :
    KeysDefined Hit.score (rank settings embedder query options corpus) :=
  fun hit member => Ranking.scores_of_hits defined hit
    ((byFalling_perm Hit.score _).mem_iff.mp (List.mem_of_mem_take member))

end CodeSearch
