import Mathlib.Analysis.Real.Sqrt
import Mathlib.Data.List.Perm.Subperm
import CodeSearch.Proofs.Embedding.Proportions
import CodeSearch.Proofs.Embedding.Similarity
import CodeSearch.Proofs.Search.Narrowing

/-! # Boosts

A boost multiplies a score by a factor above one. Among chunks and queries that the hashing embedder
has embedded no cosine is negative, so that in exact arithmetic a search that boosts more kinds
scores no chunk lower and returns all that the other search returns. The product of the factors
bounds the scores.
-/

namespace CodeSearch

namespace Ranking

variable {wish wider : Wish ℝ} {chunk : Chunk} {embedding : Embedding ℝ} {least : ℝ}

/-! ## Factors -/

section Factor

variable {x y factor : ℝ} {asked : Prop} [Decidable asked]

private theorem factor_mono (le : x ≤ y) (nonneg : 0 ≤ factor) :
    (if asked then x * factor else x) ≤ if asked then y * factor else y := by
  split
  · exact mul_le_mul_of_nonneg_right le nonneg
  · exact le

private theorem le_factor (nonneg : 0 ≤ x) (raises : 1 ≤ factor) :
    x ≤ if asked then x * factor else x := by
  split
  · exact le_mul_of_one_le_right nonneg raises
  · exact le_refl x

private theorem factor_le (nonneg : 0 ≤ x) (raises : 1 ≤ factor) :
    (if asked then x * factor else x) ≤ x * factor := by
  split
  · exact le_refl _
  · exact le_mul_of_one_le_right nonneg raises

end Factor

/-- More boosted kinds mean no lower factor. -/
theorem kindBoost_mono (more : wish.boostedTypes ⊆ wider.boostedTypes) {factor : ℝ}
    (nonneg : 0 ≤ factor) : kindBoost wish chunk factor ≤ kindBoost wider chunk factor := by
  unfold kindBoost
  by_cases boosted : chunk.kind.name ∈ wish.boostedTypes
  · have boosted' : chunk.kind.name ∈ wider.boostedTypes := more boosted
    rw [if_pos (List.contains_iff_mem.mpr boosted), if_pos (List.contains_iff_mem.mpr boosted')]
  · rw [if_neg fun listed => boosted (List.contains_iff_mem.mp listed)]
    exact le_factor nonneg (by norm_num)

theorem boost_mono (keywords : wish.keywords = wider.keywords)
    (more : wish.boostedTypes ⊆ wider.boostedTypes) : boost wish chunk ≤ boost wider chunk := by
  have kinds : kindBoost wish chunk (Scalar.ofNat 1) ≤ kindBoost wider chunk (Scalar.ofNat 1) :=
    kindBoost_mono more (Nat.cast_nonneg 1)
  simp only [boost, commentBoost, nameBoost, keywords]
  exact factor_mono (factor_mono kinds (by norm_num)) (by norm_num)

/-- All factors together raise, at most by their product. -/
theorem boost_bounds (wish : Wish ℝ) (chunk : Chunk) :
    1 ≤ boost wish chunk ∧ boost wish chunk ≤ 1.2 * 1.3 * 1.15 := by
  have kind : 1 ≤ kindBoost wish chunk (Scalar.ofNat 1) ∧
      kindBoost wish chunk (Scalar.ofNat 1) ≤ 1.2 := by
    rw [Scalar.ofNat_real, Nat.cast_one]
    constructor
    · exact le_factor zero_le_one (by norm_num)
    · exact (factor_le zero_le_one (by norm_num)).trans_eq (one_mul _)
  have name : 1 ≤ nameBoost wish chunk (kindBoost wish chunk (Scalar.ofNat 1)) ∧
      nameBoost wish chunk (kindBoost wish chunk (Scalar.ofNat 1)) ≤ 1.2 * 1.3 := by
    have nonneg := zero_le_one.trans kind.1
    constructor
    · exact kind.1.trans (le_factor nonneg (by norm_num))
    · exact (factor_le nonneg (by norm_num)).trans
        (mul_le_mul_of_nonneg_right kind.2 (by norm_num))
  have nonneg := zero_le_one.trans name.1
  constructor
  · exact name.1.trans (le_factor nonneg (by norm_num))
  · exact (factor_le nonneg (by norm_num)).trans
      (mul_le_mul_of_nonneg_right name.2 (by norm_num))

/-! ## Scores -/

theorem rawScore_mono (vector : wish.vector = wider.vector) (keywords : wish.keywords = wider.keywords)
    (more : wish.boostedTypes ⊆ wider.boostedTypes)
    (nonneg : 0 ≤ cosine wish.vector embedding.vector) :
    rawScore wish embedding ≤ rawScore wider embedding := by
  rw [rawScore, rawScore, ← vector]
  exact mul_le_mul_of_nonneg_left (boost_mono keywords more) nonneg

theorem rawScore_bounds (nonneg : 0 ≤ cosine wish.vector embedding.vector) :
    0 ≤ rawScore wish embedding ∧ rawScore wish embedding ≤ 1.2 * 1.3 * 1.15 := by
  obtain ⟨raises, bounded⟩ := boost_bounds wish embedding.chunk
  have positive : 0 ≤ boost wish embedding.chunk := zero_le_one.trans raises
  constructor
  · exact mul_nonneg nonneg positive
  · calc rawScore wish embedding ≤ 1 * boost wish embedding.chunk :=
          mul_le_mul_of_nonneg_right (cosine_le_one _ _) positive
      _ ≤ 1.2 * 1.3 * 1.15 := by rwa [one_mul]

theorem heldAtOne_eq_min (raw : ℝ) : heldAtOne raw = min raw 1 := by
  rw [heldAtOne, Scalar.ofNat_real, Nat.cast_one]
  split
  · next above => exact (min_eq_right above.le).symm
  · next below => exact (min_eq_left (not_lt.mp below)).symm

/-- Where all types are allowed the hits are the chunks that reach the least score. -/
theorem chunks_of_hits {corpus : List (Embedding ℝ)} (allowed : wish.allowedTypes = []) :
    (hits wish least corpus).map Hit.chunk =
      (corpus.filter fun embedding => decide (least ≤ rawScore wish embedding)).map
        Embedding.chunk := by
  induction corpus with
  | nil => rfl
  | cons embedding rest ih =>
    have permitted := (isAllowed_iff wish embedding.chunk).mpr (.inl allowed)
    rw [hits] at ih ⊢
    by_cases reaches : least ≤ rawScore wish embedding
    · simp [hit?, permitted, reaches, reaches.not_gt, ih]
    · simp [hit?, permitted, reaches, not_le.mp reaches, ih]

/-- A chunk that is not scored lower is still a hit. -/
theorem exists_hit_of_le (allowed : wish.allowedTypes = wider.allowedTypes)
    (le : rawScore wish embedding ≤ rawScore wider embedding) {hit : Hit ℝ}
    (found : hit? wish least embedding = some hit) :
    ∃ hit', hit? wider least embedding = some hit' ∧ hit'.chunk = hit.chunk := by
  unfold hit? at found ⊢
  split at found
  · next permitted =>
    have permitted' : isAllowed wider embedding.chunk = true := by
      rwa [isAllowed, ← allowed]
    obtain ⟨reaches, same⟩ := Option.ite_none_left_eq_some.mp found
    obtain rfl := Option.some.inj same
    refine ⟨⟨embedding.chunk, heldAtOne (rawScore wider embedding),
      .ofScore (rawScore wider embedding)⟩, ?_, rfl⟩
    rw [if_pos permitted', if_neg (not_lt.mpr ((not_lt.mp reaches).trans le))]
  · cases found

/-- The chunks of the hits are found again among those of a search that scores no chunk lower. -/
theorem chunks_of_hits_sublist {corpus : List (Embedding ℝ)}
    (allowed : wish.allowedTypes = wider.allowedTypes)
    (le : ∀ embedding ∈ corpus, rawScore wish embedding ≤ rawScore wider embedding) :
    ((hits wish least corpus).map Hit.chunk).Sublist ((hits wider least corpus).map Hit.chunk) := by
  induction corpus with
  | nil => exact .slnil
  | cons embedding rest ih =>
    obtain ⟨first, others⟩ := List.forall_mem_cons.mp le
    have behind := ih others
    rw [hits, hits, List.filterMap_cons, List.filterMap_cons]
    cases found : hit? wish least embedding with
    | none =>
      cases hit? wider least embedding with
      | none => exact behind
      | some hit => exact behind.cons hit.chunk
    | some hit =>
      obtain ⟨hit', found', same⟩ := exists_hit_of_le allowed first found
      rw [found', List.map_cons, List.map_cons, same]
      exact behind.cons_cons hit.chunk

/-- A returned hit is that of a chunk of the corpus. -/
theorem exists_hit?_of_mem_rank {α : Type} [Scalar α] {settings : Settings α}
    {embedder : Embedder α} {query : String} {options : SearchOptions α}
    {corpus : List (Embedding α)} {hit : Hit α}
    (member : hit ∈ rank settings embedder query options corpus) : ∃ embedding ∈ corpus,
      hit? (.of embedder query options) (options.leastScoreIn settings) embedding = some hit :=
  List.mem_filterMap.mp ((byFalling_perm Hit.score _).mem_iff.mp (List.mem_of_mem_take member))

/-- All chunks that reach the least score are returned if the limit cuts nothing off. -/
theorem chunks_of_rank {settings : Settings ℝ} {embedder : Embedder ℝ} {query : String}
    {options : SearchOptions ℝ} {corpus : List (Embedding ℝ)} (allowed : options.allowedTypes = [])
    (limit : (corpus.length : ℤ) ≤ options.limitIn settings) :
    ((rank settings embedder query options corpus).map Hit.chunk).Perm
      ((corpus.filter fun embedding => decide (options.leastScoreIn settings ≤
        rawScore (.of embedder query options) embedding)).map Embedding.chunk) := by
  rw [rank_of_large_limit limit, ← chunks_of_hits allowed]
  exact (byFalling_perm Hit.score _).map Hit.chunk

end Ranking

/-- In exact arithmetic boosts only help and scores stay in range: for every query and every corpus
that the hashing embedder has embedded, a search that boosts more kinds scores no chunk lower and, if
the limit cuts nothing off, returns all chunks that the other returns; raw scores lie between zero
and the product of the factors, reported ones between zero and one. -/
theorem boosts_only_help (dimensions : ℕ) (textLimit : ℤ) (settings : Settings ℝ) (query : String)
    (options : SearchOptions ℝ) (boosted : Option (List String)) (corpus : List (Embedding ℝ))
    (embedded : ∀ embedding ∈ corpus,
      (Embedder.hashing dimensions textLimit).embedChunk embedding.chunk = .ok embedding.vector)
    (more : options.boostedTypes ⊆ { options with boostTypes := boosted }.boostedTypes) :
    let embedder : Embedder ℝ := .hashing dimensions textLimit
    let wider := { options with boostTypes := boosted }
    (∀ embedding ∈ corpus, Ranking.rawScore (.of embedder query options) embedding ≤
      Ranking.rawScore (.of embedder query wider) embedding) ∧
    ((corpus.length : ℤ) ≤ options.limitIn settings →
      ((rank settings embedder query options corpus).map Hit.chunk).Subperm
        ((rank settings embedder query wider corpus).map Hit.chunk)) ∧
    (∀ embedding ∈ corpus, 0 ≤ Ranking.rawScore (.of embedder query options) embedding ∧
      Ranking.rawScore (.of embedder query options) embedding ≤ 1.2 * 1.3 * 1.15) ∧
    ∀ hit ∈ rank settings embedder query options corpus, 0 ≤ hit.score ∧ hit.score ≤ 1 := by
  intro embedder wider
  have nonneg : ∀ embedding ∈ corpus,
      0 ≤ cosine (Ranking.Wish.of embedder query options).vector embedding.vector :=
    fun embedding member => cosine_nonneg (Embedder.hashedText_isNonnegative textLimit query)
      (Embedder.isNonnegative_of_embedChunk (embedded embedding member))
  have rises : ∀ embedding ∈ corpus, Ranking.rawScore (.of embedder query options) embedding ≤
      Ranking.rawScore (.of embedder query wider) embedding :=
    fun embedding member => Ranking.rawScore_mono rfl rfl more (nonneg embedding member)
  refine ⟨rises, ?_, fun embedding member => Ranking.rawScore_bounds (nonneg embedding member), ?_⟩
  · intro limit
    have limit' : (corpus.length : ℤ) ≤ wider.limitIn settings := limit
    rw [rank_of_large_limit limit, rank_of_large_limit limit']
    have part : ((Ranking.hits (.of embedder query options) (options.leastScoreIn settings)
        corpus).map Hit.chunk).Sublist ((Ranking.hits (.of embedder query wider)
          (wider.leastScoreIn settings) corpus).map Hit.chunk) :=
      Ranking.chunks_of_hits_sublist rfl rises
    exact (((byFalling_perm _ _).map Hit.chunk).subperm.trans part.subperm).trans
      ((byFalling_perm _ _).map Hit.chunk).symm.subperm
  · intro hit member
    obtain ⟨embedding, inCorpus, found⟩ := Ranking.exists_hit?_of_mem_rank member
    obtain ⟨-, -, score⟩ := Ranking.of_hit?_eq_some found
    rw [score, Ranking.reported, Ranking.heldAtOne_eq_min]
    constructor
    · exact le_min (Ranking.rawScore_bounds (nonneg embedding inCorpus)).1 zero_le_one
    · exact min_le_right _ _

namespace Ranking

/-! ## A class and a function of the same words -/

section Words

variable {options : SearchOptions ℝ}

def chunkOf (filePath : String) (kind : ChunkKind) (content : String) : Chunk :=
  { lineOf filePath kind with content }

/-- A chunk with its vector in three dimensions. -/
noncomputable def embedded (chunk : Chunk) : Embedding ℝ :=
  ⟨chunk.id, Embedder.hashedChunk 3 1500 chunk, chunk⟩

@[simp] theorem chunk_embedded (chunk : Chunk) : (embedded chunk).chunk = chunk := rfl

def userClass : Chunk := chunkOf "a.ts" .classType "find user"

def userFunction : Chunk := chunkOf "b.ts" .function "find user"

/-- A block that shares one word with the query. -/
def otherBlock : Chunk := chunkOf "c.ts" .block "drop user"

noncomputable def wordsCorpus : List (Embedding ℝ) :=
  [embedded userClass, embedded userFunction, embedded otherBlock]

/-- Only what is boosted reaches the least score. -/
noncomputable def classOptions : SearchOptions ℝ :=
  { limit := some 5, minScore := some (.real 1.1), boostTypes := some ["class"] }

private theorem chunkText_chunkOf (filePath : String) (kind : ChunkKind) (content : String) :
    Embedder.chunkText 1500 (chunkOf filePath kind content) = cut 1500 (normalizeCode content) := by
  simp [Embedder.chunkText, chunkOf, lineOf]

-- nothing but its kind raises the chunk
private theorem rawScore_embedded (filePath : String) (kind : ChunkKind) (content : String) :
    rawScore (.of (.hashing 3 1500) "find user" options) (embedded (chunkOf filePath kind content)) =
      cosine (Embedder.hashedText 3 1500 "find user") (Embedder.hashedText 3 1500 content) *
        if options.boostedTypes.contains kind.name then 1.2 else 1 := by
  have vector : (embedded (chunkOf filePath kind content)).vector =
      Embedder.hashedText 3 1500 content := by
    rw [Embedder.hashedText, ← chunkText_chunkOf filePath kind]
    rfl
  rw [rawScore, vector]
  simp [embedded, chunkOf, lineOf, boost, commentBoost, nameBoost, kindBoost, Wish.of,
    Embedder.hashing]

private theorem rawScore_same (filePath : String) (kind : ChunkKind) :
    rawScore (.of (.hashing 3 1500) "find user" options)
        (embedded (chunkOf filePath kind "find user")) =
      if options.boostedTypes.contains kind.name then 1.2 else 1 := by
  have unit : norm (Embedder.hashedText (α := ℝ) 3 1500 "find user") = 1 :=
    norm_vectorize (by decide) (by decide +kernel)
  rw [rawScore_embedded, cosine_self unit, one_mul]

private theorem rawScore_otherBlock (unboosted : options.boostedTypes.contains "block" = false) :
    rawScore (.of (.hashing 3 1500) "find user" options) (embedded otherBlock) ≤ 1 := by
  rw [otherBlock, rawScore_embedded, ChunkKind.name, if_neg (by rw [unboosted]; decide), mul_one]
  exact cosine_le_one _ _

/-- For a query that the class and the function share their words with, both have the raw score of
their factor. The function is returned only where its kind is boosted, the block nowhere. -/
theorem boosted_function_is_returned_too :
    let embedder : Embedder ℝ := .hashing 3 1500
    let wider := { classOptions with boostTypes := some ["class", "function"] }
    (∀ embedding ∈ wordsCorpus, embedder.embedChunk embedding.chunk = .ok embedding.vector) ∧
    classOptions.boostedTypes ⊆ wider.boostedTypes ∧
    (wordsCorpus.length : ℤ) ≤ classOptions.limitIn {} ∧
    rawScore (.of embedder "find user" classOptions) (embedded userFunction) = 1 ∧
    rawScore (.of embedder "find user" wider) (embedded userFunction) = 1.2 ∧
    ((rank {} embedder "find user" classOptions wordsCorpus).map Hit.chunk).Perm [userClass] ∧
    ((rank {} embedder "find user" wider wordsCorpus).map Hit.chunk).Perm
      [userClass, userFunction] ∧
    (∀ embedding ∈ wordsCorpus, rawScore (.of embedder "find user" classOptions) embedding ≤
      rawScore (.of embedder "find user" wider) embedding) ∧
    ((rank {} embedder "find user" classOptions wordsCorpus).map Hit.chunk).Subperm
      ((rank {} embedder "find user" wider wordsCorpus).map Hit.chunk) ∧
    (∀ embedding ∈ wordsCorpus, 0 ≤ rawScore (.of embedder "find user" classOptions) embedding ∧
      rawScore (.of embedder "find user" classOptions) embedding ≤ 1.2 * 1.3 * 1.15) ∧
    ∀ hit ∈ rank {} embedder "find user" classOptions wordsCorpus,
      0 ≤ hit.score ∧ hit.score ≤ 1 := by
  intro embedder wider
  have embeds : ∀ embedding ∈ wordsCorpus,
      embedder.embedChunk embedding.chunk = .ok embedding.vector := by
    simp [wordsCorpus, embedded, embedder, Embedder.hashing]
  have more : classOptions.boostedTypes ⊆ wider.boostedTypes := by
    simp [classOptions, wider, SearchOptions.boostedTypes]
  have limit : (wordsCorpus.length : ℤ) ≤ classOptions.limitIn {} := by
    simp [wordsCorpus, classOptions, SearchOptions.limitIn]
  obtain ⟨rises, returned, bounds, scores⟩ := boosts_only_help 3 1500 {} "find user" classOptions
    (some ["class", "function"]) wordsCorpus embeds more
  have once : rawScore (.of embedder "find user" classOptions) (embedded userFunction) = 1 :=
    (rawScore_same "b.ts" .function).trans (if_neg (by decide))
  have raised : rawScore (.of embedder "find user" wider) (embedded userFunction) = 1.2 :=
    (rawScore_same "b.ts" .function).trans (if_pos (by decide))
  have narrow : ((rank {} embedder "find user" classOptions wordsCorpus).map Hit.chunk).Perm
      [userClass] := by
    have first : rawScore (.of embedder "find user" classOptions) (embedded userClass) = 1.2 :=
      (rawScore_same "a.ts" .classType).trans (if_pos (by decide))
    have last : rawScore (.of embedder "find user" classOptions) (embedded otherBlock) ≤ 1 :=
      rawScore_otherBlock (by decide)
    have least : classOptions.leastScoreIn {} = 1.1 := by
      simp [SearchOptions.leastScoreIn, classOptions, Number.value]
    refine (chunks_of_rank rfl limit).trans (.of_eq ?_)
    rw [least]
    norm_num [wordsCorpus, List.filter_cons, first, once]
    exact last.trans_lt (by norm_num)
  have wide : ((rank {} embedder "find user" wider wordsCorpus).map Hit.chunk).Perm
      [userClass, userFunction] := by
    have first : rawScore (.of embedder "find user" wider) (embedded userClass) = 1.2 :=
      (rawScore_same "a.ts" .classType).trans (if_pos (by decide))
    have last : rawScore (.of embedder "find user" wider) (embedded otherBlock) ≤ 1 :=
      rawScore_otherBlock (by decide)
    have least : wider.leastScoreIn {} = 1.1 := by
      simp [SearchOptions.leastScoreIn, wider, classOptions, Number.value]
    have limit' : (wordsCorpus.length : ℤ) ≤ wider.limitIn {} := limit
    refine (chunks_of_rank rfl limit').trans (.of_eq ?_)
    rw [least]
    norm_num [wordsCorpus, List.filter_cons, first, raised]
    exact last.trans_lt (by norm_num)
  exact ⟨embeds, more, limit, once, raised, narrow, wide, rises, returned limit, bounds, scores⟩

end Words

end Ranking

end CodeSearch
