import CodeSearch.Proofs.Search.Falling
import CodeSearch.Search.Ranking
import Mathlib.Data.List.FinRange

/-! # The best answers

The chunks that answer a search are those of an allowed type whose score is not below the least one.
The first of them by reported score are returned, those with equal scores in the order of the
corpus, each with the label of the score that is reported. No other hits have these properties.
-/

namespace CodeSearch

variable {α : Type} [Scalar α]

namespace SearchOptions

/-- How many answers are returned at most. -/
def limitIn (settings : Settings α) (options : SearchOptions α) : Int :=
  options.limit.getD settings.defaultLimit

/-- The score below which a chunk is left out. -/
def leastScoreIn (settings : Settings α) (options : SearchOptions α) : α :=
  (options.minScore.map Number.value).getD settings.defaultMinScore

end SearchOptions

namespace Ranking

/-- The score that is reported of a chunk. -/
def reported (wish : Wish α) (embedding : Embedding α) : α := heldAtOne (rawScore wish embedding)

/-- A chunk as it is returned, with the label of the reported score. -/
def shown (wish : Wish α) (embedding : Embedding α) : Hit α :=
  { chunk := embedding.chunk
    score := reported wish embedding
    relevance := .ofScore (reported wish embedding) }

/-- A chunk answers if it is of an allowed type and its score is not below the least one. -/
structure IsEligible (wish : Wish α) (least : α) (embedding : Embedding α) : Prop where
  allowed : wish.allowedTypes = [] ∨ fileType embedding.chunk.filePath ∈ wish.allowedTypes
  least : least ≤ rawScore wish embedding

instance (wish : Wish α) (least : α) (embedding : Embedding α) :
    Decidable (IsEligible wish least embedding) :=
  decidable_of_iff
    ((wish.allowedTypes = [] ∨ fileType embedding.chunk.filePath ∈ wish.allowedTypes) ∧
      least ≤ rawScore wish embedding)
    ⟨fun known => ⟨known.1, known.2⟩, fun known => ⟨known.1, known.2⟩⟩

/-- The hits of a corpus in its order, before any are cut off. -/
def hits (wish : Wish α) (least : α) (corpus : List (Embedding α)) : List (Hit α) :=
  corpus.filterMap (hit? wish least)

/-- The scores of the chunks that may be returned are defined. -/
def ScoresDefined (wish : Wish α) (corpus : List (Embedding α)) : Prop :=
  ∀ embedding ∈ corpus, isAllowed wish embedding.chunk = true →
    Scalar.IsDefined (rawScore wish embedding)

instance (wish : Wish α) (corpus : List (Embedding α)) : Decidable (ScoresDefined wish corpus) :=
  inferInstanceAs (Decidable (∀ embedding ∈ corpus, isAllowed wish embedding.chunk = true →
    Scalar.IsDefined (rawScore wish embedding)))

omit [Scalar α] in
theorem isAllowed_iff (wish : Wish α) (chunk : Chunk) : isAllowed wish chunk = true ↔
    wish.allowedTypes = [] ∨ fileType chunk.filePath ∈ wish.allowedTypes := by
  simp [isAllowed]

section Ordered

variable [OrderedScalar α] {wish : Wish α} {least : α} {corpus : List (Embedding α)}

/-- A score has the same label before and after it is held at one. -/
theorem ofScore_heldAtOne (raw : α) : Relevance.ofScore (heldAtOne raw) = .ofScore raw := by
  unfold heldAtOne
  split
  · next above =>
    have high : (0.7 : α) < raw :=
      OrderedScalar.lt_of_lt_of_le OrderedScalar.highest_lt_one (OrderedScalar.le_of_lt above)
    rw [Relevance.ofScore, Relevance.ofScore, if_pos OrderedScalar.highest_lt_one, if_pos high]
  · rfl

theorem heldAtOne_isDefined {raw : α} (defined : Scalar.IsDefined raw) :
    Scalar.IsDefined (heldAtOne raw) := by
  unfold heldAtOne
  split
  · exact OrderedScalar.one_isDefined
  · exact defined

/-- A score reaches a bound that is not above one if and only if it does so held at one. -/
theorem le_heldAtOne_iff {raw bound : α} (below : bound ≤ Scalar.ofNat 1) :
    bound ≤ heldAtOne raw ↔ bound ≤ raw := by
  unfold heldAtOne
  split
  · next above =>
    constructor
    · exact fun _ => OrderedScalar.trans below (OrderedScalar.le_of_lt above)
    · exact fun _ => below
  · rfl

theorem hit?_eq {embedding : Embedding α}
    (defined : isAllowed wish embedding.chunk = true → Scalar.IsDefined (rawScore wish embedding))
    (known : Scalar.IsDefined least) :
    hit? wish least embedding =
      if IsEligible wish least embedding then some (shown wish embedding) else none := by
  unfold hit?
  by_cases allowed : isAllowed wish embedding.chunk = true
  · have reaches := OrderedScalar.not_lt_iff (defined allowed) known
    rw [if_pos allowed]
    by_cases below : rawScore wish embedding < least
    · rw [if_pos below, if_neg fun eligible => reaches.mpr eligible.least below]
    · rw [if_neg below, if_pos ⟨(isAllowed_iff _ _).mp allowed, reaches.mp below⟩, shown, reported,
        ofScore_heldAtOne]
  · rw [if_neg allowed, if_neg fun eligible => allowed ((isAllowed_iff _ _).mpr eligible.allowed)]

end Ordered

/-! ## Places in the corpus -/

section Places

variable (wish : Wish α) (least : α) (corpus : List (Embedding α))

/-- A chunk precedes another if its reported score is not below, and if it comes first in the corpus
where the scores are equal. -/
def Precedes (first second : Fin corpus.length) : Prop :=
  reported wish (corpus.get second) ≤ reported wish (corpus.get first) ∧
    (reported wish (corpus.get first) ≤ reported wish (corpus.get second) → first < second)

/-- The hits that are returned, by the places of their chunks in the corpus. -/
structure IsBest (limit : ℕ) (hits : List (Hit α)) (places : List (Fin corpus.length)) : Prop where
  shown : hits = places.map fun place => shown wish (corpus.get place)
  once : places.Nodup
  eligible : ∀ place ∈ places, IsEligible wish least (corpus.get place)
  falling : places.Pairwise (Precedes wish corpus)
  count : places.length = min limit (corpus.countP fun embedding => IsEligible wish least embedding)
  leftOut : ∀ place, IsEligible wish least (corpus.get place) → place ∉ places →
    ∀ other ∈ places, Precedes wish corpus other place

/-- The places of the chunks that answer, in the order of the corpus. -/
def eligiblePlaces : List (Fin corpus.length) :=
  (List.finRange corpus.length).filter fun place => IsEligible wish least (corpus.get place)

/-- The places of the chunks that answer, by falling scores. -/
def rankedPlaces : List (Fin corpus.length) :=
  byFalling (fun place => reported wish (corpus.get place)) (eligiblePlaces wish least corpus)

end Places

section Unique

variable {wish : Wish α} {least : α} {corpus : List (Embedding α)} {limit : ℕ}
  {hits hits' : List (Hit α)} {places places' : List (Fin corpus.length)}

theorem Precedes.not_precedes {first second : Fin corpus.length}
    (before : Precedes wish corpus first second) : ¬ Precedes wish corpus second first := by
  intro behind
  have rises := before.2 behind.1
  have falls := behind.2 before.1
  omega

/-- Of two choices of best hits, each has the places of the other. -/
theorem IsBest.subset (best : IsBest wish least corpus limit hits places)
    (best' : IsBest wish least corpus limit hits' places') : places ⊆ places' := by
  by_contra missing
  obtain ⟨place, inPlaces, notIn⟩ : ∃ place ∈ places, place ∉ places' := by
    simpa [List.subset_def] using missing
  have other : ∃ other ∈ places', other ∉ places := by
    by_contra none
    push Not at none
    have all : places'.Subperm places := List.subperm_of_subset best'.once none
    have same : places'.Perm places := all.perm_of_length_le (by rw [best.count, best'.count])
    exact notIn (same.mem_iff.mpr inPlaces)
  obtain ⟨other, inPlaces', notIn'⟩ := other
  exact (best.leftOut other (best'.eligible other inPlaces') notIn' place inPlaces).not_precedes
    (best'.leftOut place (best.eligible place inPlaces) notIn other inPlaces')

/-- The best hits are determined by the corpus, the least score and the limit. -/
theorem IsBest.unique (best : IsBest wish least corpus limit hits places)
    (best' : IsBest wish least corpus limit hits' places') : hits = hits' := by
  have same : places.Perm places' :=
    (List.subperm_of_subset best.once (best.subset best')).perm_of_length_le
      (by rw [best.count, best'.count])
  have equal : places = places' := same.eq_of_pairwise
    (fun first second _ _ before behind => (before.not_precedes behind).elim)
    best.falling best'.falling
  rw [best.shown, best'.shown, equal]

end Unique

section Ordered

variable [OrderedScalar α] {wish : Wish α} {least : α} {corpus : List (Embedding α)}

omit [OrderedScalar α] in
theorem mem_rankedPlaces_iff (place : Fin corpus.length) :
    place ∈ rankedPlaces wish least corpus ↔ IsEligible wish least (corpus.get place) := by
  rw [rankedPlaces, (byFalling_perm _ _).mem_iff, eligiblePlaces, List.mem_filter]
  simp

omit [OrderedScalar α] in
theorem length_rankedPlaces : (rankedPlaces wish least corpus).length =
    corpus.countP fun embedding => IsEligible wish least embedding := by
  rw [rankedPlaces, (byFalling_perm _ _).length_eq, eligiblePlaces, ← List.countP_eq_length_filter]
  conv_rhs => rw [← List.map_get_finRange corpus, List.countP_map]
  rfl

theorem scores_of_eligiblePlaces (defined : ScoresDefined wish corpus) :
    KeysDefined (fun place => reported wish (corpus.get place))
      (eligiblePlaces wish least corpus) := by
  intro place member
  have eligible : IsEligible wish least (corpus.get place) := by
    simpa [eligiblePlaces] using member
  exact heldAtOne_isDefined
    (defined _ (List.get_mem corpus place) ((isAllowed_iff _ _).mpr eligible.allowed))

/-- The hits of a corpus are those of its places. -/
theorem hits_eq (defined : ScoresDefined wish corpus) (known : Scalar.IsDefined least) :
    hits wish least corpus =
      (eligiblePlaces wish least corpus).map fun place => shown wish (corpus.get place) := by
  have each : hits wish least corpus = corpus.filterMap fun embedding =>
      if IsEligible wish least embedding then some (shown wish embedding) else none :=
    List.filterMap_congr fun embedding member => hit?_eq (defined embedding member) known
  rw [each]
  conv_lhs => rw [← List.map_get_finRange corpus, List.filterMap_map]
  rw [eligiblePlaces, ← List.filterMap_eq_map, ← List.filterMap_eq_filter, List.filterMap_filterMap]
  refine List.filterMap_congr fun place _ => ?_
  by_cases eligible : IsEligible wish least (corpus.get place)
  · simp only [Function.comp_apply, Option.guard, eligible, decide_true, if_true, Option.bind_some]
  · simp only [Function.comp_apply, Option.guard, eligible, decide_false, if_false,
      Bool.false_eq_true, Option.bind_none]

theorem rankedPlaces_precede (defined : ScoresDefined wish corpus) :
    (rankedPlaces wish least corpus).Pairwise (Precedes wish corpus) := by
  have inOrder : (eligiblePlaces wish least corpus).Pairwise (· < ·) :=
    (List.pairwise_lt_finRange corpus.length).filter _
  exact pairwise_byFalling (scores_of_eligiblePlaces defined) inOrder

theorem best_eq (defined : ScoresDefined wish corpus) (known : Scalar.IsDefined least) (limit : ℕ) :
    best limit (hits wish least corpus) = ((rankedPlaces wish least corpus).take limit).map
      fun place => shown wish (corpus.get place) := by
  have scores : KeysDefined Hit.score ((eligiblePlaces wish least corpus).map fun place =>
      shown wish (corpus.get place)) := by
    intro hit member
    obtain ⟨place, inPlaces, rfl⟩ := List.mem_map.mp member
    exact scores_of_eligiblePlaces defined place inPlaces
  rw [best, hits_eq defined known, ← map_byFalling _ scores, Text.upTo_natCast, List.map_take]
  rfl

/-- The first places in the ranking are the best ones. -/
theorem isBest_take (defined : ScoresDefined wish corpus) (known : Scalar.IsDefined least)
    (limit : ℕ) : IsBest wish least corpus limit (best limit (hits wish least corpus))
      ((rankedPlaces wish least corpus).take limit) := by
  have precede : (rankedPlaces wish least corpus).Pairwise (Precedes wish corpus) :=
    rankedPlaces_precede defined
  have once : (rankedPlaces wish least corpus).Nodup := by
    rw [rankedPlaces, (byFalling_perm _ _).nodup_iff]
    exact (List.nodup_finRange corpus.length).filter _
  have parts := precede
  rw [← List.take_append_drop limit (rankedPlaces wish least corpus)] at parts
  constructor
  case shown => exact best_eq defined known limit
  case once => exact once.sublist (List.take_sublist _ _)
  case eligible =>
    intro place member
    exact (mem_rankedPlaces_iff place).mp (List.mem_of_mem_take member)
  case falling => exact precede.sublist (List.take_sublist _ _)
  case count => rw [List.length_take, length_rankedPlaces]
  case leftOut =>
    intro place eligible missing other member
    have ranked := (mem_rankedPlaces_iff place).mpr eligible
    rw [← List.take_append_drop limit (rankedPlaces wish least corpus)] at ranked
    have dropped := (List.mem_append.mp ranked).resolve_left missing
    exact (List.pairwise_append.mp parts).2.2 other member place dropped

end Ordered

end Ranking

/-- A ranking returns the best chunks: for every limit that is not negative and all scores that are
defined, the returned chunks stand at different places of the corpus, answer the search, come by
falling reported scores and in the order of the corpus where these are equal, are as many as the
limit lets through, and precede every chunk that answers and is left out. -/
theorem rank_returns_best [OrderedScalar α] (settings : Settings α) (embedder : Embedder α)
    (query : String) (options : SearchOptions α) (corpus : List (Embedding α))
    (limit : 0 ≤ options.limitIn settings)
    (least : Scalar.IsDefined (options.leastScoreIn settings))
    (defined : Ranking.ScoresDefined (.of embedder query options) corpus) :
    ∃ places, Ranking.IsBest (.of embedder query options) (options.leastScoreIn settings) corpus
      (options.limitIn settings).toNat (rank settings embedder query options corpus) places := by
  have best := Ranking.isBest_take defined least (options.limitIn settings).toNat
  rw [Int.toNat_of_nonneg limit] at best
  exact ⟨_, best⟩

/-! ## A small corpus -/

namespace Ranking

/-- Every query has the given vector, and no chunk is embedded. -/
def askingFor (vector : List Float) : Embedder Float where
  embedText _ := vector
  embedChunk _ := .error "no vector"

/-- A chunk of one line. -/
def lineOf (filePath : String) (kind : ChunkKind) : Chunk :=
  ⟨filePath, filePath, "typescript", "", kind, 1, 1, {}, none⟩

/-- Two chunks with one score, one with a higher score, one that is raised above one, and one of
another type. -/
def smallCorpus : List (Embedding Float) := [
  ⟨"a", [3, 4], lineOf "a.ts" .block⟩, ⟨"b", [4, 3], lineOf "b.ts" .block⟩,
  ⟨"c", [6, 8], lineOf "c.ts" .block⟩, ⟨"d", [2, 0], lineOf "d.ts" .classType⟩,
  ⟨"e", [1, 0], lineOf "e.py" .block⟩]

def smallOptions : SearchOptions Float :=
  { limit := some 3, fileTypes := some ["ts"], boostTypes := some ["class"] }

/-- Three of the four chunks that answer are returned. -/
theorem best_of_small_corpus :
    0 ≤ smallOptions.limitIn {} ∧ Scalar.IsDefined (smallOptions.leastScoreIn {}) ∧
      ScoresDefined (.of (askingFor [1, 0]) "anything" smallOptions) smallCorpus ∧
      ∃ places, IsBest (.of (askingFor [1, 0]) "anything" smallOptions)
        (smallOptions.leastScoreIn {}) smallCorpus 3
        (rank {} (askingFor [1, 0]) "anything" smallOptions smallCorpus) places ∧
        places.length = 3 := by
  have limit : 0 ≤ smallOptions.limitIn {} := by decide
  have least : Scalar.IsDefined (smallOptions.leastScoreIn {}) := by decide +kernel
  have defined : ScoresDefined (.of (askingFor [1, 0]) "anything" smallOptions) smallCorpus := by
    decide +kernel
  have four : (smallCorpus.countP fun embedding => IsEligible
      (.of (askingFor [1, 0]) "anything" smallOptions) (smallOptions.leastScoreIn {}) embedding) =
      4 := by decide +kernel
  obtain ⟨places, best⟩ := rank_returns_best {} (askingFor [1, 0]) "anything" smallOptions
    smallCorpus limit least defined
  refine ⟨limit, least, defined, places, best, ?_⟩
  rw [best.count, four]
  rfl

end Ranking

end CodeSearch
