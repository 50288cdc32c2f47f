import CodeSearch.Proofs.Search.Best

/-! # Narrower searches

A search with a lower limit or a higher least score returns a part of what the wider search returns,
and a search of a part of the corpus returns what the search of the whole corpus returns from that
part. Both hold as long as all scores are defined. An undefined score is neither below nor above the
least one, and where one stands among the hits the order of the others may change.
-/

namespace CodeSearch

variable {α : Type} [Scalar α]

namespace Ranking

variable {wish : Wish α} {least bound : α} {corpus : List (Embedding α)}

theorem of_hit?_eq_some {embedding : Embedding α} {hit : Hit α}
    (found : hit? wish least embedding = some hit) :
    isAllowed wish embedding.chunk = true ∧ hit.chunk = embedding.chunk ∧
      hit.score = reported wish embedding := by
  by_cases allowed : isAllowed wish embedding.chunk = true
  · rw [hit?, if_pos allowed] at found
    obtain ⟨-, same⟩ := Option.ite_none_left_eq_some.mp found
    obtain rfl := Option.some.inj same
    exact ⟨allowed, rfl, rfl⟩
  · rw [hit?, if_neg allowed] at found
    cases found

/-- Hits are selected by the files of their chunks before or behind the look at their scores. -/
theorem filter_hits (keep : String → Bool) :
    hits wish least (corpus.filter fun embedding => keep embedding.chunk.filePath) =
      (hits wish least corpus).filter fun hit => keep hit.chunk.filePath := by
  rw [hits, hits, List.filterMap_filter, List.filter_filterMap]
  refine List.filterMap_congr fun embedding _ => ?_
  cases found : hit? wish least embedding with
  | none => simp
  | some hit =>
    obtain ⟨-, chunk, -⟩ := of_hit?_eq_some found
    rw [Option.filter_some, chunk]

/-- Allowed types select the hits of a search without them. -/
theorem hits_of_types (types : List String) (some : types ≠ []) :
    hits { wish with allowedTypes := types } least corpus =
      (hits { wish with allowedTypes := [] } least corpus).filter fun hit =>
        types.contains (fileType hit.chunk.filePath) := by
  rw [hits, hits, List.filter_filterMap]
  refine List.filterMap_congr fun embedding _ => ?_
  have all : isAllowed { wish with allowedTypes := [] } embedding.chunk = true := rfl
  have given : isAllowed { wish with allowedTypes := types } embedding.chunk =
      types.contains (fileType embedding.chunk.filePath) := by
    simp [isAllowed, some]
  rw [hit?, hit?, all, given, if_pos rfl]
  change (if _ then (if rawScore wish embedding < least then none else _) else none) =
    Option.filter _ (if rawScore wish embedding < least then none else _)
  by_cases below : rawScore wish embedding < least
  · rw [if_pos below, if_pos below, ite_self, Option.filter_none]
  · rw [if_neg below, if_neg below, Option.filter_some]
    rfl

section Ordered

variable [OrderedScalar α]

/-- The hits of a corpus with defined scores have defined scores. -/
theorem scores_of_hits (defined : ScoresDefined wish corpus) :
    KeysDefined Hit.score (hits wish least corpus) := by
  intro hit member
  obtain ⟨embedding, inCorpus, found⟩ := List.mem_filterMap.mp member
  obtain ⟨allowed, -, score⟩ := of_hit?_eq_some found
  rw [score]
  exact heldAtOne_isDefined (defined embedding inCorpus allowed)

/-- A higher least score that is not above one selects hits by the scores that are reported. -/
theorem hits_of_higher_bound (defined : ScoresDefined wish corpus) (higher : least ≤ bound)
    (one : bound ≤ Scalar.ofNat 1) :
    hits wish bound corpus = (hits wish least corpus).filter fun hit => bound ≤ hit.score := by
  obtain ⟨knownLeast, knownBound⟩ := OrderedScalar.defined higher
  rw [hits, hits, List.filter_filterMap]
  refine List.filterMap_congr fun embedding member => ?_
  rw [hit?_eq (defined embedding member) knownLeast, hit?_eq (defined embedding member) knownBound]
  by_cases eligible : IsEligible wish least embedding
  · have reaches : bound ≤ (shown wish embedding).score ↔ bound ≤ rawScore wish embedding :=
      le_heldAtOne_iff one
    have narrower : IsEligible wish bound embedding ↔ bound ≤ (shown wish embedding).score :=
      ⟨fun known => reaches.mpr known.least, fun known => ⟨eligible.allowed, reaches.mp known⟩⟩
    rw [if_pos eligible, Option.filter_some]
    simp only [narrower, decide_eq_true_eq]
  · have narrower : ¬ IsEligible wish bound embedding := fun known =>
      eligible ⟨known.allowed, OrderedScalar.trans higher known.least⟩
    rw [if_neg eligible, if_neg narrower, Option.filter_none]

/-- Falling hits that reach a bound are followed by hits that do not. -/
theorem pairwise_reaches (defined : ScoresDefined wish corpus) (least bound : α) :
    (byFalling Hit.score (hits wish least corpus)).Pairwise fun first second =>
      decide (bound ≤ second.score) = true → decide (bound ≤ first.score) = true := by
  have scores : KeysDefined Hit.score (hits wish least corpus) := scores_of_hits defined
  have falls := pairwise_byFalling scores
    (List.pairwise_of_forall (R := fun _ _ => True) fun _ _ => trivial)
  refine falls.imp fun {first second} order reached => ?_
  rw [decide_eq_true_eq] at reached ⊢
  exact OrderedScalar.trans reached order.1

end Ordered

end Ranking

variable {settings : Settings α} {embedder : Embedder α} {query : String}
  {options : SearchOptions α} {corpus : List (Embedding α)}

theorem rank_natCast {limit : ℕ} (given : options.limitIn settings = limit) :
    rank settings embedder query options corpus = (byFalling Hit.score (Ranking.hits
      (.of embedder query options) (options.leastScoreIn settings) corpus)).take limit := by
  rw [← Text.upTo_natCast, ← given]
  rfl

/-- A limit that is not below the size of the corpus cuts nothing off. -/
theorem rank_of_large_limit (limit : (corpus.length : Int) ≤ options.limitIn settings) :
    rank settings embedder query options corpus = byFalling Hit.score
      (Ranking.hits (.of embedder query options) (options.leastScoreIn settings) corpus) := by
  obtain ⟨count, given⟩ := Int.eq_ofNat_of_zero_le (show 0 ≤ options.limitIn settings by omega)
  have fewer : (Ranking.hits (.of embedder query options) (options.leastScoreIn settings)
      corpus).length ≤ corpus.length := List.length_filterMap_le _ corpus
  rw [rank_natCast given]
  apply List.take_of_length_le
  rw [(byFalling_perm _ _).length_eq]
  omega

section Ordered

variable [OrderedScalar α]

/-- A part of the corpus gives the hits of that part. -/
theorem rank_filter (defined : Ranking.ScoresDefined (.of embedder query options) corpus)
    (limit : (corpus.length : Int) ≤ options.limitIn settings) (keep : String → Bool) :
    rank settings embedder query options
        (corpus.filter fun embedding => keep embedding.chunk.filePath) =
      (rank settings embedder query options corpus).filter fun hit => keep hit.chunk.filePath := by
  have fewer := List.length_filter_le (fun embedding => keep embedding.chunk.filePath) corpus
  rw [rank_of_large_limit limit, rank_of_large_limit (by omega),
    filter_byFalling (Ranking.scores_of_hits defined), Ranking.filter_hits]

end Ordered

/-! ## Lower limits and higher least scores -/

/-- A search with a lower limit and a higher least score that is not above one returns the first hits
of the wider search that reach its least score, whether they are selected or counted first. -/
theorem narrower_search_is_part [OrderedScalar α] (settings : Settings α) (embedder : Embedder α)
    (query : String) (narrow wide : SearchOptions α) (corpus : List (Embedding α))
    (limit : 0 ≤ narrow.limitIn settings)
    (limits : narrow.limitIn settings ≤ wide.limitIn settings)
    (scores : wide.leastScoreIn settings ≤ narrow.leastScoreIn settings)
    (one : narrow.leastScoreIn settings ≤ Scalar.ofNat 1)
    (fileTypes : narrow.fileTypes = wide.fileTypes)
    (boostTypes : narrow.boostTypes = wide.boostTypes)
    (defined : Ranking.ScoresDefined (.of embedder query narrow) corpus) :
    let reaches (hit : Hit α) : Bool := narrow.leastScoreIn settings ≤ hit.score
    let found := rank settings embedder query wide corpus
    let count := (narrow.limitIn settings).toNat
    rank settings embedder query narrow corpus = (found.filter reaches).take count ∧
      rank settings embedder query narrow corpus = (found.take count).filter reaches := by
  intro reaches found count
  obtain ⟨lower, givenLower⟩ := Int.eq_ofNat_of_zero_le limit
  obtain ⟨upper, givenUpper⟩ := Int.eq_ofNat_of_zero_le (limit.trans limits)
  have lowerCount : count = lower := by omega
  have fits : lower ≤ upper := by omega
  have wish : Ranking.Wish.of embedder query wide = .of embedder query narrow := by
    rw [Ranking.Wish.of, Ranking.Wish.of, SearchOptions.allowedTypes, SearchOptions.boostedTypes,
      ← fileTypes, ← boostTypes]
    rfl
  let ranked := byFalling Hit.score
    (Ranking.hits (.of embedder query narrow) (wide.leastScoreIn settings) corpus)
  have isWide : found = ranked.take upper := by
    rw [show found = _ from rank_natCast givenUpper, wish]
  have isNarrow : rank settings embedder query narrow corpus =
      (ranked.filter reaches).take lower := by
    rw [rank_natCast givenLower, filter_byFalling (Ranking.scores_of_hits defined),
      Ranking.hits_of_higher_bound defined scores one]
  have commutes := Sorting.filter_take_of_pairwise (Ranking.pairwise_reaches defined
    (wide.leastScoreIn settings) (narrow.leastScoreIn settings))
  constructor
  · rw [isNarrow, isWide, lowerCount, commutes, List.take_take, Nat.min_eq_left fits]
  · rw [isNarrow, isWide, lowerCount, List.take_take, Nat.min_eq_left fits, commutes]

namespace Ranking

/-- The small search with one answer less and a higher least score. -/
def narrowOptions : SearchOptions Float :=
  { smallOptions with limit := some 2, minScore := some (.real 0.5) }

/-- Of four hits that reach the higher least score, the first two are returned. -/
theorem narrow_search_of_small_corpus :
    0 ≤ narrowOptions.limitIn {} ∧ narrowOptions.limitIn {} ≤ smallOptions.limitIn {} ∧
      smallOptions.leastScoreIn {} ≤ narrowOptions.leastScoreIn {} ∧
      narrowOptions.leastScoreIn {} ≤ Scalar.ofNat 1 ∧
      ScoresDefined (.of (askingFor [1, 0]) "anything" narrowOptions) smallCorpus ∧
      rank {} (askingFor [1, 0]) "anything" narrowOptions smallCorpus =
        ((rank {} (askingFor [1, 0]) "anything" smallOptions smallCorpus).filter fun hit =>
          narrowOptions.leastScoreIn {} ≤ hit.score).take 2 := by
  have limit : 0 ≤ narrowOptions.limitIn {} := by decide
  have limits : narrowOptions.limitIn {} ≤ smallOptions.limitIn {} := by decide
  have scores : smallOptions.leastScoreIn {} ≤ narrowOptions.leastScoreIn {} := by decide +kernel
  have one : narrowOptions.leastScoreIn {} ≤ Scalar.ofNat 1 := by decide +kernel
  have defined : ScoresDefined (.of (askingFor [1, 0]) "anything" narrowOptions) smallCorpus := by
    decide +kernel
  exact ⟨limit, limits, scores, one, defined, (narrower_search_is_part {} (askingFor [1, 0])
    "anything" narrowOptions smallOptions smallCorpus limit limits scores one rfl rfl defined).1⟩

/-- A chunk whose vector is so long that its score is undefined. -/
def overlong (filePath : String) : Embedding Float :=
  ⟨filePath, [1e160, 0], lineOf filePath .block⟩

def openOptions : SearchOptions Float := { limit := some 10, minScore := some (.whole 0) }

/-- A chunk with an undefined score is returned and does not reach the least score, so that a search
does not even return a part of what it returns itself. -/
theorem undefined_score_reaches_no_bound :
    0 ≤ openOptions.limitIn {} ∧ openOptions.leastScoreIn {} ≤ openOptions.leastScoreIn {} ∧
      openOptions.leastScoreIn {} ≤ Scalar.ofNat 1 ∧
      rank {} (askingFor [1e150, 0]) "zz" openOptions [overlong "n.ts"] ≠
        ((rank {} (askingFor [1e150, 0]) "zz" openOptions [overlong "n.ts"]).filter fun hit =>
          openOptions.leastScoreIn {} ≤ hit.score).take (openOptions.limitIn {}).toNat := by
  refine ⟨by decide, by decide +kernel, by decide +kernel, fun same => ?_⟩
  have lengths := congrArg List.length same
  revert lengths
  decide +kernel

end Ranking

/-! ## Parts of the corpus -/

namespace SearchOptions

/-- The options with file types, in the form in which options keep them. -/
def withTypes (options : SearchOptions α) (types : List String) : SearchOptions α :=
  { options with fileTypes := (normalized { options with fileTypes := some types }).fileTypes }

/-- The options of a search in files of all types. -/
def withAllTypes (options : SearchOptions α) : SearchOptions α := { options with fileTypes := none }

omit [Scalar α] in
theorem mem_allowedTypes_withTypes (options : SearchOptions α) (types : List String)
    (type : String) : type ∈ (options.withTypes types).allowedTypes ↔
      ∃ given ∈ types, plainType given = type := by
  rw [allowedTypes, withTypes, normalized, Option.map_some, Option.getD_some, mem_sortedSet,
    List.mem_map]

/-- Whether a type names the suffix of a path, without regard to case and to points in front. -/
def names (type path : String) : Bool :=
  plainType type == plainType (String.ofList (Path.suffix path))

omit [Scalar α] in
/-- The types that options keep contain a file's type if one of those given names its suffix. -/
theorem contains_allowedTypes_withTypes (options : SearchOptions α) (types : List String)
    (path : String) : (options.withTypes types).allowedTypes.contains (fileType path) =
      types.any fun type => names type path := by
  rw [Bool.eq_iff_iff, List.contains_iff_mem, mem_allowedTypes_withTypes, List.any_eq_true]
  simp only [names, plainType, fileType, beq_iff_eq, String.toList_ofList]

omit [Scalar α] in
theorem allowedTypes_withTypes_ne_nil (options : SearchOptions α) {types : List String}
    (some : types ≠ []) : (options.withTypes types).allowedTypes ≠ [] := by
  obtain ⟨type, rest, rfl⟩ := List.exists_cons_of_ne_nil some
  have kept := (mem_allowedTypes_withTypes options (type :: rest) (plainType type)).mpr
    ⟨type, List.mem_cons_self, rfl⟩
  exact List.ne_nil_of_mem kept

end SearchOptions

/-- Ranking commutes with restricting the corpus: as long as the limit cuts nothing off and all scores
are defined, a search of some files returns what the search of all files returns from these; a search
for file types returns what the search for all types returns in files of these types; and what a
search returns from all files but one does not depend on the chunks of that one. -/
theorem rank_commutes_with_restriction [OrderedScalar α] (settings : Settings α)
    (embedder : Embedder α) (query : String) (options : SearchOptions α)
    (corpus : List (Embedding α)) (limit : (corpus.length : Int) ≤ options.limitIn settings) :
    (Ranking.ScoresDefined (.of embedder query options) corpus → ∀ keep : String → Bool,
      rank settings embedder query options
          (corpus.filter fun embedding => keep embedding.chunk.filePath) =
        (rank settings embedder query options corpus).filter fun hit => keep hit.chunk.filePath) ∧
    (Ranking.ScoresDefined (.of embedder query options.withAllTypes) corpus →
      ∀ types : List String, types ≠ [] →
        rank settings embedder query (options.withTypes types) corpus =
          (rank settings embedder query options.withAllTypes corpus).filter fun hit =>
            types.any fun type => SearchOptions.names type hit.chunk.filePath) ∧
    ∀ (file : String) (changed : List (Embedding α)),
      Ranking.ScoresDefined (.of embedder query options) corpus →
      Ranking.ScoresDefined (.of embedder query options) changed →
      (changed.length : Int) ≤ options.limitIn settings →
      (changed.filter fun embedding => embedding.chunk.filePath != file) =
        (corpus.filter fun embedding => embedding.chunk.filePath != file) →
      ((rank settings embedder query options changed).filter fun hit =>
          hit.chunk.filePath != file) =
        (rank settings embedder query options corpus).filter fun hit =>
          hit.chunk.filePath != file := by
  refine ⟨fun defined => rank_filter defined limit, ?_, ?_⟩
  · intro defined types some
    have selected := @Ranking.hits_of_types α _ (.of embedder query options.withAllTypes)
      (options.leastScoreIn settings) corpus (options.withTypes types).allowedTypes
      (options.allowedTypes_withTypes_ne_nil some)
    simp only [SearchOptions.contains_allowedTypes_withTypes] at selected
    rw [@rank_of_large_limit α _ settings embedder query (options.withTypes types) corpus limit,
      @rank_of_large_limit α _ settings embedder query options.withAllTypes corpus limit,
      filter_byFalling (Ranking.scores_of_hits defined)]
    exact congrArg _ selected
  · intro file changed defined defined' limit' same
    rw [← rank_filter defined' limit' fun path => path != file, same,
      rank_filter defined limit fun path => path != file]

namespace Ranking

def wideOptions : SearchOptions Float := { smallOptions with limit := some 10, fileTypes := none }

/-- The small corpus after one of its files has been rewritten: its chunk is taken out and another
one put behind the others. -/
def editedCorpus : List (Embedding Float) :=
  (smallCorpus.filter fun embedding => embedding.chunk.filePath != "b.ts") ++
    [⟨"b", [5, 12], lineOf "b.ts" .function⟩]

/-- Searches of the small corpus for one file, for a type that is written otherwise, and behind the
edit. -/
theorem restricted_searches_of_small_corpus :
    (smallCorpus.length : Int) ≤ wideOptions.limitIn {} ∧
      (editedCorpus.length : Int) ≤ wideOptions.limitIn {} ∧
      ScoresDefined (.of (askingFor [1, 0]) "anything" wideOptions) smallCorpus ∧
      ScoresDefined (.of (askingFor [1, 0]) "anything" wideOptions) editedCorpus ∧
      ScoresDefined (.of (askingFor [1, 0]) "anything" wideOptions.withAllTypes) smallCorpus ∧
      rank {} (askingFor [1, 0]) "anything" wideOptions
          (smallCorpus.filter fun embedding => embedding.chunk.filePath == "c.ts") =
        ((rank {} (askingFor [1, 0]) "anything" wideOptions smallCorpus).filter fun hit =>
          hit.chunk.filePath == "c.ts") ∧
      rank {} (askingFor [1, 0]) "anything" (wideOptions.withTypes [".TS"]) smallCorpus =
        ((rank {} (askingFor [1, 0]) "anything" wideOptions.withAllTypes smallCorpus).filter
          fun hit => [".TS"].any fun type => SearchOptions.names type hit.chunk.filePath) ∧
      ((rank {} (askingFor [1, 0]) "anything" wideOptions editedCorpus).filter fun hit =>
          hit.chunk.filePath != "b.ts") =
        (rank {} (askingFor [1, 0]) "anything" wideOptions smallCorpus).filter fun hit =>
          hit.chunk.filePath != "b.ts" := by
  have limit : (smallCorpus.length : Int) ≤ wideOptions.limitIn {} := by decide
  have limit' : (editedCorpus.length : Int) ≤ wideOptions.limitIn {} := by decide +kernel
  have defined : ScoresDefined (.of (askingFor [1, 0]) "anything" wideOptions) smallCorpus := by
    decide +kernel
  have defined' : ScoresDefined (.of (askingFor [1, 0]) "anything" wideOptions) editedCorpus := by
    decide +kernel
  have others : (editedCorpus.filter fun embedding => embedding.chunk.filePath != "b.ts") =
      smallCorpus.filter fun embedding => embedding.chunk.filePath != "b.ts" := by
    rw [editedCorpus, List.filter_append, List.filter_filter]
    simp [lineOf]
  obtain ⟨parts, types, edits⟩ := rank_commutes_with_restriction {} (askingFor [1, 0]) "anything"
    wideOptions smallCorpus limit
  exact ⟨limit, limit', defined, defined', defined, parts defined (· == "c.ts"),
    types defined [".TS"] (by decide), edits "b.ts" editedCorpus defined defined' limit' others⟩

/-- A chunk with an undefined score between two others. -/
def corpusAroundOverlong : List (Embedding Float) := [
  ⟨"a", [3, 4], lineOf "a.ts" .block⟩, overlong "n.js", ⟨"b", [4, 3], lineOf "b.ts" .block⟩]

private theorem byFalling_pair {β : Type} {key : β → Float} {first second : β}
    (defined : KeysDefined key [first, second]) (less : key first < key second) :
    byFalling key [first, second] = [second, first] := by
  rw [byFalling_eq_mergeSort key _ defined]
  simp [List.mergeSort, List.MergeSort.Internal.splitInTwo, less]

/-- Beside an undefined score two hits come in the order of the corpus, and without it by falling
scores. -/
theorem undefined_score_hides_order :
    (corpusAroundOverlong.length : Int) ≤ openOptions.limitIn {} ∧
      rank {} (askingFor [1e150, 0]) "zz" openOptions
          (corpusAroundOverlong.filter fun embedding => embedding.chunk.filePath != "n.js") ≠
        (rank {} (askingFor [1e150, 0]) "zz" openOptions corpusAroundOverlong).filter fun hit =>
          hit.chunk.filePath != "n.js" := by
  refine ⟨by decide, fun same => ?_⟩
  let wish : Wish Float := .of (askingFor [1e150, 0]) "zz" openOptions
  let others := corpusAroundOverlong.filter fun embedding => embedding.chunk.filePath != "n.js"
  have two : (hits wish (openOptions.leastScoreIn {}) others).length = 2 := by decide +kernel
  obtain ⟨first, second, found⟩ := List.length_eq_two.mp two
  have paths : (hits wish (openOptions.leastScoreIn {}) others).map (·.chunk.filePath) =
      ["a.ts", "b.ts"] := by decide +kernel
  have known : ∀ hit ∈ hits wish (openOptions.leastScoreIn {}) others,
      Scalar.IsDefined hit.score := by decide +kernel
  have rises : (hits wish (openOptions.leastScoreIn {}) others).Pairwise
      fun hit other => hit.score < other.score := by decide +kernel
  rw [found] at paths known rises
  have less : first.score < second.score := by simpa using rises
  rw [rank_of_large_limit (by decide +kernel), show hits _ _ _ = _ from found,
    byFalling_pair known less] at same
  have around : ((rank {} (askingFor [1e150, 0]) "zz" openOptions corpusAroundOverlong).filter
      fun hit => hit.chunk.filePath != "n.js").map (·.chunk.filePath) = ["a.ts", "b.ts"] := by
    decide +kernel
  rw [← same] at around
  simp only [List.map_cons, List.map_nil, List.cons.injEq, and_true] at paths around
  have differ : "a.ts" = "b.ts" := paths.1.symm.trans around.2
  exact absurd differ (by decide)

end Ranking

end CodeSearch
