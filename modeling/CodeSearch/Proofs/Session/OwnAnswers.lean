import CodeSearch.Proofs.Search.CacheKeys
import CodeSearch.Proofs.Session.CachedAnswers

/-! # Every search gets its own answer

An answer is remembered under a key. Searches whose types have no marks of a key in them share a key
only if they are ranked alike, so a search that is answered from the cache gets what it would get
without it. Where a type has a mark in it, the searches of two keys can meet.
-/

namespace CodeSearch

namespace Session

variable {α : Type} [Scalar α]

/-- A search that does not look into the cache is ranked over the embeddings of the snapshot. -/
theorem search_uncached {session : Session α} {snapshot : Snapshot α}
    (current : session.snapshot = some snapshot) (query : String) (options : SearchOptions α) :
    (session.search query { options with useCache := false }).1 =
      rank session.settings session.embedder query options snapshot.embeddings.values := by
  simp only [search, current]
  rfl

/-- If searches with one key are ranked alike, an answer from a right cache is the caller's own. -/
theorem CacheSound.search_eq {accepted : String → SearchOptions α → Prop} {session : Session α}
    (sound : session.CacheSound accepted) {query : String} {options : SearchOptions α}
    (alike : ∀ other given, accepted other given → given.cacheKey other = options.cacheKey query →
      ∀ corpus, rank session.settings session.embedder other given corpus =
        rank session.settings session.embedder query options corpus) :
    (session.search query options).1 =
      (session.search query { options with useCache := false }).1 := by
  cases current : session.snapshot with
  | none => simp only [search, current]
  | some snapshot =>
    rw [search_uncached current]
    simp only [search, current]
    split
    · split
      · next hits after found =>
        obtain ⟨entry, stored, rfl⟩ := QueryCache.get?_of_get found
        obtain ⟨other, given, permitted, same, answer⟩ :=
          sound.snapshot snapshot current _ entry stored
        exact answer.trans (alike other given permitted same _)
      · rfl
    · rfl

private theorem contextOptions_separable (wish : ContextWish) :
    (contextOptions wish : SearchOptions Float).Separable where
  fileTypes text member := by cases member
  boostTypes text member := by
    have known : text ∈ contextBoosts wish.query := (mem_sortedSet _ _).mp member
    have listed : text ∈ ["function", "class", "interface"] := by
      unfold contextBoosts at known
      split at known
      · exact List.mem_of_mem_take (i := 2) known
      · exact known
    simp only [List.mem_cons, List.not_mem_nil, or_false] at listed
    rcases listed with rfl | rfl | rfl <;> decide
  notBlank := by
    intro blank
    cases blank

/-- Two searches with one key are ranked alike over every corpus, if no type of theirs has a mark of
the key in it. So if no search of a run has such types, whatever is answered from the cache is what
would be answered without it. -/
theorem separable_searches_get_their_own_answers (dimensions : Nat) (textLimit : Int) :
    (∀ (query query' : String) (options options' : SearchOptions Float),
      options.Separable → options'.Separable → options.cacheKey query = options'.cacheKey query' →
      ∀ (settings : Settings Float) (corpus : List (Embedding Float)),
        rank settings (.hashing dimensions textLimit) query options corpus =
          rank settings (.hashing dimensions textLimit) query' options' corpus) ∧
    ∀ (session final : Session Float) (events : List (Event Float)), session.IsNew →
      session.embedder = .hashing dimensions textLimit →
      (∀ argument input options, .call (.search argument input) ∈ events →
        input.check = .ok options → options.Separable) →
      session.replay? events = some final →
      ∀ (query : String) (options : SearchOptions Float), options.Separable →
        (final.search query options).1 =
          (final.search query { options with useCache := false }).1 := by
  refine ⟨?_, ?_⟩
  · intro query query' options options' separable separable' same settings corpus
    exact separable.rank_eq separable' same settings dimensions textLimit corpus
  · intro session final events new hashing called run query options separable
    have sound : final.CacheSound fun _ options => options.Separable :=
      new.cacheSound_of_run contextOptions_separable
        (fun argument input _ options member _ checked => called argument input options member checked)
        run
    refine sound.search_eq ?_
    intro other given separable' same corpus
    rw [(replay?_world run).2, hashing]
    exact separable'.rank_eq separable same final.settings dimensions textLimit corpus

/-- The small project is searched for one word, then for it with blanks around. -/
theorem blanks_find_the_answer_of_small_project :
    ∃ final : Session Float, (opened {} smallProject 0).replay? indexAndSearch = some final ∧
      (({} : SearchOptions Float).cacheKey "run" = ({} : SearchOptions Float).cacheKey " run " ∧
        ∀ (settings : Settings Float) (corpus : List (Embedding Float)),
          rank settings (.hashing 256 1500) "run" {} corpus =
            rank settings (.hashing 256 1500) " run " {} corpus) ∧
      (final.search " run " {}).1 = (final.search " run " { useCache := false }).1 := by
  have runs : ((opened {} smallProject (0 : Float)).replay? indexAndSearch).isSome = true := by
    decide +kernel
  have plain : ({} : SearchOptions Float).Separable :=
    ⟨fun _ member => absurd member List.not_mem_nil,
      fun _ member => absurd member List.not_mem_nil, by decide⟩
  have called : ∀ argument input options, .call (.search argument input) ∈ indexAndSearch →
      input.check = .ok options → options.Separable := by
    intro argument input options member checked
    have absent : input = .absent := by
      simp [indexAndSearch] at member
      exact member.2
    cases absent
    cases checked
    exact plain
  obtain ⟨final, run⟩ := Option.isSome_iff_exists.mp runs
  obtain ⟨ranked, answered⟩ := separable_searches_get_their_own_answers 256 1500
  have same : ({} : SearchOptions Float).cacheKey "run" =
      ({} : SearchOptions Float).cacheKey " run " := by decide +kernel
  exact ⟨final, run, ⟨same, ranked _ _ _ _ plain plain same⟩,
    answered _ final indexAndSearch (opened_isNew {} smallProject 0) rfl called run _ _ plain⟩

/-- Two searches have one key and are not ranked alike. -/
def Meet (query query' : String) (options options' : SearchOptions Float) : Prop :=
  options.cacheKey query = options'.cacheKey query' ∧
    ∃ (dimensions : Nat) (corpus : List (Embedding Float)),
      rank {} (.hashing dimensions 1500) query options corpus ≠
        rank {} (.hashing dimensions 1500) query' options' corpus

/-- A function in a file of Python code, with a given vector. -/
def smallEmbedding (vector : List Float) : Embedding Float :=
  { chunkId := "a.py_run_1"
    vector
    chunk :=
      { id := "a.py_run_1"
        filePath := "a.py"
        language := "python"
        content := "def run():\n    pass"
        kind := .function
        startLine := 1
        endLine := 2 } }

private theorem meet_of_lengths {query query' : String} {options options' : SearchOptions Float}
    (same : options.cacheKey query = options'.cacheKey query') (dimensions : Nat)
    (corpus : List (Embedding Float))
    (apart : (rank {} (.hashing dimensions 1500) query options corpus).length ≠
      (rank {} (.hashing dimensions 1500) query' options' corpus).length) :
    Meet query query' options options' :=
  ⟨same, dimensions, corpus, fun equal => apart (congrArg List.length equal)⟩

/-- Searches of one key meet through each of the marks that no type may have: a comma or a bar in a
file type or in a kind to be raised, and a file type that is empty. -/
theorem types_with_marks_meet :
    Meet "run" "run" { minScore := some (.whole 0), fileTypes := some [""] }
      { minScore := some (.whole 0) } ∧
    Meet "run" "run" { minScore := some (.whole 0), fileTypes := some ["js,py"] }
      { minScore := some (.whole 0), fileTypes := some ["js", "py"] } ∧
    Meet "run" "run|None" { fileTypes := some ["0|py"] }
      { minScore := some (.whole 0), fileTypes := some ["py"] } ∧
    Meet "run" "run" { minScore := some (.whole (-1)), boostTypes := some ["class,function"] }
      { minScore := some (.whole (-1)), boostTypes := some ["class", "function"] } ∧
    Meet "run" "run|None" { fileTypes := some ["0"], boostTypes := some ["py|class"] }
      { minScore := some (.whole 0), fileTypes := some ["py"], boostTypes := some ["class"] } := by
  refine ⟨?_, ?_, ?_, ?_, ?_⟩
  · exact meet_of_lengths (by decide +kernel) 1 [smallEmbedding []] (by decide +kernel)
  · exact meet_of_lengths (by decide +kernel) 1 [smallEmbedding []] (by decide +kernel)
  · exact meet_of_lengths (by decide +kernel) 1 [smallEmbedding []] (by decide +kernel)
  · exact meet_of_lengths (by decide +kernel) 1 [smallEmbedding [-1]] (by decide +kernel)
  · exact meet_of_lengths (by decide +kernel) 1 [smallEmbedding []] (by decide +kernel)

end Session

end CodeSearch
