import CodeSearch.Proofs.Search.CacheKeys

/-! # Blanks in queries

The normal form of a query is its words with single spaces, so two queries share it if and only if
they have the same words. Then they share the keys of all options, and they are answered alike.
-/

namespace CodeSearch

namespace Query

/-- A query's normal form has its words with one space between every two. -/
theorem normalizeChars_eq_joinWith (query : List Char) :
    normalizeChars query = Text.joinWith [' '] (Text.words query) :=
  Text.trim_collapseBlanks query

end Query

theorem words_normalizeQuery (query : String) :
    Text.words (normalizeQuery query).toList = Text.words query.toList := by
  rw [normalizeQuery, String.toList_ofList, Query.words_normalizeChars]

/-- Queries that differ only in blanks are those with one normal form. -/
theorem normalizeQuery_eq_iff (query other : String) :
    normalizeQuery query = normalizeQuery other ↔
      Text.words query.toList = Text.words other.toList := by
  constructor
  · intro same
    rw [← words_normalizeQuery query, same, words_normalizeQuery]
  · intro same
    rw [normalizeQuery, normalizeQuery, Query.normalizeChars_eq_joinWith, same,
      ← Query.normalizeChars_eq_joinWith]

theorem normalizeQuery_normalizeQuery (query : String) :
    normalizeQuery (normalizeQuery query) = normalizeQuery query :=
  (normalizeQuery_eq_iff _ _).mpr (words_normalizeQuery query)

variable {α : Type} [Scalar α]

/-- With the same options, two queries have one key if and only if they differ only in blanks. -/
theorem SearchOptions.cacheKey_eq_iff (options : SearchOptions α) (query other : String) :
    options.cacheKey query = options.cacheKey other ↔
      Text.words query.toList = Text.words other.toList := by
  simp only [← normalizeQuery_eq_iff, cacheKey, String.intercalate_cons_cons,
    String.append_left_inj]

/-- Queries with one normal form are ranked alike. -/
theorem rank_of_normalizeQuery {query other : String}
    (same : normalizeQuery query = normalizeQuery other) (dimensions : Nat) (textLimit : Int)
    (settings : Settings α) (options : SearchOptions α) (corpus : List (Embedding α)) :
    rank settings (.hashing dimensions textLimit) query options corpus =
      rank settings (.hashing dimensions textLimit) other options corpus :=
  rank_congr (hashedText_of_normalizeQuery same dimensions textLimit)
    (keywords_of_normalizeQuery same) rfl rfl rfl (fun _ => rfl) corpus

/-- Blanks in a query never matter: its normal form has its vector and its keywords and is ranked
alike over every corpus, and so is every query that shares its key under some options, which all
queries do that differ from it only in blanks. -/
theorem blanks_never_matter (query : String) (dimensions : Nat) (textLimit : Int) :
    let embedder : Embedder α := .hashing dimensions textLimit
    embedder.embedText (normalizeQuery query) = embedder.embedText query ∧
      extractKeywords (normalizeQuery query) = extractKeywords query ∧
      (∀ (settings : Settings α) (options : SearchOptions α) (corpus : List (Embedding α)),
        rank settings embedder (normalizeQuery query) options corpus =
          rank settings embedder query options corpus) ∧
      ∀ (other : String) (options : SearchOptions α),
        (options.cacheKey other = options.cacheKey query ↔
          Text.words other.toList = Text.words query.toList) ∧
        (options.cacheKey other = options.cacheKey query →
          ∀ (settings : Settings α) (corpus : List (Embedding α)),
            rank settings embedder other options corpus =
              rank settings embedder query options corpus) := by
  intro embedder
  have normal := normalizeQuery_normalizeQuery query
  refine ⟨hashedText_of_normalizeQuery normal dimensions textLimit,
    congrArg (List.map String.ofList) (keywords_of_normalizeQuery normal),
    rank_of_normalizeQuery normal dimensions textLimit, fun other options => ?_⟩
  refine ⟨options.cacheKey_eq_iff other query, fun shared settings corpus => ?_⟩
  have same : normalizeQuery other = normalizeQuery query :=
    (normalizeQuery_eq_iff other query).mpr ((options.cacheKey_eq_iff other query).mp shared)
  exact rank_of_normalizeQuery same dimensions textLimit settings options corpus

/-- A query with blanks of several kinds and the same one without them. -/
theorem blanks_between_two_words :
    normalizeQuery "\u3000find\t\n User " = "find User" ∧
      ({} : SearchOptions Float).cacheKey "\u3000find\t\n User " =
        ({} : SearchOptions Float).cacheKey "find User" ∧
      ∀ (settings : Settings Float) (corpus : List (Embedding Float)),
        rank settings (.hashing 256 1500) "\u3000find\t\n User " {} corpus =
          rank settings (.hashing 256 1500) "find User" {} corpus := by
  have normal : normalizeQuery "\u3000find\t\n User " = "find User" := by decide +kernel
  have words : Text.words "\u3000find\t\n User ".toList = Text.words "find User".toList := by
    decide +kernel
  obtain ⟨-, -, -, others⟩ := @blanks_never_matter Float _ "find User" 256 1500
  obtain ⟨shares, ranked⟩ := others "\u3000find\t\n User " {}
  exact ⟨normal, shares.mpr words, ranked (shares.mpr words)⟩

end CodeSearch
