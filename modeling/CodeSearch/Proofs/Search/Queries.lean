import CodeSearch.Proofs.Embedding.Lexemes
import CodeSearch.Search.Ranking

/-! # Queries and their normal form

Queries with one normal form have the same keywords and, for the embedder that counts tokens, the
same vector.
-/

namespace CodeSearch

open Text

namespace Query

theorem words_normalizeChars (query : List Char) :
    Text.words (normalizeChars query) = Text.words query := by
  rw [normalizeChars, words_trim, words_collapseBlanks]

/-- The keywords of a query come from its words. -/
theorem keywords_eq (query : List Char) :
    keywords query = ((Text.words query).flatMap words).filter isKeyword :=
  congrArg _ (words_of_splits rfl (fun _ _ _ => onlyWords_append_blank) query)

theorem keywords_normalizeChars (query : List Char) :
    keywords (normalizeChars query) = keywords query := by
  rw [keywords_eq, words_normalizeChars, ← keywords_eq]

end Query

/-- Queries with one normal form are embedded alike. -/
theorem hashedText_of_normalizeQuery {α : Type} [Scalar α] {query other : String}
    (same : normalizeQuery query = normalizeQuery other) (dimensions : Nat) (limit : Int) :
    (Embedder.hashedText dimensions limit query : List α) =
      Embedder.hashedText dimensions limit other := by
  have chars : Query.normalizeChars query.toList = Query.normalizeChars other.toList :=
    String.ofList_inj.mp same
  have lexemes : Token.lexemes query.toList = Token.lexemes other.toList := by
    rw [Token.lexemes_eq_flatMap_words, ← Query.words_normalizeChars, chars,
      Query.words_normalizeChars, ← Token.lexemes_eq_flatMap_words]
  have code : normalizeCode query = normalizeCode other := by
    rw [normalizeCode, normalizeCode, Token.normalizeChars_eq_layOut, lexemes,
      ← Token.normalizeChars_eq_layOut]
  rw [Embedder.hashedText, Embedder.hashedText, code]

/-- Queries with one normal form ask for the same keywords. -/
theorem keywords_of_normalizeQuery {query other : String}
    (same : normalizeQuery query = normalizeQuery other) :
    Query.keywords query.toList = Query.keywords other.toList := by
  have chars : Query.normalizeChars query.toList = Query.normalizeChars other.toList :=
    String.ofList_inj.mp same
  rw [← Query.keywords_normalizeChars, chars, Query.keywords_normalizeChars]

end CodeSearch
