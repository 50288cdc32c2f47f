import CodeSearch.Embedding.Basic
import CodeSearch.Language
import CodeSearch.Search.Options
import CodeSearch.Settings.Basic
import CodeSearch.Sorting

/-! # Ranking

The score of a chunk is the cosine between its vector and the query's, raised by factors for what
the query asks of its kind, its name and its comments. Chunks below the least score are left out;
the others are ordered by their scores held at one, and the first of them are returned.
-/

namespace CodeSearch

/-- How well a chunk answers a query. -/
inductive Relevance where
  | high | medium | low
  deriving DecidableEq

def Relevance.name : Relevance → String
  | high => "high"
  | medium => "medium"
  | low => "low"

/-- The relevance that a score stands for. -/
def Relevance.ofScore {α : Type} [Scalar α] (score : α) : Relevance :=
  if (0.7 : α) < score then .high else if (0.4 : α) < score then .medium else .low

/-- A chunk that answers a query. -/
structure Hit (α : Type) where
  chunk : Chunk
  score : α
  relevance : Relevance

namespace Ranking

variable {α : Type} [Scalar α]

/-- What a query and its options ask for. -/
structure Wish (α : Type) where
  vector : List α
  keywords : List (List Char)
  allowedTypes : List String
  boostedTypes : List String

def Wish.of (embedder : Embedder α) (query : String) (options : SearchOptions α) : Wish α :=
  { vector := embedder.embedText query
    keywords := Query.keywords query.toList
    allowedTypes := options.allowedTypes
    boostedTypes := options.boostedTypes }

/-- Whether one of the keywords occurs in a text, without regard to case. -/
def mentions (keywords : List (List Char)) (text : String) : Bool :=
  let small := Text.lower text.toList
  keywords.any fun keyword => Text.occursIn keyword small

/-- The factor of a chunk's kind. -/
def kindBoost (wish : Wish α) (chunk : Chunk) (boost : α) : α :=
  if wish.boostedTypes.contains chunk.kind.name then boost * 1.2 else boost

/-- The factor of the name that a chunk declares. -/
def nameBoost (wish : Wish α) (chunk : Chunk) (boost : α) : α :=
  if chunk.symbol.any fun symbol => mentions wish.keywords symbol.name then boost * 1.3 else boost

/-- The factor of a chunk's comments. -/
def commentBoost (wish : Wish α) (chunk : Chunk) (boost : α) : α :=
  let mentioned := chunk.metadata.comments.any fun comments =>
    !comments.isEmpty && mentions wish.keywords comments
  if mentioned then boost * 1.15 else boost

/-- All factors together. -/
def boost (wish : Wish α) (chunk : Chunk) : α :=
  commentBoost wish chunk (nameBoost wish chunk (kindBoost wish chunk (Scalar.ofNat 1)))

/-- The score of a chunk before it is held at one. -/
def rawScore (wish : Wish α) (embedding : Embedding α) : α :=
  cosine wish.vector embedding.vector * boost wish embedding.chunk

/-- No file type given means that all are searched. -/
def isAllowed (wish : Wish α) (chunk : Chunk) : Bool :=
  wish.allowedTypes.isEmpty || wish.allowedTypes.contains (fileType chunk.filePath)

/-- Scores above one are reported as one. -/
def heldAtOne (score : α) : α := if Scalar.ofNat 1 < score then Scalar.ofNat 1 else score

/-- The hit that a chunk gives, unless it is left out. The relevance is that of the raw score. -/
def hit? (wish : Wish α) (minScore : α) (embedding : Embedding α) : Option (Hit α) :=
  if isAllowed wish embedding.chunk then
    let raw := rawScore wish embedding
    if raw < minScore then none
    else some { chunk := embedding.chunk, score := heldAtOne raw, relevance := .ofScore raw }
  else none

/-- The first hits by score, in the order of the corpus where scores are equal. -/
def best (limit : Int) (hits : List (Hit α)) : List (Hit α) :=
  Text.upTo limit (byFalling Hit.score hits)

end Ranking

/-- The chunks of a corpus that answer a query best. -/
def rank {α : Type} [Scalar α] (settings : Settings α) (embedder : Embedder α) (query : String)
    (options : SearchOptions α) (corpus : List (Embedding α)) : List (Hit α) :=
  let wish := Ranking.Wish.of embedder query options
  let minScore := (options.minScore.map Number.value).getD settings.defaultMinScore
  let limit := options.limit.getD settings.defaultLimit
  Ranking.best limit (corpus.filterMap (Ranking.hit? wish minScore))

end CodeSearch
