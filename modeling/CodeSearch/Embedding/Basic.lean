import CodeSearch.Chunk.Basic
import CodeSearch.Embedding.Vector

/-! # Embeddings

An embedder maps chunks and queries into one space of vectors. The one defined here needs no model:
it counts hashed tokens.
-/

namespace CodeSearch

/-- Maps texts and chunks to vectors. A chunk may be refused, with a reason. -/
structure Embedder (α : Type) where
  embedText : String → List α
  embedChunk : Chunk → Except String (List α)

/-- A stored vector and the chunk it stands for. -/
structure Embedding (α : Type) where
  chunkId : String
  vector : List α
  chunk : Chunk

/-- Why there is no embedder. -/
inductive EmbedderFault where
  | tooFewDimensions

def EmbedderFault.message : EmbedderFault → String
  | .tooFewDimensions => "dimensions must be at least 3"

namespace Embedder

variable {α : Type} [Scalar α]

/-- The text that stands for a chunk: its symbol, its comments and its imports come before its code,
so that the limit cuts the code. -/
def chunkText (limit : Int) (chunk : Chunk) : String :=
  let symbol := match chunk.symbol with
    | none => []
    | some symbol =>
      ("[" ++ symbol.kind.name ++ "] " ++ symbol.name) ::
        (symbol.signature.toList.filter fun signature => !signature.isEmpty)
  let comments := (chunk.metadata.comments.toList.filter fun text => !text.isEmpty).map fun text =>
    "/* " ++ text ++ " */"
  let imports :=
    if chunk.metadata.imports.isEmpty then []
    else ["imports: " ++ String.intercalate ", " chunk.metadata.imports]
  let parts := symbol ++ comments ++ imports ++ [normalizeCode chunk.content]
  cut limit (String.intercalate " " parts)

/-- The vector of a text by its hashed tokens. -/
def hashedText (dimensions : Nat) (limit : Int) (text : String) : List α :=
  vectorize dimensions (tokenize (cut limit (normalizeCode text)))

def hashedChunk (dimensions : Nat) (limit : Int) (chunk : Chunk) : List α :=
  vectorize dimensions (tokenize (chunkText limit chunk))

/-- The embedder that counts hashed tokens. It refuses no chunk. -/
def hashing (dimensions : Nat) (limit : Int) : Embedder α where
  embedText := hashedText dimensions limit
  embedChunk chunk := .ok (hashedChunk dimensions limit chunk)

/-- Fewer than three dimensions leave no room for a slot between two others. -/
def hashing? (dimensions limit : Int) : Except EmbedderFault (Embedder α) :=
  if dimensions < 3 then .error .tooFewDimensions else .ok (hashing dimensions.toNat limit)

end Embedder

end CodeSearch
