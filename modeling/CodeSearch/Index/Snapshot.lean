import CodeSearch.Index.QueryCache
import CodeSearch.FileRecord.Basic
import CodeSearch.Search.Ranking

/-! # Snapshots

A snapshot is everything known about one project: its files, their chunks, the embeddings of the
chunks, and the answers given so far. A chunk may have no embedding.
-/

namespace CodeSearch

/-- The index of one project at one time. -/
structure Snapshot (α : Type) where
  projectPath : String
  cache : QueryCache α (List (Hit α))
  indexedAt : α
  files : OrderedMap String (FileRecord α) := ∅
  chunks : OrderedMap String Chunk := ∅
  embeddings : OrderedMap String (Embedding α) := ∅

namespace Snapshot

variable {α : Type}

/-- A snapshot is fresh while its age is below a limit. -/
def isFresh [Scalar α] (snapshot : Snapshot α) (now staleness : α) : Bool :=
  decide (now - snapshot.indexedAt < staleness)

/-- Stores values one after another, each under its own key. -/
def storeAll {ν : Type} (key : ν → String) (map : OrderedMap String ν) (values : List ν) :
    OrderedMap String ν :=
  values.foldl (fun map value => map.insert (key value) value) map

/-- Adds what is known about one file. -/
def addFile (snapshot : Snapshot α) (record : FileRecord α) (chunks : List Chunk)
    (embeddings : List (Embedding α)) : Snapshot α :=
  { snapshot with
    files := snapshot.files.insert record.path record
    chunks := storeAll Chunk.id snapshot.chunks chunks
    embeddings := storeAll Embedding.chunkId snapshot.embeddings embeddings }

/-- The chunks of a file. -/
def chunksOf (snapshot : Snapshot α) (filePath : String) : List Chunk :=
  snapshot.chunks.values.filter fun chunk => chunk.filePath == filePath

/-- The identifiers under which chunks of a file are stored. -/
def chunkIdsOf (snapshot : Snapshot α) (filePath : String) : List String :=
  (snapshot.chunks.filter fun _ chunk => chunk.filePath == filePath).keys

/-- Removes a file with its chunks and their embeddings, and embeddings of the file whose chunks are
gone already. -/
def removeFile (snapshot : Snapshot α) (filePath : String) : Snapshot α :=
  let ids := snapshot.chunkIdsOf filePath
  { snapshot with
    files := snapshot.files.erase filePath
    chunks := snapshot.chunks.filter fun _ chunk => chunk.filePath != filePath
    embeddings := snapshot.embeddings.filter fun id embedding =>
      !ids.contains id && embedding.chunk.filePath != filePath }

/-- Removes a single chunk and leaves its embedding. -/
def dropChunk (snapshot : Snapshot α) (id : String) : Snapshot α :=
  { snapshot with chunks := snapshot.chunks.erase id }

/-- Adds one to the count of a kind. -/
def countKind (counts : OrderedMap String Nat) (chunk : Chunk) : OrderedMap String Nat :=
  counts.insert chunk.kind.name ((counts.get? chunk.kind.name).getD 0 + 1)

/-- How many chunks there are of each kind. -/
def kindCounts (snapshot : Snapshot α) : OrderedMap String Nat :=
  snapshot.chunks.values.foldl countKind ∅

end Snapshot

end CodeSearch
