import CodeSearch.Chunk.Splitting
import CodeSearch.Embedding.Basic
import CodeSearch.Files.Basic
import CodeSearch.Index.Snapshot

/-! # Loading a file

A file is loaded in three looks: at its size, at its content, and, once the content has arrived, at
the clock. Its chunks are then embedded batch by batch. Faults of the file are told and not passed
on.
-/

namespace CodeSearch

/-- How far the loading of a file has come. -/
inductive LoadPoint where
  | sizing
  | reading
  /-- The file has been read, and the content is on its way. -/
  | carrying (content : Except FileFault String)

/-- What loading a file gives. -/
inductive LoadResult (α : Type) where
  | loaded (record : FileRecord α) (chunks : List Chunk)
  | oversize
  | failed (message : String)

/-- The effect of one step of loading. -/
inductive LoadStep (α : Type) where
  | next (point : LoadPoint)
  | last (result : LoadResult α)

namespace Loading

variable {α : Type} [Scalar α]

/-- The path under which a project knows a file. -/
def relativePath (root path : String) : String := (Path.relative? root path).getD ""

/-- What is told of a file that was not loaded. -/
def faultMessage (relative : String) : FileFault → String
  | .undecodable _ => "Could not decode file: " ++ relative
  | fault => "Error processing " ++ relative ++ ": " ++ fault.message

/-- The record and the chunks of a file with the given content. -/
def load (settings : Settings α) (now : α) (relative content : String) : LoadResult α :=
  let record := FileRecord.build relative content (languageTag relative) now
  .loaded record (chunkFile settings relative content record.symbols (some record))

/-- One step of loading a file of a project. A file whose size is not told is read. -/
def step (settings : Settings α) (files : FileSystem) (now : α) (root path : String) :
    LoadPoint → LoadStep α
  | .sizing =>
    match files.size path with
    | .error fault => .last (.failed (faultMessage (relativePath root path) fault))
    | .ok size =>
      if size.any fun size => decide (settings.maxFileSize < size) then .last .oversize
      else .next .reading
  | .reading => .next (.carrying (files.read path))
  | .carrying (.ok content) => .last (load settings now (relativePath root path) content)
  | .carrying (.error fault) => .last (.failed (faultMessage (relativePath root path) fault))

end Loading

/-- A loaded file whose chunks are being embedded. -/
structure FileDraft (α : Type) where
  record : FileRecord α
  chunks : List Chunk
  remaining : List Chunk
  embeddings : List (Embedding α) := []

namespace FileDraft

variable {α : Type}

def start (record : FileRecord α) (chunks : List Chunk) : FileDraft α :=
  { record, chunks, remaining := chunks }

/-- The embedding of a chunk, or what is told of its failure. -/
def embed (embedder : Embedder α) (chunk : Chunk) : Except String (Embedding α) :=
  match embedder.embedChunk chunk with
  | .ok vector => .ok { chunkId := chunk.id, vector, chunk }
  | .error reason => .error ("Failed to embed chunk " ++ chunk.id ++ ": " ++ reason)

/-- Embeds the next batch. A chunk that fails is left without an embedding and told of. -/
def embedBatch (embedder : Embedder α) (size : Int) (draft : FileDraft α) :
    FileDraft α × List String :=
  let results := (draft.remaining.take size.toNat).map (embed embedder)
  let embedded := results.filterMap fun
    | .ok embedding => some embedding
    | .error _ => none
  let failures := results.filterMap fun
    | .ok _ => none
    | .error message => some message
  ({ draft with
      remaining := draft.remaining.drop size.toNat
      embeddings := draft.embeddings ++ embedded }, failures)

end FileDraft

/-- Adds a file with all its chunks and the embeddings that there are. -/
def Snapshot.addDraft {α : Type} (snapshot : Snapshot α) (draft : FileDraft α) : Snapshot α :=
  snapshot.addFile draft.record draft.chunks draft.embeddings

end CodeSearch
