import CodeSearch.Proofs.Chunk.Identity
import CodeSearch.Session.CallStep
import Mathlib.Data.List.Induction

/-! # What a snapshot holds of one file

A snapshot is looked at file by file: the record, the chunks and the embeddings that belong to a
path. Adding and removing a file change this view for that file and for no other, because files do
not share identifiers of chunks.
-/

namespace CodeSearch

variable {α : Type}

/-- Everything that a snapshot holds of one file; chunks and embeddings by their identifiers. -/
@[ext] structure FileEntries (α : Type) where
  record : Option (FileRecord α)
  chunks : String → Option Chunk
  embeddings : String → Option (Embedding α)

namespace FileEntries

def none : FileEntries α := ⟨.none, fun _ => .none, fun _ => .none⟩

/-- The entries of a file that has just been added. -/
def of (record : FileRecord α) (chunks : List Chunk) (embeddings : List (Embedding α)) :
    FileEntries α where
  record := some record
  chunks := (Snapshot.storeAll Chunk.id ∅ chunks).get?
  embeddings := (Snapshot.storeAll Embedding.chunkId ∅ embeddings).get?

end FileEntries

/-- The embeddings that chunks are given; a chunk that is refused has none. -/
def embeddingsOf (embedder : Embedder α) (chunks : List Chunk) : List (Embedding α) :=
  chunks.filterMap fun chunk => (FileDraft.embed embedder chunk).toOption

/-- The entries that the loading of a file leads to. -/
def LoadResult.entries (embedder : Embedder α) : LoadResult α → FileEntries α
  | .loaded record chunks => .of record chunks (embeddingsOf embedder chunks)
  | _ => .none

/-- A record with chunks and embeddings of one file that is indexed. -/
structure IsFileOf (path : String) (record : FileRecord α) (chunks : List Chunk)
    (embeddings : List (Embedding α)) : Prop where
  record : record.path = path
  known : isIndexable path = true
  chunks : ∀ chunk ∈ chunks, chunk.IsOf path
  embeddings : ∀ embedding ∈ embeddings,
    embedding.chunk.filePath = path ∧ Chunk.IsIdOf path embedding.chunkId

/-- An embedding carries the chunk that it is of, and its identifier. -/
theorem mem_embeddingsOf {embedder : Embedder α} {chunks : List Chunk} {embedding : Embedding α}
    (member : embedding ∈ embeddingsOf embedder chunks) :
    embedding.chunk ∈ chunks ∧ embedding.chunk.id = embedding.chunkId := by
  obtain ⟨chunk, inChunks, made⟩ := List.mem_filterMap.mp member
  unfold FileDraft.embed at made
  split at made
  · cases made
    exact ⟨inChunks, rfl⟩
  · cases made

theorem isFileOf_embeddingsOf {path : String} {record : FileRecord α} {chunks : List Chunk}
    (embedder : Embedder α) (named : record.path = path) (known : isIndexable path = true)
    (members : ∀ chunk ∈ chunks, chunk.IsOf path) :
    IsFileOf path record chunks (embeddingsOf embedder chunks) where
  record := named
  known := known
  chunks := members
  embeddings embedding member := by
    obtain ⟨inChunks, own⟩ := mem_embeddingsOf member
    have ofPath := members embedding.chunk inChunks
    exact ⟨ofPath.filePath, own ▸ ofPath.id⟩

namespace Snapshot

/-- What a snapshot holds of a file. -/
def entriesOf (snapshot : Snapshot α) (path : String) : FileEntries α where
  record := snapshot.files.get? path
  chunks id := (snapshot.chunks.get? id).filter fun chunk => chunk.filePath == path
  embeddings id :=
    (snapshot.embeddings.get? id).filter fun embedding => embedding.chunk.filePath == path

/-- Chunks and embeddings are stored under identifiers of their files, all of which are indexed. -/
structure IsKeyed (snapshot : Snapshot α) : Prop where
  chunks : ∀ id chunk, snapshot.chunks.get? id = some chunk →
    Chunk.IsIdOf chunk.filePath id ∧ isIndexable chunk.filePath = true
  embeddings : ∀ id embedding, snapshot.embeddings.get? id = some embedding →
    Chunk.IsIdOf embedding.chunk.filePath id ∧ isIndexable embedding.chunk.filePath = true

section storeAll

variable {ν : Type} {key : ν → String}

theorem get?_storeAll (map : OrderedMap String ν) (values : List ν) (id : String) :
    (storeAll key map values).get? id =
      ((storeAll key ∅ values).get? id).or (map.get? id) := by
  induction values using List.reverseRecOn with
  | nil => rfl
  | append_singleton values value ih =>
    simp only [storeAll, List.foldl_append, List.foldl_cons, List.foldl_nil] at ih ⊢
    rw [OrderedMap.get?_insert, OrderedMap.get?_insert]
    split
    · rfl
    · exact ih

/-- Only the given values are stored, each under its key. -/
theorem mem_of_get?_storeAll {values : List ν} {id : String} {value : ν}
    (found : (storeAll key ∅ values).get? id = some value) : value ∈ values ∧ key value = id := by
  induction values using List.reverseRecOn with
  | nil => cases found
  | append_singleton values last ih =>
    simp only [storeAll, List.foldl_append, List.foldl_cons, List.foldl_nil] at ih found
    rw [OrderedMap.get?_insert] at found
    split at found
    · next same =>
      cases found
      exact ⟨by simp, same⟩
    · obtain ⟨member, same⟩ := ih found
      exact ⟨List.mem_append.mpr (.inl member), same⟩

private theorem filter_storeAll_other (fileOf : ν → String) {map : OrderedMap String ν}
    {values : List ν} {path other : String}
    (ofPath : ∀ value ∈ values, fileOf value = path ∧ Chunk.IsIdOf path (key value))
    (known : isIndexable path = true)
    (keyed : ∀ id value, map.get? id = some value →
      Chunk.IsIdOf (fileOf value) id ∧ isIndexable (fileOf value) = true)
    (different : other ≠ path) (id : String) :
    ((storeAll key map values).get? id).filter (fun value => fileOf value == other) =
      (map.get? id).filter fun value => fileOf value == other := by
  rw [get?_storeAll]
  cases stored : (storeAll key ∅ values).get? id with
  | none => rfl
  | some value =>
    obtain ⟨member, same⟩ := mem_of_get?_storeAll stored
    obtain ⟨named, ofId⟩ := ofPath value member
    have hidden : (map.get? id).filter (fun value => fileOf value == other) = none := by
      rw [Option.filter_eq_none_iff]
      intro before found
      rw [beq_iff_eq]
      rintro rfl
      have ofOther := keyed id before found
      exact different (Chunk.isIdOf_unique ofOther.2 known ofOther.1 (same ▸ ofId))
    rw [hidden, Option.some_or, Option.filter_eq_none_iff]
    intro shown found
    cases found
    rw [named, beq_iff_eq]
    exact fun same => different same.symm

private theorem filter_storeAll_self (fileOf : ν → String) {map : OrderedMap String ν}
    {values : List ν} {path : String} (ofPath : ∀ value ∈ values, fileOf value = path)
    (id : String) (empty : (map.get? id).filter (fun value => fileOf value == path) = none) :
    ((storeAll key map values).get? id).filter (fun value => fileOf value == path) =
      (storeAll key ∅ values).get? id := by
  rw [get?_storeAll]
  cases stored : (storeAll key ∅ values).get? id with
  | none => exact empty
  | some value =>
    have named := ofPath value (mem_of_get?_storeAll stored).1
    rw [Option.some_or, Option.filter_some, if_pos (by rw [named, beq_self_eq_true])]

theorem keyed_storeAll (fileOf : ν → String) {map : OrderedMap String ν} {values : List ν}
    {path : String}
    (ofPath : ∀ value ∈ values, fileOf value = path ∧ Chunk.IsIdOf path (key value))
    (known : isIndexable path = true)
    (keyed : ∀ id value, map.get? id = some value →
      Chunk.IsIdOf (fileOf value) id ∧ isIndexable (fileOf value) = true) (id : String) (value : ν)
    (found : (storeAll key map values).get? id = some value) :
    Chunk.IsIdOf (fileOf value) id ∧ isIndexable (fileOf value) = true := by
  rw [get?_storeAll] at found
  cases stored : (storeAll key ∅ values).get? id with
  | none =>
    rw [stored] at found
    exact keyed id value found
  | some added =>
    rw [stored, Option.some_or, Option.some.injEq] at found
    subst found
    obtain ⟨member, same⟩ := mem_of_get?_storeAll stored
    obtain ⟨named, ofId⟩ := ofPath added member
    rw [named]
    exact ⟨same ▸ ofId, known⟩

end storeAll

variable {snapshot : Snapshot α} {path other : String} {record : FileRecord α} {chunks : List Chunk}
  {embeddings : List (Embedding α)}

theorem entriesOf_addFile_self (file : IsFileOf path record chunks embeddings)
    (empty : snapshot.entriesOf path = .none) :
    (snapshot.addFile record chunks embeddings).entriesOf path = .of record chunks embeddings := by
  have emptyChunks := congrFun (congrArg FileEntries.chunks empty)
  have emptyEmbeddings := congrFun (congrArg FileEntries.embeddings empty)
  ext1
  · change (snapshot.files.insert record.path record).get? path = some record
    rw [OrderedMap.get?_insert, if_pos file.record]
  · funext id
    exact filter_storeAll_self Chunk.filePath
      (fun chunk member => (file.chunks chunk member).filePath) id (emptyChunks id)
  · funext id
    exact filter_storeAll_self (fun embedding : Embedding α => embedding.chunk.filePath)
      (fun embedding member => (file.embeddings embedding member).1) id (emptyEmbeddings id)

theorem entriesOf_addFile_other (keyed : snapshot.IsKeyed)
    (file : IsFileOf path record chunks embeddings) (different : other ≠ path) :
    (snapshot.addFile record chunks embeddings).entriesOf other = snapshot.entriesOf other := by
  ext1
  · change (snapshot.files.insert record.path record).get? other = snapshot.files.get? other
    rw [OrderedMap.get?_insert, file.record, if_neg different.symm]
  · funext id
    exact filter_storeAll_other Chunk.filePath
      (fun chunk member => ⟨(file.chunks chunk member).filePath, (file.chunks chunk member).id⟩)
      file.known keyed.chunks different id
  · funext id
    exact filter_storeAll_other (fun embedding : Embedding α => embedding.chunk.filePath)
      file.embeddings file.known keyed.embeddings different id

theorem IsKeyed.addFile (keyed : snapshot.IsKeyed)
    (file : IsFileOf path record chunks embeddings) :
    (snapshot.addFile record chunks embeddings).IsKeyed where
  chunks := keyed_storeAll Chunk.filePath
    (fun chunk member => ⟨(file.chunks chunk member).filePath, (file.chunks chunk member).id⟩)
    file.known keyed.chunks
  embeddings := keyed_storeAll (fun embedding : Embedding α => embedding.chunk.filePath)
    file.embeddings file.known keyed.embeddings

theorem entriesOf_removeFile_self (snapshot : Snapshot α) (path : String) :
    (snapshot.removeFile path).entriesOf path = .none := by
  ext1
  · change (snapshot.files.erase path).get? path = none
    rw [OrderedMap.get?_erase, if_pos rfl]
  · funext id
    change ((snapshot.chunks.filter _).get? id).filter _ = none
    rw [OrderedMap.get?_filter, Option.filter_filter]
    simp [Option.filter_eq_none_iff]
  · funext id
    change ((snapshot.embeddings.filter _).get? id).filter _ = none
    rw [OrderedMap.get?_filter, Option.filter_filter]
    simp +contextual [Option.filter_eq_none_iff]

theorem mem_chunkIdsOf {id : String} : id ∈ snapshot.chunkIdsOf path ↔
    ∃ chunk, snapshot.chunks.get? id = some chunk ∧ chunk.filePath = path := by
  rw [chunkIdsOf, ← OrderedMap.contains_iff, OrderedMap.contains, OrderedMap.get?_filter,
    Option.isSome_filter]
  cases snapshot.chunks.get? id <;> simp

/-- No identifier of a file's chunks is that of another file's embedding. -/
theorem notMem_chunkIdsOf (keyed : snapshot.IsKeyed) {id : String}
    {embedding : Embedding α} (found : snapshot.embeddings.get? id = some embedding)
    (different : embedding.chunk.filePath ≠ path) :
    (snapshot.chunkIdsOf path).contains id = false := by
  rw [Bool.eq_false_iff, ne_eq, List.contains_iff_mem]
  intro member
  obtain ⟨chunk, stored, ofPath⟩ := mem_chunkIdsOf.mp member
  have ofChunk := keyed.chunks id chunk stored
  have ofEmbedding := keyed.embeddings id embedding found
  rw [ofPath] at ofChunk
  exact different (Chunk.isIdOf_unique ofEmbedding.2 ofChunk.2 ofEmbedding.1 ofChunk.1)

theorem entriesOf_removeFile_other (keyed : snapshot.IsKeyed) (different : other ≠ path) :
    (snapshot.removeFile path).entriesOf other = snapshot.entriesOf other := by
  ext1
  · change (snapshot.files.erase path).get? other = snapshot.files.get? other
    rw [OrderedMap.get?_erase, if_neg different]
  · funext id
    change ((snapshot.chunks.filter _).get? id).filter _ = (snapshot.chunks.get? id).filter _
    rw [OrderedMap.get?_filter, Option.filter_filter]
    congr 1
    funext chunk
    rw [Bool.and_eq_right_iff_imp]
    intro ofOther
    rw [beq_iff_eq.mp ofOther]
    exact bne_iff_ne.mpr different
  · funext id
    change ((snapshot.embeddings.filter _).get? id).filter _ =
      (snapshot.embeddings.get? id).filter _
    rw [OrderedMap.get?_filter, Option.filter_filter]
    cases found : snapshot.embeddings.get? id with
    | none => rfl
    | some embedding =>
      rw [Option.filter_some, Option.filter_some]
      congr 1
      rw [eq_iff_iff, Bool.and_eq_true, and_iff_right_iff_imp]
      intro ofOther
      rw [Bool.and_eq_true, Bool.not_eq_true', beq_iff_eq.mp ofOther]
      exact ⟨notMem_chunkIdsOf keyed found (beq_iff_eq.mp ofOther ▸ different),
        bne_iff_ne.mpr different⟩

/-- A chunk or an embedding that is left was there before. -/
theorem IsKeyed.removeFile (keyed : snapshot.IsKeyed) (path : String) :
    (snapshot.removeFile path).IsKeyed where
  chunks id chunk found := by
    change (snapshot.chunks.filter _).get? id = some chunk at found
    rw [OrderedMap.get?_filter, Option.filter_eq_some_iff] at found
    exact keyed.chunks id chunk found.1
  embeddings id embedding found := by
    change (snapshot.embeddings.filter _).get? id = some embedding at found
    rw [OrderedMap.get?_filter, Option.filter_eq_some_iff] at found
    exact keyed.embeddings id embedding found.1

private theorem get?_eq_of_filter {ν : Type} (fileOf : ν → String) {first second : Option ν}
    (same : ∀ path, first.filter (fun value => fileOf value == path) =
      second.filter fun value => fileOf value == path) : first = second := by
  apply Option.ext
  intro value
  have equal : first.filter (fun other => fileOf other == fileOf value) = some value ↔
      second.filter (fun other => fileOf other == fileOf value) = some value := by rw [same]
  simpa [Option.filter_eq_some_iff] using equal

/-- Snapshots that show the same chunks of every file hold the same chunks. -/
theorem chunks_eq_of_entriesOf {first second : Snapshot α}
    (same : ∀ path, (first.entriesOf path).chunks = (second.entriesOf path).chunks) (id : String) :
    first.chunks.get? id = second.chunks.get? id :=
  get?_eq_of_filter Chunk.filePath fun path => congrFun (same path) id

theorem embeddings_eq_of_entriesOf {first second : Snapshot α}
    (same : ∀ path, (first.entriesOf path).embeddings = (second.entriesOf path).embeddings)
    (id : String) : first.embeddings.get? id = second.embeddings.get? id :=
  get?_eq_of_filter (fun embedding : Embedding α => embedding.chunk.filePath)
    fun path => congrFun (same path) id

end Snapshot

namespace FileDraft

/-- The entries of a file whose chunks have been embedded. -/
def entries (draft : FileDraft α) : FileEntries α :=
  .of draft.record draft.chunks draft.embeddings

/-- A draft of a file that is indexed. -/
def IsOf (path : String) (draft : FileDraft α) : Prop :=
  IsFileOf path draft.record draft.chunks draft.embeddings

end FileDraft

namespace Session

variable {snapshot : Snapshot α} {path other : String} {draft : Option (FileDraft α)}

theorem projectPath_refreshed :
    (refreshed snapshot path draft).projectPath = snapshot.projectPath := by
  cases draft <;> rfl

/-- An update leaves of its file what it has loaded. -/
theorem entriesOf_refreshed_self (file : ∀ loaded ∈ draft, loaded.IsOf path) :
    (refreshed snapshot path draft).entriesOf path =
      (draft.map FileDraft.entries).getD .none := by
  cases draft with
  | none => exact snapshot.entriesOf_removeFile_self path
  | some loaded =>
    exact Snapshot.entriesOf_addFile_self (file loaded rfl)
      (snapshot.entriesOf_removeFile_self path)

theorem entriesOf_refreshed_other (keyed : snapshot.IsKeyed)
    (file : ∀ loaded ∈ draft, loaded.IsOf path) (different : other ≠ path) :
    (refreshed snapshot path draft).entriesOf other = snapshot.entriesOf other := by
  cases draft with
  | none => exact Snapshot.entriesOf_removeFile_other keyed different
  | some loaded =>
    exact (Snapshot.entriesOf_addFile_other (keyed.removeFile path) (file loaded rfl)
      different).trans (Snapshot.entriesOf_removeFile_other keyed different)

theorem keyed_refreshed (keyed : snapshot.IsKeyed)
    (file : ∀ loaded ∈ draft, loaded.IsOf path) : (refreshed snapshot path draft).IsKeyed := by
  have removed := keyed.removeFile path
  cases draft with
  | none => exact ⟨removed.chunks, removed.embeddings⟩
  | some loaded =>
    have added := removed.addFile (file loaded rfl)
    exact ⟨added.chunks, added.embeddings⟩

end Session

end CodeSearch
