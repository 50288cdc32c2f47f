import CodeSearch.Proofs.Index.Looks

/-! # Snapshots that agree with themselves

A snapshot keeps records, chunks and embeddings in maps of their own. Where all that it shows of
every file comes from one look at that file, the three maps agree: chunks and embeddings stand under
their own identifiers, every chunk belongs to a file that is recorded, every embedding to a chunk of
the same file, and the identifiers of a file's chunks are those of one content.
-/

namespace CodeSearch

open Loading

variable {α : Type} [Scalar α]

namespace Snapshot

/-- The record of a file and the identifiers of its chunks are those of one content, which was read
from the file at one of the given moments. -/
def ShowsContent (settings : Settings α) (moments : FileSystem → Prop) (snapshot : Snapshot α)
    (relative : String) (record : FileRecord α) : Prop :=
  ∃ path files content now, moments files ∧
    relativePath snapshot.projectPath path = relative ∧ files.read path = .ok content ∧
    record = FileRecord.build relative content (languageTag relative) now ∧
    ∀ id, (∃ chunk, snapshot.chunks.get? id = some chunk ∧ chunk.filePath = relative) ↔
      ∃ chunk ∈ chunkFile settings relative content record.symbols (some record), chunk.id = id

/-- Records, chunks and embeddings agree. -/
structure IsCoherent (settings : Settings α) (moments : FileSystem → Prop)
    (snapshot : Snapshot α) : Prop where
  chunkIds : ∀ id chunk, snapshot.chunks.get? id = some chunk → chunk.id = id
  recorded : ∀ id chunk, snapshot.chunks.get? id = some chunk →
    ∃ record, snapshot.files.get? chunk.filePath = some record
  embeddingIds : ∀ id embedding, snapshot.embeddings.get? id = some embedding →
    embedding.chunkId = id
  embedded : ∀ id embedding, snapshot.embeddings.get? id = some embedding →
    ∃ chunk, snapshot.chunks.get? id = some chunk ∧ embedding.chunk.filePath = chunk.filePath
  contents : ∀ relative record, snapshot.files.get? relative = some record →
    snapshot.ShowsContent settings moments relative record

/-- Of every file the snapshot shows nothing, or what one look at the file has given. -/
def ShowsLooks (settings : Settings α) (embedder : Embedder α) (moments : FileSystem → Prop)
    (snapshot : Snapshot α) : Prop :=
  ∀ relative, snapshot.entriesOf relative = .none ∨
    ∃ path result, relativePath snapshot.projectPath path = relative ∧
      Looked settings moments snapshot.projectPath path result ∧
      snapshot.entriesOf relative = result.entries embedder

variable {settings : Settings α} {embedder : Embedder α} {moments : FileSystem → Prop}
  {snapshot : Snapshot α} {relative : String}

omit [Scalar α] in
/-- Something is stored under a key just if it is the key of one of the values. -/
theorem exists_get?_storeAll_iff {ν : Type} {key : ν → String} {values : List ν} {id : String} :
    (∃ value, (storeAll key ∅ values).get? id = some value) ↔ ∃ value ∈ values, key value = id := by
  refine ⟨fun ⟨value, found⟩ => ⟨value, mem_of_get?_storeAll found⟩, ?_⟩
  rintro ⟨value, member, rfl⟩
  induction values using List.reverseRecOn with
  | nil => cases member
  | append_singleton values last ih =>
    simp only [storeAll, List.foldl_append, List.foldl_cons, List.foldl_nil] at ih ⊢
    rw [OrderedMap.get?_insert]
    split
    · exact ⟨last, rfl⟩
    · next other =>
      rcases List.mem_append.mp member with earlier | here
      · exact ih earlier
      · exact absurd (congrArg key (List.mem_singleton.mp here)).symm other

private theorem ShowsLooks.loaded (looks : snapshot.ShowsLooks settings embedder moments)
    (shown : snapshot.entriesOf relative ≠ .none) :
    ∃ path files content now, moments files ∧
      relativePath snapshot.projectPath path = relative ∧ files.read path = .ok content ∧
      snapshot.entriesOf relative = (load settings now relative content).entries embedder := by
  rcases looks relative with none | ⟨path, result, named, looked, same⟩
  · exact absurd none shown
  · cases looked with
    | sizeFault => exact absurd same shown
    | oversize => exact absurd same shown
    | unread => exact absurd same shown
    | loaded files content now moment _ told =>
      exact ⟨path, files, content, now, moment, named, told, named ▸ same⟩

omit [Scalar α] in
private theorem entriesOf_chunks {id : String} {chunk : Chunk}
    (stored : snapshot.chunks.get? id = some chunk) :
    (snapshot.entriesOf chunk.filePath).chunks id = some chunk := by
  simp [entriesOf, stored]

omit [Scalar α] in
private theorem entriesOf_embeddings {id : String} {embedding : Embedding α}
    (stored : snapshot.embeddings.get? id = some embedding) :
    (snapshot.entriesOf embedding.chunk.filePath).embeddings id = some embedding := by
  simp [entriesOf, stored]

omit [Scalar α] in
private theorem ne_none_of_chunks {id : String} {chunk : Chunk}
    (shown : (snapshot.entriesOf relative).chunks id = some chunk) :
    snapshot.entriesOf relative ≠ .none := by
  intro none
  rw [none] at shown
  cases shown

omit [Scalar α] in
private theorem ne_none_of_embeddings {id : String} {embedding : Embedding α}
    (shown : (snapshot.entriesOf relative).embeddings id = some embedding) :
    snapshot.entriesOf relative ≠ .none := by
  intro none
  rw [none] at shown
  cases shown

omit [Scalar α] in
private theorem stored_iff {record : FileRecord α} {chunks : List Chunk}
    {embeddings : List (Embedding α)}
    (shown : snapshot.entriesOf relative = .of record chunks embeddings) (id : String) :
    (∃ chunk, snapshot.chunks.get? id = some chunk ∧ chunk.filePath = relative) ↔
      ∃ chunk ∈ chunks, chunk.id = id := by
  have same : (snapshot.entriesOf relative).chunks id = (storeAll Chunk.id ∅ chunks).get? id :=
    congrFun (congrArg FileEntries.chunks shown) id
  calc (∃ chunk, snapshot.chunks.get? id = some chunk ∧ chunk.filePath = relative)
      ↔ ∃ chunk, (snapshot.entriesOf relative).chunks id = some chunk := by
        simp [entriesOf, Option.filter_eq_some_iff]
    _ ↔ ∃ chunk, (storeAll Chunk.id ∅ chunks).get? id = some chunk := by rw [same]
    _ ↔ ∃ chunk ∈ chunks, chunk.id = id := exists_get?_storeAll_iff

/-- A snapshot that shows what looks at its files have given agrees with itself. -/
theorem ShowsLooks.isCoherent (looks : snapshot.ShowsLooks settings embedder moments) :
    snapshot.IsCoherent settings moments := by
  refine ⟨?_, ?_, ?_, ?_, ?_⟩
  · intro id chunk stored
    have shown := entriesOf_chunks stored
    obtain ⟨path, files, content, now, -, -, -, same⟩ := looks.loaded (ne_none_of_chunks shown)
    rw [same] at shown
    exact (mem_of_get?_storeAll shown).2
  · intro id chunk stored
    obtain ⟨path, files, content, now, -, -, -, same⟩ :=
      looks.loaded (ne_none_of_chunks (entriesOf_chunks stored))
    exact ⟨_, congrArg FileEntries.record same⟩
  · intro id embedding stored
    have shown := entriesOf_embeddings stored
    obtain ⟨path, files, content, now, -, -, -, same⟩ := looks.loaded (ne_none_of_embeddings shown)
    rw [same] at shown
    exact (mem_of_get?_storeAll shown).2
  · intro id embedding stored
    have shown := entriesOf_embeddings stored
    obtain ⟨path, files, content, now, -, -, -, same⟩ := looks.loaded (ne_none_of_embeddings shown)
    rw [same] at shown
    obtain ⟨member, rfl⟩ := mem_of_get?_storeAll shown
    obtain ⟨chunk, there, named⟩ := (stored_iff same embedding.chunkId).mpr
      ⟨embedding.chunk, mem_embeddingsOf member⟩
    exact ⟨chunk, there, named.symm⟩
  · intro relative record stored
    have shown : (snapshot.entriesOf relative).record = some record := stored
    have some : snapshot.entriesOf relative ≠ .none := by
      intro none
      rw [none] at shown
      cases shown
    obtain ⟨path, files, content, now, moment, named, told, same⟩ := looks.loaded some
    rw [same] at shown
    cases shown
    exact ⟨path, files, content, now, moment, named, told, rfl, stored_iff same⟩

end Snapshot

end CodeSearch
