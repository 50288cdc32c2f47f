import CodeSearch.Proofs.Index.Looks
import CodeSearch.Proofs.Index.Removal

/-! # Embeddings and their files

Every embedding of a snapshot is what the embedder has given for its chunk, and the file of the chunk
is one of the snapshot's files, however irregular the listings were.
-/

namespace CodeSearch

open Loading

variable {α : Type} [Scalar α]

namespace Snapshot

/-- Every stored embedding is that of its chunk, and the file of the chunk is known. -/
def EmbedsFiles (embedder : Embedder α) (snapshot : Snapshot α) : Prop :=
  ∀ id embedding, snapshot.embeddings.get? id = some embedding →
    embedding.chunk.filePath ∈ snapshot.files.keys ∧
      embedder.embedChunk embedding.chunk = .ok embedding.vector

variable {snapshot : Snapshot α} {embedder : Embedder α} {settings : Settings α}
  {moments : FileSystem → Prop} {root path : String} {record : FileRecord α} {chunks : List Chunk}

omit [Scalar α] in
theorem EmbedsFiles.removeFile (embeds : snapshot.EmbedsFiles embedder) (path : String) :
    (snapshot.removeFile path).EmbedsFiles embedder := by
  intro id embedding stored
  simp only [Snapshot.removeFile, OrderedMap.get?_filter, Option.filter_eq_some_iff] at stored
  obtain ⟨stored, kept⟩ := stored
  obtain ⟨known, vector⟩ := embeds id embedding stored
  rw [Bool.and_eq_true, bne_iff_ne] at kept
  refine ⟨?_, vector⟩
  rw [Snapshot.removeFile, OrderedMap.keys_erase, List.mem_filter]
  exact ⟨known, by simpa using kept.2⟩

/-- What a look at a file has given is added with its file. -/
theorem EmbedsFiles.addFile (embeds : snapshot.EmbedsFiles embedder)
    (looked : Looked settings moments root path (.loaded record chunks)) :
    (snapshot.addFile record chunks (embeddingsOf embedder chunks)).EmbedsFiles embedder := by
  have file : record.path = relativePath root path ∧
      ∀ chunk ∈ chunks, chunk.filePath = relativePath root path := by
    cases looked with
    | loaded files content now =>
      refine ⟨rfl, fun chunk member => ?_⟩
      exact (Splitting.chunks_isOf (fun symbol found => extractSymbols_isFound found) member).filePath
  have files : ∀ known, known ∈ snapshot.files.keys ∨ known = record.path →
      known ∈ (snapshot.addFile record chunks (embeddingsOf embedder chunks)).files.keys := by
    intro known either
    rw [Snapshot.addFile, OrderedMap.keys_insert]
    split
    · next there => exact either.elim id fun same => same ▸ there
    · exact List.mem_append.mpr (either.imp_right List.mem_singleton.mpr)
  intro id embedding stored
  simp only [Snapshot.addFile] at stored
  rw [get?_storeAll, Option.or_eq_some_iff] at stored
  rcases stored with own | ⟨-, earlier⟩
  · obtain ⟨chunk, inChunks, made⟩ := List.mem_filterMap.mp (mem_of_get?_storeAll own).1
    unfold FileDraft.embed at made
    split at made
    · next vector embedded =>
      cases made
      exact ⟨files _ (.inr ((file.2 chunk inChunks).trans file.1.symm)), embedded⟩
    · cases made
  · exact (embeds id embedding earlier).imp_left fun known => files _ (.inl known)

end Snapshot

/-- A draft knows the files of its embeddings. -/
theorem Built.embedsFiles {settings : Settings α} {embedder : Embedder α}
    {moments : FileSystem → Prop} {root : String} {paths : List String} {draft : Snapshot α}
    (built : Built settings embedder moments root paths draft) : draft.EmbedsFiles embedder := by
  induction built with
  | empty => intro id embedding stored; cases stored
  | skips _ _ _ _ _ _ _ ih => exact ih
  | adds _ _ _ _ _ _ looked ih => exact ih.addFile looked
  | dated _ _ _ _ ih => exact ih

end CodeSearch
