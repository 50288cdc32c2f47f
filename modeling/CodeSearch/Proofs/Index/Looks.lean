import CodeSearch.Proofs.Files.Walking
import CodeSearch.Proofs.Index.FileEntries

/-! # What is known comes from looks at files

The files may change between any two looks, so what is known about a file is described by the
moments at which it was looked at: its size at one, its content at another. A draft of a project is
a sequence of such looks, and it shows of every file what the look at that file gave.
-/

namespace CodeSearch

variable {α : Type} [Scalar α]

namespace Loading

/-- How far the loading of a file may have come by looks that were made at the given moments. -/
inductive Reached (settings : Settings α) (moments : FileSystem → Prop) (path : String) :
    LoadPoint → Prop where
  | sizing : Reached settings moments path .sizing
  | reading (files : FileSystem) (size : Option Int) (moment : moments files)
      (told : files.size path = .ok size)
      (small : (size.any fun size => decide (settings.maxFileSize < size)) = false) :
      Reached settings moments path .reading
  | carrying (files : FileSystem) (moment : moments files)
      (sized : Reached settings moments path .reading) :
      Reached settings moments path (.carrying (files.read path))

/-- What the loading of a file may give by looks that were made at the given moments. -/
inductive Looked (settings : Settings α) (moments : FileSystem → Prop) (root path : String) :
    LoadResult α → Prop where
  | sizeFault (files : FileSystem) (fault : FileFault) (moment : moments files)
      (told : files.size path = .error fault) :
      Looked settings moments root path (.failed (faultMessage (relativePath root path) fault))
  | oversize (files : FileSystem) (size : Option Int) (moment : moments files)
      (told : files.size path = .ok size)
      (large : (size.any fun size => decide (settings.maxFileSize < size)) = true) :
      Looked settings moments root path .oversize
  | unread (files : FileSystem) (fault : FileFault) (moment : moments files)
      (sized : Reached settings moments path .reading) (told : files.read path = .error fault) :
      Looked settings moments root path (.failed (faultMessage (relativePath root path) fault))
  | loaded (files : FileSystem) (content : String) (now : α) (moment : moments files)
      (sized : Reached settings moments path .reading) (told : files.read path = .ok content) :
      Looked settings moments root path (load settings now (relativePath root path) content)

variable {settings : Settings α} {moments : FileSystem → Prop} {files : FileSystem} {now : α}
  {root path : String} {point : LoadPoint}

theorem Reached.goesOn {next : LoadPoint} (reached : Reached settings moments path point)
    (moment : moments files) (step : Loading.step settings files now root path point = .next next) :
    Reached settings moments path next := by
  cases reached with
  | sizing =>
    simp only [Loading.step] at step
    split at step
    · cases step
    · next size told =>
      split at step
      · cases step
      · next small =>
        cases step
        exact .reading files size moment told (Bool.eq_false_iff.mpr small)
  | reading other size before told small =>
    cases step
    exact .carrying files moment (.reading other size before told small)
  | carrying other before sized =>
    cases content : other.read path <;> rw [content] at step <;> cases step

theorem Reached.ends {result : LoadResult α} (reached : Reached settings moments path point)
    (moment : moments files) (step : Loading.step settings files now root path point = .last result) :
    Looked settings moments root path result := by
  cases reached with
  | sizing =>
    simp only [Loading.step] at step
    split at step
    · next fault told =>
      cases step
      exact .sizeFault files fault moment told
    · next size told =>
      split at step
      · next large =>
        cases step
        exact .oversize files size moment told large
      · cases step
  | reading => cases step
  | carrying other before sized =>
    cases content : other.read path with
    | ok text =>
      rw [content] at step
      cases step
      exact .loaded other text now before sized content
    | error fault =>
      rw [content] at step
      cases step
      exact .unread other fault before sized content

/-- A record and chunks that were loaded carry the path by which the project knows the file. -/
theorem Looked.isFileOf {record : FileRecord α} {chunks : List Chunk}
    (looked : Looked settings moments root path (.loaded record chunks))
    (known : isIndexable (relativePath root path) = true) (embedder : Embedder α) :
    IsFileOf (relativePath root path) record chunks (embeddingsOf embedder chunks) := by
  cases looked with
  | loaded files content now =>
    refine isFileOf_embeddingsOf embedder rfl known ?_
    intro chunk member
    exact Splitting.chunks_isOf (fun symbol found => extractSymbols_isFound found) member

end Loading

namespace FileDraft

/-- The chunks that are done have their embeddings. -/
def InHand (embedder : Embedder α) (draft : FileDraft α) : Prop :=
  ∃ done, draft.chunks = done ++ draft.remaining ∧ draft.embeddings = embeddingsOf embedder done

variable {embedder : Embedder α} {draft : FileDraft α}

omit [Scalar α] in
theorem inHand_start (embedder : Embedder α) (record : FileRecord α) (chunks : List Chunk) :
    (start record chunks).InHand embedder := ⟨[], rfl, rfl⟩

omit [Scalar α] in
/-- A batch adds the embeddings of its chunks. -/
theorem embeddings_embedBatch (draft : FileDraft α) (embedder : Embedder α) (size : Int) :
    (draft.embedBatch embedder size).1.embeddings =
      draft.embeddings ++ embeddingsOf embedder (draft.remaining.take size.toNat) := by
  change draft.embeddings ++ _ = _
  rw [embeddingsOf, List.filterMap_map]
  congr 2
  funext chunk
  simp only [Function.comp_apply]
  cases embed embedder chunk <;> rfl

omit [Scalar α] in
theorem InHand.embedBatch (inHand : draft.InHand embedder) (size : Int) :
    (draft.embedBatch embedder size).1.InHand embedder := by
  obtain ⟨done, chunks, embeddings⟩ := inHand
  refine ⟨done ++ draft.remaining.take size.toNat, ?_, ?_⟩
  · change draft.chunks = _ ++ draft.remaining.drop size.toNat
    rw [List.append_assoc, List.take_append_drop, chunks]
  · rw [embeddings_embedBatch, embeddings]
    exact List.filterMap_append.symm

omit [Scalar α] in
/-- When no chunk is left, all have been embedded. -/
theorem InHand.embeddings (inHand : draft.InHand embedder) (finished : draft.remaining = []) :
    draft.embeddings = embeddingsOf embedder draft.chunks := by
  obtain ⟨done, chunks, embeddings⟩ := inHand
  rw [embeddings, chunks, finished, List.append_nil]

end FileDraft

open Loading

/-- A draft of a project after looks at the given files, each made at one of the given moments. -/
inductive Built (settings : Settings α) (embedder : Embedder α) (moments : FileSystem → Prop)
    (root : String) : List String → Snapshot α → Prop where
  | empty (cache : QueryCache α (List (Hit α))) (indexedAt : α) :
      Built settings embedder moments root [] { projectPath := root, cache, indexedAt }
  | skips (path : String) (paths : List String) (draft : Snapshot α) (result : LoadResult α)
      (before : Built settings embedder moments root paths draft)
      (looked : Looked settings moments root path result)
      (nothing : ∀ record chunks, result ≠ .loaded record chunks) :
      Built settings embedder moments root (paths ++ [path]) draft
  | adds (path : String) (paths : List String) (draft : Snapshot α) (record : FileRecord α)
      (chunks : List Chunk) (before : Built settings embedder moments root paths draft)
      (looked : Looked settings moments root path (.loaded record chunks)) :
      Built settings embedder moments root (paths ++ [path])
        (draft.addFile record chunks (embeddingsOf embedder chunks))
  | dated (paths : List String) (draft : Snapshot α) (indexedAt : α)
      (before : Built settings embedder moments root paths draft) :
      Built settings embedder moments root paths { draft with indexedAt }

namespace Built

variable {settings : Settings α} {embedder : Embedder α} {moments : FileSystem → Prop}
  {root : String} {paths : List String} {draft : Snapshot α}

theorem projectPath (built : Built settings embedder moments root paths draft) :
    draft.projectPath = root := by
  induction built with
  | empty => rfl
  | skips _ _ _ _ _ _ _ ih => exact ih
  | adds _ _ _ _ _ _ _ ih => exact ih
  | dated _ _ _ _ ih => exact ih

theorem keyed (built : Built settings embedder moments root paths draft)
    (known : ∀ path ∈ paths, isIndexable (relativePath root path) = true) : draft.IsKeyed := by
  induction built with
  | empty =>
    refine ⟨?_, ?_⟩
    · intro id chunk found
      cases found
    · intro id embedding found
      cases found
  | skips path paths _ _ _ _ _ ih =>
    exact ih fun other member => known other (List.mem_append.mpr (.inl member))
  | adds path paths draft record chunks before looked ih =>
    have keyed := ih fun other member => known other (List.mem_append.mpr (.inl member))
    exact keyed.addFile (looked.isFileOf (known path (by simp)) embedder)
  | dated _ _ _ _ ih => exact ⟨(ih known).chunks, (ih known).embeddings⟩

/-- A draft shows what the looks at its files have given, and nothing of other files. -/
theorem entries (built : Built settings embedder moments root paths draft)
    (known : ∀ path ∈ paths, isIndexable (relativePath root path) = true)
    (distinct : (paths.map (relativePath root)).Nodup) :
    (∀ path ∈ paths, ∃ result, Looked settings moments root path result ∧
      draft.entriesOf (relativePath root path) = result.entries embedder) ∧
    ∀ relative, relative ∉ paths.map (relativePath root) → draft.entriesOf relative = .none := by
  induction built with
  | empty => exact ⟨by simp, fun _ _ => rfl⟩
  | skips path paths draft result before looked nothing ih =>
    rw [List.map_append, List.map_singleton, List.nodup_append] at distinct
    obtain ⟨shown, hidden⟩ :=
      ih (fun other member => known other (List.mem_append.mpr (.inl member))) distinct.1
    have fresh : relativePath root path ∉ paths.map (relativePath root) := fun member =>
      distinct.2.2 _ member _ (by simp) rfl
    refine ⟨?_, ?_⟩
    · intro other member
      rcases List.mem_append.mp member with earlier | last
      · exact shown other earlier
      · rw [List.mem_singleton.mp last]
        refine ⟨result, looked, (hidden _ fresh).trans ?_⟩
        cases result with
        | loaded record chunks => exact absurd rfl (nothing record chunks)
        | oversize => rfl
        | failed message => rfl
    · intro relative absent
      rw [List.map_append, List.mem_append, not_or] at absent
      exact hidden relative absent.1
  | adds path paths draft record chunks before looked ih =>
    rw [List.map_append, List.map_singleton, List.nodup_append] at distinct
    have knownBefore : ∀ other ∈ paths, isIndexable (relativePath root other) = true :=
      fun other member => known other (List.mem_append.mpr (.inl member))
    obtain ⟨shown, hidden⟩ := ih knownBefore distinct.1
    have file := looked.isFileOf (known path (by simp)) embedder
    have others : ∀ relative, relative ≠ relativePath root path →
        (draft.addFile record chunks (embeddingsOf embedder chunks)).entriesOf relative =
          draft.entriesOf relative := fun relative different =>
      Snapshot.entriesOf_addFile_other (before.keyed knownBefore) file different
    have fresh : relativePath root path ∉ paths.map (relativePath root) := fun member =>
      distinct.2.2 _ member _ (by simp) rfl
    refine ⟨?_, ?_⟩
    · intro other member
      rcases List.mem_append.mp member with earlier | last
      · rw [others _ fun same => fresh (same ▸ List.mem_map_of_mem earlier)]
        exact shown other earlier
      · rw [List.mem_singleton.mp last]
        exact ⟨_, looked, Snapshot.entriesOf_addFile_self file (hidden _ fresh)⟩
    · intro relative absent
      rw [List.map_append, List.map_singleton, List.mem_append, List.mem_singleton, not_or]
        at absent
      rw [others relative absent.2]
      exact hidden relative absent.1
  | dated paths draft indexedAt before ih => exact ih known distinct

end Built

end CodeSearch
