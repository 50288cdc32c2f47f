import CodeSearch.Proofs.Index.FileEntries

/-! # Other files stay as they are, and where they are

A snapshot remembers the order in which things were stored. Replacing the entries of one file takes
and adds entries of this file only: what is stored under an identifier of the file belongs to it. So
everything that is known about other files stays, in the same order.
-/

namespace CodeSearch

namespace OrderedMap

variable {κ ν : Type} [DecidableEq κ]

private theorem filter_store {keep : κ × ν → Bool} {key : κ} {value : ν}
    (hidden : keep (key, value) = false) {entries : List (κ × ν)}
    (before : ∀ old, (key, old) ∈ entries → keep (key, old) = false) :
    (store key value entries).filter keep = entries.filter keep := by
  induction entries with
  | nil => simp [store, hidden]
  | cons entry rest ih =>
    obtain ⟨other, old⟩ := entry
    have further := ih fun old member => before old (List.mem_cons_of_mem _ member)
    by_cases same : other = key
    · subst same
      simp [store, hidden, before old List.mem_cons_self]
    · simp [store, same, List.filter_cons, further]

/-- Storing something out of sight where nothing in sight was leaves what is in sight. -/
theorem filter_entries_insert {keep : κ × ν → Bool} {map : OrderedMap κ ν} {key : κ} {value : ν}
    (hidden : keep (key, value) = false)
    (before : ∀ old, map.get? key = some old → keep (key, old) = false) :
    (map.insert key value).entries.filter keep = map.entries.filter keep :=
  filter_store hidden fun old member => before old ((map.get?_eq_some_iff key old).mpr member)

end OrderedMap

namespace Snapshot

variable {α : Type} {snapshot middle after : Snapshot α} {keep : String → Bool} {path : String}

/-- Of the files in question everything is the same, in the same order: the records, the chunks and
the embeddings, with the keys under which they are stored. -/
structure SameFor (keep : String → Bool) (snapshot after : Snapshot α) : Prop where
  files : after.files.entries.filter (fun entry => keep entry.1) =
    snapshot.files.entries.filter fun entry => keep entry.1
  chunks : after.chunks.entries.filter (fun entry => keep entry.2.filePath) =
    snapshot.chunks.entries.filter fun entry => keep entry.2.filePath
  embeddings : after.embeddings.entries.filter (fun entry => keep entry.2.chunk.filePath) =
    snapshot.embeddings.entries.filter fun entry => keep entry.2.chunk.filePath

theorem SameFor.refl (keep : String → Bool) (snapshot : Snapshot α) :
    snapshot.SameFor keep snapshot := ⟨rfl, rfl, rfl⟩

theorem SameFor.trans (first : snapshot.SameFor keep middle) (second : middle.SameFor keep after) :
    snapshot.SameFor keep after :=
  ⟨second.files.trans first.files, second.chunks.trans first.chunks,
    second.embeddings.trans first.embeddings⟩

section storeAll

variable {ν : Type} {key : ν → String}

/-- Values out of sight are stored out of sight, each under a key at which nothing in sight was. -/
theorem filter_entries_storeAll {keep : String × ν → Bool} {values : List ν}
    {map : OrderedMap String ν} (hidden : ∀ value ∈ values, keep (key value, value) = false)
    (before : ∀ value ∈ values, ∀ old, map.get? (key value) = some old →
      keep (key value, old) = false) :
    (storeAll key map values).entries.filter keep = map.entries.filter keep := by
  induction values generalizing map with
  | nil => rfl
  | cons value values ih =>
    have hiddenHere := hidden value List.mem_cons_self
    refine (ih (fun other member => hidden other (List.mem_cons_of_mem _ member)) ?_).trans
      (OrderedMap.filter_entries_insert hiddenHere (before value List.mem_cons_self))
    intro other member old stored
    rw [OrderedMap.get?_insert] at stored
    split at stored
    · next same =>
      cases stored
      rw [← same]
      exact hiddenHere
    · exact before other (List.mem_cons_of_mem _ member) old stored

private theorem filter_storeAll (fileOf : ν → String) {values : List ν}
    (ofPath : ∀ value ∈ values, fileOf value = path ∧ Chunk.IsIdOf path (key value))
    (known : isIndexable path = true) (hidden : keep path = false) {map : OrderedMap String ν}
    (keyed : ∀ id value, map.get? id = some value →
      Chunk.IsIdOf (fileOf value) id ∧ isIndexable (fileOf value) = true) :
    (storeAll key map values).entries.filter (fun entry => keep (fileOf entry.2)) =
      map.entries.filter fun entry => keep (fileOf entry.2) := by
  refine filter_entries_storeAll ?_ ?_
  · intro value member
    rw [(ofPath value member).1, hidden]
  · intro value member old stored
    obtain ⟨ofOld, knownOld⟩ := keyed _ old stored
    rw [Chunk.isIdOf_unique knownOld known ofOld (ofPath value member).2, hidden]

end storeAll

theorem sameFor_addFile {record : FileRecord α} {chunks : List Chunk}
    {embeddings : List (Embedding α)} (keyed : snapshot.IsKeyed)
    (file : IsFileOf path record chunks embeddings) (hidden : keep path = false) :
    snapshot.SameFor keep (snapshot.addFile record chunks embeddings) where
  files := OrderedMap.filter_entries_insert (file.record ▸ hidden) fun _ _ => file.record ▸ hidden
  chunks := filter_storeAll Chunk.filePath
    (fun chunk member => ⟨(file.chunks chunk member).filePath, (file.chunks chunk member).id⟩)
    file.known hidden keyed.chunks
  embeddings := filter_storeAll (fun embedding : Embedding α => embedding.chunk.filePath)
    file.embeddings file.known hidden keyed.embeddings

private theorem ne_of_keep {other : String} (hidden : keep path = false)
    (kept : keep other = true) : other ≠ path := by
  rintro rfl
  cases hidden.symm.trans kept

theorem sameFor_removeFile (keyed : snapshot.IsKeyed) (hidden : keep path = false) :
    snapshot.SameFor keep (snapshot.removeFile path) where
  files := by
    refine List.filter_filter.trans (List.filter_congr ?_)
    rintro ⟨other, record⟩ -
    simpa using ne_of_keep hidden
  chunks := by
    refine List.filter_filter.trans (List.filter_congr ?_)
    rintro ⟨id, chunk⟩ -
    simpa using ne_of_keep hidden
  embeddings := by
    refine List.filter_filter.trans (List.filter_congr ?_)
    rintro ⟨id, embedding⟩ member
    rw [Bool.and_eq_left_iff_imp]
    intro kept
    have different := ne_of_keep hidden kept
    have found := (snapshot.embeddings.get?_eq_some_iff id embedding).mpr member
    rw [Bool.and_eq_true, Bool.not_eq_true']
    exact ⟨notMem_chunkIdsOf keyed found different, bne_iff_ne.mpr different⟩

end Snapshot

namespace Session

variable {α : Type} {snapshot : Snapshot α} {keep : String → Bool} {path : String}
  {draft : Option (FileDraft α)}

/-- Replacing the entries of a file leaves those of all others. -/
theorem sameFor_refreshed (keyed : snapshot.IsKeyed) (file : ∀ loaded ∈ draft, loaded.IsOf path)
    (hidden : keep path = false) : snapshot.SameFor keep (refreshed snapshot path draft) := by
  have removed := Snapshot.sameFor_removeFile keyed hidden
  cases draft with
  | none => exact removed.trans ⟨rfl, rfl, rfl⟩
  | some loaded =>
    have added := Snapshot.sameFor_addFile (keyed.removeFile path) (file loaded rfl) hidden
    exact (removed.trans added).trans ⟨rfl, rfl, rfl⟩

end Session

end CodeSearch
