import CodeSearch.Proofs.Index.Isolation

/-! # The removal of a file

Chunks are removed by their file, embeddings by the identifiers of these chunks and by the chunk
that they carry. The three maps of a snapshot may be out of step: a chunk takes the place of another
one with its identifier, of any file, a chunk may have no embedding, and an embedding stays when its
chunk is dropped or replaced. Whatever has happened to a snapshot, a removal takes all that is left
of the file, and of other files only embeddings that stand under an identifier of a removed chunk.
-/

namespace CodeSearch

namespace OrderedMap

variable {κ ν : Type}

theorem filter_filter (map : OrderedMap κ ν) (first second : κ → ν → Bool) :
    (map.filter first).filter second =
      map.filter fun key value => first key value && second key value := by
  apply ext
  exact List.filter_filter.trans (List.filter_congr fun entry _ => Bool.and_comm ..)

/-- What is left out and what is kept make up the map. -/
theorem size_filter_add_size_filter (map : OrderedMap κ ν) (drop : κ → ν → Bool) :
    (map.filter drop).size + (map.filter fun key value => !drop key value).size = map.size := by
  have parts := List.length_eq_countP_add_countP (fun entry : κ × ν => drop entry.1 entry.2)
    (l := map.entries)
  simpa [size, filter, List.countP_eq_length_filter] using parts.symm

variable [DecidableEq κ]

theorem mem_values_iff {map : OrderedMap κ ν} {value : ν} :
    value ∈ map.values ↔ ∃ key, map.get? key = some value := by
  simp only [values, List.mem_map, Prod.exists, exists_eq_right, get?_eq_some_iff]

/-- Erasing keys one after another leaves the entries under other keys. -/
theorem foldl_erase (map : OrderedMap κ ν) (keys : List κ) :
    keys.foldl erase map = map.filter fun key _ => !keys.contains key := by
  induction keys generalizing map with
  | nil => exact ext (List.filter_eq_self.mpr fun _ _ => rfl).symm
  | cons first keys ih =>
    rw [List.foldl_cons, ih, erase, filter_filter]
    congr 1
    funext key _
    rw [List.contains_cons, Bool.not_or, decide_not, beq_eq_decide]

/-- Erasing the keys of some entries leaves the other entries. -/
theorem foldl_erase_keys_filter (map : OrderedMap κ ν) (drop : κ → ν → Bool) :
    (map.filter drop).keys.foldl erase map = map.filter fun key value => !drop key value := by
  rw [foldl_erase]
  apply ext
  refine List.filter_congr ?_
  rintro ⟨key, value⟩ member
  have found := (map.get?_eq_some_iff key value).mpr member
  have erased : (map.filter drop).keys.contains key = drop key value := by
    rw [Bool.eq_iff_iff, List.contains_iff_mem, ← contains_iff, contains, get?_filter, found,
      Option.isSome_filter, Option.any_some]
  exact congrArg not erased

end OrderedMap

namespace Snapshot

variable {α : Type}

/-! ## A removal, step by step -/

/-- Takes out the chunk and the embedding under an identifier. -/
def dropEntry (snapshot : Snapshot α) (id : String) : Snapshot α :=
  { snapshot with
    chunks := snapshot.chunks.erase id
    embeddings := snapshot.embeddings.erase id }

/-- Removes a file entry by entry: each of its chunks with the embedding under the same identifier,
then the embeddings of the file that are left. The number is that of the chunks. -/
def removeStepwise (snapshot : Snapshot α) (path : String) : Snapshot α × Nat :=
  let ids := snapshot.chunkIdsOf path
  let cleared := ids.foldl dropEntry { snapshot with files := snapshot.files.erase path }
  let orphans := (cleared.embeddings.filter fun _ embedding => embedding.chunk.filePath == path).keys
  ({ cleared with embeddings := orphans.foldl OrderedMap.erase cleared.embeddings }, ids.length)

theorem foldl_dropEntry (snapshot : Snapshot α) (ids : List String) :
    ids.foldl dropEntry snapshot =
      { snapshot with
        chunks := ids.foldl OrderedMap.erase snapshot.chunks
        embeddings := ids.foldl OrderedMap.erase snapshot.embeddings } := by
  induction ids generalizing snapshot with
  | nil => rfl
  | cons id ids ih => exact ih (snapshot.dropEntry id)

/-- Entry by entry or at once, the same is left. -/
theorem removeStepwise_eq (snapshot : Snapshot α) (path : String) :
    snapshot.removeStepwise path =
      (snapshot.removeFile path, (snapshot.chunkIdsOf path).length) := by
  have chunks : (snapshot.chunkIdsOf path).foldl OrderedMap.erase snapshot.chunks =
      snapshot.chunks.filter fun _ chunk => chunk.filePath != path :=
    OrderedMap.foldl_erase_keys_filter ..
  simp only [removeStepwise, foldl_dropEntry, chunks, OrderedMap.foldl_erase_keys_filter]
  rw [OrderedMap.foldl_erase, OrderedMap.filter_filter]
  rfl

/-! ## Histories of a snapshot -/

/-- One change of a snapshot: a file is added or removed, or a single chunk is dropped. -/
inductive Edit (α : Type) where
  | add (record : FileRecord α) (chunks : List Chunk) (embeddings : List (Embedding α))
  | remove (path : String)
  | drop (id : String)

def edit (snapshot : Snapshot α) : Edit α → Snapshot α
  | .add record chunks embeddings => snapshot.addFile record chunks embeddings
  | .remove path => snapshot.removeFile path
  | .drop id => snapshot.dropChunk id

/-- Makes changes one after another. -/
def editAll (snapshot : Snapshot α) (edits : List (Edit α)) : Snapshot α := edits.foldl edit snapshot

/-- Every value is stored under its own identifier. -/
def StoresOwn {ν : Type} (key : ν → String) (map : OrderedMap String ν) : Prop :=
  ∀ id value, map.get? id = some value → key value = id

section StoresOwn

variable {ν : Type} {key : ν → String} {map : OrderedMap String ν}

theorem storesOwn_empty : StoresOwn key ∅ := fun _ _ found => by cases found

theorem StoresOwn.filter (own : StoresOwn key map) (keep : String → ν → Bool) :
    StoresOwn key (map.filter keep) := by
  intro id value found
  rw [OrderedMap.get?_filter, Option.filter_eq_some_iff] at found
  exact own id value found.1

theorem StoresOwn.storeAll (own : StoresOwn key map) (values : List ν) :
    StoresOwn key (storeAll key map values) := by
  intro id value found
  rw [get?_storeAll, Option.or_eq_some_iff] at found
  rcases found with added | ⟨-, before⟩
  · exact (mem_of_get?_storeAll added).2
  · exact own id value before

end StoresOwn

/-- Chunks and embeddings are stored under their own identifiers. This is all that a history
ensures: an identifier may belong to another file than it did, and to an embedding alone. -/
structure IsOwn (snapshot : Snapshot α) : Prop where
  chunks : StoresOwn Chunk.id snapshot.chunks
  embeddings : StoresOwn Embedding.chunkId snapshot.embeddings

variable {snapshot : Snapshot α} {path : String} {record : FileRecord α} {chunks : List Chunk}
  {embeddings : List (Embedding α)}

theorem IsOwn.edit (own : snapshot.IsOwn) (change : Edit α) : (snapshot.edit change).IsOwn := by
  cases change with
  | add record chunks embeddings =>
    exact ⟨own.chunks.storeAll chunks, own.embeddings.storeAll embeddings⟩
  | remove path => exact ⟨own.chunks.filter _, own.embeddings.filter _⟩
  | drop id => exact ⟨own.chunks.filter _, own.embeddings⟩

theorem IsOwn.editAll (own : snapshot.IsOwn) (edits : List (Edit α)) :
    (snapshot.editAll edits).IsOwn := by
  induction edits generalizing snapshot with
  | nil => exact own
  | cons change edits ih => exact ih (own.edit change)

/-! ## What is left -/

/-- A file occurs nowhere: it has no record, no chunk and no embedding. -/
structure Lacks (snapshot : Snapshot α) (path : String) : Prop where
  files : path ∉ snapshot.files.keys
  chunks : ∀ chunk ∈ snapshot.chunks.values, chunk.filePath ≠ path
  embeddings : ∀ embedding ∈ snapshot.embeddings.values, embedding.chunk.filePath ≠ path

/-- What the removal of a file leaves, and how many chunks it takes. -/
structure IsRemovalOf (path : String) (count : Nat) (snapshot after : Snapshot α) : Prop where
  lacks : after.Lacks path
  files : after.files.entries = snapshot.files.entries.filter fun entry => entry.1 ≠ path
  chunks : after.chunks.entries =
    snapshot.chunks.entries.filter fun entry => entry.2.filePath ≠ path
  /-- Embeddings of other files go if they stand under the identifier of a removed chunk. -/
  embeddings : after.embeddings.entries =
    snapshot.embeddings.entries.filter fun entry =>
      entry.2.chunk.filePath ≠ path ∧ ∀ chunk ∈ snapshot.chunksOf path, chunk.id ≠ entry.2.chunkId
  count : count + after.chunks.size = snapshot.chunks.size
  projectPath : after.projectPath = snapshot.projectPath
  cache : after.cache = snapshot.cache
  indexedAt : after.indexedAt = snapshot.indexedAt

/-- A record with chunks and embeddings of one file, none of them under an identifier in use. The
identifiers of the chunks are not in use for embeddings either: one of a dropped chunk of another
file would be removed with the new chunk. Among the new ones, identifiers may repeat. -/
structure IsNewFile (snapshot : Snapshot α) (path : String) (record : FileRecord α)
    (chunks : List Chunk) (embeddings : List (Embedding α)) : Prop where
  record : record.path = path
  chunks : ∀ chunk ∈ chunks, chunk.filePath = path ∧
    chunk.id ∉ snapshot.chunks.keys ∧ chunk.id ∉ snapshot.embeddings.keys
  embeddings : ∀ embedding ∈ embeddings, embedding.chunk.filePath = path ∧
    embedding.chunkId ∉ snapshot.embeddings.keys

private theorem ne_of_hidden {ν : Type} (fileOf : ν → String) {map : OrderedMap String ν}
    (hidden : ∀ id, (map.get? id).filter (fun value => fileOf value == path) = none) {value : ν}
    (member : value ∈ map.values) : fileOf value ≠ path := by
  obtain ⟨id, found⟩ := OrderedMap.mem_values_iff.mp member
  have absent := hidden id
  rw [found, Option.filter_eq_none_iff] at absent
  exact fun same => absent value rfl (beq_iff_eq.mpr same)

theorem lacks_of_entriesOf (empty : snapshot.entriesOf path = .none) : snapshot.Lacks path where
  files := (OrderedMap.get?_eq_none_iff _ _).mp (congrArg FileEntries.record empty)
  chunks _ := ne_of_hidden Chunk.filePath (congrFun (congrArg FileEntries.chunks empty))
  embeddings _ := ne_of_hidden (fun embedding : Embedding α => embedding.chunk.filePath)
    (congrFun (congrArg FileEntries.embeddings empty))

/-- The identifiers under which chunks of a file are stored are their own. -/
theorem IsOwn.mem_chunkIdsOf_iff (own : snapshot.IsOwn) {id : String} :
    id ∈ snapshot.chunkIdsOf path ↔ ∃ chunk ∈ snapshot.chunksOf path, chunk.id = id := by
  simp only [mem_chunkIdsOf, chunksOf, List.mem_filter, OrderedMap.mem_values_iff, beq_iff_eq]
  constructor
  · rintro ⟨chunk, found, ofPath⟩
    exact ⟨chunk, ⟨⟨id, found⟩, ofPath⟩, own.chunks id chunk found⟩
  · rintro ⟨chunk, ⟨⟨key, found⟩, ofPath⟩, rfl⟩
    exact ⟨chunk, own.chunks key chunk found ▸ found, ofPath⟩

theorem IsOwn.isRemovalOf_removeFile (own : snapshot.IsOwn) (path : String) :
    snapshot.IsRemovalOf path (snapshot.chunkIdsOf path).length (snapshot.removeFile path) where
  lacks := lacks_of_entriesOf (entriesOf_removeFile_self snapshot path)
  files := rfl
  chunks := List.filter_congr fun _ _ => decide_not.symm
  embeddings := by
    refine List.filter_congr ?_
    rintro ⟨id, embedding⟩ member
    have stored := own.embeddings id embedding ((OrderedMap.get?_eq_some_iff ..).mpr member)
    rw [Bool.eq_iff_iff, Bool.and_eq_true, decide_eq_true_eq, and_comm, bne_iff_ne,
      Bool.not_eq_true', ← Bool.not_eq_true, List.contains_iff_mem, own.mem_chunkIdsOf_iff]
    simp only [stored, not_exists, not_and, ne_eq]
  count := by
    have size : (snapshot.chunkIdsOf path).length =
        (snapshot.chunks.filter fun _ chunk => chunk.filePath == path).size := List.length_map _
    rw [size]
    exact OrderedMap.size_filter_add_size_filter ..
  projectPath := rfl
  cache := rfl
  indexedAt := rfl

/-! ## A file that comes and goes -/

/-- Leaving out values that were stored under keys not in use gives the map without them. -/
theorem filter_storeAll_of_unused {ν : Type} {key : ν → String} {map : OrderedMap String ν}
    {values : List ν} {keep : String → ν → Bool}
    (hidden : ∀ value ∈ values, key value ∉ map.keys ∧ keep (key value) value = false)
    (shown : ∀ id value, map.get? id = some value → keep id value = true) :
    (storeAll key map values).filter keep = map := by
  apply OrderedMap.ext
  refine (filter_entries_storeAll (fun value member => (hidden value member).2) ?_).trans ?_
  · intro value member old stored
    rw [(map.get?_eq_none_iff (key value)).mpr (hidden value member).1] at stored
    cases stored
  · refine List.filter_eq_self.mpr fun entry member => ?_
    exact shown entry.1 entry.2 ((map.get?_eq_some_iff ..).mpr member)

/-- Where nothing of a file was, its chunks are stored under the identifiers of the new ones. -/
theorem Lacks.exists_of_mem_chunkIdsOf (lacks : snapshot.Lacks path) {id : String}
    (member : id ∈ (snapshot.addFile record chunks embeddings).chunkIdsOf path) :
    ∃ chunk ∈ chunks, chunk.id = id := by
  obtain ⟨chunk, stored, ofPath⟩ := mem_chunkIdsOf.mp member
  change (storeAll Chunk.id snapshot.chunks chunks).get? id = some chunk at stored
  rw [get?_storeAll, Option.or_eq_some_iff] at stored
  rcases stored with added | ⟨-, before⟩
  · exact ⟨chunk, mem_of_get?_storeAll added⟩
  · exact absurd ofPath (lacks.chunks chunk (OrderedMap.mem_values_iff.mpr ⟨id, before⟩))

section

variable (lacks : snapshot.Lacks path) (new : snapshot.IsNewFile path record chunks embeddings)
include lacks new

private theorem files_removeFile_addFile :
    ((snapshot.addFile record chunks embeddings).removeFile path).files = snapshot.files := by
  change (storeAll FileRecord.path snapshot.files [record]).filter
    (fun key _ => decide (key ≠ path)) = snapshot.files
  refine filter_storeAll_of_unused ?_ ?_
  · intro added member
    rw [List.mem_singleton.mp member, new.record]
    exact ⟨lacks.files, decide_eq_false (not_not_intro rfl)⟩
  · rintro key old stored
    refine decide_eq_true ?_
    rintro rfl
    exact lacks.files ((snapshot.files.contains_iff key).mp (Option.isSome_of_eq_some stored))

private theorem chunks_removeFile_addFile :
    ((snapshot.addFile record chunks embeddings).removeFile path).chunks = snapshot.chunks := by
  change (storeAll Chunk.id snapshot.chunks chunks).filter
    (fun _ chunk => chunk.filePath != path) = snapshot.chunks
  refine filter_storeAll_of_unused ?_ ?_
  · intro chunk member
    obtain ⟨ofPath, unused, -⟩ := new.chunks chunk member
    exact ⟨unused, bne_eq_false_iff_eq.mpr ofPath⟩
  · intro id chunk stored
    exact bne_iff_ne.mpr (lacks.chunks chunk (OrderedMap.mem_values_iff.mpr ⟨id, stored⟩))

private theorem embeddings_removeFile_addFile :
    ((snapshot.addFile record chunks embeddings).removeFile path).embeddings =
      snapshot.embeddings := by
  change (storeAll Embedding.chunkId snapshot.embeddings embeddings).filter
    (fun id embedding =>
      !((snapshot.addFile record chunks embeddings).chunkIdsOf path).contains id &&
        embedding.chunk.filePath != path) = snapshot.embeddings
  refine filter_storeAll_of_unused ?_ ?_
  · intro embedding member
    obtain ⟨ofPath, unused⟩ := new.embeddings embedding member
    rw [bne_eq_false_iff_eq.mpr ofPath, Bool.and_false]
    exact ⟨unused, rfl⟩
  · intro id embedding stored
    have other := lacks.embeddings embedding (OrderedMap.mem_values_iff.mpr ⟨id, stored⟩)
    rw [bne_iff_ne.mpr other, Bool.and_true, Bool.not_eq_true', ← Bool.not_eq_true,
      List.contains_iff_mem]
    intro taken
    obtain ⟨chunk, member, rfl⟩ := lacks.exists_of_mem_chunkIdsOf taken
    exact (new.chunks chunk member).2.2
      ((snapshot.embeddings.contains_iff chunk.id).mp (Option.isSome_of_eq_some stored))

/-- A new file comes and goes without a trace. -/
theorem removeFile_addFile :
    (snapshot.addFile record chunks embeddings).removeFile path = snapshot :=
  (Snapshot.mk.injEq ..).mpr ⟨rfl, rfl, rfl, files_removeFile_addFile lacks new,
    chunks_removeFile_addFile lacks new, embeddings_removeFile_addFile lacks new⟩

end

/-- Whatever has happened to a snapshot, the removal of a file takes all that is left of it and, of
other files, only embeddings under an identifier of a removed chunk; what stays keeps its order. A
new file that is added and removed leaves no trace. -/
theorem removal_is_complete_and_exact {projectPath : String}
    {cache : QueryCache α (List (Hit α))} {indexedAt : α} {edits : List (Edit α)}
    (made : ({ projectPath, cache, indexedAt } : Snapshot α).editAll edits = snapshot)
    (path : String) :
    snapshot.IsRemovalOf path (snapshot.chunkIdsOf path).length (snapshot.removeFile path) ∧
      ∀ record chunks embeddings, snapshot.Lacks path →
        snapshot.IsNewFile path record chunks embeddings →
          (snapshot.addFile record chunks embeddings).removeFile path = snapshot := by
  have new : ({ projectPath, cache, indexedAt } : Snapshot α).IsOwn :=
    ⟨storesOwn_empty, storesOwn_empty⟩
  have own : snapshot.IsOwn := made ▸ new.editAll edits
  exact ⟨own.isRemovalOf_removeFile path, fun _ _ _ lacks file => removeFile_addFile lacks file⟩

def chunkAt (id filePath : String) : Chunk := { (default : Chunk) with id, filePath }

def embeddingAt (id filePath : String) : Embedding Nat :=
  { chunkId := id, vector := [1], chunk := chunkAt id filePath }

/-- The second file takes over an identifier of the first one, whose embedding stays, and then a
chunk of the first file is dropped. -/
def outOfStep : List (Edit Nat) :=
  [.add (.build "a.py" "" "" 0) [chunkAt "x" "a.py", chunkAt "y" "a.py"]
      [embeddingAt "x" "a.py", embeddingAt "y" "a.py"],
    .add (.build "b.py" "" "" 0) [chunkAt "y" "b.py", chunkAt "z" "b.py"] [embeddingAt "z" "b.py"],
    .drop "x"]

def stale : Snapshot Nat :=
  editAll { projectPath := "/p", cache := { lifetime := 1, maxEntries := 1 }, indexedAt := 0 }
    outOfStep

theorem removal_from_maps_out_of_step :
    stale.chunks.keys = ["y", "z"] ∧ stale.embeddings.keys = ["x", "y", "z"] ∧
      stale.IsRemovalOf "b.py" 2 (stale.removeFile "b.py") ∧
      (stale.removeFile "b.py").embeddings.keys = ["x"] ∧
      stale.Lacks "c.py" ∧
      stale.IsNewFile "c.py" (.build "c.py" "" "" 0) [chunkAt "w" "c.py", chunkAt "w" "c.py"]
        [embeddingAt "v" "c.py"] ∧
      (stale.addFile (.build "c.py" "" "" 0) [chunkAt "w" "c.py", chunkAt "w" "c.py"]
        [embeddingAt "v" "c.py"]).removeFile "c.py" = stale := by
  have lacks : stale.Lacks "c.py" := ⟨by decide, by decide, by decide⟩
  have file : stale.IsNewFile "c.py" (.build "c.py" "" "" 0)
      [chunkAt "w" "c.py", chunkAt "w" "c.py"] [embeddingAt "v" "c.py"] :=
    ⟨rfl, by decide, by decide⟩
  have made : editAll _ outOfStep = stale := rfl
  exact ⟨by decide, by decide, (removal_is_complete_and_exact made "b.py").1, by decide, lacks, file,
    (removal_is_complete_and_exact made "c.py").2 _ _ _ lacks file⟩

end Snapshot

end CodeSearch
