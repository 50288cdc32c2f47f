import CodeSearch.Proofs.Index.InOrder
import Mathlib.Algebra.Ring.Nat
import Mathlib.Data.List.Forall2

/-! # What becomes of files and chunks

A file that was found is indexed, passed by because of its size, or told of as faulty, and each of
its chunks has its embedding or is told of as refused. A list of such fates settles the counts: how
many files are stored, which ones, and what is told.
-/

namespace CodeSearch

variable {α : Type}

namespace OrderedMap

variable {κ ν : Type} [DecidableEq κ]

theorem size_insert_of_new {map : OrderedMap κ ν} {key : κ} (new : map.get? key = none) (value : ν) :
    (map.insert key value).size = map.size + 1 := by
  have keys := congrArg List.length (map.keys_insert key value)
  rw [if_neg ((map.get?_eq_none_iff key).mp new), List.length_append] at keys
  simpa [OrderedMap.keys, size] using keys

private theorem sum_store (key : κ) (value : Nat) (entries : List (κ × Nat)) :
    ((store key value entries).map Prod.snd).sum + (lookup key entries).getD 0 =
      (entries.map Prod.snd).sum + value := by
  induction entries with
  | nil => simp [store, lookup]
  | cons entry rest ih =>
    obtain ⟨other, number⟩ := entry
    by_cases same : other = key
    · simp only [store, lookup, same, if_true, List.map_cons, List.sum_cons, Option.getD_some]
      omega
    · simp only [store, lookup, same, if_false, List.map_cons, List.sum_cons]
      omega

end OrderedMap

namespace Snapshot

private theorem sum_values_countKind (counts : OrderedMap String Nat) (chunk : Chunk) :
    (countKind counts chunk).values.sum = counts.values.sum + 1 := by
  have sums := OrderedMap.sum_store chunk.kind.name
    ((counts.get? chunk.kind.name).getD 0 + 1) counts.entries
  change (countKind counts chunk).values.sum + (counts.get? chunk.kind.name).getD 0 = _ at sums
  change _ = counts.values.sum + _ at sums
  omega

/-- The counts of the kinds add up to the number of chunks. -/
theorem sum_kindCounts (snapshot : Snapshot α) :
    snapshot.kindCounts.values.sum = snapshot.chunks.size := by
  have sums : ∀ (chunks : List Chunk) (counts : OrderedMap String Nat),
      (chunks.foldl countKind counts).values.sum = counts.values.sum + chunks.length := by
    intro chunks
    induction chunks with
    | nil => exact fun counts => rfl
    | cons chunk rest ih =>
      intro counts
      rw [List.foldl_cons, ih, sum_values_countKind, List.length_cons]
      omega
  have values : snapshot.chunks.values.length = snapshot.chunks.size := List.length_map _
  have none : (∅ : OrderedMap String Nat).values.sum = 0 := rfl
  rw [kindCounts, sums, none, values, Nat.zero_add]

end Snapshot

/-! ## Chunks -/

/-- Each of some chunks has its embedding, or the embedder has refused it and this is told. -/
inductive Embeds (embedder : Embedder α) :
    List Chunk → List (Embedding α) → List String → Prop where
  | nil : Embeds embedder [] [] []
  | embedded (chunk : Chunk) (vector : List α) {chunks : List Chunk} {embeddings : List (Embedding α)}
      {refusals : List String} (answer : embedder.embedChunk chunk = .ok vector)
      (rest : Embeds embedder chunks embeddings refusals) :
      Embeds embedder (chunk :: chunks) ({ chunkId := chunk.id, vector, chunk } :: embeddings)
        refusals
  | refused (chunk : Chunk) (reason : String) {chunks : List Chunk} {embeddings : List (Embedding α)}
      {refusals : List String} (answer : embedder.embedChunk chunk = .error reason)
      (rest : Embeds embedder chunks embeddings refusals) :
      Embeds embedder (chunk :: chunks) embeddings
        (("Failed to embed chunk " ++ chunk.id ++ ": " ++ reason) :: refusals)

theorem embeds_all (embedder : Embedder α) (chunks : List Chunk) :
    Embeds embedder chunks (embeddingsOf embedder chunks) (failuresOf embedder chunks) := by
  induction chunks with
  | nil => exact .nil
  | cons chunk rest ih =>
    rw [embeddingsOf, failuresOf, List.filterMap_cons, List.filterMap_cons, FileDraft.embed]
    cases answer : embedder.embedChunk chunk with
    | ok vector => exact .embedded chunk vector answer ih
    | error reason => exact .refused chunk reason answer ih

/-! ## Files -/

/-- What becomes of a file: it is indexed with its chunks, the embeddings that there are and what is
told of the others, or it is too large, or a fault is told of it. -/
inductive FileFate (α : Type) where
  | indexed (record : FileRecord α) (chunks : List Chunk) (embeddings : List (Embedding α))
      (refusals : List String)
  | oversize
  | faulty (message : String)

namespace FileFate

def record? : FileFate α → Option (FileRecord α)
  | .indexed record _ _ _ => some record
  | .oversize | .faulty _ => none

def told : FileFate α → List String
  | .indexed _ _ _ refusals => refusals
  | .oversize => []
  | .faulty message => [message]

def addTo (draft : Snapshot α) : FileFate α → Snapshot α
  | .indexed record chunks embeddings _ => draft.addFile record chunks embeddings
  | .oversize | .faulty _ => draft

end FileFate

variable [Scalar α]

/-- The fate that a file has by its size and its content. -/
inductive IsFateOf (settings : Settings α) (embedder : Embedder α) (files : FileSystem)
    (root path : String) : FileFate α → Prop where
  | indexed (size : Option Int) (content : String) (now : α) (record : FileRecord α)
      (chunks : List Chunk) (embeddings : List (Embedding α)) (refusals : List String)
      (sized : files.size path = .ok size) (small : ∀ bytes ∈ size, bytes ≤ settings.maxFileSize)
      (read : files.read path = .ok content)
      (made : Loading.load settings now (Loading.relativePath root path) content =
        .loaded record chunks)
      (embeds : Embeds embedder chunks embeddings refusals) :
      IsFateOf settings embedder files root path (.indexed record chunks embeddings refusals)
  | oversize (size : Int) (sized : files.size path = .ok (some size))
      (large : settings.maxFileSize < size) :
      IsFateOf settings embedder files root path .oversize
  | unsized (fault : FileFault) (sized : files.size path = .error fault) :
      IsFateOf settings embedder files root path
        (.faulty (Loading.faultMessage (Loading.relativePath root path) fault))
  | unread (size : Option Int) (fault : FileFault) (sized : files.size path = .ok size)
      (small : ∀ bytes ∈ size, bytes ≤ settings.maxFileSize) (read : files.read path = .error fault) :
      IsFateOf settings embedder files root path
        (.faulty (Loading.faultMessage (Loading.relativePath root path) fault))

namespace IsFateOf

variable {settings : Settings α} {embedder : Embedder α} {files : FileSystem} {root path : String}
  {fate : FileFate α}

/-- Records carry the path by which the project knows their file. -/
theorem path_record (is : IsFateOf settings embedder files root path fate) {record : FileRecord α}
    (indexed : fate.record? = some record) : record.path = Loading.relativePath root path := by
  cases is with
  | indexed size content now record chunks embeddings refusals sized small read made embeds =>
    cases indexed
    cases made
    rfl
  | oversize => cases indexed
  | unsized => cases indexed
  | unread => cases indexed

private theorem small_of_not_any {size : Option Int}
    (small : ¬ (size.any fun bytes => decide (settings.maxFileSize < bytes)) = true) :
    ∀ bytes ∈ size, bytes ≤ settings.maxFileSize := by
  rintro bytes rfl
  rw [Option.any_some, decide_eq_true_eq] at small
  exact Int.not_lt.mp small

/-- Every file has a fate, and its fate is what a project takes in of it. -/
theorem exists_of_look (settings : Settings α) (embedder : Embedder α) (files : FileSystem)
    (now : α) (root path : String) :
    ∃ fate, IsFateOf settings embedder files root path fate ∧
      ∀ part : PartialIndex α, part.add embedder (Loading.look settings files now root path) =
        { draft := fate.addTo part.draft
          indexed := part.indexed + fate.record?.toList.length
          errors := part.errors ++ fate.told } := by
  rw [Loading.look]
  cases sized : files.size path with
  | error fault => exact ⟨_, .unsized fault sized, fun part => rfl⟩
  | ok size =>
    dsimp only
    split
    · next large =>
      cases size with
      | none => cases large
      | some bytes =>
        rw [Option.any_some, decide_eq_true_eq] at large
        exact ⟨_, .oversize bytes sized large, fun part => rfl⟩
    · next small =>
      have small := small_of_not_any small
      cases read : files.read path with
      | error fault => exact ⟨_, .unread size fault sized small read, fun part => rfl⟩
      | ok content =>
        refine ⟨_, .indexed size content now _ _ _ _ sized small read rfl (embeds_all embedder _), ?_⟩
        exact fun part => rfl

variable {draft : Snapshot α}

private theorem get?_addTo_of_ne (is : IsFateOf settings embedder files root path fate)
    {relative : String} (different : relative ≠ Loading.relativePath root path) :
    (fate.addTo draft).files.get? relative = draft.files.get? relative := by
  cases fate with
  | indexed record chunks embeddings refusals =>
    have own := is.path_record rfl
    refine (OrderedMap.get?_insert draft.files record.path relative record).trans (if_neg ?_)
    rw [own]
    exact different.symm
  | oversize => rfl
  | faulty message => rfl

private theorem get?_addTo (is : IsFateOf settings embedder files root path fate)
    (new : draft.files.get? (Loading.relativePath root path) = none) :
    (fate.addTo draft).files.get? (Loading.relativePath root path) = fate.record? := by
  cases fate with
  | indexed record chunks embeddings refusals =>
    rw [← is.path_record rfl]
    exact (OrderedMap.get?_insert draft.files record.path record.path record).trans (if_pos rfl)
  | oversize => exact new
  | faulty message => exact new

private theorem size_addTo (is : IsFateOf settings embedder files root path fate)
    (new : draft.files.get? (Loading.relativePath root path) = none) :
    (fate.addTo draft).files.size = draft.files.size + fate.record?.toList.length := by
  cases fate with
  | indexed record chunks embeddings refusals =>
    rw [← is.path_record rfl] at new
    exact OrderedMap.size_insert_of_new new record
  | oversize => rfl
  | faulty message => rfl

end IsFateOf

namespace FileFate

/-- Takes in one file after another. -/
def addAll (draft : Snapshot α) (fates : List (FileFate α)) : Snapshot α :=
  fates.foldl (fun draft fate => fate.addTo draft) draft

variable {settings : Settings α} {embedder : Embedder α} {files : FileSystem} {root : String}
  {paths : List String} {fates : List (FileFate α)} {draft : Snapshot α}

/-- Other files are left as they are. -/
theorem get?_addAll_of_notMem
    (each : List.Forall₂ (IsFateOf settings embedder files root) paths fates) {relative : String}
    (absent : relative ∉ paths.map (Loading.relativePath root)) :
    (addAll draft fates).files.get? relative = draft.files.get? relative := by
  induction each generalizing draft with
  | nil => rfl
  | cons is rest ih =>
    rw [List.map_cons, List.mem_cons, not_or] at absent
    rw [addAll, List.foldl_cons]
    exact (ih absent.2).trans (is.get?_addTo_of_ne absent.1)

private theorem new_behind {path : String} {fate : FileFate α}
    (is : IsFateOf settings embedder files root path fate)
    (distinct : ((path :: paths).map (Loading.relativePath root)).Nodup)
    (new : ∀ other ∈ path :: paths, draft.files.get? (Loading.relativePath root other) = none) :
    ∀ other ∈ paths, (fate.addTo draft).files.get? (Loading.relativePath root other) = none := by
  intro other member
  rw [List.map_cons, List.nodup_cons] at distinct
  rw [is.get?_addTo_of_ne fun same => distinct.1 (same ▸ List.mem_map_of_mem member)]
  exact new other (List.mem_cons_of_mem _ member)

/-- New files have a record exactly if they are indexed. -/
theorem get?_addAll (each : List.Forall₂ (IsFateOf settings embedder files root) paths fates)
    (distinct : (paths.map (Loading.relativePath root)).Nodup)
    (new : ∀ path ∈ paths, draft.files.get? (Loading.relativePath root path) = none) :
    List.Forall₂ (fun path fate => IsFateOf settings embedder files root path fate ∧
      (addAll draft fates).files.get? (Loading.relativePath root path) = fate.record?)
      paths fates := by
  induction each generalizing draft with
  | nil => exact .nil
  | cons is rest ih =>
    have behind := new_behind is distinct new
    rw [List.map_cons, List.nodup_cons] at distinct
    rw [addAll, List.foldl_cons]
    refine .cons ⟨is, ?_⟩ (ih distinct.2 behind)
    exact (get?_addAll_of_notMem rest distinct.1).trans
      (is.get?_addTo (new _ List.mem_cons_self))

/-- There are as many more files as were indexed. -/
theorem size_addAll (each : List.Forall₂ (IsFateOf settings embedder files root) paths fates)
    (distinct : (paths.map (Loading.relativePath root)).Nodup)
    (new : ∀ path ∈ paths, draft.files.get? (Loading.relativePath root path) = none) :
    (addAll draft fates).files.size = draft.files.size + (fates.filterMap record?).length := by
  induction each generalizing draft with
  | nil => rfl
  | @cons path fate paths fates is rest ih =>
    have behind := new_behind is distinct new
    have first := is.size_addTo (new path List.mem_cons_self)
    rw [List.map_cons, List.nodup_cons] at distinct
    have others := ih distinct.2 behind
    rw [addAll, List.foldl_cons]
    refine others.trans ?_
    rw [first, List.filterMap_cons]
    cases fate.record? with
    | none => rfl
    | some record =>
      simp only [Option.toList_some, List.length_cons, List.length_nil]
      omega

end FileFate

end CodeSearch
