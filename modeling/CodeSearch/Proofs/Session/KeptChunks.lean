import CodeSearch.Proofs.Chunk.Distinct
import CodeSearch.Proofs.Files.Volumes
import CodeSearch.Proofs.Session.CachedAnswers
import CodeSearch.Proofs.Session.Soundness
import Mathlib.Data.List.Perm.Basic

/-! # Which chunks an index keeps

Chunks are stored under their identifiers, so of chunks that share one only the last is kept. Where
the chunks of a file have identifiers of their own, adding the file keeps all of them, and so does
the pass that has loaded it: no other file of the project takes their identifiers.
-/

namespace CodeSearch

namespace OrderedMap

variable {κ ν : Type} [DecidableEq κ]

/-- Maps that store the same under every key have the same entries in some order. -/
theorem entries_perm_of_get? {first second : OrderedMap κ ν}
    (same : ∀ key, first.get? key = second.get? key) : first.entries.Perm second.entries := by
  refine (List.perm_ext_iff_of_nodup first.distinct.of_map second.distinct.of_map).mpr ?_
  rintro ⟨key, value⟩
  rw [← get?_eq_some_iff, ← get?_eq_some_iff, same]

end OrderedMap

namespace Snapshot

section storeAll

variable {ν : Type} {key : ν → String} {values : List ν}

/-- Under different keys nothing that is stored gives way to something else. -/
theorem get?_storeAll_of_mem (distinct : (values.map key).Nodup) {value : ν}
    (member : value ∈ values) (map : OrderedMap String ν) :
    (storeAll key map values).get? (key value) = some value := by
  induction values using List.reverseRecOn with
  | nil => cases member
  | append_singleton values last ih =>
    rw [List.map_append, List.nodup_append] at distinct
    simp only [storeAll, List.foldl_append, List.foldl_cons, List.foldl_nil] at ih ⊢
    rw [OrderedMap.get?_insert]
    rcases List.mem_append.mp member with earlier | here
    · rw [if_neg fun same =>
        distinct.2.2 _ (List.mem_map_of_mem earlier) (key last) (by simp) same.symm]
      exact ih distinct.1 earlier
    · rw [List.mem_singleton.mp here, if_pos rfl]

/-- Under different keys just what is stored is kept. -/
theorem values_storeAll_perm (distinct : (values.map key).Nodup) :
    (storeAll key ∅ values).values.Perm values := by
  have listed : (values.map fun value => (key value, value)).map Prod.fst = values.map key := by
    rw [List.map_map]
    rfl
  let kept : OrderedMap String ν :=
    ⟨values.map fun value => (key value, value), by rw [listed]; exact distinct⟩
  have same : ∀ id, (storeAll key ∅ values).get? id = kept.get? id := by
    intro id
    apply Option.ext
    intro value
    rw [OrderedMap.get?_eq_some_iff kept]
    constructor
    · intro found
      obtain ⟨member, rfl⟩ := mem_of_get?_storeAll found
      exact List.mem_map.mpr ⟨value, member, rfl⟩
    · intro member
      obtain ⟨_, stored, equal⟩ := List.mem_map.mp member
      cases equal
      exact get?_storeAll_of_mem distinct stored ∅
  have perm := (OrderedMap.entries_perm_of_get? same).map Prod.snd
  have own : kept.entries.map Prod.snd = values := by simp [kept, Function.comp_def]
  rwa [own] at perm

end storeAll

variable {α : Type}

/-- The chunks of a file are those that its entries show. -/
theorem chunksOf_perm {snapshot : Snapshot α} {path : String} {record : FileRecord α}
    {chunks : List Chunk} {embeddings : List (Embedding α)}
    (shown : snapshot.entriesOf path = .of record chunks embeddings)
    (distinct : (chunks.map Chunk.id).Nodup) : (snapshot.chunksOf path).Perm chunks := by
  have stored : ∀ id, (snapshot.chunks.filter fun _ chunk => chunk.filePath == path).get? id =
      (storeAll Chunk.id ∅ chunks).get? id := by
    intro id
    rw [OrderedMap.get?_filter]
    exact congrFun (congrArg FileEntries.chunks shown) id
  have perm := (OrderedMap.entries_perm_of_get? stored).map Prod.snd
  have own : (snapshot.chunks.filter fun _ chunk => chunk.filePath == path).entries.map Prod.snd =
      snapshot.chunksOf path := by
    rw [chunksOf, OrderedMap.values, List.filter_map]
    rfl
  rw [own] at perm
  exact perm.trans (values_storeAll_perm distinct)

end Snapshot

namespace Session

variable {α : Type} [Scalar α] {session next final : Session α} {events : List (Event α)}

open Loading

private theorem loaded_of_record {settings : Settings α} {embedder : Embedder α}
    {moments : FileSystem → Prop} {root path : String} {result : LoadResult α}
    {snapshot : Snapshot α} {record : FileRecord α}
    (looked : Looked settings moments root path result)
    (shown : snapshot.entriesOf (relativePath root path) = result.entries embedder)
    (stored : snapshot.files.get? (relativePath root path) = some record) :
    ∃ files content now, moments files ∧ files.read path = .ok content ∧
      record = .build (relativePath root path) content (languageTag (relativePath root path)) now ∧
      snapshot.entriesOf (relativePath root path) =
        .of record
          (chunkFile settings (relativePath root path) content record.symbols (some record))
          (embeddingsOf embedder
            (chunkFile settings (relativePath root path) content record.symbols (some record))) := by
  have held : (result.entries embedder).record = some record :=
    (congrArg FileEntries.record shown).symm.trans stored
  cases looked with
  | loaded files content now moment _ told =>
    cases held
    exact ⟨files, content, now, moment, told, rfl, shown⟩
  | sizeFault => cases held
  | oversize => cases held
  | unread => cases held

/-- The record and the chunks that a snapshot has of a file come from one content that the file was
found to have, and no chunk is missing unless two of them share an identifier. -/
structure KeepsChunks (moments : FileSystem → Prop) (settings : Settings α)
    (snapshot : Snapshot α) (relative : String) (record : FileRecord α) (content : String) :
    Prop where
  read : ∃ files path, moments files ∧ relativePath snapshot.projectPath path = relative ∧
    files.read path = .ok content
  built : ∃ now, record = .build relative content (languageTag relative) now
  kept : ¬ NameMeetsBlockIn settings relative content record.symbols (some record) →
    (snapshot.chunksOf relative).Perm
      (chunkFile settings relative content record.symbols (some record))

/-- A pass that replaces the snapshot makes its draft the snapshot. -/
theorem snapshot_of_swapping {id : TaskId} {pass : Pass α}
    (stands : session.task? id = some (.pass pass)) (point : pass.point = .swapping)
    (wanted : session.requestedRoot = some pass.root)
    (happened : session.after? (.step id) = some next) : next.snapshot = some pass.draft := by
  change session.step? id = some next at happened
  simp only [step?, stands, stepPass, point, swap, wanted, if_true, Option.some.injEq] at happened
  rw [← happened]
  rfl

private theorem keepsChunks_of_swapping {moments : FileSystem → Prop}
    (regular : ∀ files, moments files → files.IsRegular) {id : TaskId} {pass : Pass α}
    (grounded : session.Grounded session.settings session.embedder moments 0)
    (stands : session.task? id = some (.pass pass)) (point : pass.point = .swapping)
    {relative : String} {record : FileRecord α}
    (stored : pass.draft.files.get? relative = some record) :
    ∃ content, KeepsChunks moments session.settings pass.draft relative record content := by
  obtain ⟨rooted, found, walk, built⟩ := grounded.swapping (Nat.zero_le id) stands point
  obtain ⟨known, distinct⟩ := walk.relatives regular rooted
  obtain ⟨shown, hidden⟩ := built.entries known distinct
  have listed : relative ∈ found.map (relativePath pass.root) := by
    by_contra absent
    have nothing := congrArg FileEntries.record (hidden relative absent)
    exact absurd (stored.symm.trans nothing) nofun
  obtain ⟨path, member, rfl⟩ := List.mem_map.mp listed
  obtain ⟨result, looked, entries⟩ := shown path member
  obtain ⟨files, content, now, moment, told, rfl, entries⟩ :=
    loaded_of_record looked entries stored
  refine ⟨content, ⟨files, path, moment, ?_, told⟩, ⟨now, rfl⟩, ?_⟩
  · rw [built.projectPath]
  · intro separate
    exact Snapshot.chunksOf_perm entries
      ((chunkFile_ids_nodup_iff _ _ _ _ _ _ _).mpr separate)

/-- The chunks of a file have identifiers of their own exactly if no declaration called `block`
takes that of a block. Then adding the file stores every one of them, and when a pass replaces the
snapshot, each file that it has loaded has just the chunks into which its content was split. -/
theorem chunks_with_own_ids_are_kept :
    (∀ (settings : Settings α) (path content tag filePath : String)
      (record : Option (FileRecord α)) (scanner : Option BoundaryScanner),
      (((chunkFile settings path content (extractSymbols content tag filePath) record scanner).map
          Chunk.id).Nodup ↔
        ¬ NameMeetsBlockIn settings path content (extractSymbols content tag filePath) record
          scanner) ∧
      (¬ NameMeetsBlockIn settings path content (extractSymbols content tag filePath) record
          scanner →
        ∀ (snapshot : Snapshot α) (added : FileRecord α) (embeddings : List (Embedding α)),
          ∀ chunk ∈ chunkFile settings path content (extractSymbols content tag filePath) record
              scanner,
            (snapshot.addFile added
              (chunkFile settings path content (extractSymbols content tag filePath) record scanner)
              embeddings).chunks.get? chunk.id = some chunk)) ∧
    ∀ (session before after : Session α) (events : List (Event α)) (id : TaskId) (pass : Pass α),
      session.IsNew → (∀ files, session.InForce events files → files.IsRegular) →
      session.replay? events = some before → before.task? id = some (.pass pass) →
      pass.point = .swapping → before.requestedRoot = some pass.root →
      before.after? (.step id) = some after →
      ∃ snapshot, after.snapshot = some snapshot ∧ snapshot.projectPath = pass.root ∧
        ∀ relative record, snapshot.files.get? relative = some record →
          ∃ content, KeepsChunks (session.InForce events) before.settings snapshot relative record
            content := by
  refine ⟨?_, ?_⟩
  · intro settings path content tag filePath record scanner
    have distinct := chunkFile_ids_nodup_iff settings path content tag filePath record scanner
    refine ⟨distinct, ?_⟩
    intro separate snapshot added embeddings chunk member
    exact Snapshot.get?_storeAll_of_mem (distinct.mpr separate) member snapshot.chunks
  · intro session before after events id pass new regular run stands point wanted happened
    have grounded := new.grounded_of_run run
    obtain ⟨-, found, -, built⟩ := grounded.swapping (Nat.zero_le id) stands point
    refine ⟨pass.draft, snapshot_of_swapping stands point wanted happened, built.projectPath, ?_⟩
    intro relative record stored
    exact keepsChunks_of_swapping regular grounded stands point stored

/-- The project is indexed up to the step that replaces the snapshot. -/
def indexUpToSwap : List (Event Float) :=
  .call (.index (.given "/p") false) :: .step 0 :: List.replicate 4 (.step 1) ++
    List.replicate 3 (.step 2) ++ List.replicate 9 (.step 1)

/-- The pass that is to replace the snapshot with its next step. -/
def swapping? (session : Session α) (id : TaskId) : Option (Pass α) :=
  match session.task? id with
  | some (.pass pass) =>
    match pass.point with
    | .swapping => if session.requestedRoot = some pass.root then some pass else none
    | _ => none
  | _ => none

private theorem of_swapping? {id : TaskId} {pass : Pass α}
    (found : session.swapping? id = some pass) :
    session.task? id = some (.pass pass) ∧ pass.point = .swapping ∧
      session.requestedRoot = some pass.root := by
  unfold swapping? at found
  split at found
  · next stands =>
    split at found
    · next point =>
      split at found
      · next wanted =>
        cases found
        exact ⟨stands, point, wanted⟩
      · cases found
    · cases found
  · cases found

theorem chunks_of_small_project_are_kept :
    ∃ (before after : Session Float) (snapshot : Snapshot Float) (record : FileRecord Float)
      (content : String),
      (opened {} smallProject 0).replay? indexUpToSwap = some before ∧
      before.after? (.step 1) = some after ∧ after.snapshot = some snapshot ∧
      snapshot.files.get? "a.py" = some record ∧
      (snapshot.chunksOf "a.py").Perm
        (chunkFile before.settings "a.py" content record.symbols (some record)) ∧
      ((chunkFile ({} : Settings Float) "a.py" "def run():\n    pass\n"
        (extractSymbols "def run():\n    pass\n" "python" "a.py")
        (none : Option (FileRecord Float))).map Chunk.id).Nodup := by
  have separate := (chunks_with_own_ids_are_kept.1 ({} : Settings Float) "a.py"
    "def run():\n    pass\n" "python" "a.py" none none).1.mpr (by decide +kernel)
  have reached : (((opened {} smallProject (0 : Float)).replay? indexUpToSwap).bind fun before =>
      (before.swapping? 1).bind fun pass => (before.after? (.step 1)).bind fun _ =>
        (pass.draft.files.get? "a.py").filter fun record =>
          record.symbols.all fun symbol => symbol.name != "block").isSome = true := by
    decide +kernel
  obtain ⟨record, reached⟩ := Option.isSome_iff_exists.mp reached
  obtain ⟨before, run, reached⟩ := Option.bind_eq_some_iff.mp reached
  obtain ⟨pass, found, reached⟩ := Option.bind_eq_some_iff.mp reached
  obtain ⟨after, happened, reached⟩ := Option.bind_eq_some_iff.mp reached
  obtain ⟨stored, names⟩ := Option.filter_eq_some_iff.mp reached
  obtain ⟨stands, point, wanted⟩ := of_swapping? found
  have regular : ∀ files, (opened {} smallProject (0 : Float)).InForce indexUpToSwap files →
      files.IsRegular := by
    intro files known
    have same : files = smallProject := by simpa [InForce, indexUpToSwap, opened] using known
    rw [same]
    exact Volume.IsTidy.isRegular (by decide +kernel)
  obtain ⟨snapshot, current, -, keeps⟩ := chunks_with_own_ids_are_kept.2 _ before after _ 1 pass
    (opened_isNew {} smallProject 0) regular run stands point wanted happened
  cases (snapshot_of_swapping stands point wanted happened).symm.trans current
  obtain ⟨content, keeps⟩ := keeps "a.py" record stored
  refine ⟨before, after, pass.draft, record, content, run, happened, current, stored, ?_, separate⟩
  refine keeps.kept ?_
  rintro ⟨symbol, member, named, -⟩
  have other := List.all_eq_true.mp names symbol member
  exact bne_iff_ne.mp other named

/-- A class called `block` on the first line, and the next declaration so far below that what stands
between them is the block of position one. -/
def blockNamed : String :=
  "class block:\n    first = 1\n    second = 2\n    third = 3\n    fourth = 4\n\n" ++
    "def run():\n    pass\n"

/-- What the file is split into. -/
def chunksOfBlockNamed : List Chunk :=
  chunkFile ({} : Settings Float) "a.py" blockNamed (extractSymbols blockNamed "python" "a.py")
    (none : Option (FileRecord Float))

/-- The class and the block behind it have one identifier, so the index has one chunk less than the
file was split into, and it is the class that is missing. -/
theorem class_called_block_is_lost :
    ¬ (chunksOfBlockNamed.map Chunk.id).Nodup ∧
    chunksOfBlockNamed.map Chunk.kind = [.file, .classType, .function, .block] ∧
    (((opened {} (Volume.write {} "/p/a.py" (.ofText blockNamed)).fileSystem (0 : Float)).replay?
        (indexUpToSwap ++ [.step 1])).bind fun final => final.snapshot.map fun snapshot =>
          (snapshot.chunksOf "a.py").map Chunk.kind) = some [.file, .block, .function] := by
  decide +kernel

end Session

end CodeSearch
