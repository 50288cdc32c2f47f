import CodeSearch.Proofs.Files.Depth
import CodeSearch.Proofs.Files.WalkOrder

/-! # Listings in another order

The system lists the entries of a directory in no certain order. As long as no two directories and
no two files of one directory have names that differ in case only, the order makes no difference to
what is discovered.
-/

namespace CodeSearch

namespace FileSystem

/-- Two listings of the same entries, in whatever order, or two that meet the same fault. -/
inductive SameEntries : Except FileFault (List Entry) → Except FileFault (List Entry) → Prop where
  | listed (entries others : List Entry) (same : entries.Perm others) :
      SameEntries (.ok entries) (.ok others)
  | failed (fault : FileFault) : SameEntries (.error fault) (.error fault)

/-- The same files, whose directories may list their entries in another order. -/
structure IsRelisting (files other : FileSystem) : Prop where
  size : other.size = files.size
  read : other.read = files.read
  list : ∀ directory, SameEntries (files.list directory) (other.list directory)

/-- In no directory are there two directories or two files whose names differ in case only. -/
def NamesApart (files : FileSystem) : Prop :=
  ∀ directory entries, files.list directory = .ok entries → Walk.NamesApart entries

end FileSystem

open FileSystem

variable {α : Type} [Scalar α] {settings : Settings α} {files other : FileSystem}

namespace Walk

private theorem listTargets_of_sameEntries {listing others : Except FileFault (List Entry)}
    (same : SameEntries listing others)
    (apart : ∀ entries, listing = .ok entries → NamesApart entries) :
    listTargets settings listing = listTargets settings others := by
  cases same with
  | listed entries others same =>
    rw [listTargets, listTargets, (apart entries rfl).targets_eq same]
  | failed fault => rfl

private theorem visitAll_congr {targets : List Target}
    (same : ∀ target ∈ targets, visit settings files target = visit settings other target) :
    visitAll settings files targets = visitAll settings other targets := by
  induction targets with
  | nil => rfl
  | cons target rest ih =>
    rw [visitAll, visitAll, same target List.mem_cons_self,
      ih fun next member => same next (List.mem_cons_of_mem _ member)]

end Walk

open Walk

/-- Listings in another order lead to the same files in the same order. -/
theorem FileSystem.IsRelisting.discover_eq (relisted : files.IsRelisting other)
    (apart : files.NamesApart) (deep : files.HasDepth) (deepOther : other.HasDepth)
    (directory : String) :
    discover settings files directory = discover settings other directory := by
  induction directory using deep.induct with
  | listed directory ih =>
    have leads : listTargets settings (files.list directory) =
        listTargets settings (other.list directory) :=
      listTargets_of_sameEntries (relisted.list directory) (apart directory)
    rw [Walk.discover_eq deep, Walk.discover_eq deepOther, ← leads]
    cases listed : listTargets settings (files.list directory) with
    | error fault => rfl
    | ok targets =>
      refine visitAll_congr ?_
      rintro (path | path) member
      · obtain ⟨entry, lists, isDirectory, rfl⟩ := lists_of_mem listed member
        exact ih entry lists isDirectory
      · rfl

theorem Volume.namesApart {volume : Volume}
    (apart : ∀ directory ∈ volume.directories.keys, Walk.NamesApart (volume.entriesIn directory)) :
    volume.fileSystem.NamesApart := by
  intro directory entries answer
  obtain ⟨here, rfl⟩ := list_eq_ok_iff.mp answer
  refine apart directory ((volume.directories.contains_iff directory).mp ?_)
  rw [OrderedMap.contains, here]
  rfl

/-- Volumes that hold the same, with files made in another order, are told apart by listings only. -/
theorem Volume.isRelisting {volume other : Volume}
    (directories : other.directories = volume.directories)
    (files : volume.files.entries.Perm other.files.entries) :
    volume.fileSystem.IsRelisting other.fileSystem := by
  have keys : volume.files.keys.Perm other.files.keys := files.map Prod.fst
  have stored : ∀ path, other.files.get? path = volume.files.get? path := by
    intro path
    refine Option.ext fun file => ?_
    rw [OrderedMap.get?_eq_some_iff, OrderedMap.get?_eq_some_iff, files.mem_iff]
  constructor
  case size =>
    funext path
    change Except.ok (other.size path) = Except.ok (volume.size path)
    rw [Volume.size, Volume.size, stored]
  case read =>
    funext path
    change other.read path = volume.read path
    rw [Volume.read, Volume.read, stored]
  case list =>
    intro directory
    change SameEntries (volume.list directory) (other.list directory)
    rw [Volume.list, Volume.list, directories]
    split
    · exact .failed _
    · exact .failed _
    · exact .listed _ _ (((keys.filter _).map _).append_left _)

end CodeSearch
