import CodeSearch.Files.Volume
import CodeSearch.Proofs.Files.Edits
import Mathlib.Data.List.Nodup

/-! # Files in memory as a tree

A volume whose paths are written as places under their directories lists as a scanned system does,
and writing or removing a file of it is an edit of that file.
-/

namespace CodeSearch

instance (component : List Char) : Decidable (Path.IsStep component) :=
  decidable_of_iff
    (component ≠ [] ∧ component ≠ ['.'] ∧ component ≠ ['.', '.'] ∧ '/' ∉ component)
    ⟨fun ⟨nonempty, notHere, notUp, slashless⟩ => ⟨nonempty, notHere, notUp, slashless⟩,
      fun step => ⟨step.nonempty, step.notHere, step.notUp, step.slashless⟩⟩

namespace Volume

/-- Everything is written as its directory and its name, and no file stands where a directory is. -/
structure IsTidy (volume : Volume) : Prop where
  named : ∀ member ∈ volume.directories.keys ++ volume.files.keys,
    Path.parent member ≠ member →
      Path.IsStep (Path.baseName member).toList ∧
        member = Path.join (Path.parent member) (Path.baseName member)
  apart : ∀ path ∈ volume.directories.keys, path ∉ volume.files.keys

instance (volume : Volume) : Decidable volume.IsTidy :=
  decidable_of_iff
    ((∀ member ∈ volume.directories.keys ++ volume.files.keys,
      Path.parent member ≠ member →
        Path.IsStep (Path.baseName member).toList ∧
          member = Path.join (Path.parent member) (Path.baseName member)) ∧
      ∀ path ∈ volume.directories.keys, path ∉ volume.files.keys)
    ⟨fun ⟨named, apart⟩ => ⟨named, apart⟩, fun tidy => ⟨tidy.named, tidy.apart⟩⟩

variable {volume : Volume} {directory : String} {listed : List Entry}

private theorem mem_membersOf {paths : List String} {path : String} :
    path ∈ membersOf directory paths ↔
      path ∈ paths ∧ path ≠ directory ∧ Path.parent path = directory := by
  simp [membersOf]

/-- The members of a directory as they are listed. -/
def entriesIn (volume : Volume) (directory : String) : List Entry :=
  (membersOf directory volume.directories.keys).map
      (fun member => ⟨Path.baseName member, member, true⟩) ++
    (membersOf directory volume.files.keys).map
      (fun member => ⟨Path.baseName member, member, false⟩)

theorem list_eq_ok_iff :
    volume.list directory = .ok listed ↔
      volume.directories.get? directory = some none ∧ listed = volume.entriesIn directory := by
  unfold list
  constructor
  · intro answer
    split at answer
    · cases answer
    · cases answer
    · next here =>
      cases answer
      exact ⟨here, rfl⟩
  · rintro ⟨here, rfl⟩
    rw [here]
    rfl

/-- What is listed in a directory is a member of it, and of the kind that it is kept as. -/
theorem mem_entriesIn {entry : Entry} :
    entry ∈ volume.entriesIn directory ↔
      ∃ member, member ≠ directory ∧ Path.parent member = directory ∧
        (member ∈ volume.directories.keys ∧ entry = ⟨Path.baseName member, member, true⟩ ∨
          member ∈ volume.files.keys ∧ entry = ⟨Path.baseName member, member, false⟩) := by
  simp only [entriesIn, List.mem_append, List.mem_map, mem_membersOf]
  constructor
  · rintro (⟨member, ⟨known, other, below⟩, rfl⟩ | ⟨member, ⟨known, other, below⟩, rfl⟩)
    · exact ⟨member, other, below, .inl ⟨known, rfl⟩⟩
    · exact ⟨member, other, below, .inr ⟨known, rfl⟩⟩
  · rintro ⟨member, other, below, ⟨known, rfl⟩ | ⟨known, rfl⟩⟩
    · exact .inl ⟨member, ⟨known, other, below⟩, rfl⟩
    · exact .inr ⟨member, ⟨known, other, below⟩, rfl⟩

theorem lists_iff {entry : Entry} :
    volume.fileSystem.Lists directory entry ↔
      volume.directories.get? directory = some none ∧ entry ∈ volume.entriesIn directory := by
  constructor
  · rintro ⟨listed, answer, member⟩
    obtain ⟨here, rfl⟩ := list_eq_ok_iff.mp answer
    exact ⟨here, member⟩
  · rintro ⟨here, member⟩
    exact ⟨_, list_eq_ok_iff.mpr ⟨here, rfl⟩, member⟩

instance (volume : Volume) (root : String) (way : List String) (name : String) :
    Decidable (volume.fileSystem.Shows root way name) :=
  decidable_of_iff
    (∀ step ∈ FileSystem.wayTo root way name,
      volume.directories.get? step.1 = some none ∧ step.2 ∈ volume.entriesIn step.1)
    (forall₂_congr fun _ _ => lists_iff.symm)

theorem IsTidy.isRegular (tidy : volume.IsTidy) : volume.fileSystem.IsRegular where
  entries directory listed answer entry inListing := by
    obtain ⟨-, rfl⟩ := list_eq_ok_iff.mp answer
    obtain ⟨member, other, rfl, ⟨known, rfl⟩ | ⟨known, rfl⟩⟩ := mem_entriesIn.mp inListing
    · exact tidy.named member (List.mem_append.mpr (.inl known)) other.symm
    · exact tidy.named member (List.mem_append.mpr (.inr known)) other.symm
  distinct directory listed answer := by
    obtain ⟨-, rfl⟩ := list_eq_ok_iff.mp answer
    rw [entriesIn, List.map_append, List.map_map, List.map_map]
    change ((membersOf directory volume.directories.keys).map Path.baseName ++
      (membersOf directory volume.files.keys).map Path.baseName).Nodup
    rw [← List.map_append]
    have members : membersOf directory volume.directories.keys ++
        membersOf directory volume.files.keys =
          membersOf directory (volume.directories.keys ++ volume.files.keys) := by
      simp [membersOf]
    have keys : (volume.directories.keys ++ volume.files.keys).Nodup := by
      refine List.nodup_append.mpr ⟨volume.directories.distinct, volume.files.distinct, ?_⟩
      rintro path inDirectories _ inFiles rfl
      exact tidy.apart path inDirectories inFiles
    rw [members]
    refine List.Nodup.map_on ?_ (keys.filter _)
    intro first inFirst second inSecond same
    obtain ⟨known, other, below⟩ := mem_membersOf.mp inFirst
    obtain ⟨known', other', below'⟩ := mem_membersOf.mp inSecond
    obtain ⟨_, written⟩ := tidy.named first known fun loop => other (loop.symm.trans below)
    obtain ⟨_, written'⟩ := tidy.named second known' fun loop => other' (loop.symm.trans below')
    rw [written, written', below, below', same]

/-! ## Edits of a volume -/

/-- The files of two volumes differ at most in one. -/
structure FilesAlikeBut (path : String) (before after : Volume) : Prop where
  directories : after.directories = before.directories
  files : ∀ other, other ≠ path → after.files.get? other = before.files.get? other
  members : ∀ directory, directory ≠ Path.parent path →
    membersOf directory after.files.keys = membersOf directory before.files.keys

theorem filesAlikeBut_insert (volume : Volume) (path : String) (file : StoredFile) :
    FilesAlikeBut path volume { volume with files := volume.files.insert path file } where
  directories := rfl
  files other different := (volume.files.get?_insert path other file).trans (if_neg different.symm)
  members directory different := by
    change membersOf directory (volume.files.insert path file).keys = _
    rw [OrderedMap.keys_insert]
    split
    · rfl
    · simp [membersOf, different.symm]

theorem filesAlikeBut_remove (volume : Volume) (path : String) :
    FilesAlikeBut path volume (volume.remove path) where
  directories := rfl
  files other different := (volume.files.get?_erase path other).trans (if_neg different)
  members directory different := by
    change membersOf directory (volume.files.erase path).keys = _
    rw [OrderedMap.keys_erase, membersOf, membersOf, List.filter_filter]
    refine List.filter_congr fun other _ => ?_
    by_cases same : other = path
    · simp [same, different.symm]
    · simp [same]

variable {before after : Volume} {root name : String}

private theorem FilesAlikeBut.mem_keys {path other : String} (alike : FilesAlikeBut path before after)
    (different : other ≠ path) : other ∈ after.files.keys ↔ other ∈ before.files.keys := by
  rw [← OrderedMap.contains_iff, ← OrderedMap.contains_iff, OrderedMap.contains, OrderedMap.contains,
    alike.files other different]

/-- Volumes whose files differ at most in one file of a directory are told apart by an edit of this
file. -/
theorem FilesAlikeBut.editedAt (alike : FilesAlikeBut (Path.join root name) before after)
    (parent : Path.parent (Path.join root name) = root)
    (named : Path.baseName (Path.join root name) = name)
    (free : Path.join root name ∉ before.directories.keys)
    (tidy : before.IsTidy) (tidyAfter : after.IsTidy) :
    FileSystem.EditedAt root [] name before.fileSystem after.fileSystem where
  others directory entry _ _ other := by
    have same := alike.files entry.path other
    constructor
    · exact congrArg (fun file => Except.ok (Option.bind file StoredFile.size)) same
    · change after.read entry.path = before.read entry.path
      rw [read, read, same]
  elsewhere directory apart := by
    have notRoot : directory ≠ root := apart (root, ⟨name, Path.join root name, false⟩)
      (List.mem_singleton.mpr rfl)
    have members := alike.members directory (by rw [parent]; exact notRoot)
    change after.list directory = before.list directory
    simp only [list, members, alike.directories]
  beside step member entry other := by
    rw [List.mem_singleton.mp member] at other ⊢
    have kept : ∀ path, entry = ⟨Path.baseName path, path, false⟩ →
        (path ∈ after.files.keys ↔ path ∈ before.files.keys) := by
      rintro path rfl
      refine alike.mem_keys ?_
      rintro rfl
      exact other named
    simp only [lists_iff, mem_entriesIn, alike.directories]
    constructor
    · rintro ⟨here, path, notHere, below, known | ⟨known, same⟩⟩
      · exact ⟨here, path, notHere, below, .inl known⟩
      · exact ⟨here, path, notHere, below, .inr ⟨(kept path same).mpr known, same⟩⟩
    · rintro ⟨here, path, notHere, below, known | ⟨known, same⟩⟩
      · exact ⟨here, path, notHere, below, .inl known⟩
      · exact ⟨here, path, notHere, below, .inr ⟨(kept path same).mp known, same⟩⟩
  onWay step member entry same listed := by
    rw [List.mem_singleton.mp member] at same listed ⊢
    change entry.name = name at same
    have found : ∀ volume : Volume, volume.IsTidy → Path.join root name ∉ volume.directories.keys →
        volume.fileSystem.Lists root entry → entry = ⟨name, Path.join root name, false⟩ := by
      intro volume tidy free lists
      have written : entry.path = Path.join root name := same ▸ (tidy.isRegular.lists lists).2
      obtain ⟨path, _, _, ⟨known, rfl⟩ | ⟨known, rfl⟩⟩ := mem_entriesIn.mp (lists_iff.mp lists).2
      · exact absurd (written ▸ known) free
      · change Path.baseName path = name at same
        rw [same, show path = _ from written]
    rcases listed with earlier | later
    · exact found before tidy free earlier
    · exact found after tidyAfter (alike.directories ▸ free) later
  absent files _ step member isDirectory := by
    rw [List.mem_singleton.mp member] at isDirectory
    cases isDirectory

end Volume

end CodeSearch
