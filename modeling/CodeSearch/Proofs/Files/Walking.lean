import CodeSearch.Files.Walk
import CodeSearch.Proofs.Path.Place

/-! # Walks that go on while files change

A walk lists one directory at a time, and between two listings the files may change. Whatever the
listings say, no directory is listed twice and no file is found twice, and the files that are found
are known to the project by different paths.
-/

namespace CodeSearch

/-- What holds of every system that is scanned directory by directory: the entries of a directory
have different names, and lie below the directory by these names. -/
structure FileSystem.IsRegular (files : FileSystem) : Prop where
  entries : ∀ directory listed, files.list directory = .ok listed → ∀ entry ∈ listed,
    Path.IsStep entry.name.toList ∧ entry.path = Path.join directory entry.name
  distinct : ∀ directory listed, files.list directory = .ok listed → (listed.map Entry.name).Nodup

namespace Walk

variable {α : Type} [Scalar α] {settings : Settings α} {moments : FileSystem → Prop}

def Target.path : Target → String
  | .directory path => path
  | .file path => path

/-- What a walk still has to go to and what it has found, after listings each of which was made at
one of the given moments. -/
inductive Walking (settings : Settings α) (moments : FileSystem → Prop) (root : String) :
    List Target → List String → Prop where
  | start : Walking settings moments root [.directory root] []
  | finds (path : String) (rest : List Target) (found : List String)
      (before : Walking settings moments root (.file path :: rest) found) :
      Walking settings moments root rest (found ++ [path])
  | lists (path : String) (rest targets : List Target) (found : List String) (files : FileSystem)
      (before : Walking settings moments root (.directory path :: rest) found)
      (moment : moments files) (listed : listTargets settings (files.list path) = .ok targets) :
      Walking settings moments root (targets ++ rest) found

/-- A target below a place; files are of a known language. -/
def LiesBelow (slashes : Nat) (parts : List (List Char)) (target : Target) : Prop :=
  ∃ way, (∀ part ∈ way, Path.IsStep part) ∧ target.path = Path.place slashes (parts ++ way) ∧
    ∀ path, target = .file path →
      ∃ (above : List (List Char)) (name : String), way = above ++ [name.toList] ∧
        isIndexable name = true

/-- Neither of two targets lies on the way to the other. -/
def Apart (first second : Target) : Prop :=
  ¬ Path.steps first.path <+: Path.steps second.path ∧
    ¬ Path.steps second.path <+: Path.steps first.path

theorem Apart.symm {first second : Target} (apart : Apart first second) : Apart second first :=
  ⟨apart.2, apart.1⟩

variable {slashes : Nat} {parts : List (List Char)}

theorem target?_path {entry : Entry} {target : Target}
    (leads : target? settings entry = some target) : target.path = entry.path := by
  unfold target? at leads
  split at leads
  · split at leads
    · cases leads
    · cases leads; rfl
  · split at leads
    · cases leads; rfl
    · cases leads

private theorem isIndexable_of_target? {entry : Entry} {path : String}
    (leads : target? settings entry = some (.file path)) : isIndexable entry.name = true := by
  unfold target? at leads
  split at leads
  · split at leads <;> cases leads
  · split at leads
    · next accepted => exact (Bool.and_eq_true_iff.mp accepted).2
    · cases leads

private theorem listTargets_below {files : FileSystem} (regular : files.IsRegular)
    (few : slashes = 1 ∨ slashes = 2) {way : List (List Char)}
    (steps : ∀ part ∈ parts ++ way, Path.IsStep part) {targets : List Target}
    (listed : listTargets settings (files.list (Path.place slashes (parts ++ way))) = .ok targets) :
    (∀ target ∈ targets, LiesBelow slashes parts target ∧
      ∃ name, Path.steps target.path = parts ++ way ++ [name]) ∧ targets.Pairwise Apart := by
  have some : slashes ≠ 0 := by omega
  unfold listTargets at listed
  split at listed
  · next entries answer =>
    cases listed
    have below : ∀ entry ∈ entries, Path.IsStep entry.name.toList ∧
        entry.path = Path.place slashes (parts ++ way ++ [entry.name.toList]) := by
      intro entry member
      obtain ⟨named, path⟩ := regular.entries _ entries answer entry member
      exact ⟨named, path.trans (Path.join_place some steps named)⟩
    have stepsBelow : ∀ entry ∈ entries, ∀ target, target? settings entry = Option.some target →
        Path.steps target.path = parts ++ way ++ [entry.name.toList] := by
      intro entry member target leads
      rw [target?_path leads, (below entry member).2]
      apply Path.steps_place few
      intro part inParts
      rcases List.mem_append.mp inParts with before | last
      · exact steps part before
      · exact List.mem_singleton.mp last ▸ (below entry member).1
    refine ⟨?_, ?_⟩
    · intro target member
      obtain ⟨entry, inEntries, leads⟩ := List.mem_filterMap.mp member
      have inEntries := List.mem_mergeSort.mp inEntries
      obtain ⟨named, path⟩ := below entry inEntries
      refine ⟨⟨way ++ [entry.name.toList], ?_, ?_, ?_⟩, _, stepsBelow entry inEntries target leads⟩
      · intro part inWay
        rcases List.mem_append.mp inWay with before | last
        · exact steps part (List.mem_append.mpr (.inr before))
        · exact List.mem_singleton.mp last ▸ named
      · rw [target?_path leads, path, List.append_assoc]
      · rintro found rfl
        exact ⟨way, entry.name, rfl, isIndexable_of_target? leads⟩
    · have names : entries.Pairwise fun a b => a.name ≠ b.name :=
        List.pairwise_map.mp (regular.distinct _ entries answer)
      have marked : entries.Pairwise fun a b => a ∈ entries ∧ b ∈ entries ∧ a.name ≠ b.name :=
        List.pairwise_iff_forall_sublist.mpr fun sub =>
          ⟨sub.subset (by simp), sub.subset (by simp), List.pairwise_iff_forall_sublist.mp names sub⟩
      have sorted : (entries.mergeSort precedes).Pairwise
          fun a b => a ∈ entries ∧ b ∈ entries ∧ a.name ≠ b.name :=
        (List.mergeSort_perm entries precedes).symm.pairwise marked
          fun ⟨inA, inB, different⟩ => ⟨inB, inA, different.symm⟩
      refine sorted.filterMap _ ?_
      intro a b ⟨inA, inB, different⟩ first leadsA second leadsB
      have sameLength : ∀ c d : List Char, parts ++ way ++ [c] <+: parts ++ way ++ [d] → c = d := by
        intro c d isPrefix
        have same := isPrefix.eq_of_length (by simp)
        simpa using same
      unfold Apart
      rw [stepsBelow a inA first leadsA, stepsBelow b inB second leadsB]
      exact ⟨fun isPrefix => different (String.toList_injective (sameLength _ _ isPrefix)),
        fun isPrefix => different (String.toList_injective (sameLength _ _ isPrefix)).symm⟩
  · split at listed
    · cases listed
      exact ⟨by simp, .nil⟩
    · cases listed

private theorem apart_of_below {directory below other : Target} {name : List Char}
    (apart : Apart directory other)
    (step : Path.steps below.path = Path.steps directory.path ++ [name]) : Apart below other := by
  -- one step below a directory lies apart from all that the directory was apart from
  unfold Apart at apart ⊢
  rw [step]
  generalize Path.steps directory.path = here at apart
  generalize Path.steps other.path = there at apart
  refine ⟨?_, ?_⟩
  · intro isPrefix
    exact apart.1 ((List.prefix_append here [name]).trans isPrefix)
  · intro isPrefix
    rcases List.prefix_concat_iff.mp isPrefix with same | isPrefix
    · exact apart.1 (same ▸ List.prefix_append here [name])
    · exact apart.2 isPrefix

/-- Everything that a walk goes to or has found lies below its root, and no part of it on the way to
another. -/
theorem Walking.apart {pending : List Target} {found : List String}
    (regular : ∀ files, moments files → files.IsRegular) (few : slashes = 1 ∨ slashes = 2)
    (steps : ∀ part ∈ parts, Path.IsStep part)
    (walk : Walking settings moments (Path.place slashes parts) pending found) :
    (∀ target ∈ pending ++ found.map Target.file, LiesBelow slashes parts target) ∧
      (pending ++ found.map Target.file).Pairwise Apart := by
  induction walk with
  | start =>
    refine ⟨?_, List.pairwise_singleton Apart _⟩
    intro target member
    rw [List.mem_singleton.mp member]
    exact ⟨[], by simp, by rw [List.append_nil]; rfl, fun path same => by cases same⟩
  | finds path rest found before ih =>
    have moved : (rest ++ (found ++ [path]).map Target.file).Perm
        (.file path :: rest ++ found.map Target.file) := by
      rw [List.map_append, ← List.append_assoc]
      exact List.perm_append_singleton (Target.file path) _
    refine ⟨fun target member => ih.1 target (moved.mem_iff.mp member), ?_⟩
    exact moved.symm.pairwise ih.2 Apart.symm
  | lists path rest targets found files before moment listed ih =>
    obtain ⟨way, stepsWay, here, _⟩ := ih.1 (.directory path) List.mem_cons_self
    have stepsHere : ∀ part ∈ parts ++ way, Path.IsStep part := by
      intro part member
      rcases List.mem_append.mp member with above | below
      · exact steps part above
      · exact stepsWay part below
    have root : Path.steps path = parts ++ way := by
      rw [show path = _ from here]
      exact Path.steps_place few stepsHere
    rw [show path = _ from here] at listed
    obtain ⟨below, distinct⟩ := listTargets_below (regular files moment) few stepsHere listed
    obtain ⟨apart, others⟩ := List.pairwise_cons.mp ih.2
    rw [List.append_assoc]
    refine ⟨?_, List.pairwise_append.mpr ⟨distinct, others, ?_⟩⟩
    · intro target member
      rcases List.mem_append.mp member with inListing | elsewhere
      · exact (below target inListing).1
      · exact ih.1 target (List.mem_cons_of_mem _ elsewhere)
    · intro target inListing other member
      obtain ⟨name, step⟩ := (below target inListing).2
      rw [← root] at step
      exact apart_of_below (apart other member) step

/-- The files that a walk has found are indexed, and are known by different paths. -/
theorem Walking.relatives {found : List String} {root : String}
    (regular : ∀ files, moments files → files.IsRegular)
    (rooted : ∃ path, root = Path.absolute path) (walk : Walking settings moments root [] found) :
    (∀ path ∈ found, isIndexable (Loading.relativePath root path) = true) ∧
      (found.map (Loading.relativePath root)).Nodup := by
  obtain ⟨given, rfl⟩ := rooted
  obtain ⟨slashes, parts, few, steps, shape⟩ := Path.absolute_eq_place given
  rw [shape] at walk ⊢
  obtain ⟨below, apart⟩ := walk.apart regular few steps
  have placed : ∀ path ∈ found, ∃ way, way ≠ [] ∧ (∀ part ∈ way, Path.IsStep part) ∧
      Path.steps path = parts ++ way ∧
      Loading.relativePath (Path.place slashes parts) path =
        String.ofList (Text.joinWith ['/'] way) ∧
      isIndexable (String.ofList (Text.joinWith ['/'] way)) = true := by
    intro path member
    obtain ⟨way, stepsWay, here, ends⟩ :=
      below (.file path) (List.mem_map.mpr ⟨path, member, rfl⟩)
    obtain ⟨above, name, rfl, known⟩ := ends path rfl
    have all : ∀ part ∈ parts ++ (above ++ [name.toList]), Path.IsStep part := by
      intro part member
      rcases List.mem_append.mp member with inRoot | inWay
      · exact steps part inRoot
      · exact stepsWay part inWay
    change path = _ at here
    refine ⟨above ++ [name.toList], by simp, stepsWay, ?_, ?_, Path.isIndexable_way known⟩
    · rw [here, Path.steps_place few all]
    · rw [here, Path.relativePath_place few all (by simp)]
  refine ⟨?_, List.pairwise_map.mpr ?_⟩
  · intro path member
    obtain ⟨way, _, _, _, relative, known⟩ := placed path member
    rw [relative]
    exact known
  · refine List.Pairwise.imp_of_mem ?_ (List.pairwise_map.mp apart)
    intro first second inFound inFound' different same
    obtain ⟨way, some, stepsWay, here, relative, _⟩ := placed first inFound
    obtain ⟨way', some', stepsWay', here', relative', _⟩ := placed second inFound'
    rw [relative, relative'] at same
    have equal := Path.joinWith_steps_injective stepsWay stepsWay' some some'
      (by rw [← String.toList_ofList (l := Text.joinWith ['/'] way), same, String.toList_ofList])
    have prefixed : Path.steps first <+: Path.steps second := by
      rewrite [here, here', equal]
      exact List.prefix_rfl
    exact different.1 prefixed

end Walk

end CodeSearch
