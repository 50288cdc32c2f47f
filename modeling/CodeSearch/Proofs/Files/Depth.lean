import CodeSearch.Proofs.Files.Volumes
import Mathlib.Data.List.Perm.Subperm
import Mathlib.Order.Basic

/-! # How deep directories lie

A file system states how deep its directories lie below one another. Where that is so, a walk comes
to an end, and it finds target by target what the discovery of the files finds at once.
-/

namespace CodeSearch

namespace FileSystem

/-- From a directory on, itself included, no more than the given number of directories lie below one
another. -/
inductive IsWithin (files : FileSystem) : Nat → String → Prop where
  | listed (depth : Nat) (directory : String)
      (entries : ∀ entry, files.Lists directory entry → entry.isDirectory = true →
        IsWithin files depth entry.path) : IsWithin files (depth + 1) directory

/-- The depth is what the file system states. -/
def HasDepth (files : FileSystem) : Prop := ∀ directory, files.IsWithin files.depth directory

theorem IsWithin.mono {files : FileSystem} {depth : Nat} {directory : String}
    (within : files.IsWithin depth directory) {more : Nat} (le : depth ≤ more) :
    files.IsWithin more directory := by
  induction within generalizing more with
  | listed depth directory entries ih =>
    obtain ⟨more, rfl⟩ := Nat.exists_eq_add_one_of_ne_zero (Nat.ne_zero_of_lt le)
    exact .listed more directory fun entry lists isDirectory =>
      ih entry lists isDirectory (Nat.le_of_succ_le_succ le)

/-- What holds of a directory if it holds of the directories that are listed there holds of all. -/
theorem HasDepth.induct {files : FileSystem} (deep : files.HasDepth) {motive : String → Prop}
    (listed : ∀ directory, (∀ entry, files.Lists directory entry → entry.isDirectory = true →
      motive entry.path) → motive directory)
    (directory : String) : motive directory := by
  have ofWithin : ∀ {depth directory}, files.IsWithin depth directory → motive directory := by
    intro depth directory within
    induction within with
    | listed depth directory _ ih => exact listed directory ih
  exact ofWithin (deep directory)

end FileSystem

namespace Walk

variable {α : Type} [Scalar α] {settings : Settings α} {files : FileSystem} {root : String}

private theorem mapM_congr {ε β γ : Type} {first second : β → Except ε γ} {items : List β}
    (same : ∀ item ∈ items, first item = second item) : items.mapM first = items.mapM second := by
  induction items with
  | nil => rfl
  | cons item rest ih =>
    rw [List.mapM_cons, List.mapM_cons, same item List.mem_cons_self,
      ih fun other member => same other (List.mem_cons_of_mem _ member)]

/-- The directories to which a listing leads are listed in it. -/
theorem lists_of_mem {directory path : String} {targets : List Target}
    (listed : listTargets settings (files.list directory) = .ok targets)
    (member : .directory path ∈ targets) :
    ∃ entry, files.Lists directory entry ∧ entry.isDirectory = true ∧ entry.path = path := by
  cases (leads_iff_mem listed).mpr member with
  | goes _ entry _ lists goal =>
    rcases target?_cases goal with ⟨isDirectory, same⟩ | ⟨-, same⟩
    · cases same
      exact ⟨entry, lists, isDirectory, rfl⟩
    · cases same

private theorem filesBelow_of_isWithin {depth : Nat} {directory : String}
    (within : files.IsWithin depth directory) {more : Nat} (le : depth ≤ more) :
    filesBelow settings files more directory = filesBelow settings files depth directory := by
  induction within generalizing more with
  | listed depth directory entries ih =>
    obtain ⟨more, rfl⟩ := Nat.exists_eq_add_one_of_ne_zero (Nat.ne_zero_of_lt le)
    rw [filesBelow, filesBelow]
    cases listed : listTargets settings (files.list directory) with
    | error fault => rfl
    | ok targets =>
      refine congrArg (fun found => Except.map List.flatten found) (mapM_congr ?_)
      rintro (path | path) member
      · obtain ⟨entry, lists, isDirectory, rfl⟩ := lists_of_mem listed member
        exact ih entry lists isDirectory (Nat.le_of_succ_le_succ le)
      · rfl

/-- The files that are found from a target on. -/
def visit (settings : Settings α) (files : FileSystem) : Target → Except FileFault (List String)
  | .directory path => discover settings files path
  | .file path => .ok [path]

/-- The files that are found from targets on, one target after another. -/
def visitAll (settings : Settings α) (files : FileSystem) :
    List Target → Except FileFault (List String)
  | [] => .ok []
  | target :: rest => do return (← visit settings files target) ++ (← visitAll settings files rest)

theorem visitAll_append (first second : List Target) :
    visitAll settings files (first ++ second) =
      (visitAll settings files first).bind fun found =>
        (visitAll settings files second).map (found ++ ·) := by
  induction first with
  | nil =>
    rw [List.nil_append, visitAll]
    cases visitAll settings files second <;> rfl
  | cons target rest ih =>
    simp only [List.cons_append, visitAll, ih, bind, Except.bind, pure, Except.pure, Except.map]
    cases visit settings files target with
    | error fault => rfl
    | ok found =>
      cases visitAll settings files rest with
      | error fault => rfl
      | ok others =>
        cases visitAll settings files second with
        | error fault => rfl
        | ok more => simp only [List.append_assoc]

private theorem visitAll_eq (targets : List Target) :
    (targets.mapM (visit settings files)).map List.flatten = visitAll settings files targets := by
  induction targets with
  | nil => rfl
  | cons target rest ih =>
    rw [List.mapM_cons, visitAll, ← ih]
    cases visit settings files target with
    | error fault => rfl
    | ok found => cases rest.mapM (visit settings files) <;> rfl

/-- A directory is discovered by going to the targets of its listing. -/
theorem discover_eq (deep : files.HasDepth) (directory : String) :
    discover settings files directory =
      (listTargets settings (files.list directory)).bind (visitAll settings files) := by
  have within := deep directory
  rw [discover]
  cases depth : files.depth with
  | zero => rw [depth] at within; cases within
  | succ depth' =>
    rw [depth] at within
    cases within with
    | listed _ _ entries =>
      rw [filesBelow]
      cases listed : listTargets settings (files.list directory) with
      | error fault => rfl
      | ok targets =>
        change _ = visitAll settings files targets
        rw [← visitAll_eq]
        refine congrArg (Except.map List.flatten) (mapM_congr ?_)
        rintro (path | path) member
        · obtain ⟨entry, lists, isDirectory, rfl⟩ := lists_of_mem listed member
          have within := entries entry lists isDirectory
          exact (filesBelow_of_isWithin within (by omega)).symm
        · rfl

/-- A walk that has come so far will find what is discovered from its root, as long as the files stay
as they are. -/
theorem Walking.discover_root (deep : files.HasDepth) {pending : List Target} {found : List String}
    (walk : Walking settings (· = files) root pending found) :
    discover settings files root = (visitAll settings files pending).map (found ++ ·) := by
  induction walk with
  | start =>
    simp only [visitAll, visit, bind, Except.bind, pure, Except.pure, List.append_nil]
    cases discover settings files root <;> rfl
  | finds path rest found before ih =>
    rw [ih, visitAll]
    cases visitAll settings files rest with
    | error fault => rfl
    | ok others => exact congrArg Except.ok (List.append_assoc found [path] others).symm
  | lists path rest targets found current before moment listed ih =>
    subst moment
    rw [ih, visitAll, visit, discover_eq deep, listed, visitAll_append]
    change Except.map (found ++ ·) (visitAll settings current targets >>= _) = _
    cases visitAll settings current targets with
    | error fault => rfl
    | ok below => cases visitAll settings current rest <;> rfl

/-- A walk that meets a fault is a failed discovery. -/
theorem Walking.discover_of_fault (deep : files.HasDepth) {path : String} {rest : List Target}
    {found : List String} {fault : FileFault}
    (walk : Walking settings (· = files) root (.directory path :: rest) found)
    (listed : listTargets settings (files.list path) = .error fault) :
    discover settings files root = .error fault := by
  rw [walk.discover_root deep, visitAll, visit, discover_eq deep, listed]
  rfl

/-- A walk that is done has found what is discovered. -/
theorem Walking.discover_of_done (deep : files.HasDepth) {found : List String}
    (walk : Walking settings (· = files) root [] found) :
    discover settings files root = .ok found := by
  rw [walk.discover_root deep, visitAll]
  exact congrArg Except.ok (List.append_nil found)

/-- Listings lead down for so long only. -/
theorem leads_wellFounded {files : FileSystem} (settings : Settings α) (deep : files.HasDepth) :
    WellFounded fun below above => Leads settings files above below := by
  have ofDirectory : ∀ directory,
      Acc (fun below above => Leads settings files above below) (.directory directory) := by
    intro directory
    induction directory using deep.induct with
    | listed directory ih =>
      refine ⟨_, ?_⟩
      rintro _ ⟨_, entry, target, lists, goal⟩
      rcases target?_cases goal with ⟨isDirectory, rfl⟩ | ⟨-, rfl⟩
      · exact ih entry lists isDirectory
      · exact ⟨_, fun _ leads => by cases leads⟩
  refine ⟨?_⟩
  rintro (directory | path)
  · exact ofDirectory directory
  · exact ⟨_, fun _ leads => by cases leads⟩

end Walk

/-! ## Volumes -/

namespace Path

theorem length_lt_join (directory : String) {name : String} (named : IsStep name.toList) :
    directory.toList.length < (join directory name).toList.length := by
  have some := List.length_pos_iff.mpr named.nonempty
  rw [join, isAbsolute_eq_false named, if_neg (by simp)]
  split
  · simp only [String.toList_append, List.length_append]
    omega
  · simp only [String.toList_append, List.length_append]
    omega

end Path

namespace Volume

variable {volume : Volume}

/-- The directories whose paths are longer than a path. -/
def longerThan (volume : Volume) (path : String) : List String :=
  volume.directories.keys.filter fun other => path.toList.length < other.toList.length

private theorem IsTidy.isWithin (tidy : volume.IsTidy) (directory : String) :
    volume.fileSystem.IsWithin ((volume.longerThan directory).length + 1) directory := by
  generalize bound : (volume.longerThan directory).length = count
  induction count using Nat.strongRecOn generalizing directory with
  | ind count ih =>
    refine .listed count directory ?_
    intro entry lists isDirectory
    obtain ⟨named, here⟩ := tidy.isRegular.lists lists
    have known : entry.path ∈ volume.directories.keys := by
      obtain ⟨-, inListing⟩ := lists_iff.mp lists
      obtain ⟨member, -, -, ⟨known, rfl⟩ | ⟨-, rfl⟩⟩ := mem_entriesIn.mp inListing
      · exact known
      · cases isDirectory
    have longer : directory.toList.length < entry.path.toList.length :=
      here ▸ Path.length_lt_join directory named
    have distinct : (entry.path :: volume.longerThan entry.path).Nodup :=
      List.nodup_cons.mpr ⟨by simp [longerThan], volume.directories.distinct.filter _⟩
    have among : entry.path :: volume.longerThan entry.path ⊆ volume.longerThan directory := by
      intro path member
      rcases List.mem_cons.mp member with rfl | member
      · exact List.mem_filter.mpr ⟨known, by simpa using longer⟩
      · obtain ⟨inKeys, deeper⟩ := List.mem_filter.mp member
        have deeper : entry.path.toList.length < path.toList.length := by simpa using deeper
        exact List.mem_filter.mpr ⟨inKeys, by simpa using Nat.lt_trans longer deeper⟩
    have fewer : (volume.longerThan entry.path).length + 1 ≤ count :=
      bound ▸ (distinct.subperm among).length_le
    exact (ih _ fewer entry.path rfl).mono fewer

/-- A tidy volume is no deeper than it has directories. -/
theorem IsTidy.hasDepth (tidy : volume.IsTidy) : volume.fileSystem.HasDepth := by
  intro directory
  refine (tidy.isWithin directory).mono (Nat.add_le_add_right ?_ 1)
  exact (List.length_filter_le _ _).trans_eq (List.length_map _)

end Volume

end CodeSearch
