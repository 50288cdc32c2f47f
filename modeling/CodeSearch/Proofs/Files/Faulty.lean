import CodeSearch.Proofs.Files.Edits
import CodeSearch.Proofs.Files.WalkOrder

/-! # Files without the faulty ones

Files may be there that cannot be read, and directories that cannot be listed. A walk passes over
such directories where the system refuses them. So it finds what it would find if none of them were
there, and besides only files that cannot be read.
-/

namespace CodeSearch

open Walk

/-- What an entry stands for. -/
def Walk.Target.of (entry : Entry) : Target :=
  if entry.isDirectory then .directory entry.path else .file entry.path

namespace FileSystem

/-- The files without the faulty ones: these are neither there nor listed. -/
def without (files : FileSystem) (faulty : Target → Bool) : FileSystem where
  size path := if faulty (.file path) then .ok none else files.size path
  read path := if faulty (.file path) then .error (.absent path) else files.read path
  list path :=
    if faulty (.directory path) then .error (.absent path)
    else (files.list path).map (List.filter fun entry => !faulty (.of entry))
  depth := files.depth

/-- The given files cannot be read, and the given directories cannot be listed. -/
structure FailsAt (files : FileSystem) (faulty : Target → Bool) : Prop where
  read : ∀ path, faulty (.file path) = true → ∃ fault, files.read path = .error fault
  list : ∀ path, faulty (.directory path) = true → ∃ fault, files.list path = .error fault

/-- The files of the given moments without the faulty ones. -/
def HealthyPart (faulty : Target → Bool) (moments : FileSystem → Prop) (part : FileSystem) : Prop :=
  ∃ files, moments files ∧ part = files.without faulty

variable {files : FileSystem} {faulty : Target → Bool} {path : String}

theorem read_without (healthy : faulty (.file path) = false) :
    (files.without faulty).read path = files.read path := by
  simp [without, healthy]

theorem size_without (healthy : faulty (.file path) = false) :
    (files.without faulty).size path = files.size path := by
  simp [without, healthy]

end FileSystem

namespace Walk

variable {α : Type} [Scalar α] {settings : Settings α} {files : FileSystem}
  {moments : FileSystem → Prop} {faulty : Target → Bool} {root path : String}

private theorem eq_of_target? {entry : Entry} {target : Target}
    (goal : target? settings entry = some target) : target = .of entry := by
  rcases target?_cases goal with ⟨directory, rfl⟩ | ⟨file, rfl⟩
  · rw [Target.of, if_pos directory]
  · rw [Target.of, if_neg (by simp [file])]

/-- A listing without the faulty entries leads to the same targets, but for the faulty ones. -/
theorem targets_filter (settings : Settings α) (faulty : Target → Bool) (entries : List Entry) :
    targets settings (entries.filter fun entry => !faulty (.of entry)) =
      (targets settings entries).filter fun target => !faulty target := by
  unfold targets
  rw [← Sorting.filter_mergeSort precedes_trans precedes_total, List.filterMap_filter,
    List.filter_filterMap]
  refine congrArg (fun goal => List.filterMap goal _) (funext fun entry => ?_)
  cases goal : target? settings entry with
  | none => simp
  | some target =>
    rw [← eq_of_target? goal, Option.filter_some]

theorem listTargets_without (healthy : faulty (.directory path) = false) :
    listTargets settings ((files.without faulty).list path) =
      (listTargets settings (files.list path)).map (List.filter fun target => !faulty target) := by
  simp only [FileSystem.without, healthy, Bool.false_eq_true, if_false]
  cases files.list path with
  | ok entries => exact congrArg Except.ok (targets_filter settings faulty entries)
  | error fault =>
    change (if fault.isUnavailable then _ else _) =
      Except.map _ (if fault.isUnavailable then _ else _)
    split <;> rfl

/-- A faulty directory leads nowhere, whether it is there or not. -/
theorem listTargets_faulty (gone : faulty (.directory path) = true) :
    listTargets settings ((files.without faulty).list path) = .ok [] := by
  simp only [FileSystem.without, gone, if_true]
  rfl

theorem listTargets_of_fault {fault : FileFault} (told : files.list path = .error fault)
    {targets : List Target} (listed : listTargets settings (files.list path) = .ok targets) :
    targets = [] := by
  rw [told, listTargets] at listed
  split at listed
  · cases listed
    rfl
  · cases listed

private theorem Walking.healthy (fails : ∀ files, moments files → files.FailsAt faulty)
    {pending : List Target} {found : List String}
    (walk : Walking settings moments root pending found) :
    pending = [.directory root] ∧ found = [] ∨
      Walking settings (FileSystem.HealthyPart faulty moments) root
        (pending.filter fun target => !faulty target)
        (found.filter fun path => !faulty (.file path)) := by
  -- only the start at the root comes before anything can be left out
  induction walk with
  | start => exact .inl ⟨rfl, rfl⟩
  | finds path rest found before ih =>
    rcases ih with ⟨same, -⟩ | walk
    · cases same
    · refine .inr ?_
      rw [List.filter_append, List.filter_singleton]
      rw [List.filter_cons] at walk
      cases gone : faulty (.file path) with
      | true => simpa [gone] using walk
      | false =>
        simp only [gone, Bool.not_false, if_true] at walk
        simpa using walk.finds
  | lists path rest targets found files before moment listed ih =>
    have part : FileSystem.HealthyPart faulty moments (files.without faulty) := ⟨files, moment, rfl⟩
    rw [List.filter_append]
    cases gone : faulty (.directory path) with
    | true =>
      obtain ⟨fault, told⟩ := (fails files moment).list path gone
      obtain rfl := listTargets_of_fault told listed
      rcases ih with ⟨same, rfl⟩ | walk
      · cases same
        exact .inr (.lists root [] [] [] _ .start part (listTargets_faulty gone))
      · rw [List.filter_cons] at walk
        simp only [gone, Bool.not_true, Bool.false_eq_true, if_false] at walk
        exact .inr walk
    | false =>
      have listedPart : listTargets settings ((files.without faulty).list path) =
          .ok (targets.filter fun target => !faulty target) := by
        rw [listTargets_without gone, listed]
        rfl
      rcases ih with ⟨same, rfl⟩ | walk
      · cases same
        exact .inr (.lists root [] _ [] _ .start part listedPart)
      · rw [List.filter_cons] at walk
        simp only [gone, Bool.not_false, if_true] at walk
        exact .inr (.lists path _ _ _ _ walk part listedPart)

/-- A walk that has come to its end over files that may be faulty has found the files that it would
find without the faulty ones, and besides only faulty files. -/
theorem Walking.without (fails : ∀ files, moments files → files.FailsAt faulty)
    {found : List String} (walk : Walking settings moments root [] found) :
    Walking settings (FileSystem.HealthyPart faulty moments) root []
      (found.filter fun path => !faulty (.file path)) := by
  rcases walk.healthy fails with ⟨same, -⟩ | walk
  · cases same
  · exact walk

/-- A walk comes to a directory that is not listed, and not because the system refuses. -/
inductive Breaks (settings : Settings α) (moments : FileSystem → Prop) (root : String) :
    FileFault → Prop where
  | at (path : String) (rest : List Target) (found : List String) (files : FileSystem)
      (fault : FileFault) (walk : Walking settings moments root (.directory path :: rest) found)
      (moment : moments files) (listed : files.list path = .error fault)
      (unborne : fault.isUnavailable = false) : Breaks settings moments root fault

theorem listTargets_eq_error_iff {listing : Except FileFault (List Entry)} {fault : FileFault} :
    listTargets settings listing = .error fault ↔
      listing = .error fault ∧ fault.isUnavailable = false := by
  cases listing with
  | ok entries => simp [listTargets]
  | error other =>
    rw [listTargets]
    cases refused : other.isUnavailable with
    | true =>
      simp only [if_true, reduceCtorEq, Except.error.injEq, false_iff, not_and]
      rintro rfl
      simp [refused]
    | false =>
      simp only [Bool.false_eq_true, if_false, Except.error.injEq, iff_self_and]
      rintro rfl
      exact refused

end Walk

end CodeSearch
