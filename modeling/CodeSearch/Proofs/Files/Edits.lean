import CodeSearch.Proofs.Files.Walking
import Mathlib.Logic.Relation

/-! # Edits of single files

A walk over files that stay as they are finds the files to which listings lead. When a single file
is written or removed, listings lead to the same other files as before, and to the file itself
exactly if it is there.
-/

namespace CodeSearch

namespace FileSystem

/-- A directory is listed, and an entry in it. -/
def Lists (files : FileSystem) (directory : String) (entry : Entry) : Prop :=
  ∃ listed, files.list directory = .ok listed ∧ entry ∈ listed

theorem IsRegular.lists {files : FileSystem} (regular : files.IsRegular) {directory : String}
    {entry : Entry} (lists : files.Lists directory entry) :
    Path.IsStep entry.name.toList ∧ entry.path = Path.join directory entry.name := by
  obtain ⟨listed, answer, member⟩ := lists
  exact regular.entries directory listed answer entry member

end FileSystem

namespace Walk

variable {α : Type} [Scalar α] {settings : Settings α} {files : FileSystem} {root : String}

/-- A directory leads to what a walk goes to from its listing. -/
inductive Leads (settings : Settings α) (files : FileSystem) : Target → Target → Prop where
  | goes (directory : String) (entry : Entry) (target : Target)
      (lists : files.Lists directory entry) (goal : target? settings entry = some target) :
      Leads settings files (.directory directory) target

/-- What is led to from a target, in any number of listings. -/
abbrev Reaches (settings : Settings α) (files : FileSystem) : Target → Target → Prop :=
  Relation.ReflTransGen (Leads settings files)

private theorem reaches_file {path : String} {target : Target}
    (reaches : Reaches settings files (.file path) target) : target = .file path := by
  rcases reaches.cases_head with same | ⟨middle, leads, -⟩
  · exact same.symm
  · cases leads

/-- A directory leads to the targets of its listing. -/
theorem leads_iff_mem {directory : String} {targets : List Target} {target : Target}
    (listed : listTargets settings (files.list directory) = .ok targets) :
    Leads settings files (.directory directory) target ↔ target ∈ targets := by
  unfold listTargets at listed
  split at listed
  · next entries answer =>
    cases listed
    simp only [targets, List.mem_filterMap, List.mem_mergeSort]
    constructor
    · rintro ⟨_, entry, _, ⟨listed, same, member⟩, goal⟩
      rw [answer, Except.ok.injEq] at same
      exact ⟨entry, same ▸ member, goal⟩
    · rintro ⟨entry, member, goal⟩
      exact .goes directory entry target ⟨entries, answer, member⟩ goal
  · next fault answer =>
    split at listed
    · cases listed
      simp only [List.not_mem_nil, iff_false]
      rintro ⟨_, entry, _, ⟨listed, same, -⟩, -⟩
      rw [answer] at same
      cases same
    · cases listed

private theorem Walking.reaches {pending : List Target} {found : List String}
    (walk : Walking settings (· = files) root pending found) :
    (∀ target ∈ pending, Reaches settings files (.directory root) target) ∧
      ∀ path ∈ found, Reaches settings files (.directory root) (.file path) := by
  induction walk with
  | start => simp [Relation.ReflTransGen.refl]
  | finds path rest found before ih =>
    obtain ⟨ahead, behind⟩ := ih
    refine ⟨fun target member => ahead target (List.mem_cons_of_mem _ member), ?_⟩
    intro other member
    rcases List.mem_append.mp member with earlier | last
    · exact behind other earlier
    · rw [List.mem_singleton.mp last]
      exact ahead _ List.mem_cons_self
  | lists path rest targets found current before moment listed ih =>
    subst moment
    obtain ⟨ahead, behind⟩ := ih
    refine ⟨?_, behind⟩
    intro target member
    rcases List.mem_append.mp member with new | old
    · exact (ahead _ List.mem_cons_self).tail ((leads_iff_mem listed).mpr new)
    · exact ahead target (List.mem_cons_of_mem _ old)

private theorem Walking.covers {pending : List Target} {found : List String}
    (walk : Walking settings (· = files) root pending found) {path : String}
    (reaches : Reaches settings files (.directory root) (.file path)) :
    path ∈ found ∨ ∃ target ∈ pending, Reaches settings files target (.file path) := by
  -- what is not found yet is led to by something that is still pending
  induction walk with
  | start => exact .inr ⟨.directory root, List.mem_cons_self, reaches⟩
  | finds first rest found before ih =>
    rcases ih with known | ⟨target, member, onward⟩
    · exact .inl (List.mem_append.mpr (.inl known))
    · rcases List.mem_cons.mp member with rfl | later
      · cases reaches_file onward
        exact .inl (by simp)
      · exact .inr ⟨target, later, onward⟩
  | lists directory rest targets found current before moment listed ih =>
    subst moment
    rcases ih with known | ⟨target, member, onward⟩
    · exact .inl known
    · rcases List.mem_cons.mp member with rfl | later
      · rcases onward.cases_head with same | ⟨middle, leads, onward⟩
        · cases same
        · have inListing := (leads_iff_mem listed).mp leads
          exact .inr ⟨middle, List.mem_append.mpr (.inl inListing), onward⟩
      · exact .inr ⟨target, List.mem_append.mpr (.inr later), onward⟩

/-- A walk over files that stay as they are finds all files to which listings lead, and no others.
-/
theorem Walking.mem_found_iff {found : List String}
    (walk : Walking settings (· = files) root [] found) (path : String) :
    path ∈ found ↔ Reaches settings files (.directory root) (.file path) := by
  constructor
  · exact walk.reaches.2 path
  · intro reaches
    rcases walk.covers reaches with known | ⟨target, member, -⟩
    · exact known
    · cases member

end Walk

/-! ## The way to a file -/

/-- The path to which names lead from a directory. -/
def Path.below (directory : String) (way : List String) : String := way.foldl Path.join directory

namespace FileSystem

/-- The directories on the way to a file, each with the entry that leads on. -/
def wayTo : String → List String → String → List (String × Entry)
  | directory, [], name => [(directory, ⟨name, Path.join directory name, false⟩)]
  | directory, part :: way, name =>
    (directory, ⟨part, Path.join directory part, true⟩) :: wayTo (Path.join directory part) way name

/-- The file is there: every directory on the way lists what comes next. -/
def Shows (files : FileSystem) (root : String) (way : List String) (name : String) : Prop :=
  ∀ step ∈ wayTo root way name, files.Lists step.1 step.2

/-- Two moments between which at most one file was written or removed, and directories on the way to
it were made or removed. Directories that are not there list nothing. -/
structure EditedAt (root : String) (way : List String) (name : String)
    (before after : FileSystem) : Prop where
  others : ∀ directory entry, before.Lists directory entry ∨ after.Lists directory entry →
    entry.isDirectory = false → entry.path ≠ Path.join (Path.below root way) name →
    after.size entry.path = before.size entry.path ∧ after.read entry.path = before.read entry.path
  elsewhere : ∀ directory, (∀ step ∈ wayTo root way name, directory ≠ step.1) →
    after.list directory = before.list directory
  beside : ∀ step ∈ wayTo root way name, ∀ entry, entry.name ≠ step.2.name →
    (before.Lists step.1 entry ↔ after.Lists step.1 entry)
  onWay : ∀ step ∈ wayTo root way name, ∀ entry, entry.name = step.2.name →
    before.Lists step.1 entry ∨ after.Lists step.1 entry → entry = step.2
  absent : ∀ files ∈ [before, after], ∀ step ∈ wayTo root way name, step.2.isDirectory = true →
    ¬ files.Lists step.1 step.2 → ∀ entry, ¬ files.Lists step.2.path entry

variable {root name : String} {way : List String} {before after files : FileSystem}

theorem EditedAt.symm (edited : EditedAt root way name before after) :
    EditedAt root way name after before where
  others directory entry listed file other := by
    obtain ⟨size, read⟩ := edited.others directory entry listed.symm file other
    exact ⟨size.symm, read.symm⟩
  elsewhere directory apart := (edited.elsewhere directory apart).symm
  beside step member entry other := (edited.beside step member entry other).symm
  onWay step member entry same listed := edited.onWay step member entry same listed.symm
  absent files member := by
    refine edited.absent files ?_
    simpa [or_comm] using member

private theorem path_of_wayTo {step : String × Entry} (member : step ∈ wayTo root way name)
    (file : step.2.isDirectory = false) : step.2.path = Path.join (Path.below root way) name := by
  induction way generalizing root with
  | nil =>
    simp only [wayTo, List.mem_singleton] at member
    subst member
    rfl
  | cons part way ih =>
    rcases List.mem_cons.mp member with rfl | later
    · cases file
    · exact ih later

private theorem next_of_wayTo {step : String × Entry} (member : step ∈ wayTo root way name)
    (directory : step.2.isDirectory = true) :
    ∃ next ∈ wayTo root way name, next.1 = step.2.path := by
  induction way generalizing root with
  | nil =>
    simp only [wayTo, List.mem_singleton] at member
    subst member
    cases directory
  | cons part way ih =>
    rcases List.mem_cons.mp member with rfl | later
    · refine ⟨(wayTo (Path.join root part) way name).head (by cases way <;> simp [wayTo]), ?_, ?_⟩
      · exact List.mem_cons_of_mem _ (List.head_mem _)
      · cases way <;> rfl
    · obtain ⟨next, known, same⟩ := ih later
      exact ⟨next, List.mem_cons_of_mem _ known, same⟩

end FileSystem

namespace Walk

open FileSystem

variable {α : Type} [Scalar α] {settings : Settings α} {files before after : FileSystem}
  {root name : String} {way : List String}

private theorem reaches_or_gone (edited : EditedAt root way name before after) {target : Target}
    (reaches : Reaches settings before (.directory root) target) :
    Reaches settings after (.directory root) target ∨
      target = .file (Path.join (Path.below root way) name) ∨
      ∃ step ∈ wayTo root way name, step.2.isDirectory = true ∧
        target = .directory step.2.path ∧ ¬ after.Lists step.1 step.2 := by
  -- a target that is lost is the file itself or a directory on the way to it
  induction reaches with
  | refl => exact .inl .refl
  | @tail middle target _ leads ih =>
    obtain ⟨directory, entry, _, lists, goal⟩ := leads
    have onward : ∀ step ∈ wayTo root way name, step.1 = directory → entry.name = step.2.name →
        (after.Lists directory entry → Reaches settings after (.directory root) target) →
        Reaches settings after (.directory root) target ∨
          target = .file (Path.join (Path.below root way) name) ∨
          ∃ step ∈ wayTo root way name, step.2.isDirectory = true ∧
            target = .directory step.2.path ∧ ¬ after.Lists step.1 step.2 := by
      rintro step member rfl same reached
      obtain rfl := edited.onWay step member entry same (.inl lists)
      by_cases still : after.Lists step.1 step.2
      · exact .inl (reached still)
      · have path := target?_path goal
        cases target with
        | file found =>
          have file : step.2.isDirectory = false := by
            unfold target? at goal
            split at goal
            · split at goal <;> cases goal
            · next file => simpa using file
          exact .inr (.inl (congrArg _ (path.trans (path_of_wayTo member file))))
        | directory found =>
          have isDirectory : step.2.isDirectory = true := by
            unfold target? at goal
            split at goal
            · assumption
            · split at goal <;> cases goal
          exact .inr (.inr ⟨step, member, isDirectory, congrArg _ path, still⟩)
    rcases ih with reached | itself | ⟨step, member, isDirectory, same, gone⟩
    · have reachedNext : after.Lists directory entry →
          Reaches settings after (.directory root) target := fun lists =>
        reached.tail (.goes directory entry target lists goal)
      by_cases own : ∃ step ∈ wayTo root way name, step.1 = directory
      · obtain ⟨step, member, rfl⟩ := own
        by_cases same : entry.name = step.2.name
        · exact onward step member rfl same reachedNext
        · exact .inl (reachedNext ((edited.beside step member entry same).mp lists))
      · have apart : ∀ step ∈ wayTo root way name, directory ≠ step.1 := fun step member same =>
          own ⟨step, member, same.symm⟩
        obtain ⟨listed, answer, member⟩ := lists
        exact .inl (reachedNext ⟨listed, (edited.elsewhere directory apart).trans answer, member⟩)
    · cases itself
    · cases same
      obtain ⟨next, known, same⟩ := next_of_wayTo member isDirectory
      have nothing := edited.absent after (by simp) step member isDirectory gone
      by_cases named : entry.name = next.2.name
      · exact onward next known same named fun lists => absurd lists (nothing entry)
      · rw [← same] at lists nothing
        exact absurd ((edited.beside next known entry named).mp lists) (nothing entry)

/-- Listings lead to another file before an edit exactly if they do so after it. -/
theorem reaches_of_edited (edited : EditedAt root way name before after) {path : String}
    (other : path ≠ Path.join (Path.below root way) name) :
    Reaches settings before (.directory root) (.file path) ↔
      Reaches settings after (.directory root) (.file path) := by
  constructor
  · intro reaches
    rcases reaches_or_gone edited reaches with reached | itself | ⟨step, _, _, same, _⟩
    · exact reached
    · cases itself
      exact absurd rfl other
    · cases same
  · intro reaches
    rcases reaches_or_gone edited.symm reaches with reached | itself | ⟨step, _, _, same, _⟩
    · exact reached
    · cases itself
      exact absurd rfl other
    · cases same

/-! ## Files that a walk accepts -/

/-- The names on the way to a file, and its own, are none that a walk passes over. -/
structure Accepts (settings : Settings α) (way : List String) (name : String) : Prop where
  steps : ∀ part ∈ way, Path.IsStep part.toList
  step : Path.IsStep name.toList
  directories : ∀ part ∈ way, settings.ignoresDirectory part = false
  file : settings.ignoresFile name = false
  known : isIndexable name = true

theorem accepts_nil :
    Accepts settings [] name ↔
      Path.IsStep name.toList ∧ settings.ignoresFile name = false ∧ isIndexable name = true :=
  ⟨fun accepted => ⟨accepted.step, accepted.file, accepted.known⟩,
    fun ⟨step, file, known⟩ => ⟨by simp, step, by simp, file, known⟩⟩

theorem accepts_cons {part : String} :
    Accepts settings (part :: way) name ↔
      Path.IsStep part.toList ∧ settings.ignoresDirectory part = false ∧
        Accepts settings way name := by
  constructor
  · rintro ⟨steps, step, directories, file, known⟩
    obtain ⟨stepPart, steps⟩ := List.forall_mem_cons.mp steps
    obtain ⟨kept, directories⟩ := List.forall_mem_cons.mp directories
    exact ⟨stepPart, kept, steps, step, directories, file, known⟩
  · rintro ⟨stepPart, kept, steps, step, directories, file, known⟩
    exact ⟨List.forall_mem_cons.mpr ⟨stepPart, steps⟩, step,
      List.forall_mem_cons.mpr ⟨kept, directories⟩, file, known⟩

/-- Every name counts, that of the file included. -/
theorem Accepts.forall_isStep (accepted : Accepts settings way name) :
    ∀ part ∈ way ++ [name], Path.IsStep part.toList :=
  List.forall_mem_append.mpr ⟨accepted.steps, List.forall_mem_singleton.mpr accepted.step⟩

private theorem target?_directory {directory part : String}
    (kept : settings.ignoresDirectory part = false) :
    target? settings ⟨part, Path.join directory part, true⟩ =
      some (.directory (Path.join directory part)) := by
  simp [target?, kept]

/-- A file that is there and accepted is led to. -/
theorem Accepts.reaches (accepted : Accepts settings way name)
    (shows : files.Shows root way name) :
    Reaches settings files (.directory root) (.file (Path.join (Path.below root way) name)) := by
  induction way generalizing root with
  | nil =>
    have lists := shows _ List.mem_cons_self
    refine .single (.goes root _ _ lists ?_)
    simp [target?, accepted.file, accepted.known, Path.below]
  | cons part way ih =>
    have lists := shows _ List.mem_cons_self
    obtain ⟨-, kept, rest⟩ := accepts_cons.mp accepted
    refine .head (.goes root _ _ lists (target?_directory kept)) (ih rest ?_)
    exact fun step member => shows step (List.mem_cons_of_mem _ member)

variable {slashes : Nat} {parts : List (List Char)}

/-- What is led to lies below, and a file lies properly below. -/
theorem reaches_below (regular : files.IsRegular) (few : slashes = 1 ∨ slashes = 2)
    (steps : ∀ part ∈ parts, Path.IsStep part) {target : Target}
    (reaches : Reaches settings files (.directory (Path.place slashes parts)) target) :
    ∃ names, (∀ part ∈ names, Path.IsStep part) ∧
      target.path = Path.place slashes (parts ++ names) ∧
      ((∃ path, target = .file path) → names ≠ []) := by
  induction reaches with
  | refl => exact ⟨[], by simp, by simp [Target.path], by simp⟩
  | @tail middle target _ leads ih =>
    obtain ⟨directory, entry, _, lists, goal⟩ := leads
    obtain ⟨names, stepsNames, path, -⟩ := ih
    obtain ⟨named, written⟩ := regular.lists lists
    have all : ∀ part ∈ parts ++ names, Path.IsStep part := by
      intro part member
      rcases List.mem_append.mp member with above | inNames
      · exact steps part above
      · exact stepsNames part inNames
    refine ⟨names ++ [entry.name.toList], ?_, ?_, fun _ => by simp⟩
    · intro part member
      rcases List.mem_append.mp member with inNames | last
      · exact stepsNames part inNames
      · exact List.mem_singleton.mp last ▸ named
    · change directory = _ at path
      rw [target?_path goal, written, path, Path.join_place (by omega) all named, List.append_assoc]

/-- Names that are steps lead from a place to a place. -/
theorem below_place (some : slashes ≠ 0) (steps : ∀ part ∈ parts, Path.IsStep part)
    (named : ∀ part ∈ way, Path.IsStep part.toList) :
    Path.below (Path.place slashes parts) way =
      Path.place slashes (parts ++ way.map String.toList) := by
  induction way generalizing parts with
  | nil => simp [Path.below]
  | cons part way ih =>
    have step := named part List.mem_cons_self
    have stepsNext : ∀ other ∈ parts ++ [part.toList], Path.IsStep other := by
      intro other member
      rcases List.mem_append.mp member with above | last
      · exact steps other above
      · exact List.mem_singleton.mp last ▸ step
    have rest := ih stepsNext fun other member => named other (List.mem_cons_of_mem _ member)
    rw [← Path.join_place some steps step] at rest
    simpa [Path.below, List.append_assoc] using rest

/-- A step of a walk leads to the entry by its kind. -/
theorem target?_cases {entry : Entry} {target : Target}
    (goal : target? settings entry = some target) :
    entry.isDirectory = true ∧ target = .directory entry.path ∨
      entry.isDirectory = false ∧ target = .file entry.path := by
  unfold target? at goal
  split at goal
  · next directory =>
    split at goal
    · cases goal
    · cases goal
      exact .inl ⟨directory, rfl⟩
  · next file =>
    split at goal
    · cases goal
      exact .inr ⟨by simpa using file, rfl⟩
    · cases goal

private theorem first_of_reaches (regular : files.IsRegular) (few : slashes = 1 ∨ slashes = 2)
    {first : List Char} {rest : List (List Char)}
    (steps : ∀ part ∈ parts ++ first :: rest, Path.IsStep part)
    (reaches : Reaches settings files (.directory (Path.place slashes parts))
      (.file (Path.place slashes (parts ++ first :: rest)))) :
    ∃ entry, files.Lists (Path.place slashes parts) entry ∧ entry.name.toList = first ∧
      entry.path = Path.place slashes (parts ++ [first]) ∧
      (rest = [] ∧ entry.isDirectory = false ∨
        rest ≠ [] ∧ entry.isDirectory = true ∧
          Reaches settings files (.directory (Path.place slashes (parts ++ [first])))
            (.file (Path.place slashes (parts ++ first :: rest)))) := by
  have stepsRoot : ∀ part ∈ parts, Path.IsStep part := fun part member =>
    steps part (List.mem_append.mpr (.inl member))
  rcases reaches.cases_head with same | ⟨middle, leads, onward⟩
  · cases same
  · obtain ⟨_, entry, _, lists, goal⟩ := leads
    obtain ⟨named, written⟩ := regular.lists lists
    rw [Path.join_place (by omega) stepsRoot named] at written
    have stepsEntry : ∀ part ∈ parts ++ [entry.name.toList], Path.IsStep part := by
      simpa [or_imp, forall_and] using ⟨stepsRoot, named⟩
    rcases target?_cases goal with ⟨directory, rfl⟩ | ⟨file, rfl⟩
    · rw [written] at onward
      obtain ⟨names, stepsNames, path, proper⟩ := reaches_below regular few stepsEntry onward
      have all : ∀ part ∈ parts ++ [entry.name.toList] ++ names, Path.IsStep part := by
        intro part member
        rcases List.mem_append.mp member with above | inNames
        · exact stepsEntry part above
        · exact stepsNames part inNames
      have equal := (Path.place_injective few steps few all path).2
      obtain ⟨rfl, rfl⟩ : first = entry.name.toList ∧ rest = names := by simpa using equal
      exact ⟨entry, lists, rfl, written, .inr ⟨proper ⟨_, rfl⟩, directory, onward⟩⟩
    · have same := reaches_file onward
      rw [written, Target.file.injEq] at same
      have equal := (Path.place_injective few steps few stepsEntry same).2
      obtain ⟨rfl, rfl⟩ : first = entry.name.toList ∧ rest = [] := by simpa using equal
      exact ⟨entry, lists, rfl, written, .inl ⟨rfl, file⟩⟩

/-- A file that is led to is there. -/
theorem Accepts.shows (accepted : Accepts settings way name) (regular : files.IsRegular)
    (few : slashes = 1 ∨ slashes = 2) (steps : ∀ part ∈ parts, Path.IsStep part)
    (reaches : Reaches settings files (.directory (Path.place slashes parts))
      (.file (Path.place slashes (parts ++ (way.map String.toList ++ [name.toList]))))) :
    files.Shows (Path.place slashes parts) way name := by
  have some : slashes ≠ 0 := by omega
  induction way generalizing parts with
  | nil =>
    have all : ∀ part ∈ parts ++ [name.toList], Path.IsStep part := by
      simpa [or_imp, forall_and] using ⟨steps, accepted.step⟩
    obtain ⟨⟨other, path, isDirectory⟩, lists, same, written, ⟨-, rfl⟩ | ⟨proper, -⟩⟩ :=
      first_of_reaches regular few all reaches
    · obtain rfl : other = name := String.toList_injective same
      intro step member
      rw [← Path.join_place some steps accepted.step] at written
      change path = Path.join (Path.place slashes parts) other at written
      subst written
      rw [List.mem_singleton.mp member]
      exact lists
    · exact absurd rfl proper
  | cons part way ih =>
    obtain ⟨partStep, -, rest⟩ := accepts_cons.mp accepted
    have stepsPart : ∀ other ∈ parts ++ [part.toList], Path.IsStep other := by
      simpa [or_imp, forall_and] using ⟨steps, partStep⟩
    have all : ∀ other ∈ parts ++ part.toList :: (way.map String.toList ++ [name.toList]),
        Path.IsStep other := by
      intro other member
      simp only [List.mem_append, List.mem_cons, List.mem_map, List.not_mem_nil, or_false] at member
      rcases member with above | rfl | ⟨onWay, member, rfl⟩ | rfl
      · exact steps other above
      · exact partStep
      · exact rest.steps onWay member
      · exact accepted.step
    obtain ⟨⟨other, path, isDirectory⟩, lists, same, written, ⟨none, -⟩ | ⟨-, rfl, onward⟩⟩ :=
      first_of_reaches regular few all reaches
    · simp at none
    · obtain rfl : other = part := String.toList_injective same
      rw [← Path.join_place some steps partStep] at written
      change path = Path.join (Path.place slashes parts) other at written
      subst written
      intro step member
      rcases List.mem_cons.mp member with rfl | later
      · exact lists
      · have deeper : files.Shows (Path.place slashes (parts ++ [other.toList])) way name := by
          refine ih rest stepsPart ?_
          simpa [List.append_assoc] using onward
        rw [Path.join_place some steps partStep] at later
        exact deeper step later

end Walk

end CodeSearch
