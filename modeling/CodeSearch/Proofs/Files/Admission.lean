import CodeSearch.Proofs.Files.Edits
import CodeSearch.Proofs.Index.Looks

/-! # Which files a walk admits

The rules of a walk can be read off the path by which a project knows a file: every directory on the
way is one that is walked, and the file's name is one that is found. A walk finds only such files,
however the files change in its course, so a pass records no others.
-/

namespace CodeSearch

open Loading

namespace Walk

variable {α : Type} [Scalar α] {settings : Settings α} {moments : FileSystem → Prop}
  {files : FileSystem} {slashes : Nat} {parts : List (List Char)}

/-- Whether a file's path below its project passes the rules of the walk: no directory on the way is
left out, and neither is the name, which is of a known language. -/
def admits (settings : Settings α) (relative : String) : Bool :=
  match (Path.components relative).reverse with
  | [] => false
  | name :: above =>
    above.all (fun directory => !settings.ignoresDirectory (String.ofList directory)) &&
      !settings.ignoresFile (String.ofList name) && isIndexable (String.ofList name)

theorem Accepts.areSteps {way : List String} {name : String} (accepted : Accepts settings way name) :
    ∀ part ∈ way.map String.toList ++ [name.toList], Path.IsStep part := by
  have named := List.forall_mem_map.mpr accepted.forall_isStep
  rwa [List.map_append] at named

/-- A way down that is accepted step by step is admitted as a path. -/
theorem Accepts.admits {way : List String} {name : String} (accepted : Accepts settings way name) :
    admits settings
      (String.ofList (Text.joinWith ['/'] (way.map String.toList ++ [name.toList]))) = true := by
  have slashless : ∀ part ∈ way.map String.toList ++ [name.toList], '/' ∉ part :=
    fun part member => (accepted.areSteps part member).slashless
  have components : Path.components
      (String.ofList (Text.joinWith ['/'] (way.map String.toList ++ [name.toList]))) =
        way.map String.toList ++ [name.toList] := by
    rw [Path.components, String.toList_ofList]
    exact Text.splitAt_joinWith '/' _ (by simp) slashless
  simp only [Walk.admits, components, List.reverse_append, List.reverse_singleton,
    List.singleton_append, String.ofList_toList, accepted.file, accepted.known, Bool.not_false,
    Bool.and_true, List.all_eq_true, List.mem_reverse, List.mem_map]
  rintro _ ⟨directory, onWay, rfl⟩
  rw [String.ofList_toList, accepted.directories directory onWay]
  rfl

/-- A target to which the rules of the walk lead from a place. -/
inductive IsAdmitted (settings : Settings α) (slashes : Nat) (parts : List (List Char)) :
    Target → Prop where
  | directory (way : List String) (steps : ∀ part ∈ way, Path.IsStep part.toList)
      (walked : ∀ part ∈ way, settings.ignoresDirectory part = false) :
      IsAdmitted settings slashes parts
        (.directory (Path.place slashes (parts ++ way.map String.toList)))
  | file (way : List String) (name : String) (accepted : Accepts settings way name) :
      IsAdmitted settings slashes parts
        (.file (Path.place slashes (parts ++ (way.map String.toList ++ [name.toList]))))

private theorem isAdmitted_root :
    IsAdmitted settings slashes parts (.directory (Path.place slashes parts)) := by
  have here : IsAdmitted settings slashes parts
      (.directory (Path.place slashes (parts ++ [].map String.toList))) :=
    .directory [] (by simp) (by simp)
  simpa using here

private theorem isAdmitted_of_target? {way : List String} {entry : Entry} {target : Target}
    (steps : ∀ part ∈ way, Path.IsStep part.toList)
    (walked : ∀ part ∈ way, settings.ignoresDirectory part = false)
    (named : Path.IsStep entry.name.toList)
    (place : entry.path =
      Path.place slashes (parts ++ (way.map String.toList ++ [entry.name.toList])))
    (leads : target? settings entry = some target) : IsAdmitted settings slashes parts target := by
  unfold target? at leads
  split at leads
  · split at leads
    · cases leads
    · next kept =>
      cases leads
      have longer : way.map String.toList ++ [entry.name.toList] =
          (way ++ [entry.name]).map String.toList := by simp
      rw [place, longer]
      refine .directory (way ++ [entry.name]) ?_ ?_
      · exact List.forall_mem_append.mpr ⟨steps, List.forall_mem_singleton.mpr named⟩
      · exact List.forall_mem_append.mpr
          ⟨walked, List.forall_mem_singleton.mpr (Bool.eq_false_iff.mpr kept)⟩
  · split at leads
    · next kept =>
      rw [Bool.and_eq_true, Bool.not_eq_true'] at kept
      cases leads
      rw [place]
      exact .file way entry.name ⟨steps, named, walked, kept.1, kept.2⟩
    · cases leads

private theorem isAdmitted_of_listTargets (regular : files.IsRegular)
    (few : slashes = 1 ∨ slashes = 2) (root : ∀ part ∈ parts, Path.IsStep part) {path : String}
    (admitted : IsAdmitted settings slashes parts (.directory path)) {targets : List Target}
    (listed : listTargets settings (files.list path) = .ok targets) :
    ∀ target ∈ targets, IsAdmitted settings slashes parts target := by
  intro target member
  cases admitted with
  | directory way steps walked =>
    unfold listTargets at listed
    split at listed
    · next entries answer =>
      cases listed
      obtain ⟨entry, inEntries, leads⟩ := List.mem_filterMap.mp member
      obtain ⟨named, written⟩ :=
        regular.entries _ entries answer entry (List.mem_mergeSort.mp inEntries)
      refine isAdmitted_of_target? steps walked named ?_ leads
      have all : ∀ part ∈ parts ++ way.map String.toList, Path.IsStep part := by
        rw [List.forall_mem_append, List.forall_mem_map]
        exact ⟨root, steps⟩
      rw [written, Path.join_place (by omega) all named, List.append_assoc]
    · split at listed
      · cases listed
        cases member
      · cases listed

private theorem Walking.isAdmitted {pending : List Target} {found : List String}
    (regular : ∀ files, moments files → files.IsRegular) (few : slashes = 1 ∨ slashes = 2)
    (root : ∀ part ∈ parts, Path.IsStep part)
    (walk : Walking settings moments (Path.place slashes parts) pending found) :
    ∀ target ∈ pending ++ found.map Target.file, IsAdmitted settings slashes parts target := by
  induction walk with
  | start =>
    intro target member
    rw [List.mem_singleton.mp member]
    exact isAdmitted_root
  | finds path rest found before ih =>
    intro target member
    refine ih target ?_
    simp only [List.map_append, List.map_cons, List.map_nil, List.mem_append, List.mem_cons,
      List.not_mem_nil, or_false] at member ⊢
    rcases member with ahead | behind | here
    · exact .inl (.inr ahead)
    · exact .inr behind
    · exact .inl (.inl here)
  | lists path rest targets found files before moment listed ih =>
    intro target member
    have here := ih (.directory path) List.mem_cons_self
    rw [List.append_assoc] at member
    rcases List.mem_append.mp member with inListing | elsewhere
    · exact isAdmitted_of_listTargets (regular files moment) few root here listed target inListing
    · exact ih target (List.mem_cons_of_mem _ elsewhere)

/-- Whatever a loop gives comes from one of its items. -/
theorem exists_of_mem_mapM {ε β γ : Type} {each : β → Except ε γ} {items : List β}
    {results : List γ} (mapped : items.mapM each = .ok results) :
    ∀ result ∈ results, ∃ item ∈ items, each item = .ok result := by
  induction items generalizing results with
  | nil =>
    cases mapped
    simp
  | cons item items ih =>
    rw [List.mapM_cons] at mapped
    cases here : each item with
    | error fault => rw [here] at mapped; cases mapped
    | ok first =>
      cases others : items.mapM each with
      | error fault => rw [here, others] at mapped; cases mapped
      | ok rest =>
        rw [here, others] at mapped
        cases mapped
        intro result member
        rcases List.mem_cons.mp member with rfl | later
        · exact ⟨item, List.mem_cons_self, here⟩
        · obtain ⟨other, listed, same⟩ := ih others result later
          exact ⟨other, List.mem_cons_of_mem _ listed, same⟩

private theorem isAdmitted_of_filesBelow (regular : files.IsRegular)
    (few : slashes = 1 ∨ slashes = 2) (root : ∀ part ∈ parts, Path.IsStep part) {depth : Nat}
    {directory : String} {found : List String}
    (admitted : IsAdmitted settings slashes parts (.directory directory))
    (below : filesBelow settings files depth directory = .ok found) :
    ∀ path ∈ found, IsAdmitted settings slashes parts (.file path) := by
  induction depth generalizing directory found with
  | zero =>
    cases below
    simp
  | succ depth ih =>
    rw [filesBelow] at below
    cases listed : listTargets settings (files.list directory) with
    | error fault => rw [listed] at below; cases below
    | ok targets =>
      rw [listed] at below
      have goals := isAdmitted_of_listTargets regular few root admitted listed
      simp only [bind, Except.bind, pure, Except.pure] at below
      split at below
      · cases below
      · next lists mapped =>
        cases below
        intro path member
        obtain ⟨list, inLists, inList⟩ := List.mem_flatten.mp member
        obtain ⟨target, goal, visited⟩ := exists_of_mem_mapM mapped list inLists
        cases target with
        | directory other => exact ih (goals _ goal) visited path inList
        | file other =>
          cases visited
          exact List.mem_singleton.mp inList ▸ goals _ goal

/-- Every file that is discovered is reached by a way down on which the rules admit each name. -/
theorem exists_way_of_discover {root : String} {found : List String} (regular : files.IsRegular)
    (rooted : ∃ path, root = Path.absolute path)
    (discovered : discover settings files root = .ok found) {path : String} (member : path ∈ found) :
    ∃ way name, Accepts settings way name ∧ path = Path.below root (way ++ [name]) := by
  obtain ⟨given, rfl⟩ := rooted
  obtain ⟨slashes, parts, few, steps, shape⟩ := Path.absolute_eq_place given
  rw [shape] at discovered ⊢
  have admitted := isAdmitted_of_filesBelow regular few steps isAdmitted_root discovered path member
  cases admitted with
  | file way name accepted =>
    refine ⟨way, name, accepted, ?_⟩
    rw [below_place (by omega) steps accepted.forall_isStep]
    simp

/-- The project knows every file that a walk has found by a path that the rules admit. -/
theorem Walking.admits {root : String} {found : List String}
    (regular : ∀ files, moments files → files.IsRegular)
    (rooted : ∃ path, root = Path.absolute path) (walk : Walking settings moments root [] found) :
    ∀ path ∈ found, admits settings (relativePath root path) = true := by
  obtain ⟨given, rfl⟩ := rooted
  obtain ⟨slashes, parts, few, steps, shape⟩ := Path.absolute_eq_place given
  rw [shape] at walk ⊢
  intro path member
  have admitted := walk.isAdmitted regular few steps (.file path) (List.mem_map_of_mem member)
  cases admitted with
  | file way name accepted =>
    rw [Path.relativePath_place few ?_ (by simp)]
    · exact accepted.admits
    · exact List.forall_mem_append.mpr ⟨steps, accepted.areSteps⟩

end Walk

/-- A draft records only files that were looked at. -/
theorem Built.mem_keys {α : Type} [Scalar α] {settings : Settings α} {embedder : Embedder α}
    {moments : FileSystem → Prop} {root : String} {paths : List String} {draft : Snapshot α}
    (built : Built settings embedder moments root paths draft) {relative : String}
    (member : relative ∈ draft.files.keys) : relative ∈ paths.map (relativePath root) := by
  induction built with
  | empty => cases member
  | skips path paths draft result before looked nothing ih =>
    rw [List.map_append]
    exact List.mem_append.mpr (.inl (ih member))
  | adds path paths draft record chunks before looked ih =>
    rw [List.map_append, List.mem_append, List.map_singleton, List.mem_singleton]
    change relative ∈ (draft.files.insert record.path record).keys at member
    rw [OrderedMap.keys_insert] at member
    split at member
    · exact .inl (ih member)
    · rcases List.mem_append.mp member with earlier | own
      · exact .inl (ih earlier)
      · cases looked with
        | loaded => exact .inr (List.mem_singleton.mp own)
  | dated paths draft indexedAt before ih => exact ih member

end CodeSearch
