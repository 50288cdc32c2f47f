import CodeSearch.Proofs.Files.Admission
import CodeSearch.Session.CallStep

/-! # Inside and outside of a directory

A directory contains itself and whatever lies below it. Whether a path leads out of a project is
judged by the text of the way to it. That text tells of every path that the project does not contain
that it leads out, and of one more kind of paths: those on which the first name below the project
begins with two dots.
-/

namespace CodeSearch

open Loading Walk

namespace Text

/-- A text without the mark begins the text in front of a mark, if it begins the whole. -/
theorem prefix_append_mark {mark : Char} {opening first rest : List Char} (free : mark ∉ opening) :
    opening <+: first ++ mark :: rest ↔ opening <+: first := by
  induction first generalizing opening with
  | nil =>
    cases opening with
    | nil => simp
    | cons c opening =>
      have other : c ≠ mark := fun same => free (same ▸ List.mem_cons_self)
      simp [other]
  | cons d first ih =>
    cases opening with
    | nil => simp
    | cons c opening =>
      rw [List.cons_append, List.cons_prefix_cons, List.cons_prefix_cons,
        ih fun member => free (List.mem_cons_of_mem _ member)]

/-- The first of the joined pieces begins the text. -/
theorem prefix_joinWith_cons {mark : Char} {opening piece : List Char} {rest : List (List Char)}
    (free : mark ∉ opening) :
    opening <+: joinWith [mark] (piece :: rest) ↔ opening <+: piece := by
  by_cases last : rest = []
  · rw [last, joinWith]
  · rw [joinWith_cons _ _ _ last, List.append_assoc]
    exact prefix_append_mark free

end Text

namespace Path

variable {root path : String}

theorem normalize_ne_empty (path : String) : normalize path ≠ "" := by
  rw [normalize]
  split
  · decide
  · next filled =>
    intro empty
    rw [← String.toList_eq_nil_iff, String.toList_ofList] at empty
    exact filled (List.isEmpty_iff.mpr empty)

/-! ## What a directory contains -/

/-- A directory contains itself and whatever lies below it. A path names the same place whether it
begins with one slash or with two. -/
def Contains (directory path : String) : Prop := Path.steps directory <+: Path.steps path

instance (directory path : String) : Decidable (Contains directory path) :=
  inferInstanceAs (Decidable (_ <+: _))

/-- The way down from a directory begins with a name that begins with two dots. -/
def OpensWithDots (directory path : String) : Prop :=
  ∃ name, Path.steps directory ++ [name] <+: Path.steps path ∧ ['.', '.'] <+: name

/-- Only the first name on the way down matters. -/
theorem opensWithDots_iff {names : List (List Char)}
    (way : Path.steps root ++ names = Path.steps path) :
    OpensWithDots root path ↔ ∃ name rest, names = name :: rest ∧ ['.', '.'] <+: name := by
  rw [OpensWithDots, ← way]
  constructor
  · rintro ⟨name, ⟨rest, same⟩, dots⟩
    rw [List.append_assoc, List.append_cancel_left_eq] at same
    exact ⟨name, rest, same.symm, dots⟩
  · rintro ⟨name, rest, rfl, dots⟩
    refine ⟨name, ?_, dots⟩
    simp

/-! ## The way to a path -/

/-- No step up is needed to what lies below. -/
theorem dropCommon_fst_eq_nil_iff {first second : List (List Char)} :
    (dropCommon first second).1 = [] ↔ first <+: second := by
  induction first generalizing second with
  | nil => simp [dropCommon]
  | cons a first ih =>
    cases second with
    | nil => simp [dropCommon]
    | cons b second =>
      by_cases same : a = b
      · simp [dropCommon, same, ih]
      · simp [dropCommon, same]

private theorem relativePath_eq (filled : path ≠ "") {up down : List (List Char)}
    (parted : dropCommon (Path.steps root) (Path.steps path) = (up, down)) :
    relativePath root path =
      if (up.map (fun _ => ['.', '.']) ++ down).isEmpty then "."
      else String.ofList (Text.joinWith ['/'] (up.map (fun _ => ['.', '.']) ++ down)) := by
  have some : path.isEmpty = false := by simpa using filled
  rw [relativePath, relative?, some]
  simp only [Bool.false_eq_true, if_false, parted, Option.getD_some]

private theorem leadsOut_of_steps (filled : path ≠ "") {names : List (List Char)}
    (inside : Path.steps root ++ names = Path.steps path) :
    Session.leadsOut (relativePath root path) = true ↔ ∃ name rest, names = name :: rest ∧
      ['.', '.'] <+: name := by
  have parted : dropCommon (Path.steps root) (Path.steps path) = ([], names) := by
    rw [← inside, dropCommon_append]
  rw [Session.leadsOut, Text.startsWith_iff, relativePath_eq filled parted]
  cases names with
  | nil => simp
  | cons name rest =>
    rw [List.map_nil, List.nil_append, if_neg (by simp), String.toList_ofList,
      Text.prefix_joinWith_cons (by decide)]
    simp

private theorem leadsOut_of_outside (filled : path ≠ "") (outside : ¬ Contains root path) :
    Session.leadsOut (relativePath root path) = true := by
  cases parted : dropCommon (Path.steps root) (Path.steps path) with
  | mk up down =>
    cases up with
    | nil => exact absurd (dropCommon_fst_eq_nil_iff.mp (by rw [parted])) outside
    | cons part up =>
      rw [Session.leadsOut, Text.startsWith_iff, relativePath_eq filled parted, List.map_cons,
        List.cons_append, if_neg (by simp), String.toList_ofList]
      exact (Text.prefix_joinWith_cons (by decide)).mpr List.prefix_rfl

/-- Told from the text of the way, a path leads out of a directory that does not contain it, or if
the first name below the directory begins with two dots. -/
theorem leadsOut_relativePath_iff (filled : path ≠ "") :
    Session.leadsOut (relativePath root path) = true ↔
      ¬ Contains root path ∨ OpensWithDots root path := by
  by_cases inside : Contains root path
  · obtain ⟨names, way⟩ := id inside
    rw [leadsOut_of_steps filled way, opensWithDots_iff way, or_iff_right (not_not.mpr inside)]
  · exact iff_of_true (leadsOut_of_outside filled inside) (.inl inside)

end Path

/-! ## Files that are discovered -/

namespace Walk

variable {α : Type} [Scalar α] {settings : Settings α} {files : FileSystem} {root path : String}
  {found : List String}

private theorem not_dots_of_kept {name : String} (kept : settings.ignoresDirectory name = false) :
    ¬ ['.', '.'] <+: name.toList := by
  intro dots
  have hidden : Text.startsWith ['.'] name.toList = true := by
    rw [Text.startsWith_iff]
    exact (List.prefix_append ['.'] ['.']).trans dots
  rw [Settings.ignoresDirectory, hidden, Bool.true_and, Bool.or_eq_false_iff] at kept
  have visible : name ∈ visibleHidden := by simpa using kept.2
  have plain : ∀ other ∈ visibleHidden, ¬ ['.', '.'] <+: other.toList := by decide
  exact plain name visible dots

/-- A file that was discovered is named by its own path, and lies in the project. The way to it begins
with two dots only if it lies directly in the project and its own name begins so. -/
theorem inside_of_discover (regular : files.IsRegular) (rooted : ∃ path, root = Path.absolute path)
    (discovered : discover settings files root = .ok found) (member : path ∈ found) :
    Path.normalize (Path.join root path) = path ∧ Path.Contains root path ∧
      (Path.OpensWithDots root path ↔ ∃ name : String, Path.IsStep name.toList ∧
        path = Path.join root name ∧ ['.', '.'] <+: name.toList) := by
  obtain ⟨way, name, accepted, below⟩ := exists_way_of_discover regular rooted discovered member
  obtain ⟨given, rfl⟩ := rooted
  obtain ⟨slashes, parts, few, steps, shape⟩ := Path.absolute_eq_place given
  have some : slashes ≠ 0 := by omega
  have all : ∀ part ∈ parts ++ (way.map String.toList ++ [name.toList]), Path.IsStep part :=
    List.forall_mem_append.mpr ⟨steps, accepted.areSteps⟩
  rw [shape, below_place some steps accepted.forall_isStep, List.map_append,
    List.map_singleton] at below
  have stepsRoot := Path.steps_place few steps
  have stepsPath : Path.steps path = parts ++ (way.map String.toList ++ [name.toList]) :=
    below ▸ Path.steps_place few all
  rw [shape]
  refine ⟨?_, ?_, ?_⟩
  · rw [below, Path.join, if_pos (Path.isAbsolute_place some _), Path.normalize_place few all]
  · rw [Path.Contains, stepsRoot, stepsPath]
    exact List.prefix_append _ _
  rw [Path.opensWithDots_iff (stepsRoot.symm ▸ stepsPath.symm)]
  constructor
  · rintro ⟨first, rest, names, dots⟩
    cases way with
    | nil =>
      obtain ⟨rfl, rfl⟩ : name.toList = first ∧ [] = rest := by simpa using names
      exact ⟨name, accepted.step, below.trans (Path.join_place some steps accepted.step).symm, dots⟩
    | cons directory way =>
      obtain ⟨rfl, -⟩ := List.cons.inj names
      exact absurd dots (not_dots_of_kept (accepted.directories directory List.mem_cons_self))
  · rintro ⟨own, step, path, dots⟩
    rw [path, Path.join_place some steps step] at below
    have stepsOwn : ∀ part ∈ parts ++ [own.toList], Path.IsStep part :=
      List.forall_mem_append.mpr ⟨steps, List.forall_mem_singleton.mpr step⟩
    have same := (Path.place_injective few stepsOwn few all below).2
    rw [List.append_cancel_left_eq] at same
    exact ⟨own.toList, [], same.symm, dots⟩

end Walk

end CodeSearch
