import CodeSearch.Proofs.Files.Depth
import Mathlib.Data.List.Induction

/-! # Going down from a directory

Going down name by name is going down the joined names at once, from whatever directory. So
different ways lead to different paths, and whether a path lies below a directory can be told from
the way to it.
-/

namespace CodeSearch.Path

variable {directory name : String} {way other : List String}

/-- The relative path that is made of the names of a way. -/
def ofWay (way : List String) : String :=
  String.ofList (Text.joinWith ['/'] (way.map String.toList))

theorem ofWay_singleton (name : String) : ofWay [name] = name := String.ofList_toList

theorem ofWay_concat (some : way ≠ []) (name : String) :
    ofWay (way ++ [name]) = ofWay way ++ "/" ++ name := by
  apply String.toList_injective
  simp only [ofWay, String.toList_ofList, String.toList_append, List.map_append, List.map_singleton]
  exact Text.joinWith_append ['/'] _ _ (by simpa using some) (by simp)

/-- The names can be read off the relative path. -/
theorem components_ofWay (some : way ≠ []) (steps : ∀ part ∈ way, IsStep part.toList) :
    components (ofWay way) = way.map String.toList := by
  rw [components, ofWay, String.toList_ofList]
  refine Text.splitAt_joinWith '/' _ (by simpa using some) ?_
  rw [List.forall_mem_map]
  exact fun part member => (steps part member).slashless

theorem ofWay_injective (some : way ≠ []) (steps : ∀ part ∈ way, IsStep part.toList)
    (someOther : other ≠ []) (stepsOther : ∀ part ∈ other, IsStep part.toList)
    (same : ofWay way = ofWay other) : way = other := by
  refine List.map_injective_iff.mpr (fun _ _ => String.toList_injective) ?_
  rw [← components_ofWay some steps, same, components_ofWay someOther stepsOther]

private theorem exists_cons_ofWay (some : way ≠ []) (steps : ∀ part ∈ way, IsStep part.toList) :
    ∃ c rest, (ofWay way).toList = c :: rest ∧ c ≠ '/' := by
  obtain ⟨first, more, rfl⟩ := List.exists_cons_of_ne_nil some
  have step := steps first List.mem_cons_self
  have cut := components_ofWay some steps
  rw [components, List.map_cons] at cut
  cases text : (ofWay (first :: more)).toList with
  | nil =>
    simp only [text, Text.splitAt, List.cons.injEq] at cut
    exact absurd cut.1.symm step.nonempty
  | cons c rest =>
    refine ⟨c, rest, rfl, ?_⟩
    rintro rfl
    simp only [text, Text.splitAt, beq_self_eq_true, if_true, List.cons.injEq] at cut
    exact step.nonempty cut.1.symm

theorem isAbsolute_ofWay (some : way ≠ []) (steps : ∀ part ∈ way, IsStep part.toList) :
    isAbsolute (ofWay way) = false := by
  rw [Bool.eq_false_iff, ne_eq, isAbsolute, Text.startsWith_iff]
  obtain ⟨c, rest, text, noSlash⟩ := exists_cons_ofWay some steps
  simpa [text] using noSlash.symm

private theorem not_slash_suffix_ofWay (some : way ≠ []) (steps : ∀ part ∈ way, IsStep part.toList) :
    ¬ ['/'] <:+ (ofWay way).toList := by
  rintro ⟨before, text⟩
  obtain ⟨init, last, rfl⟩ := (List.eq_nil_or_concat way).resolve_left some
  rw [List.concat_eq_append] at steps text
  have step := steps last (by simp)
  obtain ⟨others, c, ends⟩ := (List.eq_nil_or_concat last.toList).resolve_left step.nonempty
  rw [ofWay, String.toList_ofList, List.map_append, List.map_singleton] at text
  obtain ⟨front, joined⟩ := Text.joinWith_concat ['/'] (init.map String.toList) last.toList
  rw [joined, ends, List.concat_eq_append, ← List.append_assoc] at text
  have same := congrArg List.getLast? text
  simp only [List.getLast?_concat, Option.some.injEq] at same
  exact step.slashless (by rw [ends]; simp [← same])

/-! ## Joining -/

/-- Relative paths are put behind the same text, whichever they are. -/
theorem join_eq_append (relative : isAbsolute name = false) (directory : String) :
    join directory name = join directory "" ++ name := by
  have empty : isAbsolute "" = false := rfl
  simp only [join, relative, empty, Bool.false_eq_true, if_false]
  split <;> simp

theorem join_injective {path : String} (relative : isAbsolute name = false)
    (relativeOther : isAbsolute path = false) (same : join directory name = join directory path) :
    name = path := by
  rw [join_eq_append relative, join_eq_append relativeOther] at same
  have text := congrArg String.toList same
  rw [String.toList_append, String.toList_append, List.append_cancel_left_eq] at text
  exact String.toList_injective text

private theorem join_join (some : way ≠ []) (steps : ∀ part ∈ way, IsStep part.toList)
    (step : IsStep name.toList) :
    join (join directory (ofWay way)) name = join directory (ofWay (way ++ [name])) := by
  have all : ∀ part ∈ way ++ [name], IsStep part.toList :=
    List.forall_mem_append.mpr ⟨steps, List.forall_mem_singleton.mpr step⟩
  obtain ⟨c, rest, text, -⟩ := exists_cons_ofWay some steps
  rw [join_eq_append (isAbsolute_ofWay some steps), join_eq_append (isAbsolute_ofWay (by simp) all),
    ofWay_concat some, join, isAbsolute_eq_false step, if_neg (by simp), if_neg]
  · simp only [String.append_assoc]
  · rw [Bool.or_eq_true, not_or, Text.endsWith_iff, String.toList_append]
    refine ⟨?_, ?_⟩
    · rw [String.isEmpty_iff, ← String.toList_eq_nil_iff, String.toList_append, text]
      simp
    · intro ends
      refine not_slash_suffix_ofWay some steps ?_
      exact List.suffix_of_suffix_length_le ends (List.suffix_append _ _) (by simp [text])

/-- Going down name by name is going down the relative path. -/
theorem below_eq_join (some : way ≠ []) (steps : ∀ part ∈ way, IsStep part.toList) :
    below directory way = join directory (ofWay way) := by
  induction way using List.reverseRecOn with
  | nil => exact absurd rfl some
  | append_singleton init last ih =>
    obtain ⟨stepsInit, stepLast⟩ := List.forall_mem_append.mp steps
    rw [below, List.foldl_append, List.foldl_cons, List.foldl_nil]
    change join (below directory init) last = _
    by_cases only : init = []
    · rw [only, List.nil_append, ofWay_singleton]
      rfl
    · rw [ih only stepsInit]
      exact join_join only stepsInit (stepLast last (List.mem_singleton.mpr rfl))

theorem below_append (directory : String) (way other : List String) :
    below directory (way ++ other) = below (below directory way) other := List.foldl_append

private theorem below_ne_self (some : way ≠ []) (steps : ∀ part ∈ way, IsStep part.toList) :
    below directory way ≠ directory := by
  obtain ⟨c, rest, text, -⟩ := exists_cons_ofWay some steps
  rw [below_eq_join some steps, join_eq_append (isAbsolute_ofWay some steps)]
  intro same
  have length := congrArg (fun path : String => path.toList.length) same
  have longer : directory.toList.length ≤ (join directory "").toList.length := by
    rw [join, if_neg (by decide)]
    split <;> simp
  simp only [String.toList_append, List.length_append, text, List.length_cons] at length
  omega

/-- Different ways lead to different paths. -/
theorem below_injective (steps : ∀ part ∈ way, IsStep part.toList)
    (stepsOther : ∀ part ∈ other, IsStep part.toList)
    (same : below directory way = below directory other) : way = other := by
  by_cases some : way = [] <;> by_cases someOther : other = []
  · rw [some, someOther]
  · rw [some] at same
    exact absurd same.symm (below_ne_self someOther stepsOther)
  · rw [someOther] at same
    exact absurd same (below_ne_self some steps)
  · rw [below_eq_join some steps, below_eq_join someOther stepsOther] at same
    exact ofWay_injective some steps someOther stepsOther
      (join_injective (isAbsolute_ofWay some steps) (isAbsolute_ofWay someOther stepsOther) same)

/-- The name that was joined stands behind the last slash. -/
theorem baseName_join (directory : String) (step : IsStep name.toList) :
    baseName (join directory name) = name := by
  have front : (join directory "").toList.reverse.takeWhile (· != '/') = [] := by
    have empty : isAbsolute "" = false := rfl
    simp only [join, empty, Bool.false_eq_true, if_false]
    split
    · next ends =>
      rw [Bool.or_eq_true, String.isEmpty_iff, Text.endsWith_iff] at ends
      rcases ends with rfl | ⟨before, text⟩
      · rfl
      · simp [← text]
    · simp
  rw [join_eq_append (isAbsolute_eq_false step), baseName, String.toList_append,
    Text.takeWhile_reverse_append step.slashless, front, List.append_nil, List.reverse_reverse,
    String.ofList_toList]

/-! ## Ways down from a normal path -/

section

variable {root : String} (rooted : ∃ path, root = absolute path)
  (steps : ∀ part ∈ way, IsStep part.toList)
include rooted steps

private theorem exists_place_of_below :
    ∃ slashes parts, (slashes = 1 ∨ slashes = 2) ∧ root = place slashes parts ∧
      (∀ part ∈ parts ++ way.map String.toList, IsStep part) ∧
      below root way = place slashes (parts ++ way.map String.toList) := by
  obtain ⟨given, rfl⟩ := rooted
  obtain ⟨slashes, parts, few, stepsRoot, shape⟩ := absolute_eq_place given
  refine ⟨slashes, parts, few, shape, ?_, ?_⟩
  · exact List.forall_mem_append.mpr ⟨stepsRoot, List.forall_mem_map.mpr steps⟩
  · rw [shape, Walk.below_place (by omega) stepsRoot steps]

theorem normalize_below : normalize (below root way) = below root way := by
  obtain ⟨slashes, parts, few, -, all, place⟩ := exists_place_of_below rooted steps
  rw [place, normalize_place few all]

/-- The relative path to what a way down leads to is made of the names of the way. -/
theorem relativePath_below (some : way ≠ []) :
    Loading.relativePath root (below root way) = ofWay way := by
  obtain ⟨slashes, parts, few, shape, all, place⟩ := exists_place_of_below rooted steps
  rw [place, shape, relativePath_place few all (by simpa using some), ofWay]

end

/-! ## Below a directory -/

/-- A path that is reached from a directory by going down, one name at least. -/
def IsBelow (directory path : String) : Prop :=
  ∃ way, way ≠ [] ∧ (∀ part ∈ way, IsStep part.toList) ∧ path = below directory way

/-- What lies below a directory on the way is told from the names. -/
theorem isBelow_iff (steps : ∀ part ∈ way, IsStep part.toList)
    (stepsOther : ∀ part ∈ other, IsStep part.toList) (step : IsStep name.toList) :
    IsBelow (below directory other) (below directory (way ++ [name])) ↔ other <+: way := by
  have all : ∀ part ∈ way ++ [name], IsStep part.toList :=
    List.forall_mem_append.mpr ⟨steps, List.forall_mem_singleton.mpr step⟩
  constructor
  · rintro ⟨rest, some, stepsRest, path⟩
    rw [← below_append] at path
    have same := below_injective all (List.forall_mem_append.mpr ⟨stepsOther, stepsRest⟩) path
    obtain ⟨init, last, rfl⟩ := (List.eq_nil_or_concat rest).resolve_left some
    rw [List.concat_eq_append, ← List.append_assoc] at same
    exact ⟨init, (List.append_inj_left' same rfl).symm⟩
  · rintro ⟨rest, rfl⟩
    refine ⟨rest ++ [name], by simp, ?_, ?_⟩
    · exact fun part member => all part (by simpa [or_assoc] using .inr (by simpa using member))
    · rw [← below_append, List.append_assoc]

end CodeSearch.Path
