import CodeSearch.Language

/-! # Suffixes of paths

Whether a file is indexed follows from the suffix of its name, and the directories above it do not
matter. Known suffixes hold no underscore, so a path that is indexed has none behind its last point.
-/

namespace CodeSearch

namespace Text

theorem mem_joinWith {separator : List Char} {pieces : List (List Char)} {c : Char}
    (member : c ∈ joinWith separator pieces) : c ∈ separator ∨ ∃ piece ∈ pieces, c ∈ piece := by
  induction pieces with
  | nil => cases member
  | cons piece rest ih =>
    by_cases last : rest = []
    · subst last
      exact .inr ⟨piece, List.mem_cons_self, member⟩
    · rw [joinWith_cons _ _ _ last, List.mem_append, List.mem_append] at member
      rcases member with (here | between) | later
      · exact .inr ⟨piece, List.mem_cons_self, here⟩
      · exact .inl between
      · exact (ih later).imp_right fun ⟨piece, known, inPiece⟩ =>
          ⟨piece, List.mem_cons_of_mem _ known, inPiece⟩

/-- A piece stands in the joined text, and behind it stand separators and the later pieces. -/
theorem joinWith_append_cons (separator : List Char) (before : List (List Char)) (piece : List Char)
    (after : List (List Char)) :
    ∃ front behind, joinWith separator (before ++ piece :: after) = front ++ piece ++ behind ∧
      ∀ c ∈ behind, c ∈ separator ∨ ∃ later ∈ after, c ∈ later := by
  induction before with
  | nil =>
    by_cases last : after = []
    · subst last
      exact ⟨[], [], by simp [joinWith], by simp⟩
    · refine ⟨[], separator ++ joinWith separator after, ?_, ?_⟩
      · rw [List.nil_append, joinWith_cons _ _ _ last]
        simp
      · intro c member
        rcases List.mem_append.mp member with between | later
        · exact .inl between
        · exact mem_joinWith later
  | cons first rest ih =>
    obtain ⟨front, behind, same, later⟩ := ih
    refine ⟨first ++ separator ++ front, behind, ?_, later⟩
    rw [List.cons_append, joinWith_cons _ _ _ (by simp), same]
    simp

/-- A text without the mark is read through from its end. -/
theorem takeWhile_reverse_append {mark : Char} {behind : List Char} (free : mark ∉ behind)
    (front : List Char) :
    (front ++ behind).reverse.takeWhile (· != mark) =
      behind.reverse ++ front.reverse.takeWhile (· != mark) := by
  have others : ∀ c ∈ behind.reverse, (c != mark) = true := by
    intro c member
    rw [bne_iff_ne]
    rintro rfl
    exact free (List.mem_reverse.mp member)
  rw [List.reverse_append, List.takeWhile_append_of_pos others]

/-- Lower-casing leaves underscores where they are. -/
theorem underscore_mem_lower {text : List Char} (member : '_' ∈ text) : '_' ∈ lower text := by
  unfold lower
  generalize [] = before
  induction text generalizing before with
  | nil => cases member
  | cons c rest ih =>
    rw [lowerFrom, List.mem_append]
    rcases List.mem_cons.mp member with rfl | later
    · have small : lowerChar '_' = ['_'] := by decide
      exact .inl (by simp [small])
    · exact .inr (ih later (c :: before))

end Text

namespace Path

/-- A suffix starts with the last point of the name. -/
theorem nameSuffix_eq {name : List Char} (present : nameSuffix name ≠ []) :
    ∃ front behind, name = front ++ '.' :: behind ∧ '.' ∉ behind ∧
      nameSuffix name = '.' :: behind := by
  unfold nameSuffix at present ⊢
  simp only at present ⊢
  split at present
  · exact absurd rfl present
  · next inner =>
    rw [if_neg inner]
    have shorter : (name.reverse.takeWhile (· != '.')).length ≠ name.length := by
      intro same
      exact inner (by simp [same])
    have cut := List.takeWhile_append_dropWhile (p := (· != '.')) (l := name.reverse)
    cases rest : name.reverse.dropWhile (· != '.') with
    | nil =>
      rw [rest, List.append_nil] at cut
      exact absurd (by rw [cut, List.length_reverse]) shorter
    | cons mark front =>
      have head := List.head_dropWhile_not (p := (· != '.')) (l := name.reverse) (by simp [rest])
      have point : mark = '.' := by simpa [rest] using head
      rw [rest, point] at cut
      refine ⟨front.reverse, (name.reverse.takeWhile (· != '.')).reverse, ?_, ?_, rfl⟩
      · have turned := congrArg List.reverse cut
        simpa using turned.symm
      · intro member
        have other := List.all_eq_true.mp List.all_takeWhile _ (List.mem_reverse.mp member)
        simp at other

-- The components that may name a file.
private abbrev names (component : List Char) : Bool := !component.isEmpty && component != ['.']

theorem finalName_eq {path : String} (present : finalName path ≠ []) :
    ∃ before after, components path = before ++ finalName path :: after ∧
      ∀ component ∈ after, component = [] ∨ component = ['.'] := by
  unfold finalName at present ⊢
  rcases List.eq_nil_or_concat ((components path).filter names) with kept | ⟨init, last, kept⟩
  · rw [kept] at present
    exact absurd rfl present
  · rw [List.concat_eq_append] at kept
    obtain ⟨first, second, same, _, tail⟩ := List.filter_eq_append_iff.mp kept
    obtain ⟨skipped, after, rfl, _, _, none⟩ := List.filter_eq_cons_iff.mp tail
    refine ⟨first ++ skipped, after, by simpa [kept] using same, ?_⟩
    intro component member
    have left := (List.filter_eq_nil_iff.mp none) component member
    simpa [names, Decidable.or_iff_not_imp_left] using left

/-- A name below a directory is the final name, if it names anything. -/
theorem finalName_below (directory name : String) (present : finalName name ≠ []) :
    finalName (directory ++ "/" ++ name) = finalName name := by
  have cut : components (directory ++ "/" ++ name) = components directory ++ components name := by
    unfold components
    rw [String.toList_append, String.toList_append, List.append_assoc]
    exact Text.splitAt_append _ directory.toList name.toList '/' rfl
  unfold finalName at present ⊢
  rw [cut, List.filter_append]
  cases kept : (components name).filter names with
  | nil => rw [kept] at present; exact absurd rfl present
  | cons first rest =>
    rw [List.getLastD_eq_getLast?, List.getLastD_eq_getLast?, List.getLast?_append,
      List.getLast?_cons]
    rfl

end Path

/-- The text of a path in which backslashes separate directories too. -/
def slashed (text : List Char) : List Char :=
  text.map fun c => if c = '\\' then '/' else c

private theorem ofPath?_eq (path : String) :
    Language.ofPath? path = Language.suffixes.lookup
      (String.ofList (Text.lower (Path.suffix (String.ofList (slashed path.toList))))) := rfl

private theorem suffix_of_isIndexable {path : String} (known : isIndexable path = true) :
    Path.suffix (String.ofList (slashed path.toList)) ≠ [] ∧
      '_' ∉ Path.suffix (String.ofList (slashed path.toList)) := by
  rw [isIndexable, ofPath?_eq, List.lookup_isSome_iff] at known
  obtain ⟨entry, listed, same⟩ := known
  have lowered : Text.lower (Path.suffix (String.ofList (slashed path.toList))) =
      entry.1.toList := by
    rw [← beq_iff_eq.mp same, String.toList_ofList]
  have table : ∀ entry ∈ Language.suffixes, entry.1.toList ≠ [] ∧ '_' ∉ entry.1.toList := by decide
  refine ⟨?_, ?_⟩
  · intro empty
    rw [empty] at lowered
    exact (table entry listed).1 lowered.symm
  · intro member
    have kept := Text.underscore_mem_lower member
    rw [lowered] at kept
    exact (table entry listed).2 kept

/-- Some point of the path has no underscore behind it. -/
def HasPlainEnding (path : String) : Prop :=
  ∃ front behind : List Char, path.toList = front ++ '.' :: behind ∧ '_' ∉ behind

private theorem hasPlainEnding_of_slashed {path : String} {front behind : List Char}
    (same : slashed path.toList = front ++ '.' :: behind) (plain : '_' ∉ behind) :
    HasPlainEnding path := by
  obtain ⟨first, second, cut, rfl, tail⟩ := List.map_eq_append_iff.mp same
  obtain ⟨mark, rest, rfl, point, rfl⟩ := List.map_eq_cons_iff.mp tail
  refine ⟨first, rest, ?_, ?_⟩
  · have unchanged : mark = '.' := by
      by_cases backslash : mark = '\\'
      · rw [if_pos backslash] at point
        exact absurd point (by decide)
      · rwa [if_neg backslash] at point
    rw [cut, unchanged]
  · intro member
    exact plain (List.mem_map.mpr ⟨'_', member, by decide⟩)

/-- Paths that are indexed have no underscore behind their last point: behind the name there are at
most slashes and points. -/
theorem hasPlainEnding_of_isIndexable {path : String} (known : isIndexable path = true) :
    HasPlainEnding path := by
  obtain ⟨present, plain⟩ := suffix_of_isIndexable known
  obtain ⟨front, behind, named, -, suffixed⟩ := Path.nameSuffix_eq present
  change Path.suffix _ = _ at suffixed
  have nonempty : Path.finalName (String.ofList (slashed path.toList)) ≠ [] := by
    rw [named]
    simp
  obtain ⟨before, after, cut, dots⟩ := Path.finalName_eq nonempty
  obtain ⟨head, tail, joined, members⟩ := Text.joinWith_append_cons ['/'] before
    (Path.finalName (String.ofList (slashed path.toList))) after
  have text : slashed path.toList = (head ++ front) ++ '.' :: (behind ++ tail) := by
    rw [← cut] at joined
    rw [Path.components, Text.joinWith_splitAt, String.toList_ofList] at joined
    rw [joined, named]
    simp
  refine hasPlainEnding_of_slashed text ?_
  rw [List.mem_append]
  rintro (inSuffix | inTail)
  · rw [suffixed] at plain
    exact plain (List.mem_cons_of_mem _ inSuffix)
  · rcases members '_' inTail with inSeparator | ⟨component, later, inComponent⟩
    · exact absurd inSeparator (by decide)
    · rcases dots component later with rfl | rfl
      · cases inComponent
      · exact absurd inComponent (by decide)

/-- The language of a file is told from its name, wherever it lies. -/
theorem ofPath?_below (directory : String) {name : String} (known : isIndexable name = true) :
    Language.ofPath? (directory ++ "/" ++ name) = Language.ofPath? name := by
  have split : String.ofList (slashed (directory ++ "/" ++ name).toList) =
      String.ofList (slashed directory.toList) ++ "/" ++ String.ofList (slashed name.toList) := by
    apply String.toList_injective
    simp [slashed]
  have present : Path.finalName (String.ofList (slashed name.toList)) ≠ [] := by
    intro empty
    apply (suffix_of_isIndexable known).1
    rw [Path.suffix, empty]
    rfl
  rw [ofPath?_eq, split, Path.suffix, Path.finalName_below _ _ present]
  rfl

end CodeSearch
