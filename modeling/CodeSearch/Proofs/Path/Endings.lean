import CodeSearch.Proofs.Path.Place

/-! # Two senses of how a name ends

The language of a file is told from a suffix for which backslashes separate names and whatever names
nothing is passed over. Extensions are told from the last point of the name as it is written. The two
are the same, but for names with nothing but points in front of the last point and for names that a
backslash ends, with or without a point behind it.
-/

namespace CodeSearch

/-- The suffix from which the language of a file is told, before it is put into lower case. -/
def Language.suffixOf (path : String) : String :=
  String.ofList (Path.suffix (String.ofList (slashed path.toList)))

theorem Language.ofPath?_eq_lookup (path : String) :
    Language.ofPath? path = Language.suffixes.lookup (lowerCase (Language.suffixOf path)) := by
  rw [lowerCase, Language.suffixOf, String.toList_ofList]
  rfl

theorem Language.suffixOf_ne_empty {path : String} (known : isIndexable path = true) :
    Language.suffixOf path ≠ "" := by
  intro empty
  rw [isIndexable, Language.ofPath?_eq_lookup, empty] at known
  exact absurd known (by decide)

namespace Path

variable {name : String}

/-- Only points stand in front of the last point, or a backslash ends the name, with or without a
point behind it. -/
inductive HasOddEnding (name : String) : Prop where
  | points (dots behind : List Char) (only : ∀ c ∈ dots, c = '.') (last : '.' ∉ behind)
      (text : name.toList = dots ++ '.' :: behind) : HasOddEnding name
  | backslash (ends : ['\\'] <:+ name.toList) : HasOddEnding name
  | backslashAndPoint (ends : ['\\', '.'] <:+ name.toList) : HasOddEnding name

private theorem baseName_of_slashless (slashless : '/' ∉ name.toList) : baseName name = name := by
  have read := Text.takeWhile_reverse_append slashless []
  rw [List.nil_append] at read
  rw [baseName, read, List.reverse_nil, List.takeWhile_nil, List.append_nil, List.reverse_reverse,
    String.ofList_toList]

/-- The extension begins with the last point. -/
theorem extension_eq (slashless : '/' ∉ name.toList) {front behind : List Char}
    (text : name.toList = front ++ '.' :: behind) (last : '.' ∉ behind)
    (named : ¬ ∀ c ∈ front, c = '.') : extension name = '.' :: behind := by
  have back : name.toList.reverse.takeWhile (· != '.') = behind.reverse := by
    rw [text, List.append_cons, Text.takeWhile_reverse_append last]
    simp
  have cut : name.toList.take (name.toList.length - behind.reverse.length - 1) = front := by
    rw [text, List.length_append, List.length_cons, List.length_reverse,
      show front.length + (behind.length + 1) - behind.length - 1 = front.length by omega,
      List.take_left]
  have shorter : behind.reverse.length ≠ name.toList.length := by
    rw [text, List.length_append, List.length_cons, List.length_reverse]
    omega
  have allDots : front.all (· == '.') = false := by
    rw [Bool.eq_false_iff]
    intro all
    exact named fun c member => beq_iff_eq.mp (List.all_eq_true.mp all c member)
  simp only [extension, baseName_of_slashless slashless, back, cut, allDots, shorter, decide_false,
    Bool.or_self, Bool.false_eq_true, if_false, List.reverse_reverse]

private theorem slashed_eq_self {text : List Char} (plain : '/' ∉ slashed text) :
    slashed text = text := by
  refine (List.map_congr_left fun c member => ?_).trans (List.map_id text)
  rw [id, ite_eq_right_iff]
  rintro rfl
  exact absurd (List.mem_map.mpr ⟨'\\', member, rfl⟩) plain

private theorem exists_of_components (step : IsStep name.toList) {init : List (List Char)}
    {ending : List Char}
    (cut : components (String.ofList (slashed name.toList)) = init ++ [ending]) :
    ∃ lead, name.toList = lead ++ ending ∧ (init ≠ [] → ['\\'] <:+ lead) := by
  rw [components, String.toList_ofList] at cut
  have whole := Text.joinWith_splitAt '/' (slashed name.toList)
  have plain : '/' ∉ ending := by
    intro member
    have unmarked := Text.marked_eq_false_of_mem_splitAt (· == '/') (slashed name.toList) ending
      (by rw [cut]; simp) '/' member
    exact absurd unmarked (by decide)
  rw [cut] at whole
  by_cases alone : init = []
  · subst alone
    change ending = _ at whole
    rw [slashed_eq_self (whole ▸ plain)] at whole
    exact ⟨[], whole.symm, fun some => absurd rfl some⟩
  · rw [Text.joinWith_append _ _ _ alone (by simp), Text.joinWith] at whole
    obtain ⟨lead, own, text, opening, same⟩ := List.map_eq_append_iff.mp whole.symm
    change slashed own = ending at same
    rw [slashed_eq_self (same.symm ▸ plain)] at same
    obtain ⟨more, mark, rfl, -, marked⟩ := List.map_eq_append_iff.mp opening
    obtain ⟨c, rfl, slash⟩ := List.map_eq_singleton_iff.mp marked
    have backslash : c = '\\' := by
      split at slash
      · assumption
      · exact absurd (by simp [text, slash]) step.slashless
    exact ⟨more ++ [c], same ▸ text, fun _ => ⟨more, by rw [backslash]⟩⟩

/-- The suffix that tells the language is the extension, unless the name ends in one of these ways. -/
theorem suffixOf_eq_extension_or_odd (step : IsStep name.toList)
    (known : isIndexable name = true) :
    Language.suffixOf name = String.ofList (extension name) ∨ HasOddEnding name := by
  have present : suffix (String.ofList (slashed name.toList)) ≠ [] := fun empty =>
    Language.suffixOf_ne_empty known (by rw [Language.suffixOf, empty])
  obtain ⟨front, behind, named, last, suffixed⟩ := nameSuffix_eq present
  have nonempty : finalName (String.ofList (slashed name.toList)) ≠ [] := by
    rw [named]
    simp
  obtain ⟨before, after, cut, blank⟩ := finalName_eq nonempty
  rcases List.eq_nil_or_concat after with rfl | ⟨init, ending, rfl⟩
  · obtain ⟨lead, text, -⟩ := exists_of_components step cut
    rw [named, ← List.append_assoc] at text
    by_cases only : ∀ c ∈ lead ++ front, c = '.'
    · exact .inr (.points _ _ only last text)
    · left
      rw [extension_eq step.slashless text last only]
      exact congrArg String.ofList suffixed
  · rw [List.concat_eq_append, ← List.cons_append, ← List.append_assoc] at cut
    obtain ⟨lead, text, behindOthers⟩ := exists_of_components step cut
    obtain ⟨more, rfl⟩ := behindOthers (by simp)
    right
    rcases blank ending (by simp) with rfl | rfl
    · exact .backslash ⟨more, by rw [text, List.append_nil]⟩
    · exact .backslashAndPoint ⟨more, by rw [text]; simp⟩

end Path

end CodeSearch
