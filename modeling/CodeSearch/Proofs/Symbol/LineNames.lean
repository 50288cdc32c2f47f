import CodeSearch.Proofs.Symbol.Captures
import CodeSearch.Proofs.Symbol.Lines
import CodeSearch.Sorting
import Mathlib.Data.List.Nodup

/-! # The names on a line

Every name that a pattern of the table finds on a line is reported once, in the order of the columns
in which names are found first. Its kind is that of the pattern which finds it there, the earliest
one if there are several. A pattern that stands earlier in the table but finds the name only further
to the right does not count.
-/

namespace CodeSearch

/-! ## What is kept of the finds -/

section Kept

variable {found : List Finding} {finding : Finding}

/-- A find is kept if it is the first one with its name. -/
theorem mem_keepFirst_iff :
    finding ∈ keepFirst found ↔ found.find? (·.name == finding.name) = some finding := by
  induction found with
  | nil => simp [keepFirst]
  | cons first rest ih =>
    rw [keepFirst, List.mem_cons, List.mem_filter, ih, List.find?_cons]
    by_cases same : first.name = finding.name
    · simp [same, eq_comm]
    · have other : finding ≠ first := fun equal => same (equal ▸ rfl)
      rw [beq_eq_false_iff_ne.mpr same]
      simp [other, Ne.symm same]

theorem keepFirst_sublist (found : List Finding) : (keepFirst found).Sublist found := by
  induction found with
  | nil => exact List.Sublist.slnil
  | cons first rest ih => exact (List.filter_sublist.trans ih).cons_cons first

theorem keepFirst_names (found : List Finding) :
    (keepFirst found).Pairwise fun first second => first.name ≠ second.name := by
  induction found with
  | nil => exact List.Pairwise.nil
  | cons finding rest ih =>
    refine List.pairwise_cons.mpr ⟨?_, ih.filter _⟩
    intro later member
    have other := (List.mem_filter.mp member).2
    exact fun same => (bne_iff_ne.mp other) same.symm

/-- Of every name that is found something is kept. -/
theorem exists_mem_keepFirst (member : finding ∈ found) :
    ∃ kept ∈ keepFirst found, kept.name = finding.name := by
  obtain ⟨kept, first⟩ : ∃ kept, found.find? (·.name == finding.name) = some kept :=
    Option.isSome_iff_exists.mp (List.find?_isSome.mpr ⟨finding, member, beq_self_eq_true _⟩)
  have same : kept.name = finding.name := by simpa using List.find?_some first
  exact ⟨kept, mem_keepFirst_iff.mpr (by rw [same]; exact first), same⟩

end Kept

/-! ## Patterns that find a name -/

namespace Declaration

/-- The pattern finds a name on a line, in some column. -/
def finds (line name : List Char) (declaration : Declaration) : Bool :=
  (declaration.pattern.captures line).any fun capture => capture.text == name

/-- The pattern finds a name on a line in a column. -/
def findsAt (line name : List Char) (column : Nat) (declaration : Declaration) : Bool :=
  (declaration.pattern.captures line).any fun capture =>
    capture.text == name && capture.offset == column

variable {line name : List Char} {column : Nat} {declaration : Declaration}

theorem finds_iff : declaration.finds line name = true ↔
    ∃ column, declaration.findsAt line name column = true := by
  simp only [finds, findsAt, List.any_eq_true, Bool.and_eq_true, beq_iff_eq]
  constructor
  · rintro ⟨capture, member, text⟩
    exact ⟨capture.offset, capture, member, text, rfl⟩
  · rintro ⟨column, capture, member, text, -⟩
    exact ⟨capture, member, text⟩

end Declaration

/-- The column in which a name is found furthest to the left. -/
structure IsLeftmost (table : List Declaration) (line name : List Char) (column : Nat) : Prop where
  found : ∃ declaration ∈ table, declaration.findsAt line name column = true
  least : ∀ declaration ∈ table, ∀ other, declaration.findsAt line name other = true →
    column ≤ other

variable {table : List Declaration} {line name : List Char} {column : Nat} {finding : Finding}

theorem mem_findings_iff : finding ∈ findings table line ↔
    ∃ declaration ∈ table, ∃ capture ∈ declaration.pattern.captures line,
      ⟨capture.offset, capture.text, declaration.kind⟩ = finding := by
  simp only [findings, List.mem_flatMap, List.mem_map]

theorem findsAt_iff : (∃ declaration ∈ table, declaration.findsAt line name column = true) ↔
    ∃ finding ∈ findings table line, finding.name = name ∧ finding.column = column := by
  simp only [mem_findings_iff, Declaration.findsAt, List.any_eq_true, Bool.and_eq_true, beq_iff_eq]
  constructor
  · rintro ⟨declaration, known, capture, member, text, offset⟩
    exact ⟨_, ⟨declaration, known, capture, member, rfl⟩, text, offset⟩
  · rintro ⟨_, ⟨declaration, known, capture, member, rfl⟩, text, offset⟩
    exact ⟨declaration, known, capture, member, text, offset⟩

theorem finds_iff : (∃ declaration ∈ table, declaration.finds line name = true) ↔
    ∃ finding ∈ findings table line, finding.name = name := by
  constructor
  · rintro ⟨declaration, known, finds⟩
    obtain ⟨column, here⟩ := Declaration.finds_iff.mp finds
    obtain ⟨finding, listed, same, -⟩ := findsAt_iff.mp ⟨declaration, known, here⟩
    exact ⟨finding, listed, same⟩
  · rintro ⟨finding, listed, same⟩
    obtain ⟨declaration, known, here⟩ := findsAt_iff.mpr ⟨finding, listed, same, rfl⟩
    exact ⟨declaration, known, Declaration.finds_iff.mpr ⟨_, here⟩⟩

/-! ## The finds of a line in their order -/

private theorem column_trans (a b c : Finding) (first : decide (a.column ≤ b.column) = true)
    (second : decide (b.column ≤ c.column) = true) : decide (a.column ≤ c.column) = true := by
  simp only [decide_eq_true_eq] at *
  omega

private theorem column_total (a b : Finding) :
    (decide (a.column ≤ b.column) || decide (b.column ≤ a.column)) = true := by
  simp only [Bool.or_eq_true, decide_eq_true_eq]
  omega

theorem mem_sortedFindings : finding ∈ sortedFindings table line ↔ finding ∈ findings table line :=
  List.mem_mergeSort

theorem sortedFindings_rising (table : List Declaration) (line : List Char) :
    (sortedFindings table line).Pairwise fun first second => first.column ≤ second.column :=
  (List.pairwise_mergeSort column_trans column_total _).imp of_decide_eq_true

/-- What is kept is the first find with its name. -/
theorem exists_first_of_mem (member : finding ∈ lineFindings table line) :
    ∃ before after, sortedFindings table line = before ++ finding :: after ∧
      ∀ other ∈ before, other.name ≠ finding.name := by
  obtain ⟨-, before, after, shape, others⟩ :=
    List.find?_eq_some_iff_append.mp (mem_keepFirst_iff.mp member)
  exact ⟨before, after, shape, fun other earlier => by simpa using others other earlier⟩

/-- A name is kept with the column in which it is found furthest to the left. -/
theorem isLeftmost_of_mem (member : finding ∈ lineFindings table line) :
    IsLeftmost table line finding.name finding.column := by
  obtain ⟨before, after, shape, others⟩ := exists_first_of_mem member
  constructor
  case found =>
    have listed : finding ∈ findings table line := mem_sortedFindings.mp (by simp [shape])
    exact findsAt_iff.mpr ⟨finding, listed, rfl, rfl⟩
  case least =>
    intro declaration known column finds
    obtain ⟨other, listed, name, rfl⟩ := findsAt_iff.mp ⟨declaration, known, finds⟩
    have rising := sortedFindings_rising table line
    have place := mem_sortedFindings.mpr listed
    rw [shape] at rising place
    rcases List.mem_append.mp place with earlier | here
    · exact absurd name (others other earlier)
    · rcases List.mem_cons.mp here with rfl | later
      · exact Nat.le_refl _
      · exact (List.pairwise_cons.mp (List.pairwise_append.mp rising).2.1).1 other later

/-- The sort leaves what is found in one column in the order of the table, so the first find with a
name and a column is the same before and behind it. -/
theorem find?_findings (member : finding ∈ lineFindings table line) :
    (findings table line).find? (fun other => other.name == finding.name &&
      other.column == finding.column) = some finding := by
  obtain ⟨before, after, shape, others⟩ := exists_first_of_mem member
  have stable : (sortedFindings table line).filter (fun other => other.name == finding.name &&
      other.column == finding.column) =
        (findings table line).filter fun other => other.name == finding.name &&
          other.column == finding.column := by
    rw [sortedFindings, Sorting.filter_mergeSort column_trans column_total]
    refine List.mergeSort_of_pairwise (List.pairwise_filter.mpr (List.pairwise_of_forall ?_))
    intro first second here there
    simp only [Bool.and_eq_true, beq_iff_eq, decide_eq_true_eq] at here there ⊢
    omega
  rw [← List.head?_filter, ← stable, List.head?_filter, List.find?_eq_some_iff_append]
  refine ⟨by simp, before, after, shape, fun other earlier => ?_⟩
  simp [others other earlier]

/-- A name is kept with the kind of the first pattern of the table that finds it in its column. -/
theorem kind_of_mem (member : finding ∈ lineFindings table line) :
    ∃ declaration, table.find? (·.findsAt line finding.name finding.column) = some declaration ∧
      finding.kind = declaration.kind := by
  have first := find?_findings member
  rw [findings, List.find?_flatMap, List.findSome?_eq_some_iff] at first
  obtain ⟨before, declaration, after, shape, found, others⟩ := first
  rw [List.find?_map, Option.map_eq_some_iff] at found
  obtain ⟨capture, remembered, made⟩ := found
  refine ⟨declaration, List.find?_eq_some_iff_append.mpr ⟨?_, before, after, shape, ?_⟩, ?_⟩
  · have here := List.find?_some remembered
    exact List.any_eq_true.mpr ⟨capture, List.mem_of_find?_eq_some remembered, here⟩
  · intro other earlier
    have none := others other earlier
    rw [List.find?_map, Option.map_eq_none_iff, List.find?_eq_none] at none
    rw [Bool.not_eq_true', Declaration.findsAt, List.any_eq_false]
    exact none
  · rw [← made]

/-- In one column stands one name, so the names that are kept rise strictly. -/
theorem lineFindings_rising (names : ∀ declaration ∈ table, declaration.pattern.RemembersNames) :
    (lineFindings table line).Pairwise fun first second => first.column < second.column := by
  have stands (finding : Finding) (member : finding ∈ lineFindings table line) :
      finding.name = (line.drop finding.column).takeWhile Text.isWord := by
    have listed := mem_sortedFindings.mp ((keepFirst_sublist _).subset member)
    obtain ⟨declaration, known, capture, remembered, rfl⟩ := mem_findings_iff.mp listed
    exact Pattern.captures_isNameIn (names declaration known) remembered
  have rising := (sortedFindings_rising table line).sublist (keepFirst_sublist _)
  refine (rising.and (keepFirst_names _)).imp_of_mem ?_
  rintro first second here there ⟨order, different⟩
  refine Nat.lt_of_le_of_ne order fun same => different ?_
  rw [stands first here, stands second there, same]

/-! ## The symbols of a line -/

/-- No kind stands twice in a table. -/
theorem Declaration.kinds_nodup (tag : String) : ((tableOf tag).map Declaration.kind).Nodup := by
  unfold tableOf
  split
  · next language _ => cases language <;> decide
  · exact List.nodup_nil

/-- The symbols on a line are what the patterns of a table find there. Of a name that is found in
several columns or by several patterns, the kind is that of the first pattern which finds it
furthest to the left. This is the first pattern which finds it at all just if that one finds it
there. -/
structure NamesOn (table : List Declaration) (line : List Char) (symbols : List Symbol) : Prop where
  names : ∀ name, (∃ symbol ∈ symbols, symbol.name.toList = name) ↔
    ∃ declaration ∈ table, declaration.finds line name = true
  once : (symbols.map Symbol.name).Nodup
  rising : symbols.Pairwise fun first second => ∃ left right, left < right ∧
    IsLeftmost table line first.name.toList left ∧ IsLeftmost table line second.name.toList right
  kind : ∀ symbol ∈ symbols, ∃ column nearest first,
    IsLeftmost table line symbol.name.toList column ∧
      table.find? (·.findsAt line symbol.name.toList column) = some nearest ∧
      symbol.kind = nearest.kind ∧ table.find? (·.finds line symbol.name.toList) = some first ∧
      (symbol.kind = first.kind ↔ first.findsAt line symbol.name.toList column = true)

/-- The first pattern that finds a name is the first to do so in each column where it finds it. -/
theorem find?_findsAt_of_first {first : Declaration}
    (finds : table.find? (·.finds line name) = some first)
    (here : first.findsAt line name column = true) :
    table.find? (·.findsAt line name column) = some first := by
  obtain ⟨-, before, after, shape, others⟩ := List.find?_eq_some_iff_append.mp finds
  refine List.find?_eq_some_iff_append.mpr ⟨here, before, after, shape, fun other earlier => ?_⟩
  have none := others other earlier
  rw [Bool.not_eq_true', Bool.eq_false_iff] at none ⊢
  exact fun found => none (Declaration.finds_iff.mpr ⟨column, found⟩)

theorem lineSymbols_namesOn (names : ∀ declaration ∈ table, declaration.pattern.RemembersNames)
    (kinds : (table.map Declaration.kind).Nodup) (path : String) (number : Nat)
    (line : List Char) : NamesOn table line (lineSymbols table path number line) := by
  constructor
  case names =>
    intro name
    rw [finds_iff]
    constructor
    · rintro ⟨symbol, member, rfl⟩
      obtain ⟨finding, kept, rfl⟩ := List.mem_map.mp member
      have listed := mem_sortedFindings.mp ((keepFirst_sublist _).subset kept)
      exact ⟨finding, listed, String.toList_ofList.symm⟩
    · rintro ⟨finding, listed, rfl⟩
      obtain ⟨kept, member, same⟩ := exists_mem_keepFirst (mem_sortedFindings.mpr listed)
      exact ⟨_, List.mem_map_of_mem member, String.toList_ofList.trans same⟩
  case once =>
    refine List.pairwise_map.mpr (List.pairwise_map.mpr ((keepFirst_names _).imp ?_))
    exact fun different same => different (String.ofList_injective same)
  case rising =>
    refine List.pairwise_map.mpr ((lineFindings_rising names).imp_of_mem ?_)
    intro first second here there less
    refine ⟨first.column, second.column, less, ?_, ?_⟩
    · rw [String.toList_ofList]
      exact isLeftmost_of_mem here
    · rw [String.toList_ofList]
      exact isLeftmost_of_mem there
  case kind =>
    intro symbol member
    obtain ⟨finding, kept, rfl⟩ := List.mem_map.mp member
    obtain ⟨nearest, here, kind⟩ := kind_of_mem kept
    have known : nearest ∈ table := List.mem_of_find?_eq_some here
    have found : nearest.findsAt line finding.name finding.column = true := by
      simpa using List.find?_some here
    obtain ⟨first, finds⟩ : ∃ first, table.find? (·.finds line finding.name) = some first :=
      Option.isSome_iff_exists.mp (List.find?_isSome.mpr
        ⟨nearest, known, Declaration.finds_iff.mpr ⟨_, found⟩⟩)
    refine ⟨finding.column, nearest, first, ?_⟩
    simp only [String.toList_ofList]
    refine ⟨isLeftmost_of_mem kept, here, kind, finds, ?_, ?_⟩
    · intro same
      have only : nearest = first := List.inj_on_of_nodup_map kinds known
        (List.mem_of_find?_eq_some finds) (kind.symm.trans same)
      exact only ▸ found
    · intro there
      have only := (find?_findsAt_of_first finds there).symm.trans here
      rw [kind, Option.some.inj only]

/-- On every line of a text, each name that a pattern of the language finds there is reported once,
from left to right and with the kind of the pattern that finds it furthest to the left. -/
theorem names_are_reported_once (content tag path : String) (index : Nat) (line : List Char)
    (stands : (Text.lines content.toList)[index]? = some line) :
    NamesOn (Declaration.tableOf tag) line
      ((extractSymbols content tag path).filter
        fun symbol : Symbol => symbol.line = (index + 1 : Nat)) := by
  rw [filter_extractSymbols stands]
  exact lineSymbols_namesOn (Declaration.tableOf_remembersNames tag) (Declaration.kinds_nodup tag)
    path _ line

/-- A name found twice, and one that two patterns find in one column. -/
theorem names_of_crowded_line :
    let content := "// kinds\nclass Red enum class Color class Red"
    let line := "class Red enum class Color class Red".toList
    let reported := (extractSymbols content "kotlin" "a.kt").filter
      fun symbol : Symbol => symbol.line = (1 + 1 : Nat)
    (Text.lines content.toList)[1]? = some line ∧
      reported.map (fun symbol => (symbol.name, symbol.kind)) =
        [("Red", .classType), ("Color", .enum)] ∧
      NamesOn (Declaration.tableOf "kotlin") line reported := by
  intro content line reported
  have stands : (Text.lines content.toList)[1]? = some line := by decide +kernel
  have found : findings (Declaration.tableOf "kotlin") line =
      [⟨21, "Color".toList, .enum⟩, ⟨6, "Red".toList, .classType⟩,
        ⟨21, "Color".toList, .classType⟩, ⟨33, "Red".toList, .classType⟩] := by
    decide +kernel
  have kept : lineFindings (Declaration.tableOf "kotlin") line =
      [⟨6, "Red".toList, .classType⟩, ⟨21, "Color".toList, .enum⟩] := by
    rw [lineFindings, found]
    simp [List.mergeSort, List.MergeSort.Internal.splitInTwo, keepFirst]
  have shown : (lineSymbols (Declaration.tableOf "kotlin") "a.kt" 2 line).map
      (fun symbol => (symbol.name, symbol.kind)) = [("Red", .classType), ("Color", .enum)] := by
    rw [lineSymbols, kept]
    decide +kernel
  refine ⟨stands, ?_, names_are_reported_once content "kotlin" "a.kt" 1 line stands⟩
  rw [← shown]
  exact congrArg _ (filter_extractSymbols stands)

/-- The first pattern that finds a name on a line does not give its kind if it finds the name behind
another one. -/
theorem kind_is_not_that_of_first_pattern :
    let content := "interface A \x7b\x7d class A \x7b\x7d"
    (extractSymbols content "typescript" "a.ts").map
        (fun symbol => (symbol.name, symbol.kind, symbol.line)) = [("A", .interface, 1)] ∧
      ((Declaration.tableOf "typescript").find? (·.finds content.toList "A".toList)).map
        Declaration.kind = some .classType := by
  intro content
  refine ⟨?_, by decide +kernel⟩
  have found : findings (Declaration.tableOf "typescript") content.toList =
      [⟨21, "A".toList, .classType⟩, ⟨10, "A".toList, .interface⟩] := by
    decide +kernel
  have kept : lineFindings (Declaration.tableOf "typescript") content.toList =
      [⟨10, "A".toList, .interface⟩] := by
    rw [lineFindings, found]
    simp [List.mergeSort, List.MergeSort.Internal.splitInTwo, keepFirst]
  have cut : Text.lines content.toList = [content.toList] := by decide +kernel
  rw [extractSymbols, cut, symbolsFrom, symbolsFrom, lineSymbols, kept]
  decide +kernel

end CodeSearch
