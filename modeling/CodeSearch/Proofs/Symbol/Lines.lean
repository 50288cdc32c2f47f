import CodeSearch.Symbol.Extraction

/-! # Symbols line by line

Lines are searched one by one, so the symbols of a text are those of its lines, each moved down to
the line where it stands. Text behind a line end moves nothing that was found in front of it.
-/

namespace CodeSearch

theorem Text.length_lines (text : List Char) : (Text.lines text).length = text.count '\n' + 1 := by
  induction text with
  | nil => rfl
  | cons c rest ih =>
    rw [Text.lines] at ih ⊢
    by_cases ends : c = '\n'
    · subst ends
      simp [Text.splitAt, ih]
    · have some := Text.splitAt_ne_nil (· == '\n') rest
      rw [Text.splitAt, if_neg (by simpa using ends), List.count_cons_of_ne ends, ← ih]
      split
      · next none => exact absurd none some
      · next pieces => rw [pieces, List.length_cons, List.length_cons]

/-- The number of lines of a text. -/
def lineCount (text : String) : Nat := text.toList.count '\n' + 1

/-- The symbol on a line so many lines further down. -/
def Symbol.lowered (count : Nat) (symbol : Symbol) : Symbol :=
  { symbol with line := symbol.line + count }

variable {table : List Declaration} {tag path content : String} {number count index : Nat}
  {line : List Char} {lines : List (List Char)} {symbol : Symbol}

theorem lineSymbols_lowered (table : List Declaration) (path : String) (number count : Nat)
    (line : List Char) :
    lineSymbols table path (number + count) line =
      (lineSymbols table path number line).map (Symbol.lowered count) := by
  rw [lineSymbols, lineSymbols, List.map_map]
  rfl

theorem line_of_mem_lineSymbols (member : symbol ∈ lineSymbols table path number line) :
    symbol.line = number := by
  obtain ⟨finding, -, rfl⟩ := List.mem_map.mp member
  rfl

theorem symbolsFrom_lowered (table : List Declaration) (path : String) (number count : Nat)
    (lines : List (List Char)) :
    symbolsFrom table path (number + count) lines =
      (symbolsFrom table path number lines).map (Symbol.lowered count) := by
  induction lines generalizing number with
  | nil => rfl
  | cons line rest ih =>
    rw [symbolsFrom, symbolsFrom, List.map_append, lineSymbols_lowered, Nat.add_right_comm, ih]

/-! ## Where symbols stand -/

theorem le_line_of_mem_symbolsFrom (member : symbol ∈ symbolsFrom table path number lines) :
    (number : Int) ≤ symbol.line := by
  induction lines generalizing number with
  | nil => cases member
  | cons line rest ih =>
    rcases List.mem_append.mp member with here | later
    · exact Int.le_of_eq (line_of_mem_lineSymbols here).symm
    · have below := ih later
      omega

/-- Symbols stand on lines that are searched. -/
theorem line_lt_of_mem_symbolsFrom (member : symbol ∈ symbolsFrom table path number lines) :
    symbol.line < (number + lines.length : Nat) := by
  induction lines generalizing number with
  | nil => cases member
  | cons line rest ih =>
    rw [List.length_cons]
    rcases List.mem_append.mp member with here | later
    · rw [line_of_mem_lineSymbols here]
      omega
    · have below := ih later
      omega

/-- A symbol stands on a line of the text in which it is found. -/
theorem line_of_mem_extractSymbols (member : symbol ∈ extractSymbols content tag path) :
    1 ≤ symbol.line ∧ symbol.line ≤ (Text.lines content.toList).length := by
  have above := le_line_of_mem_symbolsFrom member
  have below := line_lt_of_mem_symbolsFrom member
  omega

/-- Symbols are found from top to bottom. -/
theorem extractSymbols_sorted (content tag path : String) :
    (extractSymbols content tag path).Pairwise fun first second => first.line ≤ second.line := by
  unfold extractSymbols
  generalize Text.lines content.toList = lines
  generalize 1 = number
  induction lines generalizing number with
  | nil => exact List.Pairwise.nil
  | cons line rest ih =>
    refine List.pairwise_append.mpr ⟨?_, ih (number + 1), ?_⟩
    · exact List.pairwise_map.mpr (List.pairwise_of_forall fun _ _ => Int.le_refl _)
    · intro first here second later
      have below := le_line_of_mem_symbolsFrom later
      rw [line_of_mem_lineSymbols here]
      omega

/-- The symbols on a line are those that the line gives. The induction is on the lines; what stands
on another line is left out. -/
theorem filter_symbolsFrom (stands : lines[index]? = some line) :
    (symbolsFrom table path number lines).filter
        (fun symbol : Symbol => symbol.line = (number + index : Nat)) =
      lineSymbols table path (number + index) line := by
  induction lines generalizing number index with
  | nil => cases stands
  | cons first rest ih =>
    rw [symbolsFrom, List.filter_append]
    cases index with
    | zero =>
      obtain rfl : first = line := by simpa using stands
      rw [List.filter_eq_self.mpr, List.filter_eq_nil_iff.mpr, List.append_nil]
      · rfl
      · intro symbol later
        have below := le_line_of_mem_symbolsFrom later
        simp only [decide_eq_true_eq]
        omega
      · intro symbol here
        simp [line_of_mem_lineSymbols here]
    | succ index =>
      have next : number + 1 + index = number + (index + 1) := by omega
      have others : (lineSymbols table path number first).filter
          (fun symbol : Symbol => symbol.line = (number + (index + 1) : Nat)) = [] := by
        apply List.filter_eq_nil_iff.mpr
        intro symbol here
        rw [line_of_mem_lineSymbols here, decide_eq_true_eq]
        omega
      rw [others, List.nil_append, ← next]
      exact ih (by simpa using stands)

/-- The symbols on a line of a text. -/
theorem filter_extractSymbols (stands : (Text.lines content.toList)[index]? = some line) :
    (extractSymbols content tag path).filter
        (fun symbol : Symbol => symbol.line = (index + 1 : Nat)) =
      lineSymbols (Declaration.tableOf tag) path (index + 1) line := by
  rw [Nat.add_comm]
  exact filter_symbolsFrom stands

/-- A line taken as a text of its own has its symbols on the first line. -/
theorem extractSymbols_of_line (tag path : String) (free : '\n' ∉ line) :
    extractSymbols (String.ofList line) tag path =
      lineSymbols (Declaration.tableOf tag) path 1 line := by
  have one : Text.lines line = [line] := by
    refine Text.splitAt_of_unmarked _ line fun c member => ?_
    rw [beq_eq_false_iff_ne]
    rintro rfl
    exact free member
  rw [extractSymbols, String.toList_ofList, one, symbolsFrom, symbolsFrom, List.append_nil]

/-! ## One pass over all finds -/

/-- The finds of a line from left to right, those in one column in the order of the table. -/
def sortedFindings (table : List Declaration) (line : List Char) : List Finding :=
  (findings table line).mergeSort fun a b => decide (a.column ≤ b.column)

/-- A find as a symbol of the line with a given number. -/
def Finding.symbolOn (path : String) (number : Nat) (line : List Char) (finding : Finding) :
    Symbol where
  name := String.ofList finding.name
  kind := finding.kind
  filePath := path
  line := number
  signature := some (String.ofList ((Text.trim line).take signatureLimit))

/-- All that is found in consecutive lines, names that are found again included. -/
def findsFrom (table : List Declaration) (path : String) : Nat → List (List Char) → List Symbol
  | _, [] => []
  | number, line :: rest =>
    (sortedFindings table line).map (Finding.symbolOn path number line) ++
      findsFrom table path (number + 1) rest

/-- What tells a symbol from the others of a text. -/
def Symbol.key (symbol : Symbol) : String × Int := (symbol.name, symbol.line)

/-- The first symbol with each key, unless the key was seen before. -/
def gather (seen : List (String × Int)) : List Symbol → List Symbol
  | [] => []
  | symbol :: rest =>
    if symbol.key ∈ seen then gather seen rest else symbol :: gather (symbol.key :: seen) rest

theorem gather_append (seen : List (String × Int)) (first second : List Symbol) :
    gather seen (first ++ second) = gather seen first ++
      gather (((gather seen first).map Symbol.key).reverse ++ seen) second := by
  induction first generalizing seen with
  | nil => rfl
  | cons symbol rest ih =>
    rw [List.cons_append, gather, gather]
    split
    · exact ih seen
    · simp [ih]

theorem Finding.key_symbolOn_eq_iff (path : String) (number : Nat) (line : List Char)
    (first second : Finding) :
    (first.symbolOn path number line).key = (second.symbolOn path number line).key ↔
      first.name = second.name := by
  refine ⟨fun same => String.ofList_injective (Prod.mk.inj same).1, fun same => ?_⟩
  rw [Symbol.key, Symbol.key, Finding.symbolOn, Finding.symbolOn, same]

/-- On one line, keys are told apart by their names. -/
theorem gather_line (seen : List (String × Int)) (found : List Finding) :
    gather seen (found.map (Finding.symbolOn path number line)) =
      ((keepFirst found).filter fun finding => (finding.symbolOn path number line).key ∉ seen).map
        (Finding.symbolOn path number line) := by
  induction found generalizing seen with
  | nil => rfl
  | cons finding rest ih =>
    rw [List.map_cons, gather, keepFirst, List.filter_cons, List.filter_filter, ih, ih]
    by_cases known : (finding.symbolOn path number line).key ∈ seen
    · have dropped (later : Finding) (fresh : (later.symbolOn path number line).key ∉ seen) :
          later.name ≠ finding.name := by
        intro same
        rw [(Finding.key_symbolOn_eq_iff path number line later finding).mpr same] at fresh
        exact fresh known
      simp only [known, not_true_eq_false, decide_false, if_true, Bool.false_eq_true, if_false]
      refine congrArg _ (List.filter_congr fun later _ => ?_)
      by_cases fresh : (later.symbolOn path number line).key ∈ seen
      · simp [fresh]
      · simp [fresh, dropped later fresh]
    · simp only [known, not_false_eq_true, decide_true, if_true, if_false, List.map_cons]
      refine congrArg _ (congrArg _ (List.filter_congr fun later _ => ?_))
      simp only [List.mem_cons, Finding.key_symbolOn_eq_iff]
      by_cases same : later.name = finding.name <;> simp [same]

theorem gather_findsFrom (seen : List (String × Int)) (above : ∀ key ∈ seen, key.2 < number) :
    gather seen (findsFrom table path number lines) = symbolsFrom table path number lines := by
  induction lines generalizing number seen with
  | nil => rfl
  | cons line rest ih =>
    have here : gather seen ((sortedFindings table line).map (Finding.symbolOn path number line)) =
        lineSymbols table path number line := by
      rw [gather_line, List.filter_eq_self.mpr]
      · rfl
      · intro finding _
        rw [decide_eq_true_eq]
        exact fun known => Int.lt_irrefl _ (above _ known)
    rw [findsFrom, gather_append, here, symbolsFrom, ih]
    intro key known
    rcases List.mem_append.mp known with own | earlier
    · obtain ⟨symbol, member, rfl⟩ := List.mem_map.mp (List.mem_reverse.mp own)
      have stands : symbol.key.2 = number := line_of_mem_lineSymbols member
      omega
    · have := above key earlier
      omega

/-- Nothing is found on an empty line. -/
theorem lineSymbols_nil (table : List Declaration) (path : String) (number : Nat) :
    lineSymbols table path number [] = [] := by
  have nothing : findings table [] = [] := List.flatMap_eq_nil_iff.mpr fun _ _ => rfl
  simp [lineSymbols, lineFindings, nothing, keepFirst]

/-- Symbols may as well be gathered in one pass, with one set of keys for the whole text: a key
holds its line, so what was seen on other lines does not matter. -/
theorem extractSymbols_eq_gather (content tag path : String) :
    extractSymbols content tag path =
      if content = "" then []
      else gather [] (findsFrom (Declaration.tableOf tag) path 1 (Text.lines content.toList)) := by
  rw [gather_findsFrom [] (by simp), ← extractSymbols]
  split
  · next empty =>
    subst empty
    change lineSymbols _ path 1 [] ++ [] = []
    rw [lineSymbols_nil, List.append_nil]
  · rfl

/-! ## Texts line by line -/

/-- A way to find symbols that goes from line to line and takes nothing along. -/
structure IsLinewise (extract : String → List Symbol) : Prop where
  append : ∀ first second : String, extract (first ++ "\n" ++ second) =
    extract first ++ (extract second).map (Symbol.lowered (lineCount first))
  rising : ∀ content : String,
    (extract content).Pairwise fun first second => first.line ≤ second.line
  inside : ∀ content : String, ∀ symbol ∈ extract content,
    1 ≤ symbol.line ∧ symbol.line ≤ lineCount content
  /-- Lines that are added change nothing that was found. -/
  kept : ∀ content more : String, extract content <+: extract (content ++ "\n" ++ more)
  /-- Text that is added changes nothing above the line to which it is added. -/
  settled : ∀ content more : String,
    (extract (content ++ more)).filter (fun symbol : Symbol => symbol.line < lineCount content) =
      (extract content).filter fun symbol : Symbol => symbol.line < lineCount content
  /-- What is found on a line is what is found in the line alone. -/
  ofLine : ∀ (content : String) (index : Nat) (line : List Char),
    (Text.lines content.toList)[index]? = some line →
      (extract content).filter (fun symbol : Symbol => symbol.line = (index + 1 : Nat)) =
        (extract (String.ofList line)).map (Symbol.lowered index)

theorem lineCount_append (first second : String) :
    lineCount (first ++ "\n" ++ second) = lineCount first + lineCount second := by
  have ends : "\n".toList.count '\n' = 1 := by decide
  simp only [lineCount, String.toList_append, List.count_append, ends]
  omega

theorem extractSymbols_append (first second tag path : String) :
    extractSymbols (first ++ "\n" ++ second) tag path = extractSymbols first tag path ++
      (extractSymbols second tag path).map (Symbol.lowered (lineCount first)) := by
  have cut : Text.lines (first ++ "\n" ++ second).toList =
      Text.lines first.toList ++ Text.lines second.toList := by
    rw [String.toList_append, String.toList_append, List.append_assoc]
    exact Text.lines_append first.toList second.toList
  rw [extractSymbols, cut, symbolsFrom_append, Text.length_lines, symbolsFrom_lowered]
  rfl

/-- A text of more than one line is cut in front of its last line. -/
theorem exists_last_line {content : String} (ends : '\n' ∈ content.toList) :
    ∃ front last : String, content = front ++ "\n" ++ last ∧
      lineCount content = lineCount front + 1 := by
  obtain ⟨back, front, shape, free⟩ := List.eq_append_cons_of_mem (List.mem_reverse.mpr ends)
  have whole : content = String.ofList front.reverse ++ "\n" ++ String.ofList back.reverse := by
    apply String.toList_injective
    rw [← List.reverse_inj, shape]
    simp [String.toList_append]
  refine ⟨_, _, whole, ?_⟩
  have single : lineCount (String.ofList back.reverse) = 1 := by
    rw [lineCount, String.toList_ofList, List.count_reverse, List.count_eq_zero.mpr free]
  rw [whole, lineCount_append, single]

/-- Symbols stand on lines of the text. -/
theorem line_bounds_of_mem_extractSymbols (member : symbol ∈ extractSymbols content tag path) :
    1 ≤ symbol.line ∧ symbol.line ≤ lineCount content := by
  have bounds := line_of_mem_extractSymbols member
  rwa [Text.length_lines] at bounds

/-- The symbols above the last line are those of the text that stands above it. -/
theorem filter_extractSymbols_above (front last tag path : String) :
    (extractSymbols (front ++ "\n" ++ last) tag path).filter
        (fun symbol : Symbol => symbol.line < (lineCount front + 1 : Nat)) =
      extractSymbols front tag path := by
  rw [extractSymbols_append, List.filter_append, List.filter_eq_self.mpr,
    List.filter_eq_nil_iff.mpr, List.append_nil]
  · intro symbol member
    obtain ⟨own, known, rfl⟩ := List.mem_map.mp member
    have low := (line_bounds_of_mem_extractSymbols known).1
    rw [decide_eq_true_eq]
    change ¬ own.line + lineCount front < (lineCount front + 1 : Nat)
    omega
  · intro symbol member
    have high := (line_bounds_of_mem_extractSymbols member).2
    rw [decide_eq_true_eq]
    omega

/-- Text that is added to the last line leaves the symbols above that line as they are. -/
theorem filter_extractSymbols_extended (content more tag path : String) :
    (extractSymbols (content ++ more) tag path).filter
        (fun symbol : Symbol => symbol.line < lineCount content) =
      (extractSymbols content tag path).filter
        fun symbol : Symbol => symbol.line < lineCount content := by
  by_cases ends : '\n' ∈ content.toList
  · obtain ⟨front, last, shape, count⟩ := exists_last_line ends
    have longer := filter_extractSymbols_above front (last ++ more) tag path
    have shorter := filter_extractSymbols_above front last tag path
    rw [← String.append_assoc, ← shape, ← count] at longer
    rw [← shape, ← count] at shorter
    rw [longer, shorter]
  · have one : lineCount content = 1 := by
      rw [lineCount, List.count_eq_zero.mpr ends]
    have none (text : String) : (extractSymbols text tag path).filter
        (fun symbol : Symbol => symbol.line < lineCount content) = [] := by
      refine List.filter_eq_nil_iff.mpr fun symbol member => ?_
      have low := (line_bounds_of_mem_extractSymbols member).1
      rw [decide_eq_true_eq]
      omega
    rw [none, none]

/-- Extraction goes line by line, for every table of patterns: the symbols of two texts with a line
end between them are those of the first and, that many lines further down, those of the second. -/
theorem extractSymbols_isLinewise (tag path : String) :
    IsLinewise fun content => extractSymbols content tag path := by
  constructor
  case append => exact fun first second => extractSymbols_append first second tag path
  case rising => exact fun content => extractSymbols_sorted content tag path
  case inside => exact fun content symbol member => line_bounds_of_mem_extractSymbols member
  case kept => exact fun content more => ⟨_, (extractSymbols_append content more tag path).symm⟩
  case settled => exact fun content more => filter_extractSymbols_extended content more tag path
  case ofLine =>
    intro content index line stands
    have free : '\n' ∉ line := by
      intro member
      have unmarked := Text.marked_eq_false_of_mem_splitAt _ _ _ (List.mem_of_getElem? stands)
      simpa using unmarked '\n' member
    rw [filter_extractSymbols stands, extractSymbols_of_line tag path free, Nat.add_comm,
      lineSymbols_lowered]

end CodeSearch
