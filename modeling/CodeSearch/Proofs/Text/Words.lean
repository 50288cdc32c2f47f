import CodeSearch.Text.Case
import CodeSearch.Text.Pieces
import Mathlib.Data.List.DropRight

/-! # Words and blanks

The words of a text are what its blanks leave. Collapsing runs of blanks and taking blanks from the
ends change no word, and whatever works between the blanks works word by word.
-/

namespace CodeSearch.Text

variable {text first second tail : List Char} {c : Char}

/-- Nothing but blanks. -/
def AreBlanks (text : List Char) : Prop := ∀ c ∈ text, isBlank c = true

/-- No member is empty, and none holds a blank. -/
def AreWords (list : List (List Char)) : Prop :=
  ∀ word ∈ list, word ≠ [] ∧ ∀ c ∈ word, isBlank c = false

instance (text : List Char) : Decidable (AreBlanks text) :=
  List.decidableBAll (fun c => isBlank c = true) text

@[simp] theorem words_nil : words [] = [] := rfl

theorem areWords_words (text : List Char) : AreWords (words text) := by
  intro word member
  obtain ⟨piece, some⟩ := List.mem_filter.mp member
  exact ⟨by simpa using some, marked_eq_false_of_mem_splitAt isBlank text word piece⟩

/-- A blank separates the words in front of it from those behind it. -/
theorem words_append_blank (blank : isBlank c = true) :
    words (first ++ c :: second) = words first ++ words second := by
  rw [words, splitAt_append isBlank first second c blank, List.filter_append]
  rfl

theorem words_cons_blank (blank : isBlank c = true) : words (c :: text) = words text := by
  simpa using @words_append_blank [] text c blank

theorem words_blanks_append (blanks : AreBlanks first) : words (first ++ text) = words text := by
  induction first with
  | nil => rfl
  | cons c rest ih =>
    rw [List.cons_append, words_cons_blank (blanks c List.mem_cons_self)]
    exact ih fun d member => blanks d (List.mem_cons_of_mem c member)

theorem words_append_blanks (blanks : AreBlanks tail) : words (text ++ tail) = words text := by
  cases tail with
  | nil => rw [List.append_nil]
  | cons c rest =>
    have none : words rest = [] := by
      rw [← rest.append_nil, words_blanks_append, words_nil]
      exact fun d member => blanks d (List.mem_cons_of_mem c member)
    rw [words_append_blank (blanks c List.mem_cons_self), none, List.append_nil]

/-- A text without blanks is one word, unless it is empty. -/
theorem words_of_blankless (blankless : ∀ c ∈ text, isBlank c = false) (some : text ≠ []) :
    words text = [text] := by
  have one : splitAt isBlank text = [text] := by
    clear some
    induction text with
    | nil => rfl
    | cons c rest ih =>
      simp [splitAt, blankless c List.mem_cons_self,
        ih fun d member => blankless d (List.mem_cons_of_mem c member)]
  simp [words, one, some]

/-- What keeps blanks where they are works word by word. -/
theorem words_of_splits {change : List Char → List Char} (none : change [] = [])
    (splits : ∀ first c second, isBlank c = true →
      change (first ++ c :: second) = change first ++ c :: change second) (text : List Char) :
    words (change text) = (words text).flatMap fun word => words (change word) := by
  have blankless : ∀ piece : List Char, (∀ c ∈ piece, isBlank c = false) →
      words (change piece) = (words piece).flatMap fun word => words (change word) := by
    intro piece free
    by_cases empty : piece = []
    · subst empty
      rw [none]
      rfl
    · rw [words_of_blankless free empty]
      simp
  -- `piece` is the word that is being read
  suffices read : ∀ piece : List Char, (∀ c ∈ piece, isBlank c = false) →
      words (change (piece ++ text)) =
        (words (piece ++ text)).flatMap fun word => words (change word) from
    read [] (by simp)
  induction text with
  | nil =>
    intro piece free
    rw [List.append_nil]
    exact blankless piece free
  | cons c rest ih =>
    intro piece free
    by_cases blank : isBlank c = true
    · rw [splits piece c rest blank, words_append_blank blank, words_append_blank blank,
        List.flatMap_append, blankless piece free]
      exact congrArg _ (ih [] (by simp))
    · have longer := ih (piece ++ [c])
        (by simpa [or_imp, forall_and] using ⟨free, Bool.not_eq_true _ ▸ blank⟩)
      simpa using longer

/-! ## Blanks at the ends -/

/-- Trimming leaves what stands between blanks. -/
theorem exists_trim (text : List Char) : ∃ front back, AreBlanks front ∧ AreBlanks back ∧
    text = front ++ trim text ++ back := by
  refine ⟨text.takeWhile isBlank, ((trimLeft text).reverse.takeWhile isBlank).reverse, ?_, ?_, ?_⟩
  · exact fun c member => List.all_eq_true.mp List.all_takeWhile c member
  · exact fun c member => List.all_eq_true.mp List.all_takeWhile c (List.mem_reverse.mp member)
  · have right : trimLeft text =
        trim text ++ ((trimLeft text).reverse.takeWhile isBlank).reverse := by
      rw [trim, trimRight, ← List.reverse_append, List.takeWhile_append_dropWhile,
        List.reverse_reverse]
    rw [List.append_assoc, ← right]
    exact List.takeWhile_append_dropWhile.symm

/-- Blanks at the ends do not count. -/
theorem trim_append (blanks : AreBlanks first) (blanks' : AreBlanks tail) :
    trim (first ++ text ++ tail) = trim text := by
  have right : ∀ text, trimRight (text ++ tail) = trimRight text := by
    intro text
    rw [trimRight, List.reverse_append, List.dropWhile_append_of_pos]
    · rfl
    · exact fun c member => blanks' c (List.mem_reverse.mp member)
  rw [List.append_assoc, trim, trimLeft, List.dropWhile_append_of_pos blanks, List.dropWhile_append]
  split
  · next none =>
    have empty : trimLeft text = [] := List.isEmpty_iff.mp none
    have nothing : tail.dropWhile isBlank = [] := List.dropWhile_eq_nil_iff.mpr blanks'
    rw [nothing, trim, empty]
  · exact right _

theorem trimLeft_eq_self_iff : trimLeft text = text ↔ ∀ c ∈ text.head?, isBlank c = false := by
  cases text with
  | nil => simp [trimLeft]
  | cons c rest =>
    rw [trimLeft, List.dropWhile_eq_self_iff]
    simp

theorem trimRight_eq_self_iff : trimRight text = text ↔ ∀ c ∈ text.getLast?, isBlank c = false := by
  rw [← List.head?_reverse, ← trimLeft_eq_self_iff, trimRight, ← trimLeft]
  exact ⟨fun same => List.reverse_inj.mp (same.trans (List.reverse_reverse text).symm),
    fun same => by rw [same, List.reverse_reverse]⟩

theorem trimLeft_cons_blank (blank : isBlank c = true) : trimLeft (c :: text) = trimLeft text :=
  List.dropWhile_cons_of_pos blank

theorem trimLeft_trimLeft (text : List Char) : trimLeft (trimLeft text) = trimLeft text :=
  List.dropWhile_idempotent isBlank text

/-- Blanks are taken from the end as far as they go. -/
theorem trimRight_append : trimRight (first ++ tail) =
    if trimRight tail = [] then trimRight first else first ++ trimRight tail := by
  simp only [trimRight, List.reverse_append, List.dropWhile_append, List.reverse_eq_nil_iff]
  split
  · next none => rw [if_pos (List.isEmpty_iff.mp none)]
  · next some => rw [if_neg fun none => some (List.isEmpty_iff.mpr none)]; simp

theorem trimLeft_append_of_blankless (some : first ≠ []) (blankless : ∀ c ∈ first, isBlank c = false) :
    trimLeft (first ++ text) = first ++ text := by
  rw [trimLeft_eq_self_iff, List.head?_append_of_ne_nil _ some]
  exact fun c opens => blankless c (List.mem_of_mem_head? opens)

theorem trimRight_append_of_blankless (blankless : ∀ c ∈ first, isBlank c = false) :
    trimRight (first ++ text) = first ++ trimRight text := by
  have closed : trimRight first = first :=
    trimRight_eq_self_iff.mpr fun c last => blankless c (List.mem_of_mem_getLast? last)
  rw [trimRight_append, closed]
  split
  · next none => rw [none, List.append_nil]
  · rfl

/-- A text without blanks at its ends stays as it is. -/
theorem trim_eq_self_iff : trim text = text ↔
    (∀ c ∈ text.head?, isBlank c = false) ∧ ∀ c ∈ text.getLast?, isBlank c = false := by
  rw [← trimLeft_eq_self_iff, ← trimRight_eq_self_iff]
  constructor
  · intro same
    have left : trimLeft text = text := by
      refine (List.dropWhile_suffix _).eq_of_length_le ?_
      rw [← congrArg List.length same, trim, trimRight, List.length_reverse]
      exact (List.dropWhile_sublist _).length_le.trans (by simp [trimLeft])
    rw [trim, left] at same
    exact ⟨left, same⟩
  · rintro ⟨left, right⟩
    rw [trim, left, right]

theorem trim_of_blankless (blankless : ∀ c ∈ text, isBlank c = false) : trim text = text :=
  trim_eq_self_iff.mpr ⟨fun c first => blankless c (List.mem_of_mem_head? first),
    fun c last => blankless c (List.mem_of_mem_getLast? last)⟩

theorem trim_trim (text : List Char) : trim (trim text) = trim text := by
  have opening (text : List Char) : ∀ c ∈ (trimLeft text).head?, isBlank c = false := by
    intro c first
    have stops := List.head?_dropWhile_not isBlank text
    rw [← trimLeft, Option.mem_def.mp first] at stops
    exact stops
  have front : trim text <+: trimLeft text := by
    rw [← List.reverse_suffix, trim, trimRight, List.reverse_reverse]
    exact List.dropWhile_suffix _
  refine trim_eq_self_iff.mpr ⟨?_, ?_⟩
  · intro c first
    obtain ⟨rest, whole⟩ := front
    refine opening text c ?_
    rw [← whole, List.head?_append, Option.mem_def.mp first]
    rfl
  · intro c last
    rw [trim, trimRight, List.getLast?_reverse] at last
    exact opening (trimLeft text).reverse c last

theorem trim_trimRight (text : List Char) : trim (trimRight text) = trim text := by
  have parts : text = trimRight text ++ (text.reverse.takeWhile isBlank).reverse := by
    rw [trimRight, ← List.reverse_append, List.takeWhile_append_dropWhile, List.reverse_reverse]
  have blanks : AreBlanks (text.reverse.takeWhile isBlank).reverse := fun c member =>
    List.all_eq_true.mp List.all_takeWhile c (List.mem_reverse.mp member)
  have whole := @trim_append (trimRight text) [] _ (by simp [AreBlanks]) blanks
  rw [List.nil_append, ← parts] at whole
  exact whole.symm

theorem trim_eq_nil_iff : trim text = [] ↔ AreBlanks text := by
  constructor
  · intro none
    obtain ⟨front, back, blanks, blanks', shape⟩ := exists_trim text
    rw [none, List.append_nil] at shape
    rw [shape]
    exact fun c member => (List.mem_append.mp member).elim (blanks c) (blanks' c)
  · intro blanks
    have whole : trim (text ++ [] ++ []) = [] := trim_append blanks (by simp [AreBlanks])
    rwa [List.append_nil, List.append_nil] at whole

theorem words_trim (text : List Char) : words (trim text) = words text := by
  obtain ⟨front, back, blanks, blanks', shape⟩ := exists_trim text
  have same := congrArg words shape
  rw [words_append_blanks blanks', words_blanks_append blanks] at same
  exact same.symm

/-! ## Runs of blanks -/

theorem words_collapseBlanks (text : List Char) : words (collapseBlanks text) = words text := by
  suffices read : ∀ piece, words (piece ++ collapseBlanks text) = words (piece ++ text) from read []
  induction text with
  | nil => exact fun _ => rfl
  | cons c rest ih =>
    intro piece
    unfold collapseBlanks
    split
    · next blank =>
      rw [words_append_blank blank]
      split
      · rw [words_append_blank rfl, words_nil]
      · next d more =>
        split
        · next blank' =>
          rw [ih piece, words_append_blank blank', words_cons_blank blank']
        · rw [words_append_blank rfl]
          exact congrArg _ (ih [])
    · have longer := ih (piece ++ [c])
      simpa using longer

theorem collapseBlanks_cons_of_not_blank (solid : isBlank c = false) :
    collapseBlanks (c :: text) = c :: collapseBlanks text := by
  simp [collapseBlanks, solid]

theorem collapseBlanks_blankless_append (blankless : ∀ c ∈ first, isBlank c = false) :
    collapseBlanks (first ++ text) = first ++ collapseBlanks text := by
  induction first with
  | nil => rfl
  | cons c rest ih =>
    obtain ⟨here, later⟩ := List.forall_mem_cons.mp blankless
    rw [List.cons_append, collapseBlanks_cons_of_not_blank here, ih later]
    rfl

/-- A blank is collapsed with all blanks that follow it. -/
theorem collapseBlanks_cons_blank (blank : isBlank c = true) :
    collapseBlanks (c :: text) = ' ' :: trimLeft (collapseBlanks text) := by
  induction text generalizing c with
  | nil => simp [collapseBlanks, blank, trimLeft]
  | cons d rest ih =>
    by_cases blank' : isBlank d = true
    · have more : collapseBlanks (c :: d :: rest) = collapseBlanks (d :: rest) := by
        simp [collapseBlanks, blank, blank']
      rw [more, ih blank', trimLeft_cons_blank rfl, trimLeft_trimLeft]
    · have single : collapseBlanks (c :: d :: rest) = ' ' :: collapseBlanks (d :: rest) := by
        simp [collapseBlanks, blank, blank']
      rw [single, collapseBlanks_cons_of_not_blank (by simpa using blank'),
        trimLeft_eq_self_iff.mpr (by simpa using blank')]

theorem joinWith_words_ne_nil (some : words text ≠ []) : joinWith [' '] (words text) ≠ [] := by
  obtain ⟨word, rest, found⟩ := List.exists_cons_of_ne_nil some
  have full : word ≠ [] := (areWords_words text word (found ▸ List.mem_cons_self)).1
  rw [found]
  cases rest with
  | nil => exact full
  | cons next more => simp [joinWith, full]

/-- A collapsed text without the blanks at its ends is its words with single spaces. -/
theorem trim_collapseBlanks (text : List Char) :
    trim (collapseBlanks text) = joinWith [' '] (words text) := by
  -- `piece` is the word that is being read
  suffices read : ∀ piece : List Char, (∀ c ∈ piece, isBlank c = false) →
      trim (piece ++ collapseBlanks text) = joinWith [' '] (words (piece ++ text)) from
    read [] (by simp)
  induction text with
  | nil =>
    intro piece free
    rw [collapseBlanks, List.append_nil, trim_of_blankless free]
    by_cases empty : piece = []
    · subst empty
      rfl
    · rw [words_of_blankless free empty]
      rfl
  | cons c rest ih =>
    intro piece free
    by_cases blank : isBlank c = true
    · have later : trimRight (trimLeft (collapseBlanks rest)) = joinWith [' '] (words rest) :=
        ih [] (by simp)
      rw [collapseBlanks_cons_blank blank, words_append_blank blank]
      by_cases empty : piece = []
      · subst empty
        rw [List.nil_append, trim, trimLeft_cons_blank rfl, trimLeft_trimLeft, later]
        rfl
      · have opens : trimLeft (piece ++ ' ' :: trimLeft (collapseBlanks rest)) =
            piece ++ [' '] ++ trimLeft (collapseBlanks rest) := by
          obtain ⟨d, more, rfl⟩ := List.exists_cons_of_ne_nil empty
          simpa using trimLeft_eq_self_iff.mpr (by simpa using free d List.mem_cons_self)
        rw [words_of_blankless free empty, trim, opens, trimRight_append, later]
        by_cases none : words rest = []
        · have closed : trimRight (piece ++ [' ']) = piece := by
            rw [trimRight_append, if_pos (by decide)]
            exact trimRight_eq_self_iff.mpr fun c last => free c (List.mem_of_mem_getLast? last)
          rw [none, if_pos (show joinWith [' '] [] = [] from rfl), closed]
          rfl
        · rw [List.singleton_append, joinWith_cons _ _ _ none, if_neg (joinWith_words_ne_nil none)]
    · have longer := ih (piece ++ [c])
        (by simpa [or_imp, forall_and] using ⟨free, Bool.not_eq_true _ ▸ blank⟩)
      simpa [collapseBlanks, blank] using longer

/-! ## Lower case -/

private theorem exists_range_of_contains {ranges : Ranges} {code : Nat}
    (inside : ranges.contains code = true) :
    ∃ range ∈ ranges, range.1 ≤ code ∧ code ≤ range.2 := by
  induction ranges with
  | nil => cases inside
  | cons range rest ih =>
    unfold Ranges.contains at inside
    split at inside
    · cases inside
    · split at inside
      · exact ⟨range, List.mem_cons_self, by omega, by omega⟩
      · obtain ⟨found, member, bounds⟩ := ih inside
        exact ⟨found, List.mem_cons_of_mem _ member, bounds⟩

private theorem caseless (blank : isBlank c = true) :
    isCased c = false ∧ isCaseIgnorable c = false ∧ lowerChar c = [c] ∧ c ≠ 'Σ' := by
  have codes : ∀ range ∈ blankRanges, ∀ code ∈ List.range' range.1 (range.2 + 1 - range.1),
      casedRanges.contains code = false ∧ caseIgnorableRanges.contains code = false ∧
        CaseRun.image? lowerRuns code = none ∧ code ≠ 0x130 ∧ code ≠ 'Σ'.toNat := by
    decide +kernel
  obtain ⟨range, member, low, high⟩ := exists_range_of_contains blank
  obtain ⟨uncased, counted, kept, notDotted, notSigma⟩ := codes range member c.toNat
    (List.mem_range'_1.mpr ⟨low, by omega⟩)
  refine ⟨uncased, counted, ?_, ?_⟩
  · rw [lowerChar, if_neg notDotted, kept]
    rfl
  · rintro rfl
    exact notSigma rfl

private theorem startsCased_append (blank : isBlank c = true) :
    startsCased (first ++ c :: second) = startsCased first := by
  -- what stands behind a blank does not matter for the case in front of it
  obtain ⟨uncased, counted, -, -⟩ := caseless blank
  unfold startsCased
  rw [List.dropWhile_append]
  cases rest : first.dropWhile isCaseIgnorable with
  | nil =>
    rw [List.isEmpty_nil, if_pos rfl, List.dropWhile_cons_of_neg (by simp [counted])]
    exact uncased
  | cons d more => rfl

private theorem lowerFrom_behind (blank : isBlank c = true) (before behind : List Char) :
    lowerFrom (before ++ c :: behind) text = lowerFrom before text := by
  induction text generalizing before with
  | nil => rfl
  | cons d rest ih =>
    rw [lowerFrom, lowerFrom, startsCased_append blank, ← List.cons_append, ih]

/-- Lower-casing works between the blanks. -/
theorem lower_append_blank (blank : isBlank c = true) :
    lower (first ++ c :: second) = lower first ++ c :: lower second := by
  suffices read : ∀ before, lowerFrom before (first ++ c :: second) =
      lowerFrom before first ++ c :: lower second from read []
  obtain ⟨-, -, kept, notSigma⟩ := caseless blank
  induction first with
  | nil =>
    intro before
    have forgotten := @lowerFrom_behind second c blank [] before
    rw [List.nil_append] at forgotten
    simp only [List.nil_append, lowerFrom, if_neg notSigma, kept, forgotten, List.singleton_append,
      lower]
  | cons d rest ih =>
    intro before
    rw [List.cons_append, lowerFrom, lowerFrom, startsCased_append blank, ih, List.append_assoc]

/-- The text in lower case, with spaces for all that is neither a word character nor a blank. -/
def onlyWords (text : List Char) : List Char :=
  (lower text).map fun c => if isWord c || isBlank c then c else ' '

theorem onlyWords_append_blank (blank : isBlank c = true) :
    onlyWords (first ++ c :: second) = onlyWords first ++ c :: onlyWords second := by
  simp [onlyWords, lower_append_blank blank, blank]

end CodeSearch.Text
