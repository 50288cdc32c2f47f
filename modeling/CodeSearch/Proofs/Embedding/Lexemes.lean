import CodeSearch.Embedding.Token
import CodeSearch.Proofs.Text.Words

/-! # Lexemes and their layout

The lexemes of a code text are its operators and what its words hold between them. The normal form
is laid out from the lexemes alone: one space stands between two of them, and two between two
operators, since each brings its own. The blanks are all that it loses.
-/

namespace CodeSearch.Token

open Text

variable {text first second word lexeme : List Char}
  {list rest : List (List Char)} {c : Char} {behind : Bool}

/-- An operator with room on both sides. -/
def spread (c : Char) : List Char := if isOperator c then [' ', c, ' '] else [c]

/-- The operators of a text and the words between them. -/
def lexemes (text : List Char) : List (List Char) := words (text.flatMap spread)

/-- Whether a lexeme is an operator. -/
def isMark (lexeme : List Char) : Bool := lexeme.any isOperator

/-- The space that an operator brings when it comes first. -/
def margin (list : List (List Char)) : List Char :=
  if list.head?.any isMark then [' '] else []

/-- The lexemes with the spaces between them. -/
def layOut : List (List Char) → List Char
  | [] => []
  | [lexeme] => lexeme
  | lexeme :: next :: rest =>
    lexeme ++ ' ' ::
      ((if isMark lexeme then margin (next :: rest) else []) ++ layOut (next :: rest))

/-- Neither a blank nor an operator. -/
def isPlain (c : Char) : Bool := !isBlank c && !isOperator c

theorem isBlank_of_isOperator (operator : isOperator c = true) : isBlank c = false := by
  simp only [isOperator, Bool.or_eq_true, beq_iff_eq] at operator
  rcases operator with (((((rfl | rfl) | rfl) | rfl) | rfl) | rfl) | rfl <;> rfl

theorem isOperator_of_isBlank (blank : isBlank c = true) : isOperator c = false := by
  by_contra operator
  rw [isBlank_of_isOperator (by simpa using operator)] at blank
  cases blank

theorem isPlain_iff : isPlain c = true ↔ isBlank c = false ∧ isOperator c = false := by
  simp [isPlain]

theorem isBlank_of_isPlain (plain : ∀ c ∈ word, isPlain c = true) : ∀ c ∈ word, isBlank c = false :=
  fun c member => (isPlain_iff.mp (plain c member)).1

/-! ## Lexemes -/

theorem spread_append_blank (blank : isBlank c = true) :
    (first ++ c :: second).flatMap spread = first.flatMap spread ++ c :: second.flatMap spread := by
  simp [spread, isOperator_of_isBlank blank]

theorem lexemes_append_blank (blank : isBlank c = true) :
    lexemes (first ++ c :: second) = lexemes first ++ lexemes second := by
  rw [lexemes, spread_append_blank blank, words_append_blank blank]
  rfl

/-- The lexemes of a text are those of its words. -/
theorem lexemes_eq_flatMap_words (text : List Char) : lexemes text = (words text).flatMap lexemes :=
  words_of_splits rfl (fun _ _ _ => spread_append_blank) text

theorem lexemes_append_operator (operator : isOperator c = true) :
    lexemes (first ++ c :: second) = lexemes first ++ [c] :: lexemes second := by
  have single : words [c] = [[c]] :=
    words_of_blankless (by simpa using isBlank_of_isOperator operator) (by simp)
  have parted : words (c :: ' ' :: second.flatMap spread) = [c] :: lexemes second := by
    have cut := @words_append_blank [c] (second.flatMap spread) ' ' rfl
    rwa [single] at cut
  rw [lexemes, List.flatMap_append, List.flatMap_cons, spread, if_pos operator]
  exact (words_append_blank rfl).trans (congrArg _ parted)

theorem lexemes_cons_blank (blank : isBlank c = true) : lexemes (c :: text) = lexemes text :=
  @lexemes_append_blank [] text c blank

theorem lexemes_cons_operator (operator : isOperator c = true) :
    lexemes (c :: text) = [c] :: lexemes text :=
  @lexemes_append_operator [] text c operator

theorem lexemes_of_plain (some : word ≠ []) (plain : ∀ c ∈ word, isPlain c = true) :
    lexemes word = [word] := by
  have unspread : word.flatMap spread = word := by
    clear some
    induction word with
    | nil => rfl
    | cons c rest ih =>
      obtain ⟨here, later⟩ := List.forall_mem_cons.mp plain
      simp [spread, (isPlain_iff.mp here).2, ih later]
  rw [lexemes, unspread]
  exact words_of_blankless (isBlank_of_isPlain plain) some

/-- A word ends in front of a blank or an operator. -/
theorem lexemes_word_append (some : word ≠ []) (plain : ∀ c ∈ word, isPlain c = true)
    (ends : ∀ c ∈ text.head?, isPlain c = false) :
    lexemes (word ++ text) = word :: lexemes text := by
  cases text with
  | nil => rw [List.append_nil, lexemes_of_plain some plain]; rfl
  | cons c rest =>
    by_cases blank : isBlank c = true
    · rw [lexemes_append_blank blank, lexemes_cons_blank blank, lexemes_of_plain some plain]
      rfl
    · have operator : isOperator c = true := by simpa [isPlain, blank] using ends c rfl
      rw [lexemes_append_operator operator, lexemes_cons_operator operator,
        lexemes_of_plain some plain]
      rfl

/-- What holds of all texts because it is kept by a blank, an operator or a whole word in front. -/
theorem lexeme_induction {motive : List Char → Prop} (nil : motive [])
    (blank : ∀ c rest, isBlank c = true → motive rest → motive (c :: rest))
    (operator : ∀ c rest, isOperator c = true → motive rest → motive (c :: rest))
    (word : ∀ word rest, word ≠ [] → (∀ c ∈ word, isPlain c = true) →
      (∀ c ∈ rest.head?, isPlain c = false) → motive rest → motive (word ++ rest))
    (text : List Char) : motive text := by
  have placed : ∀ piece rest : List Char, (∀ c ∈ piece, isPlain c = true) →
      (∀ c ∈ rest.head?, isPlain c = false) → motive rest → motive (piece ++ rest) := by
    intro piece rest plain ends kept
    by_cases empty : piece = []
    · rwa [empty, List.nil_append]
    · exact word piece rest empty plain ends kept
  -- `piece` is the word that is being read
  suffices read : ∀ piece : List Char, (∀ c ∈ piece, isPlain c = true) → motive (piece ++ text) from
    read [] (by simp)
  induction text with
  | nil => exact fun piece plain => placed piece [] plain (by simp) nil
  | cons c rest ih =>
    intro piece plain
    have later : motive rest := ih [] (by simp)
    by_cases plain' : isPlain c = true
    · have longer := ih (piece ++ [c]) (by simpa [or_imp, forall_and] using ⟨plain, plain'⟩)
      simpa using longer
    · refine placed piece (c :: rest) plain (by simpa using plain') ?_
      by_cases blank' : isBlank c = true
      · exact blank c rest blank' later
      · exact operator c rest (by simpa [isPlain, blank'] using plain') later

theorem isMark_of_plain (plain : ∀ c ∈ word, isPlain c = true) : isMark word = false := by
  rw [isMark, List.any_eq_false]
  exact fun c member => by simp [(isPlain_iff.mp (plain c member)).2]

theorem areWords_lexemes (text : List Char) : AreWords (lexemes text) := areWords_words _

/-! ## Layout -/

theorem layOut_cons : layOut (lexeme :: rest) = lexeme ++ if rest = [] then [] else
    ' ' :: ((if isMark lexeme then margin rest else []) ++ layOut rest) := by
  cases rest with
  | nil => simp [layOut]
  | cons next more => simp [layOut]

/-- The lexemes can be read back from their layout. -/
theorem words_layOut (areWords : AreWords list) : words (layOut list) = list := by
  induction list with
  | nil => rfl
  | cons lexeme rest ih =>
    obtain ⟨⟨some, blankless⟩, others⟩ := List.forall_mem_cons.mp areWords
    cases rest with
    | nil => exact words_of_blankless blankless some
    | cons next more =>
      have gap : AreBlanks (if isMark lexeme then margin (next :: more) else []) := by
        unfold margin
        split_ifs <;> decide
      rw [layOut, words_append_blank rfl, words_of_blankless blankless some,
        words_blanks_append gap, ih others]
      rfl

theorem layOut_ne_nil (areWords : AreWords list) (some : list ≠ []) : layOut list ≠ [] := by
  intro none
  have read := words_layOut areWords
  rw [none, words_nil] at read
  exact some read.symm

/-- A layout starts and ends with its lexemes. -/
theorem trim_layOut (areWords : AreWords list) : trim (layOut list) = layOut list := by
  have right : trimRight (layOut list) = layOut list := by
    induction list with
    | nil => rfl
    | cons lexeme rest ih =>
      obtain ⟨⟨-, blankless⟩, others⟩ := List.forall_mem_cons.mp areWords
      cases rest with
      | nil =>
        exact trimRight_eq_self_iff.mpr fun c last => blankless c (List.mem_of_mem_getLast? last)
      | cons next more =>
        rw [layOut, List.append_cons, ← List.append_assoc, trimRight_append, ih others,
          if_neg (layOut_ne_nil others (List.cons_ne_nil next more))]
  have left : trimLeft (layOut list) = layOut list := by
    refine trimLeft_eq_self_iff.mpr fun c opens => ?_
    cases list with
    | nil => cases opens
    | cons lexeme rest =>
      obtain ⟨some, blankless⟩ := areWords lexeme List.mem_cons_self
      rw [layOut_cons, List.head?_append_of_ne_nil _ some] at opens
      exact blankless c (List.mem_of_mem_head? opens)
  rw [trim, left, right]

/-! ## The normal form -/

theorem padOperators_cons_operator (operator : isOperator c = true) :
    padOperators behind (c :: text) = ' ' :: c :: ' ' :: padOperators true text := by
  have other : c ≠ ' ' := by rintro rfl; cases operator
  rw [padOperators, if_neg other, if_pos operator]

theorem padOperators_plain_append (plain : ∀ c ∈ word, isPlain c = true) :
    padOperators false (word ++ text) = word ++ padOperators false text := by
  induction word with
  | nil => rfl
  | cons c rest ih =>
    obtain ⟨here, later⟩ := List.forall_mem_cons.mp plain
    have other : c ≠ ' ' := by rintro rfl; cases here
    rw [List.cons_append, padOperators, if_neg other, if_neg (by simp [(isPlain_iff.mp here).2]),
      ih later]
    rfl

/-- Behind an operator, the text goes on as if no space stood there. -/
theorem padOperators_true_collapseBlanks (text : List Char) :
    padOperators true (collapseBlanks text) =
      padOperators false (trimLeft (collapseBlanks text)) := by
  cases text with
  | nil => rfl
  | cons c rest =>
    by_cases blank : isBlank c = true
    · rw [collapseBlanks_cons_blank blank, padOperators, if_pos rfl, trimLeft_cons_blank rfl,
        trimLeft_trimLeft]
      rfl
    · have other : c ≠ ' ' := by rintro rfl; exact blank rfl
      rw [collapseBlanks_cons_of_not_blank (by simpa using blank),
        trimLeft_eq_self_iff.mpr (by simpa using blank), padOperators, padOperators, if_neg other,
        if_neg other]

theorem trimLeft_collapseBlanks_opens (text : List Char) :
    (trimLeft (collapseBlanks text)).head?.any isOperator = (lexemes text).head?.any isMark := by
  induction text using lexeme_induction with
  | nil => rfl
  | blank c rest blank ih =>
    rw [collapseBlanks_cons_blank blank, trimLeft_cons_blank rfl, trimLeft_trimLeft, ih,
      lexemes_cons_blank blank]
  | operator c rest operator ih =>
    have solid := isBlank_of_isOperator operator
    rw [collapseBlanks_cons_of_not_blank solid, trimLeft_eq_self_iff.mpr (by simpa using solid),
      lexemes_cons_operator operator]
    simp [isMark]
  | word word rest some plain ends ih =>
    obtain ⟨c, more, rfl⟩ := List.exists_cons_of_ne_nil some
    have here := isPlain_iff.mp (plain c List.mem_cons_self)
    rw [collapseBlanks_blankless_append (isBlank_of_isPlain plain),
      trimLeft_eq_self_iff.mpr (by simpa using here.1), lexemes_word_append some plain ends]
    simp [here.2, isMark_of_plain plain]

private theorem trimRight_padOperators_behind (ends : ∀ c ∈ text.head?, isPlain c = false)
    (layout : trimRight (padOperators false (trimLeft (collapseBlanks text))) =
      margin (lexemes text) ++ layOut (lexemes text)) :
    trimRight (padOperators false (collapseBlanks text)) =
      if lexemes text = [] then [] else ' ' :: layOut (lexemes text) := by
  have opens := trimLeft_collapseBlanks_opens text
  cases text with
  | nil => rfl
  | cons c rest =>
    -- a blank is kept as a space unless an operator follows, which brings its own
    by_cases blank : isBlank c = true
    · rw [collapseBlanks_cons_blank blank, trimLeft_cons_blank rfl, trimLeft_trimLeft]
        at layout opens
      rw [collapseBlanks_cons_blank blank, padOperators, if_pos rfl, Bool.false_or, opens]
      by_cases mark : (lexemes (c :: rest)).head?.any isMark = true
      · have some : lexemes (c :: rest) ≠ [] := by intro none; rw [none] at mark; cases mark
        rw [if_pos mark, layout, margin, if_pos mark, if_neg some]
        rfl
      · rw [if_neg mark, ← List.singleton_append, trimRight_append, layout, margin, if_neg mark,
          List.nil_append]
        by_cases none : lexemes (c :: rest) = []
        · rw [none]
          rfl
        · rw [if_neg (layOut_ne_nil (areWords_lexemes _) none), if_neg none, List.singleton_append]
    · have operator : isOperator c = true := by simpa [isPlain, blank] using ends c rfl
      have solid : isBlank c = false := by simpa using blank
      rw [collapseBlanks_cons_of_not_blank solid, trimLeft_eq_self_iff.mpr (by simpa using solid)]
        at layout
      rw [collapseBlanks_cons_of_not_blank solid, layout, lexemes_cons_operator operator]
      simp [margin, isMark, operator]

private theorem trimRight_padOperators (text : List Char) :
    trimRight (padOperators false (trimLeft (collapseBlanks text))) =
      margin (lexemes text) ++ layOut (lexemes text) := by
  induction text using lexeme_induction with
  | nil => rfl
  | blank c rest blank ih =>
    rw [collapseBlanks_cons_blank blank, trimLeft_cons_blank rfl, trimLeft_trimLeft, ih,
      lexemes_cons_blank blank]
  | operator c rest operator ih =>
    have solid := isBlank_of_isOperator operator
    have mark : isMark [c] = true := by simp [isMark, operator]
    have alone : trimRight [' ', c, ' '] = [' ', c] := by
      have last : trimRight [' ', c] = [' ', c] := trimRight_eq_self_iff.mpr (by simpa using solid)
      have dropped := @trimRight_append [' ', c] [' ']
      rwa [if_pos (by decide), last] at dropped
    have written : ∀ tail, ' ' :: c :: ' ' :: tail = [' ', c, ' '] ++ tail := fun _ => rfl
    rw [collapseBlanks_cons_of_not_blank solid, trimLeft_eq_self_iff.mpr (by simpa using solid),
      lexemes_cons_operator operator, padOperators_cons_operator operator,
      padOperators_true_collapseBlanks, written, trimRight_append, ih, layOut_cons, if_pos mark,
      alone]
    by_cases none : lexemes rest = []
    · simp [none, margin, mark, layOut]
    · have some := layOut_ne_nil (areWords_lexemes rest) none
      simp [none, some, margin, mark]
  | word word rest some plain ends ih =>
    have solid := isBlank_of_isPlain plain
    rw [collapseBlanks_blankless_append solid, trimLeft_append_of_blankless some solid,
      padOperators_plain_append plain, trimRight_append_of_blankless solid,
      trimRight_padOperators_behind ends ih, lexemes_word_append some plain ends, layOut_cons]
    simp [margin, isMark_of_plain plain]

private theorem trim_padOperators_trimLeft (text : List Char) :
    trim (padOperators false (collapseBlanks text)) =
      trim (padOperators false (trimLeft (collapseBlanks text))) := by
  cases text with
  | nil => rfl
  | cons c rest =>
    by_cases blank : isBlank c = true
    · rw [collapseBlanks_cons_blank blank, trimLeft_cons_blank rfl, trimLeft_trimLeft, padOperators,
        if_pos rfl]
      split
      · rfl
      · rw [trim, trimLeft_cons_blank rfl, ← trim]
    · rw [collapseBlanks_cons_of_not_blank (by simpa using blank),
        trimLeft_eq_self_iff.mpr (by simpa using blank)]

/-- The normal form of a text is the layout of its lexemes. -/
theorem normalizeChars_eq_layOut (text : List Char) :
    normalizeChars text = layOut (lexemes text) := by
  have lead : AreBlanks (margin (lexemes text)) := by
    unfold margin
    split_ifs <;> decide
  have inside := @trim_append (layOut (lexemes text)) _ [] lead (by simp [AreBlanks])
  rw [List.append_nil] at inside
  rw [normalizeChars, trim_padOperators_trimLeft, ← trim_trimRight, trimRight_padOperators, inside,
    trim_layOut (areWords_lexemes text)]

theorem words_normalizeChars (text : List Char) : words (normalizeChars text) = lexemes text := by
  rw [normalizeChars_eq_layOut, words_layOut (areWords_lexemes text)]

/-- The only blank of a normal form is the space. -/
theorem eq_space_of_mem_normalizeChars (member : c ∈ normalizeChars text)
    (blank : isBlank c = true) : c = ' ' := by
  rw [normalizeChars_eq_layOut] at member
  have areWords := areWords_lexemes text
  generalize lexemes text = list at member areWords
  induction list with
  | nil => cases member
  | cons lexeme rest ih =>
    obtain ⟨⟨-, blankless⟩, others⟩ := List.forall_mem_cons.mp areWords
    rw [layOut_cons] at member
    rcases List.mem_append.mp member with inside | later
    · rw [blankless c inside] at blank
      cases blank
    · have spaces : ∀ d ∈ if isMark lexeme then margin rest else [], d = ' ' := by
        unfold margin
        split_ifs <;> simp
      split at later
      · cases later
      · rcases List.mem_cons.mp later with rfl | later
        · rfl
        · exact (List.mem_append.mp later).elim (spaces c) fun inRest => ih inRest others

/-- A word in front stays as it is. -/
theorem exists_normalizeChars_plain_append (some : word ≠ []) (plain : ∀ c ∈ word, isPlain c = true)
    (text : List Char) : ∃ rest, normalizeChars (word ++ text) = word ++ rest := by
  have solid := isBlank_of_isPlain plain
  exact ⟨_, by rw [normalizeChars, collapseBlanks_blankless_append solid,
    padOperators_plain_append plain, trim, trimLeft_append_of_blankless some solid,
    trimRight_append_of_blankless solid]⟩

end CodeSearch.Token
