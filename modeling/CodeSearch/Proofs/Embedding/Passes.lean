import Mathlib.Data.List.Infix
import CodeSearch.Proofs.Embedding.Lexemes

/-! # The passes over a text

The tokens of a text come from three passes. The first two work between the blanks. The third reads
comments as far as they go, and a line comment goes on to the end of its line: to the end of the
whole text once the line breaks have been turned into spaces.
-/

namespace CodeSearch

namespace Token

open Text

variable {text first second line part : List Char} {c : Char}

/-- The tokens of the words and the identifiers. -/
def plainTokens (text : List Char) : List (List Char) :=
  (lowerWords text ++ (identifiersFrom [] text).flatMap identifierParts).filter
    fun token => decide (1 < token.length)

/-- The words of comments are long enough to be tokens. -/
theorem tokens_eq (text : List Char) : tokens text = plainTokens text ++ commentWords text := by
  have long : ∀ word ∈ commentWords text, decide (1 < word.length) = true := by
    intro word member
    obtain ⟨comment, -, found⟩ := List.mem_flatMap.mp member
    have size := of_decide_eq_true (List.mem_filter.mp found).2
    exact decide_eq_true (by omega)
  rw [tokens, List.filter_append, List.filter_eq_self.mpr long]
  rfl

/-! ## Marks -/

/-- What holds no blank does not reach over one. -/
theorem prefix_of_prefix_append_blank (solid : ∀ d ∈ part, isBlank d = false)
    (blank : isBlank c = true) (found : part <+: first ++ c :: second) : part <+: first := by
  rcases List.prefix_or_prefix_of_prefix found (List.prefix_append first (c :: second)) with
    inside | ⟨rest, rfl⟩
  · exact inside
  · rw [List.prefix_append_right_inj] at found
    cases rest with
    | nil => simp
    | cons d more =>
      obtain ⟨rfl, -⟩ := List.cons_prefix_cons.mp found
      rw [solid d (by simp)] at blank
      cases blank

theorem infix_append_blank (solid : ∀ d ∈ part, isBlank d = false) (blank : isBlank c = true)
    (found : part <:+: first ++ c :: second) : part <:+: first ∨ part <:+: second := by
  induction first with
  | nil =>
    rcases List.infix_cons_iff.mp found with front | later
    · have none : part = [] :=
        List.prefix_nil.mp (@prefix_of_prefix_append_blank [] _ _ _ solid blank front)
      exact .inl (by simp [none])
    · exact .inr later
  | cons d rest ih =>
    rcases List.infix_cons_iff.mp found with front | later
    · exact .inl (prefix_of_prefix_append_blank solid blank front).isInfix
    · exact (ih later).imp_left fun inside => inside.trans (List.suffix_cons d rest).isInfix

/-- What opens a comment. -/
def openers : List (List Char) := [['/', '/'], ['/', '*']]

/-- What opens or closes a comment. -/
def marks : List (List Char) := ['*', '/'] :: openers

/-- No comment opens in the text. -/
def HasNoComment (text : List Char) : Prop := ∀ opener ∈ openers, ¬ opener <:+: text

def IsUnmarked (text : List Char) : Prop := ∀ mark ∈ marks, ¬ mark <:+: text

instance (text : List Char) : Decidable (HasNoComment text) :=
  List.decidableBAll (fun opener => ¬ opener <:+: text) openers

instance (text : List Char) : Decidable (IsUnmarked text) :=
  List.decidableBAll (fun mark => ¬ mark <:+: text) marks

theorem isBlank_of_mem_mark {mark : List Char} (member : mark ∈ marks) :
    ∀ c ∈ mark, isBlank c = false := by
  have solid : marks.all (fun mark => mark.all fun c => !isBlank c) = true := by decide
  simpa using List.all_eq_true.mp (List.all_eq_true.mp solid mark member)

theorem IsUnmarked.hasNoComment (unmarked : IsUnmarked text) : HasNoComment text :=
  fun opener member => unmarked opener (List.mem_cons_of_mem _ member)

theorem IsUnmarked.of_part (unmarked : IsUnmarked text) (inside : part <:+: text) :
    IsUnmarked part :=
  fun mark member found => unmarked mark member (found.trans inside)

/-- No comment opens over a blank. -/
theorem HasNoComment.append_blank (free : HasNoComment first) (free' : HasNoComment second)
    (blank : isBlank c = true) : HasNoComment (first ++ c :: second) := by
  intro opener member found
  have solid := isBlank_of_mem_mark (List.mem_cons_of_mem ['*', '/'] member)
  rcases infix_append_blank solid blank found with before | behind
  · exact free opener member before
  · exact free' opener member behind

theorem HasNoComment.tail (free : HasNoComment (c :: text)) : HasNoComment text :=
  fun opener member found => free opener member (found.trans (List.suffix_cons c text).isInfix)

/-! ## Comments -/

theorem commentLength?_eq_none (free : HasNoComment ('/' :: text)) :
    commentLength? text = none := by
  have opens (mark : Char) (rest : List Char) : ['/', mark] <:+: '/' :: mark :: rest :=
    (List.prefix_append ['/', mark] rest).isInfix
  unfold commentLength?
  split
  · next rest => exact absurd (opens '/' rest) (free _ (by decide))
  · next rest => exact absurd (opens '*' rest) (free _ (by decide))
  · rfl

theorem commentsFrom_zero_cons (c : Char) (rest : List Char) : commentsFrom 0 (c :: rest) =
    if c = '/' then
      match commentLength? rest with
      | some length => (c :: rest).take length :: commentsFrom (length - 1) rest
      | none => commentsFrom 0 rest
    else commentsFrom 0 rest := rfl

theorem commentsFrom_of_hasNoComment (free : HasNoComment text) : commentsFrom 0 text = [] := by
  induction text with
  | nil => rfl
  | cons c rest ih =>
    rw [commentsFrom_zero_cons]
    split
    · next isSlash =>
      subst isSlash
      rw [commentLength?_eq_none free]
      exact ih free.tail
    · exact ih free.tail

theorem commentsFrom_eq_drop (skip : Nat) (text : List Char) :
    commentsFrom skip text = commentsFrom 0 (text.drop skip) := by
  induction text generalizing skip with
  | nil => cases skip <;> rfl
  | cons c rest ih =>
    cases skip with
    | zero => rfl
    | succ skip => exact ih skip

/-- A line comment goes on to the end of its line. -/
theorem commentsFrom_line (oneLine : '\n' ∉ line) (ends : ∀ c ∈ text.head?, c = '\n') :
    commentsFrom 0 ('/' :: '/' :: (line ++ text)) =
      ('/' :: '/' :: line) :: commentsFrom 0 text := by
  have whole : (line ++ text).takeWhile (· != '\n') = line := by
    rw [List.takeWhile_append_of_pos fun c member => by
      simpa using fun same : c = '\n' => oneLine (same ▸ member)]
    cases text with
    | nil => simp
    | cons c rest => simp [ends c rfl]
  rw [commentsFrom_zero_cons, if_pos rfl]
  simp only [commentLength?, whole]
  rw [commentsFrom_eq_drop, Nat.add_comm 2]
  simp

theorem commentWords_line (oneLine : '\n' ∉ line) (ends : ∀ c ∈ text.head?, c = '\n')
    (free : HasNoComment text) : commentWords ('/' :: '/' :: (line ++ text)) =
      (words (dropMarks line)).filter fun word => decide (2 < word.length) := by
  simp [commentWords, commentsFrom_line oneLine ends, commentsFrom_of_hasNoComment free, dropMarks]

/-! ## Marks taken out -/

theorem dropMarks_cons (apart : ∀ mark ∈ marks, ¬ mark <+: c :: text) :
    dropMarks (c :: text) = c :: dropMarks text := by
  rw [dropMarks]
  · rintro rest rfl rfl
    exact apart ['/', '/'] (by decide) (List.prefix_append ['/', '/'] rest)
  · rintro rest rfl rfl
    exact apart ['/', '*'] (by decide) (List.prefix_append ['/', '*'] rest)
  · rintro rest rfl rfl
    exact apart ['*', '/'] (by decide) (List.prefix_append ['*', '/'] rest)

theorem dropMarks_of_isUnmarked (unmarked : IsUnmarked text) : dropMarks text = text := by
  induction text with
  | nil => rfl
  | cons c rest ih =>
    rw [dropMarks_cons fun mark member found => unmarked mark member found.isInfix,
      ih (unmarked.of_part (List.suffix_cons c rest).isInfix)]

theorem dropMarks_append_blank (blank : isBlank c = true) :
    dropMarks (first ++ c :: second) = dropMarks first ++ c :: dropMarks second := by
  have within {text mark : List Char} (member : mark ∈ marks)
      (found : mark <+: text ++ c :: second) : mark <+: text :=
    prefix_of_prefix_append_blank (isBlank_of_mem_mark member) blank found
  fun_induction dropMarks first with
  | case1 rest ih => simpa [dropMarks] using ih
  | case2 rest ih => simpa [dropMarks] using ih
  | case3 rest ih => simpa [dropMarks] using ih
  | case4 d rest notLine notBlock notEnd ih =>
    have apart : ∀ mark ∈ marks, ¬ mark <+: d :: rest := by
      rintro mark member ⟨tail, shape⟩
      simp only [marks, openers, List.mem_cons, List.not_mem_nil, or_false] at member
      rcases member with rfl | rfl | rfl
      · exact notEnd tail (List.cons.inj shape).1.symm (List.cons.inj shape).2.symm
      · exact notLine tail (List.cons.inj shape).1.symm (List.cons.inj shape).2.symm
      · exact notBlock tail (List.cons.inj shape).1.symm (List.cons.inj shape).2.symm
    have apart' : ∀ mark ∈ marks, ¬ mark <+: d :: (rest ++ c :: second) :=
      fun mark member found => apart mark member (within member found)
    rw [List.cons_append, dropMarks_cons apart', ih, List.cons_append]
  | case5 =>
    have apart : ∀ mark ∈ marks, ¬ mark <+: c :: second := by
      intro mark member found
      have none : mark = [] := List.prefix_nil.mp (within member found)
      exact absurd (none ▸ member) (by decide)
    rw [List.nil_append, dropMarks_cons apart]
    rfl

/-- The marks are taken out word by word. -/
theorem words_dropMarks (text : List Char) :
    words (dropMarks text) = (words text).flatMap fun word => words (dropMarks word) :=
  words_of_splits rfl (fun _ _ _ => dropMarks_append_blank) text

/-! ## Comments in the normal form -/

theorem lexemes_inside (text : List Char) : ∀ lexeme ∈ lexemes text, lexeme <:+: text := by
  induction text using lexeme_induction with
  | nil => exact fun _ member => absurd member List.not_mem_nil
  | blank c rest blank ih =>
    intro lexeme member
    rw [lexemes_cons_blank blank] at member
    exact (ih lexeme member).trans (List.suffix_cons c rest).isInfix
  | operator c rest operator ih =>
    intro lexeme member
    rw [lexemes_cons_operator operator] at member
    rcases List.mem_cons.mp member with rfl | later
    · exact (List.prefix_append [c] rest).isInfix
    · exact (ih lexeme later).trans (List.suffix_cons c rest).isInfix
  | word word rest some plain ends ih =>
    intro lexeme member
    rw [lexemes_word_append some plain ends] at member
    rcases List.mem_cons.mp member with rfl | later
    · exact (List.prefix_append lexeme rest).isInfix
    · exact (ih lexeme later).trans (List.suffix_append word rest).isInfix

/-- The longer words of a text, operators set apart and the marks of comments taken out. -/
def bareWords (text : List Char) : List (List Char) :=
  (words (dropMarks (text.flatMap spread))).filter fun word => decide (2 < word.length)

theorem bareWords_append_blank (blank : isBlank c = true) :
    bareWords (first ++ c :: second) = bareWords first ++ bareWords second := by
  rw [bareWords, spread_append_blank blank, dropMarks_append_blank blank, words_append_blank blank,
    List.filter_append]
  rfl

/-- Without marks, the words of a text are its lexemes. -/
theorem bareWords_of_isUnmarked (unmarked : IsUnmarked text) :
    bareWords text = (lexemes text).filter fun word => decide (2 < word.length) := by
  have kept : ∀ lexeme ∈ lexemes text, words (dropMarks lexeme) = [lexeme] := by
    intro lexeme member
    obtain ⟨some, blankless⟩ := areWords_lexemes text lexeme member
    rw [dropMarks_of_isUnmarked (unmarked.of_part (lexemes_inside text lexeme member)),
      words_of_blankless blankless some]
  have unchanged : words (dropMarks (text.flatMap spread)) = lexemes text := by
    rw [words_dropMarks, ← lexemes, List.flatMap_congr kept]
    exact List.flatMap_singleton' (lexemes text)
  rw [bareWords, unchanged]

/-- A line comment at the beginning of a text takes in all of its normal form. -/
theorem commentWords_normalizeChars (text : List Char) :
    commentWords (normalizeChars ('/' :: '/' :: text)) = bareWords text := by
  have plain : ['/', '/'].all isPlain = true := by decide
  obtain ⟨rest, written⟩ :=
    exists_normalizeChars_plain_append (by simp) (List.all_eq_true.mp plain) text
  have oneLine : '\n' ∉ rest := by
    intro member
    have inside : '\n' ∈ normalizeChars (['/', '/'] ++ text) :=
      written ▸ List.mem_append_right ['/', '/'] member
    exact absurd (eq_space_of_mem_normalizeChars inside rfl) (by decide)
  have whole : words (dropMarks rest) = words (dropMarks (text.flatMap spread)) :=
    calc words (dropMarks rest)
      _ = words (dropMarks (normalizeChars (['/', '/'] ++ text))) := by rw [written]; rfl
      _ = words (dropMarks ((['/', '/'] ++ text).flatMap spread)) := by
        rw [words_dropMarks, words_normalizeChars, lexemes, ← words_dropMarks]
      _ = words (dropMarks (text.flatMap spread)) := rfl
  calc commentWords (normalizeChars ('/' :: '/' :: text))
    _ = commentWords ('/' :: '/' :: (rest ++ [])) := by
      rw [List.append_nil]
      exact congrArg _ written
    _ = (words (dropMarks rest)).filter fun word => decide (2 < word.length) :=
      commentWords_line oneLine (by simp) (by decide)
    _ = bareWords text := by rw [whole, bareWords]

end Token

/-- In the normal form, the pass over comments goes on behind a line comment: it adds the words of
the comment and then those of the code on the lines below, and so it adds words of the comment only
if and only if all lexemes of the code are short. The pass itself ends the comment with its line,
which is lost with the line break. -/
theorem comment_takes_in_lines_below (comment code : String) (oneLine : '\n' ∉ comment.toList)
    (unmarked : Token.IsUnmarked code.toList) :
    let text := "//" ++ comment ++ "\n" ++ code
    let added := Token.commentWords (normalizeCode text).toList
    let own := Token.bareWords comment.toList
    tokenize (normalizeCode text) =
        (Token.plainTokens (normalizeCode text).toList ++ added).map String.ofList ∧
      added = own ++ (Token.lexemes code.toList).filter (fun lexeme => decide (2 < lexeme.length)) ∧
      (added = own ↔ ∀ lexeme ∈ Token.lexemes code.toList, lexeme.length ≤ 2) ∧
      Token.commentWords text.toList =
        (Text.words (Token.dropMarks comment.toList)).filter fun word => decide (2 < word.length) := by
  intro text added own
  have shape : text.toList = '/' :: '/' :: (comment.toList ++ '\n' :: code.toList) := by
    simp [text]
  have parts : added = own ++
      (Token.lexemes code.toList).filter fun lexeme => decide (2 < lexeme.length) := by
    simp only [added, own]
    rw [normalizeCode, String.toList_ofList, shape, Token.commentWords_normalizeChars,
      Token.bareWords_append_blank rfl, Token.bareWords_of_isUnmarked unmarked]
  refine ⟨?_, parts, ?_, ?_⟩
  · rw [tokenize, Token.tokens_eq]
  · rw [parts, List.append_right_eq_self, List.filter_eq_nil_iff]
    simp
  · rw [shape]
    have free : Token.HasNoComment ('\n' :: code.toList) :=
      @Token.HasNoComment.append_blank [] _ '\n' (by decide) unmarked.hasNoComment rfl
    exact Token.commentWords_line oneLine (by simp) free

/-- The code below a comment of one word adds two words to it. -/
theorem comment_over_two_calls :
    '\n' ∉ " Runs".toList ∧ Token.IsUnmarked "load(it);\nf(save);".toList ∧
      Token.commentWords (normalizeCode "// Runs\nload(it);\nf(save);").toList =
        ["Runs".toList, "load".toList, "save".toList] := by
  have oneLine : '\n' ∉ " Runs".toList := by decide
  have unmarked : Token.IsUnmarked "load(it);\nf(save);".toList := by decide +kernel
  obtain ⟨-, added, -, -⟩ :=
    comment_takes_in_lines_below " Runs" "load(it);\nf(save);" oneLine unmarked
  exact ⟨oneLine, unmarked, added.trans (by decide +kernel)⟩

/-- Words of the code below are counted as words of the comment. -/
theorem code_below_is_counted_as_comment :
    ¬ ∀ comment code : String, '\n' ∉ comment.toList → Token.IsUnmarked code.toList →
      ∀ word ∈ Token.commentWords (normalizeCode ("//" ++ comment ++ "\n" ++ code)).toList,
        word ∈ Token.bareWords comment.toList := by
  intro within
  have counted : "compute".toList ∈
      Token.commentWords (normalizeCode ("//" ++ " note" ++ "\n" ++ "compute total")).toList := by
    decide +kernel
  have inComment := within " note" "compute total" (by decide) (by decide +kernel) _ counted
  exact absurd inComment (by decide +kernel)

end CodeSearch
