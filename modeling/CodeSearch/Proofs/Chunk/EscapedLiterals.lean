import CodeSearch.Proofs.Chunk.LiveText

/-! # Literals with escapes

The scanner looks one character back to see whether a quote closes a literal. This agrees with
reading the body of a literal in pairs, a backslash with what follows it, as long as the body does
not end in a backslash. What the body says is then of no account.
-/

namespace CodeSearch.Boundary

/-- The body of a literal: ordinary characters, and backslashes each with a character behind it. -/
inductive IsBody (mark : Char) : List Char → Prop
  | nil : IsBody mark []
  | ordinary {c : Char} {body : List Char} (other : c ≠ mark) (plain : c ≠ '\\')
      (isBody : IsBody mark body) : IsBody mark (c :: body)
  | escape (c : Char) {body : List Char} (isBody : IsBody mark body) :
      IsBody mark ('\\' :: c :: body)

/-- The body of a literal that the scanner sees closed. -/
def IsSeenBody (mark : Char) (body : List Char) : Prop :=
  IsBody mark body ∧ body.getLast? ≠ some '\\'

/-- The marks of literals that have to be closed on their own line. -/
def IsLineMark (mark : Char) : Prop := mark = '"' ∨ mark = '\''

/-- A line, behind the character `before` and with `inside` around its start, and the line with the
bodies of some literals emptied. The bodies of all literals are as allowed. -/
inductive Emptied (lexis : Lexis) (Allowed : Char → List Char → Prop) :
    Option Char → Surrounding → List Char → List Char → Surrounding → Prop
  | nil {before : Option Char} {inside : Surrounding} :
      Emptied lexis Allowed before inside [] [] inside
  | live {before : Option Char} {inside after : Surrounding} {c : Char} {line line' : List Char}
      (reads : read lexis inside (before == some '\\') c line = .live)
      (rest : Emptied lexis Allowed (some c) inside line line' after) :
      Emptied lexis Allowed before inside (c :: line) (c :: line') after
  | hidden {before : Option Char} {inside next after : Surrounding} {c : Char}
      {skipped line line' : List Char}
      (reads : read lexis inside (before == some '\\') c (skipped ++ line) =
        .hidden skipped.length next)
      (other : ∀ mark, next = .quoted mark → ¬IsLineMark mark)
      (rest : Emptied lexis Allowed (c :: skipped).getLast? next line line' after) :
      Emptied lexis Allowed before inside (c :: skipped ++ line) (c :: skipped ++ line') after
  | comment {before : Option Char} {inside : Surrounding} {c : Char} {line : List Char}
      (reads : read lexis inside (before == some '\\') c line = .comment) :
      Emptied lexis Allowed before inside (c :: line) (c :: line) inside
  | literal {before : Option Char} {after : Surrounding} {mark : Char}
      {body body' line line' : List Char} (isMark : IsLineMark mark)
      (unescaped : before ≠ some '\\') (allowed : Allowed mark body)
      (emptied : body' = body ∨ body' = [])
      (rest : Emptied lexis Allowed (some mark) .code line line' after) :
      Emptied lexis Allowed before .code (mark :: body ++ mark :: line)
        (mark :: body' ++ mark :: line') after

/-- Lines, and the lines with the bodies of some literals emptied. -/
inductive EmptiedLines (lexis : Lexis) (Allowed : Char → List Char → Prop) :
    Surrounding → List (List Char) → List (List Char) → Prop
  | nil {inside : Surrounding} : EmptiedLines lexis Allowed inside [] []
  | cons {inside after : Surrounding} {line line' : List Char} {lines lines' : List (List Char)}
      (first : Emptied lexis Allowed none inside line line' after)
      (rest : EmptiedLines lexis Allowed (carriedOver lexis.family after) lines lines') :
      EmptiedLines lexis Allowed inside (line :: lines) (line' :: lines')

variable {lexis : Lexis}

private theorem getLast?_cons_or (c : Char) (text : List Char) (before : Option Char) :
    (c :: text).getLast?.or before = text.getLast?.or (some c) := by
  rw [List.getLast?_cons]
  cases text.getLast? <;> rfl

/-- A character that is live in all code. -/
def isOrdinary (c : Char) : Bool := !isQuote c && c != '/' && c != '#'

theorem read_of_isOrdinary {c : Char} (ordinary : isOrdinary c = true) (escaped : Bool)
    (rest : List Char) : read lexis .code escaped c rest = .live := by
  obtain ⟨⟨noQuote, noSlash⟩, noHash⟩ : (isQuote c = false ∧ c ≠ '/') ∧ c ≠ '#' := by
    simpa [isOrdinary] using ordinary
  have noSingle : c ≠ '\'' := by rintro rfl; cases noQuote
  have noLine : opensLineComment lexis.family c rest = false := by
    cases family : lexis.family <;> simp [opensLineComment, noSlash, noHash]
  simp [read, noSingle, noQuote, noLine, opensBlockComment, noSlash]

theorem Emptied.code {Allowed : Char → List Char → Prop} {before : Option Char}
    {after : Surrounding} {text line line' : List Char} (ordinary : text.all isOrdinary = true)
    (rest : Emptied lexis Allowed (text.getLast?.or before) .code line line' after) :
    Emptied lexis Allowed before .code (text ++ line) (text ++ line') after := by
  induction text generalizing before with
  | nil => exact rest
  | cons c text ih =>
    rw [List.all_cons, Bool.and_eq_true] at ordinary
    rw [getLast?_cons_or] at rest
    exact .live (read_of_isOrdinary ordinary.1 _ _) (ih ordinary.2 rest)

theorem Emptied.codeLine {Allowed : Char → List Char → Prop} {before : Option Char}
    {text : List Char} (ordinary : text.all isOrdinary = true) :
    Emptied lexis Allowed before .code text text .code := by
  rw [← List.append_nil text]
  exact .code ordinary .nil

/-! ## The scanner passes over literals -/

theorem liveRest_skip (lexis : Lexis) (before : Option Char) (inside : Surrounding)
    (skipped line : List Char) :
    liveRest lexis skipped.length before inside (skipped ++ line) =
      liveRest lexis 0 (skipped.getLast?.or before) inside line := by
  induction skipped generalizing before with
  | nil => rfl
  | cons c skipped ih => rw [getLast?_cons_or]; exact ih (some c)

/-- Behind the mark that opens it, a literal is passed over with the mark that closes it. -/
theorem liveRest_body {mark : Char} (isMark : IsLineMark mark) {body : List Char}
    (isBody : IsBody mark body) (before : Option Char)
    (seen : body.getLast?.or before ≠ some '\\') (line : List Char) :
    liveRest lexis 0 before (.quoted mark) (body ++ mark :: line) =
      liveRest lexis 0 (some mark) .code line := by
  induction isBody generalizing before with
  | nil =>
    have unescaped : before ≠ some '\\' := seen
    simp [liveRest, read, unescaped]
  | @ordinary c body other plain isBody ih =>
    rw [getLast?_cons_or] at seen
    rw [List.cons_append, liveRest, ← ih (some c) seen]
    simp [read, other]
  | @escape c body isBody ih =>
    -- The backslash is not the mark, and what follows it counts as escaped, the mark included.
    rw [getLast?_cons_or, getLast?_cons_or] at seen
    have notMark : '\\' ≠ mark := by rcases isMark with rfl | rfl <;> decide
    rw [List.cons_append, List.cons_append, liveRest, ← ih (some c) seen]
    simp only [read, notMark, false_and, if_false]
    rw [liveRest]
    simp [read]

theorem liveRest_literal {mark : Char} (isMark : IsLineMark mark)
    (all : lexis.quotesOnlyChars = false) {before : Option Char} (unescaped : before ≠ some '\\')
    {body : List Char} (isBody : IsSeenBody mark body) (line : List Char) :
    liveRest lexis 0 before .code (mark :: body ++ mark :: line) =
      liveRest lexis 0 (some mark) .code line := by
  have opens : read lexis .code (before == some '\\') mark (body ++ mark :: line) =
      .hidden 0 (.quoted mark) := by
    have isQuote : isQuote mark = true := by rcases isMark with rfl | rfl <;> rfl
    simp [read, all, isQuote, unescaped]
  have seen : body.getLast?.or (some mark) ≠ some '\\' := by
    have ending := isBody.2
    cases last : body.getLast? with
    | none => rcases isMark with rfl | rfl <;> decide
    | some c => rwa [last] at ending
  rw [List.cons_append, liveRest, opens]
  exact liveRest_body isMark isBody.1 (some mark) seen line

/-- The lexical rules look at no more than the next character. -/
theorem read_congr (all : lexis.quotesOnlyChars = false) (inside : Surrounding) (escaped : Bool)
    (c : Char) {rest rest' : List Char} (next : rest.head? = rest'.head?) :
    read lexis inside escaped c rest = read lexis inside escaped c rest' := by
  cases inside with
  | quoted mark => rfl
  | blockComment => simp only [read, next]
  | code =>
    have line : opensLineComment lexis.family c rest = opensLineComment lexis.family c rest' := by
      simp only [opensLineComment, next]
    have block : opensBlockComment lexis.family c rest = opensBlockComment lexis.family c rest' := by
      simp only [opensBlockComment, next]
    simp only [read, all, Bool.false_eq_true, and_false, if_false, line, block]

theorem Emptied.head?_eq {Allowed : Char → List Char → Prop} {before : Option Char}
    {inside after : Surrounding} {line line' : List Char}
    (emptied : Emptied lexis Allowed before inside line line' after) :
    line.head? = line'.head? := by
  cases emptied <;> rfl

/-- The bodies of literals are of no account for what is live. -/
theorem Emptied.liveRest_eq (all : lexis.quotesOnlyChars = false) {before : Option Char}
    {inside after : Surrounding} {line line' : List Char}
    (emptied : Emptied lexis IsSeenBody before inside line line' after) :
    liveRest lexis 0 before inside line = liveRest lexis 0 before inside line' ∧
      (liveRest lexis 0 before inside line).2 = after := by
  induction emptied with
  | nil => exact ⟨rfl, rfl⟩
  | live reads rest ih =>
    have reads' := (read_congr all _ _ _ rest.head?_eq).symm.trans reads
    simp only [liveRest, reads, reads', ih.1]
    exact ⟨trivial, ih.1 ▸ ih.2⟩
  | @hidden before inside next after c skipped line line' reads other rest ih =>
    -- What is behind the skipped characters is looked at only if there are none.
    have same : (skipped ++ line).head? = (skipped ++ line').head? := by
      rw [List.head?_append, List.head?_append, rest.head?_eq]
    have reads' := (read_congr all _ _ _ same).symm.trans reads
    rw [List.cons_append, List.cons_append, liveRest, liveRest, reads, reads']
    dsimp only
    rw [liveRest_skip, liveRest_skip, ← getLast?_cons_or c skipped none, Option.or_none]
    exact ih
  | comment reads => simp [liveRest, reads]
  | @literal before after mark body body' line line' isMark unescaped allowed emptied rest ih =>
    have isBody' : IsSeenBody mark body' := by
      rcases emptied with rfl | rfl
      · exact allowed
      · exact ⟨.nil, by simp⟩
    rw [liveRest_literal isMark all unescaped allowed,
      liveRest_literal isMark all unescaped isBody']
    exact ih

/-! ## The end of a declaration -/

theorem EmptiedLines.length_eq {Allowed : Char → List Char → Prop} {inside : Surrounding}
    {lines lines' : List (List Char)} (emptied : EmptiedLines lexis Allowed inside lines lines') :
    lines.length = lines'.length := by
  induction emptied with
  | nil => rfl
  | cons first rest ih => simpa using ih

theorem EmptiedLines.liveText_eq (all : lexis.quotesOnlyChars = false) {inside : Surrounding}
    {lines lines' : List (List Char)}
    (emptied : EmptiedLines lexis IsSeenBody inside lines lines') (number : Nat) :
    liveText lexis inside number lines = liveText lexis inside number lines' := by
  induction emptied generalizing number with
  | nil => rfl
  | cons first rest ih =>
    obtain ⟨same, after⟩ := first.liveRest_eq all
    simp only [liveText, ← same, after, ih]

theorem EmptiedLines.drop (all : lexis.quotesOnlyChars = false) {inside : Surrounding}
    {lines lines' : List (List Char)}
    (emptied : EmptiedLines lexis IsSeenBody inside lines lines') (count : Nat) :
    EmptiedLines lexis IsSeenBody (surroundingAfter lexis inside (lines.take count))
      (lines.drop count) (lines'.drop count) := by
  induction emptied generalizing count with
  | nil => simpa using .nil
  | cons first rest ih =>
    cases count with
    | zero => exact .cons first rest
    | succ count =>
      rw [List.take_succ_cons, surroundingAfter, (first.liveRest_eq all).2]
      exact ih count

theorem EmptiedLines.append (all : lexis.quotesOnlyChars = false) {inside : Surrounding}
    {first first' second second' : List (List Char)}
    (front : EmptiedLines lexis IsSeenBody inside first first')
    (behind : EmptiedLines lexis IsSeenBody (surroundingAfter lexis inside first) second second') :
    EmptiedLines lexis IsSeenBody inside (first ++ second) (first' ++ second') := by
  induction front with
  | nil => exact behind
  | cons line rest ih =>
    rw [surroundingAfter, (line.liveRest_eq all).2] at behind
    exact .cons line (ih behind)

/-- A scan from a line reads the lines as they are read from the first one on: no block comment and
no literal that goes on is around the line. A place in front of the first line counts from the end,
and the first line follows the last one there, so nothing may go on beyond the end either. -/
structure ReadsAlike (lexis : Lexis) (lines : List (List Char)) (start : Int) : Prop where
  here : 0 ≤ start → start < lines.length →
    surroundingAfter lexis .code (lines.take start.toNat) = .code
  fromEnd : start < 0 → -(lines.length : Int) ≤ start →
    surroundingAfter lexis .code (lines.take (start + lines.length).toNat) = .code ∧
      surroundingAfter lexis .code lines = .code

/-- From every place, what is scanned has the same literals emptied. -/
theorem EmptiedLines.linesFrom? (all : lexis.quotesOnlyChars = false)
    {lines lines' : List (List Char)} (emptied : EmptiedLines lexis IsSeenBody .code lines lines')
    {start : Int} (alike : ReadsAlike lexis lines start) :
    Option.Rel (EmptiedLines lexis IsSeenBody .code) (linesFrom? lines start)
      (linesFrom? lines' start) := by
  have length := emptied.length_eq
  have behind (count : Nat) (code : surroundingAfter lexis .code (lines.take count) = .code) :
      EmptiedLines lexis IsSeenBody .code (lines.drop count) (lines'.drop count) := by
    have rest := emptied.drop all count
    rwa [code] at rest
  unfold Boundary.linesFrom?
  rw [← length]
  split
  case isTrue natural =>
    refine .some ?_
    by_cases near : start < lines.length
    · exact behind _ (alike.here natural near)
    · rw [List.drop_eq_nil_of_le (by omega), List.drop_eq_nil_of_le (by omega)]
      exact .nil
  case isFalse negative =>
  split
  case isTrue => exact .none
  case isFalse far =>
    obtain ⟨here, atEnd⟩ := alike.fromEnd (by omega) (by omega)
    refine .some ((behind _ here).append all ?_)
    have whole := surroundingAfter_append lexis .code (lines.take (start + lines.length).toNat)
      (lines.drop (start + lines.length).toNat)
    rw [List.take_append_drop, here, atEnd] at whole
    rwa [← whole]

/-- Emptying literals does not change where a declaration ends. Their bodies may have escapes, but
no escaped backslash stands before the mark that closes a literal. -/
theorem findEndFrom?_emptied (all : lexis.quotesOnlyChars = false)
    {lines lines' : List (List Char)} (emptied : EmptiedLines lexis IsSeenBody .code lines lines')
    {start : Int} (alike : ReadsAlike lexis lines start) (countParens : Bool) (maxLines : Int) :
    findEndFrom? lexis countParens maxLines lines start =
      findEndFrom? lexis countParens maxLines lines' start := by
  have scanned := emptied.linesFrom? all alike
  cases from' : linesFrom? lines start <;> cases from'' : linesFrom? lines' start <;>
    rw [from', from''] at scanned <;> cases scanned
  case none.none => simp only [findEndFrom?, from', from'', emptied.length_eq]
  case some.some below below' same =>
    rw [findEndFrom?_eq _ _ _ from', findEndFrom?_eq _ _ _ from'', same.liveText_eq all]

/-- An escaped quote does not close a literal, so the brace in it stays out of account. -/
theorem findEndFrom?_escaped_quote :
    findEndFrom? {} true 200 ["f() \x7b".toList, " g(\"\\\"\x7d\") \x7d".toList] 0 =
      findEndFrom? {} true 200 ["f() \x7b".toList, " g(\"\") \x7d".toList] 0 := by
  have full : " g(\"\\\"\x7d\") \x7d".toList =
      " g(".toList ++ ('"' :: ['\\', '"', '}'] ++ '"' :: ") \x7d".toList) := by decide
  have bare : " g(\"\") \x7d".toList = " g(".toList ++ ('"' :: [] ++ '"' :: ") \x7d".toList) := by
    decide
  have body : IsSeenBody '"' ['\\', '"', '}'] :=
    ⟨.escape '"' (.ordinary (by decide) (by decide) .nil), by decide⟩
  rw [full, bare]
  refine findEndFrom?_emptied rfl (.cons (.codeLine (by decide)) (.cons (.code (by decide)
    (.literal (.inl rfl) (by decide) body (.inr rfl) (.codeLine (by decide)))) .nil)) ?_ true 200
  exact ⟨fun _ _ => rfl, fun negative => absurd negative (by decide)⟩

/-- An escaped backslash at the end of a body hides what closes the declaration. A mark in a body
counts for a scan that starts in a block comment. -/
theorem emptied_literals_move_ends :
    (EmptiedLines {} IsBody .code ["f() \x7b".toList, " g(\"\\\\\") \x7d".toList]
        ["f() \x7b".toList, " g(\"\") \x7d".toList] ∧
      findEndFrom? {} true 200 ["f() \x7b".toList, " g(\"\\\\\") \x7d".toList] 0 = some none ∧
      findEndFrom? {} true 200 ["f() \x7b".toList, " g(\"\") \x7d".toList] 0 = some (some 1)) ∧
    EmptiedLines {} IsBody .code ["/*".toList, "` */\"`\x7b\"".toList, "\x7d".toList]
        ["/*".toList, "` */\"\"".toList, "\x7d".toList] ∧
      findEndFrom? {} true 200 ["/*".toList, "` */\"`\x7b\"".toList, "\x7d".toList] 1 =
        some (some 2) ∧
      findEndFrom? {} true 200 ["/*".toList, "` */\"\"".toList, "\x7d".toList] 1 = some none := by
  refine ⟨⟨?_, by decide, by decide⟩, ?_, by decide, by decide⟩
  · have full : " g(\"\\\\\") \x7d".toList =
        " g(".toList ++ ('"' :: ['\\', '\\'] ++ '"' :: ") \x7d".toList) := by decide
    have bare : " g(\"\") \x7d".toList = " g(".toList ++ ('"' :: [] ++ '"' :: ") \x7d".toList) := by
      decide
    rw [full, bare]
    exact .cons (.codeLine (by decide)) (.cons (.code (by decide) (.literal (.inl rfl) (by decide)
      (.escape '\\' .nil) (.inr rfl) (.codeLine (by decide)))) .nil)
  · have opening : "/*".toList = '/' :: ['*'] ++ [] := by decide
    have full : "` */\"`\x7b\"".toList =
        '`' :: [] ++ (' ' :: [] ++ ('*' :: ['/'] ++ ('"' :: ['`', '{'] ++ '"' :: []))) := by decide
    have bare : "` */\"\"".toList =
        '`' :: [] ++ (' ' :: [] ++ ('*' :: ['/'] ++ ('"' :: [] ++ '"' :: []))) := by decide
    have body : IsBody '"' ['`', '{'] :=
      .ordinary (by decide) (by decide) (.ordinary (by decide) (by decide) .nil)
    rw [opening, full, bare]
    refine .cons (.hidden rfl (by simp) .nil) (.cons (.hidden rfl (by simp) (.hidden rfl (by simp)
      (.hidden rfl (by simp) (.literal (.inl rfl) (by decide) body (.inr rfl) .nil)))) ?_)
    exact .cons (.codeLine (by decide)) .nil

end CodeSearch.Boundary
