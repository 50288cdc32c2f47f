import CodeSearch.Proofs.Chunk.LiveText

/-! # Masking, then counting

Where a declaration ends can be said in two passes over the lines that are looked at. The first
masks literals and comments: where one opens, it looks ahead for the end of it. The second takes the
first closing brace in sight, behind an opening one, with which as many braces are closed as opened
and, where they count, as many parentheses. The scanner does both at once and sees one character at
a time; it stops on the same line.
-/

namespace CodeSearch.Boundary

/-! ## Character literals -/

/-- A character literal: a character between single quotes, a backslash and a character, or a code
point in braces. -/
inductive IsCharLiteral : List Char → Prop
  | plain {c : Char} (noEscape : c ≠ '\\') (noQuote : c ≠ '\'') : IsCharLiteral ['\'', c, '\'']
  | escape {c : Char} (onLine : c ≠ '\n') : IsCharLiteral ['\'', '\\', c, '\'']
  | codePoint {hex : List Char} (some : hex ≠ []) (areHex : ∀ c ∈ hex, isHex c = true) :
      IsCharLiteral ('\'' :: '\\' :: 'u' :: '{' :: (hex ++ ['}', '\'']))

private theorem codePointLength?_eq_some_iff {text : List Char} {length : Nat} :
    codePointLength? text = some length ↔
      ∃ hex behind, text = 'u' :: '{' :: (hex ++ '}' :: '\'' :: behind) ∧ hex ≠ [] ∧
        (∀ c ∈ hex, isHex c = true) ∧ length = hex.length + 4 := by
  constructor
  · intro found
    unfold codePointLength? at found
    split at found
    case h_2 => cases found
    case h_1 rest =>
      dsimp only at found
      split at found
      case h_2 => cases found
      case h_1 behind ends =>
        split at found
        case isTrue => cases found
        case isFalse some =>
          cases found
          refine ⟨rest.takeWhile isHex, behind, ?_, by simpa using some, ?_, rfl⟩
          · rw [← ends, List.prefix_iff_eq_append.mp (List.takeWhile_prefix _)]
          · exact List.all_eq_true.mp List.all_takeWhile
  · rintro ⟨hex, behind, rfl, some, areHex, rfl⟩
    have taken : (hex ++ '}' :: '\'' :: behind).takeWhile isHex = hex := by
      rw [List.takeWhile_append_of_pos areHex, List.takeWhile_cons_of_neg (by decide),
        List.append_nil]
    simp [codePointLength?, taken, some]

/-- A single quote opens a character literal if one stands there, and all of it is passed over. -/
theorem charLiteralLength?_eq_some_iff {text : List Char} {length : Nat} :
    charLiteralLength? text = some length ↔
      ∃ literal behind, text = literal ++ behind ∧ IsCharLiteral ('\'' :: literal) ∧
        length = literal.length := by
  constructor
  · intro found
    unfold charLiteralLength? at found
    split at found
    case h_1 rest =>
      split at found
      case h_1 length' codePoint =>
        obtain ⟨hex, behind, rfl, some, areHex, rfl⟩ := codePointLength?_eq_some_iff.mp codePoint
        cases found
        exact ⟨'\\' :: 'u' :: '{' :: (hex ++ ['}', '\'']), behind, by simp,
          .codePoint some areHex, by simp⟩
      case h_2 =>
        split at found
        case h_2 => cases found
        case h_1 _ c behind _ =>
          split at found
          case isTrue => cases found
          case isFalse onLine =>
            cases found
            exact ⟨['\\', c, '\''], behind, rfl, .escape onLine, rfl⟩
    case h_2 c behind noEscape =>
      split at found
      case isTrue => cases found
      case isFalse noQuote =>
        cases found
        exact ⟨[c, '\''], behind, rfl, .plain (fun same => noEscape (by simp [same])) noQuote, rfl⟩
    case h_3 => cases found
  · rintro ⟨literal, behind, rfl, isLiteral, rfl⟩
    cases isLiteral with
    | plain noEscape noQuote => simp [charLiteralLength?, noQuote]
    | @escape c onLine =>
      have plain : codePointLength? (c :: '\'' :: behind) = none := by
        rw [← Option.not_isSome_iff_eq_none, Option.isSome_iff_exists]
        rintro ⟨length, found⟩
        obtain ⟨hex, rest, same, -⟩ := codePointLength?_eq_some_iff.mp found
        simp at same
      simp [charLiteralLength?, plain, onLine]
    | @codePoint hex some areHex =>
      have found : codePointLength? ('u' :: '{' :: (hex ++ '}' :: '\'' :: behind)) =
          Option.some (hex.length + 4) :=
        codePointLength?_eq_some_iff.mpr ⟨hex, behind, rfl, some, areHex, rfl⟩
      simp [charLiteralLength?, found]

/-! ## The text and what is hidden in it -/

/-- A place of a text of several lines. -/
inductive Glyph where
  | char (c : Char)
  | lineEnd
  /-- A character of a literal or a comment. -/
  | masked
  deriving DecidableEq

namespace Glyph

/-- Masks a character. The end of a line stays in sight. -/
def hide : Glyph → Glyph
  | lineEnd => lineEnd
  | _ => masked

def char? : Glyph → Option Char
  | char c => some c
  | _ => none

end Glyph

/-- Lines as one text. -/
def written (lines : List (List Char)) : List Glyph :=
  lines.flatMap fun line => line.map .char ++ [.lineEnd]

/-- What is left of the line. -/
def lineAhead : List Glyph → List Char
  | .char c :: rest => c :: lineAhead rest
  | _ => []

/-- Where slashes mark comments, single and double quotes end with their line. -/
def EndsWithLine (family : CommentFamily) (mark : Char) : Prop :=
  family = .slashes ∧ (mark = '"' ∨ mark = '\'')

instance (family : CommentFamily) (mark : Char) : Decidable (EndsWithLine family mark) :=
  inferInstanceAs (Decidable (_ ∧ _))

/-- How far a literal goes on behind its opening mark: up to the next such mark that is not behind a
backslash, or to the end of the line if it ends with its line. -/
def literalLength (family : CommentFamily) (mark : Char) : Option Glyph → List Glyph → Nat
  | _, [] => 0
  | before, here :: rest =>
    if here = .lineEnd ∧ EndsWithLine family mark then 0
    else if here = .char mark ∧ before ≠ some (.char '\\') then 1
    else literalLength family mark (some here) rest + 1

/-- How far a block comment goes on behind the two characters that open it: up to a star and a
slash. -/
def blockLength : List Glyph → Nat
  | [] => 0
  | here :: rest =>
    if here = .char '*' ∧ rest.head? = some (.char '/') then 2 else blockLength rest + 1

/-- How many places a literal or a comment hides that opens here; none if nothing opens here. A
quote behind a backslash opens no literal. Where single quotes are only for characters, they are no
such marks: one is in sight, whatever is in front of it, unless a whole character literal begins
with it. -/
def hiddenLength (lexis : Lexis) (before : Option Glyph) : List Glyph → Nat
  | .char c :: rest =>
    if c = '\'' ∧ lexis.quotesOnlyChars = true then
      match charLiteralLength? (lineAhead rest) with
      | some length => length + 1
      | none => 0
    else if isQuote c = true ∧ before ≠ some (.char '\\') then
      literalLength lexis.family c (some (.char c)) rest + 1
    else if lexis.family = .slashes ∧ c = '/' ∧ rest.head? = some (.char '/') ∨
        lexis.family = .hash ∧ c = '#' then
      (lineAhead rest).length + 1
    else if lexis.family = .slashes ∧ c = '/' ∧ rest.head? = some (.char '*') then
      blockLength rest.tail + 2
    else 0
  | _ => 0

/-- Masks a text behind `before` in which the first `hidden` places are hidden. -/
def mask (lexis : Lexis) : Nat → Option Glyph → List Glyph → List Glyph
  | _, _, [] => []
  | hidden + 1, _, here :: rest => here.hide :: mask lexis hidden (some here) rest
  | 0, before, here :: rest =>
    match hiddenLength lexis before (here :: rest) with
    | 0 => here :: mask lexis 0 (some here) rest
    | hidden + 1 => here.hide :: mask lexis hidden (some here) rest

/-- Lines with everything masked that stands in literals and comments. -/
def maskedText (lexis : Lexis) (lines : List (List Char)) : List Glyph :=
  mask lexis 0 none (written lines)

/-! ## Counting -/

/-- As many characters of one kind as of another are in sight. -/
def IsBalanced (opening closing : Char) (text : List Glyph) : Prop :=
  text.count (.char opening) = text.count (.char closing)

instance (opening closing : Char) (text : List Glyph) :
    Decidable (IsBalanced opening closing text) := inferInstanceAs (Decidable (_ = _))

/-- The declaration ends at a place of a masked text: a closing brace is in sight there and an
opening one in front of it, and up to it everything that counts is balanced. -/
def EndsAt (countParens : Bool) (text : List Glyph) (place : Nat) : Prop :=
  text[place]? = some (.char '}') ∧ .char '{' ∈ text.take place ∧
    IsBalanced '{' '}' (text.take (place + 1)) ∧
    (countParens = true → IsBalanced '(' ')' (text.take (place + 1)))

instance (countParens : Bool) (text : List Glyph) (place : Nat) :
    Decidable (EndsAt countParens text place) := inferInstanceAs (Decidable (_ ∧ _ ∧ _ ∧ _))

/-- The line of the first place of a masked text at which the declaration ends. -/
def endInMasked? (countParens : Bool) (text : List Glyph) : Option Nat :=
  ((List.range text.length).find? fun place => EndsAt countParens text place).map fun place =>
    (text.take place).count .lineEnd

/-! ## Masking leaves the live text -/

/-- How many more places are hidden, given what surrounds the first one. -/
def remaining (family : CommentFamily) (before : Option Glyph) (text : List Glyph) :
    Surrounding → Nat
  | .code => 0
  | .quoted mark => literalLength family mark before text
  | .blockComment => blockLength text

/-- How many places are hidden if the next `further` ones are and what follows them is surrounded in
a given way. -/
def hiddenAhead (family : CommentFamily) (inside : Surrounding) :
    Nat → Option Glyph → List Glyph → Nat
  | 0, before, text => remaining family before text inside
  | _ + 1, _, [] => 0
  | further + 1, _, here :: rest => hiddenAhead family inside further (some here) rest + 1

section reading

variable {lexis : Lexis} {before : Option Glyph} {inside : Surrounding} {escaped : Bool} {c : Char}
  {text : List Glyph}

theorem head?_lineAhead {d : Char} :
    (lineAhead text).head? = some d ↔ text.head? = some (.char d) := by
  cases text with
  | nil => simp [lineAhead]
  | cons here rest => cases here <;> simp [lineAhead]

theorem length_lineAhead_le (text : List Glyph) : (lineAhead text).length ≤ text.length := by
  induction text with
  | nil => exact Nat.le_refl 0
  | cons here text ih => cases here <;> simp [lineAhead, ih]

theorem opensLineComment_iff {family : CommentFamily} :
    opensLineComment family c (lineAhead text) = true ↔
      family = .slashes ∧ c = '/' ∧ text.head? = some (.char '/') ∨ family = .hash ∧ c = '#' := by
  rw [← head?_lineAhead]
  cases family <;> simp [opensLineComment]

theorem opensBlockComment_iff {family : CommentFamily} :
    opensBlockComment family c (lineAhead text) = true ↔
      family = .slashes ∧ c = '/' ∧ text.head? = some (.char '*') := by
  rw [← head?_lineAhead]
  simp [opensBlockComment, and_assoc]

theorem hiddenAhead_code (family : CommentFamily) {further : Nat} (before : Option Glyph)
    (within : further ≤ text.length) : hiddenAhead family .code further before text = further := by
  induction further generalizing before text with
  | zero => rfl
  | succ further ih =>
    cases text with
    | nil => simp at within
    | cons here rest => rw [hiddenAhead, ih _ (by simpa using within)]

theorem length_le_of_charLiteralLength? {line : List Char} {length : Nat}
    (found : charLiteralLength? line = some length) : length ≤ line.length := by
  obtain ⟨literal, behind, rfl, -, rfl⟩ := charLiteralLength?_eq_some_iff.mp found
  simp

/-- How far a character of code hides what begins with it is what the lexical rules say of it. -/
theorem hiddenLength_char (lexis : Lexis) (c : Char) (text : List Glyph)
    (same : escaped = true ↔ before = some (.char '\\')) :
    hiddenLength lexis before (.char c :: text) =
      match read lexis .code escaped c (lineAhead text) with
      | .live => 0
      | .hidden further next => hiddenAhead lexis.family next further (some (.char c)) text + 1
      | .comment => (lineAhead text).length + 1 := by
  have unescaped : escaped = false ↔ before ≠ some (.char '\\') := by
    rw [ne_eq, ← same, Bool.not_eq_true]
  simp only [hiddenLength, read, opensLineComment_iff, opensBlockComment_iff, unescaped]
  split
  case isTrue =>
    cases literal : charLiteralLength? (lineAhead text) with
    | none => rfl
    | some length =>
      have within : length ≤ text.length :=
        Nat.le_trans (length_le_of_charLiteralLength? literal) (length_lineAhead_le text)
      simp only [hiddenAhead_code _ _ within]
  case isFalse =>
  split
  case isTrue => rfl
  case isFalse =>
  split
  case isTrue => rfl
  case isFalse =>
  split
  case isTrue block =>
    cases text with
    | nil => cases block.2.2
    | cons here rest => rfl
  case isFalse => rfl

/-- In a literal or a comment, the lexical rules hide a character and tell how far the rest goes. -/
theorem remaining_char (lexis : Lexis) (c : Char) (text : List Glyph)
    (same : escaped = true ↔ before = some (.char '\\')) (hidden : inside ≠ .code) :
    ∃ further next, read lexis inside escaped c (lineAhead text) = .hidden further next ∧
      remaining lexis.family before (.char c :: text) inside =
        hiddenAhead lexis.family next further (some (.char c)) text + 1 := by
  cases inside with
  | code => exact absurd rfl hidden
  | quoted mark =>
    refine ⟨_, _, rfl, ?_⟩
    simp only [remaining, literalLength, reduceCtorEq, false_and, if_false, Glyph.char.injEq, ne_eq,
      ← same, Bool.not_eq_true]
    split <;> rfl
  | blockComment =>
    simp only [read, head?_lineAhead, remaining, blockLength, Glyph.char.injEq]
    split
    case isTrue closes =>
      refine ⟨1, .code, rfl, ?_⟩
      cases text with
      | nil => cases closes.2
      | cons here rest => rfl
    case isFalse => exact ⟨0, .blockComment, rfl, rfl⟩

/-- What is read as hidden is masked, and so is what surrounds the place behind it. -/
theorem mask_of_hidden (same : escaped = true ↔ before = some (.char '\\')) {further : Nat}
    {next : Surrounding}
    (reading : read lexis inside escaped c (lineAhead text) = .hidden further next) :
    mask lexis (remaining lexis.family before (.char c :: text) inside) before (.char c :: text) =
      .masked :: mask lexis (hiddenAhead lexis.family next further (some (.char c)) text)
        (some (.char c)) text := by
  by_cases code : inside = .code
  · subst code
    have opens := hiddenLength_char lexis c text same
    rw [reading] at opens
    rw [remaining, mask, opens]
    rfl
  · obtain ⟨further', next', reading', goesOn⟩ := remaining_char lexis c text same code
    cases reading.symm.trans reading'
    rw [goesOn]
    rfl

/-- In literals and comments everything is read as hidden. -/
theorem eq_code_of_read {line : List Char} {reading : Reading}
    (reads : read lexis inside escaped c line = reading)
    (shown : ∀ further next, reading ≠ .hidden further next) : inside = .code := by
  cases inside with
  | code => rfl
  | quoted mark => exact absurd reads.symm (shown _ _)
  | blockComment =>
    simp only [read] at reads
    split at reads <;> exact absurd reads.symm (shown _ _)

theorem mask_of_live (same : escaped = true ↔ before = some (.char '\\'))
    (reading : read lexis .code escaped c (lineAhead text) = .live) :
    mask lexis 0 before (.char c :: text) = .char c :: mask lexis 0 (some (.char c)) text := by
  have opens := hiddenLength_char lexis c text same
  rw [reading] at opens
  rw [mask, opens]

theorem mask_of_comment (same : escaped = true ↔ before = some (.char '\\'))
    (reading : read lexis .code escaped c (lineAhead text) = .comment) :
    mask lexis 0 before (.char c :: text) =
      .masked :: mask lexis (lineAhead text).length (some (.char c)) text := by
  have opens := hiddenLength_char lexis c text same
  rw [reading] at opens
  rw [mask, opens]
  rfl

/-- No more is read as hidden than the line has. -/
theorem le_length_of_read {line : List Char} {further : Nat} {next : Surrounding}
    (reading : read lexis inside escaped c line = .hidden further next) :
    further ≤ line.length := by
  have mark {d : Char} (ahead : line.head? = some d) : 1 ≤ line.length := by
    cases line with
    | nil => cases ahead
    | cons => simp
  cases inside with
  | quoted mark =>
    cases reading
    exact Nat.zero_le _
  | blockComment =>
    simp only [read] at reading
    split at reading
    case isTrue closes => cases reading; exact mark closes.2
    case isFalse => cases reading; exact Nat.zero_le _
  | code =>
    simp only [read] at reading
    split at reading
    case isTrue =>
      split at reading
      case h_1 literal => cases reading; exact length_le_of_charLiteralLength? literal
      case h_2 => cases reading
    case isFalse =>
    split at reading
    case isTrue => cases reading; exact Nat.zero_le _
    case isFalse =>
    split at reading
    case isTrue => cases reading
    case isFalse =>
    split at reading
    case isTrue block =>
      cases reading
      simp only [opensBlockComment, Bool.and_eq_true, beq_iff_eq] at block
      exact mark block.2
    case isFalse => cases reading

end reading

/-- The characters in sight, each with the number of its line. -/
def inSight (number : Nat) : List Glyph → List (Nat × Char)
  | [] => []
  | .char c :: rest => (number, c) :: inSight number rest
  | .lineEnd :: rest => inSight (number + 1) rest
  | .masked :: rest => inSight number rest

section line

variable {lexis : Lexis} {before : Option Glyph} {inside : Surrounding} {number : Nat}
  {line : List Char} {below : List Glyph}

@[simp] theorem lineAhead_line : lineAhead (line.map .char ++ .lineEnd :: below) = line := by
  induction line with
  | nil => rfl
  | cons c line ih => simp [lineAhead, ih]

theorem carriedOver_quoted (family : CommentFamily) (mark : Char) :
    carriedOver family (.quoted mark) =
      if EndsWithLine family mark then .code else .quoted mark := by
  simp only [carriedOver, EndsWithLine, Surrounding.quoted.injEq]
  rfl

/-- What goes on beyond the end of a line is what surrounds the next line. -/
theorem mask_lineEnd :
    mask lexis (remaining lexis.family before (.lineEnd :: below) inside) before
        (.lineEnd :: below) =
      .lineEnd ::
        mask lexis
          (remaining lexis.family (some .lineEnd) below (carriedOver lexis.family inside))
          (some .lineEnd) below := by
  cases inside with
  | code =>
    have unchanged : carriedOver lexis.family .code = .code := by simp [carriedOver]
    rw [unchanged]
    rfl
  | blockComment =>
    have goesOn : carriedOver lexis.family .blockComment = .blockComment := by simp [carriedOver]
    rw [goesOn]
    rfl
  | quoted mark =>
    rw [carriedOver_quoted]
    split
    case isTrue ends => simp [remaining, literalLength, ends, mask, hiddenLength]
    case isFalse goesOn => simp [remaining, literalLength, goesOn, mask, Glyph.hide]

/-- Behind the mark of a line comment nothing is in sight up to the next line. -/
theorem inSight_mask_comment (before : Option Glyph) :
    inSight number (mask lexis line.length before (line.map .char ++ .lineEnd :: below)) =
      inSight (number + 1) (mask lexis 0 (some .lineEnd) below) := by
  induction line generalizing before with
  | nil => rfl
  | cons c line ih => exact ih _

/-- On each line, the characters in sight are the live ones. The induction is on the line: what is
hidden further on is what surrounds the place, behind the characters that are passed over. -/
theorem inSight_mask_line {further : Nat} {previous : Option Char}
    (within : further ≤ line.length)
    (same : (previous == some '\\') = true ↔ before = some (.char '\\')) :
    inSight number
        (mask lexis
          (hiddenAhead lexis.family inside further before (line.map .char ++ .lineEnd :: below))
          before (line.map .char ++ .lineEnd :: below)) =
      (liveRest lexis further previous inside line).1.map (number, ·) ++
        inSight (number + 1)
          (mask lexis
            (remaining lexis.family (some .lineEnd) below
              (carriedOver lexis.family (liveRest lexis further previous inside line).2))
            (some .lineEnd) below) := by
  induction line generalizing further previous before inside with
  | nil =>
    obtain rfl : further = 0 := by simpa using within
    exact congrArg (inSight number) mask_lineEnd
  | cons c line ih =>
    cases further with
    | succ further => exact ih (Nat.le_of_succ_le_succ within) (by simp)
    | zero =>
      rw [List.map_cons, List.cons_append, hiddenAhead, liveRest]
      have ahead := @lineAhead_line line below
      have next : ((some c : Option Char) == some '\\') = true ↔
          some (Glyph.char c) = some (.char '\\') := by
        simp
      cases reading : read lexis inside (previous == some '\\') c line with
      | hidden further inside' =>
        rw [mask_of_hidden same (ahead.symm ▸ reading)]
        exact ih (le_length_of_read reading) next
      | live =>
        obtain rfl : inside = .code := eq_code_of_read reading (by simp)
        rw [remaining, mask_of_live same (ahead.symm ▸ reading)]
        exact congrArg ((number, c) :: ·) (@ih _ .code 0 (some c) (Nat.zero_le _) next)
      | comment =>
        obtain rfl : inside = .code := eq_code_of_read reading (by simp)
        rw [remaining, mask_of_comment same (ahead.symm ▸ reading), ahead]
        exact (inSight_mask_comment _).trans (by simp [carriedOver, remaining])

/-- What is in sight of masked lines is their live text. -/
theorem inSight_mask (before : Option Glyph) (unescaped : before ≠ some (.char '\\')) (number : Nat)
    (inside : Surrounding) (lines : List (List Char)) :
    inSight number
        (mask lexis (remaining lexis.family before (written lines) inside) before (written lines)) =
      liveText lexis inside number lines := by
  induction lines generalizing before number inside with
  | nil => simp [written, mask, inSight, liveText]
  | cons line lines ih =>
    have text : written (line :: lines) = line.map .char ++ .lineEnd :: written lines := by
      simp [written]
    have first := @inSight_mask_line lexis before inside number line (written lines) 0 none
      (Nat.zero_le _) (by simpa using unescaped)
    rw [hiddenAhead, ih _ (by simp)] at first
    rw [text]
    exact first

end line

/-! ## Counting finds what closes the live text -/

section counting

variable {countParens : Bool} {front rest : List Glyph} {here : Glyph}

theorem count_shown (c : Char) (text : List Glyph) :
    (text.filterMap Glyph.char?).count c = text.count (.char c) := by
  induction text with
  | nil => rfl
  | cons here text ih =>
    cases here <;> simpa [List.filterMap_cons, Glyph.char?, List.count_cons] using ih

/-- A place ends the declaration exactly if its closing brace leaves nothing open of the characters
in sight in front of it. -/
theorem endsAt_iff :
    EndsAt countParens (front ++ here :: rest) front.length ↔
      here = .char '}' ∧ ClosesAll countParens (front.filterMap Glyph.char?) := by
  have opened : '{' ∈ front.filterMap Glyph.char? ↔ .char '{' ∈ front := by
    rw [← List.count_pos_iff, count_shown, List.count_pos_iff]
  have taken : (front ++ here :: rest).take (front.length + 1) = front ++ [here] := by
    rw [List.append_cons, List.take_left' (by simp)]
  simp only [EndsAt, ClosesAll, IsBalanced, excess, count_shown, opened, taken, List.take_left,
    List.getElem?_append_right, Nat.le_refl, Nat.sub_self, List.getElem?_cons_zero,
    Option.some.injEq, List.count_append]
  refine and_congr_right ?_
  rintro rfl
  refine and_congr_right fun _ => and_congr ?_ (imp_congr_right fun _ => ?_)
  · simp
    omega
  · simp
    omega

/-- The search for the end goes on from every place as it does in the live text. The induction is on
what follows the place. -/
theorem firstClose_inSight :
    firstClose countParens (front.filterMap Glyph.char?)
        (inSight (front.count .lineEnd) rest) =
      ((List.range' front.length rest.length).find? fun place =>
          EndsAt countParens (front ++ rest) place).map fun place =>
        ((front ++ rest).take place).count .lineEnd := by
  induction rest generalizing front with
  | nil => rfl
  | cons here rest ih =>
    have next := @ih (front ++ [here])
    rw [List.append_assoc, List.singleton_append, List.length_append, List.length_singleton] at next
    rw [List.length_cons, List.range'_succ, List.find?_cons]
    by_cases ends : EndsAt countParens (front ++ here :: rest) front.length
    · obtain ⟨rfl, closes⟩ := endsAt_iff.mp ends
      rw [decide_eq_true ends, inSight, firstClose, if_pos ⟨rfl, closes⟩]
      simp
    · rw [decide_eq_false ends]
      rw [endsAt_iff] at ends
      refine Eq.trans ?_ next
      cases here with
      | char c =>
        rw [inSight, firstClose, if_neg (by simpa using ends)]
        simp [Glyph.char?]
      | lineEnd => simp [inSight, List.filterMap_cons, Glyph.char?]
      | masked => simp [inSight, List.filterMap_cons, Glyph.char?]

theorem endInMasked?_eq (countParens : Bool) (text : List Glyph) :
    endInMasked? countParens text = firstClose countParens [] (inSight 0 text) := by
  rw [endInMasked?, List.range_eq_range']
  exact (@firstClose_inSight countParens [] text).symm

end counting

/-- The scanner stops where masking the lines and then counting in them says. -/
theorem scanLines_eq_masked (lexis : Lexis) (countParens : Bool) (lines : List (List Char)) :
    scanLines lexis countParens {} lines =
      endInMasked? countParens (maskedText lexis lines) := by
  have reads := scanLines_reads lexis (hasCounted_start countParens) 0 lines
  simp only [Nat.zero_add, Option.map_id'] at reads
  rw [reads, endInMasked?_eq, maskedText]
  exact congrArg _ (inSight_mask none (by simp) 0 .code lines).symm

/-! ## The lines that are looked at -/

/-- The line of an index. A negative index counts from the end. -/
def lineAt? (lines : List (List Char)) (index : Int) : Option (List Char) :=
  if 0 ≤ index then lines[index.toNat]?
  else if -(lines.length : Int) ≤ index then lines[(index + lines.length).toNat]?
  else none

/-- The lines from a place on, at most `maxLines` of them and none behind the last one. There are
none if the place is in front of the list and lines are looked at. -/
def window? (lines : List (List Char)) (start maxLines : Int) : Option (List (List Char)) :=
  (List.range (min (start + maxLines) lines.length - start).toNat).mapM fun offset : Nat =>
    lineAt? lines (start + offset)

private theorem mapM_range_eq_take {items : List (List Char)} {at? : Nat → Option (List Char)}
    {count : Nat}
    (within : count ≤ items.length) (same : ∀ place < count, at? place = items[place]?) :
    (List.range count).mapM at? = some (items.take count) := by
  induction count with
  | zero => rfl
  | succ count ih =>
    have last : at? count = some items[count] :=
      (same count (Nat.lt_succ_self count)).trans (List.getElem?_eq_getElem within)
    rw [List.range_succ, List.mapM_append,
      ih (Nat.le_of_succ_le within) fun place before => same place (Nat.lt_succ_of_lt before),
      ← List.take_append_getElem within]
    simp [last]

theorem lineAt?_eq {lines below : List (List Char)} {start : Int}
    (from' : linesFrom? lines start = some below) {offset : Nat} (within : offset < below.length) :
    lineAt? lines (start + offset) = below[offset]? := by
  unfold linesFrom? at from'
  split at from'
  case isTrue natural =>
    cases from'
    rw [lineAt?, if_pos (by omega), List.getElem?_drop]
    congr 1
    omega
  case isFalse negative =>
  split at from'
  case isTrue => cases from'
  case isFalse near =>
    cases from'
    rw [List.length_append, List.length_drop] at within
    rw [lineAt?, List.getElem?_append, List.length_drop]
    by_cases wraps : 0 ≤ start + offset
    · rw [if_pos wraps, if_neg (by omega)]
      congr 1
      omega
    · rw [if_neg wraps, if_pos (by omega), if_pos (by omega), List.getElem?_drop]
      congr 1
      omega

theorem lineAt?_eq_none {lines : List (List Char)} {start : Int}
    (nowhere : linesFrom? lines start = none) : lineAt? lines start = none := by
  unfold linesFrom? at nowhere
  split at nowhere
  case isTrue => cases nowhere
  case isFalse negative =>
  split at nowhere
  case isTrue far => rw [lineAt?, if_neg negative, if_neg (by omega)]
  case isFalse => cases nowhere

theorem window?_eq {lines below : List (List Char)} {start : Int}
    (from' : linesFrom? lines start = some below) (maxLines : Int) :
    window? lines start maxLines = some (below.take maxLines.toNat) := by
  have length := length_linesFrom? from'
  rw [window?, ← take_linesFrom? maxLines from']
  exact mapM_range_eq_take (by omega) fun place before => lineAt?_eq from' (by omega)

/-- From every place, the declaration ends where masking the lines that are looked at, and then
counting in what is left in sight, says that it ends. -/
theorem findEndFrom?_eq_masked (lexis : Lexis) (countParens : Bool) (maxLines : Int)
    (lines : List (List Char)) (start : Int) :
    findEndFrom? lexis countParens maxLines lines start =
      (window? lines start maxLines).map fun window =>
        (endInMasked? countParens (maskedText lexis window)).map fun line : Nat => start + line := by
  cases from' : linesFrom? lines start with
  | some below =>
    rw [findEndFrom?_eq_scanLines lexis countParens maxLines from', window?_eq from',
      Option.map_some, scanLines_eq_masked]
  | none =>
    have missing : lineAt? lines (start + (0 : Nat)) = none := by
      rw [Int.natCast_zero, Int.add_zero]
      exact lineAt?_eq_none from'
    unfold findEndFrom? window?
    rw [from']
    dsimp only
    split
    case isTrue none => rw [none]; rfl
    case isFalse some =>
      obtain ⟨count, more⟩ := Nat.exists_eq_succ_of_ne_zero some
      rw [more, List.range_succ_eq_map, List.mapM_cons, missing]
      rfl

/-- A block comment is not closed by the star that opens it. -/
example : endInMasked? true (maskedText {} ["f() \x7b /*/ \x7d".toList, "*/ '\x7d' \x7d".toList]) =
    some 1 := by decide

end CodeSearch.Boundary
