import CodeSearch.Chunk.Boundary

/-! # The live text of a declaration

The live characters of a text are those that stand neither in a literal nor in a comment. Which ones
these are is said here by lexical rules alone, and where a declaration ends is said by counting in
the live text alone. The scanner, which does both in one pass, agrees with this.
-/

namespace CodeSearch.Boundary

/-! ## Live characters -/

/-- What a character is by the lexical rules. -/
inductive Reading where
  | live
  /-- It belongs to a literal or a comment, with so many characters behind it, and what follows them
  is surrounded in this way. -/
  | hidden (further : Nat) (next : Surrounding)
  /-- It opens a comment that takes the rest of the line. -/
  | comment

/-- The lexical rules. A quote behind a backslash neither opens nor closes a literal. In code, marks
of the comment family open comments. Where single quotes are only for characters, one is ordinary
text unless it opens a whole character literal. -/
def read (lexis : Lexis) (inside : Surrounding) (escaped : Bool) (c : Char) (rest : List Char) :
    Reading :=
  match inside with
  | .quoted mark => .hidden 0 (if c = mark ∧ escaped = false then .code else .quoted mark)
  | .blockComment =>
    if c = '*' ∧ rest.head? = some '/' then .hidden 1 .code else .hidden 0 .blockComment
  | .code =>
    if c = '\'' ∧ lexis.quotesOnlyChars = true then
      match charLiteralLength? rest with
      | some length => .hidden length .code
      | none => .live
    else if isQuote c = true ∧ escaped = false then .hidden 0 (.quoted c)
    else if opensLineComment lexis.family c rest = true then .comment
    else if opensBlockComment lexis.family c rest = true then .hidden 1 .blockComment
    else .live

/-- The live characters of the rest of a line and what surrounds its end. `before` is the character
in front of the rest, and its first `further` characters are hidden. -/
def liveRest (lexis : Lexis) (further : Nat) (before : Option Char) (inside : Surrounding) :
    List Char → List Char × Surrounding
  | [] => ([], inside)
  | c :: rest =>
    match further with
    | further + 1 => liveRest lexis further (some c) inside rest
    | 0 =>
      match read lexis inside (before == some '\\') c rest with
      | .live =>
        let (live, after) := liveRest lexis 0 (some c) inside rest
        (c :: live, after)
      | .hidden further next => liveRest lexis further (some c) next rest
      | .comment => ([], inside)

/-- What surrounds the start of a line, given what surrounds the end of the line before it: where
slashes mark comments, single and double quotes end with their line. -/
def carriedOver (family : CommentFamily) (inside : Surrounding) : Surrounding :=
  if family = .slashes ∧ (inside = .quoted '"' ∨ inside = .quoted '\'') then .code else inside

/-- The live characters of consecutive lines, each with the number of its line. -/
def liveText (lexis : Lexis) (inside : Surrounding) (number : Nat) :
    List (List Char) → List (Nat × Char)
  | [] => []
  | line :: rest =>
    let (live, after) := liveRest lexis 0 none inside line
    live.map (number, ·) ++ liveText lexis (carriedOver lexis.family after) (number + 1) rest

/-- What surrounds the line behind consecutive lines. -/
def surroundingAfter (lexis : Lexis) (inside : Surrounding) : List (List Char) → Surrounding
  | [] => inside
  | line :: rest =>
    surroundingAfter lexis (carriedOver lexis.family (liveRest lexis 0 none inside line).2) rest

theorem surroundingAfter_append (lexis : Lexis) (inside : Surrounding)
    (first second : List (List Char)) :
    surroundingAfter lexis inside (first ++ second) =
      surroundingAfter lexis (surroundingAfter lexis inside first) second := by
  induction first generalizing inside with
  | nil => rfl
  | cons line first ih => exact ih _

theorem le_of_mem_liveText {lexis : Lexis} {inside : Surrounding} {number : Nat}
    {lines : List (List Char)} {x : Nat × Char} (mem : x ∈ liveText lexis inside number lines) :
    number ≤ x.1 := by
  induction lines generalizing inside number with
  | nil => cases mem
  | cons line lines ih =>
    obtain mem | mem := List.mem_append.1 mem
    · obtain ⟨c, -, rfl⟩ := List.mem_map.1 mem
      exact Nat.le_refl _
    · exact Nat.le_of_succ_le (ih mem)

theorem pairwise_liveText (lexis : Lexis) (inside : Surrounding) (number : Nat)
    (lines : List (List Char)) : (liveText lexis inside number lines).Pairwise (·.1 ≤ ·.1) := by
  induction lines generalizing inside number with
  | nil => exact .nil
  | cons line lines ih =>
    refine List.pairwise_append.2 ⟨?_, ih _ _, fun x above y below => ?_⟩
    · exact List.pairwise_map.2 (List.pairwise_of_forall fun _ _ => Nat.le_refl _)
    · obtain ⟨c, -, rfl⟩ := List.mem_map.1 above
      exact Nat.le_of_succ_le (le_of_mem_liveText below)

/-- The live text of the first lines is what the live text has on these lines. -/
theorem liveText_take (lexis : Lexis) (inside : Surrounding) (number count : Nat)
    (lines : List (List Char)) :
    liveText lexis inside number (lines.take count) =
      (liveText lexis inside number lines).filter (·.1 < number + count) := by
  induction lines generalizing inside number count with
  | nil => simp [liveText]
  | cons line lines ih =>
    cases count with
    | zero =>
      refine (List.filter_eq_nil_iff.2 fun x mem => ?_).symm
      simpa using le_of_mem_liveText mem
    | succ count =>
      simp only [List.take_succ_cons, liveText, List.filter_append, ih]
      congr 1
      · exact (List.filter_eq_self.2 (by simp)).symm
      · simp only [Nat.add_assoc, Nat.add_comm 1]

/-! ## Counting -/

/-- How many more characters of one kind a text has than of another. -/
def excess (opening closing : Char) (text : List Char) : Int :=
  text.count opening - text.count closing

theorem excess_append (opening closing : Char) (first second : List Char) :
    excess opening closing (first ++ second) =
      excess opening closing first + excess opening closing second := by
  simp only [excess, List.count_append]
  omega

/-- A closing brace that follows a text leaves nothing open. -/
def ClosesAll (countParens : Bool) (text : List Char) : Prop :=
  '{' ∈ text ∧ excess '{' '}' text = 1 ∧ (countParens = true → excess '(' ')' text = 0)

instance (countParens : Bool) (text : List Char) : Decidable (ClosesAll countParens text) :=
  inferInstanceAs (Decidable (_ ∧ _ ∧ _))

/-- The line of the first closing brace that leaves nothing open, given the text in front. -/
def firstClose (countParens : Bool) (before : List Char) : List (Nat × Char) → Option Nat
  | [] => none
  | (line, c) :: rest =>
    if c = '}' ∧ ClosesAll countParens before then some line
    else firstClose countParens (before ++ [c]) rest

theorem exists_mem_of_firstClose {countParens : Bool} {before : List Char} {line : Nat}
    {text : List (Nat × Char)} (found : firstClose countParens before text = some line) :
    ∃ x ∈ text, x.1 = line := by
  induction text generalizing before with
  | nil => cases found
  | cons x text ih =>
    rw [firstClose] at found
    split at found
    case isTrue => exact ⟨x, List.mem_cons_self, by simpa using found⟩
    case isFalse =>
      obtain ⟨y, mem, eq⟩ := ih found
      exact ⟨y, List.mem_cons_of_mem _ mem, eq⟩

/-- A text is passed over if it closes no declaration. -/
theorem firstClose_append {countParens : Bool} {before : List Char} {front : List (Nat × Char)}
    (open' : ∀ text, text ++ ['}'] <+: front.map Prod.snd →
      ¬ClosesAll countParens (before ++ text)) (rest : List (Nat × Char)) :
    firstClose countParens before (front ++ rest) =
      firstClose countParens (before ++ front.map Prod.snd) rest := by
  induction front generalizing before with
  | nil => simp
  | cons x front ih =>
    have stays : ¬(x.2 = '}' ∧ ClosesAll countParens before) := by
      rintro ⟨brace, closes⟩
      exact open' [] ⟨front.map Prod.snd, by simp [brace]⟩ (by simpa using closes)
    rw [List.cons_append, firstClose, if_neg stays, ih fun text shorter => ?_, List.map_cons,
      List.append_assoc, List.singleton_append]
    rw [List.append_assoc]
    exact open' (x.2 :: text) (by simpa using shorter)

/-- What stands below a line has no say in a closing brace above it. -/
theorem firstClose_filter_lt (countParens : Bool) (before : List Char) (bound : Nat)
    {text : List (Nat × Char)} (ordered : text.Pairwise (·.1 ≤ ·.1)) :
    firstClose countParens before (text.filter (·.1 < bound)) =
      (firstClose countParens before text).filter (· < bound) := by
  induction text generalizing before with
  | nil => rfl
  | cons x text ih =>
    obtain ⟨least, ordered⟩ := List.pairwise_cons.1 ordered
    by_cases above : x.1 < bound
    · rw [List.filter_cons_of_pos (by simpa using above), firstClose, firstClose]
      split
      case isTrue => exact (Option.filter_some_pos (by simpa using above)).symm
      case isFalse => exact ih _ ordered
    · -- From here on the text lies below the bound, and so does what it closes.
      have below : ∀ y ∈ x :: text, ¬ y.1 < bound := by
        simp only [List.forall_mem_cons]
        exact ⟨above, fun y mem => fun h => above (Nat.lt_of_le_of_lt (least y mem) h)⟩
      rw [List.filter_eq_nil_iff.2 (by simpa using below)]
      refine (Option.filter_eq_none_iff.2 fun line found => ?_).symm
      obtain ⟨y, mem, rfl⟩ := exists_mem_of_firstClose found
      simpa using below y mem

/-! ## The scanner counts in the live text -/

/-- A scan has counted a text. -/
structure HasCounted (countParens : Bool) (text : List Char) (scan : Scan) : Prop where
  braces : scan.braces = excess '{' '}' text
  parens : scan.parens = if countParens then excess '(' ')' text else 0
  opened : scan.opened = true ↔ '{' ∈ text

variable {countParens : Bool} {before : List Char} {scan : Scan}

theorem hasCounted_start (countParens : Bool) : HasCounted countParens [] {} :=
  ⟨rfl, by cases countParens <;> rfl, by simp⟩

/-- What surrounds a scan is of no account. -/
theorem HasCounted.move (counted : HasCounted countParens before scan) (inside : Surrounding) :
    HasCounted countParens before { scan with inside } :=
  ⟨counted.braces, counted.parens, counted.opened⟩

private theorem excess_singleton (opening closing c : Char) :
    excess opening closing [c] =
      (if c = opening then 1 else 0) - (if c = closing then 1 else 0) := by
  simp only [excess, List.count_singleton, beq_iff_eq]
  split <;> split <;> rfl

private theorem HasCounted.append (counted : HasCounted countParens before scan) {c : Char}
    {scan' : Scan}
    (braces : scan'.braces =
      scan.braces + ((if c = '{' then 1 else 0) - (if c = '}' then 1 else 0)))
    (parens : scan'.parens = scan.parens +
      if countParens = true then (if c = '(' then 1 else 0) - (if c = ')' then 1 else 0) else 0)
    (opened : scan'.opened = true ↔ scan.opened = true ∨ c = '{') :
    HasCounted countParens (before ++ [c]) scan' where
  braces := by rw [excess_append, excess_singleton, braces, counted.braces]
  parens := by
    rw [excess_append, excess_singleton, parens, counted.parens]
    split <;> simp
  opened := by rw [opened, counted.opened, List.mem_append, List.mem_singleton, eq_comm (a := c)]

private theorem HasCounted.closesAll_iff (counted : HasCounted countParens before scan) :
    ClosesAll countParens before ↔
      (scan.opened && scan.braces - 1 == 0 && scan.parens == 0) = true := by
  rw [ClosesAll, counted.braces, counted.parens, ← counted.opened]
  cases countParens <;> simp [Int.sub_eq_zero, and_assoc]

/-- A live character either ends the declaration or is counted. -/
theorem HasCounted.count (counted : HasCounted countParens before scan) (c : Char) :
    (c = '}' ∧ ClosesAll countParens before) ∧ count countParens scan c = .closed ∨
      ¬(c = '}' ∧ ClosesAll countParens before) ∧
        ∃ scan', count countParens scan c = .goOn 0 scan' ∧ scan'.inside = scan.inside ∧
          HasCounted countParens (before ++ [c]) scan' := by
  rw [counted.closesAll_iff]
  unfold Boundary.count
  by_cases closing : c = '}'
  · subst closing
    simp only [Char.reduceEq, decide_false, Bool.false_and, Bool.false_eq_true, if_false, if_true,
      true_and]
    split
    case isTrue all => exact .inl ⟨all, rfl⟩
    case isFalse all =>
      exact .inr ⟨all, _, rfl, rfl, counted.append (by simp; rfl) (by simp) (by simp)⟩
  · refine .inr ⟨fun ⟨h, _⟩ => closing h, ?_⟩
    split
    case isTrue h =>
      obtain ⟨rfl, rfl⟩ : c = '(' ∧ countParens = true := by simpa using h
      exact ⟨_, rfl, rfl, counted.append (by simp) (by simp) (by simp)⟩
    case isFalse noOpening =>
    split
    case isTrue h =>
      obtain ⟨rfl, rfl⟩ : c = ')' ∧ countParens = true := by simpa using h
      exact ⟨_, rfl, rfl, counted.append (by simp) (by simp; rfl) (by simp)⟩
    case isFalse noClosing =>
    split
    case isTrue h =>
      subst h
      exact ⟨_, rfl, rfl, counted.append (by simp) (by simp) (by simp)⟩
    case isFalse noBrace =>
      refine ⟨_, rfl, rfl, counted.append ?_ ?_ ?_⟩
      · simp [noBrace, closing]
      · cases countParens <;> simp_all
      · simp [noBrace]

/-- The scanner tells live characters by the lexical rules. -/
theorem react_eq (lexis : Lexis) (countParens escaped : Bool) (scan : Scan) (c : Char)
    (rest : List Char) :
    react lexis countParens escaped scan c rest =
      match read lexis scan.inside escaped c rest with
      | .live => count countParens scan c
      | .hidden further next => .goOn further { scan with inside := next }
      | .comment => .commented := by
  obtain ⟨inside, braces, parens, opened⟩ := scan
  cases inside with
  | quoted mark =>
    simp only [react, read, Bool.and_eq_true, decide_eq_true_eq, Bool.not_eq_true']
    split <;> rfl
  | blockComment =>
    simp only [react, read, Bool.and_eq_true, decide_eq_true_eq, beq_iff_eq]
    split <;> rfl
  | code =>
    simp only [react, read, reactInCode]
    by_cases chars : c = '\'' ∧ lexis.quotesOnlyChars = true
    · obtain ⟨rfl, only⟩ := chars
      cases literal : charLiteralLength? rest <;> simp [only, count]
    · rw [if_neg chars, if_neg (by simpa using chars)]
      by_cases quote : isQuote c = true ∧ escaped = false
      · rw [if_pos quote, if_pos (by simpa using quote)]
      · rw [if_neg quote, if_neg (by simpa using quote)]
        split
        · rfl
        · split <;> rfl

/-- Scanning a line reads its live characters. -/
theorem scanLine_reads (lexis : Lexis) (further : Nat) (previous : Option Char)
    (counted : HasCounted countParens before scan) (number : Nat) (text : List Char) :
    (scanLine lexis countParens further previous scan text = none ∧
      ∀ rest, firstClose countParens before
        ((liveRest lexis further previous scan.inside text).1.map (number, ·) ++ rest) =
          some number) ∨
    ∃ scan', scanLine lexis countParens further previous scan text = some scan' ∧
      scan'.inside = (liveRest lexis further previous scan.inside text).2 ∧
      HasCounted countParens
        (before ++ (liveRest lexis further previous scan.inside text).1) scan' ∧
      ∀ rest, firstClose countParens before
        ((liveRest lexis further previous scan.inside text).1.map (number, ·) ++ rest) =
          firstClose countParens
            (before ++ (liveRest lexis further previous scan.inside text).1) rest := by
  -- The text in front grows by the live characters, and the scan has counted it all along.
  induction text generalizing further previous before scan with
  | nil => exact .inr ⟨scan, rfl, rfl, by simpa [liveRest] using counted, by simp [liveRest]⟩
  | cons c text ih =>
    cases further with
    | succ further => exact ih further (some c) counted
    | zero =>
      rw [scanLine, liveRest, react_eq]
      cases reading : read lexis scan.inside (previous == some '\\') c text with
      | hidden further next =>
        exact ih further (some c) (counted.move next)
      | comment => exact .inr ⟨scan, rfl, rfl, by simpa using counted, by simp⟩
      | live =>
        obtain ⟨closes, reaction⟩ | ⟨stays, next, reaction, inside, counted'⟩ := counted.count c
        · exact .inl ⟨by simp [reaction], fun rest => by simp [firstClose, closes]⟩
        · have goesOn := ih 0 (some c) counted'
          simp only [inside] at goesOn
          simp only [reaction, List.map_cons, List.cons_append, firstClose, if_neg stays]
          simpa only [List.append_assoc, List.singleton_append] using goesOn

theorem endLine_eq (family : CommentFamily) (scan : Scan) :
    endLine family scan = { scan with inside := carriedOver family scan.inside } := by
  unfold endLine carriedOver
  split <;> rfl

/-- Scanning lines finds the first closing brace of their live text that leaves nothing open. -/
theorem scanLines_reads (lexis : Lexis) (counted : HasCounted countParens before scan)
    (number : Nat) (lines : List (List Char)) :
    (scanLines lexis countParens scan lines).map (number + ·) =
      firstClose countParens before (liveText lexis scan.inside number lines) := by
  induction lines generalizing before scan number with
  | nil => rfl
  | cons line lines ih =>
    rw [scanLines, liveText]
    obtain ⟨scanned, closes⟩ | ⟨scan', scanned, inside, counted', goesOn⟩ :=
      scanLine_reads lexis 0 none counted number line
    · simp [scanned, closes]
    · simp only [scanned, goesOn, ← inside]
      rw [endLine_eq, ← ih (counted'.move _)]
      simp only [Option.map_map]
      congr 1
      funext line
      simp; omega

/-- A declaration ends on a line that is scanned. -/
theorem scanLines_lt {lexis : Lexis} {lines : List (List Char)} {last : Nat}
    (found : scanLines lexis countParens scan lines = some last) : last < lines.length := by
  induction lines generalizing scan last with
  | nil => cases found
  | cons line rest ih =>
    rw [scanLines] at found
    split at found
    · cases found
      exact Nat.succ_pos _
    · obtain ⟨later, ends, rfl⟩ := Option.map_eq_some_iff.mp found
      exact Nat.succ_lt_succ (ih ends)

theorem length_linesFrom? {lines below : List (List Char)} {start : Int}
    (from' : linesFrom? lines start = some below) :
    below.length = (lines.length - start).toNat := by
  unfold linesFrom? at from'
  split at from'
  · cases from'; simp; omega
  · split at from'
    · cases from'
    · cases from'; simp; omega

/-- No more lines follow a place than the list has. -/
theorem take_linesFrom? (maxLines : Int) {lines below : List (List Char)} {start : Int}
    (from' : linesFrom? lines start = some below) :
    below.take (min (start + maxLines) lines.length - start).toNat = below.take maxLines.toNat := by
  rw [List.take_eq_take_iff, length_linesFrom? from']
  omega

/-- What is scanned is the first of the lines from the place on. -/
theorem findEndFrom?_eq_scanLines (lexis : Lexis) (countParens : Bool) (maxLines : Int)
    {lines below : List (List Char)} {start : Int}
    (from' : linesFrom? lines start = some below) :
    findEndFrom? lexis countParens maxLines lines start =
      some ((scanLines lexis countParens {} (below.take maxLines.toNat)).map
        fun line : Nat => start + line) := by
  unfold findEndFrom?
  rw [from', ← take_linesFrom? maxLines from']
  dsimp only
  split
  case isTrue none => rw [none, List.take_zero]; rfl
  case isFalse =>
    rw [Option.map_some]
    cases scanLines lexis countParens {} _ <;> rfl

/-- From a line on, the two searches for the end of a declaration are one. -/
theorem findEndFrom?_natCast (lexis : Lexis) (countParens : Bool) (maxLines : Int)
    (lines : List (List Char)) (start : Nat) :
    findEndFrom? lexis countParens maxLines lines start =
      some ((findEnd? lexis countParens maxLines lines start).map fun line : Nat => (line : Int)) := by
  have from' : linesFrom? lines start = some (lines.drop start) := by simp [linesFrom?]
  rw [findEndFrom?_eq_scanLines lexis countParens maxLines from', findEnd?, Option.map_map]
  rfl

/-- The end of a declaration is where its live text closes, if that is one of the first lines. -/
theorem findEndFrom?_eq (lexis : Lexis) (countParens : Bool) (maxLines : Int)
    {lines below : List (List Char)} {start : Int}
    (from' : linesFrom? lines start = some below) :
    findEndFrom? lexis countParens maxLines lines start =
      some (((firstClose countParens [] (liveText lexis .code 0 below)).filter
        (· < maxLines.toNat)).map fun line : Nat => start + line) := by
  have reads := scanLines_reads lexis (hasCounted_start countParens) 0 (below.take maxLines.toNat)
  rw [liveText_take, firstClose_filter_lt _ _ _ (pairwise_liveText ..)] at reads
  simp only [Nat.zero_add, Option.map_id'] at reads
  rw [findEndFrom?_eq_scanLines lexis countParens maxLines from', reads]

end CodeSearch.Boundary
