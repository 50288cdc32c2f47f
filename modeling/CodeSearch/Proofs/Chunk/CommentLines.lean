import CodeSearch.Chunk.LeadingComments
import CodeSearch.Proofs.Text.Words
import Mathlib.Data.List.Basic

/-! # Reading comments back

The comment above a declaration is read upwards, line by line. Each line adds its text in front of
what was read below it, so a comment that was written there comes back with its lines in their
order, whatever was put between them that does not end a comment. Marks that are part of a text
stay: only those that open and close the line are taken off.
-/

namespace CodeSearch.LeadingComments

open Text

variable {family : CommentFamily} {line indentation text : List Char}
  {lines near far : List (List Char)}

/-! ## The kinds of lines -/

/-- A line that belongs to a comment: the marks of one stand in front. -/
def IsComment : CommentFamily → List Char → Prop
  | .slashes, line =>
    "//".toList <+: trim line ∨ "/*".toList <+: trim line ∨ "*".toList <+: trim line
  | .hash, line => "#".toList <+: trim line
  | .none, _ => False

/-- A line that may stand between a comment and its declaration: a blank one or, depending on the
marks, one of punctuation only or a decorator. -/
def IsSkipped : CommentFamily → List Char → Prop
  | .slashes, line => AreBlanks line ∨ ∀ c ∈ trim line, isPunctuation c = true
  | .hash, line => AreBlanks line ∨ "@".toList <+: trim line
  | .none, _ => False

instance : (family : CommentFamily) → (line : List Char) → Decidable (IsComment family line)
  | .slashes, _ => inferInstanceAs (Decidable (_ ∨ _ ∨ _))
  | .hash, line => inferInstanceAs (Decidable ("#".toList <+: trim line))
  | .none, _ => inferInstanceAs (Decidable False)

instance : (family : CommentFamily) → (line : List Char) → Decidable (IsSkipped family line)
  | .slashes, line =>
    haveI := List.decidableBAll (fun c => isPunctuation c = true) (trim line)
    inferInstanceAs (Decidable (_ ∨ _))
  | .hash, _ => inferInstanceAs (Decidable (_ ∨ _))
  | .none, _ => inferInstanceAs (Decidable False)

theorem isComment_of_meaning (means : meaning family line = .comment text) :
    IsComment family line := by
  cases family with
  | slashes =>
    change slashedLine (trim line) = _ at means
    unfold slashedLine at means
    split at means
    · next rest shape => exact .inl ⟨rest, shape.symm⟩
    · next rest shape => exact .inr (.inl ⟨rest, shape.symm⟩)
    · next rest shape => exact .inr (.inr ⟨rest, shape.symm⟩)
    · split at means <;> cases means
  | hash =>
    change hashedLine (trim line) = _ at means
    unfold hashedLine at means
    split at means
    · next rest shape => exact ⟨rest, shape.symm⟩
    all_goals cases means
  | none => cases means

theorem meaning_eq_between_iff : meaning family line = .between ↔ IsSkipped family line := by
  cases family with
  | slashes =>
    change slashedLine (trim line) = _ ↔ AreBlanks line ∨ ∀ c ∈ trim line, _
    rw [← trim_eq_nil_iff]
    generalize trim line = text
    unfold slashedLine
    split
    · simp [isPunctuation]
    · simp [isPunctuation]
    · simp [isPunctuation]
    · split
      · next only => simpa using .inr (List.all_eq_true.mp only)
      · next other =>
        simp only [reduceCtorEq, false_iff, not_or]
        refine ⟨?_, fun only => other (List.all_eq_true.mpr only)⟩
        rintro rfl
        exact other rfl
  | hash =>
    change hashedLine (trim line) = _ ↔ AreBlanks line ∨ "@".toList <+: trim line
    rw [← trim_eq_nil_iff]
    generalize trim line = text
    unfold hashedLine
    split
    · simp
    · simp
    · simp
    · next noHash some noMark =>
      simp only [reduceCtorEq, false_iff, not_or]
      refine ⟨some, ?_⟩
      rintro ⟨rest, rfl⟩
      exact noMark rest rfl
  | none => simp [meaning, IsSkipped]

/-- A line ends the comment below it just if it is neither part of a comment nor skipped. -/
theorem meaning_of_other (noComment : ¬ IsComment family line) (kept : ¬ IsSkipped family line) :
    meaning family line = .boundary := by
  cases means : meaning family line with
  | comment text => exact absurd (isComment_of_meaning means) noComment
  | between => exact absurd (meaning_eq_between_iff.mp means) kept
  | boundary => rfl

theorem meaning_indented (blanks : AreBlanks indentation) :
    meaning family (indentation ++ line) = meaning family line := by
  have trimmed : trim (indentation ++ line ++ []) = trim line :=
    trim_append blanks (by simp [AreBlanks])
  rw [List.append_nil] at trimmed
  cases family <;> simp only [meaning, trimmed]

/-! ## What lines add to a comment -/

/-- What a line adds to the comment in which it stands. -/
def told (family : CommentFamily) (line : List Char) : List (List Char) :=
  match meaning family line with
  | .comment text => if trim text = [] then [] else [trim text]
  | _ => []

theorem collect_cons (passes : meaning family line ≠ .boundary) :
    collect family (line :: far) = collect family far ++ told family line := by
  rw [collect, told]
  cases means : meaning family line with
  | comment text =>
    by_cases empty : trim text = []
    · simp [empty]
    · simp [empty]
  | between => simp
  | boundary => exact absurd means passes

/-- Lines that end no comment add their texts from top to bottom. -/
theorem collect_reverse_append (passes : ∀ line ∈ near, meaning family line ≠ .boundary) :
    collect family (near.reverse ++ far) = collect family far ++ near.flatMap (told family) := by
  induction near generalizing far with
  | nil => simp
  | cons line rest ih =>
    have passesRest : ∀ other ∈ rest, meaning family other ≠ .boundary :=
      fun other member => passes other (List.mem_cons_of_mem _ member)
    rw [List.reverse_cons, List.append_assoc, List.singleton_append, ih passesRest,
      collect_cons (passes line List.mem_cons_self), List.append_assoc, List.flatMap_cons]

/-- Nothing is collected from lines that are no comments. -/
theorem collect_eq_nil (plain : ∀ line ∈ lines, ¬ IsComment family line) :
    collect family lines = [] := by
  induction lines with
  | nil => rfl
  | cons line rest ih =>
    have others := ih fun other member => plain other (List.mem_cons_of_mem _ member)
    unfold collect
    cases means : meaning family line with
    | comment text => exact absurd (isComment_of_meaning means) (plain line List.mem_cons_self)
    | between => exact others
    | boundary => rfl

/-- Nothing is collected behind a line that ends the comment, nor where there are no lines. -/
theorem collect_take_of_other
    (ends : ∀ line ∈ far.head?, ¬ IsComment family line ∧ ¬ IsSkipped family line) (count : Nat) :
    collect family (far.take count) = [] := by
  cases far with
  | nil => rw [List.take_nil]; rfl
  | cons line rest =>
    cases count with
    | zero => rfl
    | succ count =>
      obtain ⟨noComment, kept⟩ := ends line rfl
      rw [List.take_succ_cons, collect, meaning_of_other noComment kept]

/-- Of the lines above a place only the nearest are read, as many as may be looked at. -/
theorem above?_eq (family : CommentFamily) (upper lower : List (List Char)) (lookback : Int) :
    above? family (upper ++ lower) upper.length lookback =
      some (collect family (upper.reverse.take lookback.toNat)) := by
  have window : linesAbove? (upper ++ lower) upper.length lookback =
      some (upper.reverse.take lookback.toNat) := by
    have count : (min (upper.length : Int) lookback).toNat = min upper.length lookback.toNat := by
      omega
    have inside : ¬ (upper ++ lower).length < upper.length := by
      rw [List.length_append]
      omega
    have whole : upper.reverse.take (min upper.length lookback.toNat) =
        upper.reverse.take lookback.toNat := by
      rw [List.take_eq_take_iff, List.length_reverse]
      omega
    simp only [linesAbove?, count, Int.toNat_natCast, if_neg inside, List.take_left, whole]
    split
    · next nothing => rw [← whole, nothing, List.take_zero]
    · rfl
  cases family with
  | none =>
    rw [collect_eq_nil fun line _ => id]
    rfl
  | slashes => exact congrArg (Option.map _) window
  | hash => exact congrArg (Option.map _) window

/-! ## Comments of several lines -/

/-- A way to write a comment of several lines. -/
inductive Style where
  /-- Two slashes in front of every line. -/
  | slashes
  /-- A block that opens and closes on lines of its own, with a star in front of every line. -/
  | block
  /-- A hash in front of every line. -/
  | hashes

namespace Style

/-- The marks of a style. -/
def marks : Style → CommentFamily
  | slashes | block => .slashes
  | hashes => .hash

/-- What stands in front of a text on its line. -/
def mark : Style → List Char
  | slashes => "// ".toList
  | block => " * ".toList
  | hashes => "# ".toList

def opening : Style → List (List Char)
  | block => ["/**".toList]
  | _ => []

def closing : Style → List (List Char)
  | block => [" */".toList]
  | _ => []

/-- The lines of a comment with given texts, from top to bottom. -/
def write (style : Style) (texts : List (List Char)) : List (List Char) :=
  style.opening ++ texts.map (style.mark ++ ·) ++ style.closing

/-- A text for one line of a comment. In a block it must not close the block. -/
structure Allows (style : Style) (text : List Char) : Prop where
  nonempty : text ≠ []
  trimmed : trim text = text
  inside : style = block → ¬ "*/".toList <:+ text

end Style

/-- The lines of a comment in their order, each behind an indentation, with skipped lines among
them. -/
inductive Interspersed (family : CommentFamily) :
    List (List Char) → List (List Char) → Prop
  | nil : Interspersed family [] []
  | own {indentation line : List Char} {own lines : List (List Char)}
      (blanks : AreBlanks indentation) (rest : Interspersed family own lines) :
      Interspersed family (line :: own) ((indentation ++ line) :: lines)
  | skipped {line : List Char} {own lines : List (List Char)} (skips : IsSkipped family line)
      (rest : Interspersed family own lines) : Interspersed family own (line :: lines)

/-- What a line of a comment adds shows in what it means. -/
theorem told_of_meaning (means : meaning family line = .comment text) :
    told family line = if trim text = [] then [] else [trim text] := by
  rw [told, means]

theorem Interspersed.flatMap_told {own lines : List (List Char)}
    (spread : Interspersed family own lines) :
    lines.flatMap (told family) = own.flatMap (told family) := by
  induction spread with
  | nil => rfl
  | own blanks rest ih =>
    rw [List.flatMap_cons, List.flatMap_cons, ih, told, meaning_indented blanks, told]
  | skipped skips rest ih =>
    rw [List.flatMap_cons, ih, told, meaning_eq_between_iff.mpr skips, List.nil_append]

theorem Interspersed.passes {own lines : List (List Char)}
    (spread : Interspersed family own lines)
    (passes : ∀ line ∈ own, meaning family line ≠ .boundary) :
    ∀ line ∈ lines, meaning family line ≠ .boundary := by
  induction spread with
  | nil => exact passes
  | own blanks rest ih =>
    obtain ⟨first, others⟩ := List.forall_mem_cons.mp passes
    exact List.forall_mem_cons.mpr ⟨(meaning_indented blanks).trans_ne first, ih others⟩
  | skipped skips rest ih =>
    refine List.forall_mem_cons.mpr ⟨?_, ih passes⟩
    rw [meaning_eq_between_iff.mpr skips]
    exact LineMeaning.noConfusion

private theorem trim_marked {c : Char} (mark : isBlank c = false) (front : List Char)
    (nonempty : text ≠ []) (trimmed : trim text = text) :
    trim (c :: front ++ text) = c :: front ++ text := by
  refine trim_eq_self_iff.mpr ⟨?_, ?_⟩
  · simpa using mark
  · have ends := List.getLast?_eq_some_getLast nonempty
    rw [List.getLast?_append, ends, Option.some_or, ← ends]
    exact (trim_eq_self_iff.mp trimmed).2

private theorem trimLeft_of_trim (trimmed : trim text = text) : trimLeft text = text :=
  trimLeft_eq_self_iff.mpr (trim_eq_self_iff.mp trimmed).1

/-- A text stays as it is unless it closes a block. -/
theorem dropClosing_of_inside (inside : ¬ "*/".toList <:+ text) : dropClosing text = text := by
  unfold dropClosing
  split
  · next before shape =>
    refine absurd ⟨before.reverse, ?_⟩ inside
    rw [← List.reverse_inj, shape, List.reverse_append, List.reverse_reverse]
    rfl
  · rfl

namespace Style

variable {style : Style} {texts : List (List Char)}

/-- The text of a line comes back from behind its mark. -/
theorem meaning_mark_append (allowed : style.Allows text) :
    meaning style.marks (style.mark ++ text) = .comment text := by
  obtain ⟨nonempty, trimmed, inside⟩ := allowed
  have left := trimLeft_of_trim trimmed
  cases style with
  | slashes =>
    change slashedLine (trim ('/' :: ['/', ' '] ++ text)) = _
    rw [trim_marked rfl _ nonempty trimmed]
    exact congrArg LineMeaning.comment left
  | block =>
    have indented : meaning .slashes ([' '] ++ ('*' :: [' '] ++ text)) =
        meaning .slashes ('*' :: [' '] ++ text) :=
      meaning_indented fun c member => List.mem_singleton.mp member ▸ rfl
    refine indented.trans ?_
    change slashedLine (trim ('*' :: [' '] ++ text)) = _
    rw [trim_marked rfl _ nonempty trimmed]
    change LineMeaning.comment (dropClosing (trimLeft text)) = _
    rw [left, dropClosing_of_inside (inside rfl)]
  | hashes =>
    change hashedLine (trim ('#' :: [' '] ++ text)) = _
    rw [trim_marked rfl _ nonempty trimmed]
    exact congrArg LineMeaning.comment left

/-- The lines on which a block opens and closes have no text. -/
theorem meaning_of_border (member : line ∈ style.opening ++ style.closing) :
    meaning style.marks line = .comment [] := by
  cases style with
  | block =>
    obtain rfl | rfl : line = "/**".toList ∨ line = " */".toList := by
      simpa [opening, closing] using member
    · rfl
    · rfl
  | _ => cases member

/-- Every line of a comment adds its own text. -/
theorem flatMap_told_write (allowed : ∀ text ∈ texts, style.Allows text) :
    (style.write texts).flatMap (told style.marks) = texts := by
  have border : ∀ line ∈ style.opening ++ style.closing, told style.marks line = [] := by
    intro line member
    rw [told_of_meaning (meaning_of_border member)]
    rfl
  obtain ⟨opens, closes⟩ := List.forall_mem_append.mp border
  have own : ∀ text ∈ texts, told style.marks (style.mark ++ text) = [text] := by
    intro text member
    obtain ⟨nonempty, trimmed, -⟩ := allowed text member
    rw [told_of_meaning (meaning_mark_append (allowed text member)), trimmed, if_neg nonempty]
  rw [write, List.flatMap_append, List.flatMap_append, List.flatMap_eq_nil_iff.mpr opens,
    List.flatMap_eq_nil_iff.mpr closes, List.flatMap_map, List.flatMap_congr own,
    List.flatMap_singleton', List.nil_append, List.append_nil]

theorem write_passes (allowed : ∀ text ∈ texts, style.Allows text) :
    ∀ line ∈ style.write texts, meaning style.marks line ≠ .boundary := by
  intro line member
  obtain ⟨text, means⟩ : ∃ text, meaning style.marks line = .comment text := by
    rw [write, List.append_assoc, List.mem_append, List.mem_append, or_left_comm] at member
    rcases member with own | border
    · obtain ⟨text, known, rfl⟩ := List.mem_map.mp own
      exact ⟨text, meaning_mark_append (allowed text known)⟩
    · exact ⟨[], meaning_of_border (List.mem_append.mpr border)⟩
  rw [means]
  exact LineMeaning.noConfusion

end Style

/-- A comment that is written above a line comes back with its texts from top to bottom, when it is
within reach and the line above it, if there is one, is neither part of a comment nor skipped. What
lies out of reach does not matter. -/
theorem written_comments_are_read_back :
    (∀ (style : Style) (texts written above below : List (List Char)) (lookback : Int),
      (∀ text ∈ texts, style.Allows text) → Interspersed style.marks (style.write texts) written →
      written.length ≤ lookback →
      (∀ line ∈ above.getLast?, ¬ IsComment style.marks line ∧ ¬ IsSkipped style.marks line) →
      above? style.marks (above ++ written ++ below) (above ++ written).length lookback =
        some texts) ∧
    ∀ (family : CommentFamily) (far far' near below below' : List (List Char)) (lookback : Int),
      lookback ≤ near.length →
      above? family (far ++ near ++ below) (far ++ near).length lookback =
        above? family (far' ++ near ++ below') (far' ++ near).length lookback := by
  constructor
  · intro style texts written above below lookback allowed spread within ends
    have behind : collect style.marks (above.reverse.take (lookback.toNat - written.length)) = [] :=
      collect_take_of_other (by simpa using ends) _
    rw [above?_eq, List.reverse_append, List.take_append,
      List.take_of_length_le (by rw [List.length_reverse]; omega), List.length_reverse,
      collect_reverse_append (spread.passes (Style.write_passes allowed)), behind,
      spread.flatMap_told, Style.flatMap_told_write allowed, List.nil_append]
  · intro family far far' near below below' lookback within
    have reach (far : List (List Char)) :
        (far ++ near).reverse.take lookback.toNat = near.reverse.take lookback.toNat := by
      rw [List.reverse_append, List.take_append_of_le_length]
      rw [List.length_reverse]
      omega
    rw [above?_eq, above?_eq, reach, reach]

/-- A block that just fits, with texts that begin with marks themselves and lines to skip in it. -/
theorem block_with_marked_texts_is_read_back :
    let texts := ["/ slashed".toList, "*starred".toList, "# hashed".toList]
    let written := ["  ".toList ++ "/**".toList, "  ".toList ++ " * / slashed".toList, [],
      " * *starred".toList, "  \x7d;".toList, "\t".toList ++ " * # hashed".toList, " */".toList,
      " ".toList]
    (∀ text ∈ texts, Style.block.Allows text) ∧
      Interspersed .slashes (Style.block.write texts) written ∧
      above? .slashes (["// far".toList, "run();".toList] ++ written ++ ["f() \x7b".toList]) 10 8 =
        some texts ∧
      above? .slashes (["// far".toList, "run();".toList] ++ written ++ ["f() \x7b".toList]) 10 8 =
        above? .slashes (["// near".toList] ++ written ++ []) 9 8 := by
  intro texts written
  have allowed : ∀ text ∈ texts, Style.block.Allows text := by
    intro text member
    obtain rfl | rfl | rfl : text = "/ slashed".toList ∨ text = "*starred".toList ∨
        text = "# hashed".toList := by simpa [texts] using member
    all_goals exact ⟨by decide, by decide, fun _ => by decide⟩
  have none : AreBlanks [] := by decide
  have spread : Interspersed .slashes (Style.block.write texts) written :=
    .own (by decide) (.own (by decide) (.skipped (by decide) (.own none
      (.skipped (by decide) (.own (by decide) (.own none
        (.skipped (by decide) .nil)))))))
  have ends : ¬ IsComment .slashes "run();".toList ∧ ¬ IsSkipped .slashes "run();".toList := by
    decide
  obtain ⟨reads, forgets⟩ := written_comments_are_read_back
  refine ⟨allowed, spread, reads .block texts written _ _ 8 allowed spread (by decide) ?_,
    forgets .slashes _ _ written _ _ 8 (by decide)⟩
  intro line last
  obtain rfl := Option.mem_some_iff.mp last
  exact ends

/-! ## Comments of one line -/

/-- A comment that opens and closes on one line, with more stars than it takes. -/
def oneLine (opening closing : Nat) (body : List Char) : List Char :=
  "/*".toList ++ List.replicate opening '*' ++ body ++ List.replicate closing '*' ++ "*/".toList

theorem dropStars_cons {c : Char} (other : c ≠ '*') (rest : List Char) :
    dropStars (c :: rest) = c :: rest :=
  List.dropWhile_cons_of_neg (by simpa using other)

theorem dropStars_replicate_append (count : Nat) (rest : List Char) :
    dropStars (List.replicate count '*' ++ rest) = dropStars rest :=
  List.dropWhile_append_of_pos fun c member => by simp [List.eq_of_mem_replicate member]

/-- Only what stands between the stars is left in front of the end of a block. -/
theorem dropClosing_append (plain : '*' ∉ text) (count : Nat) :
    dropClosing (text ++ List.replicate count '*' ++ "*/".toList) = trimRight text := by
  have turned : (text ++ List.replicate count '*' ++ "*/".toList).reverse =
      '/' :: '*' :: (List.replicate count '*' ++ text.reverse) := by
    simp
  have own : dropStars text.reverse = text.reverse := by
    refine List.dropWhile_eq_self_iff.mpr fun some star => plain ?_
    rw [← List.mem_reverse, ← beq_iff_eq.mp star]
    exact List.getElem_mem some
  simp only [dropClosing, turned, dropStars_replicate_append, own, trimRight]

/-- Blanks in front of the stars that close a comment are taken off as those in front of its end. -/
theorem trimLeft_append_stars (text : List Char) (count : Nat) :
    trimLeft (text ++ List.replicate count '*' ++ "*/".toList) =
      trimLeft text ++ List.replicate count '*' ++ "*/".toList := by
  have starred : trimLeft (List.replicate count '*' ++ "*/".toList) =
      List.replicate count '*' ++ "*/".toList := by
    refine trimLeft_eq_self_iff.mpr ?_
    cases count <;> simp [List.replicate_succ] <;> rfl
  rw [List.append_assoc, trimLeft, List.dropWhile_append, ← trimLeft, ← trimLeft, starred,
    List.append_assoc]
  split
  · next none => rw [List.isEmpty_iff.mp none, List.nil_append]
  · rfl

/-- What stands between the stars is the text of the comment. Where nothing does, the stars that
open it take along those that close it, and its slash is left. -/
theorem meaning_oneLine (opening closing : Nat) {body : List Char} (plain : '*' ∉ body) :
    meaning .slashes (oneLine opening closing body) =
      .comment (if body = [] then ['/'] else trim body) := by
  have trimmed : trim (oneLine opening closing body) = oneLine opening closing body := by
    have first : (oneLine opening closing body).head? = some '/' := rfl
    have last : (oneLine opening closing body).getLast? = some '/' := by
      rw [oneLine, List.getLast?_append]
      rfl
    rw [trim_eq_self_iff, first, last]
    simp only [Option.mem_def, Option.some.injEq, forall_eq', and_self]
    rfl
  change slashedLine (trim (oneLine opening closing body)) = _
  rw [trimmed]
  change LineMeaning.comment (dropClosing (trimLeft (dropStars
    (List.replicate opening '*' ++ body ++ List.replicate closing '*' ++ "*/".toList)))) = _
  rw [List.append_assoc, List.append_assoc, dropStars_replicate_append]
  refine congrArg LineMeaning.comment ?_
  cases body with
  | nil =>
    rw [List.nil_append, dropStars_replicate_append]
    rfl
  | cons c rest =>
    have other : c ≠ '*' := fun same => plain (same ▸ List.mem_cons_self)
    have inner : '*' ∉ trimLeft (c :: rest) :=
      fun member => plain ((List.dropWhile_sublist _).subset member)
    rw [List.cons_append, dropStars_cons other, ← List.cons_append, ← List.append_assoc,
      trimLeft_append_stars, dropClosing_append inner, ← trim, if_neg (List.cons_ne_nil c rest)]

/-- A comment on the line above a declaration gives its body as the only text, when no other
comment lies within reach. Of a comment without a body the closing slash is taken for its text. -/
theorem one_line_comments_give_their_body (opening closing : Nat)
    (indentation body : List Char) (above below : List (List Char)) (lookback : Int)
    (blanks : AreBlanks indentation) (plain : '*' ∉ body) (near : 1 ≤ lookback)
    (alone : ∀ line ∈ above.reverse.take (lookback - 1).toNat, ¬ IsComment .slashes line) :
    let line := indentation ++ oneLine opening closing body
    (body ≠ [] → above? .slashes (above ++ [line] ++ below) (above ++ [line]).length lookback =
      some (if AreBlanks body then [] else [trim body])) ∧
    (body = [] → above? .slashes (above ++ [line] ++ below) (above ++ [line]).length lookback =
      some ["/".toList]) := by
  intro line
  have means : meaning .slashes line = .comment (if body = [] then ['/'] else trim body) :=
    (meaning_indented blanks).trans (meaning_oneLine opening closing plain)
  have passes : meaning .slashes line ≠ .boundary := means.trans_ne LineMeaning.noConfusion
  obtain ⟨count, rfl⟩ : ∃ count : Nat, lookback = count + 1 := ⟨(lookback - 1).toNat, by omega⟩
  have reads : above? .slashes (above ++ [line] ++ below) (above ++ [line]).length (count + 1) =
      some (told .slashes line) := by
    have within : ((count : Int) + 1).toNat = count + 1 := by omega
    rw [above?_eq, within, List.reverse_concat, List.take_succ_cons, collect_cons passes,
      collect_eq_nil (by simpa using alone), List.nil_append]
  rw [reads, told_of_meaning means]
  constructor
  · intro some
    simp only [if_neg some, trim_trim, trim_eq_nil_iff]
  · intro none
    rw [if_pos none]
    rfl

/-- Stars in plenty around a body with slashes, below a blank line. -/
theorem body_with_slashes_is_given :
    let line := "\t".toList ++ oneLine 1 2 "//b/ ".toList
    (∀ line ∈ ["int a;".toList, []].reverse.take 9, ¬ IsComment .slashes line) ∧
      line = "\t/**//b/ ***/".toList ∧
      above? .slashes (["int a;".toList, []] ++ [line] ++ ["f() \x7b".toList]) 3 10 =
        some ["//b/".toList] := by
  intro line
  have alone : ∀ line ∈ ["int a;".toList, []].reverse.take 9, ¬ IsComment .slashes line := by
    decide
  exact ⟨alone, by decide, (one_line_comments_give_their_body 1 2 "\t".toList "//b/ ".toList _ _ 10
    (by decide) (by decide) (by decide) alone).1 (by decide)⟩

theorem empty_comment_gives_its_slash :
    above? .slashes ["/**/".toList, "f() \x7b\x7d".toList] 1 10 = some ["/".toList] ∧
      "/**/".toList = [] ++ oneLine 0 0 [] := by
  decide

end CodeSearch.LeadingComments
