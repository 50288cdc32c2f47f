import CodeSearch.Text.Class

/-! # Cutting and joining texts

Lines end at line feeds only, words are what stands between blanks, and cuts take bounds that count
from the end when they are negative.
-/

namespace CodeSearch.Text

/-- Cuts at every character that is marked, which is left out. There is always one piece. -/
def splitAt (marked : Char → Bool) : List Char → List (List Char)
  | [] => [[]]
  | c :: rest =>
    if marked c then [] :: splitAt marked rest
    else
      match splitAt marked rest with
      | [] => [[c]]
      | piece :: pieces => (c :: piece) :: pieces

theorem splitAt_ne_nil (marked : Char → Bool) (text : List Char) : splitAt marked text ≠ [] := by
  cases text with
  | nil => simp [splitAt]
  | cons c rest =>
    unfold splitAt
    split
    · simp
    · split <;> simp

/-- A mark separates the pieces in front of it from those behind it. -/
theorem splitAt_append (marked : Char → Bool) (first second : List Char) (c : Char)
    (mark : marked c = true) :
    splitAt marked (first ++ c :: second) = splitAt marked first ++ splitAt marked second := by
  induction first with
  | nil => simp [splitAt, mark]
  | cons d rest ih =>
    by_cases cuts : marked d = true
    · simp [splitAt, cuts, ih]
    · simp only [List.cons_append, splitAt, cuts, Bool.false_eq_true, if_false, ih]
      cases pieces : splitAt marked rest with
      | nil => exact absurd pieces (splitAt_ne_nil marked rest)
      | cons piece more => rfl

theorem splitAt_of_unmarked (marked : Char → Bool) (text : List Char)
    (unmarked : ∀ c ∈ text, marked c = false) : splitAt marked text = [text] := by
  induction text with
  | nil => rfl
  | cons c rest ih =>
    have here : marked c = false := unmarked c List.mem_cons_self
    have later := ih fun d member => unmarked d (List.mem_cons_of_mem _ member)
    simp [splitAt, here, later]

/-- A text is cut at its last mark in one way only. -/
theorem append_mark_injective {mark : Char} {first second last last' : List Char}
    (free : mark ∉ last) (free' : mark ∉ last')
    (same : first ++ mark :: last = second ++ mark :: last') : first = second ∧ last = last' := by
  rcases List.append_eq_append_iff.mp same with ⟨middle, rfl, tail⟩ | ⟨middle, rfl, tail⟩
  · cases middle with
    | nil => exact ⟨(List.append_nil first).symm, (List.cons.inj tail).2⟩
    | cons c rest =>
      obtain ⟨-, rfl⟩ := List.cons.inj tail
      exact absurd (List.mem_append_right rest List.mem_cons_self) free
  · cases middle with
    | nil => exact ⟨List.append_nil second, (List.cons.inj tail).2.symm⟩
    | cons c rest =>
      obtain ⟨-, rfl⟩ := List.cons.inj tail
      exact absurd (List.mem_append_right rest List.mem_cons_self) free'

/-- No piece holds a marked character. -/
theorem marked_eq_false_of_mem_splitAt (marked : Char → Bool) (text piece : List Char)
    (member : piece ∈ splitAt marked text) : ∀ c ∈ piece, marked c = false := by
  induction text generalizing piece with
  | nil =>
    rw [splitAt, List.mem_singleton] at member
    simp [member]
  | cons d rest ih =>
    by_cases cuts : marked d = true
    · simp only [splitAt, cuts, if_true, List.mem_cons] at member
      rcases member with rfl | member
      · simp
      · exact ih piece member
    · simp only [splitAt, cuts, Bool.false_eq_true, if_false] at member
      cases pieces : splitAt marked rest with
      | nil => exact absurd pieces (splitAt_ne_nil marked rest)
      | cons first more =>
        rw [pieces] at member
        rw [pieces] at ih
        rcases List.mem_cons.mp member with rfl | member
        · intro c inside
          rcases List.mem_cons.mp inside with rfl | inside
          · simpa using cuts
          · exact ih first List.mem_cons_self c inside
        · exact ih piece (List.mem_cons_of_mem _ member)

/-- The lines of a text: what stands between its line feeds. -/
def lines (text : List Char) : List (List Char) := splitAt (· == '\n') text

/-- The pieces with a separator between every two. -/
def joinWith (separator : List Char) : List (List Char) → List Char
  | [] => []
  | [piece] => piece
  | piece :: rest => piece ++ separator ++ joinWith separator rest

theorem joinWith_cons (separator piece : List Char) (rest : List (List Char))
    (more : rest ≠ []) :
    joinWith separator (piece :: rest) = piece ++ separator ++ joinWith separator rest := by
  cases rest with
  | nil => exact absurd rfl more
  | cons next rest => rfl

theorem joinWith_append (separator : List Char) (first second : List (List Char)) (some : first ≠ [])
    (more : second ≠ []) :
    joinWith separator (first ++ second) =
      joinWith separator first ++ separator ++ joinWith separator second := by
  induction first with
  | nil => exact absurd rfl some
  | cons piece rest ih =>
    by_cases last : rest = []
    · rw [last, List.singleton_append, joinWith_cons _ _ _ more]
      rfl
    · rw [List.cons_append, joinWith_cons _ _ _ (by simp [last]), joinWith_cons _ _ _ last, ih last]
      simp only [List.append_assoc]

/-- Cutting at a character loses nothing else. -/
theorem joinWith_splitAt (mark : Char) (text : List Char) :
    joinWith [mark] (splitAt (· == mark) text) = text := by
  induction text with
  | nil => rfl
  | cons c rest ih =>
    by_cases cuts : c = mark
    · simp only [splitAt, cuts, beq_self_eq_true, if_true]
      rw [joinWith_cons _ _ _ (splitAt_ne_nil _ rest), ih]
      rfl
    · simp only [splitAt, beq_iff_eq, cuts, if_false]
      cases pieces : splitAt (· == mark) rest with
      | nil => exact absurd pieces (splitAt_ne_nil _ rest)
      | cons piece more =>
        rw [pieces] at ih
        rw [← ih]
        cases more <;> rfl

theorem lines_append (first second : List Char) :
    lines (first ++ '\n' :: second) = lines first ++ lines second :=
  splitAt_append _ first second '\n' rfl

theorem joinWith_lines (text : List Char) : joinWith ['\n'] (lines text) = text :=
  joinWith_splitAt '\n' text

theorem lines_ne_nil (text : List Char) : lines text ≠ [] := splitAt_ne_nil _ text

/-- The maximal runs without blanks. -/
def words (text : List Char) : List (List Char) :=
  (splitAt isBlank text).filter fun piece => !piece.isEmpty

def trimLeft (text : List Char) : List Char := text.dropWhile isBlank

def trimRight (text : List Char) : List Char := (text.reverse.dropWhile isBlank).reverse

/-- The text without the blanks at its ends. -/
def trim (text : List Char) : List Char := trimRight (trimLeft text)

/-- Every line end becomes a line feed: a carriage return, alone or in front of a line feed. -/
def unifyLineEnds : List Char → List Char
  | '\r' :: '\n' :: rest => '\n' :: unifyLineEnds rest
  | '\r' :: rest => '\n' :: unifyLineEnds rest
  | c :: rest => c :: unifyLineEnds rest
  | [] => []

/-- A text without one line end at its end. -/
def dropLineEnd (text : List Char) : List Char :=
  if text.getLast? = some '\n' then text.dropLast else text

/-- What follows an opening text, if the text opens with it. -/
def dropOpening? : List Char → List Char → Option (List Char)
  | [], text => some text
  | _ :: _, [] => none
  | a :: opening, c :: text => if a = c then dropOpening? opening text else none

theorem dropOpening?_eq_some_iff (opening text rest : List Char) :
    dropOpening? opening text = some rest ↔ text = opening ++ rest := by
  induction opening generalizing text with
  | nil => simp [dropOpening?, eq_comm]
  | cons a opening ih =>
    cases text with
    | nil => simp [dropOpening?]
    | cons c text =>
      by_cases same : a = c
      · simp [dropOpening?, same, ih]
      · simp [dropOpening?, same, Ne.symm same]

def startsWith (opening text : List Char) : Bool := (dropOpening? opening text).isSome

theorem startsWith_iff (opening text : List Char) :
    startsWith opening text = true ↔ opening <+: text := by
  rw [startsWith, Option.isSome_iff_exists]
  exact exists_congr fun rest => (dropOpening?_eq_some_iff opening text rest).trans eq_comm

def endsWith (ending text : List Char) : Bool := startsWith ending.reverse text.reverse

theorem endsWith_iff (ending text : List Char) : endsWith ending text = true ↔ ending <:+ text := by
  rw [endsWith, startsWith_iff, List.reverse_prefix]

/-- Whether a text occurs in another, at any place. -/
def occursIn (part : List Char) : List Char → Bool
  | [] => part.isEmpty
  | c :: rest => startsWith part (c :: rest) || occursIn part rest

/-- Every run of blanks becomes one space. -/
def collapseBlanks : List Char → List Char
  | [] => []
  | c :: rest =>
    if isBlank c then
      match rest with
      | [] => [' ']
      | d :: _ => if isBlank d then collapseBlanks rest else ' ' :: collapseBlanks rest
    else c :: collapseBlanks rest

/-- A bound counts from the end when it is negative, and is held between the ends. -/
def bound (length : Nat) (index : Int) : Nat :=
  if index < 0 then (index + length).toNat else min index.toNat length

theorem bound_natCast (length index : Nat) : bound length index = min index length := by
  have whole : ¬ (index : Int) < 0 := by omega
  simp [bound, whole]

/-- The members from one bound up to another; nothing when the bounds cross. -/
def slice {α : Type} (start stop : Int) (members : List α) : List α :=
  let low := bound members.length start
  (members.drop low).take (bound members.length stop - low)

/-- Bounds that are not negative count from the start. -/
theorem slice_natCast {α : Type} (start stop : Nat) (members : List α) :
    slice start stop members = (members.drop start).take (stop - start) := by
  simp only [slice, bound_natCast]
  by_cases inside : start ≤ members.length
  · rw [Nat.min_eq_left inside]
    by_cases short : stop ≤ members.length
    · rw [Nat.min_eq_left short]
    · have long : members.length ≤ stop := by omega
      rw [Nat.min_eq_right long, List.take_of_length_le (by simp),
        List.take_of_length_le (by simp; omega)]
  · have beyond : members.length ≤ start := by omega
    rw [Nat.min_eq_right beyond, List.drop_eq_nil_of_le (Nat.le_refl _),
      List.drop_eq_nil_of_le beyond]
    simp

/-- The members up to a bound. -/
def upTo {α : Type} (stop : Int) (members : List α) : List α :=
  members.take (bound members.length stop)

theorem upTo_natCast {α : Type} (stop : Nat) (members : List α) :
    upTo stop members = members.take stop := by
  rw [upTo, bound_natCast]
  exact List.take_eq_take_min.symm

end CodeSearch.Text

namespace CodeSearch

/-- A text of at most so many characters, counted from the end when negative. -/
def cut (stop : Int) (text : String) : String := String.ofList (Text.upTo stop text.toList)

/-- Text order is the order of code points. -/
def textLE (a b : String) : Bool := !decide (b < a)

end CodeSearch
