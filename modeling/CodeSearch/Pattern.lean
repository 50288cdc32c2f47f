import CodeSearch.Text.Class

/-! # Patterns over characters

A pattern describes a stretch of text. Stretches of characters of one class are the only repetition.
A run takes as many of them as there are and gives none back; nothing is lost by that where what
follows a run starts with a character of another class. `Pattern.ends` lists every way in which a
stretch that starts at a cursor can match, in the order of preference. A match is the first of these
ways, which `Pattern.match?` finds without listing the others. The occurrences of a pattern are
found from left to right and do not overlap.
-/

namespace CodeSearch

/-- A place in a text: how many characters lie before it, the nearest of them, and what follows. -/
structure Cursor where
  offset : Nat
  behind : Option Char
  ahead : List Char

namespace Cursor

def start (text : List Char) : Cursor := ⟨0, none, text⟩

/-- The place behind one character more. -/
def pass (cursor : Cursor) (c : Char) (rest : List Char) : Cursor :=
  ⟨cursor.offset + 1, some c, rest⟩

/-- A word starts or ends here. -/
def atWordEdge (cursor : Cursor) : Bool :=
  cursor.behind.any Text.isWord != cursor.ahead.head?.any Text.isWord

/-- A line starts here. -/
def atLineStart (cursor : Cursor) : Bool :=
  match cursor.behind with
  | none => true
  | some c => c == '\n'

end Cursor

/-- Descriptions of stretches of text. -/
inductive Pattern where
  /-- Exactly these characters. -/
  | literal (text : List Char)
  /-- One character of a class. -/
  | one (accepts : Char → Bool)
  /-- All characters of a class that follow each other, at least `least` of them. -/
  | run (accepts : Char → Bool) (least : Nat)
  /-- Any number of characters of a class, as few as possible. -/
  | few (accepts : Char → Bool)
  | wordEdge
  | lineStart
  | seq (first second : Pattern)
  | either (first second : Pattern)
  /-- The stretch is remembered as the name that the pattern finds. -/
  | captured (inner : Pattern)

/-- A remembered stretch and the offset at which it starts. -/
structure Capture where
  offset : Nat
  text : List Char

/-- How far a match has come, and what it remembers. -/
structure Progress where
  cursor : Cursor
  capture : Option Capture

namespace Pattern

/-- The end of a run that has come to an offset behind a given character; `least` more characters of
it have to follow. -/
def runOn? (accepts : Char → Bool) (least offset : Nat) (behind : Char) : List Char → Option Cursor
  | [] => if least = 0 then some ⟨offset, some behind, []⟩ else none
  | c :: rest =>
    if accepts c then runOn? accepts (least - 1) (offset + 1) c rest
    else if least = 0 then some ⟨offset, some behind, c :: rest⟩
    else none

/-- The end of a run of at least `least` characters. -/
def runEnd? (accepts : Char → Bool) (least : Nat) (cursor : Cursor) : Option Cursor :=
  match cursor.ahead with
  | [] => if least = 0 then some cursor else none
  | c :: rest =>
    if accepts c then runOn? accepts (least - 1) (cursor.offset + 1) c rest
    else if least = 0 then some cursor
    else none

/-- Every place up to which characters of a class reach, the nearest first. -/
def fewEnds (accepts : Char → Bool) (cursor : Cursor) : List Char → List Cursor
  | [] => [cursor]
  | c :: rest =>
    if accepts c then cursor :: fewEnds accepts (cursor.pass c rest) rest else [cursor]

/-- The first of these places that leads on. -/
def fewEnd? {β : Type} (goOn : Cursor → Option β) (accepts : Char → Bool) (cursor : Cursor) :
    List Char → Option β
  | [] => goOn cursor
  | c :: rest =>
    match goOn cursor with
    | some found => some found
    | none => if accepts c then fewEnd? goOn accepts (cursor.pass c rest) rest else none

/-- The place behind a fixed text, if it stands here. -/
def literalEnd? (cursor : Cursor) : List Char → Option Cursor
  | [] => some cursor
  | c :: text =>
    match cursor.ahead with
    | [] => none
    | d :: rest => if c = d then literalEnd? (cursor.pass d rest) text else none

/-- Remembers the stretch between two places of a match. -/
def capture (here inside : Progress) : Progress :=
  let length := inside.cursor.offset - here.cursor.offset
  { inside with capture := some ⟨here.cursor.offset, here.cursor.ahead.take length⟩ }

/-- Every way to match from here, the preferred ones first. -/
def ends : Pattern → Progress → List Progress
  | literal text, here =>
    ((literalEnd? here.cursor text).map fun cursor => { here with cursor }).toList
  | one accepts, here =>
    match here.cursor.ahead with
    | [] => []
    | c :: rest => if accepts c then [{ here with cursor := here.cursor.pass c rest }] else []
  | run accepts least, here =>
    ((runEnd? accepts least here.cursor).map fun cursor => { here with cursor }).toList
  | few accepts, here =>
    (fewEnds accepts here.cursor here.cursor.ahead).map fun cursor => { here with cursor }
  | wordEdge, here => if here.cursor.atWordEdge then [here] else []
  | lineStart, here => if here.cursor.atLineStart then [here] else []
  | seq first second, here => (first.ends here).flatMap second.ends
  | either first second, here => first.ends here ++ second.ends here
  | captured inner, here => (inner.ends here).map (capture here)

/-- The first way to match from here on which a text can go on. The ways are tried one after
another, and none behind the first that leads on is looked for. -/
def firstEnd? {β : Type} (goOn : Progress → Option β) : Pattern → Progress → Option β
  | literal text, here =>
    match literalEnd? here.cursor text with
    | some cursor => goOn { here with cursor }
    | none => none
  | one accepts, here =>
    match here.cursor.ahead with
    | [] => none
    | c :: rest => if accepts c then goOn { here with cursor := here.cursor.pass c rest } else none
  | run accepts least, here =>
    match runEnd? accepts least here.cursor with
    | some cursor => goOn { here with cursor }
    | none => none
  | few accepts, here =>
    fewEnd? (fun cursor => goOn { here with cursor }) accepts here.cursor here.cursor.ahead
  | wordEdge, here => if here.cursor.atWordEdge then goOn here else none
  | lineStart, here => if here.cursor.atLineStart then goOn here else none
  | seq first second, here => first.firstEnd? (fun middle => second.firstEnd? goOn middle) here
  | either first second, here =>
    match first.firstEnd? goOn here with
    | some found => some found
    | none => second.firstEnd? goOn here
  | captured inner, here => inner.firstEnd? (fun inside => goOn (capture here inside)) here

theorem fewEnd?_eq_findSome? {β : Type} (goOn : Cursor → Option β) (accepts : Char → Bool)
    (cursor : Cursor) (text : List Char) :
    fewEnd? goOn accepts cursor text = (fewEnds accepts cursor text).findSome? goOn := by
  induction text generalizing cursor with
  | nil => simp [fewEnd?, fewEnds]
  | cons c rest ih =>
    by_cases accepted : accepts c = true
    · cases leads : goOn cursor <;> simp [fewEnd?, fewEnds, accepted, leads, ih]
    · cases leads : goOn cursor <;> simp [fewEnd?, fewEnds, accepted, leads]

theorem findSome?_flatMap {β γ δ : Type} (branches : β → List γ) (goOn : γ → Option δ)
    (members : List β) :
    (members.flatMap branches).findSome? goOn =
      members.findSome? fun member => (branches member).findSome? goOn := by
  induction members with
  | nil => rfl
  | cons member rest ih =>
    rw [List.flatMap_cons, List.findSome?_append, List.findSome?_cons, ih]
    cases (branches member).findSome? goOn <;> rfl

theorem firstEnd?_eq_findSome? {β : Type} (goOn : Progress → Option β) (pattern : Pattern)
    (here : Progress) : pattern.firstEnd? goOn here = (pattern.ends here).findSome? goOn := by
  induction pattern generalizing β here with
  | literal text => cases found : literalEnd? here.cursor text <;> simp [firstEnd?, ends, found]
  | one accepts =>
    simp only [firstEnd?, ends]
    split
    · rfl
    · split <;> simp
  | run accepts least =>
    cases found : runEnd? accepts least here.cursor <;> simp [firstEnd?, ends, found]
  | few accepts => rw [firstEnd?, ends, List.findSome?_map, fewEnd?_eq_findSome?]; rfl
  | wordEdge => simp only [firstEnd?, ends]; split <;> simp
  | lineStart => simp only [firstEnd?, ends]; split <;> simp
  | seq first second ihFirst ihSecond =>
    simp only [firstEnd?, ends, ihFirst, ihSecond, findSome?_flatMap]
  | either first second ihFirst ihSecond =>
    simp only [firstEnd?, ends, ihFirst, ihSecond, List.findSome?_append]
    cases (first.ends here).findSome? goOn <;> rfl
  | captured inner ih =>
    simp only [firstEnd?, ends, ih, List.findSome?_map]
    rfl

/-- The preferred match from here. -/
def match? (pattern : Pattern) (cursor : Cursor) : Option Progress :=
  pattern.firstEnd? some ⟨cursor, none⟩

theorem match?_eq_head? (pattern : Pattern) (cursor : Cursor) :
    pattern.match? cursor = (pattern.ends ⟨cursor, none⟩).head? := by
  rw [match?, firstEnd?_eq_findSome?]
  cases pattern.ends ⟨cursor, none⟩ <;> rfl

/-- What the occurrences of a pattern remember, from left to right. After an occurrence the search
goes on behind it; `skip` counts the characters of it that are still to be passed. -/
def capturesFrom (pattern : Pattern) (offset : Nat) (behind : Option Char) (skip : Nat) :
    List Char → List Capture
  | [] => []
  | c :: rest =>
    match skip with
    | skip + 1 => capturesFrom pattern (offset + 1) (some c) skip rest
    | 0 =>
      match pattern.match? ⟨offset, behind, c :: rest⟩ with
      | none => capturesFrom pattern (offset + 1) (some c) 0 rest
      | some found =>
        found.capture.toList ++
          capturesFrom pattern (offset + 1) (some c) (found.cursor.offset - offset - 1) rest

/-- What the occurrences of a pattern in a text remember. -/
def captures (pattern : Pattern) (text : List Char) : List Capture :=
  pattern.capturesFrom 0 none 0 text

/-- Whether a pattern occurs at all. -/
def occursFrom (pattern : Pattern) (offset : Nat) (behind : Option Char) : List Char → Bool
  | [] => (pattern.match? ⟨offset, behind, []⟩).isSome
  | c :: rest =>
    (pattern.match? ⟨offset, behind, c :: rest⟩).isSome ||
      pattern.occursFrom (offset + 1) (some c) rest

def occurs (pattern : Pattern) (text : List Char) : Bool := pattern.occursFrom 0 none text

/-- One pattern after another. -/
def all : List Pattern → Pattern
  | [] => literal []
  | [pattern] => pattern
  | pattern :: rest => seq pattern (all rest)

/-- The first alternative that leads to a match. -/
def any : List Pattern → Pattern
  | [] => one fun _ => false
  | [pattern] => pattern
  | pattern :: rest => either pattern (any rest)

def word (text : String) : Pattern := literal text.toList

/-- The pattern or nothing, the pattern by preference. -/
def optional (pattern : Pattern) : Pattern := either pattern (literal [])

/-- Any number of blanks, line ends included. -/
def blanks : Pattern := run Text.isBlank 0

/-- At least one blank. -/
def gap : Pattern := run Text.isBlank 1

/-- A name: a run of word characters. -/
def name : Pattern := captured (run Text.isWord 1)

end Pattern

end CodeSearch
