import CodeSearch.Symbol.Declaration
import Mathlib.Data.List.TakeWhile

/-! # Where names stand

What a declaration pattern remembers of a line is a name: all the word characters that stand from
its column on. So the column tells the name, whichever pattern finds it.
-/

namespace CodeSearch

/-- The remembered stretch is a name that stands at its offset: the word characters up to the first
character that is none. -/
def Capture.IsNameIn (line : List Char) (capture : Capture) : Prop :=
  capture.text = (line.drop capture.offset).takeWhile Text.isWord

namespace Cursor

/-- What follows a place in a line is the rest of the line. -/
def IsIn (line : List Char) (cursor : Cursor) : Prop := cursor.ahead = line.drop cursor.offset

variable {line rest : List Char} {cursor : Cursor} {c : Char}

theorem IsIn.pass (inside : cursor.IsIn line) (next : cursor.ahead = c :: rest) :
    (cursor.pass c rest).IsIn line := by
  rw [IsIn] at inside
  change rest = line.drop (cursor.offset + 1)
  rw [← List.drop_drop, ← inside, next]
  rfl

end Cursor

namespace Pattern

variable {accepts : Char → Bool} {least : Nat} {line : List Char}

private theorem runOn?_eq {offset : Nat} {behind : Char} {text : List Char} {stop : Cursor}
    (ends : runOn? accepts least offset behind text = some stop) :
    stop.offset = offset + (text.takeWhile accepts).length ∧
      stop.ahead = text.dropWhile accepts := by
  induction text generalizing least offset behind with
  | nil =>
    simp only [runOn?] at ends
    split at ends
    · cases ends; exact ⟨rfl, rfl⟩
    · cases ends
  | cons c rest ih =>
    simp only [runOn?] at ends
    split at ends
    · next accepted =>
      obtain ⟨reached, left⟩ := ih ends
      rw [List.takeWhile_cons_of_pos accepted, List.dropWhile_cons_of_pos accepted,
        List.length_cons]
      exact ⟨by omega, left⟩
    · next refused =>
      rw [List.takeWhile_cons_of_neg refused, List.dropWhile_cons_of_neg refused]
      split at ends
      · cases ends; exact ⟨rfl, rfl⟩
      · cases ends

/-- A run ends behind all characters of its class that follow. -/
theorem runEnd?_eq {cursor stop : Cursor} (ends : runEnd? accepts least cursor = some stop) :
    stop.offset = cursor.offset + (cursor.ahead.takeWhile accepts).length ∧
      stop.ahead = cursor.ahead.dropWhile accepts := by
  simp only [runEnd?] at ends
  split at ends
  · next none =>
    split at ends
    · cases ends; simp [none]
    · cases ends
  · next c rest some =>
    rw [some]
    split at ends
    · next accepted =>
      obtain ⟨reached, left⟩ := runOn?_eq ends
      rw [List.takeWhile_cons_of_pos accepted, List.dropWhile_cons_of_pos accepted,
        List.length_cons]
      exact ⟨by omega, left⟩
    · next refused =>
      rw [List.takeWhile_cons_of_neg refused, List.dropWhile_cons_of_neg refused]
      split at ends
      · cases ends; exact ⟨rfl, some⟩
      · cases ends

theorem runEnd?_isIn {cursor stop : Cursor} (inside : cursor.IsIn line)
    (ends : runEnd? accepts least cursor = some stop) : stop.IsIn line := by
  obtain ⟨reached, left⟩ := runEnd?_eq ends
  have whole : cursor.ahead.takeWhile accepts ++ cursor.ahead.dropWhile accepts = cursor.ahead :=
    List.takeWhile_append_dropWhile
  calc stop.ahead
    _ = (cursor.ahead.takeWhile accepts ++ cursor.ahead.dropWhile accepts).drop
        (cursor.ahead.takeWhile accepts).length := by rw [List.drop_left, left]
    _ = (line.drop cursor.offset).drop (cursor.ahead.takeWhile accepts).length := by
      rw [whole, ← inside]
    _ = line.drop stop.offset := by rw [List.drop_drop, reached]

theorem literalEnd?_isIn {text : List Char} {cursor stop : Cursor} (inside : cursor.IsIn line)
    (ends : literalEnd? cursor text = some stop) : stop.IsIn line := by
  induction text generalizing cursor with
  | nil => cases ends; exact inside
  | cons c rest ih =>
    simp only [literalEnd?] at ends
    split at ends
    · cases ends
    · next d more next =>
      split at ends
      · exact ih (inside.pass next) ends
      · cases ends

theorem isIn_of_mem_fewEnds {text : List Char} {cursor stop : Cursor} (inside : cursor.IsIn line)
    (follows : cursor.ahead = text) (member : stop ∈ fewEnds accepts cursor text) :
    stop.IsIn line := by
  induction text generalizing cursor with
  | nil => rw [List.mem_singleton.mp member]; exact inside
  | cons c rest ih =>
    simp only [fewEnds] at member
    split at member
    · rcases List.mem_cons.mp member with rfl | later
      · exact inside
      · exact ih (inside.pass follows) rfl later
    · rw [List.mem_singleton.mp member]; exact inside

/-- Whatever the pattern remembers is a name. -/
def RemembersNames : Pattern → Prop
  | captured (run accepts _) => accepts = Text.isWord
  | captured _ => False
  | seq first second => first.RemembersNames ∧ second.RemembersNames
  | either first second => first.RemembersNames ∧ second.RemembersNames
  | _ => True

end Pattern

/-- A match has come to a place in a line, and what it remembers is a name there. -/
structure Progress.IsIn (line : List Char) (progress : Progress) : Prop where
  cursor : progress.cursor.IsIn line
  capture : ∀ capture ∈ progress.capture, capture.IsNameIn line

namespace Pattern

variable {line : List Char}

/-- A way through the pattern stays in the line. The induction is on the pattern; only a captured
run remembers anything. -/
theorem ends_isIn {pattern : Pattern} (names : pattern.RemembersNames) {here found : Progress}
    (before : here.IsIn line) (member : found ∈ pattern.ends here) : found.IsIn line := by
  induction pattern generalizing here found with
  | literal text =>
    obtain ⟨cursor, ended, rfl⟩ := Option.map_eq_some_iff.mp (Option.mem_toList.mp member)
    exact ⟨literalEnd?_isIn before.cursor ended, before.capture⟩
  | one accepts =>
    simp only [ends] at member
    split at member
    · cases member
    · next c rest next =>
      split at member
      · rw [List.mem_singleton.mp member]
        exact ⟨before.cursor.pass next, before.capture⟩
      · cases member
  | run accepts least =>
    obtain ⟨cursor, ended, rfl⟩ := Option.map_eq_some_iff.mp (Option.mem_toList.mp member)
    exact ⟨runEnd?_isIn before.cursor ended, before.capture⟩
  | few accepts =>
    obtain ⟨cursor, reached, rfl⟩ := List.mem_map.mp member
    exact ⟨isIn_of_mem_fewEnds before.cursor rfl reached, before.capture⟩
  | wordEdge =>
    simp only [ends] at member
    split at member
    · rw [List.mem_singleton.mp member]; exact before
    · cases member
  | lineStart =>
    simp only [ends] at member
    split at member
    · rw [List.mem_singleton.mp member]; exact before
    · cases member
  | seq first second ihFirst ihSecond =>
    obtain ⟨middle, memberFirst, memberSecond⟩ := List.mem_flatMap.mp member
    exact ihSecond names.2 (ihFirst names.1 before memberFirst) memberSecond
  | either first second ihFirst ihSecond =>
    rcases List.mem_append.mp member with memberFirst | memberSecond
    · exact ihFirst names.1 before memberFirst
    · exact ihSecond names.2 before memberSecond
  | captured inner =>
    cases inner with
    | run accepts least =>
      obtain ⟨inside, memberInside, rfl⟩ := List.mem_map.mp member
      obtain ⟨stop, ended, rfl⟩ := Option.map_eq_some_iff.mp (Option.mem_toList.mp memberInside)
      refine ⟨runEnd?_isIn before.cursor ended, ?_⟩
      rintro remembered ⟨rfl⟩
      obtain rfl : accepts = Text.isWord := names
      change here.cursor.ahead.take (stop.offset - here.cursor.offset) =
        (line.drop here.cursor.offset).takeWhile Text.isWord
      rw [← before.cursor, (runEnd?_eq ended).1, Nat.add_sub_cancel_left]
      exact (List.prefix_iff_eq_take.mp (List.takeWhile_prefix _)).symm
    | _ => exact names.elim

private theorem capturesFrom_isNameIn {pattern : Pattern} (names : pattern.RemembersNames)
    {offset : Nat} {behind : Option Char} {skip : Nat} {text : List Char}
    (rest : text = line.drop offset) {capture : Capture}
    (member : capture ∈ pattern.capturesFrom offset behind skip text) : capture.IsNameIn line := by
  induction text generalizing offset behind skip with
  | nil => simp [capturesFrom] at member
  | cons c text ih =>
    have further : text = line.drop (offset + 1) := by
      rw [← List.drop_drop, ← rest]
      rfl
    cases skip with
    | succ skip => exact ih further member
    | zero =>
      simp only [capturesFrom] at member
      split at member
      · exact ih further member
      · next found matched =>
        rcases List.mem_append.mp member with own | later
        · rw [match?_eq_head?] at matched
          have reached := List.mem_of_mem_head? (Option.mem_def.mpr matched)
          have start : Progress.IsIn line ⟨⟨offset, behind, c :: text⟩, none⟩ :=
            ⟨rest, fun _ remembered => (Option.not_mem_none _ remembered).elim⟩
          exact (ends_isIn names start reached).capture capture (Option.mem_toList.mp own)
        · exact ih further later

/-- What a pattern remembers of a line are names that stand in it. -/
theorem captures_isNameIn {pattern : Pattern} (names : pattern.RemembersNames) {capture : Capture}
    (member : capture ∈ pattern.captures line) : capture.IsNameIn line :=
  capturesFrom_isNameIn names rfl member

end Pattern

theorem Declaration.tableOf_remembersNames (tag : String) :
    ∀ declaration ∈ Declaration.tableOf tag, declaration.pattern.RemembersNames := by
  unfold Declaration.tableOf
  split
  · next language _ =>
    cases language <;>
      simp [table, script, python, go, rust, classBased, keyword, typeArguments, parenthesised,
        visibility, Pattern.all, Pattern.word, Pattern.optional, Pattern.gap, Pattern.blanks,
        Pattern.name, Pattern.RemembersNames]
  · simp

end CodeSearch
