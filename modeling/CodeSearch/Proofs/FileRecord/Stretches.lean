import CodeSearch.Proofs.Symbol.Captures

/-! # Stretches that patterns remember

What a pattern remembers of a text is a stretch of it that stands at the remembered offset, and its
occurrences remember stretches that lie one behind another. A match is followed through the pattern
with the offset at which it began: whatever it remembers lies between there and the place that it
has come to.
-/

namespace CodeSearch

/-! ## Stretches of a text -/

namespace Capture

/-- The stretch is not empty and stands in the text at its offset. -/
structure StandsIn (text : List Char) (capture : Capture) : Prop where
  filled : capture.text ≠ []
  here : capture.text <+: text.drop capture.offset

/-- The offset behind the stretch. -/
def stop (capture : Capture) : Nat := capture.offset + capture.text.length

variable {text : List Char} {capture : Capture}

theorem StandsIn.lt_stop (stands : capture.StandsIn text) : capture.offset < capture.stop :=
  Nat.lt_add_of_pos_right (List.length_pos_iff.mpr stands.filled)

end Capture

/-- Stretches of a text, none in front of an offset and each behind the one before it. -/
structure AreApart (text : List Char) (start : Nat) (captures : List Capture) : Prop where
  stand : ∀ capture ∈ captures, capture.StandsIn text
  behind : ∀ capture ∈ captures, start ≤ capture.offset
  apart : captures.Pairwise fun first second => first.stop ≤ second.offset

namespace AreApart

variable {text : List Char} {start start' : Nat} {captures : List Capture} {capture : Capture}

theorem nil : AreApart text start [] := ⟨nofun, nofun, .nil⟩

theorem mono (apart : AreApart text start captures) (earlier : start' ≤ start) :
    AreApart text start' captures :=
  ⟨apart.stand, fun capture member => earlier.trans (apart.behind capture member), apart.apart⟩

theorem cons (stands : capture.StandsIn text) (behind : start ≤ capture.offset)
    (rest : AreApart text capture.stop captures) : AreApart text start (capture :: captures) where
  stand := List.forall_mem_cons.mpr ⟨stands, rest.stand⟩
  behind := List.forall_mem_cons.mpr ⟨behind, fun later member =>
    (behind.trans stands.lt_stop.le).trans (rest.behind later member)⟩
  apart := List.pairwise_cons.mpr ⟨rest.behind, rest.apart⟩

theorem rising (apart : AreApart text start captures) :
    captures.Pairwise fun first second => first.offset < second.offset :=
  apart.apart.imp_of_mem fun here _ behind => (apart.stand _ here).lt_stop.trans_le behind

/-- Stretches that are found within stretches are apart if those are. -/
theorem flatMap {find : Capture → List Capture} (apart : AreApart text start captures)
    (inner : ∀ capture ∈ captures, AreApart text capture.offset (find capture))
    (within : ∀ capture ∈ captures, ∀ found ∈ find capture, found.stop ≤ capture.stop) :
    AreApart text start (captures.flatMap find) where
  stand := by
    intro found member
    obtain ⟨capture, known, inside⟩ := List.mem_flatMap.mp member
    exact (inner capture known).stand found inside
  behind := by
    intro found member
    obtain ⟨capture, known, inside⟩ := List.mem_flatMap.mp member
    exact (apart.behind capture known).trans ((inner capture known).behind found inside)
  apart := by
    refine List.pairwise_flatMap.mpr ⟨fun capture known => (inner capture known).apart, ?_⟩
    refine apart.apart.imp_of_mem fun {first second} known known' order => ?_
    intro found inside found' inside'
    exact (within first known found inside).trans
      (order.trans ((inner second known').behind found' inside'))

end AreApart

/-! ## Matches -/

/-- A match that began at an offset: the place that it has come to, and what it remembers. -/
structure Progress.Covers (text : List Char) (start : Nat) (progress : Progress) : Prop where
  cursor : progress.cursor.IsIn text
  reached : start ≤ progress.cursor.offset
  capture : ∀ capture ∈ progress.capture,
    capture.StandsIn text ∧ start ≤ capture.offset ∧ capture.stop ≤ progress.cursor.offset

namespace Progress

variable {text : List Char} {start : Nat} {here : Progress} {cursor : Cursor}

/-- The match goes on without remembering anything new. -/
theorem Covers.goOn (before : here.Covers text start) (inside : cursor.IsIn text)
    (on : here.cursor.offset ≤ cursor.offset) :
    Covers text start { here with cursor } where
  cursor := inside
  reached := before.reached.trans on
  capture := fun capture remembered =>
    let ⟨stands, behind, ends⟩ := before.capture capture remembered
    ⟨stands, behind, ends.trans on⟩

end Progress

namespace Pattern

/-- Whatever the pattern remembers is a run of at least one character. -/
def RemembersRuns : Pattern → Prop
  | captured (run _ least) => 0 < least
  | captured _ => False
  | seq first second => first.RemembersRuns ∧ second.RemembersRuns
  | either first second => first.RemembersRuns ∧ second.RemembersRuns
  | _ => True

variable {accepts : Char → Bool} {least : Nat} {text : List Char} {cursor stop : Cursor}

theorem offset_le_of_literalEnd? {word : List Char} (ends : literalEnd? cursor word = some stop) :
    cursor.offset ≤ stop.offset := by
  induction word generalizing cursor with
  | nil => cases ends; exact Nat.le_refl _
  | cons c rest ih =>
    simp only [literalEnd?] at ends
    split at ends
    · cases ends
    · next d more next =>
      split at ends
      · exact (Nat.le_succ _).trans (ih ends)
      · cases ends

theorem offset_le_of_mem_fewEnds {ahead : List Char}
    (member : stop ∈ fewEnds accepts cursor ahead) : cursor.offset ≤ stop.offset := by
  induction ahead generalizing cursor with
  | nil => rw [List.mem_singleton.mp member]
  | cons c rest ih =>
    simp only [fewEnds] at member
    split at member
    · rcases List.mem_cons.mp member with rfl | later
      · exact Nat.le_refl _
      · exact (Nat.le_succ _).trans (ih later)
    · rw [List.mem_singleton.mp member]

theorem offset_le_of_runEnd? (ends : runEnd? accepts least cursor = some stop) :
    cursor.offset ≤ stop.offset := by
  rw [(runEnd?_eq ends).1]
  exact Nat.le_add_right _ _

/-- A run that asks for characters takes some. -/
theorem takeWhile_ne_nil_of_runEnd? (asks : 0 < least)
    (ends : runEnd? accepts least cursor = some stop) :
    cursor.ahead.takeWhile accepts ≠ [] := by
  simp only [runEnd?] at ends
  split at ends
  · rw [if_neg asks.ne'] at ends
    cases ends
  · next c rest next =>
    split at ends
    · next accepted =>
      rw [next, List.takeWhile_cons_of_pos accepted]
      exact List.cons_ne_nil _ _
    · rw [if_neg asks.ne'] at ends
      cases ends

/-- A way through the pattern covers what it passes. The induction is on the pattern; only a
captured run remembers anything new, and that is what it has taken. -/
theorem ends_covers {pattern : Pattern} (runs : pattern.RemembersRuns) {start : Nat}
    {here found : Progress} (before : here.Covers text start) (member : found ∈ pattern.ends here) :
    here.cursor.offset ≤ found.cursor.offset ∧ found.Covers text start := by
  induction pattern generalizing here found with
  | literal word =>
    obtain ⟨cursor, ended, rfl⟩ := Option.map_eq_some_iff.mp (Option.mem_toList.mp member)
    have on := offset_le_of_literalEnd? ended
    exact ⟨on, before.goOn (literalEnd?_isIn before.cursor ended) on⟩
  | one accepts =>
    simp only [ends] at member
    split at member
    · cases member
    · next c rest next =>
      split at member
      · rw [List.mem_singleton.mp member]
        exact ⟨Nat.le_succ _, before.goOn (before.cursor.pass next) (Nat.le_succ _)⟩
      · cases member
  | run accepts least =>
    obtain ⟨cursor, ended, rfl⟩ := Option.map_eq_some_iff.mp (Option.mem_toList.mp member)
    have on := offset_le_of_runEnd? ended
    exact ⟨on, before.goOn (runEnd?_isIn before.cursor ended) on⟩
  | few accepts =>
    obtain ⟨cursor, reached, rfl⟩ := List.mem_map.mp member
    have on := offset_le_of_mem_fewEnds reached
    exact ⟨on, before.goOn (isIn_of_mem_fewEnds before.cursor rfl reached) on⟩
  | wordEdge =>
    simp only [ends] at member
    split at member
    · rw [List.mem_singleton.mp member]; exact ⟨Nat.le_refl _, before⟩
    · cases member
  | lineStart =>
    simp only [ends] at member
    split at member
    · rw [List.mem_singleton.mp member]; exact ⟨Nat.le_refl _, before⟩
    · cases member
  | seq first second ihFirst ihSecond =>
    obtain ⟨middle, memberFirst, memberSecond⟩ := List.mem_flatMap.mp member
    obtain ⟨on, between⟩ := ihFirst runs.1 before memberFirst
    obtain ⟨on', behind⟩ := ihSecond runs.2 between memberSecond
    exact ⟨on.trans on', behind⟩
  | either first second ihFirst ihSecond =>
    rcases List.mem_append.mp member with memberFirst | memberSecond
    · exact ihFirst runs.1 before memberFirst
    · exact ihSecond runs.2 before memberSecond
  | captured inner =>
    cases inner with
    | run accepts least =>
      obtain ⟨inside, memberInside, rfl⟩ := List.mem_map.mp member
      obtain ⟨stop, ended, rfl⟩ := Option.map_eq_some_iff.mp (Option.mem_toList.mp memberInside)
      have on := offset_le_of_runEnd? ended
      refine ⟨on, runEnd?_isIn before.cursor ended, before.reached.trans on, ?_⟩
      rintro remembered ⟨rfl⟩
      have taken : here.cursor.ahead.take (stop.offset - here.cursor.offset) =
          here.cursor.ahead.takeWhile accepts := by
        rw [(runEnd?_eq ended).1, Nat.add_sub_cancel_left]
        exact (List.prefix_iff_eq_take.mp (List.takeWhile_prefix _)).symm
      refine ⟨⟨taken.trans_ne (takeWhile_ne_nil_of_runEnd? runs ended), ?_⟩, before.reached, ?_⟩
      · exact before.cursor ▸ List.take_prefix _ _
      · change here.cursor.offset + List.length (List.take (stop.offset - here.cursor.offset) _) ≤ _
        rw [taken, ← (runEnd?_eq ended).1]
        exact Nat.le_refl _
    | _ => exact runs.elim

private theorem capturesFrom_areApart {pattern : Pattern} (runs : pattern.RemembersRuns)
    {offset : Nat} {behind : Option Char} {skip : Nat} {ahead : List Char}
    (rest : ahead = text.drop offset) :
    AreApart text (offset + skip) (pattern.capturesFrom offset behind skip ahead) := by
  induction ahead generalizing offset behind skip with
  | nil => exact .nil
  | cons c ahead ih =>
    have further : ahead = text.drop (offset + 1) := by
      rw [← List.drop_drop, ← rest]
      rfl
    cases skip with
    | succ skip => exact (ih further).mono (by omega)
    | zero =>
      simp only [capturesFrom]
      split
      · exact (ih further).mono (by omega)
      · next found matched =>
        rw [match?_eq_head?] at matched
        have reached := List.mem_of_mem_head? (Option.mem_def.mpr matched)
        have begun : Progress.Covers text offset ⟨⟨offset, behind, c :: ahead⟩, none⟩ :=
          ⟨rest, Nat.le_refl _, fun _ remembered => (Option.not_mem_none _ remembered).elim⟩
        obtain ⟨-, covers⟩ := ends_covers runs begun reached
        have passed : offset ≤ found.cursor.offset := covers.reached
        have later : AreApart text found.cursor.offset (pattern.capturesFrom (offset + 1) (some c)
            (found.cursor.offset - offset - 1) ahead) := (ih further).mono (by omega)
        cases remembered : found.capture with
        | none => exact later.mono passed
        | some own =>
          obtain ⟨stands, after, ends⟩ := covers.capture own remembered
          exact .cons stands after (later.mono ends)

/-- The occurrences of a pattern remember stretches of the text, one behind another. -/
theorem captures_areApart {pattern : Pattern} (runs : pattern.RemembersRuns) (text : List Char) :
    AreApart text 0 (pattern.captures text) := by
  have apart : AreApart text (0 + 0) (pattern.capturesFrom 0 none 0 text) :=
    capturesFrom_areApart runs rfl
  exact apart

end Pattern

end CodeSearch
