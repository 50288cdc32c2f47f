import CodeSearch.Chunk.Splitting
import CodeSearch.Proofs.Chunk.LiveText

/-! # The end of a declaration lies with the declaration

A scan starts afresh at its first line and stops at the line that it finds. So an end that was found
in a stretch of lines is found wherever the stretch stands, whatever is in front of it and behind
it, with every limit that reaches as far.
-/

namespace CodeSearch

namespace Boundary

variable {lexis : Lexis} {countParens : Bool} {scan : Scan}

/-- The line that a scan finds depends on the lines up to it alone. -/
theorem scanLines_congr {lines lines' : List (List Char)} {line : Nat}
    (found : scanLines lexis countParens scan lines = some line)
    (same : lines'.take (line + 1) = lines.take (line + 1)) :
    scanLines lexis countParens scan lines' = some line := by
  induction lines generalizing scan lines' line with
  | nil => cases found
  | cons first lines ih =>
    cases lines' with
    | nil => cases same
    | cons first' lines' =>
      rw [List.take_succ_cons, List.take_succ_cons, List.cons.injEq] at same
      obtain ⟨rfl, same⟩ := same
      rw [scanLines] at found ⊢
      split at found
      · exact found
      · obtain ⟨earlier, found', rfl⟩ := Option.map_eq_some_iff.mp found
        rw [ih found' same]
        rfl

/-- An end that is found is a line from the place on and within the limit. The lines from the place
on lead to it, limit or not. -/
theorem exists_of_found {maxLines start last : Int} {lines : List (List Char)}
    (found : findEndFrom? lexis countParens maxLines lines start = some (some last)) :
    ∃ below, linesFrom? lines start = some below ∧ ∃ line : Nat, last = start + line ∧
      line < maxLines ∧ scanLines lexis countParens {} below = some line := by
  cases from' : linesFrom? lines start with
  | none =>
    unfold findEndFrom? at found
    rw [from'] at found
    dsimp only at found
    split at found <;> cases found
  | some below =>
    rw [findEndFrom?_eq_scanLines lexis countParens maxLines from', Option.some.injEq] at found
    obtain ⟨line, scanned, rfl⟩ := Option.map_eq_some_iff.mp found
    have within := scanLines_lt scanned
    rw [List.length_take] at within
    refine ⟨below, rfl, line, rfl, by omega, scanLines_congr scanned ?_⟩
    rw [List.take_take, Nat.min_eq_left (by omega)]

/-- With every limit that reaches as far, what a scan finds is found. -/
theorem findEndFrom?_of_scanLines {maxLines start : Int} {lines below : List (List Char)}
    (from' : linesFrom? lines start = some below) {line : Nat}
    (found : scanLines lexis countParens {} below = some line) (within : line < maxLines) :
    findEndFrom? lexis countParens maxLines lines start = some (some (start + line)) := by
  rw [findEndFrom?_eq_scanLines lexis countParens maxLines from', scanLines_congr found]
  · rfl
  · rw [List.take_take, Nat.min_eq_left (by omega)]

/-- What is found in a stretch of lines is found in it wherever it stands. -/
theorem findEndFrom?_moved {front front' body behind behind' : List (List Char)} {line : Nat}
    {maxLines more : Int} (inBody : line < body.length)
    (found : findEndFrom? lexis countParens maxLines (front ++ body ++ behind) front.length =
      some (some (front.length + line : Int)))
    (reaches : maxLines ≤ more ∨ more = line + 1) :
    findEndFrom? lexis countParens more (front' ++ body ++ behind') front'.length =
      some (some (front'.length + line : Int)) := by
  have from' (front behind : List (List Char)) :
      linesFrom? (front ++ body ++ behind) front.length = some (body ++ behind) := by
    simp [linesFrom?, List.append_assoc]
  obtain ⟨below, here, line', same, within, scanned⟩ := exists_of_found found
  obtain rfl : line = line' := by omega
  cases (from' front behind).symm.trans here
  refine findEndFrom?_of_scanLines (from' front' behind') (scanLines_congr scanned ?_) (by omega)
  rw [List.take_append_of_le_length inBody, List.take_append_of_le_length inBody]

end Boundary

namespace Splitting

variable {α : Type} [Scalar α]

/-- The settings look at no fewer lines for the end of a declaration. -/
structure ReachesAsFar (settings settings' : Settings α) : Prop where
  functions : settings.maxFunctionLines ≤ settings'.maxFunctionLines
  classes : settings.maxClassLines ≤ settings'.maxClassLines

/-- The scanner that counts finds what the search for the end finds. -/
theorem counting_eq_found_iff {lexis : Lexis} {countParens : Bool} {maxLines last : Int}
    {lines : List (List Char)} {start : Nat} :
    (BoundaryScanner.counting lexis).findEnd lines start countParens maxLines = .found last ↔
      Boundary.findEndFrom? lexis countParens maxLines lines start = some (some last) := by
  rw [Boundary.findEndFrom?_natCast, BoundaryScanner.counting]
  dsimp only
  cases Boundary.findEnd? lexis countParens maxLines lines start <;> simp

/-- The end of a symbol that the scan finds stays with the lines in which it was found. -/
theorem symbolEnd?_moved {settings settings' : Settings α} (far : ReachesAsFar settings settings')
    (lexis : Lexis) {source source' : Source} {front front' body behind behind' : List (List Char)}
    (lines : source.lines = front ++ body ++ behind)
    (lines' : source'.lines = front' ++ body ++ behind') {line : Nat} (inBody : line < body.length)
    {symbol : Symbol}
    (found : scanFor settings (.counting lexis) source front.length symbol.kind =
      .found (front.length + line)) :
    symbolEnd? settings' (.counting lexis) source' symbol front'.length =
      some (front'.length + line : Int) := by
  have again {countParens : Bool} {maxLines more : Int} (reaches : maxLines ≤ more)
      (found : (BoundaryScanner.counting lexis).findEnd source.lines front.length countParens
        maxLines = .found (front.length + line)) :
      (BoundaryScanner.counting lexis).findEnd source'.lines front'.length countParens more =
        .found (front'.length + line) := by
    rw [counting_eq_found_iff, lines] at found
    rw [counting_eq_found_iff, lines']
    exact Boundary.findEndFrom?_moved inBody found (.inl reaches)
  have found' : scanFor settings' (.counting lexis) source' front'.length symbol.kind =
      .found (front'.length + line) := by
    cases kind : symbol.kind <;> rw [kind] at found
    case function => exact again far.functions found
    case classType => exact again far.classes found
    case interface => exact again far.classes found
    all_goals cases found
  rw [symbolEnd?, found']

end Splitting

open Boundary Splitting

/-- An end that was found in the lines of a body is found with every limit that reaches as far, or
just as far, and wherever the body stands. It lies among the lines that were looked at. So neither
other lines in front of the declaration and behind its body nor greater limits move the end of a
symbol. -/
theorem found_ends_are_local {α : Type} [Scalar α] (lexis : Lexis) (countParens : Bool) :
    (∀ (front body behind : List (List Char)) (maxLines last more : Int),
      findEndFrom? lexis countParens maxLines body 0 = some (some last) →
      maxLines ≤ more ∨ more = last + 1 →
      findEndFrom? lexis countParens more (front ++ body ++ behind) front.length =
        some (some (front.length + last))) ∧
    (∀ (lines : List (List Char)) (start maxLines last : Int),
      findEndFrom? lexis countParens maxLines lines start = some (some last) →
      start ≤ last ∧ last < min (start + maxLines) lines.length) ∧
    ∀ (settings settings' : Settings α) (source source' : Source) (symbol : Symbol)
      (front front' body behind behind' : List (List Char)) (line : Nat),
      ReachesAsFar settings settings' → source.lines = front ++ body ++ behind →
      source'.lines = front' ++ body ++ behind' → line < body.length →
      scanFor settings (.counting lexis) source front.length symbol.kind =
        .found (front.length + line) →
      symbolEnd? settings' (.counting lexis) source' symbol front'.length =
        some (front'.length + line : Int) := by
  refine ⟨?_, ?_, ?_⟩
  · intro front body behind maxLines last more found reaches
    obtain ⟨below, from', line, rfl, -, scanned⟩ := exists_of_found found
    obtain rfl : body = below := by simpa [linesFrom?] using from'
    have alone : findEndFrom? lexis countParens maxLines ([] ++ body ++ []) ([] : List Char).length =
        some (some (([] : List Char).length + line : Int)) := by
      simpa using found
    rw [Int.zero_add] at reaches ⊢
    exact findEndFrom?_moved (scanLines_lt scanned) alone reaches
  · intro lines start maxLines last found
    obtain ⟨below, from', line, rfl, within, scanned⟩ := exists_of_found found
    have inLines := scanLines_lt scanned
    rw [length_linesFrom? from'] at inLines
    omega
  · intro settings settings' source source' symbol front front' body behind behind' line far lines
      lines' inBody found
    exact symbolEnd?_moved far lexis lines lines' inBody found

/-- A function of two lines, and the same one behind a comment and in front of a stray brace. -/
theorem end_of_moved_function :
    let body := ["function f() \x7b".toList, "\x7d".toList]
    let source (content : String) : Source :=
      .ofRecord "f.js" content (none : Option (FileRecord Float))
    let symbol : Symbol := ⟨"f", .function, "f.js", 1, none⟩
    findEndFrom? {} true 200 body 0 = some (some 1) ∧
      findEndFrom? {} true 2 (["// f".toList] ++ body ++ ["\x7d".toList]) 1 = some (some 2) ∧
      (1 : Int) ≤ 2 ∧ (2 : Int) < min (1 + 2) 4 ∧
      symbolEnd? ({ maxFunctionLines := 300 } : Settings Float) (.counting {})
        (source "// f\nfunction f() \x7b\n\x7d\n\x7d") symbol 1 = some 2 := by
  intro body source symbol
  have found : findEndFrom? {} true 200 body 0 = some (some 1) := by decide
  have settled := @found_ends_are_local Float _ {} true
  have moved := settled.1 ["// f".toList] body ["\x7d".toList] 200 1 2 found (.inr rfl)
  have bounds := settled.2.1 _ _ _ _ moved
  refine ⟨found, moved, bounds.1, bounds.2, ?_⟩
  exact settled.2.2 {} { maxFunctionLines := 300 } (source "function f() \x7b\n\x7d")
    (source "// f\nfunction f() \x7b\n\x7d\n\x7d") symbol [] ["// f".toList] body []
    ["\x7d".toList] 1 ⟨by decide, by decide⟩ (by decide) (by decide) (by decide) rfl

end CodeSearch
