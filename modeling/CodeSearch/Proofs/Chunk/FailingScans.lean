import CodeSearch.Proofs.Chunk.Contents

/-! # Scans that fail

A scanner may fail on some declarations. What it fails on loses its chunk; the preview, the chunks of
the other declarations and the blocks are what they would be with a scanner that never fails and
agrees with this one wherever it gives an answer.
-/

namespace CodeSearch

/-- Whether a scan has ended without an answer. -/
def BoundaryResult.isFailure : BoundaryResult → Bool
  | .failed => true
  | .unknown | .found _ => false

/-- A scanner never fails, and gives the answers of another one wherever that one gives any. -/
structure BoundaryScanner.Mends (calm failing : BoundaryScanner) : Prop where
  never : ∀ lines start countParens maxLines,
    (calm.findEnd lines start countParens maxLines).isFailure = false
  agrees : ∀ lines start countParens maxLines,
    (failing.findEnd lines start countParens maxLines).isFailure = false →
      calm.findEnd lines start countParens maxLines =
        failing.findEnd lines start countParens maxLines

namespace BoundaryScanner

/-- A scanner that fails on what starts on certain lines, counted from zero, and else gives the
answers of another one. -/
def failingOn (fails : Nat → Bool) (calm : BoundaryScanner) : BoundaryScanner where
  findEnd lines start countParens maxLines :=
    if fails start then .failed else calm.findEnd lines start countParens maxLines

theorem counting_isFailure (lexis : Lexis) (lines : List (List Char)) (start : Nat)
    (countParens : Bool) (maxLines : Int) :
    ((counting lexis).findEnd lines start countParens maxLines).isFailure = false := by
  simp only [counting]
  cases Boundary.findEnd? lexis countParens maxLines lines start <;> rfl

theorem mends_failingOn {calm : BoundaryScanner}
    (never : ∀ lines start countParens maxLines,
      (calm.findEnd lines start countParens maxLines).isFailure = false) (fails : Nat → Bool) :
    calm.Mends (failingOn fails calm) := by
  constructor
  · exact never
  · intro lines start countParens maxLines answered
    simp only [failingOn] at answered ⊢
    split at answered
    · contradiction
    · next whole => rw [if_neg whole]

end BoundaryScanner

namespace Splitting

variable {α : Type} [Scalar α] {settings : Settings α} {source : Source}
  {calm failing : BoundaryScanner}

/-- Whether the scan for the end of a declaration fails. Functions, classes and interfaces are
scanned, from the line on which they are declared or the nearest one that the file has. -/
def scanFails (settings : Settings α) (scanner : BoundaryScanner) (source : Source)
    (symbol : Symbol) : Bool :=
  let start := symbolStart source symbol
  match symbol.kind with
  | .function => (scanner.findEnd source.lines start true settings.maxFunctionLines).isFailure
  | .classType | .interface =>
    (scanner.findEnd source.lines start false settings.maxClassLines).isFailure
  | .type | .variable | .constant | .enum => false

theorem scanFails_eq_isFailure (settings : Settings α) (scanner : BoundaryScanner) (source : Source)
    (symbol : Symbol) :
    scanFails settings scanner source symbol =
      (scanFor settings scanner source (symbolStart source symbol) symbol.kind).isFailure := by
  rw [scanFails]
  cases symbol.kind <;> rfl

theorem scanFails_of_mends (mends : calm.Mends failing) (symbol : Symbol) :
    scanFails settings calm source symbol = false := by
  rw [scanFails]
  cases symbol.kind with
  | function => exact mends.never _ _ _ _
  | classType => exact mends.never _ _ _ _
  | interface => exact mends.never _ _ _ _
  | type => rfl
  | «variable» => rfl
  | constant => rfl
  | enum => rfl

/-- Declarations are held between the first line of a file and its last one. -/
theorem symbolStart_le_length (source : Source) (symbol : Symbol) :
    symbolStart source symbol ≤ source.lines.length := by
  rw [symbolStart, lineCount]
  omega

/-! ## One declaration -/

private theorem symbolEnd?_isSome (settings : Settings α) (scanner : BoundaryScanner)
    (source : Source) (symbol : Symbol) :
    (symbolEnd? settings scanner source symbol (symbolStart source symbol)).isSome =
      !scanFails settings scanner source symbol := by
  rw [scanFails_eq_isFailure, symbolEnd?]
  cases scanFor settings scanner source (symbolStart source symbol) symbol.kind <;> rfl

private theorem symbolChunk?_of_found {scanner : BoundaryScanner} {symbol : Symbol}
    (answered : scanFails settings scanner source symbol = false) :
    ∃ chunk, symbolChunk? settings scanner source symbol = some chunk ∧
      chunk.symbol = some symbol := by
  have known := symbolEnd?_isSome settings scanner source symbol
  rw [answered] at known
  obtain ⟨last, ends⟩ := Option.isSome_iff_exists.mp known
  obtain ⟨comments, above⟩ := Option.isSome_iff_exists.mp
    (above?_isSome (commentFamilyOf source.language) (symbolStart_le_length source symbol)
      settings.maxLookbackLines)
  have made := symbolChunk?.eq_1 settings scanner source symbol
  simp only [ends, above, Option.bind_eq_bind, Option.bind_some] at made
  exact ⟨_, made, symbol_of_symbolChunk? made⟩

private theorem symbolChunk?_of_failure {scanner : BoundaryScanner} {symbol : Symbol}
    (fails : scanFails settings scanner source symbol = true) :
    symbolChunk? settings scanner source symbol = none := by
  have unknown := symbolEnd?_isSome settings scanner source symbol
  rw [fails, Bool.not_true, Option.isSome_eq_false_iff, Option.isNone_iff_eq_none] at unknown
  rw [symbolChunk?, unknown]
  rfl

private theorem scanFor_of_mends (mends : calm.Mends failing) {symbol : Symbol}
    (answered : scanFails settings failing source symbol = false) :
    scanFor settings calm source (symbolStart source symbol) symbol.kind =
      scanFor settings failing source (symbolStart source symbol) symbol.kind := by
  -- where a scan gives an answer, nothing tells the two scanners apart
  rw [scanFails_eq_isFailure] at answered
  cases kind : symbol.kind with
  | function =>
    rw [kind] at answered
    exact mends.agrees _ _ _ _ answered
  | classType =>
    rw [kind] at answered
    exact mends.agrees _ _ _ _ answered
  | interface =>
    rw [kind] at answered
    exact mends.agrees _ _ _ _ answered
  | type => rfl
  | «variable» => rfl
  | constant => rfl
  | enum => rfl

private theorem symbolChunk?_of_mends (mends : calm.Mends failing) {symbol : Symbol}
    (answered : scanFails settings failing source symbol = false) :
    symbolChunk? settings failing source symbol = symbolChunk? settings calm source symbol := by
  have ends : symbolEnd? settings failing source symbol (symbolStart source symbol) =
      symbolEnd? settings calm source symbol (symbolStart source symbol) := by
    rw [symbolEnd?, symbolEnd?, scanFor_of_mends mends answered]
  rw [symbolChunk?, symbolChunk?, ends]

/-! ## All declarations -/

private theorem forall₂_symbolChunk?_of_mends (mends : calm.Mends failing)
    (symbols : List Symbol) :
    List.Forall₂ (fun symbol chunk => chunk.symbol = some symbol) symbols
      (symbols.filterMap (symbolChunk? settings calm source)) := by
  induction symbols with
  | nil => exact .nil
  | cons symbol rest ih =>
    have answered : scanFails settings calm source symbol = false := scanFails_of_mends mends symbol
    obtain ⟨chunk, made, named⟩ := symbolChunk?_of_found answered
    rw [List.filterMap_cons_some made]
    exact .cons named ih

/-- The chunks of some declarations without those of the declarations whose scan fails. -/
def withoutFailures (settings : Settings α) (scanner : BoundaryScanner) (source : Source)
    (symbols : List Symbol) (declared : List Chunk) : List Chunk :=
  ((symbols.zip declared).filter fun pair => !scanFails settings scanner source pair.1).map
    Prod.snd

private theorem filterMap_symbolChunk?_of_mends (mends : calm.Mends failing)
    (symbols : List Symbol) :
    symbols.filterMap (symbolChunk? settings failing source) =
      withoutFailures settings failing source symbols
        (symbols.filterMap (symbolChunk? settings calm source)) := by
  induction symbols with
  | nil => rfl
  | cons symbol rest ih =>
    have answered : scanFails settings calm source symbol = false := scanFails_of_mends mends symbol
    obtain ⟨chunk, made, -⟩ := symbolChunk?_of_found answered
    rw [withoutFailures] at ih ⊢
    rw [List.filterMap_cons_some made, List.zip_cons_cons]
    cases fails : scanFails settings failing source symbol with
    | false =>
      have kept := (symbolChunk?_of_mends mends fails).trans made
      rw [List.filterMap_cons_some kept, List.filter_cons_of_pos (by rw [fails]; rfl),
        List.map_cons, ih]
    | true =>
      rw [List.filterMap_cons_none (symbolChunk?_of_failure fails),
        List.filter_cons_of_neg (by rw [fails]; decide), ih]

end Splitting

open Splitting

/-- A scanner that fails takes the chunks of those functions, classes and interfaces away whose scan
fails, and changes nothing else: with a scanner that never fails and agrees with it elsewhere, every
declaration has its chunk, and these chunks without the ones of failing scans, between the same
preview and the same blocks, are what the failing scanner leaves. -/
theorem chunkFile_of_failing_scanner {α β : Type} [Scalar α] (settings : Settings α)
    (path content : String) (symbols : List Symbol) (record : Option (FileRecord β))
    {calm failing : BoundaryScanner} (mends : calm.Mends failing) :
    ∃ preview declared blocks,
      chunkFile settings path content symbols record (some calm) =
        preview :: (declared ++ blocks) ∧
      List.Forall₂ (fun symbol chunk => chunk.symbol = some symbol) symbols declared ∧
      (∀ chunk ∈ preview :: blocks, chunk.symbol = none) ∧
      chunkFile settings path content symbols record (some failing) =
        preview :: (withoutFailures settings failing (.ofRecord path content record) symbols
          declared ++ blocks) := by
  let source := Source.ofRecord path content record
  refine ⟨fileChunk settings source, symbols.filterMap (symbolChunk? settings calm source),
    blockChunks settings source symbols, rfl, forall₂_symbolChunk?_of_mends mends symbols, ?_, ?_⟩
  · intro chunk member
    rcases List.mem_cons.mp member with rfl | block
    · rfl
    · exact (unnamed_of_mem_blockChunks block).2
  · rw [← filterMap_symbolChunk?_of_mends mends symbols]
    rfl

/-- Two functions and a type on one line, a class, and a function behind the end of the file. -/
def crowdedSymbols : List Symbol :=
  [⟨"first", .function, "a.ts", 2, none⟩, ⟨"second", .function, "a.ts", 2, none⟩,
    ⟨"Alias", .type, "a.ts", 2, none⟩, ⟨"Box", .classType, "a.ts", 4, none⟩,
    ⟨"gone", .function, "a.ts", 99, none⟩]

def crowdedFile : String :=
  "start\nfunction first() \x7b\x7d function second() \x7b\x7d\n\nclass Box \x7b\x7d\nlast"

theorem failing_scanner_on_crowded_file :
    let settings : Settings Float := { minBlockGap := 0, minBlockLength := 0 }
    let calm := BoundaryScanner.counting (.ofTag "typescript")
    let failing := BoundaryScanner.failingOn (fun start => start == 1 || start == 4) calm
    let chunksWith scanner :=
      chunkFile settings "a.ts" crowdedFile crowdedSymbols (none : Option (FileRecord Float))
        (some scanner)
    (chunksWith calm).map Chunk.id =
      ["a.ts_file", "a.ts_first_2", "a.ts_second_2", "a.ts_Alias_2", "a.ts_Box_4", "a.ts_gone_99",
        "a.ts_block_0", "a.ts_block_3", "a.ts_block_4"] ∧
    (chunksWith failing).map Chunk.id =
      ["a.ts_file", "a.ts_Alias_2", "a.ts_Box_4", "a.ts_block_0", "a.ts_block_3", "a.ts_block_4"] ∧
    ∃ preview declared blocks,
      chunksWith calm = preview :: (declared ++ blocks) ∧
      List.Forall₂ (fun symbol chunk => chunk.symbol = some symbol) crowdedSymbols declared ∧
      (∀ chunk ∈ preview :: blocks, chunk.symbol = none) ∧
      chunksWith failing =
        preview :: (withoutFailures settings failing
          (.ofRecord "a.ts" crowdedFile (none : Option (FileRecord Float))) crowdedSymbols
          declared ++ blocks) := by
  intro settings calm failing chunksWith
  have mends : calm.Mends failing :=
    BoundaryScanner.mends_failingOn (BoundaryScanner.counting_isFailure (.ofTag "typescript")) _
  refine ⟨by decide +kernel, by decide +kernel, ?_⟩
  exact chunkFile_of_failing_scanner settings "a.ts" crowdedFile crowdedSymbols none mends

end CodeSearch
