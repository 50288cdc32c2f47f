import CodeSearch.Proofs.Chunk.Contents

/-! # The blocks between declarations

The lines of a file in front of its first declaration, and the lines from one declaration up to the
next one, are the gaps of the file. A gap with lines and text enough is one block. The blocks follow
each other, no line is in two of them, and none has a declaration behind its first line.
-/

namespace CodeSearch

/-- A gap that the symbol at some position closes: from the start of the file, or from the line of
the symbol before it, up to the line in front of its own. Lines are counted from one. -/
inductive IsGapAt (symbols : List Symbol) : Nat → Int → Int → Prop
  | start {symbol : Symbol} (closing : symbols[0]? = some symbol) :
      IsGapAt symbols 0 1 (symbol.line - 1)
  | between {index : Nat} {previous symbol : Symbol} (opening : symbols[index]? = some previous)
      (closing : symbols[index + 1]? = some symbol) :
      IsGapAt symbols (index + 1) previous.line (symbol.line - 1)

namespace IsGapAt

variable {symbols : List Symbol} {index : Nat} {first last : Int}

/-- The gap that a symbol closes starts where the block that ends at it does. -/
theorem iff_blockStart :
    IsGapAt symbols index first last ↔
      ∃ symbol, symbols[index]? = some symbol ∧
        first = Splitting.blockStart 0 symbols index + 1 ∧ last = symbol.line - 1 := by
  constructor
  · intro gap
    cases gap with
    | start closing => exact ⟨_, closing, rfl, rfl⟩
    | between opening closing =>
      refine ⟨_, closing, ?_, rfl⟩
      rw [Splitting.blockStart, List.getD_cons_succ, List.getD_eq_getElem?_getD, List.getElem?_map,
        opening]
      change _ = _ - 1 + 1
      omega
  · rintro ⟨symbol, closing, rfl, rfl⟩
    cases index with
    | zero => exact .start closing
    | succ index =>
      have inside : index < symbols.length := by
        have := (List.getElem?_eq_some_iff.mp closing).1
        omega
      have opening := List.getElem?_eq_getElem inside
      have place : Splitting.blockStart 0 symbols (index + 1) + 1 = symbols[index].line := by
        rw [Splitting.blockStart, List.getD_cons_succ, List.getD_eq_getElem?_getD,
          List.getElem?_map, opening]
        change symbols[index].line - 1 + 1 = _
        omega
      rw [place]
      exact .between opening closing

/-- A gap starts on a line of the file. -/
theorem one_le (gap : IsGapAt symbols index first last)
    (stand : ∀ symbol ∈ symbols, 1 ≤ symbol.line) : 1 ≤ first := by
  cases gap with
  | start => exact Int.le_refl 1
  | between opening => exact stand _ (List.mem_of_getElem? opening)

/-- Of declarations from top to bottom none stands in a gap behind its first line. -/
theorem clear (gap : IsGapAt symbols index first last)
    (sorted : symbols.Pairwise fun first second => first.line ≤ second.line) {symbol : Symbol}
    (member : symbol ∈ symbols) : symbol.line ≤ first ∨ last < symbol.line := by
  obtain ⟨position, inside, rfl⟩ := List.getElem_of_mem member
  have rises (low high : Nat) (within : high < symbols.length) (le : low ≤ high) :
      symbols[low].line ≤ symbols[high].line := by
    rcases Nat.lt_or_eq_of_le le with less | rfl
    · exact List.pairwise_iff_getElem.mp sorted low high _ _ less
    · exact Int.le_refl _
  cases gap with
  | start closing =>
    obtain ⟨within, rfl⟩ := List.getElem?_eq_some_iff.mp closing
    have := rises 0 position inside (Nat.zero_le _)
    omega
  | @between index _ _ opening closing =>
    obtain ⟨before, rfl⟩ := List.getElem?_eq_some_iff.mp opening
    obtain ⟨within, rfl⟩ := List.getElem?_eq_some_iff.mp closing
    by_cases above : position ≤ index
    · have := rises position index before above
      omega
    · have := rises (index + 1) position inside (by omega)
      omega

end IsGapAt

namespace Splitting

variable {α : Type} [Scalar α] {settings : Settings α} {source : Source} {symbols : List Symbol}

private theorem isLongGap_iff {content : String} (cut : source.lines = Text.lines content.toList)
    (gap : 0 ≤ settings.minBlockGap) {start stop : Int} (whole : 0 ≤ start) :
    IsLongGap settings source start stop ↔
      settings.minBlockGap < stop - start ∧
        settings.minBlockLength <
          (Text.trim (Text.between (start + 1) stop content.toList)).length := by
  have text (far : settings.minBlockGap < stop - start) :
      (joinLines (Text.slice start stop source.lines)).toList =
        Text.between (start + 1) stop content.toList := by
    rw [joinLines, String.toList_ofList, cut, Text.joinWith_slice_lines whole (by omega)]
  rw [IsLongGap]
  constructor
  · rintro ⟨far, long⟩
    have far : settings.minBlockGap < stop - start := by omega
    exact ⟨far, text far ▸ long⟩
  · rintro ⟨far, long⟩
    exact ⟨by omega, (text far).symm ▸ long⟩

private theorem lt_startLine_of_mem_gapBlocks {index : Nat} {start : Int}
    (sorted : symbols.Pairwise fun first second => first.line ≤ second.line)
    (behind : ∀ symbol ∈ symbols, start < symbol.line) {block : Chunk}
    (member : block ∈ gapBlocks settings source index start symbols) : start < block.startLine := by
  induction symbols generalizing index start with
  | nil => cases member
  | cons symbol rest ih =>
    obtain ⟨least, sorted⟩ := List.pairwise_cons.mp sorted
    rcases List.mem_append.mp member with here | later
    · rw [(isBlockAt_of_gapBlock? (Option.mem_toList.mp here)).startLine]
      omega
    · have further : ∀ other ∈ rest, symbol.line - 1 < other.line := by
        intro other known
        have := least other known
        omega
      have below := ih sorted further later
      have := behind symbol List.mem_cons_self
      omega

private theorem gapBlocks_pairwise {index : Nat} {start : Int}
    (sorted : symbols.Pairwise fun first second => first.line ≤ second.line) :
    (gapBlocks settings source index start symbols).Pairwise fun first second =>
      first.endLine < second.startLine := by
  -- what ends at the first symbol lies above its line, and all else from its line on
  induction symbols generalizing index start with
  | nil => exact List.Pairwise.nil
  | cons symbol rest ih =>
    obtain ⟨least, sorted⟩ := List.pairwise_cons.mp sorted
    refine List.pairwise_append.mpr ⟨?_, ih sorted, ?_⟩
    · cases gapBlock? settings source index start (symbol.line - 1) with
      | none => exact List.Pairwise.nil
      | some block => exact List.pairwise_singleton _ block
    · intro first here second later
      have further : ∀ other ∈ rest, symbol.line - 1 < other.line := by
        intro other known
        have := least other known
        omega
      rw [(isBlockAt_of_gapBlock? (Option.mem_toList.mp here)).endLine]
      exact lt_startLine_of_mem_gapBlocks sorted further later

/-! ## All gaps of a text -/

/-- Blocks are the gaps that are long enough, from top to bottom and without a line in common. -/
structure AreGaps (settings : Settings α) (path content : String) (symbols : List Symbol)
    (blocks : List Chunk) : Prop where
  rising : blocks.Pairwise fun first second => first.endLine < second.startLine
  isGap : ∀ block ∈ blocks, ∃ index, IsGapAt symbols index block.startLine block.endLine ∧
    block.id = Chunk.blockId path index
  long : ∀ block ∈ blocks, settings.minBlockGap < block.endLine - block.startLine + 1
  clear : ∀ block ∈ blocks, ∀ symbol ∈ symbols,
    symbol.line ≤ block.startLine ∨ block.endLine < symbol.line
  complete : ∀ index first last, IsGapAt symbols index first last →
    settings.minBlockGap < last - first + 1 →
    settings.minBlockLength < (Text.trim (Text.between first last content.toList)).length →
      ∃ block, blocks.filter (fun block => block.startLine = first ∧ block.endLine = last) =
          [block] ∧
        block.id = Chunk.blockId path index

private theorem filter_range_eq_singleton {blocks : List Chunk}
    (rising : blocks.Pairwise fun first second => first.endLine < second.startLine)
    (forward : ∀ block ∈ blocks, block.startLine ≤ block.endLine) {block : Chunk}
    (member : block ∈ blocks) :
    blocks.filter (fun other =>
      other.startLine = block.startLine ∧ other.endLine = block.endLine) = [block] := by
  induction blocks with
  | nil => cases member
  | cons head rest ih =>
    obtain ⟨above, risingRest⟩ := List.pairwise_cons.mp rising
    rcases List.mem_cons.mp member with rfl | later
    · rw [List.filter_cons_of_pos (by simp), List.filter_eq_nil_iff.mpr]
      intro other known
      have := above other known
      have := forward block member
      simp only [decide_eq_true_eq]
      omega
    · have := above block later
      have := forward head List.mem_cons_self
      rw [List.filter_cons_of_neg (by simp only [decide_eq_true_eq]; omega)]
      exact ih risingRest (fun other known => forward other (List.mem_cons_of_mem _ known)) later

private theorem areGaps_gapBlocks {content : String}
    (cut : source.lines = Text.lines content.toList) (gap : 0 ≤ settings.minBlockGap)
    (stand : ∀ symbol ∈ symbols, 1 ≤ symbol.line)
    (sorted : symbols.Pairwise fun first second => first.line ≤ second.line) :
    AreGaps settings source.path content symbols (gapBlocks settings source 0 0 symbols) := by
  have rising : (gapBlocks settings source 0 0 symbols).Pairwise fun first second =>
      first.endLine < second.startLine := gapBlocks_pairwise sorted
  have shape block (member : block ∈ gapBlocks settings source 0 0 symbols) :
      ∃ index, IsGapAt symbols index block.startLine block.endLine ∧
        block.id = Chunk.blockId source.path index ∧
        settings.minBlockGap < block.endLine - block.startLine + 1 := by
    obtain ⟨index, symbol, place, made⟩ := mem_gapBlocks_iff.mp member
    have shown := isBlockAt_of_gapBlock? made
    have long := (gapBlock?_isSome_iff (0 + index)).mp (Option.isSome_of_mem made)
    refine ⟨index, ?_, Nat.zero_add index ▸ shown.id, ?_⟩
    · exact IsGapAt.iff_blockStart.mpr ⟨symbol, place, shown.startLine, shown.endLine⟩
    · have far := long.1
      rw [shown.startLine, shown.endLine]
      omega
  have forward block (member : block ∈ gapBlocks settings source 0 0 symbols) :
      block.startLine ≤ block.endLine := by
    obtain ⟨index, -, -, long⟩ := shape block member
    omega
  constructor
  case rising => exact rising
  case isGap =>
    intro block member
    obtain ⟨index, here, named, -⟩ := shape block member
    exact ⟨index, here, named⟩
  case long =>
    intro block member
    obtain ⟨index, -, -, long⟩ := shape block member
    exact long
  case clear =>
    intro block member symbol known
    obtain ⟨index, here, -⟩ := shape block member
    exact here.clear sorted known
  case complete =>
    intro index first last here far long
    have low := here.one_le stand
    obtain ⟨symbol, place, opens, rfl⟩ := IsGapAt.iff_blockStart.mp here
    have kept : IsLongGap settings source (blockStart 0 symbols index) (symbol.line - 1) := by
      apply (isLongGap_iff cut gap (by omega)).mpr
      exact ⟨by omega, opens ▸ long⟩
    obtain ⟨block, made⟩ :=
      Option.isSome_iff_exists.mp ((gapBlock?_isSome_iff (0 + index)).mpr kept)
    have shown := isBlockAt_of_gapBlock? made
    have member := mem_gapBlocks_iff.mpr ⟨index, symbol, place, made⟩
    have only := filter_range_eq_singleton rising forward member
    rw [shown.startLine, shown.endLine, ← opens] at only
    exact ⟨block, only, Nat.zero_add index ▸ shown.id⟩

end Splitting

/-- A chunk is a block of a file: neither its preview nor the chunk of a declaration. -/
def Chunk.isBlock (chunk : Chunk) : Bool := chunk.kind == .block && chunk.symbol.isNone

namespace Splitting

variable {α : Type} [Scalar α]

private theorem filter_isBlock_chunks (settings : Settings α) (scanner : BoundaryScanner)
    (source : Source) (symbols : List Symbol) :
    (chunks settings scanner source symbols).filter Chunk.isBlock =
      blockChunks settings source symbols := by
  have declared : (symbols.filterMap (symbolChunk? settings scanner source)).filter
      Chunk.isBlock = [] := by
    apply List.filter_eq_nil_iff.mpr
    intro chunk member
    obtain ⟨symbol, -, made⟩ := List.mem_filterMap.mp member
    rw [Chunk.isBlock, symbol_of_symbolChunk? made]
    simp
  have blocks : (blockChunks settings source symbols).filter Chunk.isBlock =
      blockChunks settings source symbols := by
    apply List.filter_eq_self.mpr
    intro block member
    obtain ⟨kind, unnamed⟩ := unnamed_of_mem_blockChunks member
    rw [Chunk.isBlock, kind, unnamed]
    rfl
  rw [chunks, List.filter_cons_of_neg (by simp [Chunk.isBlock, fileChunk]), List.filter_append,
    declared, blocks, List.nil_append]

end Splitting

open Splitting

/-- The blocks of a file in which something is declared are exactly the gaps between its
declarations that have more lines than the least gap and more text than the least block. -/
theorem blocks_of_chunkFile_are_gaps {α β : Type} [Scalar α] (settings : Settings α)
    (gap : 0 ≤ settings.minBlockGap) (path content tag filePath : String)
    (record : Option (FileRecord β)) (scanner : Option BoundaryScanner)
    (declared : extractSymbols content tag filePath ≠ []) :
    AreGaps settings path content (extractSymbols content tag filePath)
      ((chunkFile settings path content (extractSymbols content tag filePath) record
        scanner).filter Chunk.isBlock) := by
  have stand : ∀ symbol ∈ extractSymbols content tag filePath, 1 ≤ symbol.line :=
    fun _ member => (line_of_mem_extractSymbols member).1
  have sorted := extractSymbols_sorted content tag filePath
  generalize extractSymbols content tag filePath = symbols at declared stand sorted
  rw [chunkFile, filter_isBlock_chunks]
  cases symbols with
  | nil => contradiction
  | cons symbol rest =>
    have cut : (Source.ofRecord path content record).lines = Text.lines content.toList := rfl
    exact areGaps_gapBlocks cut gap stand sorted

/-- A declaration on the first line, two on one line, and gaps that miss being a block by one line
and by one character. -/
def tightScript : String :=
  "function first() \x7b\x7d\none();\ntwo();\nclass Left \x7b\x7d class Right \x7b\x7d\nthree();\n" ++
    "four();\nfive();\nfunction next() \x7b\x7d\n\n\n\nfunction last() \x7b\x7d"

def tightSymbols : List Symbol :=
  [⟨"first", .function, "a.ts", 1, some "function first() \x7b\x7d"⟩,
    ⟨"Left", .classType, "a.ts", 4, some "class Left \x7b\x7d class Right \x7b\x7d"⟩,
    ⟨"Right", .classType, "a.ts", 4, some "class Left \x7b\x7d class Right \x7b\x7d"⟩,
    ⟨"next", .function, "a.ts", 8, some "function next() \x7b\x7d"⟩,
    ⟨"last", .function, "a.ts", 12, some "function last() \x7b\x7d"⟩]

private theorem extractSymbols_tightScript :
    extractSymbols tightScript "typescript" "a.ts" = tightSymbols := by
  have cut : Text.lines tightScript.toList =
      ["function first() \x7b\x7d".toList, "one();".toList, "two();".toList] ++
        "class Left \x7b\x7d class Right \x7b\x7d".toList ::
        ["three();".toList, "four();".toList, "five();".toList, "function next() \x7b\x7d".toList,
          [], [], [], "function last() \x7b\x7d".toList] := by
    decide +kernel
  -- Only a line with several declarations has something to sort, and they stand in their order.
  have both : lineSymbols (Declaration.tableOf "typescript") "a.ts" 4
      "class Left \x7b\x7d class Right \x7b\x7d".toList = (tightSymbols.drop 1).take 2 := by
    rw [lineSymbols, lineFindings, List.mergeSort_of_pairwise (by decide +kernel)]
    decide +kernel
  rw [extractSymbols, cut, symbolsFrom_append, symbolsFrom]
  change _ ++ (lineSymbols _ _ 4 _ ++ _) = _
  rw [both]
  decide +kernel

theorem blocks_of_tight_script_are_gaps :
    let settings : Settings Float := { minBlockGap := 3, minBlockLength := 18 }
    let blocks :=
      (chunkFile settings "a.ts" tightScript (extractSymbols tightScript "typescript" "a.ts")
        (none : Option (FileRecord Float))).filter Chunk.isBlock
    extractSymbols tightScript "typescript" "a.ts" = tightSymbols ∧
    blocks.map (fun block => (block.id, block.startLine, block.endLine)) =
      [("a.ts_block_3", 4, 7)] ∧
    AreGaps settings "a.ts" tightScript (extractSymbols tightScript "typescript" "a.ts")
      blocks := by
  intro settings blocks
  have gaps := blocks_of_chunkFile_are_gaps settings (by decide) "a.ts" tightScript "typescript"
    "a.ts" (none : Option (FileRecord Float)) none
  refine ⟨extractSymbols_tightScript, ?_, gaps ?_⟩
  · simp only [blocks, extractSymbols_tightScript]
    decide +kernel
  · rw [extractSymbols_tightScript]
    decide

end CodeSearch
