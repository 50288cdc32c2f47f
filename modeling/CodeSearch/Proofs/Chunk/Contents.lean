import CodeSearch.Proofs.Chunk.Distinct
import CodeSearch.Proofs.Chunk.LiveText

/-! # What the chunks of a file hold

The chunks of a file are its preview, then one chunk for every declaration, then the blocks between
declarations. All of them stand on lines of the file and hold a stretch of its text: a declaration
the whole of its lines, the preview and the blocks as much of theirs as their limit allows.
-/

namespace CodeSearch

namespace Text

theorem prefix_joinWith (separator : List Char) (first second : List (List Char)) :
    joinWith separator first <+: joinWith separator (first ++ second) := by
  by_cases none : first = []
  · simp [none, joinWith]
  · by_cases last : second = []
    · simp [last]
    · rw [joinWith_append separator first second none last, List.append_assoc]
      exact List.prefix_append _ _

theorem suffix_joinWith (separator : List Char) (first second : List (List Char)) :
    joinWith separator second <:+ joinWith separator (first ++ second) := by
  by_cases none : second = []
  · simp [none, joinWith]
  · by_cases whole : first = []
    · simp [whole]
    · rw [joinWith_append separator first second whole none]
      exact List.suffix_append _ _

/-- Lines that follow each other are a stretch of the text. -/
theorem infix_joinWith (separator : List Char) {part whole : List (List Char)}
    (stretch : part <:+: whole) : joinWith separator part <:+: joinWith separator whole := by
  obtain ⟨before, after, rfl⟩ := stretch
  exact (suffix_joinWith separator before part).isInfix.trans
    (prefix_joinWith separator (before ++ part) after).isInfix

theorem infix_slice {α : Type} (start stop : Int) (members : List α) :
    slice start stop members <:+: members :=
  (List.take_prefix _ _).isInfix.trans (List.drop_suffix _ _).isInfix

theorem infix_joinWith_slice (start stop : Int) (text : List Char) :
    joinWith ['\n'] (slice start stop (lines text)) <:+: text := by
  have stretch := infix_joinWith ['\n'] (infix_slice start stop (lines text))
  rwa [joinWith_lines] at stretch

/-- The lines of a text from one up to another, counted from one and both included, as one text. -/
def between (first last : Int) (text : List Char) : List Char :=
  joinWith ['\n'] (((lines text).drop (first - 1).toNat).take (last - first + 1).toNat)

theorem upTo_eq_take {α : Type} {stop : Int} (forward : 0 ≤ stop) (members : List α) :
    upTo stop members = members.take stop.toNat := by
  obtain ⟨count, rfl⟩ := Int.eq_ofNat_of_zero_le forward
  exact upTo_natCast count members

/-- A cut from one bound up to another takes the lines behind the first up to the second. -/
theorem joinWith_slice_lines {start stop : Int} (whole : 0 ≤ start) (rising : start ≤ stop)
    (text : List Char) :
    joinWith ['\n'] (slice start stop (lines text)) = between (start + 1) stop text := by
  obtain ⟨low, rfl⟩ := Int.eq_ofNat_of_zero_le whole
  obtain ⟨high, rfl⟩ := Int.eq_ofNat_of_zero_le (Int.le_trans whole rising)
  rw [slice_natCast, between]
  congr 2
  · omega
  · congr 1
    omega

end Text

/-! ## Where declarations end -/

namespace Boundary

variable {lexis : Lexis} {countParens : Bool}

/-- A declaration ends behind the place where it starts, within the lines that are looked at. -/
theorem findEnd?_bounds {maxLines : Int} {lines : List (List Char)} {start last : Nat}
    (found : findEnd? lexis countParens maxLines lines start = some last) :
    start ≤ last ∧ last < start + maxLines.toNat ∧ last < lines.length := by
  obtain ⟨offset, ends, rfl⟩ := Option.map_eq_some_iff.mp found
  have inside := scanLines_lt ends
  rw [List.length_take, List.length_drop] at inside
  omega

end Boundary

/-! ## Chunks -/

/-- Limits that count from the start of what they cut, and previews of one line at least. -/
structure Settings.CountsForward {α : Type} [Scalar α] (settings : Settings α) : Prop where
  previewLength : 0 ≤ settings.filePreviewLength
  previewLines : 1 ≤ settings.filePreviewLines
  blockLength : 0 ≤ settings.blockContentLength
  fullLength : 0 ≤ settings.fullContentLength
  blockGap : 0 ≤ settings.minBlockGap
  endOffset : 0 ≤ settings.defaultEndLineOffset

namespace Chunk

/-- A chunk stands on lines of a text and holds a stretch of it. -/
structure IsPartOf (content : String) (chunk : Chunk) : Prop where
  first : 1 ≤ chunk.startLine
  order : chunk.startLine ≤ chunk.endLine
  last : chunk.endLine ≤ (Text.lines content.toList).length
  stretch : chunk.content.toList <:+: content.toList

/-- The text of the lines on which a chunk stands. -/
def linesIn (content : String) (chunk : Chunk) : List Char :=
  Text.between chunk.startLine chunk.endLine content.toList

/-- A chunk holds the lines of a declaration, from the one on which it is declared. -/
structure IsOfSymbol (content : String) (symbol : Symbol) (chunk : Chunk) : Prop where
  named : chunk.symbol = some symbol
  kind : chunk.kind = .ofSymbolKind symbol.kind
  startLine : chunk.startLine = symbol.line
  lines : chunk.content.toList = chunk.linesIn content

/-- A chunk holds the beginning of its lines. -/
structure IsGap (content : String) (limit : Int) (chunk : Chunk) : Prop where
  kind : chunk.kind = .block
  unnamed : chunk.symbol = none
  lines : chunk.content.toList = (chunk.linesIn content).take limit.toNat

/-- A chunk holds the beginning of a text. -/
structure IsBeginning (content : String) (limit : Int) (kind : ChunkKind) (chunk : Chunk) : Prop
    where
  kind : chunk.kind = kind
  unnamed : chunk.symbol = none
  beginning : chunk.content.toList = content.toList.take limit.toNat

end Chunk

namespace Splitting

variable {α : Type} [Scalar α]

/-- The chunks of a text are its preview, one chunk for each declaration, in their order, and the
blocks: one that shows the text if nothing is declared in it, else such as lie between declarations.
-/
structure FollowsText (settings : Settings α) (content : String) (symbols : List Symbol)
    (preview : Chunk) (declared blocks : List Chunk) : Prop where
  beginning : preview.IsBeginning content settings.filePreviewLength .file
  one_each : List.Forall₂ (Chunk.IsOfSymbol content) symbols declared
  gaps : symbols ≠ [] → ∀ block ∈ blocks, block.IsGap content settings.blockContentLength
  whole : symbols = [] → ∃ block, blocks = [block] ∧
    block.IsBeginning content settings.fullContentLength .block
  no_preview : ∀ chunk ∈ declared ++ blocks, chunk.kind ≠ .file
  parts : ∀ chunk ∈ preview :: (declared ++ blocks), chunk.IsPartOf content

variable {settings : Settings α} {content : String} {source : Source}

/-! ### Beginnings of a text -/

private theorem toList_cut {limit : Int} (forward : 0 ≤ limit) (text : String) :
    (cut limit text).toList = text.toList.take limit.toNat := by
  rw [cut, String.toList_ofList, Text.upTo_eq_take forward]

private theorem fileChunk_isBeginning (limits : settings.CountsForward)
    (text : source.content = content) :
    (fileChunk settings source).IsBeginning content settings.filePreviewLength .file :=
  ⟨rfl, rfl, by rw [fileChunk, text, toList_cut limits.previewLength]⟩

private theorem wholeBlock_isBeginning (limits : settings.CountsForward)
    (text : source.content = content) :
    (wholeBlock settings source).IsBeginning content settings.fullContentLength .block :=
  ⟨rfl, rfl, by rw [wholeBlock, text, toList_cut limits.fullLength]⟩

private theorem isPartOf_of_isBeginning {limit : Int} {kind : ChunkKind} {chunk : Chunk}
    (beginning : chunk.IsBeginning content limit kind) (limits : settings.CountsForward)
    (first : chunk.startLine = 1)
    (last : chunk.endLine = min settings.filePreviewLines (Text.lines content.toList).length) :
    chunk.IsPartOf content := by
  have lines := List.length_pos_iff.mpr (Text.lines_ne_nil content.toList)
  have preview := limits.previewLines
  refine ⟨by omega, by omega, by omega, ?_⟩
  rw [beginning.beginning]
  exact (List.take_prefix _ _).isInfix

/-! ### Declarations -/

/-- Comments are looked for wherever a declaration stands. -/
theorem above?_isSome (family : CommentFamily) {lines : List (List Char)} {index : Nat}
    (inside : index ≤ lines.length) (lookback : Int) :
    (LeadingComments.above? family lines index lookback).isSome = true := by
  rw [LeadingComments.above?]
  split
  · rfl
  · rw [Option.isSome_map, LeadingComments.linesAbove?]
    split
    · rfl
    · rw [if_neg (by omega)]
      rfl

private theorem scanFor_counting (settings : Settings α) (source : Source) (lexis : Lexis)
    (start : Nat) (kind : SymbolKind) :
    scanFor settings (.counting lexis) source start kind = .unknown ∨
      ∃ last : Nat, scanFor settings (.counting lexis) source start kind = .found last ∧
        start ≤ last ∧ last < source.lines.length := by
  -- limits that count forward keep every end that is found on a line of the file
  have counted (countParens : Bool) (maxLines : Int) :
      (BoundaryScanner.counting lexis).findEnd source.lines start countParens maxLines = .unknown ∨
        ∃ last : Nat, (BoundaryScanner.counting lexis).findEnd source.lines start countParens
            maxLines = .found last ∧ start ≤ last ∧ last < source.lines.length := by
    simp only [BoundaryScanner.counting]
    cases ends : Boundary.findEnd? lexis countParens maxLines source.lines start with
    | none => exact .inl rfl
    | some last =>
      obtain ⟨behind, -, within⟩ := Boundary.findEnd?_bounds ends
      exact .inr ⟨last, rfl, behind, within⟩
  cases kind with
  | function => exact counted true settings.maxFunctionLines
  | classType => exact counted false settings.maxClassLines
  | interface => exact counted false settings.maxClassLines
  | type => exact .inl rfl
  | «variable» => exact .inl rfl
  | constant => exact .inl rfl
  | enum => exact .inl rfl

private theorem symbolEnd?_counting (limits : settings.CountsForward) (lexis : Lexis)
    (symbol : Symbol) {start : Nat} (inside : start < source.lines.length) :
    ∃ last : Nat, symbolEnd? settings (.counting lexis) source symbol start = some (last : Int) ∧
      start ≤ last ∧ last < source.lines.length := by
  have offset := limits.endOffset
  rw [symbolEnd?]
  rcases scanFor_counting settings source lexis start symbol.kind with
    scan | ⟨last, scan, bounds⟩
  · have whole : 0 ≤ min (start + settings.defaultEndLineOffset) (lineCount source - 1) := by
      rw [lineCount]
      omega
    obtain ⟨last, same⟩ := Int.eq_ofNat_of_zero_le whole
    refine ⟨last, by rw [scan, same], ?_⟩
    rw [lineCount] at same
    omega
  · exact ⟨last, by rw [scan], bounds⟩

private theorem symbolChunk?_counting (limits : settings.CountsForward) (lexis : Lexis)
    (cut : source.lines = Text.lines content.toList) {symbol : Symbol}
    (stands : 1 ≤ symbol.line ∧ symbol.line ≤ (Text.lines content.toList).length) :
    ∃ chunk, symbolChunk? settings (.counting lexis) source symbol = some chunk ∧
      chunk.IsOfSymbol content symbol ∧ chunk.IsPartOf content := by
  obtain ⟨start, place⟩ := Int.eq_ofNat_of_zero_le (show 0 ≤ symbol.line - 1 by omega)
  have inside : start < source.lines.length := by rw [cut]; omega
  have begins : symbolStart source symbol = start := by
    rw [symbolStart, lineCount]
    omega
  obtain ⟨last, ends, behind, within⟩ := symbolEnd?_counting limits lexis symbol inside
  obtain ⟨comments, above⟩ := Option.isSome_iff_exists.mp
    (above?_isSome (commentFamilyOf source.language) (Nat.le_of_lt inside)
      settings.maxLookbackLines)
  have text : (joinLines (Text.slice start (last + 1) source.lines)).toList =
      Text.between (start + 1) (last + 1) content.toList := by
    rw [joinLines, String.toList_ofList, cut, Text.joinWith_slice_lines (by omega) (by omega)]
  have made := symbolChunk?.eq_1 settings (.counting lexis) source symbol
  simp only [begins, ends, above, Option.bind_eq_bind, Option.bind_some] at made
  refine ⟨_, made, ⟨rfl, rfl, ?_, text⟩, ?_⟩
  · change (start : Int) + 1 = symbol.line
    omega
  · rw [cut] at within
    refine ⟨?_, ?_, ?_, ?_⟩
    · change 1 ≤ (start : Int) + 1
      omega
    · change (start : Int) + 1 ≤ last + 1
      omega
    · change (last : Int) + 1 ≤ _
      omega
    · change (joinLines _).toList <:+: _
      rw [joinLines, String.toList_ofList, cut]
      exact Text.infix_joinWith_slice _ _ _

private theorem forall₂_symbolChunk? (limits : settings.CountsForward) (lexis : Lexis)
    (cut : source.lines = Text.lines content.toList) {symbols : List Symbol}
    (stand : ∀ symbol ∈ symbols,
      1 ≤ symbol.line ∧ symbol.line ≤ (Text.lines content.toList).length) :
    List.Forall₂ (Chunk.IsOfSymbol content) symbols
      (symbols.filterMap (symbolChunk? settings (.counting lexis) source)) := by
  induction symbols with
  | nil => exact .nil
  | cons symbol rest ih =>
    obtain ⟨chunk, made, holds, -⟩ :=
      symbolChunk?_counting limits lexis cut (stand symbol List.mem_cons_self)
    rw [List.filterMap_cons_some made]
    exact .cons holds (ih fun other member => stand other (List.mem_cons_of_mem _ member))

private theorem ofSymbolKind_ne_file (kind : SymbolKind) : ChunkKind.ofSymbolKind kind ≠ .file := by
  cases kind <;> decide

private theorem symbolChunk?_isPartOf (limits : settings.CountsForward) (lexis : Lexis)
    (cut : source.lines = Text.lines content.toList) {symbols : List Symbol}
    (stand : ∀ symbol ∈ symbols,
      1 ≤ symbol.line ∧ symbol.line ≤ (Text.lines content.toList).length) {chunk : Chunk}
    (member : chunk ∈ symbols.filterMap (symbolChunk? settings (.counting lexis) source)) :
    chunk.kind ≠ .file ∧ chunk.IsPartOf content := by
  obtain ⟨symbol, known, made⟩ := List.mem_filterMap.mp member
  obtain ⟨own, made', holds, part⟩ := symbolChunk?_counting limits lexis cut (stand symbol known)
  cases made.symm.trans made'
  exact ⟨holds.kind ▸ ofSymbolKind_ne_file symbol.kind, part⟩

/-! ### Blocks -/

private theorem gapBlock?_isGap (limits : settings.CountsForward)
    (cut : source.lines = Text.lines content.toList) {index : Nat} {start stop : Int}
    (whole : 0 ≤ start) (within : stop ≤ (Text.lines content.toList).length) {chunk : Chunk}
    (made : gapBlock? settings source index start stop = some chunk) :
    chunk.IsGap content settings.blockContentLength ∧ chunk.IsPartOf content := by
  have gap := limits.blockGap
  rw [gapBlock?] at made
  split at made
  · next far =>
    simp only at made
    split at made
    · cases made
      have text : (joinLines (Text.slice start stop source.lines)).toList =
          Text.between (start + 1) stop content.toList := by
        rw [joinLines, String.toList_ofList, cut, Text.joinWith_slice_lines whole (by omega)]
      have lines := toList_cut limits.blockLength
        (joinLines (Text.slice start stop source.lines))
      refine ⟨⟨rfl, rfl, ?_⟩, ⟨?_, ?_, within, ?_⟩⟩
      · rw [lines, text]
        rfl
      · change 1 ≤ start + 1
        omega
      · change start + 1 ≤ stop
        omega
      · rw [lines, joinLines, String.toList_ofList, cut]
        exact (List.take_prefix _ _).isInfix.trans (Text.infix_joinWith_slice _ _ _)
    · cases made
  · cases made

private theorem gapBlocks_isGap (limits : settings.CountsForward)
    (cut : source.lines = Text.lines content.toList) {index : Nat} {start : Int}
    (whole : 0 ≤ start) {symbols : List Symbol}
    (stand : ∀ symbol ∈ symbols,
      1 ≤ symbol.line ∧ symbol.line ≤ (Text.lines content.toList).length) {chunk : Chunk}
    (member : chunk ∈ gapBlocks settings source index start symbols) :
    chunk.IsGap content settings.blockContentLength ∧ chunk.IsPartOf content := by
  induction symbols generalizing index start with
  | nil => cases member
  | cons symbol rest ih =>
    have here := stand symbol List.mem_cons_self
    rcases List.mem_append.mp member with own | later
    · exact gapBlock?_isGap limits cut whole (by omega) (Option.mem_toList.mp own)
    · exact ih (by omega) (fun other known => stand other (List.mem_cons_of_mem _ known)) later

/-! ### All chunks -/

private theorem blockChunks_follow (limits : settings.CountsForward)
    (text : source.content = content) (cut : source.lines = Text.lines content.toList)
    {symbols : List Symbol}
    (stand : ∀ symbol ∈ symbols,
      1 ≤ symbol.line ∧ symbol.line ≤ (Text.lines content.toList).length) :
    (symbols ≠ [] → ∀ block ∈ blockChunks settings source symbols,
      block.IsGap content settings.blockContentLength) ∧
    (symbols = [] → ∃ block, blockChunks settings source symbols = [block] ∧
      block.IsBeginning content settings.fullContentLength .block) ∧
    ∀ block ∈ blockChunks settings source symbols, block.kind = .block ∧ block.IsPartOf content := by
  cases symbols with
  | nil =>
    have whole := wholeBlock_isBeginning limits text
    refine ⟨fun some => absurd rfl some, fun _ => ⟨_, rfl, whole⟩, ?_⟩
    intro block member
    rw [List.mem_singleton.mp member]
    exact ⟨rfl, isPartOf_of_isBeginning whole limits rfl (by rw [← cut]; rfl)⟩
  | cons symbol rest =>
    have gaps := fun block (member : block ∈ blockChunks settings source (symbol :: rest)) =>
      gapBlocks_isGap limits cut (Int.le_refl 0) stand member
    refine ⟨fun _ block member => (gaps block member).1, ?_, ?_⟩
    · intro none
      cases none
    · exact fun block member => ⟨(gaps block member).1.kind, (gaps block member).2⟩

end Splitting

open Splitting

/-- The chunks of a file follow its text: the preview, then the declarations found in it, then the
blocks, and all of them are parts of the file. -/
theorem chunkFile_follows_text {α β : Type} [Scalar α] (settings : Settings α)
    (limits : settings.CountsForward) (path content tag filePath : String)
    (record : Option (FileRecord β)) :
    ∃ preview declared blocks,
      chunkFile settings path content (extractSymbols content tag filePath) record =
        preview :: (declared ++ blocks) ∧
      FollowsText settings content (extractSymbols content tag filePath) preview declared
        blocks := by
  have stand : ∀ symbol ∈ extractSymbols content tag filePath,
      1 ≤ symbol.line ∧ symbol.line ≤ (Text.lines content.toList).length :=
    fun _ member => line_of_mem_extractSymbols member
  generalize extractSymbols content tag filePath = symbols at stand
  let source := Source.ofRecord path content record
  let lexis := Lexis.ofTag source.language
  have text : source.content = content := rfl
  have cut : source.lines = Text.lines content.toList := rfl
  have preview := fileChunk_isBeginning limits text
  have declared := forall₂_symbolChunk? limits lexis cut stand
  have parts chunk (member : chunk ∈ symbols.filterMap
      (symbolChunk? settings (.counting lexis) source)) :=
    symbolChunk?_isPartOf limits lexis cut stand member
  obtain ⟨gaps, whole, blocks⟩ := blockChunks_follow limits text cut stand
  refine ⟨fileChunk settings source, _, blockChunks settings source symbols, rfl, preview, declared,
    gaps, whole, ?_, ?_⟩
  · intro chunk member
    rcases List.mem_append.mp member with named | block
    · exact (parts chunk named).1
    · rw [(blocks chunk block).1]
      decide
  · intro chunk member
    rcases List.mem_cons.mp member with rfl | member
    · exact isPartOf_of_isBeginning preview limits rfl rfl
    · rcases List.mem_append.mp member with named | block
      · exact (parts chunk named).2
      · exact (blocks chunk block).2

/-- Assignments, far enough from the start to be a block, and then a function and a class. -/
def smallScript : String :=
  "first = 1;\nsecond = 2;\nthird = 3;\n\nfourth = 4;\n// the rest\n" ++
    "function run(at = \x7b\x7d) \x7b\n  go('\x7d');\n\x7d\nclass Box \x7b\x7d"

theorem chunks_of_small_script_follow_it :
    ({} : Settings Float).CountsForward ∧
    (chunkFile ({} : Settings Float) "a.ts" smallScript
        (extractSymbols smallScript "typescript" "a.ts") (none : Option (FileRecord Float))).map
      (fun chunk => (chunk.kind, chunk.startLine, chunk.endLine)) =
      [(.file, 1, 10), (.function, 7, 9), (.classType, 10, 10), (.block, 1, 6)] ∧
    ∃ preview declared blocks,
      chunkFile ({} : Settings Float) "a.ts" smallScript
          (extractSymbols smallScript "typescript" "a.ts") (none : Option (FileRecord Float)) =
        preview :: (declared ++ blocks) ∧
      FollowsText ({} : Settings Float) smallScript
        (extractSymbols smallScript "typescript" "a.ts") preview declared blocks := by
  have limits : ({} : Settings Float).CountsForward :=
    ⟨by decide, by decide, by decide, by decide, by decide, by decide⟩
  exact ⟨limits, by decide +kernel,
    chunkFile_follows_text {} limits "a.ts" smallScript "typescript" "a.ts" none⟩

end CodeSearch
