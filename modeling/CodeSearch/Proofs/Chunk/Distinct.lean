import CodeSearch.Proofs.Chunk.Identity
import Mathlib.Data.List.Nodup

/-! # When the chunks of a file have identifiers of their own

The identifiers of one file name its preview, its declarations and its blocks. A declaration is
named by its name and line, a block by the position of the declaration that ends it. These are the
same text exactly for a declaration called `block` on the line whose number is the block's position,
and nothing else is named twice.
-/

namespace CodeSearch

namespace Chunk

private theorem blockId_eq (path : String) (index : Nat) (symbol : Symbol)
    (named : symbol.name = "block") (line : symbol.line = index) :
    blockId path index = symbolId path symbol := by
  rw [symbolId, named, line, blockId]
  simp only [← String.toList_inj, String.toList_append, List.append_assoc]
  rfl

private theorem mark_notMem_toString {number : Int} (whole : 0 ≤ number) :
    '_' ∉ (toString number).toList := fun member =>
  absurd (isDigit_of_mem_toString whole member) (by decide)

private theorem toList_symbolId (path : String) (symbol : Symbol) :
    (symbolId path symbol).toList =
      (path ++ "_" ++ symbol.name).toList ++ '_' :: (toString symbol.line).toList := by
  simp only [symbolId, String.toList_append, List.append_assoc]
  rfl

private theorem repr_injective {first second : Nat} (same : Nat.repr first = Nat.repr second) :
    first = second := by
  have read := congrArg (fun text : String => Nat.ofDigitChars 10 text.toList 0) same
  simpa only [Nat.toList_repr, Nat.ofDigitChars_ten_toDigits] using read

/-- An identifier of a declaration tells its name and its line. -/
theorem symbolId_inj {path : String} {first second : Symbol} (whole : 0 ≤ first.line)
    (whole' : 0 ≤ second.line) :
    symbolId path first = symbolId path second ↔
      first.name = second.name ∧ first.line = second.line := by
  refine ⟨fun same => ?_, fun ⟨name, line⟩ => by rw [symbolId, symbolId, name, line]⟩
  have chars := congrArg String.toList same
  rw [toList_symbolId, toList_symbolId] at chars
  obtain ⟨front, number⟩ := Text.append_mark_injective (mark_notMem_toString whole)
    (mark_notMem_toString whole') chars
  refine ⟨(String.append_right_inj _).mp (String.toList_inj.mp front), ?_⟩
  obtain ⟨line, firstLine⟩ := Int.eq_ofNat_of_zero_le whole
  obtain ⟨line', secondLine⟩ := Int.eq_ofNat_of_zero_le whole'
  rw [firstLine, secondLine] at number ⊢
  exact congrArg Int.ofNat (repr_injective (String.toList_inj.mp number))

/-- A declaration and a block share an identifier only if the declaration is called `block` and
stands on the line whose number is the block's position. -/
theorem symbolId_eq_blockId_iff {path : String} {symbol : Symbol} (whole : 0 ≤ symbol.line)
    (index : Nat) :
    symbolId path symbol = blockId path index ↔ symbol.name = "block" ∧ symbol.line = index := by
  rw [blockId_eq path index { symbol with name := "block", line := index } rfl rfl,
    symbolId_inj whole (Int.natCast_nonneg index)]

theorem blockId_injective (path : String) {first second : Nat}
    (same : blockId path first = blockId path second) : first = second :=
  repr_injective ((String.append_right_inj _).mp same)

/-- The preview has an identifier of its own: nothing separates a number from the rest of it. -/
theorem symbolId_ne_fileId {path : String} {symbol : Symbol} (whole : 0 ≤ symbol.line) :
    symbolId path symbol ≠ fileId path := by
  intro same
  have chars := congrArg String.toList same
  have shape : (fileId path).toList = path.toList ++ '_' :: "file".toList := by
    rw [fileId, String.toList_append]
    rfl
  rw [toList_symbolId, shape] at chars
  have front := (Text.append_mark_injective (mark_notMem_toString whole) (by decide) chars).1
  have lengths := congrArg List.length front
  simp only [String.toList_append, List.length_append] at lengths
  have separator : "_".toList.length = 1 := rfl
  omega

theorem blockId_ne_fileId (path : String) (index : Nat) : blockId path index ≠ fileId path := by
  rw [blockId_eq path index { (default : Symbol) with name := "block", line := index } rfl rfl]
  exact symbolId_ne_fileId (Int.natCast_nonneg index)

end Chunk

/-! ## Declarations of one text -/

/-- Symbols that differ in their names or stand on different lines. -/
def Symbol.Apart (first second : Symbol) : Prop :=
  ¬ (first.name = second.name ∧ first.line = second.line)

private theorem lineSymbols_apart (table : List Declaration) (path : String) (number : Nat)
    (line : List Char) : (lineSymbols table path number line).Pairwise Symbol.Apart := by
  refine (keepFirst_names _).map _ ?_
  rintro first second different ⟨same, -⟩
  exact different (String.ofList_injective same)

/-- No two symbols of a text have one name and one line. The induction is on the lines; those of
later symbols have greater numbers. -/
theorem extractSymbols_apart (content tag path : String) :
    (extractSymbols content tag path).Pairwise Symbol.Apart := by
  unfold extractSymbols
  generalize Text.lines content.toList = lines
  generalize 1 = number
  induction lines generalizing number with
  | nil => exact List.Pairwise.nil
  | cons line rest ih =>
    refine List.pairwise_append.mpr ⟨lineSymbols_apart _ path number line, ih (number + 1), ?_⟩
    rintro first here second later ⟨-, same⟩
    have below := le_line_of_mem_symbolsFrom later
    rw [line_of_mem_lineSymbols here] at same
    omega

/-! ## Blocks -/

namespace Splitting

variable {α : Type} [Scalar α]

/-- The lines from one place up to another are kept as a block. -/
def IsLongGap (settings : Settings α) (source : Source) (start stop : Int) : Prop :=
  start + settings.minBlockGap < stop ∧
    settings.minBlockLength <
      (Text.trim (joinLines (Text.slice start stop source.lines)).toList).length

/-- Where the block that ends at a symbol begins: on the line of the symbol before it, or at a given
place if there is none. -/
def blockStart (start : Int) (symbols : List Symbol) (index : Nat) : Int :=
  (start :: symbols.map (·.line - 1)).getD index 0

/-- The symbol at a position ends a block that is kept. -/
def EndsBlock (settings : Settings α) (source : Source) (start : Int) (symbols : List Symbol)
    (index : Nat) : Prop :=
  ∃ symbol ∈ symbols[index]?,
    IsLongGap settings source (blockStart start symbols index) (symbol.line - 1)

instance (settings : Settings α) (source : Source) (start stop : Int) :
    Decidable (IsLongGap settings source start stop) :=
  inferInstanceAs (Decidable (_ ∧ _))

instance (settings : Settings α) (source : Source) (start : Int) (symbols : List Symbol)
    (index : Nat) : Decidable (EndsBlock settings source start symbols index) :=
  inferInstanceAs (Decidable (∃ symbol ∈ symbols[index]?, IsLongGap settings source _ _))

variable {settings : Settings α} {scanner : BoundaryScanner} {source : Source}
  {symbols : List Symbol}

theorem gapBlock?_isSome_iff (index : Nat) {start stop : Int} :
    (gapBlock? settings source index start stop).isSome = true ↔
      IsLongGap settings source start stop := by
  simp only [gapBlock?, IsLongGap, gt_iff_lt]
  split
  · next far =>
    split
    · next long => exact iff_of_true rfl ⟨far, long⟩
    · next short => exact iff_of_false Bool.false_ne_true fun gap => short gap.2
  · next near => exact iff_of_false Bool.false_ne_true fun gap => near gap.1

/-- What a block says that ends at the symbol with a certain position. -/
structure IsBlockAt (source : Source) (index : Nat) (start stop : Int) (block : Chunk) : Prop where
  id : block.id = Chunk.blockId source.path index
  kind : block.kind = .block
  unnamed : block.symbol = none
  startLine : block.startLine = start + 1
  endLine : block.endLine = stop

theorem isBlockAt_of_gapBlock? {index : Nat} {start stop : Int} {block : Chunk}
    (made : gapBlock? settings source index start stop = some block) :
    IsBlockAt source index start stop block := by
  simp only [gapBlock?] at made
  split at made
  · split at made
    · cases made
      exact ⟨rfl, rfl, rfl, rfl, rfl⟩
    · cases made
  · cases made

theorem id_of_symbolChunk? {symbol : Symbol} {chunk : Chunk}
    (made : symbolChunk? settings scanner source symbol = some chunk) :
    chunk.id = Chunk.symbolId source.path symbol := by
  simp only [symbolChunk?, Option.bind_eq_bind, Option.bind_eq_some_iff, Option.some.injEq] at made
  obtain ⟨last, -, comments, -, rfl⟩ := made
  rfl

theorem symbol_of_symbolChunk? {symbol : Symbol} {chunk : Chunk}
    (made : symbolChunk? settings scanner source symbol = some chunk) :
    chunk.symbol = some symbol := by
  simp only [symbolChunk?, Option.bind_eq_bind, Option.bind_eq_some_iff, Option.some.injEq] at made
  obtain ⟨last, -, comments, -, rfl⟩ := made
  rfl

/-- The blocks between symbols are those that a symbol ends. -/
theorem mem_gapBlocks_iff {first : Nat} {start : Int} {block : Chunk} :
    block ∈ gapBlocks settings source first start symbols ↔
      ∃ index symbol, symbols[index]? = some symbol ∧
        gapBlock? settings source (first + index) (blockStart start symbols index)
          (symbol.line - 1) = some block := by
  induction symbols generalizing first start with
  | nil =>
    constructor
    · intro member
      cases member
    · rintro ⟨index, symbol, here, -⟩
      cases here
  | cons symbol rest ih =>
    rw [gapBlocks, List.mem_append, Option.mem_toList, ih]
    constructor
    · rintro (here | ⟨index, ending, place, made⟩)
      · exact ⟨0, symbol, rfl, here⟩
      · refine ⟨index + 1, ending, place, ?_⟩
        rw [← made, Nat.add_right_comm, Nat.add_assoc]
        rfl
    · rintro ⟨index, ending, place, made⟩
      cases index with
      | zero =>
        cases place
        exact .inl made
      | succ index =>
        refine .inr ⟨index, ending, place, ?_⟩
        rw [← made, Nat.add_right_comm, Nat.add_assoc]
        rfl

/-- Blocks are named after the positions of the symbols that end them. -/
theorem mem_ids_gapBlocks_iff {first : Nat} {start : Int} {id : String} :
    id ∈ (gapBlocks settings source first start symbols).map Chunk.id ↔
      ∃ index, EndsBlock settings source start symbols index ∧
        id = Chunk.blockId source.path (first + index) := by
  rw [List.mem_map]
  constructor
  · rintro ⟨block, member, rfl⟩
    obtain ⟨index, symbol, place, made⟩ := mem_gapBlocks_iff.mp member
    refine ⟨index, ⟨symbol, place, ?_⟩, (isBlockAt_of_gapBlock? made).id⟩
    exact (gapBlock?_isSome_iff (first + index)).mp (Option.isSome_of_mem made)
  · rintro ⟨index, ⟨symbol, place, long⟩, rfl⟩
    obtain ⟨block, made⟩ :=
      Option.isSome_iff_exists.mp ((gapBlock?_isSome_iff (first + index)).mpr long)
    exact ⟨block, mem_gapBlocks_iff.mpr ⟨index, symbol, place, made⟩,
      (isBlockAt_of_gapBlock? made).id⟩

/-- Blocks are not of a declaration. -/
theorem unnamed_of_mem_blockChunks {block : Chunk}
    (member : block ∈ blockChunks settings source symbols) :
    block.kind = .block ∧ block.symbol = none := by
  cases symbols with
  | nil =>
    rw [List.mem_singleton.mp member]
    exact ⟨rfl, rfl⟩
  | cons symbol rest =>
    obtain ⟨index, ending, -, made⟩ := mem_gapBlocks_iff.mp member
    have shape := isBlockAt_of_gapBlock? made
    exact ⟨shape.kind, shape.unnamed⟩

private theorem ids_gapBlocks_nodup {first : Nat} {start : Int} :
    ((gapBlocks settings source first start symbols).map Chunk.id).Nodup := by
  induction symbols generalizing first start with
  | nil => exact List.nodup_nil
  | cons symbol rest ih =>
    rw [gapBlocks, List.map_append, List.nodup_append]
    refine ⟨?_, ih, ?_⟩
    · cases gapBlock? settings source first start (symbol.line - 1) <;> simp
    · intro id here other later same
      obtain ⟨chunk, made, rfl⟩ := List.mem_map.mp here
      obtain ⟨index, -, named⟩ := mem_ids_gapBlocks_iff.mp later
      have own := isBlockAt_of_gapBlock? (Option.mem_toList.mp made)
      have equal := own.id.symm.trans (same.trans named)
      have position := Chunk.blockId_injective _ equal
      omega

/-! ## All chunks of a file -/

/-- A declaration called `block` has a chunk, and the symbol whose position is the number of its
line ends a block. -/
def NameMeetsBlock (settings : Settings α) (scanner : BoundaryScanner) (source : Source)
    (symbols : List Symbol) : Prop :=
  ∃ symbol ∈ symbols, symbol.name = "block" ∧
    (symbolChunk? settings scanner source symbol).isSome = true ∧
    EndsBlock settings source 0 symbols symbol.line.toNat

instance (settings : Settings α) (scanner : BoundaryScanner) (source : Source)
    (symbols : List Symbol) : Decidable (NameMeetsBlock settings scanner source symbols) :=
  inferInstanceAs (Decidable (∃ symbol ∈ symbols, _ ∧ _ ∧ EndsBlock settings source 0 symbols _))

private theorem ids_symbolChunks_nodup (found : ∀ symbol ∈ symbols, symbol.IsFound)
    (apart : symbols.Pairwise Symbol.Apart) :
    ((symbols.filterMap (symbolChunk? settings scanner source)).map Chunk.id).Nodup := by
  rw [List.Nodup, List.pairwise_map, List.pairwise_filterMap]
  refine apart.imp_of_mem ?_
  intro first second inFirst inSecond apart chunk made chunk' made' same
  rw [id_of_symbolChunk? made, id_of_symbolChunk? made',
    Chunk.symbolId_inj (found first inFirst).line (found second inSecond).line] at same
  exact apart same

private theorem mem_ids_blockChunks {id : String}
    (member : id ∈ (blockChunks settings source symbols).map Chunk.id) :
    ∃ index, id = Chunk.blockId source.path index ∧
      (symbols ≠ [] → EndsBlock settings source 0 symbols index) := by
  cases symbols with
  | nil => exact ⟨0, by simpa [blockChunks, wholeBlock] using member, fun some => absurd rfl some⟩
  | cons symbol rest =>
    obtain ⟨index, ends, named⟩ := mem_ids_gapBlocks_iff.mp member
    exact ⟨index, by rw [named, Nat.zero_add], fun _ => ends⟩

private theorem ids_blockChunks_nodup :
    ((blockChunks settings source symbols).map Chunk.id).Nodup := by
  cases symbols with
  | nil => exact List.nodup_singleton _
  | cons symbol rest => exact ids_gapBlocks_nodup

/-- The chunks of a file have different identifiers unless a declaration called `block` takes that
of a block. -/
theorem ids_nodup_iff (found : ∀ symbol ∈ symbols, symbol.IsFound)
    (apart : symbols.Pairwise Symbol.Apart) :
    ((chunks settings scanner source symbols).map Chunk.id).Nodup ↔
      ¬ NameMeetsBlock settings scanner source symbols := by
  rw [chunks, List.map_cons, List.map_append, List.nodup_cons, List.nodup_append]
  constructor
  · rintro ⟨-, -, -, apart⟩ ⟨symbol, member, named, made, ends⟩
    obtain ⟨chunk, made⟩ := Option.isSome_iff_exists.mp made
    have whole := (found symbol member).line
    have shared : Chunk.symbolId source.path symbol =
        Chunk.blockId source.path symbol.line.toNat :=
      (Chunk.symbolId_eq_blockId_iff whole _).mpr ⟨named, (Int.toNat_of_nonneg whole).symm⟩
    refine apart _ (List.mem_map_of_mem (List.mem_filterMap.mpr ⟨symbol, member, made⟩)) _ ?_
      ((id_of_symbolChunk? made).trans shared)
    cases symbols with
    | nil => cases member
    | cons first rest => exact mem_ids_gapBlocks_iff.mpr ⟨_, ends, by rw [Nat.zero_add]⟩
  · intro separate
    refine ⟨?_, ids_symbolChunks_nodup found apart, ids_blockChunks_nodup, ?_⟩
    · intro preview
      rcases List.mem_append.mp preview with named | block
      · obtain ⟨chunk, member, same⟩ := List.mem_map.mp named
        obtain ⟨symbol, known, made⟩ := List.mem_filterMap.mp member
        exact Chunk.symbolId_ne_fileId (found symbol known).line
          ((id_of_symbolChunk? made).symm.trans same)
      · obtain ⟨index, same, -⟩ := mem_ids_blockChunks block
        exact Chunk.blockId_ne_fileId _ _ same.symm
    · intro id named other block same
      obtain ⟨chunk, member, rfl⟩ := List.mem_map.mp named
      obtain ⟨symbol, known, made⟩ := List.mem_filterMap.mp member
      obtain ⟨index, position, ends⟩ := mem_ids_blockChunks block
      have shared := (id_of_symbolChunk? made).symm.trans (same.trans position)
      obtain ⟨name, line⟩ :=
        (Chunk.symbolId_eq_blockId_iff (found symbol known).line index).mp shared
      refine separate ⟨symbol, known, name, Option.isSome_of_mem made, ?_⟩
      rw [line, Int.toNat_natCast]
      exact ends (List.ne_nil_of_mem known)

end Splitting

open Splitting

/-- In a file as it is split, a declaration called `block` takes the identifier of a block. -/
def NameMeetsBlockIn {α β : Type} [Scalar α] (settings : Settings α) (path content : String)
    (symbols : List Symbol) (record : Option (FileRecord β))
    (scanner : Option BoundaryScanner := none) : Prop :=
  let source := Source.ofRecord path content record
  NameMeetsBlock settings (scanner.getD (.counting (.ofTag source.language))) source symbols

instance {α β : Type} [Scalar α] (settings : Settings α) (path content : String)
    (symbols : List Symbol) (record : Option (FileRecord β)) (scanner : Option BoundaryScanner) :
    Decidable (NameMeetsBlockIn settings path content symbols record scanner) :=
  inferInstanceAs (Decidable (NameMeetsBlock settings _ _ symbols))

/-- The chunks that a file is split into at the symbols found in it have different identifiers
unless a declaration called `block` takes that of a block. -/
theorem chunkFile_ids_nodup_iff {α β : Type} [Scalar α] (settings : Settings α)
    (path content tag filePath : String) (record : Option (FileRecord β))
    (scanner : Option BoundaryScanner) :
    ((chunkFile settings path content (extractSymbols content tag filePath) record scanner).map
        Chunk.id).Nodup ↔
      ¬ NameMeetsBlockIn settings path content (extractSymbols content tag filePath) record
        scanner :=
  ids_nodup_iff (fun _ member => extractSymbols_isFound member)
    (extractSymbols_apart content tag filePath)

end CodeSearch
