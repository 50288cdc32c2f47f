import CodeSearch.Chunk.Splitting
import CodeSearch.Proofs.Path.Suffix
import CodeSearch.Proofs.Symbol.LineNames

/-! # Identifiers of chunks

The identifier of a chunk is the path of its file, an underscore and a tail of word characters. The
path of a file that is indexed has no underscore behind its last point, and a tail has no point, so
no two files share an identifier.
-/

namespace CodeSearch

/-- A symbol as it is found on a line: its name is a word, and lines are counted from one. -/
structure Symbol.IsFound (symbol : Symbol) : Prop where
  name : ∀ c ∈ symbol.name.toList, Text.isWord c = true
  line : 0 ≤ symbol.line

private theorem lineSymbols_isFound {tag filePath : String} {number : Nat} {line : List Char}
    {symbol : Symbol}
    (member : symbol ∈ lineSymbols (Declaration.tableOf tag) filePath number line) :
    symbol.IsFound := by
  obtain ⟨finding, found, rfl⟩ := List.mem_map.mp member
  have listed := mem_sortedFindings.mp ((keepFirst_sublist _).subset found)
  obtain ⟨declaration, known, captured⟩ := List.mem_flatMap.mp listed
  obtain ⟨capture, remembered, rfl⟩ := List.mem_map.mp captured
  refine ⟨?_, Int.natCast_nonneg number⟩
  intro c inName
  rw [String.toList_ofList] at inName
  have names := Declaration.tableOf_remembersNames tag declaration known
  rw [Pattern.captures_isNameIn names remembered] at inName
  exact List.all_eq_true.mp List.all_takeWhile c inName

/-- Extraction gives symbols as they are found on lines. -/
theorem extractSymbols_isFound {content tag filePath : String} {symbol : Symbol}
    (member : symbol ∈ extractSymbols content tag filePath) : symbol.IsFound := by
  unfold extractSymbols at member
  generalize Text.lines content.toList = lines at member
  generalize 1 = number at member
  induction lines generalizing number with
  | nil => cases member
  | cons line rest ih =>
    rcases List.mem_append.mp member with here | later
    · exact lineSymbols_isFound here
    · exact ih (number + 1) later

namespace Chunk

/-- The form of the identifiers that chunks of a file have. -/
def IsIdOf (path id : String) : Prop :=
  ∃ tail : List Char, '.' ∉ tail ∧ id.toList = path.toList ++ '_' :: tail

/-- A number from zero on is written in digits. -/
theorem isDigit_of_mem_toString {number : Int} (whole : 0 ≤ number) {c : Char}
    (member : c ∈ (toString number).toList) : c.isDigit = true := by
  obtain ⟨n, rfl⟩ := Int.eq_ofNat_of_zero_le whole
  have digit : c ∈ Nat.toDigits 10 n := by
    rw [← Nat.toList_repr]
    exact member
  exact Nat.isDigit_of_mem_toDigits (by decide) (by decide) digit

private theorem point_notMem_toString (number : Int) (whole : 0 ≤ number) :
    '.' ∉ (toString number).toList := fun member =>
  absurd (isDigit_of_mem_toString whole member) (by decide)

theorem fileId_isIdOf (path : String) : IsIdOf path (fileId path) :=
  ⟨"file".toList, by decide, by rw [fileId, String.toList_append]; rfl⟩

theorem blockId_isIdOf (path : String) (index : Nat) : IsIdOf path (blockId path index) := by
  refine ⟨"block_".toList ++ (toString index).toList, ?_, ?_⟩
  · rw [List.mem_append]
    rintro (word | digit)
    · exact absurd word (by decide)
    · exact point_notMem_toString index (Int.natCast_nonneg index) digit
  · simp only [blockId, String.toList_append, List.append_assoc]
    rfl

theorem symbolId_isIdOf (path : String) {symbol : Symbol} (found : symbol.IsFound) :
    IsIdOf path (symbolId path symbol) := by
  refine ⟨symbol.name.toList ++ '_' :: (toString symbol.line).toList, ?_, ?_⟩
  · rw [List.mem_append, List.mem_cons]
    rintro (name | mark | digit)
    · exact absurd (found.name '.' name) (by decide)
    · exact absurd mark (by decide)
    · exact point_notMem_toString symbol.line found.line digit
  · simp only [symbolId, String.toList_append, List.append_assoc]
    rfl

/-- What may be relied on of a chunk that splitting a file has given. -/
structure IsOf (path : String) (chunk : Chunk) : Prop where
  filePath : chunk.filePath = path
  id : IsIdOf path chunk.id

end Chunk

namespace Splitting

variable {α : Type} [Scalar α]

private theorem symbolChunk?_isOf {settings : Settings α} {scanner : BoundaryScanner}
    {source : Source} {symbol : Symbol} {chunk : Chunk} (found : symbol.IsFound)
    (made : symbolChunk? settings scanner source symbol = some chunk) :
    chunk.IsOf source.path := by
  simp only [symbolChunk?, Option.bind_eq_bind, Option.bind_eq_some_iff, Option.some.injEq] at made
  obtain ⟨last, _, comments, _, rfl⟩ := made
  exact ⟨rfl, Chunk.symbolId_isIdOf source.path found⟩

private theorem gapBlock?_isOf {settings : Settings α} {source : Source} {index : Nat}
    {start stop : Int} {chunk : Chunk}
    (made : gapBlock? settings source index start stop = some chunk) : chunk.IsOf source.path := by
  simp only [gapBlock?] at made
  split at made
  · split at made
    · cases made; exact ⟨rfl, Chunk.blockId_isIdOf source.path index⟩
    · cases made
  · cases made

private theorem gapBlocks_isOf {settings : Settings α} {source : Source} {index : Nat} {start : Int}
    {symbols : List Symbol} {chunk : Chunk}
    (member : chunk ∈ gapBlocks settings source index start symbols) : chunk.IsOf source.path := by
  induction symbols generalizing index start with
  | nil => cases member
  | cons symbol rest ih =>
    rcases List.mem_append.mp member with here | later
    · exact gapBlock?_isOf (Option.mem_toList.mp here)
    · exact ih later

private theorem blockChunks_isOf {settings : Settings α} {source : Source} {symbols : List Symbol}
    {chunk : Chunk} (member : chunk ∈ blockChunks settings source symbols) :
    chunk.IsOf source.path := by
  cases symbols with
  | nil =>
    rw [List.mem_singleton.mp member]
    exact ⟨rfl, Chunk.blockId_isIdOf source.path 0⟩
  | cons symbol rest => exact gapBlocks_isOf member

theorem chunks_isOf {settings : Settings α} {scanner : BoundaryScanner} {source : Source}
    {symbols : List Symbol} (found : ∀ symbol ∈ symbols, symbol.IsFound) {chunk : Chunk}
    (member : chunk ∈ chunks settings scanner source symbols) : chunk.IsOf source.path := by
  rcases List.mem_cons.mp member with rfl | member
  · exact ⟨rfl, Chunk.fileId_isIdOf source.path⟩
  · rcases List.mem_append.mp member with named | block
    · obtain ⟨symbol, known, made⟩ := List.mem_filterMap.mp named
      exact symbolChunk?_isOf (found symbol known) made
    · exact blockChunks_isOf block

end Splitting

namespace Chunk

private theorem isIdOf_rest {path rest tail : List Char} {front behind : List Char}
    (ending : path ++ rest = front ++ '.' :: behind) (plain : '_' ∉ behind)
    (same : ∃ more, '_' :: tail = rest ++ more) (pointless : '.' ∉ tail) : rest = [] := by
  -- the rest would be an underscore without a point behind it
  cases rest with
  | nil => rfl
  | cons mark rest =>
    obtain ⟨more, same⟩ := same
    rw [List.cons_append, List.cons.injEq] at same
    obtain ⟨rfl, rfl⟩ := same
    have clear : '.' ∉ '_' :: rest := by
      rintro (_ | ⟨_, member⟩)
      exact pointless (List.mem_append.mpr (.inl member))
    rcases List.append_eq_append_iff.mp ending with ⟨skipped, _, later⟩ | ⟨skipped, _, later⟩
    · rw [later] at clear
      exact absurd (List.mem_append.mpr (.inr List.mem_cons_self)) clear
    · cases skipped with
      | nil => cases later
      | cons first skipped =>
        rw [List.cons_append, List.cons.injEq] at later
        rw [later.2] at plain
        exact absurd (List.mem_append.mpr (.inr List.mem_cons_self)) plain

/-- No identifier belongs to two files that are indexed. -/
theorem isIdOf_unique {first second id : String} (firstKnown : isIndexable first = true)
    (secondKnown : isIndexable second = true) (ofFirst : IsIdOf first id)
    (ofSecond : IsIdOf second id) : first = second := by
  obtain ⟨firstTail, firstClear, firstId⟩ := ofFirst
  obtain ⟨secondTail, secondClear, secondId⟩ := ofSecond
  obtain ⟨front, behind, firstEnding, firstPlain⟩ := hasPlainEnding_of_isIndexable firstKnown
  obtain ⟨front', behind', secondEnding, secondPlain⟩ := hasPlainEnding_of_isIndexable secondKnown
  have same := firstId.symm.trans secondId
  apply String.toList_injective
  rcases List.append_eq_append_iff.mp same with ⟨rest, longer, tails⟩ | ⟨rest, longer, tails⟩
  · have none := isIdOf_rest (longer ▸ secondEnding) secondPlain ⟨_, tails⟩ firstClear
    rw [longer, none, List.append_nil]
  · have none := isIdOf_rest (longer ▸ firstEnding) firstPlain ⟨_, tails⟩ secondClear
    rw [longer, none, List.append_nil]

end Chunk

/-- The files that are indexed are those whose language is not plain text. -/
theorem isIndexable_iff (path : String) : isIndexable path = true ↔ languageTag path ≠ plainText := by
  unfold isIndexable languageTag
  cases Language.ofPath? path with
  | none => simp
  | some language => cases language <;> decide

/-- No identifier of a chunk of one file is that of a chunk of another file, whatever the two files
hold and whatever the settings are. -/
theorem chunkFile_ids_disjoint {α β : Type} [Scalar α] {path path' : String}
    (different : path ≠ path') (known : languageTag path ≠ plainText)
    (known' : languageTag path' ≠ plainText) (settings settings' : Settings α)
    (content content' tag tag' named named' : String) (record record' : Option (FileRecord β))
    (scanner scanner' : Option BoundaryScanner) :
    ∀ chunk ∈ chunkFile settings path content (extractSymbols content tag named) record scanner,
      ∀ chunk' ∈ chunkFile settings' path' content' (extractSymbols content' tag' named') record'
        scanner', chunk.id ≠ chunk'.id := by
  intro chunk member chunk' member' same
  have ofPath : chunk.IsOf path :=
    Splitting.chunks_isOf (fun _ found => extractSymbols_isFound found) member
  have ofPath' : chunk'.IsOf path' :=
    Splitting.chunks_isOf (fun _ found => extractSymbols_isFound found) member'
  exact different (Chunk.isIdOf_unique ((isIndexable_iff path).mpr known)
    ((isIndexable_iff path').mpr known') ofPath.id (same ▸ ofPath'.id))

/-- One path goes on where an identifier of the other file does. -/
theorem ids_of_overlapping_paths_differ :
    let first := chunkFile ({} : Settings Float) "a.py" "def b():\n  pass"
      (extractSymbols "def b():\n  pass" "python" "a.py") (none : Option (FileRecord Float))
    let second := chunkFile ({} : Settings Float) "a.py_b.py" ""
      (extractSymbols "" "python" "a.py_b.py") (none : Option (FileRecord Float))
    first.map Chunk.id = ["a.py_file", "a.py_b_1"] ∧
      second.map Chunk.id = ["a.py_b.py_file", "a.py_b.py_block_0"] ∧
      ∀ chunk ∈ first, ∀ chunk' ∈ second, chunk.id ≠ chunk'.id := by
  refine ⟨by decide +kernel, by decide +kernel, ?_⟩
  exact chunkFile_ids_disjoint (by decide) (by decide) (by decide) {} {} _ _ _ _ _ _ none none none
    none

end CodeSearch
