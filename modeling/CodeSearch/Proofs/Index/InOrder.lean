import CodeSearch.Proofs.Files.Depth
import CodeSearch.Proofs.Index.Looks
import CodeSearch.Session.Task

/-! # Indexing one file after another

The plain way to index a project goes from file to file: each is looked at, cut into chunks and
added, and its chunks are embedded, before the next one is looked at. It knows nothing of batches.
-/

namespace CodeSearch

variable {α : Type} [Scalar α]

namespace Loading

/-- What loading a file gives when its looks are made at once. -/
def look (settings : Settings α) (files : FileSystem) (now : α) (root path : String) : LoadResult α :=
  match files.size path with
  | .error fault => .failed (faultMessage (relativePath root path) fault)
  | .ok size =>
    if size.any fun size => decide (settings.maxFileSize < size) then .oversize
    else
      match files.read path with
      | .ok content => load settings now (relativePath root path) content
      | .error fault => .failed (faultMessage (relativePath root path) fault)

/-- While files and time stay as they are, a load gives what is seen at once, however far it had come
before others went on. -/
theorem Reached.ends_look {settings : Settings α} {files : FileSystem} {now : α}
    {root path : String} {point : LoadPoint} {result : LoadResult α}
    (reached : Reached settings (· = files) path point)
    (step : Loading.step settings files now root path point = .last result) :
    result = look settings files now root path := by
  cases reached with
  | sizing =>
    rw [look]
    rw [Loading.step] at step
    cases told : files.size path with
    | error fault =>
      rw [told] at step
      cases step
      rfl
    | ok size =>
      simp only [told] at step ⊢
      split at step
      · next large =>
        cases step
        rw [if_pos large]
      · cases step
  | reading => cases step
  | carrying current moment sized =>
    cases sized with
    | reading earlier size moment' told small =>
      replace moment : current = files := moment
      replace moment' : earlier = files := moment'
      subst current earlier
      rw [look, told]
      simp only [small, Bool.false_eq_true, if_false]
      cases content : files.read path <;> rw [content] at step <;> cases step <;> rfl

end Loading

/-- What is told of a loading. -/
def LoadResult.messages : LoadResult α → List String
  | .failed message => [message]
  | _ => []

/-- What is told of the chunks that an embedder refuses. -/
def failuresOf (embedder : Embedder α) (chunks : List Chunk) : List String :=
  chunks.filterMap fun chunk =>
    match FileDraft.embed embedder chunk with
    | .ok _ => none
    | .error message => some message

omit [Scalar α] in
/-- A batch tells of its chunks that are refused. -/
theorem FileDraft.failures_embedBatch (draft : FileDraft α) (embedder : Embedder α) (size : Int) :
    (draft.embedBatch embedder size).2 =
      failuresOf embedder (draft.remaining.take size.toNat) := by
  change List.filterMap _ (List.map _ _) = _
  rw [List.filterMap_map]
  rfl

/-- A project of which some files are indexed: what it has so far, of how many files, and what was
told of files and chunks that were not taken in. -/
structure PartialIndex (α : Type) where
  draft : Snapshot α
  indexed : Nat := 0
  errors : List String := []

namespace PartialIndex

/-- Takes in what loading the next file has given. -/
def add (embedder : Embedder α) (part : PartialIndex α) : LoadResult α → PartialIndex α
  | .loaded record chunks =>
    { draft := part.draft.addFile record chunks (embeddingsOf embedder chunks)
      indexed := part.indexed + 1
      errors := part.errors ++ failuresOf embedder chunks }
  | result => { part with errors := part.errors ++ result.messages }

/-- How far a project is when the given files were taken in, one after another. -/
def after (settings : Settings α) (embedder : Embedder α) (files : FileSystem) (now : α)
    (root : String) (paths : List String) : PartialIndex α :=
  paths.foldl (fun part path => part.add embedder (Loading.look settings files now root path))
    { draft := (Pass.start settings root).draft }

/-- The index as of a moment. -/
def dated (now : α) (part : PartialIndex α) : PartialIndex α :=
  { part with draft := { part.draft with indexedAt := now } }

/-- What is told of an index when all of the given files were taken in. -/
def report (root : String) (found : List String) (part : PartialIndex α) : PassReport :=
  { projectPath := root
    filesScanned := found.length
    filesIndexed := part.indexed
    chunksCreated := part.draft.chunks.size
    embeddingsGenerated := part.draft.embeddings.size
    kindCounts := part.draft.kindCounts
    errors := part.errors }

end PartialIndex

/-- Indexes a project file by file. -/
def indexInOrder (settings : Settings α) (embedder : Embedder α) (files : FileSystem) (now : α)
    (root : String) : Except FileFault (Snapshot α × PassReport) := do
  let found ← discover settings files root
  let part := (PartialIndex.after settings embedder files now root found).dated now
  return (part.draft, part.report root found)

/-- The settings with other sizes of batches. -/
def Settings.batched (settings : Settings α) (reads embeddings : Int) : Settings α :=
  { settings with fileReadBatchSize := reads, embeddingBatchSize := embeddings }

private theorem discover_batched (settings : Settings α) (files : FileSystem) (root : String)
    (reads embeddings : Int) :
    discover (settings.batched reads embeddings) files root = discover settings files root := by
  have below : ∀ depth, Walk.filesBelow (settings.batched reads embeddings) files depth =
      Walk.filesBelow settings files depth := by
    intro depth
    induction depth with
    | zero => rfl
    | succ depth ih =>
      funext directory
      rw [Walk.filesBelow, Walk.filesBelow, ih]
      rfl
  exact congrFun (below files.depth) root

private theorem gapBlocks_batched (settings : Settings α) (source : Splitting.Source)
    (reads embeddings : Int) (index : Nat) (start : Int) (symbols : List Symbol) :
    Splitting.gapBlocks (settings.batched reads embeddings) source index start symbols =
      Splitting.gapBlocks settings source index start symbols := by
  induction symbols generalizing index start with
  | nil => rfl
  | cons symbol rest ih =>
    rw [Splitting.gapBlocks, Splitting.gapBlocks, ih]
    rfl

private theorem look_batched (settings : Settings α) (files : FileSystem) (now : α)
    (root path : String) (reads embeddings : Int) :
    Loading.look (settings.batched reads embeddings) files now root path =
      Loading.look settings files now root path := by
  have blocks : ∀ source symbols,
      Splitting.blockChunks (settings.batched reads embeddings) source symbols =
        Splitting.blockChunks settings source symbols := by
    rintro source (_ | ⟨symbol, rest⟩)
    · rfl
    · exact gapBlocks_batched settings source reads embeddings 0 0 _
  have split : ∀ scanner source symbols,
      Splitting.chunks (settings.batched reads embeddings) scanner source symbols =
        Splitting.chunks settings scanner source symbols := by
    intro scanner source symbols
    rw [Splitting.chunks, Splitting.chunks, blocks]
    rfl
  simp only [Loading.look, Loading.load, chunkFile, split]
  rfl

/-- No size of a batch is read. -/
theorem indexInOrder_batched (settings : Settings α) (embedder : Embedder α) (files : FileSystem)
    (now : α) (root : String) (reads embeddings : Int) :
    indexInOrder (settings.batched reads embeddings) embedder files now root =
      indexInOrder settings embedder files now root := by
  have taken : ∀ paths,
      PartialIndex.after (settings.batched reads embeddings) embedder files now root paths =
        PartialIndex.after settings embedder files now root paths := by
    intro paths
    simp only [PartialIndex.after, look_batched]
    rfl
  simp only [indexInOrder, discover_batched, taken]

end CodeSearch
