import CodeSearch.Index.Snapshot
import CodeSearch.Search.Context
import CodeSearch.Session.Argument

/-! # Calls and their answers

What a session is asked for, and what it answers.
-/

namespace CodeSearch

/-- A call to a session. -/
inductive Request (α : Type) where
  /-- Index a project; by force even if it is fresh. -/
  | index (path : Argument String) (force : Bool)
  /-- Look at one file of a project again. -/
  | update (path filePath : Argument String)
  | search (query : Argument String) (options : OptionsArgument α)
  /-- Find the files of a project that matter for a query, and show parts of them. -/
  | context (query path : Argument String) (limit : Argument Int)
  /-- Drop the index, or only that of a given project. -/
  | clear (path : Option (Argument String))

/-- What a full pass did, or what an earlier one left. -/
structure PassReport where
  projectPath : String
  filesScanned : Nat := 0
  filesIndexed : Nat := 0
  chunksCreated : Nat := 0
  embeddingsGenerated : Nat := 0
  kindCounts : OrderedMap String Nat := ∅
  errors : List String := []
  fromCache : Bool := false

/-- The report on a project that is indexed already. -/
def Snapshot.report {α : Type} (snapshot : Snapshot α) : PassReport :=
  { projectPath := snapshot.projectPath
    filesScanned := snapshot.files.size
    filesIndexed := snapshot.files.size
    chunksCreated := snapshot.chunks.size
    embeddingsGenerated := snapshot.embeddings.size
    kindCounts := snapshot.kindCounts
    fromCache := true }

/-- The answer to a call. -/
inductive Answer (α : Type) where
  | indexed (report : PassReport)
  /-- Whether the file's entries are now those of the file. -/
  | updated (refreshed : Bool)
  | found (hits : List (Hit α))
  | shown (items : List (ContextItem α))
  | cleared

/-- How a call ends. -/
abbrev Outcome (α : Type) := Except CallFault (Answer α)

/-- What is known about the index at one moment. -/
structure Totals (α : Type) where
  path : Option String := none
  files : Nat := 0
  chunks : Nat := 0
  embeddings : Nat := 0
  cachedAnswers : Nat := 0
  kindCounts : OrderedMap String Nat := ∅
  indexedAt : Option α := none

/-- Without a snapshot there is nothing. -/
def Totals.of {α : Type} : Option (Snapshot α) → Totals α
  | none => {}
  | some snapshot =>
    { path := some snapshot.projectPath
      files := snapshot.files.size
      chunks := snapshot.chunks.size
      embeddings := snapshot.embeddings.size
      cachedAnswers := snapshot.cache.size
      kindCounts := snapshot.kindCounts
      indexedAt := some snapshot.indexedAt }

end CodeSearch
