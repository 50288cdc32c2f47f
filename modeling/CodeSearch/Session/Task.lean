import CodeSearch.Files.Walk
import CodeSearch.Session.Answer
import CodeSearch.Session.Loading

/-! # Tasks

Calls, full passes and the loading of files are tasks of a session. Where a task stands is part of
its value: whenever it goes on, it takes one step from there. Between any two steps other tasks may
go on.
-/

namespace CodeSearch

/-- Tasks are known by the order in which they were started. -/
abbrev TaskId := Nat

/-- An update of one file; its file path is looked at late. -/
structure Update where
  root : String
  filePath : Argument String

/-- The file that an update looks at. -/
structure UpdateTarget where
  root : String
  absolute : String
  relative : String
  isThere : Bool := true

/-- A request for context whose arguments were accepted. -/
structure ContextWish where
  query : String
  root : String
  limit : Int

/-- What a call does when the pass that it waits for has ended. -/
inductive AfterPass where
  | report
  | update (update : Update)
  | context (wish : ContextWish)

/-- Where a call stands. -/
inductive CallPoint (α : Type) where
  | made (request : Request α)
  | awaitingPass (pass : TaskId) (next : AfterPass)
  /-- The update goes for the lock. -/
  | locking (update : Update)
  /-- The update stands in the lock's queue. -/
  | queued (update : Update)
  /-- The update holds the lock, here and up to its end. -/
  | updating (update : Update)
  | probing (target : UpdateTarget)
  | loading (target : UpdateTarget) (point : LoadPoint)
  | embedding (target : UpdateTarget) (draft : FileDraft α)
  /-- A batch of embeddings is done, and others may go on. -/
  | resting (target : UpdateTarget) (draft : FileDraft α)
  | storing (target : UpdateTarget) (draft : Option (FileDraft α))
  | searching (wish : ContextWish)
  /-- The next file is read for its context. -/
  | reading (wish : ContextWish) (groups : List (FileHits α)) (items : List (ContextItem α))
  /-- A file has been read, and its content is on its way. -/
  | carrying (wish : ContextWish) (content : Except FileFault String) (group : FileHits α)
      (groups : List (FileHits α)) (items : List (ContextItem α))
  | ended (outcome : Outcome α)

/-- Where a full pass stands; `results` are loaded files to be added, `rest` files to be loaded. -/
inductive PassPoint (α : Type) where
  | walking (pending : List Walk.Target) (found : List String)
  | batching (rest : List String)
  /-- The files of a batch are being loaded. -/
  | collecting (loads : List TaskId) (rest : List String)
  | adding (results : List (LoadResult α)) (rest : List String)
  | embedding (draft : FileDraft α) (results : List (LoadResult α)) (rest : List String)
  /-- A batch of embeddings is done, and others may go on. -/
  | resting (draft : FileDraft α) (results : List (LoadResult α)) (rest : List String)
  /-- The pass goes for the lock. -/
  | locking
  /-- The pass stands in the lock's queue. -/
  | queued
  /-- The pass holds the lock. -/
  | swapping
  | ended (outcome : Except CallFault PassReport)

/-- A full pass over a project: what it has counted, and the snapshot that it builds apart from the
one that is searched. -/
structure Pass (α : Type) where
  root : String
  scanned : Nat := 0
  indexed : Nat := 0
  errors : List String := []
  draft : Snapshot α
  point : PassPoint α

/-- A pass at its beginning. -/
def Pass.start {α : Type} [Scalar α] (settings : Settings α) (root : String) : Pass α :=
  { root
    draft :=
      { projectPath := root
        cache := { lifetime := settings.cacheSeconds, maxEntries := settings.maxCacheEntries }
        indexedAt := Scalar.ofNat 0 }
    point := .walking [.directory root] [] }

/-- The report of a pass that has ended well. -/
def Pass.report {α : Type} (pass : Pass α) : PassReport :=
  { projectPath := pass.root
    filesScanned := pass.scanned
    filesIndexed := pass.indexed
    chunksCreated := pass.draft.chunks.size
    embeddingsGenerated := pass.draft.embeddings.size
    kindCounts := pass.draft.kindCounts
    errors := pass.errors }

/-- Where the loading of a file for a pass stands. -/
inductive LoadState (α : Type) where
  | running (point : LoadPoint)
  | ended (result : LoadResult α)

/-- A task of a session. -/
inductive Task (α : Type) where
  | call (point : CallPoint α)
  | pass (pass : Pass α)
  | load (owner : TaskId) (root path : String) (state : LoadState α)

end CodeSearch
