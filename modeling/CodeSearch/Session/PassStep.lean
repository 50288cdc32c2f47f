import CodeSearch.Session.Basic

/-! # Steps of passes

A pass walks the project, loads the files batch by batch, embeds and adds them in the order of the
walk, and at last replaces the snapshot if its project is still the one that was asked for last.
-/

namespace CodeSearch.Session

variable {α : Type} [Scalar α]

/-- Ends a pass, which is entered as in flight for a while longer. -/
def endPass (session : Session α) (id : TaskId) (pass : Pass α)
    (outcome : Except CallFault PassReport) : Session α :=
  let session := session.setPass id { pass with point := .ended outcome }
  { session with leaving := session.leaving ++ [id] }

/-- Takes the next file or lists the next directory of the walk. -/
def walkOn (session : Session α) (id : TaskId) (pass : Pass α) (pending : List Walk.Target)
    (found : List String) : Session α :=
  match pending with
  | [] => session.setPass id { pass with scanned := found.length, point := .batching found }
  | .file path :: rest => session.setPass id { pass with point := .walking rest (found ++ [path]) }
  | .directory path :: rest =>
    match Walk.listTargets session.settings (session.files.list path) with
    | .ok targets => session.setPass id { pass with point := .walking (targets ++ rest) found }
    | .error fault => session.endPass id pass (.error (.files fault))

/-- Starts loading the next batch. When there is none, the draft is as old as it is now. -/
def nextBatch (session : Session α) (id : TaskId) (pass : Pass α) (rest : List String) :
    Session α :=
  match rest with
  | [] =>
    session.setPass id
      { pass with draft := { pass.draft with indexedAt := session.now }, point := .locking }
  | _ =>
    let size := session.settings.fileReadBatchSize.toNat
    let batch := rest.take size
    let loads := (List.range batch.length).map (session.tasks.length + ·)
    let session := session.start (batch.map fun path => .load id pass.root path (.running .sizing))
    session.setPass id { pass with point := .collecting loads (rest.drop size) }

/-- Adds the next loaded file to those that are embedded; files that were not loaded give nothing.
-/
def addNext (session : Session α) (id : TaskId) (pass : Pass α) (results : List (LoadResult α))
    (rest : List String) : Session α :=
  match results with
  | [] => session.setPass id { pass with point := .batching rest }
  | .loaded record chunks :: results =>
    session.setPass id { pass with point := .embedding (.start record chunks) results rest }
  | _ :: results => session.setPass id { pass with point := .adding results rest }

/-- Embeds a batch of a file, or adds the file to the draft when all of its chunks are done. -/
def embedNext (session : Session α) (id : TaskId) (pass : Pass α) (draft : FileDraft α)
    (results : List (LoadResult α)) (rest : List String) : Session α :=
  if draft.remaining.isEmpty then
    session.setPass id
      { pass with
        draft := pass.draft.addDraft draft
        indexed := pass.indexed + 1
        point := .adding results rest }
  else
    let (draft, failures) := draft.embedBatch session.embedder session.settings.embeddingBatchSize
    session.setPass id
      { pass with errors := pass.errors ++ failures, point := .resting draft results rest }

/-- Replaces the snapshot, unless another project was asked for since. -/
def swap (session : Session α) (id : TaskId) (pass : Pass α) : Session α :=
  let session :=
    if session.requestedRoot = some pass.root then { session with snapshot := some pass.draft }
    else session
  session.releaseLock.endPass id pass (.ok pass.report)

/-- The next step of a pass, unless it has ended or what it waits for has not happened. -/
def stepPass (session : Session α) (id : TaskId) (pass : Pass α) : Option (Session α) :=
  match pass.point with
  | .walking pending found => some (session.walkOn id pass pending found)
  | .batching rest => some (session.nextBatch id pass rest)
  | .collecting loads rest =>
    (loads.mapM session.loadResult?).map fun results =>
      session.setPass id { pass with point := .adding results rest }
  | .adding results rest => some (session.addNext id pass results rest)
  | .embedding draft results rest => some (session.embedNext id pass draft results rest)
  | .resting draft results rest =>
    some (session.setPass id { pass with point := .embedding draft results rest })
  | .locking => some ((session.requestLock id).setPass id { pass with point := .queued })
  | .queued =>
    if session.holdsLock id then some (session.setPass id { pass with point := .swapping })
    else none
  | .swapping => some (session.swap id pass)
  | .ended _ => none

/-- Tells a pass of a file that was not loaded. -/
def tellOwner (session : Session α) (owner : TaskId) (message : String) : Session α :=
  match session.task? owner with
  | some (.pass pass) => session.setPass owner { pass with errors := pass.errors ++ [message] }
  | _ => session

/-- The next step of loading a file for a pass. -/
def stepLoad (session : Session α) (id owner : TaskId) (root path : String) (point : LoadPoint) :
    Session α :=
  match Loading.step session.settings session.files session.now root path point with
  | .next point => session.setTask id (.load owner root path (.running point))
  | .last result =>
    let session := session.setTask id (.load owner root path (.ended result))
    match result with
    | .failed message => session.tellOwner owner message
    | _ => session

end CodeSearch.Session
