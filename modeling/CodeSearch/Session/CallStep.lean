import CodeSearch.Session.Basic

/-! # Steps of calls

A call takes one step at a time. Searching and clearing take one step altogether; updates and
requests for context stand still where they wait for files, for a pass, for the lock or for others
to go on.
-/

namespace CodeSearch.Session

variable {α : Type} [Scalar α]

/-- Ends a call. -/
def endCall (session : Session α) (id : TaskId) (outcome : Outcome α) : Session α :=
  session.setCall id (.ended outcome)

/-- Ends an update, which gives the lock back. -/
def endUpdate (session : Session α) (id : TaskId) (outcome : Outcome α) : Session α :=
  session.releaseLock.endCall id outcome

/-- Goes on with a call whose pass has ended well. -/
def afterPass (session : Session α) (id : TaskId) (report : PassReport) : AfterPass → Session α
  | .report => session.endCall id (.ok (.indexed report))
  | .update update => session.setCall id (.locking update)
  | .context wish => session.setCall id (.searching wish)

/-- Begins an index request; a project that is indexed or in flight may answer it. -/
def beginIndex (session : Session α) (id : TaskId) (root : String) (force : Bool) : Session α :=
  match session.requestIndex root force with
  | (session, .answered report) => session.endCall id (.ok (.indexed report))
  | (session, .waits pass) => session.setCall id (.awaitingPass pass .report)

/-- Begins an update. A pass that is in flight may have read the file already, so it is waited for.
-/
def beginUpdate (session : Session α) (id : TaskId) (update : Update) : Session α :=
  match session.inFlight.get? update.root with
  | some pass => session.setCall id (.awaitingPass pass (.update update))
  | none => session.setCall id (.locking update)

/-- Begins a request for context. The snapshot of another project is dropped, and a project without
chunks is indexed first. -/
def beginContext (session : Session α) (id : TaskId) (wish : ContextWish) : Session α :=
  let session := { session with snapshot := session.snapshotOf wish.root }
  if session.snapshot.any fun snapshot => !snapshot.chunks.isEmpty then
    session.setCall id (.searching wish)
  else
    match session.requestIndex wish.root false with
    | (session, .answered _) => session.setCall id (.searching wish)
    | (session, .waits pass) => session.setCall id (.awaitingPass pass (.context wish))

/-- Accepts the arguments of a request for context, the query first and the path last. -/
def contextWish (query path : Argument String) (limit : Argument Int) :
    Except CallFault ContextWish := do
  let query ← query.query
  let limit ← limit.limit
  let root ← path.projectPath
  return { query, root, limit }

/-- Drops the snapshot, or only that of a given project. -/
def clear (session : Session α) : Option String → Session α
  | none => { session with snapshot := none }
  | some root =>
    let kept := session.snapshot.filter fun snapshot => snapshot.projectPath != root
    { session with snapshot := kept }

/-- The first step of a call: its arguments are looked at. -/
def begin (session : Session α) (id : TaskId) : Request α → Session α
  | .index path force =>
    match path.projectPath with
    | .error fault => session.endCall id (.error fault)
    | .ok root => session.beginIndex id root force
  | .update path filePath =>
    match path.projectPath with
    | .error fault => session.endCall id (.error fault)
    | .ok root => session.beginUpdate id { root, filePath }
  | .search query options =>
    match query.query, options.check, session.snapshot.bind fun _ => options.keyFault? with
    | .error fault, _, _ => session.endCall id (.error fault)
    | .ok _, .error fault, _ => session.endCall id (.error fault)
    | .ok _, .ok _, some fault => session.endCall id (.error (.options fault))
    | .ok query, .ok options, none =>
      let (hits, session) := session.search query options
      session.endCall id (.ok (.found hits))
  | .context query path limit =>
    match contextWish query path limit with
    | .error fault => session.endCall id (.error fault)
    | .ok wish => session.beginContext id wish
  | .clear path =>
    match path.mapM Argument.projectPath with
    | .error fault => session.endCall id (.error fault)
    | .ok root => (session.clear root).endCall id (.ok .cleared)

/-- Whether a relative path leads out of its project, judged by how it begins. -/
def leadsOut (relative : String) : Bool := Text.startsWith ['.', '.'] relative.toList

/-- The update holds the lock: the file path is looked at, and whether the project is indexed. -/
def beginUpdating (session : Session α) (id : TaskId) (update : Update) : Session α :=
  match update.filePath.filePath with
  | .error fault => session.endUpdate id (.error fault)
  | .ok filePath =>
    if (session.snapshotOf update.root).isNone then session.endUpdate id (.ok (.updated false))
    else
      let absolute := Path.normalize (Path.join update.root filePath)
      let relative := Loading.relativePath update.root absolute
      if leadsOut relative then
        session.endUpdate id (.error (.outsideProject filePath update.root))
      else session.setCall id (.probing { root := update.root, absolute, relative })

/-- A file that is there and of a known language is loaded. -/
def probe (session : Session α) (id : TaskId) (target : UpdateTarget) : Session α :=
  match session.files.size target.absolute with
  | .error fault => session.endUpdate id (.error (.files fault))
  | .ok size =>
    let target := { target with isThere := size.isSome }
    if target.isThere && isIndexable target.relative then
      session.setCall id (.loading target .sizing)
    else session.setCall id (.storing target none)

/-- One step of loading the file of an update. -/
def loadTarget (session : Session α) (id : TaskId) (target : UpdateTarget) (point : LoadPoint) :
    Session α :=
  let step :=
    Loading.step session.settings session.files session.now target.root target.absolute point
  match step with
  | .next point => session.setCall id (.loading target point)
  | .last (.loaded record chunks) => session.setCall id (.embedding target (.start record chunks))
  | .last _ => session.setCall id (.storing target none)

/-- Embeds a batch of the file of an update; failures are not told. -/
def embedTarget (session : Session α) (id : TaskId) (target : UpdateTarget) (draft : FileDraft α) :
    Session α :=
  if draft.remaining.isEmpty then session.setCall id (.storing target (some draft))
  else
    let (draft, _) := draft.embedBatch session.embedder session.settings.embeddingBatchSize
    session.setCall id (.resting target draft)

/-- The snapshot with the entries of a file replaced by those of a draft, and no answers cached. -/
def refreshed (snapshot : Snapshot α) (relative : String) (draft : Option (FileDraft α)) :
    Snapshot α :=
  let removed := snapshot.removeFile relative
  let added := match draft with
    | none => removed
    | some draft => removed.addDraft draft
  { added with cache := added.cache.clear }

/-- Replaces the entries of the file, unless the project is no longer indexed. A file that is there
and was not loaded counts as not refreshed. -/
def storeTarget (session : Session α) (id : TaskId) (target : UpdateTarget)
    (draft : Option (FileDraft α)) : Session α :=
  match session.snapshotOf target.root with
  | none => session.endUpdate id (.ok (.updated false))
  | some snapshot =>
    let session := { session with snapshot := some (refreshed snapshot target.relative draft) }
    session.endUpdate id (.ok (.updated (!target.isThere || draft.isSome)))

/-- Kinds of chunks that are raised for a request for context. -/
def contextBoosts (query : String) : List String :=
  if asksForCode query then ["function", "class"] else ["function", "class", "interface"]

/-- Finds the files for a request for context. -/
def searchContext (session : Session α) (id : TaskId) (wish : ContextWish) : Session α :=
  let options : SearchOptions α :=
    { limit := some (wish.limit * 2), boostTypes := some (contextBoosts wish.query) }
  let (hits, session) := session.search wish.query options.normalized
  session.setCall id (.reading wish (groupByFile hits wish.limit) [])

/-- Reads the next file, or ends the call if there is none. -/
def readContext (session : Session α) (id : TaskId) (wish : ContextWish)
    (groups : List (FileHits α)) (items : List (ContextItem α)) : Session α :=
  match groups with
  | [] => session.endCall id (.ok (.shown items))
  | group :: groups =>
    let content := session.files.read (Path.join wish.root group.filePath)
    session.setCall id (.carrying wish content group groups items)

/-- The part of a file that is shown. -/
def contextItem (settings : Settings α) (content : String) (group : FileHits α) : ContextItem α :=
  { path := group.filePath
    content := extractContext content group.hits settings.topChunksPerFile
      settings.contextWindowLines settings.contextContentLimit
    score := group.maxScore }

/-- Files that are gone or are not text are passed over. -/
def takeContext (session : Session α) (id : TaskId) (wish : ContextWish)
    (content : Except FileFault String) (group : FileHits α) (groups : List (FileHits α))
    (items : List (ContextItem α)) : Session α :=
  match content with
  | .ok content =>
    let item := contextItem session.settings content group
    session.setCall id (.reading wish groups (items ++ [item]))
  | .error (.undecodable _) => session.setCall id (.reading wish groups items)
  | .error fault =>
    if fault.isUnavailable then session.setCall id (.reading wish groups items)
    else session.endCall id (.error (.files fault))

/-- The next step of a call, unless the call has ended or what it waits for has not happened. -/
def stepCall (session : Session α) (id : TaskId) : CallPoint α → Option (Session α)
  | .made request => some (session.begin id request)
  | .awaitingPass pass next =>
    match session.passOutcome? pass with
    | none => none
    | some (.error fault) => some (session.endCall id (.error fault))
    | some (.ok report) => some (session.afterPass id report next)
  | .locking update => some ((session.requestLock id).setCall id (.queued update))
  | .queued update =>
    if session.holdsLock id then some (session.setCall id (.updating update)) else none
  | .updating update => some (session.beginUpdating id update)
  | .probing target => some (session.probe id target)
  | .loading target point => some (session.loadTarget id target point)
  | .embedding target draft => some (session.embedTarget id target draft)
  | .resting target draft => some (session.setCall id (.embedding target draft))
  | .storing target draft => some (session.storeTarget id target draft)
  | .searching wish => some (session.searchContext id wish)
  | .reading wish groups items => some (session.readContext id wish groups items)
  | .carrying wish content group groups items =>
    some (session.takeContext id wish content group groups items)
  | .ended _ => none

end CodeSearch.Session
