import CodeSearch.Session.Task

/-! # Sessions

A session holds the snapshot of one project and serves any number of calls at a time. Passes are
entered in a table while they are in flight, so that calls can share them. A lock keeps updates and
the replacement of the snapshot apart; it is handed over in the order in which it was asked for.
-/

namespace CodeSearch

/-- The task that holds the lock and those that wait for it, the first one first. -/
structure Lock where
  holder : Option TaskId := none
  waiting : List TaskId := []

namespace Lock

/-- A free lock is taken at once, else the task joins the queue. -/
def request (lock : Lock) (task : TaskId) : Lock :=
  match lock.holder with
  | none => { lock with holder := some task }
  | some _ => { lock with waiting := lock.waiting ++ [task] }

/-- The lock passes to the first that waits. -/
def release (lock : Lock) : Lock :=
  { holder := lock.waiting.head?, waiting := lock.waiting.tail }

end Lock

/-- Everything that calls of one session share, and the tasks themselves by their identifiers. -/
structure Session (α : Type) [Scalar α] where
  settings : Settings α
  embedder : Embedder α
  files : FileSystem
  now : α
  snapshot : Option (Snapshot α) := none
  /-- The passes in flight by their projects. -/
  inFlight : OrderedMap String TaskId := ∅
  /-- Passes that have ended and are still entered as in flight. -/
  leaving : List TaskId := []
  /-- The project that was asked for last; only its passes replace the snapshot. -/
  requestedRoot : Option String := none
  lock : Lock := {}
  tasks : List (Task α) := []

namespace Session

variable {α : Type} [Scalar α]

/-- A session without a snapshot, with the embedder that the settings ask for. -/
def opened (settings : Settings α) (files : FileSystem) (now : α) : Session α :=
  { settings
    embedder := .hashing settings.embeddingDimensions.toNat settings.embeddingTextLimit
    files
    now }

def task? (session : Session α) (id : TaskId) : Option (Task α) := session.tasks[id]?

/-- Puts a task where it stands now. -/
def setTask (session : Session α) (id : TaskId) (task : Task α) : Session α :=
  { session with tasks := session.tasks.set id task }

def setCall (session : Session α) (id : TaskId) (point : CallPoint α) : Session α :=
  session.setTask id (.call point)

def setPass (session : Session α) (id : TaskId) (pass : Pass α) : Session α :=
  session.setTask id (.pass pass)

/-- Starts tasks; their identifiers are those that follow. -/
def start (session : Session α) (tasks : List (Task α)) : Session α :=
  { session with tasks := session.tasks ++ tasks }

def requestLock (session : Session α) (id : TaskId) : Session α :=
  { session with lock := session.lock.request id }

def releaseLock (session : Session α) : Session α := { session with lock := session.lock.release }

def holdsLock (session : Session α) (id : TaskId) : Bool := session.lock.holder == some id

/-- The snapshot, if it is that of a given project. -/
def snapshotOf (session : Session α) (root : String) : Option (Snapshot α) :=
  session.snapshot.filter fun snapshot => snapshot.projectPath == root

/-- How a pass has ended, if it has. -/
def passOutcome? (session : Session α) (id : TaskId) : Option (Except CallFault PassReport) :=
  match session.task? id with
  | some (.pass { point := .ended outcome, .. }) => some outcome
  | _ => none

/-- How a call has ended, if it has. -/
def outcome? (session : Session α) (id : TaskId) : Option (Outcome α) :=
  match session.task? id with
  | some (.call (.ended outcome)) => some outcome
  | _ => none

/-- What a loading has given, if it has ended. -/
def loadResult? (session : Session α) (id : TaskId) : Option (LoadResult α) :=
  match session.task? id with
  | some (.load _ _ _ (.ended result)) => some result
  | _ => none

def totals (session : Session α) : Totals α := .of session.snapshot

/-- Answers a search, from the cache if the caller allows it and the answer is there. -/
def search (session : Session α) (query : String) (options : SearchOptions α) :
    List (Hit α) × Session α :=
  match session.snapshot with
  | none => ([], session)
  | some snapshot =>
    let ranked := rank session.settings session.embedder query options snapshot.embeddings.values
    if options.useCache then
      let key := options.cacheKey query
      match snapshot.cache.get session.now key with
      | (some hits, _) => (hits, session)
      | (none, cache) =>
        let cache := cache.put session.now key ranked
        (ranked, { session with snapshot := some { snapshot with cache } })
    else (ranked, session)

/-- What asking for a project's index leads to. -/
inductive IndexStart where
  | answered (report : PassReport)
  | waits (pass : TaskId)

/-- Starts a pass and enters it in the table. -/
def startPass (session : Session α) (root : String) : Session α × IndexStart :=
  let id := session.tasks.length
  ({ session.start [.pass (.start session.settings root)] with
      inFlight := session.inFlight.insert root id }, .waits id)

/-- Asks for the index of a project. A fresh snapshot answers unless force is used, and so does any
snapshot of the project while a pass is in flight; without a snapshot the pass in flight is shared.
-/
def requestIndex (session : Session α) (root : String) (force : Bool) : Session α × IndexStart :=
  let session := { session with requestedRoot := some root }
  let current := session.snapshotOf root
  let fresh := current.filter fun snapshot =>
    !force && snapshot.isFresh session.now session.settings.stalenessSeconds
  match fresh, session.inFlight.get? root, current with
  | some snapshot, _, _ => (session, .answered snapshot.report)
  | none, some _, some snapshot => (session, .answered snapshot.report)
  | none, some pass, none => (session, .waits pass)
  | none, none, _ => session.startPass root

end Session

end CodeSearch
