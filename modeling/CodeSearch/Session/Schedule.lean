import CodeSearch.Session.Event

/-! # The order in which tasks go on

The schedule is one run of a session: tasks that can go on do so in the order in which they became
ready, each as far as it can. What ends wakes what waits for it, one turn later or two. Gates hold
tasks at files and directories until they are released.
-/

namespace CodeSearch

/-- A turn that is due. -/
inductive Turn where
  | step (task : TaskId)
  | leave (pass : TaskId)
  /-- A call is told that its pass has ended. -/
  | tell (task : TaskId)
  /-- A pass is told that a file has been loaded. -/
  | collect (load : TaskId)

/-- What a gate holds: contents that have been read, or listings before they are made. -/
inductive Stage where
  | reading
  | listing
  deriving DecidableEq

/-- A gate in front of a path. -/
structure Gate where
  stage : Stage
  path : String
  deriving DecidableEq

/-- A session with the turns that are due and the tasks that wait. -/
structure Schedule (α : Type) [Scalar α] where
  session : Session α
  due : List Turn := []
  /-- The task whose turn it is. -/
  current : Option TaskId := none
  /-- Passes with the calls that wait for them, in the order in which they began to wait. -/
  awaiting : List (TaskId × TaskId) := []
  /-- Loaded files that their passes were told of. -/
  collected : List TaskId := []
  gates : List Gate := []
  /-- Tasks that gates hold, in the order in which they came to them. -/
  held : List TaskId := []

namespace Schedule

variable {α : Type} [Scalar α]

def enqueue (schedule : Schedule α) (turns : List Turn) : Schedule α :=
  { schedule with due := schedule.due ++ turns }

/-- The gate in front of what was read at a path. A file that is not there meets none. -/
def readingGate? (path : String) : Except FileFault String → Option Gate
  | .error (.absent _) => none
  | _ => some ⟨.reading, path⟩

/-- The gate that a task would meet with its next step. -/
def gateOf? : Task α → Option Gate
  | .call (.loading target (.carrying content)) => readingGate? target.absolute content
  | .call (.carrying wish content group _ _) =>
    readingGate? (Path.join wish.root group.filePath) content
  | .load _ _ path (.running (.carrying content)) => readingGate? path content
  | .pass { point := .walking (.directory path :: _) _, .. } => some ⟨.listing, path⟩
  | _ => none

/-- Whether a gate stands in front of a task. -/
def isHeld (schedule : Schedule α) (id : TaskId) : Bool :=
  ((schedule.session.task? id).bind gateOf?).any schedule.gates.contains

/-- Tasks that were started by a step take their first turns. -/
def started (before after : Session α) : List Turn :=
  (List.range' before.tasks.length (after.tasks.length - before.tasks.length)).map .step

/-- The task that was given the lock by a step of another. -/
def handedOver (id : TaskId) (before after : Session α) : List Turn :=
  match after.lock.holder with
  | none => []
  | some next => if next = id || before.lock.holder = some next then [] else [.step next]

/-- What follows from the end of a task: a pass leaves and its calls are told, a load is collected.
-/
def endings (awaiting : List (TaskId × TaskId)) (id : TaskId) (after : Session α) : List Turn :=
  if (after.passOutcome? id).isSome then
    .leave id :: (awaiting.filter fun pair => pair.1 == id).map fun pair => .tell pair.2
  else if (after.loadResult? id).isSome then [.collect id]
  else []

/-- How a task goes on behind a step. -/
inductive Course where
  | goesOn
  /-- Others go first. -/
  | rests
  | waits
  | waitsFor (pass : TaskId)

def callCourse (session : Session α) : CallPoint α → Course
  | .awaitingPass pass _ => if (session.passOutcome? pass).isSome then .goesOn else .waitsFor pass
  | .resting _ _ => .rests
  | .ended _ => .waits
  | _ => .goesOn

def passCourse : PassPoint α → Course
  | .resting _ _ _ => .rests
  | .collecting _ _ => .waits
  | .ended _ => .waits
  | _ => .goesOn

/-- The course of a task by where it stands. A task in the lock's queue goes on if it has the lock.
-/
def course (session : Session α) (id : TaskId) : Course :=
  match session.task? id with
  | some (.call (.queued _)) => if session.holdsLock id then .goesOn else .waits
  | some (.call point) => callCourse session point
  | some (.pass { point := .queued, .. }) => if session.holdsLock id then .goesOn else .waits
  | some (.pass pass) => passCourse pass.point
  | some (.load _ _ _ (.running _)) => .goesOn
  | _ => .waits

/-- Lets a task stand where it is, and turns to those that are due. -/
def settleTask (schedule : Schedule α) (id : TaskId) : Schedule α :=
  match course schedule.session id with
  | .goesOn => { schedule with current := some id }
  | .rests => { schedule with current := none }.enqueue [.step id]
  | .waits => { schedule with current := none }
  | .waitsFor pass =>
    { schedule with current := none, awaiting := schedule.awaiting ++ [(pass, id)] }

/-- One step of a task, unless a gate holds it. -/
def advance (schedule : Schedule α) (id : TaskId) : Schedule α :=
  if schedule.isHeld id then { schedule with current := none, held := schedule.held ++ [id] }
  else
    match schedule.session.step? id with
    | none => { schedule with current := none }
    | some session =>
      let turns := started schedule.session session ++ handedOver id schedule.session session ++
        endings schedule.awaiting id session
      ({ schedule with session }.enqueue turns).settleTask id

/-- The pass that waits for a load, if all of its loads were collected. -/
def collectedBy? (schedule : Schedule α) (load : TaskId) : Option TaskId :=
  match schedule.session.task? load with
  | some (.load owner _ _ _) =>
    match schedule.session.task? owner with
    | some (.pass { point := .collecting loads _, .. }) =>
      if loads.all schedule.collected.contains then some owner else none
    | _ => none
  | _ => none

/-- Takes a turn. -/
def take (schedule : Schedule α) : Turn → Schedule α
  | .step id => { schedule with current := some id }
  | .leave id =>
    match schedule.session.leave? id with
    | some session => { schedule with session }
    | none => schedule
  | .tell id => schedule.enqueue [.step id]
  | .collect load =>
    let schedule := { schedule with collected := load :: schedule.collected }
    match schedule.collectedBy? load with
    | some owner => schedule.enqueue [.step owner]
    | none => schedule

/-- What happens next, if anything does. -/
def next? (schedule : Schedule α) : Option (Schedule α) :=
  match schedule.current, schedule.due with
  | some id, _ => some (schedule.advance id)
  | none, turn :: due => some ({ schedule with due }.take turn)
  | none, [] => none

/-- Goes on until every task has ended or waits; the allowance bounds the number of turns. -/
def settle : Nat → Schedule α → Schedule α
  | 0, schedule => schedule
  | allowance + 1, schedule =>
    match schedule.next? with
    | some schedule => settle allowance schedule
    | none => schedule

/-- More turns than any run of the program takes. -/
def allowance : Nat := 1000000000000000

/-- Goes on as far as possible. -/
def run (schedule : Schedule α) : Schedule α := schedule.settle allowance

/-- Makes a call and goes on as far as possible; the call's task is the next one. -/
def call (schedule : Schedule α) (request : Request α) : Schedule α × TaskId :=
  let id := schedule.session.tasks.length
  let session := schedule.session.start [.call (.made request)]
  (({ schedule with session }.enqueue [.step id]).run, id)

/-- Replaces the files. -/
def setFiles (schedule : Schedule α) (files : FileSystem) : Schedule α :=
  { schedule with session := { schedule.session with files } }

/-- Lets time go by. -/
def wait (schedule : Schedule α) (time : α) : Schedule α :=
  { schedule with session := { schedule.session with now := schedule.session.now + time } }

def addGate (schedule : Schedule α) (gate : Gate) : Schedule α :=
  { schedule with gates := schedule.gates ++ [gate] }

/-- Takes all gates away; the tasks that they held go on. -/
def release (schedule : Schedule α) : Schedule α :=
  ({ schedule with gates := [], held := [] }.enqueue (schedule.held.map .step)).run

end Schedule

end CodeSearch
