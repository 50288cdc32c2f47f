import CodeSearch.Session.CallStep
import CodeSearch.Session.PassStep

/-! # Events of a session

A run of a session is any sequence of events, each of which is possible when it happens: calls are
made, tasks take steps, passes that have ended leave the table, the files change and time goes by.
-/

namespace CodeSearch

/-- What may happen to a session. -/
inductive Event (α : Type) where
  | call (request : Request α)
  | step (task : TaskId)
  /-- A pass that has ended is no longer entered as in flight. -/
  | leave (pass : TaskId)
  | files (files : FileSystem)
  | time (now : α)

namespace Session

variable {α : Type} [Scalar α]

/-- The next step of a task, if it can take one. -/
def step? (session : Session α) (id : TaskId) : Option (Session α) :=
  match session.task? id with
  | some (.call point) => session.stepCall id point
  | some (.pass pass) => session.stepPass id pass
  | some (.load owner root path (.running point)) =>
    some (session.stepLoad id owner root path point)
  | _ => none

/-- A pass leaves under its project, whatever is entered there. -/
def leave? (session : Session α) (id : TaskId) : Option (Session α) :=
  match session.task? id with
  | some (.pass pass) =>
    if id ∈ session.leaving then
      some { session with
        inFlight := session.inFlight.erase pass.root
        leaving := session.leaving.erase id }
    else none
  | _ => none

/-- The session after an event, if the event is possible. -/
def after? (session : Session α) : Event α → Option (Session α)
  | .call request => some (session.start [.call (.made request)])
  | .step id => session.step? id
  | .leave id => session.leave? id
  | .files files => some { session with files }
  | .time now => some { session with now }

/-- The session after a run of events. -/
def replay? (session : Session α) : List (Event α) → Option (Session α)
  | [] => some session
  | event :: rest => do (← session.after? event).replay? rest

/-- A run may be cut at any event. -/
theorem replay?_append (session : Session α) (first second : List (Event α)) :
    session.replay? (first ++ second) =
      (session.replay? first).bind fun middle => middle.replay? second := by
  induction first generalizing session with
  | nil => rfl
  | cons event rest ih =>
    simp only [List.cons_append, replay?, bind, Option.bind_assoc]
    exact congrArg _ (funext fun next => ih next)

end Session

end CodeSearch
