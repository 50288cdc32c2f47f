import CodeSearch.Proofs.Session.Run

/-! # The lock and the table of passes

Between taking the lock and giving it back a task is inside, and only the holder of the lock is. A
pass that has not ended is entered in the table under its project, so a project has at most one such
pass at a time.
-/

namespace CodeSearch

variable {α : Type} [Scalar α]

/-- The places of an update that holds the lock. -/
def CallPoint.IsInside : CallPoint α → Prop
  | .updating _ | .probing _ | .loading _ _ | .embedding _ _ | .resting _ _ | .storing _ _ => True
  | _ => False

def Task.IsInside : Task α → Prop
  | .call point => point.IsInside
  | .pass state => state.point = .swapping
  | .load _ _ _ _ => False

def Pass.IsEnded (pass : Pass α) : Prop := ∃ outcome, pass.point = .ended outcome

namespace Lock

theorem holder_request_of_held {lock : Lock} {holder : TaskId} (held : lock.holder = some holder)
    (task : TaskId) : (lock.request task).holder = some holder := by
  simp [request, held]

end Lock

namespace Session

variable {session shared next : Session α} {id : TaskId}

/-- What a step does with the lock. Only a task that is inside gives it back. -/
inductive LockMove (session : Session α) (id : TaskId) : Lock → Prop where
  | kept : LockMove session id session.lock
  | requested : LockMove session id (session.lock.request id)
  | released (task : Task α) (stands : session.task? id = some task) (inside : task.IsInside) :
      LockMove session id session.lock.release

theorem search_lock (session : Session α) (query : String) (options : SearchOptions α) :
    (session.search query options).2.lock = session.lock := by
  rcases session.search_cases query options with same | ⟨snapshot, _, same⟩ <;> rw [same]

theorem IndexMove.lock {root : String} {force : Bool} {start : IndexStart}
    (met : IndexMove session root force shared start) : shared.lock = session.lock := by
  cases met <;> rfl

private theorem CallMove.lock {point after : CallPoint α}
    (stands : session.task? id = some (.call point)) (move : CallMove session id point shared after) :
    LockMove session id shared.lock := by
  cases move with
  | quiet => exact .kept
  | answered _ _ _ _ _ _ met => exact met.lock ▸ .kept
  | indexes _ _ _ _ _ _ met => exact met.lock ▸ .kept
  | searched _ _ query options => exact session.search_lock query options ▸ .kept
  | contextReady => exact .kept
  | contextServed _ _ _ _ _ _ _ met => exact met.lock ▸ .kept
  | contextWaits _ _ _ _ _ _ _ met => exact met.lock ▸ .kept
  | cleared _ root => cases root <;> exact .kept
  | queued => exact .requested
  | gaveUp _ _ reason =>
    refine .released _ stands ?_
    cases reason <;> exact trivial
  | stored => exact .released _ stands trivial
  | finds wish => exact session.search_lock wish.query _ ▸ .kept

theorem Move.lock (move : Move session id next) : LockMove session id next.lock := by
  cases move with
  | call point after shared stands move =>
    change LockMove session id shared.lock
    exact move.lock stands
  | pass pass after shared stands move =>
    cases move with
    | quiet => exact .kept
    | fails => exact .kept
    | loads => exact .kept
    | queued => exact .requested
    | swaps point => exact .released _ stands point
    | discards point => exact .released _ stands point
  | looks => exact .kept
  | ends => exact .kept
  | fails owner root path point message =>
    have same : ((session.setTask id (.load owner root path (.ended (.failed message)))).tellOwner
        owner message).lock = session.lock := by
      simp only [tellOwner]
      split <;> rfl
    exact same ▸ .kept

/-- Only the holder of the lock is inside. -/
def Exclusive (session : Session α) : Prop :=
  ∀ id task, session.task? id = some task → task.IsInside → session.lock.holder = some id

private theorem CallMove.inside {point after : CallPoint α}
    (move : CallMove session id point shared after) (inside : after.IsInside) :
    (point.IsInside ∨ session.lock.holder = some id) ∧ shared.lock = session.lock := by
  -- a call gets inside from inside, or from the queue when it has been given the lock
  cases move with
  | quiet _ _ move =>
    refine ⟨?_, rfl⟩
    cases move with
    | entered _ held => exact .inr held
    | probes => exact .inl trivial
    | opens => exact .inl trivial
    | passesBy => exact .inl trivial
    | looks => exact .inl trivial
    | loaded => exact .inl trivial
    | notLoaded => exact .inl trivial
    | embedded => exact .inl trivial
    | embeds => exact .inl trivial
    | rested => exact .inl trivial
    | refused => exact inside.elim
    | awaits => exact inside.elim
    | goesAhead => exact inside.elim
    | failedWith => exact inside.elim
    | reported => exact inside.elim
    | updates => exact inside.elim
    | serves => exact inside.elim
    | shown => exact inside.elim
    | reads => exact inside.elim
    | takes => exact inside.elim
    | skips => exact inside.elim
    | breaksOff => exact inside.elim
  | answered => exact inside.elim
  | indexes => exact inside.elim
  | searched => exact inside.elim
  | contextReady => exact inside.elim
  | contextServed => exact inside.elim
  | contextWaits => exact inside.elim
  | cleared => exact inside.elim
  | queued => exact inside.elim
  | gaveUp => exact inside.elim
  | stored => exact inside.elim
  | finds => exact inside.elim

private theorem PassMove.inside {pass after : Pass α}
    (move : PassMove session id pass shared after) (inside : after.point = .swapping) :
    session.lock.holder = some id ∧ shared.lock = session.lock := by
  cases move with
  | quiet _ move =>
    cases move with
    | entered _ held => exact ⟨held, rfl⟩
    | walked => cases inside
    | finds => cases inside
    | lists => cases inside
    | completes => cases inside
    | collects => cases inside
    | batchDone => cases inside
    | embedsNext => cases inside
    | leavesOut => cases inside
    | adds => cases inside
    | embeds => cases inside
    | rested => cases inside
  | fails => cases inside
  | loads => cases inside
  | queued => cases inside
  | swaps => cases inside
  | discards => cases inside

private theorem holder_kept (exclusive : session.Exclusive) (move : Move session id next)
    {other : TaskId} {task : Task α} (different : other ≠ id)
    (stood : session.task? other = some task) (inside : task.IsInside) :
    next.lock.holder = some other := by
  have held := exclusive other task stood inside
  generalize after : next.lock = lock
  cases after ▸ move.lock with
  | kept => exact held
  | requested => exact Lock.holder_request_of_held held id
  | released mover stands insideMover =>
    have own := exclusive id mover stands insideMover
    rw [held, Option.some.injEq] at own
    exact absurd own different

private theorem holder_own (exclusive : session.Exclusive) (move : Move session id next)
    {task : Task α} (stands : next.task? id = some task) (inside : task.IsInside) :
    next.lock.holder = some id := by
  cases move with
  | call point after shared stood move =>
    rw [move.task?_self stood] at stands
    cases stands
    obtain ⟨before, same⟩ := move.inside inside
    change shared.lock.holder = some id
    rw [same]
    exact before.elim (exclusive id _ stood) fun held => held
  | pass pass after shared stood move =>
    rw [move.task?_self stood] at stands
    cases stands
    obtain ⟨held, same⟩ := move.inside inside
    change shared.lock.holder = some id
    rw [same, held]
  | looks owner root path point after stood =>
    rw [task?_setTask _ _ _ _ (lt_of_task? stood), if_pos rfl] at stands
    cases stands
    exact inside.elim
  | ends owner root path point result stood =>
    rw [task?_setTask _ _ _ _ (lt_of_task? stood), if_pos rfl] at stands
    cases stands
    exact inside.elim
  | fails owner root path point message stood =>
    rw [task?_tellOwner_load _ _ owner _ root path _ (.ended (.failed message))
      (by rw [task?_setTask _ _ _ _ (lt_of_task? stood), if_pos rfl])] at stands
    cases stands
    exact inside.elim

theorem Exclusive.move (exclusive : session.Exclusive) (move : Move session id next) :
    next.Exclusive := by
  intro other task stands inside
  by_cases own : other = id
  · subst own
    exact holder_own exclusive move stands inside
  · cases move.origin stands with
    | kept _ _ different stood => exact holder_kept exclusive move different stood inside
    | told _ pass _ different stood => exact holder_kept exclusive move different stood inside
    | passStarted => cases inside
    | loadStarted => exact inside.elim
    | call => exact absurd rfl own
    | pass => exact absurd rfl own
    | looks => exact absurd rfl own
    | ends => exact absurd rfl own

theorem Exclusive.event (exclusive : session.Exclusive) {event : Event α}
    (happened : session.after? event = some next) : next.Exclusive := by
  cases after?_move happened with
  | call request =>
    intro other task stands inside
    rw [task?_call] at stands
    split at stands
    · cases stands
      exact inside.elim
    · exact exclusive other task stands inside
  | step id _ move => exact exclusive.move move
  | leave => exact exclusive
  | files => exact exclusive
  | time => exact exclusive

theorem IsNew.exclusive (new : session.IsNew) : session.Exclusive := by
  intro id task stands
  rw [new.task?] at stands
  cases stands

theorem IsNew.exclusive_of_run {events : List (Event α)} (new : session.IsNew)
    (run : session.replay? events = some next) : next.Exclusive :=
  replay?_keeps (fun _ _ _ _ exclusive => exclusive.event) new.exclusive run

/-! ## The table of passes -/

/-- A pass that moves has not ended, and stays with its project. -/
theorem PassMove.running {pass after : Pass α} (move : PassMove session id pass shared after) :
    ¬ pass.IsEnded ∧ after.root = pass.root := by
  have apart : ∀ point, pass.point = point → (∀ outcome, point ≠ .ended outcome) →
      ¬ pass.IsEnded := by
    rintro point stands other ⟨outcome, ended⟩
    exact other outcome (stands.symm.trans ended)
  cases move with
  | quiet _ move =>
    cases move with
    | walked _ stands => exact ⟨apart _ stands (by simp), rfl⟩
    | finds _ _ _ stands => exact ⟨apart _ stands (by simp), rfl⟩
    | lists _ _ _ _ stands => exact ⟨apart _ stands (by simp), rfl⟩
    | completes stands => exact ⟨apart _ stands (by simp), rfl⟩
    | collects _ _ _ stands => exact ⟨apart _ stands (by simp), rfl⟩
    | batchDone _ stands => exact ⟨apart _ stands (by simp), rfl⟩
    | embedsNext _ _ _ _ stands => exact ⟨apart _ stands (by simp), rfl⟩
    | leavesOut _ _ _ stands => exact ⟨apart _ stands (by simp), rfl⟩
    | adds _ _ _ stands => exact ⟨apart _ stands (by simp), rfl⟩
    | embeds _ _ _ stands => exact ⟨apart _ stands (by simp), rfl⟩
    | rested _ _ _ stands => exact ⟨apart _ stands (by simp), rfl⟩
    | entered stands => exact ⟨apart _ stands (by simp), rfl⟩
  | fails _ _ _ _ stands => exact ⟨apart _ stands (by simp), rfl⟩
  | loads _ stands => exact ⟨apart _ stands (by simp), rfl⟩
  | queued stands => exact ⟨apart _ stands (by simp), rfl⟩
  | swaps stands => exact ⟨apart _ stands (by simp), rfl⟩
  | discards stands => exact ⟨apart _ stands (by simp), rfl⟩

theorem Move.length_le (move : Move session id next) :
    session.tasks.length ≤ next.tasks.length := by
  cases move with
  | call _ _ shared _ move =>
    rcases move.tasks with same | ⟨_, _, _, same⟩ <;> simp [setCall, setTask, same]
  | pass _ _ shared _ move =>
    obtain ⟨paths, same⟩ := move.tasks
    simp [setPass, setTask, same]
  | looks => simp [setTask]
  | ends => simp [setTask]
  | fails =>
    simp only [tellOwner]
    split <;> simp [setPass, setTask]

/-- A pass behind a step has just been started, or it is the pass that stood there before. -/
theorem Move.pass_origin (move : Move session id next) {other : TaskId} {pass : Pass α}
    (stands : next.task? other = some (.pass pass)) :
    session.task? other = none ∧ (∃ point, session.task? id = some (.call point)) ∧
        (∃ path : Argument String, path.projectPath = .ok pass.root) ∧
        pass = .start session.settings pass.root ∨
      ∃ before, session.task? other = some (.pass before) ∧ before.root = pass.root ∧
        (before.IsEnded → pass.IsEnded) := by
  cases move.origin_pass stands with
  | kept _ _ stood => exact .inr ⟨pass, stood, rfl, fun ended => ended⟩
  | told before message _ stood => exact .inr ⟨before, stood, rfl, fun ended => ended⟩
  | started path root accepted caller new => exact .inl ⟨new, caller, ⟨path, accepted⟩, rfl⟩
  | moved before _ _ own stood move =>
    subst own
    obtain ⟨running, same⟩ := move.running
    exact .inr ⟨before, stood, same.symm, fun ended => absurd ended running⟩

private theorem Move.still (move : Move session id next) {other : TaskId} {task : Task α}
    (stood : session.task? other = some task) :
    ∃ after, next.task? other = some after ∧ Origin session id other after := by
  have present : other < next.tasks.length :=
    Nat.lt_of_lt_of_le (lt_of_task? stood) move.length_le
  have stands : next.task? other = some next.tasks[other] := List.getElem?_eq_getElem present
  exact ⟨_, stands, move.origin stands⟩

/-- A pass stays where it was, and having ended it stays ended. -/
theorem Move.pass_stays (move : Move session id next) {other : TaskId} {before : Pass α}
    (stood : session.task? other = some (.pass before)) :
    ∃ pass, next.task? other = some (.pass pass) ∧ before.root = pass.root ∧
      (before.IsEnded → pass.IsEnded) := by
  obtain ⟨task, stands, origin⟩ := move.still stood
  have same : ∀ found, session.task? other = some found → found = .pass before := by
    intro found known
    rw [stood, Option.some.injEq] at known
    exact known.symm
  cases origin with
  | kept _ _ _ found =>
    rw [same _ found] at stands
    exact ⟨before, stands, rfl, fun ended => ended⟩
  | told _ pass message _ found =>
    cases same _ found
    exact ⟨_, stands, rfl, fun ended => ended⟩
  | pass pass after shared found step =>
    cases same _ found
    obtain ⟨running, root⟩ := step.running
    exact ⟨after, stands, root.symm, fun ended => absurd ended running⟩
  | passStarted _ _ _ _ _ new => rw [stood] at new; cases new
  | loadStarted _ _ _ new => rw [stood] at new; cases new
  | call _ _ _ found => cases same _ found
  | looks _ _ _ _ _ found => cases same _ found
  | ends _ _ _ _ _ found => cases same _ found

/-- A call stays where it is while others move. -/
theorem Move.call_stays (move : Move session id next) {other : TaskId} {point : CallPoint α}
    (different : other ≠ id) (stood : session.task? other = some (.call point)) :
    next.task? other = some (.call point) := by
  obtain ⟨task, stands, origin⟩ := move.still stood
  cases origin with
  | kept _ _ _ found =>
    rw [stood] at found
    cases found
    exact stands
  | told _ _ _ _ found => rw [stood] at found; cases found
  | passStarted _ _ _ _ _ new => rw [stood] at new; cases new
  | loadStarted _ _ _ new => rw [stood] at new; cases new
  | call => exact absurd rfl different
  | pass => exact absurd rfl different
  | looks => exact absurd rfl different
  | ends => exact absurd rfl different

/-- An event moves a call if it is a step of its own, and leaves it where it stands if it is not. -/
theorem after?_call {point : CallPoint α} {event : Event α}
    (stood : session.task? id = some (.call point)) (happened : session.after? event = some next) :
    event = .step id ∧ (∃ after shared, CallMove session id point shared after ∧
        next = shared.setCall id after ∧ next.task? id = some (.call after)) ∨
      event ≠ .step id ∧ next.task? id = some (.call point) := by
  cases after?_move happened with
  | call request =>
    exact .inr ⟨nofun, task?_call_of stood request⟩
  | step other _ move =>
    by_cases own : id = other
    · subst own
      obtain ⟨after, shared, step, rfl⟩ := move.of_call stood
      exact .inl ⟨rfl, after, shared, step, rfl, step.task?_self stood⟩
    · refine .inr ⟨?_, move.call_stays own stood⟩
      rintro ⟨⟩
      exact own rfl
  | leave => exact .inr ⟨nofun, stood⟩
  | files => exact .inr ⟨nofun, stood⟩
  | time => exact .inr ⟨nofun, stood⟩

theorem task?_of_outcome {outcome : Outcome α} (told : session.outcome? id = some outcome) :
    session.task? id = some (.call (.ended outcome)) := by
  unfold outcome? at told
  split at told
  · next stands =>
    cases told
    exact stands
  · cases told

/-- The fault with which a call has ended, if it has. -/
def fault? (session : Session α) (id : TaskId) : Option CallFault :=
  match session.outcome? id with
  | some (.error fault) => some fault
  | _ => none

theorem outcome?_of_fault? {fault : CallFault} (told : session.fault? id = some fault) :
    session.outcome? id = some (.error fault) := by
  unfold fault? at told
  split at told
  · cases told
    assumption
  · cases told

theorem passOutcome?_eq_some_iff {ended : Except CallFault PassReport} :
    session.passOutcome? id = some ended ↔
      ∃ pass, session.task? id = some (.pass pass) ∧ pass.point = .ended ended := by
  unfold passOutcome?
  split
  · next stands => simp [stands]
  · next other =>
    refine iff_of_false nofun ?_
    rintro ⟨pass, stands, point⟩
    obtain ⟨root, scanned, indexed, errors, draft, place⟩ := pass
    cases point
    exact other _ _ _ _ _ _ stands

theorem loadResult?_eq_some_iff {result : LoadResult α} :
    session.loadResult? id = some result ↔
      ∃ owner root path, session.task? id = some (.load owner root path (.ended result)) := by
  unfold loadResult?
  split
  · next stands => simp [stands]
  · next other =>
    refine iff_of_false nofun ?_
    rintro ⟨owner, root, path, stands⟩
    exact other _ _ _ _ stands

/-- A pass with an outcome has ended. -/
theorem isEnded_of_passOutcome? {ended : Except CallFault PassReport} {pass : Pass α}
    (told : session.passOutcome? id = some ended) (stands : session.task? id = some (.pass pass)) :
    pass.IsEnded := by
  obtain ⟨found, there, point⟩ := passOutcome?_eq_some_iff.mp told
  cases stands.symm.trans there
  exact ⟨ended, point⟩

/-- A call that moves has not ended. -/
theorem CallMove.running {point after : CallPoint α}
    (move : CallMove session id point shared after) (outcome : Outcome α) :
    point ≠ .ended outcome := by
  rintro rfl
  cases move with
  | quiet _ _ move => cases move
  | gaveUp _ _ reason => cases reason

/-- A call that has ended makes no more steps. -/
theorem outcome?_keeps {outcome : Outcome α} {event : Event α}
    (told : session.outcome? id = some outcome) (happened : session.after? event = some next) :
    next.outcome? id = some outcome := by
  rcases after?_call (task?_of_outcome told) happened with ⟨-, after, shared, step, -⟩ | ⟨-, stays⟩
  · exact absurd rfl (step.running outcome)
  · rw [outcome?, stays]

/-- A load stays the load of its file. -/
theorem Move.load_stays (move : Move session id next) {other owner : TaskId} {root path : String}
    {state : LoadState α} (stood : session.task? other = some (.load owner root path state)) :
    ∃ after, next.task? other = some (.load owner root path after) := by
  obtain ⟨task, stands, origin⟩ := move.still stood
  cases origin with
  | kept _ _ _ found =>
    rw [stood] at found
    cases found
    exact ⟨state, stands⟩
  | told _ _ _ _ found => rw [stood] at found; cases found
  | passStarted _ _ _ _ _ new => rw [stood] at new; cases new
  | loadStarted _ _ _ new => rw [stood] at new; cases new
  | call _ _ _ found => rw [stood] at found; cases found
  | pass _ _ _ found => rw [stood] at found; cases found
  | looks _ _ _ _ _ found =>
    rw [stood] at found
    cases found
    exact ⟨_, stands⟩
  | ends _ _ _ _ _ found =>
    rw [stood] at found
    cases found
    exact ⟨_, stands⟩

/-- What a step does with the table of passes and with those that are leaving it. -/
inductive TableMove (session : Session α) (id : TaskId) (next : Session α) : Prop where
  | kept (inFlight : next.inFlight = session.inFlight) (leaving : next.leaving = session.leaving)
      (old : ∀ other pass, next.task? other = some (.pass pass) → session.task? other ≠ none)
  | started (root : String) (free : session.inFlight.get? root = none)
      (inFlight : next.inFlight = session.inFlight.insert root session.tasks.length)
      (leaving : next.leaving = session.leaving)
      (there : next.task? session.tasks.length = some (.pass (.start session.settings root)))
      (new : ∀ other pass, next.task? other = some (.pass pass) → session.task? other = none →
        other = session.tasks.length ∧ pass.root = root)
  | ended (pass after : Pass α) (stood : session.task? id = some (.pass pass))
      (running : ¬ pass.IsEnded) (stands : next.task? id = some (.pass after))
      (settled : after.IsEnded) (inFlight : next.inFlight = session.inFlight)
      (leaving : next.leaving = session.leaving ++ [id])
      (old : ∀ other pass, next.task? other = some (.pass pass) → session.task? other ≠ none)

-- What tasks share of the table is kept, or a pass is started and entered.
private def TableKept (session shared : Session α) : Prop :=
  shared.inFlight = session.inFlight ∧ shared.leaving = session.leaving ∧
      shared.tasks = session.tasks ∨
    ∃ root, session.inFlight.get? root = none ∧
      shared.inFlight = session.inFlight.insert root session.tasks.length ∧
      shared.leaving = session.leaving ∧
      shared.tasks = session.tasks ++ [.pass (.start session.settings root)]

private theorem search_table (session : Session α) (query : String) (options : SearchOptions α) :
    TableKept session (session.search query options).2 := by
  rcases session.search_cases query options with same | ⟨snapshot, _, same⟩ <;> rw [same] <;>
    exact .inl ⟨rfl, rfl, rfl⟩

private theorem IndexMove.table {root : String} {force : Bool} {start : IndexStart}
    (met : IndexMove session root force shared start) : TableKept session shared := by
  cases met with
  | served => exact .inl ⟨rfl, rfl, rfl⟩
  | joined => exact .inl ⟨rfl, rfl, rfl⟩
  | started free => exact .inr ⟨root, free, rfl, rfl, rfl⟩

private theorem CallMove.table {point after : CallPoint α}
    (move : CallMove session id point shared after) : TableKept session shared := by
  cases move with
  | quiet => exact .inl ⟨rfl, rfl, rfl⟩
  | answered _ _ _ _ _ _ met => exact met.table
  | indexes _ _ _ _ _ _ met => exact met.table
  | searched _ _ query options => exact session.search_table query options
  | contextReady => exact .inl ⟨rfl, rfl, rfl⟩
  | contextServed _ _ _ _ _ _ _ met => exact met.table
  | contextWaits _ _ _ _ _ _ _ met => exact met.table
  | cleared _ root => cases root <;> exact .inl ⟨rfl, rfl, rfl⟩
  | queued => exact .inl ⟨rfl, rfl, rfl⟩
  | gaveUp => exact .inl ⟨rfl, rfl, rfl⟩
  | stored => exact .inl ⟨rfl, rfl, rfl⟩
  | finds wish => exact session.search_table wish.query _

/-- Passes and loads start no pass. -/
theorem Move.old (move : Move session id next)
    (other : ∀ point, session.task? id ≠ some (.call point)) (number : TaskId) (pass : Pass α)
    (stands : next.task? number = some (.pass pass)) : session.task? number ≠ none := by
  rcases move.pass_origin stands with ⟨_, ⟨point, caller⟩, _⟩ | ⟨before, stood, _⟩
  · exact absurd caller (other point)
  · rw [stood]
    exact Option.some_ne_none _

/-- Where a call is put, no pass stands. -/
theorem pass_of_setCall {after : CallPoint α} {other : TaskId} {pass : Pass α}
    (stands : (shared.setCall id after).task? other = some (.pass pass)) :
    shared.task? other = some (.pass pass) := by
  simp only [task?, setCall, setTask, List.getElem?_set] at stands
  split at stands
  · split at stands <;> cases stands
  · exact stands

theorem Move.table (move : Move session id next) : TableMove session id next := by
  have whole := move
  cases move with
  | call point after shared stood move =>
    rcases move.table with ⟨inFlight, leaving, tasks⟩ | ⟨root, free, inFlight, leaving, tasks⟩
    · refine .kept inFlight leaving ?_
      intro other pass stands
      have stood := pass_of_setCall stands
      rw [task?, tasks] at stood
      rw [task?, stood]
      exact Option.some_ne_none _
    · refine .started root free inFlight leaving ?_ ?_
      · have present : id < shared.tasks.length := by
          rw [tasks, List.length_append]
          exact Nat.lt_add_right _ (lt_of_task? stood)
        rw [setCall, task?_setTask _ _ _ _ present, if_neg (Nat.ne_of_lt (lt_of_task? stood)), task?,
          tasks, List.getElem?_concat_length]
      intro other pass stands new
      have stood := pass_of_setCall stands
      rw [task?, tasks, List.getElem?_append_right (List.getElem?_eq_none_iff.mp new)] at stood
      have last := (List.getElem?_eq_some_iff.mp stood).1
      rw [List.length_singleton, Nat.lt_one_iff, Nat.sub_eq_zero_iff_le] at last
      have number : other = session.tasks.length :=
        Nat.le_antisymm last (List.getElem?_eq_none_iff.mp new)
      rw [number, Nat.sub_self] at stood
      cases stood
      exact ⟨number, rfl⟩
  | pass pass after shared stood move =>
    have old := whole.old fun point other => by rw [stood] at other; cases other
    have stands := move.task?_self stood
    have running := move.running.1
    cases move with
    | quiet => exact .kept rfl rfl old
    | loads => exact .kept rfl rfl old
    | queued => exact .kept rfl rfl old
    | fails => exact .ended pass _ stood running stands ⟨_, rfl⟩ rfl rfl old
    | swaps => exact .ended pass _ stood running stands ⟨_, rfl⟩ rfl rfl old
    | discards => exact .ended pass _ stood running stands ⟨_, rfl⟩ rfl rfl old
  | looks owner root path point after stood =>
    exact .kept rfl rfl (whole.old fun point other => by rw [stood] at other; cases other)
  | ends owner root path point result stood =>
    exact .kept rfl rfl (whole.old fun point other => by rw [stood] at other; cases other)
  | fails owner root path point message stood =>
    refine .kept ?_ ?_ (whole.old fun point other => by rw [stood] at other; cases other) <;>
    · simp only [tellOwner]
      split <;> rfl

/-- Every pass that has not ended is entered under its project, and so is every pass that is
leaving. -/
structure Tabled (session : Session α) : Prop where
  entered : ∀ id pass, session.task? id = some (.pass pass) → ¬ pass.IsEnded →
    session.inFlight.get? pass.root = some id
  leaving : ∀ id ∈ session.leaving, ∃ pass, session.task? id = some (.pass pass) ∧ pass.IsEnded ∧
    session.inFlight.get? pass.root = some id
  distinct : session.leaving.Nodup

theorem IsNew.tabled (new : session.IsNew) : session.Tabled where
  entered id pass stands := by rw [new.task?] at stands; cases stands
  leaving id member := by rw [new.leaving] at member; cases member
  distinct := by rw [new.leaving]; exact .nil

private theorem Move.pass_before (move : Move session id next) {other : TaskId} {pass : Pass α}
    (stands : next.task? other = some (.pass pass)) (running : ¬ pass.IsEnded)
    (old : session.task? other ≠ none) :
    ∃ before, session.task? other = some (.pass before) ∧ before.root = pass.root ∧
      ¬ before.IsEnded := by
  rcases move.pass_origin stands with ⟨new, _⟩ | ⟨before, stood, root, ends⟩
  · exact absurd new old
  · exact ⟨before, stood, root, fun ended => running (ends ended)⟩

theorem Tabled.move (tabled : session.Tabled) (move : Move session id next) : next.Tabled := by
  have leavers : ∀ other ∈ session.leaving, ∃ pass, next.task? other = some (.pass pass) ∧
      pass.IsEnded ∧ session.inFlight.get? pass.root = some other := by
    intro other member
    obtain ⟨before, stood, ended, entered⟩ := tabled.leaving other member
    obtain ⟨pass, stands, root, ends⟩ := move.pass_stays stood
    exact ⟨pass, stands, ends ended, root ▸ entered⟩
  cases move.table with
  | kept inFlight leaving old =>
    refine ⟨?_, ?_, ?_⟩
    · intro other pass stands running
      obtain ⟨before, stood, root, runningBefore⟩ :=
        move.pass_before stands running (old other pass stands)
      rw [inFlight, ← root]
      exact tabled.entered other before stood runningBefore
    · rw [inFlight, leaving]
      exact leavers
    · rw [leaving]
      exact tabled.distinct
  | started root free inFlight leaving _ new =>
    have others : ∀ project number, session.inFlight.get? project = some number →
        next.inFlight.get? project = some number := by
      intro project number entered
      rw [inFlight, OrderedMap.get?_insert, if_neg]
      · exact entered
      · rintro rfl
        rw [free] at entered
        cases entered
    refine ⟨?_, ?_, ?_⟩
    · intro other pass stands running
      cases known : session.task? other with
      | none =>
        obtain ⟨number, project⟩ := new other pass stands known
        rw [inFlight, OrderedMap.get?_insert, if_pos project.symm, number]
      | some task =>
        obtain ⟨before, stood, root, runningBefore⟩ :=
          move.pass_before stands running (by rw [known]; exact Option.some_ne_none _)
        rw [← root]
        exact others _ _ (tabled.entered other before stood runningBefore)
    · rw [leaving]
      intro other member
      obtain ⟨pass, stands, ended, entered⟩ := leavers other member
      exact ⟨pass, stands, ended, others _ _ entered⟩
    · rw [leaving]
      exact tabled.distinct
  | ended pass after stood running stands settled inFlight leaving old =>
    refine ⟨?_, ?_, ?_⟩
    · intro other pass stands running
      obtain ⟨before, stood, root, runningBefore⟩ :=
        move.pass_before stands running (old other pass stands)
      rw [inFlight, ← root]
      exact tabled.entered other before stood runningBefore
    · rw [inFlight, leaving]
      intro other member
      rcases List.mem_append.mp member with earlier | own
      · exact leavers other earlier
      · rw [List.mem_singleton.mp own]
        obtain ⟨found, standsNow, root, _⟩ := move.pass_stays stood
        rw [stands] at standsNow
        cases standsNow
        exact ⟨after, stands, settled, root ▸ tabled.entered id pass stood running⟩
    · rw [leaving, List.nodup_append]
      refine ⟨tabled.distinct, by simp, ?_⟩
      intro other member own single
      rw [List.mem_singleton.mp single]
      rintro rfl
      obtain ⟨left, stoodLeft, ended, _⟩ := tabled.leaving other member
      rw [stood] at stoodLeft
      cases stoodLeft
      exact running ended

/-- A pass that leaves takes away no entry but its own. -/
theorem Tabled.leave (tabled : session.Tabled) {pass : Pass α}
    (stood : session.task? id = some (.pass pass)) (member : id ∈ session.leaving) :
    Tabled { session with
      inFlight := session.inFlight.erase pass.root
      leaving := session.leaving.erase id } := by
  obtain ⟨own, stoodOwn, ended, entered⟩ := tabled.leaving id member
  rw [stood] at stoodOwn
  cases stoodOwn
  have others : ∀ project number, number ≠ id → session.inFlight.get? project = some number →
      (session.inFlight.erase pass.root).get? project = some number := by
    intro project number different here
    rw [OrderedMap.get?_erase, if_neg]
    · exact here
    · rintro rfl
      rw [entered, Option.some.injEq] at here
      exact different here.symm
  refine ⟨?_, ?_, tabled.distinct.erase id⟩
  · intro other running stands notEnded
    refine others _ _ ?_ (tabled.entered other running stands notEnded)
    rintro rfl
    have stands : session.task? other = some (.pass running) := stands
    rw [stood] at stands
    cases stands
    exact notEnded ended
  · intro other stays
    rw [tabled.distinct.mem_erase_iff] at stays
    obtain ⟨left, stoodLeft, endedLeft, enteredLeft⟩ := tabled.leaving other stays.2
    exact ⟨left, stoodLeft, endedLeft, others _ _ stays.1 enteredLeft⟩

theorem Tabled.event (tabled : session.Tabled) {event : Event α}
    (happened : session.after? event = some next) : next.Tabled := by
  cases after?_move happened with
  | call request =>
    refine ⟨?_, ?_, tabled.distinct⟩
    · exact fun other pass stands => tabled.entered other pass (pass_of_call stands)
    · intro other member
      obtain ⟨pass, stood, rest⟩ := tabled.leaving other member
      exact ⟨pass, task?_call_of stood request, rest⟩
  | step id _ move => exact tabled.move move
  | leave id pass stood member => exact tabled.leave stood member
  | files => exact ⟨tabled.entered, tabled.leaving, tabled.distinct⟩
  | time => exact ⟨tabled.entered, tabled.leaving, tabled.distinct⟩

theorem IsNew.tabled_of_run {events : List (Event α)} (new : session.IsNew)
    (run : session.replay? events = some next) : next.Tabled :=
  replay?_keeps (fun _ _ _ _ tabled => tabled.event) new.tabled run

end Session

end CodeSearch
