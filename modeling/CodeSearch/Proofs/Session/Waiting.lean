import CodeSearch.Proofs.Session.CachedAnswers
import CodeSearch.Proofs.Session.Progress
import CodeSearch.Proofs.Session.Soundness
import Mathlib.Data.List.Forall2
import Mathlib.Logic.Relation

/-! # Who waits for whom

A call may wait for a pass, updates and passes for the lock, and a pass for the files that it loads.
Whoever holds the lock waits for nothing, and neither does the loading of a file, so no chain of
waiting is longer than two and none is closed. A task that has not ended goes on, or it waits at the
end of a chain for one that does.
-/

namespace CodeSearch

variable {α : Type} [Scalar α]

namespace Session

variable {session shared next : Session α} {id other : TaskId}

/-- A task stands still until another has done something. -/
inductive WaitsFor (session : Session α) : TaskId → TaskId → Prop where
  | pass (id number : TaskId) (after : AfterPass)
      (stands : session.task? id = some (.call (.awaitingPass number after)))
      (running : session.passOutcome? number = none) : WaitsFor session id number
  | update (id holder : TaskId) (update : Update)
      (stands : session.task? id = some (.call (.queued update)))
      (held : session.lock.holder = some holder) (different : holder ≠ id) :
      WaitsFor session id holder
  | swap (id holder : TaskId) (pass : Pass α) (stands : session.task? id = some (.pass pass))
      (point : pass.point = .queued) (held : session.lock.holder = some holder)
      (different : holder ≠ id) : WaitsFor session id holder
  | load (id number : TaskId) (pass : Pass α) (loads : List TaskId) (rest : List String)
      (stands : session.task? id = some (.pass pass)) (point : pass.point = .collecting loads rest)
      (member : number ∈ loads) (running : session.loadResult? number = none) :
      WaitsFor session id number

/-- Whoever stands still waits for another, and at the end of the chain there is one that goes on.
Nobody waits in a circle, and the holder of the lock waits for nobody. -/
structure NeverStuck (session : Session α) : Prop where
  waits : ∀ id task, session.task? id = some task → ¬ task.HasEnded →
    session.after? (.step id) = none → ∃ other, session.WaitsFor id other
  goesOn : ∀ id task, session.task? id = some task → ¬ task.HasEnded →
    ∃ other next, Relation.ReflTransGen session.WaitsFor id other ∧
      session.after? (.step other) = some next
  acyclic : ∀ id, ¬ Relation.TransGen session.WaitsFor id id
  holder : ∀ id, session.lock.holder = some id →
    (∃ next, session.after? (.step id) = some next) ∧ ∀ other, ¬ session.WaitsFor id other

/-! ## Calls and the passes that they wait for -/

/-- What a call waits for behind its move: nothing, a pass that is entered, or one that it has just
started. -/
inductive AwaitMove (session shared : Session α) : CallPoint α → Prop where
  | kept (next : CallPoint α) (tasks : shared.tasks = session.tasks)
      (entered : ∀ number after, next = .awaitingPass number after →
        ∃ root, session.inFlight.get? root = some number) : AwaitMove session shared next
  | started (root : String) (after : AfterPass)
      (tasks : shared.tasks = session.tasks ++ [.pass (.start session.settings root)]) :
      AwaitMove session shared (.awaitingPass session.tasks.length after)

private theorem IndexMove.awaits {root : String} {force : Bool} {number : TaskId}
    (met : IndexMove session root force shared (.waits number)) (after : AfterPass) :
    AwaitMove session shared (.awaitingPass number after) := by
  cases met with
  | joined _ entered =>
    refine .kept _ rfl ?_
    rintro _ _ ⟨⟩
    exact ⟨root, entered⟩
  | started => exact .started root after rfl

private theorem IndexMove.tasks_of_answered {root : String} {force : Bool} {report : PassReport}
    (met : IndexMove session root force shared (.answered report)) :
    shared.tasks = session.tasks := by
  cases met
  rfl

private theorem CallMove.awaits {point after : CallPoint α}
    (move : CallMove session id point shared after) : AwaitMove session shared after := by
  cases move with
  | quiet _ _ move =>
    refine .kept _ rfl ?_
    rintro number next rfl
    cases move with
    | awaits _ _ root _ _ entered => exact ⟨root, entered⟩
  | answered _ _ _ _ _ _ met => exact .kept _ met.tasks_of_answered nofun
  | indexes _ _ _ _ _ _ met => exact met.awaits _
  | searched _ _ query options => exact .kept _ (session.search_tasks query options) nofun
  | contextReady => exact .kept _ rfl nofun
  | contextServed _ _ _ _ _ _ _ met => exact .kept _ met.tasks_of_answered nofun
  | contextWaits _ _ _ wish _ _ _ met =>
    cases met.awaits (.context wish) with
    | kept _ tasks entered => exact .kept _ tasks entered
    | started root _ tasks => exact .started root _ tasks
  | cleared _ root => cases root <;> exact .kept _ rfl nofun
  | queued => exact .kept _ rfl nofun
  | gaveUp => exact .kept _ rfl nofun
  | stored => exact .kept _ rfl nofun
  | finds wish => exact .kept _ (session.search_tasks wish.query _) nofun

/-- Calls wait for passes, and some call waits for every pass that has not ended. -/
structure Attended (session : Session α) : Prop where
  passes : ∀ id number after, session.task? id = some (.call (.awaitingPass number after)) →
    ∃ pass, session.task? number = some (.pass pass)
  attended : ∀ number pass, session.task? number = some (.pass pass) → ¬ pass.IsEnded →
    ∃ id after, session.task? id = some (.call (.awaitingPass number after))

theorem IsNew.attended (new : session.IsNew) : session.Attended := by
  constructor <;> simp [new.task?]

private theorem CallMove.isEnded {point : CallPoint α} {number : TaskId} {after : AfterPass}
    {pass : Pass α} (move : CallMove session id (.awaitingPass number after) shared point)
    (stood : session.task? number = some (.pass pass)) : pass.IsEnded := by
  -- a call that goes on has seen that its pass has ended
  cases move with
  | quiet _ _ move => cases move <;> exact isEnded_of_passOutcome? ‹_› stood
  | gaveUp _ _ reason => cases reason

private theorem Attended.passes_move (attended : session.Attended) (current : session.Current)
    (move : Move session id next) {other number : TaskId} {after : AfterPass}
    (stands : next.task? other = some (.call (.awaitingPass number after))) :
    ∃ pass, next.task? number = some (.pass pass) := by
  have stays : (∃ pass, session.task? number = some (.pass pass)) →
      ∃ pass, next.task? number = some (.pass pass) := by
    rintro ⟨pass, stood⟩
    obtain ⟨after, there, -⟩ := move.pass_stays stood
    exact ⟨after, there⟩
  rcases move.call_origin stands with ⟨-, stood⟩ | ⟨rfl, point, shared, stood, step, rfl⟩
  · exact stays (attended.passes other number after stood)
  · cases step.awaits with
    | kept _ _ entered =>
      obtain ⟨root, entered⟩ := entered number after rfl
      obtain ⟨pass, there, -⟩ := current root number entered
      exact stays ⟨pass, there⟩
    | started root _ tasks =>
      refine ⟨.start session.settings root, ?_⟩
      have before := lt_of_task? stood
      have present : other < shared.tasks.length := by
        rw [tasks, List.length_append]
        exact Nat.lt_add_right _ before
      rw [setCall, task?_setTask _ _ _ _ present, if_neg (Nat.ne_of_lt before), task?, tasks,
        List.getElem?_concat_length]

private theorem Attended.attended_move (attended : session.Attended) (move : Move session id next)
    {number : TaskId} {pass : Pass α} (stands : next.task? number = some (.pass pass))
    (running : ¬ pass.IsEnded) :
    ∃ other after, next.task? other = some (.call (.awaitingPass number after)) := by
  rcases move.pass_origin stands with ⟨new, ⟨point, stood⟩, -⟩ | ⟨before, stood, -, ends⟩
  · obtain ⟨after, shared, step, rfl⟩ := move.of_call stood
    have found := pass_of_setCall stands
    have there := step.task?_self stood
    cases step.awaits with
    | kept _ tasks =>
      rw [task?, tasks, ← task?, new] at found
      cases found
    | started root next tasks =>
      refine ⟨id, next, ?_⟩
      have beyond := List.getElem?_eq_none_iff.mp new
      have within := lt_of_task? found
      rw [tasks, List.length_append, List.length_singleton] at within
      rw [Nat.le_antisymm (Nat.le_of_lt_succ within) beyond]
      exact there
  · obtain ⟨other, after, waits⟩ := attended.attended number before stood fun ended =>
      running (ends ended)
    by_cases own : other = id
    · subst own
      obtain ⟨point, shared, step, -⟩ := move.of_call waits
      exact absurd (ends (step.isEnded stood)) running
    · exact ⟨other, after, move.call_stays own waits⟩

theorem Attended.event (attended : session.Attended) (current : session.Current) {event : Event α}
    (happened : session.after? event = some next) : next.Attended := by
  cases after?_move happened with
  | call request =>
    refine ⟨?_, ?_⟩
    · intro id number after stands
      rw [task?_call] at stands
      split at stands
      · cases stands
      · obtain ⟨pass, stood⟩ := attended.passes id number after stands
        exact ⟨pass, task?_call_of stood request⟩
    · intro number pass stands running
      obtain ⟨id, after, stood⟩ := attended.attended number pass (pass_of_call stands) running
      exact ⟨id, after, task?_call_of stood request⟩
  | step id _ move =>
    exact ⟨fun _ _ _ => attended.passes_move current move, fun _ _ => attended.attended_move move⟩
  | leave => exact ⟨attended.passes, attended.attended⟩
  | files => exact ⟨attended.passes, attended.attended⟩
  | time => exact ⟨attended.passes, attended.attended⟩

theorem IsNew.attended_of_run {events : List (Event α)} {current : Session α} (new : session.IsNew)
    (run : session.replay? events = some current) : current.Attended :=
  replay?_keeps_reached
    (fun _ _ _ _ reached attended => attended.event (new.current_of_run reached)) new.attended run

/-! ## Chains of waiting -/

/-- Passes wait only for loads. -/
def LoadsAreLoads (session : Session α) : Prop :=
  ∀ id pass loads rest, session.task? id = some (.pass pass) →
    pass.point = .collecting loads rest → ∀ number ∈ loads,
      ∃ owner root path state, session.task? number = some (.load owner root path state)

theorem Grounded.loadsAreLoads {settings : Settings α} {embedder : Embedder α}
    {moments : FileSystem → Prop} (grounded : session.Grounded settings embedder moments 0) :
    session.LoadsAreLoads := by
  intro id pass loads rest stands point
  obtain ⟨-, done, -, known⟩ := grounded.passes id pass (Nat.zero_le id) stands
  rw [point] at known
  obtain ⟨batch, -, loadsOf⟩ := known
  refine ((List.forall₂_and_left _ _).mp (loadsOf.imp fun number path ofPass => ⟨?_, ofPass⟩)).1
  obtain ⟨owner, state, there⟩ := ofPass.there
  exact ⟨owner, _, path, state, there⟩

/-- The number of tasks that may still follow a task in a chain of waiting. -/
def tasksAhead (session : Session α) (id : TaskId) : Nat :=
  if session.lock.holder = some id then 0
  else
    match session.task? id with
    | some (.call (.awaitingPass _ _)) => 2
    | some (.load _ _ _ _) => 0
    | _ => 1

private theorem Lined.holder (lined : session.Lined) (held : session.lock.holder = some id) :
    ∃ task, session.task? id = some task ∧ task.IsInLine :=
  lined.known id (by simp [Lock.members, held])

private theorem Lined.not_holder (lined : session.Lined) {task : Task α}
    (stands : session.task? id = some task) (outside : ¬ task.IsInLine) :
    session.lock.holder ≠ some id := by
  intro held
  obtain ⟨found, there, inLine⟩ := lined.holder held
  cases stands.symm.trans there
  exact outside inLine

/-- Whoever waits has more tasks ahead than the one that it waits for. -/
theorem WaitsFor.tasksAhead_lt (waits : session.WaitsFor id other) (lined : session.Lined)
    (attended : session.Attended) (loading : session.LoadsAreLoads) :
    session.tasksAhead other < session.tasksAhead id := by
  cases waits with
  | pass after stands =>
    obtain ⟨pass, there⟩ := attended.passes id other after stands
    have free := lined.not_holder stands not_false
    rw [tasksAhead, tasksAhead, if_neg free, stands, there]
    split <;> simp
  | update update stands held different =>
    rw [tasksAhead, if_pos held, tasksAhead, if_neg (by simpa [held] using different), stands]
    exact Nat.zero_lt_one
  | swap pass stands _ held different =>
    rw [tasksAhead, if_pos held, tasksAhead, if_neg (by simpa [held] using different), stands]
    exact Nat.zero_lt_one
  | load pass loads rest stands point member =>
    obtain ⟨owner, root, path, state, there⟩ := loading id pass loads rest stands point other member
    have free := lined.not_holder stands (by simp [Task.IsInLine, point])
    rw [tasksAhead, tasksAhead, if_neg free, stands, there]
    split <;> simp

/-- A task that has not ended goes on or waits for another. -/
theorem goesOn_or_waits (lined : session.Lined) {task : Task α}
    (stands : session.task? id = some task) (running : ¬ task.HasEnded) :
    (∃ next, session.after? (.step id) = some next) ∨ ∃ other, session.WaitsFor id other := by
  -- whoever stands in the queue of the lock has another in front
  have front : task.IsInLine → session.lock.holder ≠ some id →
      ∃ holder, session.lock.holder = some holder ∧ holder ≠ id := by
    intro inLine notOwn
    cases held : session.lock.holder with
    | some holder =>
      refine ⟨holder, rfl, ?_⟩
      rintro rfl
      exact notOwn held
    | none =>
      have member := lined.listed id task stands inLine
      simp [Lock.members, held, lined.serving held] at member
  cases task with
  | call point =>
    by_cases blocks : session.Blocks id point
    · refine .inr ?_
      cases point with
      | awaitingPass number after => exact ⟨number, .pass id number after stands blocks⟩
      | queued update =>
        obtain ⟨holder, held, different⟩ := front trivial blocks
        exact ⟨holder, .update id holder update stands held different⟩
      | ended outcome => exact absurd ⟨outcome, rfl⟩ running
      | _ => exact blocks.elim
    · obtain ⟨next, step⟩ := stepCall_isSome blocks
      exact .inl ⟨next, by simpa only [after?, step?, stands] using step⟩
  | pass pass =>
    by_cases blocks : session.BlocksPass id pass.point
    · refine .inr ?_
      cases point : pass.point with
      | collecting loads rest =>
        rw [point] at blocks
        obtain ⟨load, member, none⟩ := blocks
        exact ⟨load, .load id load pass loads rest stands point member none⟩
      | queued =>
        rw [point] at blocks
        obtain ⟨holder, held, different⟩ := front (.inl point) blocks
        exact ⟨holder, .swap id holder pass stands point held different⟩
      | ended outcome => exact absurd ⟨outcome, point⟩ running
      | _ => rw [point] at blocks; exact blocks.elim
    · obtain ⟨next, step⟩ := stepPass_isSome blocks
      exact .inl ⟨next, by simpa only [after?, step?, stands] using step⟩
  | load owner root path state =>
    cases state with
    | running point => exact .inl ⟨_, by simp only [after?, step?, stands]; rfl⟩
    | ended result => exact absurd ⟨result, rfl⟩ running

/-- What is waited for is a task that has not ended. -/
theorem WaitsFor.running (waits : session.WaitsFor id other) (lined : session.Lined)
    (attended : session.Attended) (loading : session.LoadsAreLoads) :
    ∃ task, session.task? other = some task ∧ ¬ task.HasEnded := by
  cases waits with
  | pass after stands running =>
    obtain ⟨pass, there⟩ := attended.passes id other after stands
    refine ⟨_, there, ?_⟩
    rintro ⟨ended, point⟩
    cases running.symm.trans (passOutcome?_eq_some_iff.mpr ⟨pass, there, point⟩)
  | update _ _ held =>
    obtain ⟨task, there, inLine⟩ := lined.holder held
    exact ⟨task, there, fun ended => ended.not_isInLine inLine⟩
  | swap _ _ _ held =>
    obtain ⟨task, there, inLine⟩ := lined.holder held
    exact ⟨task, there, fun ended => ended.not_isInLine inLine⟩
  | load pass loads rest stands point member running =>
    obtain ⟨owner, root, path, state, there⟩ := loading id pass loads rest stands point other member
    refine ⟨_, there, ?_⟩
    rintro ⟨result, rfl⟩
    rw [loadResult?, there] at running
    cases running

/-- Along a chain of waiting ever fewer tasks are ahead. -/
theorem tasksAhead_lt_of_chain (lined : session.Lined) (attended : session.Attended)
    (loading : session.LoadsAreLoads) (chain : Relation.TransGen session.WaitsFor id other) :
    session.tasksAhead other < session.tasksAhead id := by
  induction chain with
  | single waits => exact waits.tasksAhead_lt lined attended loading
  | tail _ waits ih => exact Nat.lt_trans (waits.tasksAhead_lt lined attended loading) ih

/-- At the end of some chain from a task that has not ended there is one that goes on. The induction
is on the tasks that are ahead of the one that waits. -/
theorem exists_goesOn (lined : session.Lined) (attended : session.Attended)
    (loading : session.LoadsAreLoads) {task : Task α} (stands : session.task? id = some task)
    (running : ¬ task.HasEnded) :
    ∃ other next, Relation.ReflTransGen session.WaitsFor id other ∧
      session.after? (.step other) = some next := by
  generalize bound : session.tasksAhead id = ahead
  induction ahead using Nat.strongRecOn generalizing id task with
  | ind ahead ih =>
    rcases goesOn_or_waits lined stands running with ⟨next, step⟩ | ⟨other, waits⟩
    · exact ⟨id, next, .refl, step⟩
    · obtain ⟨found, there, unfinished⟩ := waits.running lined attended loading
      have fewer := waits.tasksAhead_lt lined attended loading
      obtain ⟨last, next, chain, step⟩ := ih _ (bound ▸ fewer) there unfinished rfl
      exact ⟨last, next, .head waits chain, step⟩

/-- In every state of every run, whoever holds the lock goes on, nobody waits in a circle, and every
task that has not ended goes on or waits at the end of a chain for one that does. -/
theorem runs_never_get_stuck {events : List (Event α)} {current : Session α} (new : session.IsNew)
    (run : session.replay? events = some current) : current.NeverStuck := by
  have attended := new.attended_of_run run
  have lined := new.lined_of_run run
  have loading : current.LoadsAreLoads := (new.grounded_of_run run).loadsAreLoads
  refine ⟨?_, ?_, ?_, ?_⟩
  · intro id task stands running still
    rcases goesOn_or_waits lined stands running with ⟨next, step⟩ | waits
    · cases still.symm.trans step
    · exact waits
  · exact fun id task stands running => exists_goesOn lined attended loading stands running
  · exact fun id circle => Nat.lt_irrefl _ (tasksAhead_lt_of_chain lined attended loading circle)
  · intro id held
    have alone : ∀ other, ¬ current.WaitsFor id other := by
      intro other waits
      have fewer := waits.tasksAhead_lt lined attended loading
      rw [tasksAhead, tasksAhead, if_pos held] at fewer
      exact Nat.not_lt_zero _ fewer
    obtain ⟨task, stands, inLine⟩ := lined.holder held
    refine ⟨?_, alone⟩
    rcases goesOn_or_waits lined stands fun ended => ended.not_isInLine inLine with
      step | ⟨other, waits⟩
    · exact step
    · exact absurd waits (alone other)

/-- An update holds the lock, a pass stands in the queue, and another update waits for the pass. -/
def updateAheadOfPass : List (Event Float) :=
  indexAndSearch ++ [.leave 1, .call (.update (.given "/p") (.given "a.py"))] ++
    List.replicate 3 (.step 4) ++ [.call (.index (.given "/p") true), .step 5] ++
    List.replicate 4 (.step 6) ++ List.replicate 3 (.step 7) ++ List.replicate 8 (.step 6) ++
    [.call (.update (.given "/p") (.given "a.py")), .step 8]

theorem update_behind_pass_of_small_project_is_not_stuck :
    ∃ state : Session Float,
      (opened {} smallProject 0).replay? updateAheadOfPass = some state ∧
      state.after? (.step 8) = none ∧ state.after? (.step 6) = none ∧
      state.lock.holder = some 4 ∧ (∃ next, state.after? (.step 4) = some next) ∧
      ∃ other next, Relation.ReflTransGen state.WaitsFor 8 other ∧
        state.after? (.step other) = some next := by
  have reached : (((opened {} smallProject (0 : Float)).replay? updateAheadOfPass).bind fun state =>
      if (state.after? (.step 8)).isNone ∧ (state.after? (.step 6)).isNone ∧
          state.lock.holder = some 4 then
        (state.task? 8).bind fun task => if task.HasEnded then none else some state
      else none).isSome = true := by decide +kernel
  obtain ⟨same, reached⟩ := Option.isSome_iff_exists.mp reached
  obtain ⟨state, run, reached⟩ := Option.bind_eq_some_iff.mp reached
  obtain ⟨⟨eight, six, held⟩, reached⟩ := Option.ite_none_right_eq_some.mp reached
  obtain ⟨task, stands, reached⟩ := Option.bind_eq_some_iff.mp reached
  obtain ⟨running, -⟩ := Option.ite_none_left_eq_some.mp reached
  have neverStuck := runs_never_get_stuck (opened_isNew {} smallProject 0) run
  exact ⟨state, run, Option.isNone_iff_eq_none.mp eight, Option.isNone_iff_eq_none.mp six, held,
    (neverStuck.holder 4 held).1, neverStuck.goesOn 8 task stands running⟩

end Session

end CodeSearch
