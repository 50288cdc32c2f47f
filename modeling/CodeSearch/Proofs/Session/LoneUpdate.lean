import CodeSearch.Proofs.Session.Progress
import CodeSearch.Proofs.Session.Soundness

/-! # Updates that run alone

A call that is made of a session at rest, while no other call is made and the files stay as they are,
runs alone. An update that runs alone returns, and it replaces the entries of its file by what a look
at the file gives.
-/

namespace CodeSearch

open Loading Walk

variable {α : Type} [Scalar α]

/-- Neither a call nor a change of the files. -/
def Event.IsInner : Event α → Prop
  | .step _ | .leave _ | .time _ => True
  | .call _ | .files _ => False

instance : (event : Event α) → Decidable event.IsInner
  | .step _ | .leave _ | .time _ => isTrue trivial
  | .call _ | .files _ => isFalse id

namespace Session

/-- A call is made, and everything goes on until nothing is left to happen, while no other call is
made and the files stay as they are. -/
structure Serves (session : Session α) (request : Request α) (outcome : Outcome α)
    (final : Session α) : Prop where
  run : ∃ events : List (Event α), (∀ event ∈ events, event.IsInner) ∧
    session.replay? (.call request :: events) = some final
  told : final.outcome? session.tasks.length = some outcome
  rest : final.AtRest

/-- The session behind a call and a run, and the call's outcome, if nothing is left to happen. -/
def served? (session : Session α) (request : Request α) (events : List (Event α)) :
    Option (Session α × Outcome α) :=
  (session.replay? (.call request :: events)).bind fun final =>
    if final.AtRest then (final.outcome? session.tasks.length).map fun outcome => (final, outcome)
    else none

theorem serves_of_served? {session final : Session α} {request : Request α} {outcome : Outcome α}
    {events : List (Event α)} (inner : ∀ event ∈ events, event.IsInner)
    (served : session.served? request events = some (final, outcome)) :
    session.Serves request outcome final := by
  obtain ⟨reached, run, served⟩ := Option.bind_eq_some_iff.mp served
  split at served
  · next rest =>
    obtain ⟨told, answer, same⟩ := Option.map_eq_some_iff.mp served
    cases same
    exact ⟨⟨events, inner, run⟩, answer, rest⟩
  · cases served

variable {start session shared next final : Session α} {id : TaskId} {path : Argument String}
  {root file : String} {snapshot : Snapshot α}

/-- A target that an update of a project has been given by its file path. -/
structure Targets (root file : String) (target : UpdateTarget) : Prop where
  project : target.root = root
  place : target.absolute = Path.normalize (Path.join root file)

/-- What a lone update leads to: the entries of its file are replaced. -/
structure Refreshes (start : Session α) (root file : String) (snapshot : Snapshot α)
    (outcome : Outcome α) (final : Session α) (target : UpdateTarget)
    (draft : Option (FileDraft α)) : Prop where
  targets : Targets root file target
  named : target.IsNamed
  rests : StoreRestsOn start.settings start.embedder (· = start.files) target draft
  outcome : outcome = .ok (.updated (!target.isThere || draft.isSome))
  snapshot : final.snapshot = some (refreshed snapshot target.relative draft)

/-- How far a lone update has come. -/
def OnCourse (start : Session α) (path : Argument String) (root file : String)
    (snapshot : Snapshot α) (id : TaskId) (session : Session α) : CallPoint α → Prop
  | .made request =>
    request = .update path (.given file) ∧ session.snapshotOf root = some snapshot ∧
      session.lock.holder = none
  | .locking update =>
    update = ⟨root, .given file⟩ ∧ session.snapshotOf root = some snapshot ∧
      session.lock.holder = none
  | .queued update =>
    update = ⟨root, .given file⟩ ∧ session.snapshotOf root = some snapshot ∧
      session.lock.holder = some id
  | .updating update => update = ⟨root, .given file⟩ ∧ session.snapshotOf root = some snapshot
  | .probing target | .loading target _ | .embedding target _ | .resting target _
  | .storing target _ => Targets root file target ∧ session.snapshotOf root = some snapshot
  | .ended outcome => ∃ target draft, Refreshes start root file snapshot outcome session target draft
  | _ => False

/-- A lone update at some place; everything else has ended. -/
structure Alone (start : Session α) (path : Argument String) (root file : String)
    (snapshot : Snapshot α) (session : Session α) (point : CallPoint α) : Prop where
  settings : session.settings = start.settings
  embedder : session.embedder = start.embedder
  files : session.files = start.files
  inFlight : ∀ project, session.inFlight.get? project = none
  leaving : session.leaving = []
  stands : session.task? start.tasks.length = some (.call point)
  others : ∀ other task, other ≠ start.tasks.length → session.task? other = some task → task.HasEnded
  rests : point.RestsOn start.settings start.embedder (· = start.files)
  course : OnCourse start path root file snapshot start.tasks.length session point

private theorem OnCourse.move {point after : CallPoint α}
    (course : OnCourse start path root file snapshot id session point)
    (free : ∀ project, session.inFlight.get? project = none)
    (accepted : path.projectPath = .ok root)
    (inside : leadsOut (relativePath root (Path.normalize (Path.join root file))) = false)
    (told : ∃ size, session.files.size (Path.normalize (Path.join root file)) = .ok size)
    (rests : point.RestsOn start.settings start.embedder (· = start.files))
    (move : CallMove session id point shared after) :
    shared.tasks = session.tasks ∧ shared.leaving = session.leaving ∧
      shared.inFlight = session.inFlight ∧
      OnCourse start path root file snapshot id (shared.setCall id after) after := by
  cases move with
  | quiet _ _ move =>
    refine ⟨rfl, rfl, rfl, ?_⟩
    cases move with
    | refused request fault reason =>
      have refused := reason path (.given file) course.1
      rw [accepted] at refused
      cases refused
    | awaits _ _ project pass _ entered => rw [free] at entered; cases entered
    | goesAhead _ _ project known =>
      obtain ⟨same, current, holder⟩ := course
      cases same
      rw [accepted] at known
      cases known
      exact ⟨rfl, current, holder⟩
    | failedWith => exact course.elim
    | reported => exact course.elim
    | updates => exact course.elim
    | serves => exact course.elim
    | entered => exact ⟨course.1, course.2.1⟩
    | probes update filePath given =>
      obtain ⟨rfl, current⟩ := course
      cases given
      exact ⟨⟨rfl, rfl⟩, current⟩
    | opens => exact ⟨⟨course.1.project, course.1.place⟩, course.2⟩
    | passesBy => exact ⟨⟨course.1.project, course.1.place⟩, course.2⟩
    | looks => exact course
    | loaded => exact course
    | notLoaded => exact course
    | embedded => exact course
    | embeds => exact course
    | rested => exact course
    | shown => exact course.elim
    | reads => exact course.elim
    | takes => exact course.elim
    | skips => exact course.elim
    | breaksOff => exact course.elim
  | queued =>
    refine ⟨rfl, rfl, rfl, course.1, course.2.1, ?_⟩
    change (session.lock.request id).holder = some id
    simp [Lock.request, course.2.2]
  | gaveUp _ _ reason =>
    cases reason with
    | notText update fault refused =>
      obtain ⟨rfl, _⟩ := course
      cases refused
    | notIndexed update absent =>
      obtain ⟨rfl, current⟩ := course
      rw [current] at absent
      cases absent
    | outside update filePath given leads =>
      obtain ⟨rfl, _⟩ := course
      cases given
      rw [inside] at leads
      cases leads
    | sizeFault target fault failed =>
      obtain ⟨size, told⟩ := told
      rw [course.1.place, told] at failed
      cases failed
    | dropped target draft absent =>
      rw [course.1.project, course.2] at absent
      cases absent
  | stored target draft found current =>
    obtain ⟨targets, known⟩ := course
    rw [targets.project, known] at current
    cases current
    exact ⟨rfl, rfl, rfl, target, draft, targets, rests.1, rests.2, rfl, rfl⟩
  | answered => cases course.1
  | indexes => cases course.1
  | searched => cases course.1
  | contextReady => cases course.1
  | contextServed => cases course.1
  | contextWaits => cases course.1
  | cleared => cases course.1
  | finds => exact course.elim

/-- What a lone update needs in order to replace the entries of its file: its project is indexed, the
file lies in the project, and its size is told. -/
structure Replaces (start : Session α) (path : Argument String) (root file : String)
    (snapshot : Snapshot α) : Prop where
  accepted : path.projectPath = .ok root
  current : start.snapshotOf root = some snapshot
  inside : leadsOut (relativePath root (Path.normalize (Path.join root file))) = false
  told : ∃ size, start.files.size (Path.normalize (Path.join root file)) = .ok size

private theorem Alone.move {point after : CallPoint α}
    (replaces : start.Replaces path root file snapshot)
    (alone : Alone start path root file snapshot session point)
    (move : CallMove session start.tasks.length point shared after) :
    Alone start path root file snapshot (shared.setCall start.tasks.length after) after := by
  have world := move.world
  have told : ∃ size, session.files.size (Path.normalize (Path.join root file)) = .ok size :=
    alone.files ▸ replaces.told
  obtain ⟨tasks, leaving, inFlight, course⟩ := alone.course.move alone.inFlight replaces.accepted
    replaces.inside told alone.rests move
  refine
    { settings := world.settings.trans alone.settings
      embedder := world.embedder.trans alone.embedder
      files := world.files.trans alone.files
      inFlight := fun project => (congrArg (OrderedMap.get? · project) inFlight).trans
        (alone.inFlight project)
      leaving := leaving.trans alone.leaving
      stands := move.task?_self alone.stands
      others := ?_
      rests := ?_
      course }
  · intro other task different stands
    have present : start.tasks.length < shared.tasks.length := by
      rw [tasks]
      exact lt_of_task? alone.stands
    rw [setCall, task?_setTask _ _ _ _ present, if_neg different.symm, task?, tasks] at stands
    exact alone.others other task different stands
  · have rests := alone.rests
    rw [← alone.settings, ← alone.embedder] at rests ⊢
    exact move.rests rests alone.files

private theorem Alone.event {event : Event α} (replaces : start.Replaces path root file snapshot)
    (alone : ∃ point, Alone start path root file snapshot session point) (inner : event.IsInner)
    (happened : session.after? event = some next) :
    ∃ point, Alone start path root file snapshot next point := by
  obtain ⟨point, alone⟩ := alone
  cases after?_move happened with
  | call => exact inner.elim
  | files => exact inner.elim
  | time now =>
    refine ⟨point, { alone with course := ?_ }⟩
    have course := alone.course
    cases point with
    | made => exact course
    | locking => exact course
    | queued => exact course
    | updating => exact course
    | probing => exact course
    | loading => exact course
    | embedding => exact course
    | resting => exact course
    | storing => exact course
    | ended =>
      obtain ⟨target, draft, refreshes⟩ := course
      exact ⟨target, draft, { refreshes with }⟩
    | awaitingPass => exact course.elim
    | searching => exact course.elim
    | reading => exact course.elim
    | carrying => exact course.elim
  | leave id pass stands leaving =>
    rw [alone.leaving] at leaving
    cases leaving
  | step id _ move =>
    by_cases own : id = start.tasks.length
    · subst own
      obtain ⟨after, shared, step, rfl⟩ := move.of_call alone.stands
      exact ⟨after, alone.move replaces step⟩
    · obtain ⟨before, _, stood, _⟩ := move.line
      exact absurd (alone.others id before own stood) (move.not_ended stood)

private theorem alone_at_start (sound : start.Sound) (rest : start.AtRest)
    (replaces : start.Replaces path root file snapshot) :
    Alone start path root file snapshot (start.start [.call (.made (.update path (.given file)))])
      (.made (.update path (.given file))) where
  settings := rfl
  embedder := rfl
  files := rfl
  inFlight := rest.inFlight sound.current
  leaving := rest.leaving
  stands := (start.task?_call _ _).trans (if_pos rfl)
  others other task different stands := by
    rw [task?_call, if_neg different] at stands
    exact rest.tasks other task stands
  rests := trivial
  course := ⟨rfl, replaces.current, rest.lock sound.lined⟩

/-- A lone update that has come to its end has replaced the entries of its file. -/
theorem Serves.refreshes {outcome : Outcome α} (sound : start.Sound) (rest : start.AtRest)
    (replaces : start.Replaces path root file snapshot)
    (serves : start.Serves (.update path (.given file)) outcome final) :
    ∃ target draft, Refreshes start root file snapshot outcome final target draft := by
  obtain ⟨events, inner, run⟩ := serves.run
  have alone : ∃ point, Alone start path root file snapshot final point := by
    refine @replay?_keeps α _
      (fun session => ∃ point, Alone start path root file snapshot session point) _ _ events ?_
      ⟨_, alone_at_start sound rest replaces⟩ run
    intro session event next member alone happened
    exact Alone.event replaces alone (inner event member) happened
  obtain ⟨point, alone⟩ := alone
  have stands := alone.stands
  have told := serves.told
  unfold outcome? at told
  rw [stands] at told
  split at told
  · next ended same =>
    cases same
    cases told
    exact alone.course
  · cases told

/-- A lone update comes to its end. -/
theorem serves_update (sound : start.Sound) (rest : start.AtRest)
    (batch : 1 ≤ start.settings.embeddingBatchSize)
    (replaces : start.Replaces path root file snapshot) :
    ∃ outcome final, start.Serves (.update path (.given file)) outcome final := by
  have begun := alone_at_start sound rest replaces
  have free : ∀ session point, Alone start path root file snapshot session point →
      (∀ outcome, point ≠ .ended outcome) → ¬ session.Blocks start.tasks.length point := by
    intro session point alone running blocked
    have course := alone.course
    cases point with
    | awaitingPass => exact course
    | queued => exact blocked course.2.2
    | ended outcome => exact running outcome rfl
    | _ => exact blocked
  obtain ⟨count, final, outcome, run, ended, alone⟩ :=
    ends_of_unblocked start.tasks.length (Alone start path root file snapshot)
      (fun _ _ _ _ _ alone move => alone.move replaces move)
      (fun _ _ alone => alone.settings ▸ batch) free begun.stands begun
  have inner : ∀ event ∈ List.replicate count (Event.step start.tasks.length),
      (event : Event α).IsInner := by
    intro event member
    rw [List.eq_of_mem_replicate member]
    exact trivial
  refine ⟨outcome, final, ⟨_, inner, run⟩, ?_, ?_, alone.leaving⟩
  · rw [outcome?, ended]
  · intro id task stands
    by_cases own : id = start.tasks.length
    · subst own
      rw [ended] at stands
      cases stands
      exact ⟨outcome, rfl⟩
    · exact alone.others id task own stands

end Session

end CodeSearch
