import CodeSearch.Proofs.Session.Soundness
import CodeSearch.Proofs.Session.CachedAnswers
import CodeSearch.Proofs.Files.Volumes

/-! # An update is not lost

Once an update has returned well, what the snapshot shows of its file comes from looks that were
made after the call, for as long as the snapshot is that of the project. The update waits for the
pass in flight, so no earlier pass of the project is left when it gets the lock; other updates that
get the lock later look later, and passes that start later list and look later.
-/

namespace CodeSearch

open Loading Walk

variable {α : Type} [Scalar α]

/-- Entries of a file that come from looks at it at the given moments: it was loaded or not, it was
not there or not of a known language, or a walk over the project has not come to it. -/
inductive Seen (settings : Settings α) (embedder : Embedder α) (moments : FileSystem → Prop)
    (root relative : String) : FileEntries α → Prop where
  | looked (path : String) (result : LoadResult α) (named : relativePath root path = relative)
      (looked : Looked settings moments root path result) :
      Seen settings embedder moments root relative (result.entries embedder)
  | passedBy (path : String) (files : FileSystem) (size : Option Int)
      (named : relativePath root path = relative) (moment : moments files)
      (told : files.size path = .ok size)
      (reason : size = none ∨ isIndexable relative = false) :
      Seen settings embedder moments root relative .none
  | missed (found : List String) (walk : Walking settings moments root [] found)
      (absent : relative ∉ found.map (relativePath root)) :
      Seen settings embedder moments root relative .none

/-- An update leaves what it has seen of its file. -/
theorem StoreRestsOn.seen {settings : Settings α} {embedder : Embedder α}
    {moments : FileSystem → Prop} {target : UpdateTarget} {draft : Option (FileDraft α)}
    (rests : StoreRestsOn settings embedder moments target draft) (named : target.IsNamed)
    (snapshot : Snapshot α) :
    Seen settings embedder moments target.root target.relative
      ((Session.refreshed snapshot target.relative draft).entriesOf target.relative) := by
  rw [Session.entriesOf_refreshed_self (rests.isOf named)]
  cases rests with
  | passedBy files size moment told reason =>
    exact .passedBy target.absolute files size named.relative.symm moment told reason
  | notLoaded result there looked nothing =>
    have seen : Seen settings embedder moments target.root target.relative
        (result.entries embedder) := .looked target.absolute result named.relative.symm looked
    cases result with
    | loaded record chunks => exact absurd rfl (nothing record chunks)
    | oversize => exact seen
    | failed message => exact seen
  | loaded draft there looked embeddings =>
    have seen : Seen settings embedder moments target.root target.relative
        (.of draft.record draft.chunks (embeddingsOf embedder draft.chunks)) :=
      .looked target.absolute _ named.relative.symm looked
    rw [← embeddings] at seen
    exact seen

/-- A pass has seen every file, if only by not coming to it. -/
theorem Built.seen {settings : Settings α} {embedder : Embedder α} {moments : FileSystem → Prop}
    {root : String} {found : List String} {draft : Snapshot α}
    (built : Built settings embedder moments root found draft)
    (walk : Walking settings moments root [] found)
    (regular : ∀ files, moments files → files.IsRegular)
    (rooted : ∃ path, root = Path.absolute path) (relative : String) :
    Seen settings embedder moments root relative (draft.entriesOf relative) := by
  obtain ⟨known, distinct⟩ := walk.relatives regular rooted
  obtain ⟨shown, hidden⟩ := built.entries known distinct
  by_cases member : relative ∈ found.map (relativePath root)
  · obtain ⟨path, inFound, rfl⟩ := List.mem_map.mp member
    obtain ⟨result, looked, same⟩ := shown path inFound
    rw [same]
    exact .looked path result rfl looked
  · rw [hidden relative member]
    exact .missed found walk member

namespace Session

variable {session shared next final : Session α} {id call : TaskId} {moments : FileSystem → Prop}
  {update : Update} {path : Argument String} {file relative : String}

/-- No pass over the project that was started before the call is still under way. -/
def EarlierPassesOver (session : Session α) (call : TaskId) (root : String) : Prop :=
  ∀ id pass, id < call → session.task? id = some (.pass pass) → pass.root = root → pass.IsEnded

/-- What an update aims at. -/
structure AimsAt (update : Update) (file : String) (target : UpdateTarget) : Prop where
  root : target.root = update.root
  absolute : target.absolute = Path.normalize (Path.join update.root file)

/-- How far the watched update may have come, and which passes are over by then. -/
def StageOf (session : Session α) (call : TaskId) (path : Argument String) (file : String)
    (update : Update) : CallPoint α → Prop
  | .made request => request = .update path update.filePath
  | .awaitingPass pass next => next = .update update ∧
    ∀ id other, id < call → session.task? id = some (.pass other) → other.root = update.root →
      other.IsEnded ∨ id = pass
  | .locking own | .queued own | .updating own =>
    own = update ∧ session.EarlierPassesOver call update.root
  | .probing target | .loading target _ | .embedding target _ | .resting target _
  | .storing target _ =>
    AimsAt update file target ∧ session.EarlierPassesOver call update.root
  | .ended outcome =>
    outcome = .ok (.updated true) → session.EarlierPassesOver call update.root
  | _ => False

/-- The update holds the lock or has returned well. -/
def HasEntered : CallPoint α → Prop
  | .ended outcome => outcome = .ok (.updated true)
  | point => point.IsInside

private theorem EarlierPassesOver.move {root : String} (known : call < session.tasks.length)
    (settled : session.EarlierPassesOver call root) (move : Move session id next) :
    next.EarlierPassesOver call root := by
  intro other pass earlier stands project
  rcases move.pass_origin stands with ⟨new, _⟩ | ⟨before, stood, same, ends⟩
  · exact absurd (Nat.lt_trans earlier known) (Nat.not_lt.mpr (List.getElem?_eq_none_iff.mp new))
  · exact ends (settled other before earlier stood (same.trans project))

private theorem StageOf.move_other {point : CallPoint α} (known : call < session.tasks.length)
    (stage : session.StageOf call path file update point) (move : Move session id next) :
    next.StageOf call path file update point := by
  -- an update that is awaited may be overtaken, but not by a pass that it does not wait for
  cases point with
  | made => exact stage
  | awaitingPass awaited after =>
    refine ⟨stage.1, ?_⟩
    intro other pass earlier stands project
    rcases move.pass_origin stands with ⟨new, _⟩ | ⟨before, stood, same, ends⟩
    · exact absurd (Nat.lt_trans earlier known)
        (Nat.not_lt.mpr (List.getElem?_eq_none_iff.mp new))
    · exact (stage.2 other before earlier stood (same.trans project)).imp_left ends
  | locking => exact ⟨stage.1, stage.2.move known move⟩
  | queued => exact ⟨stage.1, stage.2.move known move⟩
  | updating => exact ⟨stage.1, stage.2.move known move⟩
  | probing => exact ⟨stage.1, stage.2.move known move⟩
  | loading => exact ⟨stage.1, stage.2.move known move⟩
  | embedding => exact ⟨stage.1, stage.2.move known move⟩
  | resting => exact ⟨stage.1, stage.2.move known move⟩
  | storing => exact ⟨stage.1, stage.2.move known move⟩
  | ended => exact fun told => (stage told).move known move
  | searching => exact stage.elim
  | reading => exact stage.elim
  | carrying => exact stage.elim

private theorem Tabled.ended_or_entered (tabled : session.Tabled) {pass : Pass α}
    (stands : session.task? id = some (.pass pass)) :
    pass.IsEnded ∨ session.inFlight.get? pass.root = some id := by
  by_cases ended : pass.IsEnded
  · exact .inl ended
  · exact .inr (tabled.entered id pass stands ended)

private theorem StageOf.move_own {point after : CallPoint α}
    (stage : session.StageOf call path file update point) (tabled : session.Tabled)
    (accepted : path.projectPath = .ok update.root) (given : update.filePath = .given file)
    (move : CallMove session call point shared after) :
    session.StageOf call path file update after := by
  -- once the update has waited for the pass that is entered, no earlier pass is left
  cases move with
  | quiet _ _ move =>
    cases move with
    | refused => exact fun told => by cases told
    | awaits _ _ root pass known entered =>
      cases stage
      rw [accepted] at known
      cases known
      refine ⟨rfl, ?_⟩
      intro id other earlier stands project
      refine (tabled.ended_or_entered stands).imp_right fun own => ?_
      rw [project, entered, Option.some.injEq] at own
      exact own.symm
    | goesAhead _ _ root known free =>
      cases stage
      rw [accepted] at known
      cases known
      refine ⟨rfl, ?_⟩
      intro id other earlier stands project
      refine (tabled.ended_or_entered stands).resolve_right fun own => ?_
      rw [project, free] at own
      cases own
    | failedWith => exact fun told => by cases told
    | reported => cases stage.1
    | updates pass report own outcome =>
      obtain ⟨same, others⟩ := stage
      cases same
      refine ⟨rfl, ?_⟩
      intro id other earlier stands project
      rcases others id other earlier stands project with ended | rfl
      · exact ended
      · exact isEnded_of_passOutcome? outcome stands
    | serves => cases stage.1
    | entered => exact stage
    | probes own filePath accepted' =>
      obtain ⟨rfl, settled⟩ := stage
      rw [given] at accepted'
      cases accepted'
      exact ⟨⟨rfl, rfl⟩, settled⟩
    | opens => exact ⟨⟨stage.1.root, stage.1.absolute⟩, stage.2⟩
    | passesBy => exact ⟨⟨stage.1.root, stage.1.absolute⟩, stage.2⟩
    | looks => exact stage
    | loaded => exact stage
    | notLoaded => exact stage
    | embedded => exact stage
    | embeds => exact stage
    | rested => exact stage
    | shown => exact stage.elim
    | reads => exact stage.elim
    | takes => exact stage.elim
    | skips => exact stage.elim
    | breaksOff => exact stage.elim
  | answered => cases stage
  | indexes => cases stage
  | searched => cases stage
  | contextReady => cases stage
  | contextServed => cases stage
  | contextWaits => cases stage
  | cleared => cases stage
  | queued => exact stage
  | gaveUp _ _ reason =>
    intro told
    cases reason <;> cases told
  | stored => exact fun _ => stage.2
  | finds => exact stage.elim

private theorem entered_before {point after : CallPoint α}
    (move : CallMove session id point shared after) (entered : HasEntered after) :
    HasEntered point ∨ ∃ own, after = .updating own := by
  cases move with
  | quiet _ _ move =>
    cases move with
    | entered own => exact .inr ⟨own, rfl⟩
    | probes => exact .inl trivial
    | opens => exact .inl trivial
    | passesBy => exact .inl trivial
    | looks => exact .inl trivial
    | loaded => exact .inl trivial
    | notLoaded => exact .inl trivial
    | embedded => exact .inl trivial
    | embeds => exact .inl trivial
    | rested => exact .inl trivial
    | refused => cases entered
    | awaits => exact entered.elim
    | goesAhead => exact entered.elim
    | failedWith => cases entered
    | reported => cases entered
    | updates => exact entered.elim
    | serves => exact entered.elim
    | shown => cases entered
    | reads => exact entered.elim
    | takes => exact entered.elim
    | skips => exact entered.elim
    | breaksOff => cases entered
  | stored => exact .inl trivial
  | gaveUp _ _ reason => cases reason <;> cases entered
  | answered => cases entered
  | indexes => exact entered.elim
  | searched => cases entered
  | contextReady => exact entered.elim
  | contextServed => exact entered.elim
  | contextWaits => exact entered.elim
  | cleared => cases entered
  | queued => exact entered.elim
  | finds => exact entered.elim

private theorem restsOn_of_outside {settings : Settings α} {embedder : Embedder α}
    {point : CallPoint α} (outside : ¬ point.IsInside) :
    point.RestsOn settings embedder moments := by
  cases point with
  | probing => exact absurd trivial outside
  | loading => exact absurd trivial outside
  | embedding => exact absurd trivial outside
  | resting => exact absurd trivial outside
  | storing => exact absurd trivial outside
  | _ => exact trivial

private theorem callsRest_of_updating {settings : Settings α} {embedder : Embedder α}
    (exclusive : session.Exclusive) {own : Update}
    (stands : session.task? call = some (.call (.updating own))) :
    session.CallsRest settings embedder moments := by
  -- no other update is inside, and what is looked at from now on is looked at late
  intro other point stood
  by_cases inside : point.IsInside
  · have held := exclusive other _ stood inside
    rw [exclusive call _ stands trivial, Option.some.injEq] at held
    subst held
    rw [stands] at stood
    cases stood
    exact trivial
  · exact restsOn_of_outside inside

/-- What holds from a call for an update on. -/
structure Watch (moments : FileSystem → Prop) (call : TaskId) (path : Argument String)
    (file : String) (update : Update) (session : Session α) : Prop where
  sound : session.Sound
  moment : moments session.files
  grounded : session.Grounded session.settings session.embedder moments (call + 1)
  stage : ∃ point, session.task? call = some (.call point) ∧
    session.StageOf call path file update point ∧
    (HasEntered point → session.CallsRest session.settings session.embedder moments)
  shown : session.outcome? call = some (.ok (.updated true)) →
    ∀ snapshot, session.snapshotOf update.root = some snapshot →
      Seen session.settings session.embedder moments update.root
        (relativePath update.root (Path.normalize (Path.join update.root file)))
        (snapshot.entriesOf (relativePath update.root (Path.normalize (Path.join update.root file))))

private theorem Watch.shown_other (watch : session.Watch moments call path file update)
    (regular : ∀ files, moments files → files.IsRegular) (move : Move session id next)
    (told : session.outcome? call = some (.ok (.updated true))) (snapshot : Snapshot α)
    (current : next.snapshotOf update.root = some snapshot) :
    Seen session.settings session.embedder moments update.root
      (relativePath update.root (Path.normalize (Path.join update.root file)))
      (snapshot.entriesOf
        (relativePath update.root (Path.normalize (Path.join update.root file)))) := by
  have before := watch.shown told
  generalize relativePath update.root (Path.normalize (Path.join update.root file)) = relative
    at before ⊢
  obtain ⟨point, stands, stage, rests⟩ := watch.stage
  rw [task?_of_outcome told] at stands
  cases stands
  have settled := stage rfl
  have late := rests rfl
  rw [snapshotOf_eq_some_iff] at current
  obtain ⟨current, project⟩ := current
  generalize after : next.snapshot = found at current
  cases after ▸ move.snapshot with
  | kept => exact before snapshot ((session.snapshotOf_eq_some_iff _ _).mpr ⟨current, project⟩)
  | dropped => cases current
  | answers old query options stood =>
    cases current
    exact before old ((session.snapshotOf_eq_some_iff _ _).mpr ⟨stood, project⟩)
  | refreshed target draft old stood known =>
    cases current
    have own : target.root = update.root := by
      rw [← project, projectPath_refreshed]
      exact ((session.snapshotOf_eq_some_iff _ _).mp known).2.symm
    obtain ⟨named, foundation⟩ := late id _ stood
    by_cases same : relative = target.relative
    · subst same
      rw [← own]
      exact foundation.seen named old
    · have keyed := watch.sound.keyed old ((session.snapshotOf_eq_some_iff _ _).mp known).1
      rw [entriesOf_refreshed_other keyed (foundation.isOf named) same]
      exact before old (own ▸ known)
  | swapped pass stood swapping =>
    cases current
    have later : call + 1 ≤ id := by
      by_contra earlier
      have notSame : id ≠ call := by
        rintro rfl
        rw [task?_of_outcome told] at stood
        cases stood
      have old : id < call := by
        have bound : ¬ call + 1 ≤ id := earlier
        exact Nat.lt_of_le_of_ne (Nat.le_of_lt_succ (Nat.lt_of_not_le bound)) notSame
      obtain ⟨found, walk, built⟩ := (watch.sound.grounded.swapping (Nat.zero_le id) stood swapping).2
      obtain ⟨outcome, ended⟩ := settled id pass old stood (built.projectPath.symm.trans project)
      rw [swapping] at ended
      cases ended
    obtain ⟨rooted, found, walk, built⟩ := watch.grounded.swapping later stood swapping
    have root : pass.root = update.root := built.projectPath.symm.trans project
    rw [root] at rooted walk built
    exact built.seen walk regular rooted relative

private theorem shown_own {point : CallPoint α} (stands : session.task? call = some (.call point))
    (stage : session.StageOf call path file update point)
    (rests : HasEntered point → session.CallsRest session.settings session.embedder moments)
    (move : CallMove session call point shared (.ended (.ok (.updated true))))
    (snapshot : Snapshot α)
    (current : (shared.setCall call (.ended (.ok (.updated true)))).snapshotOf update.root =
      some snapshot) :
    Seen session.settings session.embedder moments update.root
      (relativePath update.root (Path.normalize (Path.join update.root file)))
      (snapshot.entriesOf
        (relativePath update.root (Path.normalize (Path.join update.root file)))) := by
  -- the update returns well only where it has stored what it saw
  rw [snapshotOf_eq_some_iff] at current
  generalize outcome : (CallPoint.ended (.ok (.updated true)) : CallPoint α) = after at move
  cases move with
  | stored target draft old known =>
    obtain ⟨named, foundation⟩ := rests trivial call _ stands
    have same : relativePath update.root (Path.normalize (Path.join update.root file)) =
        target.relative := by
      rw [named.relative, stage.1.root, stage.1.absolute]
    cases current.1
    rw [same, ← stage.1.root]
    exact foundation.seen named old
  | quiet _ _ move => cases move <;> cases outcome
  | gaveUp _ _ reason => cases reason <;> cases outcome
  | answered => cases outcome
  | indexes => cases outcome
  | searched => cases outcome
  | contextReady => cases outcome
  | contextServed => cases outcome
  | contextWaits => cases outcome
  | cleared => cases outcome
  | queued => cases outcome
  | finds => cases outcome

private theorem Watch.move (watch : session.Watch moments call path file update)
    (regular : ∀ files, moments files → files.IsRegular)
    (accepted : path.projectPath = .ok update.root) (given : update.filePath = .given file)
    (sound : next.Sound) (move : Move session id next) :
    next.Watch moments call path file update := by
  have world := move.world
  obtain ⟨point, stands, stage, rests⟩ := watch.stage
  have known := lt_of_task? stands
  have grounded : next.Grounded next.settings next.embedder moments (call + 1) := by
    rw [world.settings, world.embedder]
    exact watch.grounded.move watch.moment known move
  have moment : moments next.files := by
    rw [world.files]
    exact watch.moment
  by_cases own : call = id
  · subst own
    obtain ⟨after, shared, step, rfl⟩ := move.of_call stands
    have standsAfter := step.task?_self stands
    have stageAfter := stage.move_own watch.sound.tabled accepted given step
    refine ⟨sound, moment, grounded,
      ⟨after, standsAfter, stageAfter.move_other known move, ?_⟩, ?_⟩
    · intro entered
      rw [world.settings, world.embedder]
      rcases entered_before step entered with before | ⟨own, rfl⟩
      · exact (rests before).move watch.moment move
      · exact callsRest_of_updating sound.exclusive standsAfter
    · intro told snapshot current
      rw [task?_of_outcome told, Option.some.injEq, Task.call.injEq] at standsAfter
      subst standsAfter
      rw [world.settings, world.embedder]
      exact shown_own stands stage rests step snapshot current
  · have standsAfter := move.call_stays own stands
    refine ⟨sound, moment, grounded, ⟨point, standsAfter, stage.move_other known move, ?_⟩, ?_⟩
    · intro entered
      rw [world.settings, world.embedder]
      exact (rests entered).move watch.moment move
    · intro told snapshot current
      have before : session.outcome? call = some (.ok (.updated true)) := by
        rw [task?_of_outcome told, Option.some.injEq, Task.call.injEq] at standsAfter
        subst standsAfter
        rw [outcome?, stands]
      rw [world.settings, world.embedder]
      exact watch.shown_other regular move before snapshot current

private theorem StageOf.of_passes {point : CallPoint α}
    (passes : ∀ id pass, id < call → next.task? id = some (.pass pass) →
      session.task? id = some (.pass pass))
    (stage : session.StageOf call path file update point) :
    next.StageOf call path file update point := by
  have settled : session.EarlierPassesOver call update.root →
      next.EarlierPassesOver call update.root := fun before id pass earlier stands =>
    before id pass earlier (passes id pass earlier stands)
  cases point with
  | made => exact stage
  | awaitingPass awaited after =>
    exact ⟨stage.1, fun id other earlier stands =>
      stage.2 id other earlier (passes id other earlier stands)⟩
  | locking => exact ⟨stage.1, settled stage.2⟩
  | queued => exact ⟨stage.1, settled stage.2⟩
  | updating => exact ⟨stage.1, settled stage.2⟩
  | probing => exact ⟨stage.1, settled stage.2⟩
  | loading => exact ⟨stage.1, settled stage.2⟩
  | embedding => exact ⟨stage.1, settled stage.2⟩
  | resting => exact ⟨stage.1, settled stage.2⟩
  | storing => exact ⟨stage.1, settled stage.2⟩
  | ended => exact fun told => settled (stage told)
  | searching => exact stage.elim
  | reading => exact stage.elim
  | carrying => exact stage.elim

private theorem Watch.quiet (watch : session.Watch moments call path file update)
    (sound : next.Sound) (settings : next.settings = session.settings)
    (embedder : next.embedder = session.embedder) (moment : moments next.files)
    (grounded : next.Grounded session.settings session.embedder moments (call + 1))
    (rests : session.CallsRest session.settings session.embedder moments →
      next.CallsRest session.settings session.embedder moments)
    (snapshot : next.snapshot = session.snapshot)
    (same : ∀ id ≤ call, next.task? id = session.task? id) :
    next.Watch moments call path file update := by
  obtain ⟨point, stands, stage, known⟩ := watch.stage
  refine ⟨sound, moment, settings ▸ embedder ▸ grounded, ⟨point, ?_, ?_, ?_⟩, ?_⟩
  · rw [same call (Nat.le_refl call)]
    exact stands
  · refine stage.of_passes ?_
    intro id pass earlier stood
    rw [same id (Nat.le_of_lt earlier)] at stood
    exact stood
  · intro entered
    rw [settings, embedder]
    exact rests (known entered)
  · intro told found current
    rw [snapshotOf_eq_some_iff, snapshot, ← snapshotOf_eq_some_iff] at current
    rw [outcome?, same call (Nat.le_refl call)] at told
    rw [settings, embedder]
    exact watch.shown told found current

private theorem Watch.event (watch : session.Watch moments call path file update)
    (regular : ∀ files, moments files → files.IsRegular)
    (accepted : path.projectPath = .ok update.root) (given : update.filePath = .given file)
    {event : Event α} (brought : ∀ files, event = .files files → moments files)
    (happened : session.after? event = some next) :
    next.Watch moments call path file update := by
  have sound : next.Sound :=
    watch.sound.event (fun files same => regular files (brought files same)) happened
  obtain ⟨point, stands, _⟩ := watch.stage
  have known : call + 1 ≤ session.tasks.length := lt_of_task? stands
  obtain ⟨settings, embedder⟩ := after?_world happened
  cases after?_move happened with
  | step id _ move => exact watch.move regular accepted given sound move
  | call request =>
    refine watch.quiet sound settings embedder watch.moment ?_ ?_ rfl ?_
    · exact watch.grounded.event watch.moment known happened
    · exact fun rests => rests.event watch.moment happened
    · intro id earlier
      rw [task?_call, if_neg (Nat.ne_of_lt (Nat.lt_of_le_of_lt earlier known))]
  | leave =>
    refine watch.quiet sound settings embedder watch.moment ?_ id rfl fun _ _ => rfl
    exact watch.grounded.event watch.moment known happened
  | files files =>
    refine watch.quiet sound settings embedder (brought files rfl) ?_ id rfl fun _ _ => rfl
    exact watch.grounded.event watch.moment known happened
  | time =>
    refine watch.quiet sound settings embedder watch.moment ?_ id rfl fun _ _ => rfl
    exact watch.grounded.event watch.moment known happened

private theorem watch_of_call (moment : moments session.files) (sound : next.Sound)
    (called : next = session.start [.call (.made (.update path update.filePath))]) :
    next.Watch moments session.tasks.length path file update := by
  subst called
  have stands := session.task?_call (.update path update.filePath) session.tasks.length
  rw [if_pos rfl] at stands
  have settled : ∀ id task, session.tasks.length + 1 ≤ id →
      (session.start [.call (.made (.update path update.filePath))]).task? id ≠ some task := by
    intro id task late found
    have bound := lt_of_task? found
    rw [start, List.length_append] at bound
    exact absurd bound (Nat.not_lt.mpr late)
  refine ⟨sound, moment, ⟨?_, ?_⟩, ⟨_, stands, rfl, fun entered => entered.elim⟩, ?_⟩
  · exact fun id owner root path state late found => absurd found (settled id _ late)
  · exact fun id pass late found => absurd found (settled id _ late)
  · intro told
    rw [task?_of_outcome told] at stands
    cases stands

/-- Once an update has returned well, whatever happens next, no pass over the project that was
started before the call is left to replace the snapshot, and whenever the snapshot is that of the
project, its entries of the file were seen in files that were there after the call was made. -/
theorem updates_are_not_lost {session before done final : Session α}
    {earlier during afterwards : List (Event α)} {path : Argument String} {file root : String}
    (new : session.IsNew)
    (regular : ∀ files, session.InForce (earlier ++ during ++ afterwards) files → files.IsRegular)
    (reached : session.replay? earlier = some before) (accepted : path.projectPath = .ok root)
    (run : before.replay? (.call (.update path (.given file)) :: during) = some done)
    (told : done.outcome? before.tasks.length = some (.ok (.updated true)))
    (goesOn : done.replay? afterwards = some final) :
    final.EarlierPassesOver before.tasks.length root ∧
      ∀ snapshot, final.snapshotOf root = some snapshot →
        Seen final.settings final.embedder (before.InForce (during ++ afterwards)) root
          (relativePath root (Path.normalize (Path.join root file)))
          (snapshot.entriesOf (relativePath root (Path.normalize (Path.join root file)))) := by
  have soundBefore : before.Sound := by
    refine (new.sound (regular _ (.inl rfl))).run ?_ reached
    intro files member
    exact regular files (.inr (by simp [member]))
  have sameFiles := session.inForce_of_run reached
  have regularAfter : ∀ files, before.InForce (during ++ afterwards) files → files.IsRegular := by
    intro files known
    refine regular files ?_
    rcases known with rfl | member
    · rcases sameFiles with same | member
      · exact .inl same
      · exact .inr (by simp [member])
    · exact .inr (by simpa [List.append_assoc] using Or.inr (List.mem_append.mp member))
  obtain ⟨called, happened, restOfRun⟩ : ∃ called,
      before.after? (.call (.update path (.given file))) = some called ∧
        called.replay? during = some done := Option.bind_eq_some_iff.mp run
  have watched : called.Watch (before.InForce (during ++ afterwards)) before.tasks.length path file
      { root, filePath := .given file } := by
    refine watch_of_call (.inl rfl) (soundBefore.event (fun files same => by cases same) happened) ?_
    cases happened
    rfl
  have whole : called.replay? (during ++ afterwards) = some final := by
    rw [replay?_append, restOfRun]
    exact goesOn
  have atEnd : final.Watch (before.InForce (during ++ afterwards)) before.tasks.length path file
      { root, filePath := .given file } := by
    refine replay?_keeps ?_ watched whole
    intro current event after member watch happened
    refine watch.event regularAfter accepted rfl ?_ happened
    rintro files rfl
    exact .inr member
  have toldAtEnd : final.outcome? before.tasks.length = some (.ok (.updated true)) :=
    replay?_keeps (fun _ _ _ _ => outcome?_keeps) told goesOn
  obtain ⟨point, stands, stage, -⟩ := atEnd.stage
  rw [task?_of_outcome toldAtEnd, Option.some.injEq, Task.call.injEq] at stands
  subst stands
  exact ⟨stage rfl, atEnd.shown toldAtEnd⟩

/-- A pass has read the file when it is rewritten and the update is called for. -/
def rewriteUnderway : List (Event Float) :=
  .call (.index (.given "/p") false) :: .step 0 :: List.replicate 4 (.step 1) ++
    List.replicate 3 (.step 2) ++
    [.files (Volume.write {} "/p/a.py" (.ofText "def walk():
    pass
")).fileSystem]

/-- The update waits for the pass, and then replaces what the pass has read. -/
def updateBehindPass : List (Event Float) :=
  .step 3 :: List.replicate 10 (.step 1) ++ List.replicate 12 (.step 3)

theorem update_of_small_project_is_not_lost :
    ∃ (before done final : Session Float) (snapshot : Snapshot Float),
      (opened {} smallProject 0).replay? rewriteUnderway = some before ∧
      before.replay? (.call (.update (.given "/p") (.given "a.py")) :: updateBehindPass) =
        some done ∧
      done.outcome? before.tasks.length = some (.ok (.updated true)) ∧
      done.replay? [.leave 1] = some final ∧ final.snapshotOf "/p" = some snapshot ∧
      Seen final.settings final.embedder (before.InForce (updateBehindPass ++ [.leave 1])) "/p"
        (relativePath "/p" (Path.normalize (Path.join "/p" "a.py")))
        (snapshot.entriesOf (relativePath "/p" (Path.normalize (Path.join "/p" "a.py")))) := by
  have shown : (((opened {} smallProject (0 : Float)).replay? rewriteUnderway).bind fun before =>
      (before.replay? (.call (.update (.given "/p") (.given "a.py")) :: updateBehindPass)).bind
        fun done => (done.replay? [.leave 1]).bind fun final => (final.snapshotOf "/p").filter
          fun _ => done.isTold before.tasks.length fun
            | .updated refreshed => refreshed
            | _ => false).isSome = true := by decide +kernel
  obtain ⟨snapshot, shown⟩ := Option.isSome_iff_exists.mp shown
  obtain ⟨before, reached, shown⟩ := Option.bind_eq_some_iff.mp shown
  obtain ⟨done, run, shown⟩ := Option.bind_eq_some_iff.mp shown
  obtain ⟨final, goesOn, shown⟩ := Option.bind_eq_some_iff.mp shown
  obtain ⟨current, told⟩ := Option.filter_eq_some_iff.mp shown
  have returned : done.outcome? before.tasks.length = some (.ok (.updated true)) := by
    obtain ⟨answer, ended, wanted⟩ := exists_answer_of_isTold told
    cases answer with
    | updated refreshed => rw [ended, show refreshed = true from wanted]
    | _ => cases wanted
  have regular : ∀ files, (opened {} smallProject (0 : Float)).InForce
      (rewriteUnderway ++ updateBehindPass ++ [.leave 1]) files → files.IsRegular := by
    intro files known
    have known : files = smallProject ∨
        files = (Volume.write {} "/p/a.py" (.ofText "def walk():\n    pass\n")).fileSystem := by
      simpa [InForce, rewriteUnderway, updateBehindPass, opened] using known
    rcases known with rfl | rfl
    · exact Volume.IsTidy.isRegular (by decide +kernel)
    · exact Volume.IsTidy.isRegular (by decide +kernel)
  refine ⟨before, done, final, snapshot, reached, run, returned, goesOn, current, ?_⟩
  exact (updates_are_not_lost (opened_isNew {} smallProject 0) regular reached (by decide +kernel)
    run returned goesOn).2 snapshot current

end Session

end CodeSearch
