import CodeSearch.Proofs.Index.UpToDate
import CodeSearch.Proofs.Session.LoneUpdate

/-! # Full passes of new sessions

When the first call of a session asks for an index, no other call is made and the files stay as they
are, the pass that it waits for leaves a snapshot that is up to date.
-/

namespace CodeSearch

open Loading Walk

variable {α : Type} [Scalar α]

namespace Session

variable {start session shared next final : Session α} {id : TaskId} {path : Argument String}
  {root : String} {force : Bool}

/-- How far a call for an index has come while nothing else is called for. -/
def AsksIndex (path : Argument String) (force : Bool) (root : String) (session : Session α) :
    CallPoint α → Prop
  | .made request =>
    request = .index path force ∧ session.snapshot = none ∧
      ∀ id pass, session.task? id ≠ some (.pass pass)
  | .awaitingPass _ next => next = .report
  | .ended outcome =>
    ∀ report, outcome = .ok (.indexed report) → (session.snapshotOf root).isSome
  | _ => False

/-- A session whose first call asks for an index. -/
structure Indexing (start : Session α) (path : Argument String) (force : Bool) (root : String)
    (session : Session α) : Prop where
  settings : session.settings = start.settings
  embedder : session.embedder = start.embedder
  files : session.files = start.files
  grounded : session.Grounded start.settings start.embedder (· = start.files) 0
  calls : ∀ id point, session.task? id = some (.call point) →
    id = start.tasks.length ∧ AsksIndex path force root session point
  passes : ∀ id pass, session.task? id = some (.pass pass) →
    pass.root = root ∧ session.requestedRoot = some root ∧
      ((∃ report, pass.point = .ended (.ok report)) → (session.snapshotOf root).isSome)
  shown : ∀ snapshot, session.snapshot = some snapshot →
    snapshot.UpToDate start.settings start.embedder start.files root

private theorem isSome_of_passOutcome? {pass : TaskId} {report : PassReport}
    (indexing : Indexing start path force root session)
    (outcome : session.passOutcome? pass = some (.ok report)) :
    (session.snapshotOf root).isSome := by
  obtain ⟨state, stands, ended⟩ := passOutcome?_eq_some_iff.mp outcome
  exact (indexing.passes pass state stands).2.2 ⟨report, ended⟩

private theorem AsksIndex.move {point after : CallPoint α}
    (indexing : Indexing start path force root session) (current : session.Current)
    (accepted : path.projectPath = .ok root)
    (asks : AsksIndex path force root session point)
    (move : CallMove session id point shared after) :
    shared.snapshot = session.snapshot ∧ AsksIndex path force root (shared.setCall id after) after ∧
      (shared.tasks = session.tasks ∧ shared.requestedRoot = session.requestedRoot ∨
        shared.tasks = session.tasks ++ [.pass (.start session.settings root)] ∧
          shared.requestedRoot = some root) := by
  cases move with
  | quiet _ _ move =>
    refine ⟨rfl, ?_, .inl ⟨rfl, rfl⟩⟩
    cases move with
    | refused => exact fun report same => by cases same
    | failedWith => exact fun report same => by cases same
    | reported pass report outcome =>
      have indexed := isSome_of_passOutcome? indexing outcome
      exact fun _ _ => indexed
    | awaits => cases asks.1
    | goesAhead => cases asks.1
    | updates => cases asks
    | serves => cases asks
    | entered => exact asks.elim
    | probes => exact asks.elim
    | opens => exact asks.elim
    | passesBy => exact asks.elim
    | looks => exact asks.elim
    | loaded => exact asks.elim
    | notLoaded => exact asks.elim
    | embedded => exact asks.elim
    | embeds => exact asks.elim
    | rested => exact asks.elim
    | shown => exact asks.elim
    | reads => exact asks.elim
    | takes => exact asks.elim
    | skips => exact asks.elim
    | breaksOff => exact asks.elim
  | answered _ _ project _ _ known met =>
    obtain ⟨same, none, -⟩ := asks
    cases met with
    | served snapshot found =>
      rw [snapshotOf_eq_some_iff, none] at found
      cases found.1
  | indexes _ _ project _ pass known met =>
    obtain ⟨same, none, noPass⟩ := asks
    cases same
    rw [accepted] at known
    cases known
    cases met with
    | joined _ entered =>
      obtain ⟨first, stands, -⟩ := current root pass entered
      exact absurd stands (noPass pass first)
    | started => exact ⟨rfl, rfl, .inr ⟨rfl, rfl⟩⟩
  | searched => cases asks.1
  | contextReady => cases asks.1
  | contextServed => cases asks.1
  | contextWaits => cases asks.1
  | cleared => cases asks.1
  | queued => exact asks.elim
  | gaveUp _ _ reason => cases reason <;> exact asks.elim
  | stored => exact asks.elim
  | finds => exact asks.elim

private theorem Indexing.move_call {point after : CallPoint α}
    (indexing : Indexing start path force root session) (current : session.Current)
    (accepted : path.projectPath = .ok root) (stands : session.task? id = some (.call point))
    (move : CallMove session id point shared after) :
    Indexing start path force root (shared.setCall id after) := by
  obtain ⟨rfl, asks⟩ := indexing.calls id point stands
  have world := move.world
  obtain ⟨snapshot, asksAfter, tasks⟩ := asks.move indexing current accepted move
  have whole := Move.call point after shared stands move
  have sameSnapshot : ∀ project, (shared.setCall start.tasks.length after).snapshotOf project =
      session.snapshotOf project := by
    intro project
    change shared.snapshot.filter _ = session.snapshot.filter _
    rw [snapshot]
  refine
    { settings := world.settings.trans indexing.settings
      embedder := world.embedder.trans indexing.embedder
      files := world.files.trans indexing.files
      grounded := ?_
      calls := ?_
      passes := ?_
      shown := fun found stands => indexing.shown found (snapshot ▸ stands) }
  · have grounded := indexing.grounded
    rw [← indexing.settings, ← indexing.embedder] at grounded ⊢
    exact grounded.move indexing.files (Nat.zero_le _) whole
  · intro other found standsOther
    by_cases own : other = start.tasks.length
    · subst own
      rw [move.task?_self stands] at standsOther
      cases standsOther
      exact ⟨rfl, asksAfter⟩
    · rcases whole.call_origin standsOther with ⟨-, stood⟩ | ⟨same, -⟩
      · exact absurd (indexing.calls other found stood).1 own
      · exact absurd same own
  · intro other pass standsOther
    have present : start.tasks.length < shared.tasks.length := by
      have known := lt_of_task? stands
      rcases tasks with ⟨same, _⟩ | ⟨same, _⟩ <;> rw [same]
      · exact known
      · exact Nat.lt_of_lt_of_le known (by simp)
    rw [setCall, task?_setTask _ _ _ _ present] at standsOther
    split at standsOther
    · cases standsOther
    · rw [sameSnapshot]
      change pass.root = root ∧ shared.requestedRoot = some root ∧ _
      rcases tasks with ⟨same, requested⟩ | ⟨same, requested⟩
      · rw [task?, same] at standsOther
        rw [requested]
        exact indexing.passes other pass standsOther
      · rw [task?, same, List.getElem?_append] at standsOther
        split at standsOther
        · obtain ⟨known, -, rest⟩ := indexing.passes other pass standsOther
          exact ⟨known, requested, rest⟩
        · have started := List.mem_of_getElem? standsOther
          cases List.mem_singleton.mp started
          refine ⟨rfl, requested, ?_⟩
          rintro ⟨report, ended⟩
          cases ended

private theorem Indexing.of_others (indexing : Indexing start path force root session)
    (move : Move session id next) (other : ∀ point, session.task? id ≠ some (.call point))
    (requested : next.requestedRoot = session.requestedRoot)
    (present : (session.snapshotOf root).isSome → (next.snapshotOf root).isSome)
    (absent : (∀ id pass, session.task? id ≠ some (.pass pass)) → next.snapshot = session.snapshot)
    (own : ∀ pass report, next.task? id = some (.pass pass) → pass.point = .ended (.ok report) →
      (next.snapshotOf root).isSome)
    (shown : ∀ snapshot, next.snapshot = some snapshot →
      snapshot.UpToDate start.settings start.embedder start.files root) :
    Indexing start path force root next := by
  -- the snapshot changes only for one of the same project
  have world := move.world
  refine
    { settings := world.settings.trans indexing.settings
      embedder := world.embedder.trans indexing.embedder
      files := world.files.trans indexing.files
      grounded := ?_
      calls := ?_
      passes := ?_
      shown }
  · have grounded := indexing.grounded
    rw [← indexing.settings, ← indexing.embedder] at grounded ⊢
    exact grounded.move indexing.files (Nat.zero_le _) move
  · intro number point stands
    rcases move.call_origin stands with ⟨-, stood⟩ | ⟨-, before, shared, stood, -⟩
    · obtain ⟨same, asks⟩ := indexing.calls number point stood
      refine ⟨same, ?_⟩
      cases point with
      | made request =>
        obtain ⟨index, none, noPass⟩ := asks
        refine ⟨index, (absent noPass).trans none, ?_⟩
        intro otherNumber pass standsPass
        rcases move.pass_origin standsPass with ⟨_, ⟨caller, stoodCaller⟩, _⟩ | ⟨before, stood, _⟩
        · exact other caller stoodCaller
        · exact noPass otherNumber before stood
      | awaitingPass => exact asks
      | ended => exact fun report told => present (asks report told)
      | _ => exact asks
    · exact absurd stood (other before)
  · intro number pass stands
    have standsPass := stands
    rw [requested]
    cases move.origin_pass stands with
    | kept _ _ stood =>
      obtain ⟨project, asked, ended⟩ := indexing.passes number pass stood
      exact ⟨project, asked, fun settled => present (ended settled)⟩
    | told before message _ stood =>
      obtain ⟨project, asked, ended⟩ := indexing.passes number before stood
      exact ⟨project, asked, fun settled => present (ended settled)⟩
    | started _ _ _ caller =>
      obtain ⟨point, stood⟩ := caller
      exact absurd stood (other point)
    | moved before _ shared isOwn stood step =>
      subst isOwn
      obtain ⟨project, asked, _⟩ := indexing.passes number before stood
      exact ⟨step.running.2.trans project, asked,
        fun ⟨report, settled⟩ => own _ report standsPass settled⟩

private theorem Indexing.move_pass {pass after : Pass α}
    (indexing : Indexing start path force root session) (regular : start.files.IsRegular)
    (stands : session.task? id = some (.pass pass)) (move : PassMove session id pass shared after) :
    Indexing start path force root (shared.setPass id after) := by
  have whole := Move.pass pass after shared stands move
  have other : ∀ point, session.task? id ≠ some (.call point) := by
    intro point stood
    rw [stands] at stood
    cases stood
  obtain ⟨project, asked, _⟩ := indexing.passes id pass stands
  have quiet : shared.requestedRoot = session.requestedRoot → shared.snapshot = session.snapshot →
      (∀ report, after.point ≠ .ended (.ok report)) →
      Indexing start path force root (shared.setPass id after) := by
    intro requested snapshot running
    have same : ∀ project, (shared.setPass id after).snapshotOf project =
        session.snapshotOf project := by
      intro project
      change shared.snapshot.filter _ = session.snapshot.filter _
      rw [snapshot]
    refine indexing.of_others whole other requested (fun known => (same root) ▸ known)
      (fun _ => snapshot) ?_ fun found current => indexing.shown found (snapshot ▸ current)
    intro own report standsOwn ended
    rw [move.task?_self stands] at standsOwn
    cases standsOwn
    exact absurd ended (running report)
  cases move with
  | quiet _ move => refine quiet rfl rfl ?_; cases move <;> exact fun report ended => by cases ended
  | fails => exact quiet rfl rfl fun report ended => by cases ended
  | loads => exact quiet rfl rfl fun report ended => by cases ended
  | queued => exact quiet rfl rfl fun report ended => by cases ended
  | discards point superseded => exact absurd (project ▸ asked) superseded
  | swaps point wanted =>
    obtain ⟨rooted, found, walk, built⟩ := indexing.grounded.swapping (Nat.zero_le id) stands point
    rw [project] at rooted walk built
    have upToDate := Snapshot.UpToDate.of_built regular rooted walk built
    have there : (some pass.draft : Option (Snapshot α)).filter
        (fun found => found.projectPath == root) = some pass.draft := by
      simp [upToDate.projectPath]
    have present : ((some pass.draft : Option (Snapshot α)).filter
        (fun found => found.projectPath == root)).isSome = true := by rw [there]; rfl
    refine indexing.of_others whole other rfl (fun _ => present) ?_ (fun _ _ _ _ => present) ?_
    · intro noPass
      exact absurd stands (noPass id pass)
    · intro snapshot current
      cases current
      exact upToDate

private theorem Indexing.move (indexing : Indexing start path force root session)
    (current : session.Current) (regular : start.files.IsRegular)
    (accepted : path.projectPath = .ok root) (move : Move session id next) :
    Indexing start path force root next := by
  have ofLoad : (∀ point, session.task? id ≠ some (.call point)) →
      (∀ pass, next.task? id ≠ some (.pass pass)) →
      next.requestedRoot = session.requestedRoot → next.snapshot = session.snapshot →
      Indexing start path force root next := by
    intro other noPass requested snapshot
    have same : next.snapshotOf root = session.snapshotOf root := by
      rw [snapshotOf, snapshot, snapshotOf]
    exact indexing.of_others move other requested (fun known => same ▸ known) (fun _ => snapshot)
      (fun pass _ stands => absurd stands (noPass pass))
      fun found known => indexing.shown found (snapshot ▸ known)
  cases move with
  | call point after shared stands move => exact indexing.move_call current accepted stands move
  | pass pass after shared stands move => exact indexing.move_pass regular stands move
  | looks owner project path point after stands =>
    refine ofLoad (by simp [stands]) ?_ rfl rfl
    rw [task?_setTask _ _ _ _ (lt_of_task? stands), if_pos rfl]
    simp
  | ends owner project path point result stands =>
    refine ofLoad (by simp [stands]) ?_ rfl rfl
    rw [task?_setTask _ _ _ _ (lt_of_task? stands), if_pos rfl]
    simp
  | fails owner project path point message stands =>
    have own := (session.task?_setTask id id (.load owner project path (.ended (.failed message)))
      (lt_of_task? stands)).trans (if_pos rfl)
    refine ofLoad (by simp [stands]) ?_ ?_ ?_
    · rw [task?_tellOwner_load _ _ owner _ project path message _ own]
      simp
    · simp only [tellOwner]
      split <;> rfl
    · simp only [tellOwner]
      split <;> rfl

private theorem Indexing.event {event : Event α} (indexing : Indexing start path force root session)
    (current : session.Current) (regular : start.files.IsRegular)
    (accepted : path.projectPath = .ok root) (inner : event.IsInner)
    (happened : session.after? event = some next) : Indexing start path force root next := by
  have grounded := indexing.grounded
  rw [← indexing.settings, ← indexing.embedder] at grounded
  have groundedNext := grounded.event indexing.files (Nat.zero_le _) happened
  rw [indexing.settings, indexing.embedder] at groundedNext
  have asksKept : ∀ {changed : Session α}, changed.tasks = session.tasks →
      changed.snapshot = session.snapshot → ∀ id point, changed.task? id = some (.call point) →
        id = start.tasks.length ∧ AsksIndex path force root changed point := by
    intro changed tasks snapshot id point stands
    rw [task?, tasks] at stands
    obtain ⟨same, asks⟩ := indexing.calls id point stands
    refine ⟨same, ?_⟩
    cases point with
    | made =>
      refine ⟨asks.1, snapshot.trans asks.2.1, fun number pass found => ?_⟩
      rw [task?, tasks] at found
      exact asks.2.2 number pass found
    | awaitingPass => exact asks
    | ended =>
      intro report told
      rw [snapshotOf, snapshot]
      exact asks report told
    | _ => exact asks
  cases after?_move happened with
  | call => exact inner.elim
  | files => exact inner.elim
  | step id _ move => exact indexing.move current regular accepted move
  | time now => exact { indexing with grounded := groundedNext, calls := asksKept rfl rfl }
  | leave => exact { indexing with grounded := groundedNext, calls := asksKept rfl rfl }

private theorem indexing_at_start (new : start.IsNew) :
    Indexing start path force root (start.start [.call (.made (.index path force))]) where
  settings := rfl
  embedder := rfl
  files := rfl
  grounded := by
    refine ⟨?_, ?_⟩ <;>
    · intros
      simp_all [task?_call, new.task?]
  calls id point stands := by
    rw [task?_call, new.task?] at stands
    split at stands
    · next same =>
      cases stands
      refine ⟨same, rfl, new.snapshot, ?_⟩
      intro number pass found
      rw [task?_call, new.task?] at found
      split at found <;> cases found
    · cases stands
  passes id pass stands := by
    rw [task?_call, new.task?] at stands
    split at stands <;> cases stands
  shown snapshot current := by
    change start.snapshot = some snapshot at current
    rw [new.snapshot] at current
    cases current

/-- An index that a new session is asked for leaves a snapshot of the project that is up to date. -/
theorem Serves.upToDate {report : PassReport} (new : start.IsNew) (regular : start.files.IsRegular)
    (accepted : path.projectPath = .ok root)
    (serves : start.Serves (.index path force) (.ok (.indexed report)) final) :
    ∃ snapshot, final.snapshotOf root = some snapshot ∧
      snapshot.UpToDate start.settings start.embedder start.files root := by
  obtain ⟨events, inner, run⟩ := serves.run
  obtain ⟨called, happened, rest⟩ : ∃ called,
      start.after? (.call (.index path force)) = some called ∧
        called.replay? events = some final := Option.bind_eq_some_iff.mp run
  have sound : called.Sound := by
    refine (new.sound regular).event ?_ happened
    intro files same
    cases same
  cases happened
  have indexing : final.Sound ∧ Indexing start path force root final := by
    refine @replay?_keeps α _ (fun session => session.Sound ∧ Indexing start path force root session)
      _ _ events ?_ ⟨sound, indexing_at_start new⟩ rest
    rintro session event next member ⟨sound, indexing⟩ happened
    refine ⟨sound.event ?_ happened, indexing.event sound.current regular accepted
      (inner event member) happened⟩
    rintro files rfl
    exact (inner _ member).elim
  have told := serves.told
  unfold outcome? at told
  split at told
  · next outcome stands =>
    cases told
    have indexed := (indexing.2.calls _ _ stands).2 report rfl
    obtain ⟨snapshot, current⟩ := Option.isSome_iff_exists.mp indexed
    exact ⟨snapshot, current, indexing.2.shown snapshot
      ((final.snapshotOf_eq_some_iff root snapshot).mp current).1⟩
  · cases told

end Session

end CodeSearch
