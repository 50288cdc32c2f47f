import CodeSearch.Proofs.Session.Frame
import Mathlib.Data.List.Induction

/-! # Runs of a session

A run starts with a session to which no call was made and goes on event by event. What holds of a
new session and is kept by every event holds throughout. The snapshot is only ever dropped, given
another answer to keep, refreshed by an update or replaced by a pass.
-/

namespace CodeSearch

variable {α : Type} [Scalar α]

/-- A request that may drop the snapshot: to clear the index, or for the context of a project. -/
def Request.MayDrop : Request α → Prop
  | .context _ _ _ => True
  | .clear _ => True
  | _ => False

namespace Session

/-- No call was made yet; settings, embedder, files and time are arbitrary. -/
structure IsNew (session : Session α) : Prop where
  snapshot : session.snapshot = none
  inFlight : session.inFlight = ∅
  leaving : session.leaving = []
  requestedRoot : session.requestedRoot = none
  lock : session.lock = {}
  tasks : session.tasks = []

theorem opened_isNew (settings : Settings α) (files : FileSystem) (now : α) :
    (opened settings files now).IsNew := ⟨rfl, rfl, rfl, rfl, rfl, rfl⟩

theorem IsNew.task? {session : Session α} (new : session.IsNew) (id : TaskId) :
    session.task? id = none := by
  simp [Session.task?, new.tasks]

/-- A run that goes on where another has ended. -/
theorem replay?_trans {session middle final : Session α} {earlier later : List (Event α)}
    (run : session.replay? earlier = some middle) (rest : middle.replay? later = some final) :
    session.replay? (earlier ++ later) = some final := by
  rw [replay?_append, run]
  exact rest

theorem replay?_cons {session middle final : Session α} {event : Event α} {events : List (Event α)}
    (happened : session.after? event = some middle) (rest : middle.replay? events = some final) :
    session.replay? (event :: events) = some final := by
  rw [replay?, happened, Option.bind_eq_bind, Option.bind_some]
  exact rest

/-- A run goes on with one more event. -/
theorem replay?_concat {session middle next : Session α} {events : List (Event α)} {event : Event α}
    (run : session.replay? events = some middle) (happened : middle.after? event = some next) :
    session.replay? (events ++ [event]) = some next := by
  exact replay?_trans run (replay?_cons happened rfl)

/-- What every event keeps in the state that the events before it reach is kept by a run. -/
theorem replay?_keeps_prefix {keeps : Session α → Prop} {session final : Session α}
    {events : List (Event α)}
    (event : ∀ earlier before event after, earlier ++ [event] <+: events →
      session.replay? earlier = some before → keeps before → before.after? event = some after →
      keeps after)
    (start : keeps session) (run : session.replay? events = some final) : keeps final := by
  suffices reaches : ∀ past, past <+: events → ∀ current, session.replay? past = some current →
      keeps current from reaches events List.prefix_rfl final run
  intro past
  induction past using List.reverseRecOn with
  | nil => rintro - current ⟨⟩; exact start
  | append_singleton past last ih =>
    intro isPrefix current reached
    rw [replay?_append] at reached
    obtain ⟨middle, before, happened⟩ := Option.bind_eq_some_iff.mp reached
    obtain ⟨after, happened, ⟨⟩⟩ := Option.bind_eq_some_iff.mp happened
    exact event past middle last current isPrefix before
      (ih ((List.prefix_append past [last]).trans isPrefix) middle before) happened

/-- What every event keeps is kept by a run. -/
theorem replay?_keeps {keeps : Session α → Prop} {session final : Session α}
    {events : List (Event α)}
    (event : ∀ before event after, event ∈ events → keeps before →
      before.after? event = some after → keeps after)
    (start : keeps session) (run : session.replay? events = some final) : keeps final := by
  refine replay?_keeps_prefix (fun earlier before last after isPrefix _ => ?_) start run
  exact event before last after (isPrefix.subset (List.mem_append_right _ List.mem_cons_self))

/-- What every event keeps in the states that are reached is kept by a run. -/
theorem replay?_keeps_reached {keeps : Session α → Prop} {session final : Session α}
    {events : List (Event α)}
    (event : ∀ earlier before event after, session.replay? earlier = some before → keeps before →
      before.after? event = some after → keeps after)
    (start : keeps session) (run : session.replay? events = some final) : keeps final :=
  replay?_keeps_prefix (fun earlier before last after _ => event earlier before last after) start run

/-- What holds of every event of a run and the state in which it happens. -/
def HoldsAlong (holds : Session α → Event α → Prop) (session : Session α) : List (Event α) → Prop
  | [] => True
  | event :: rest =>
    holds session event ∧
      match session.after? event with
      | none => True
      | some next => HoldsAlong holds next rest

instance decidableHoldsAlong (holds : Session α → Event α → Prop)
    [∀ session event, Decidable (holds session event)] :
    ∀ (session : Session α) (events : List (Event α)), Decidable (HoldsAlong holds session events)
  | _, [] => .isTrue trivial
  | session, event :: rest => by
    unfold HoldsAlong
    cases session.after? event with
    | none => exact inferInstance
    | some next =>
      have := decidableHoldsAlong holds next rest
      exact inferInstance

theorem HoldsAlong.mono {holds weaker : Session α → Event α → Prop} {session : Session α}
    {events : List (Event α)} (weakens : ∀ current event, holds current event → weaker current event)
    (throughout : HoldsAlong holds session events) : HoldsAlong weaker session events := by
  induction events generalizing session with
  | nil => exact trivial
  | cons event rest ih =>
    obtain ⟨now, further⟩ := throughout
    refine ⟨weakens session event now, ?_⟩
    cases happened : session.after? event with
    | none => exact trivial
    | some next =>
      rw [happened] at further
      exact ih further

/-- A run keeps what its events keep as long as something else holds of them. -/
theorem replay?_keeps_along {holds : Session α → Event α → Prop} {keeps : Session α → Prop}
    {session final : Session α} {events : List (Event α)}
    (event : ∀ before event after, holds before event → keeps before →
      before.after? event = some after → keeps after)
    (start : keeps session) (throughout : HoldsAlong holds session events)
    (run : session.replay? events = some final) : keeps final := by
  induction events generalizing session with
  | nil => cases run; exact start
  | cons first rest ih =>
    obtain ⟨middle, happened, suffix⟩ := Option.bind_eq_some_iff.mp run
    simp only [HoldsAlong, happened] at throughout
    exact ih (event session first middle throughout.1 start happened) throughout.2 suffix

/-- What an event does: a call is made, a task moves, a pass leaves the table, or the world changes.
-/
inductive EventMove (session : Session α) : Event α → Session α → Prop where
  | call (request : Request α) :
      EventMove session (.call request) (session.start [.call (.made request)])
  | step (id : TaskId) (next : Session α) (move : Move session id next) :
      EventMove session (.step id) next
  | leave (id : TaskId) (pass : Pass α) (stands : session.task? id = some (.pass pass))
      (leaving : id ∈ session.leaving) :
      EventMove session (.leave id)
        { session with
          inFlight := session.inFlight.erase pass.root
          leaving := session.leaving.erase id }
  | files (files : FileSystem) : EventMove session (.files files) { session with files }
  | time (now : α) : EventMove session (.time now) { session with now }

theorem after?_move {session next : Session α} {event : Event α}
    (success : session.after? event = some next) : EventMove session event next := by
  cases event with
  | call request => cases success; exact .call request
  | step id => exact .step id next (step?_move success)
  | leave id =>
    simp only [after?, leave?] at success
    split at success
    · next pass stands =>
      split at success
      · next leaving => cases success; exact .leave id pass stands leaving
      · cases success
    · cases success
  | files files => cases success; exact .files files
  | time now => cases success; exact .time now

/-- Settings and embedder are those of the beginning. -/
theorem after?_world {session next : Session α} {event : Event α}
    (happened : session.after? event = some next) :
    next.settings = session.settings ∧ next.embedder = session.embedder := by
  cases after?_move happened with
  | call => exact ⟨rfl, rfl⟩
  | step id _ move => exact ⟨move.world.settings, move.world.embedder⟩
  | leave => exact ⟨rfl, rfl⟩
  | files => exact ⟨rfl, rfl⟩
  | time => exact ⟨rfl, rfl⟩

theorem replay?_world {session final : Session α} {events : List (Event α)}
    (run : session.replay? events = some final) :
    final.settings = session.settings ∧ final.embedder = session.embedder := by
  refine @replay?_keeps α _ (fun next => next.settings = session.settings ∧
    next.embedder = session.embedder) _ _ _ ?_ ⟨rfl, rfl⟩ run
  rintro before event next - ⟨settings, embedder⟩ happened
  obtain ⟨settingsNext, embedderNext⟩ := after?_world happened
  exact ⟨settingsNext.trans settings, embedderNext.trans embedder⟩

/-- A call that has just been made stands at the next number; all other tasks stay. -/
theorem task?_call (session : Session α) (request : Request α) (id : Nat) :
    (session.start [.call (.made request)]).task? id =
      if id = session.tasks.length then some (.call (.made request)) else session.task? id := by
  rw [task?_start]
  by_cases known : id < session.tasks.length
  · rw [if_pos known, if_neg (by omega)]
  · rw [if_neg known]
    by_cases next : id = session.tasks.length
    · simp [next]
    · have beyond : 1 ≤ id - session.tasks.length := by omega
      have absent : session.task? id = none := List.getElem?_eq_none (by omega)
      rw [if_neg next, absent, List.getElem?_eq_none (by simpa using beyond)]

/-- Tasks stay where they stand when a call is made. -/
theorem task?_call_of {session : Session α} {id : TaskId} {task : Task α}
    (stood : session.task? id = some task) (request : Request α) :
    (session.start [.call (.made request)]).task? id = some task := by
  rw [task?_call, if_neg (Nat.ne_of_lt (lt_of_task? stood)), stood]

/-- No pass comes in when a call is made. -/
theorem pass_of_call {session : Session α} {request : Request α} {id : TaskId} {pass : Pass α}
    (stands : (session.start [.call (.made request)]).task? id = some (.pass pass)) :
    session.task? id = some (.pass pass) := by
  rw [task?_call] at stands
  split at stands
  · cases stands
  · exact stands

/-- The search that a task makes with its next step. -/
inductive Asks (session : Session α) (id : TaskId) : String → SearchOptions α → Prop where
  | search (argument : Argument String) (input : OptionsArgument α) (query : String)
      (options : SearchOptions α)
      (stands : session.task? id = some (.call (.made (.search argument input))))
      (text : argument.query = .ok query) (checked : input.check = .ok options) :
      Asks session id query options
  | context (wish : ContextWish) (stands : session.task? id = some (.call (.searching wish))) :
      Asks session id wish.query (contextOptions wish)

/-- What becomes of the snapshot when a task makes a step. -/
inductive SnapshotMove (session : Session α) (id : TaskId) : Option (Snapshot α) → Prop where
  | kept : SnapshotMove session id session.snapshot
  | dropped (request : Request α) (stands : session.task? id = some (.call (.made request)))
      (drops : request.MayDrop) : SnapshotMove session id none
  | answers (snapshot : Snapshot α) (query : String) (options : SearchOptions α)
      (current : session.snapshot = some snapshot) (asked : Asks session id query options) :
      SnapshotMove session id
        (some
          { snapshot with
            cache := (snapshot.cache.get session.now (options.cacheKey query)).2.put session.now
              (options.cacheKey query)
              (rank session.settings session.embedder query options snapshot.embeddings.values) })
  | refreshed (target : UpdateTarget) (draft : Option (FileDraft α)) (snapshot : Snapshot α)
      (stands : session.task? id = some (.call (.storing target draft)))
      (current : session.snapshotOf target.root = some snapshot) :
      SnapshotMove session id (some (refreshed snapshot target.relative draft))
  | swapped (pass : Pass α) (stands : session.task? id = some (.pass pass))
      (point : pass.point = .swapping) (wanted : session.requestedRoot = some pass.root) :
      SnapshotMove session id (some pass.draft)

theorem snapshotOf_eq_some_iff (session : Session α) (root : String) (snapshot : Snapshot α) :
    session.snapshotOf root = some snapshot ↔
      session.snapshot = some snapshot ∧ snapshot.projectPath = root := by
  simp [snapshotOf, Option.filter_eq_some_iff]

private theorem snapshotOf_move {session : Session α} {id : TaskId} {query path : Argument String}
    {limit : Argument Int}
    (stands : session.task? id = some (.call (.made (.context query path limit)))) (root : String) :
    SnapshotMove session id (session.snapshotOf root) := by
  cases found : session.snapshotOf root with
  | none => exact .dropped _ stands trivial
  | some snapshot =>
    rw [← ((session.snapshotOf_eq_some_iff root snapshot).mp found).1]
    exact .kept

private theorem clear_snapshot_move {session : Session α} {id : TaskId}
    {path : Option (Argument String)}
    (stands : session.task? id = some (.call (.made (.clear path)))) (root : Option String) :
    SnapshotMove session id (session.clear root).snapshot := by
  cases root with
  | none => exact .dropped _ stands trivial
  | some root =>
    change SnapshotMove session id (session.snapshot.filter _)
    cases kept : session.snapshot.filter fun snapshot => snapshot.projectPath != root with
    | none => exact .dropped _ stands trivial
    | some snapshot =>
      rw [← (Option.filter_eq_some_iff.mp kept).1]
      exact .kept

private theorem search_snapshot_move (session : Session α) (id : TaskId) (query : String)
    (options : SearchOptions α) (asked : Asks session id query options) :
    SnapshotMove session id (session.search query options).2.snapshot := by
  rcases session.search_cases query options with same | ⟨snapshot, current, same⟩ <;> rw [same]
  · exact .kept
  · exact .answers snapshot query options current asked

theorem IndexMove.snapshot {session shared : Session α} {root : String} {force : Bool}
    {start : IndexStart} (met : IndexMove session root force shared start) :
    shared.snapshot = session.snapshot := by
  cases met <;> rfl

/-- Every change of the snapshot by a task is one of those listed. -/
theorem Move.snapshot {session next : Session α} {id : TaskId} (move : Move session id next) :
    SnapshotMove session id next.snapshot := by
  cases move with
  | call point after shared stands move =>
    change SnapshotMove session id shared.snapshot
    cases move with
    | quiet => exact .kept
    | answered _ _ _ _ _ _ met => rw [met.snapshot]; exact .kept
    | indexes _ _ _ _ _ _ met => rw [met.snapshot]; exact .kept
    | searched argument input query options text checked =>
      exact search_snapshot_move session id query options
        (.search argument input query options stands text checked)
    | contextReady _ _ _ wish => exact snapshotOf_move stands wish.root
    | contextServed _ _ _ wish _ _ _ met =>
      rw [met.snapshot]; exact snapshotOf_move stands wish.root
    | contextWaits _ _ _ wish _ _ _ met =>
      rw [met.snapshot]; exact snapshotOf_move stands wish.root
    | cleared _ root => exact clear_snapshot_move stands root
    | queued => exact .kept
    | gaveUp => exact .kept
    | stored target draft snapshot current => exact .refreshed target draft snapshot stands current
    | finds wish => exact search_snapshot_move session id wish.query _ (.context wish stands)
  | pass pass after shared stands move =>
    change SnapshotMove session id shared.snapshot
    cases move with
    | swaps point wanted => exact .swapped pass stands point wanted
    | quiet => exact .kept
    | fails => exact .kept
    | loads => exact .kept
    | queued => exact .kept
    | discards => exact .kept
  | looks => exact .kept
  | ends => exact .kept
  | fails owner root path point message =>
    have same : ((session.setTask id (.load owner root path (.ended (.failed message)))).tellOwner
        owner message).snapshot = session.snapshot := by
      simp only [tellOwner]
      split <;> rfl
    rw [same]
    exact .kept

/-- What holds of every new pass, and is kept when a pass moves or is told of a file, holds of all
passes. -/
theorem Move.passes {keeps : Pass α → Prop} {session next : Session α} {id : TaskId}
    (move : Move session id next) (start : ∀ root, keeps (.start session.settings root))
    (told : ∀ pass message, keeps pass → keeps (pass.told message))
    (moves : ∀ pass shared after, keeps pass → PassMove session id pass shared after → keeps after)
    (before : ∀ other pass, session.task? other = some (.pass pass) → keeps pass) :
    ∀ other pass, next.task? other = some (.pass pass) → keeps pass := by
  intro other pass stands
  cases move.origin_pass stands with
  | kept _ _ stood => exact before other pass stood
  | told earlier message _ stood => exact told earlier message (before other earlier stood)
  | started _ root => exact start root
  | moved earlier _ shared _ stood move =>
    exact moves earlier shared pass (before id earlier stood) move

/-! ## The first step of a pass -/

/-! ## What runs end with -/

/-- Whether a call has ended with a wanted answer. -/
def isTold (session : Session α) (id : TaskId) (wanted : Answer α → Bool) : Bool :=
  match session.outcome? id with
  | some (.ok answer) => wanted answer
  | _ => false

theorem exists_answer_of_isTold {session : Session α} {id : TaskId} {wanted : Answer α → Bool}
    (told : session.isTold id wanted = true) :
    ∃ answer, session.outcome? id = some (.ok answer) ∧ wanted answer = true := by
  unfold isTold at told
  split at told
  · next answer ended => exact ⟨answer, ended, told⟩
  · cases told

section Listing

variable {session : Session α} {id : TaskId} {root : String}

/-- A session whose pass has listed the directory of its project. -/
def withListing (session : Session α) (id : TaskId) (root : String) (targets : List Walk.Target) :
    Session α :=
  session.setPass id { Pass.start session.settings root with point := .walking targets [] }

theorem after?_of_listTargets {targets : List Walk.Target}
    (begins : session.task? id = some (.pass (.start session.settings root)))
    (listed : Walk.listTargets session.settings (session.files.list root) = .ok targets) :
    session.after? (.step id) = some (session.withListing id root targets) := by
  rw [after?, step?, begins]
  change some (session.walkOn id _ [.directory root] []) = _
  rw [walkOn, listed]
  simp only [List.append_nil]
  rfl

/-- A listing that comes in the order of the walk is walked as it is. -/
theorem after?_of_sorted {entries : List Entry}
    (begins : session.task? id = some (.pass (.start session.settings root)))
    (listing : session.files.list root = .ok entries)
    (sorted : entries.Pairwise fun first second => Walk.precedes first second = true) :
    session.after? (.step id) =
      some (session.withListing id root (entries.filterMap (Walk.target? session.settings))) := by
  refine after?_of_listTargets begins ?_
  rw [listing, Walk.listTargets, Walk.targets, List.mergeSort_of_pairwise sorted]

end Listing

end Session

end CodeSearch
