import CodeSearch.Proofs.Session.Rest

/-! # Which project was asked for last

Only calls that ask for the index of a project, or for context in it, change which project is
wanted, and only they start passes: over the project that they ask for. They do so with their first
step. What a pass builds belongs to its project, and a pass that has ended stays as it ended.
-/

namespace CodeSearch

variable {α : Type} [Scalar α]

/-- A request that may have a project indexed: for its index, or for context in it. -/
inductive Request.AsksFor : Request α → String → Prop where
  | index (path : Argument String) (force : Bool) (root : String)
      (accepted : path.projectPath = .ok root) : AsksFor (.index path force) root
  | context (query path : Argument String) (limit : Argument Int) (wish : ContextWish)
      (accepted : Session.contextWish query path limit = .ok wish) :
      AsksFor (.context query path limit) wish.root

namespace Session

/-- A request comes with a run: it is made in it, or its call had not taken a step before. -/
def Comes (begun : Session α) (events : List (Event α)) (request : Request α) : Prop :=
  .call request ∈ events ∨ ∃ id, begun.task? id = some (.call (.made request))

variable {session shared next : Session α} {id : TaskId}

/-- Whether a task has begun: it is no call that is yet to take its first step. -/
def hasBegun : Task α → Bool
  | .call (.made _) => false
  | _ => true

theorem not_comes {request : Request α} (events : List (Event α))
    (steps : .call request ∉ events) (begun : session.tasks.all hasBegun = true) :
    ¬ session.Comes events request := by
  rintro (member | ⟨id, stands⟩)
  · exact steps member
  · have waits := List.all_eq_true.mp begun _ (List.mem_of_getElem? stands)
    cases waits

theorem IndexMove.requestedRoot {root : String} {force : Bool} {start : IndexStart}
    (met : IndexMove session root force shared start) : shared.requestedRoot = some root := by
  cases met <;> rfl

/-- What a call does about the project that is wanted: nothing, and it starts no pass, or it begins
by asking for one. -/
inductive CallAsks (session shared : Session α) : CallPoint α → Prop where
  | nothing (point : CallPoint α) (requested : shared.requestedRoot = session.requestedRoot)
      (tasks : shared.tasks = session.tasks) : CallAsks session shared point
  | asks (request : Request α) (root : String) (asked : request.AsksFor root)
      (requested : shared.requestedRoot = some root)
      (tasks : shared.tasks = session.tasks ∨
        shared.tasks = session.tasks ++ [.pass (.start session.settings root)]) :
      CallAsks session shared (.made request)

private theorem search_asks (point : CallPoint α) (query : String) (options : SearchOptions α) :
    CallAsks session (session.search query options).2 point := by
  refine .nothing point ?_ (session.search_tasks query options)
  rcases session.search_cases query options with same | ⟨snapshot, -, same⟩ <;> rw [same]

theorem CallMove.asks {point after : CallPoint α} (move : CallMove session id point shared after) :
    CallAsks session shared point := by
  cases move with
  | quiet => exact .nothing _ rfl rfl
  | answered path force root _ _ accepted met =>
    exact .asks _ root (.index path force root accepted) met.requestedRoot met.tasks
  | indexes path force root _ _ accepted met =>
    exact .asks _ root (.index path force root accepted) met.requestedRoot met.tasks
  | searched _ _ query options => exact search_asks _ query options
  | contextReady => exact .nothing _ rfl rfl
  | contextServed query path limit wish _ _ accepted met =>
    exact .asks _ wish.root (.context query path limit wish accepted) met.requestedRoot met.tasks
  | contextWaits query path limit wish _ _ accepted met =>
    exact .asks _ wish.root (.context query path limit wish accepted) met.requestedRoot met.tasks
  | cleared _ root => cases root <;> exact .nothing _ rfl rfl
  | queued => exact .nothing _ rfl rfl
  | gaveUp => exact .nothing _ rfl rfl
  | stored => exact .nothing _ rfl rfl
  | finds wish => exact search_asks _ wish.query _

/-- What a step does about the project that is wanted. Every pass that was not there before is over
the project that the step asks for. -/
inductive RequestMove (session : Session α) (id : TaskId) (next : Session α) : Prop where
  | kept (requested : next.requestedRoot = session.requestedRoot)
      (old : ∀ other pass, next.task? other = some (.pass pass) → session.task? other ≠ none)
  | asked (request : Request α) (root : String)
      (stood : session.task? id = some (.call (.made request))) (asks : request.AsksFor root)
      (requested : next.requestedRoot = some root)
      (new : ∀ other pass, next.task? other = some (.pass pass) → session.task? other = none →
        pass.root = root)

theorem PassMove.requestedRoot {pass after : Pass α}
    (move : PassMove session id pass shared after) :
    shared.requestedRoot = session.requestedRoot := by
  cases move <;> rfl

theorem Move.requests (move : Move session id next) : RequestMove session id next := by
  have whole := move
  cases move with
  | call point after shared stood move =>
    cases move.asks with
    | nothing _ requested tasks =>
      refine .kept requested ?_
      intro other pass stands
      have found := pass_of_setCall stands
      rw [task?, tasks] at found
      rw [task?, found]
      exact Option.some_ne_none _
    | asks request root asked requested tasks =>
      refine .asked request root stood asked requested ?_
      intro other pass stands absent
      have found := pass_of_setCall stands
      rcases tasks with same | started
      · rw [task?, same, ← task?, absent] at found
        cases found
      · rcases task?_append session shared _ other started with same | ⟨-, task, member, there⟩
        · rw [same, absent] at found
          cases found
        · rw [List.mem_singleton.mp member, found] at there
          cases there
          rfl
  | pass pass after shared stood move =>
    refine .kept move.requestedRoot (whole.old fun point other => ?_)
    rw [stood] at other
    cases other
  | looks owner root path point after stood =>
    exact .kept rfl (whole.old fun point other => by rw [stood] at other; cases other)
  | ends owner root path point result stood =>
    exact .kept rfl (whole.old fun point other => by rw [stood] at other; cases other)
  | fails owner root path point message stood =>
    refine .kept ?_ (whole.old fun point other => by rw [stood] at other; cases other)
    simp only [tellOwner]
    split <;> rfl

/-- What passes build belongs to their projects. -/
def OwnDrafts (session : Session α) : Prop :=
  ∀ id pass, session.task? id = some (.pass pass) → pass.draft.projectPath = pass.root

theorem OwnDrafts.event (drafts : session.OwnDrafts) {event : Event α}
    (happened : session.after? event = some next) : next.OwnDrafts := by
  cases after?_move happened with
  | call => exact fun id pass stands => drafts id pass (pass_of_call stands)
  | step id _ move =>
    refine move.passes (fun root => rfl) (fun pass message same => same) ?_ drafts
    intro pass shared after same move
    cases move with
    | quiet _ move => cases move <;> exact same
    | fails => exact same
    | loads => exact same
    | queued => exact same
    | swaps => exact same
    | discards => exact same
  | leave => exact drafts
  | files => exact drafts
  | time => exact drafts

theorem IsNew.ownDrafts (new : session.IsNew) : session.OwnDrafts := by
  intro id pass stands
  rw [new.task?] at stands
  cases stands

/-- Every call that is yet to take its first step comes with the run. -/
def CallsCome (begun : Session α) (events : List (Event α)) (session : Session α) : Prop :=
  ∀ id request, session.task? id = some (.call (.made request)) → begun.Comes events request

theorem CallsCome.event {begun : Session α} {events : List (Event α)}
    (come : begun.CallsCome events session) {event : Event α} (member : event ∈ events)
    (happened : session.after? event = some next) : begun.CallsCome events next := by
  cases after?_move happened with
  | call request =>
    intro id other stands
    rw [task?_call] at stands
    split at stands
    · cases stands
      exact .inl member
    · exact come id other stands
  | step id _ move => exact fun other request stands => come other request (move.request_made stands)
  | leave => exact come
  | files => exact come
  | time => exact come

/-- A pass that has ended stays as it ended. -/
theorem Move.ended_stays (move : Move session id next) {other : TaskId} {before : Pass α}
    {outcome : Except CallFault PassReport} (stood : session.task? other = some (.pass before))
    (ended : before.point = .ended outcome) :
    ∃ pass, next.task? other = some (.pass pass) ∧ pass.root = before.root ∧
      pass.point = .ended outcome := by
  obtain ⟨pass, stands, root, -⟩ := move.pass_stays stood
  refine ⟨pass, stands, root.symm, ?_⟩
  by_cases own : other = id
  · subst own
    obtain ⟨moved, shared, found, step, -⟩ := move.pass_own stands
    cases stood.symm.trans found
    exact absurd ⟨outcome, ended⟩ step.running.1
  · obtain ⟨unmoved, found, point⟩ := move.pass_unmoved own stood
    cases stands.symm.trans found
    exact point.trans ended

end Session

end CodeSearch
