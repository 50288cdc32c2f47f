import CodeSearch.Proofs.Session.LoneCalls
import CodeSearch.Proofs.Session.SingleFlight

/-! # What failed calls leave of the index

A call that fails has not changed what is indexed: it looks at its arguments first, and a pass
replaces the snapshot only when it has come to its end. A request for context is the exception. It
drops the snapshot of another project before its own project is walked, and the snapshot that its own
pass has built stays if a file cannot be read afterwards.
-/

namespace CodeSearch

variable {α : Type} [Scalar α]

namespace QueryCache

omit [Scalar α]
variable {ρ : Type} [LE α] [DecidableLE α]

theorem clear_get [Sub α] (cache : QueryCache α ρ) (now : α) (key : String) :
    (cache.get now key).2.clear = cache.clear := by
  unfold get
  split
  · rfl
  · split <;> rfl

theorem clear_put [LT α] [DecidableLT α] (cache : QueryCache α ρ) (now : α) (key : String)
    (answer : ρ) : (cache.put now key answer).clear = cache.clear := rfl

end QueryCache

/-- What is indexed, apart from the answers that were given so far. -/
def Snapshot.indexed (snapshot : Snapshot α) : Snapshot α :=
  { snapshot with cache := snapshot.cache.clear }

namespace Session

variable {before session shared next final : Session α} {id mover : TaskId} {request : Request α}
  {events : List (Event α)}

/-- The index as it stands: project, files, chunks, embeddings and time of the snapshot. -/
def index (session : Session α) : Option (Snapshot α) := session.snapshot.map Snapshot.indexed

theorem index_search (session : Session α) (query : String) (options : SearchOptions α) :
    (session.search query options).2.index = session.index := by
  rcases session.search_cases query options with same | ⟨snapshot, current, same⟩
  · rw [same]
  · simp only [same, index, current, Option.map_some, Snapshot.indexed, QueryCache.clear_put,
      QueryCache.clear_get]

theorem IndexMove.index {root : String} {force : Bool} {start : IndexStart}
    (met : IndexMove session root force shared start) : shared.index = session.index :=
  congrArg (Option.map Snapshot.indexed) met.snapshot

/-- A session without a snapshot of a project has none of it while the index stays. -/
theorem snapshotOf_eq_none_of_index (same : session.index = before.index) {root : String}
    (absent : session.snapshotOf root = none) : before.snapshotOf root = none := by
  unfold index at same
  unfold snapshotOf at absent ⊢
  cases stood : before.snapshot with
  | none => rfl
  | some snapshot =>
    cases stands : session.snapshot with
    | none => rw [stood, stands] at same; cases same
    | some other =>
      rw [stood, stands, Option.map_some, Option.map_some, Option.some.injEq] at same
      have project : other.projectPath = snapshot.projectPath := by
        change other.indexed.projectPath = snapshot.indexed.projectPath
        rw [same]
      simpa [stands, project] using absent

/-- What a failed request may leave of the index: what was there before, or, as a request for
context, nothing of another project, or what its own pass has built. -/
inductive LeavesIndex (before : Session α) (request : Request α) (session : Session α) : Prop where
  | kept (same : session.index = before.index)
  | dropped (wish : ContextWish) (wishes : request.Wishes wish)
      (another : before.snapshotOf wish.root = none) (empty : session.snapshot = none)
  | rebuilt (wish : ContextWish) (wishes : request.Wishes wish) (number : TaskId) (pass : Pass α)
      (own : before.task? number = none) (stands : session.task? number = some (.pass pass))
      (project : pass.root = wish.root) (report : PassReport)
      (ended : pass.point = .ended (.ok report))
      (same : session.index = some pass.draft.indexed)

/-- A request that is none for context has left the index as it was. -/
theorem LeavesIndex.same (leaves : LeavesIndex before request session)
    (other : ∀ wish, ¬ request.Wishes wish) : session.index = before.index := by
  cases leaves with
  | kept same => exact same
  | dropped wish wishes => exact absurd wishes (other wish)
  | rebuilt wish wishes => exact absurd wishes (other wish)

/-! ## Moves that leave the index -/

/-- What a call does about the index: nothing, or it ends well, or it begins with its wish for the
context of a project. -/
theorem CallMove.index {point after : CallPoint α} (move : CallMove session id point shared after) :
    shared.index = session.index ∨ (∃ answer, after = .ended (.ok answer)) ∨
      ∃ query path limit wish, point = .made (.context query path limit) ∧
        contextWish query path limit = .ok wish ∧
        shared.snapshot = session.snapshotOf wish.root := by
  cases move with
  | quiet => exact .inl rfl
  | answered => exact .inr (.inl ⟨_, rfl⟩)
  | indexes _ _ _ _ _ _ met => exact .inl met.index
  | searched => exact .inr (.inl ⟨_, rfl⟩)
  | contextReady query path limit wish accepted =>
    exact .inr (.inr ⟨query, path, limit, wish, rfl, accepted, rfl⟩)
  | contextServed query path limit wish _ _ accepted met =>
    exact .inr (.inr ⟨query, path, limit, wish, rfl, accepted, met.snapshot⟩)
  | contextWaits query path limit wish _ _ accepted met =>
    exact .inr (.inr ⟨query, path, limit, wish, rfl, accepted, met.snapshot⟩)
  | cleared => exact .inr (.inl ⟨_, rfl⟩)
  | queued => exact .inl rfl
  | gaveUp => exact .inl rfl
  | stored => exact .inr (.inl ⟨_, rfl⟩)
  | finds wish => exact .inl (session.index_search wish.query _)

private theorem Move.ended_pass_stays (move : Move session mover next) {number : TaskId}
    {pass : Pass α} (stood : session.task? number = some (.pass pass)) (ended : pass.IsEnded) :
    ∃ told, next.task? number = some (.pass { pass with errors := told }) := by
  obtain ⟨after, stands, -, -⟩ := move.pass_stays stood
  cases move.origin_pass stands with
  | kept _ _ found =>
    cases stood.symm.trans found
    exact ⟨pass.errors, stands⟩
  | told before message _ found =>
    cases stood.symm.trans found
    exact ⟨_, stands⟩
  | moved before _ _ own found step =>
    subst own
    cases stood.symm.trans found
    exact absurd ended step.running.1
  | started _ _ _ _ new => cases stood.symm.trans new

/-- A pass that has ended stays as it is, but for files that it is told of. -/
theorem after?_ended_pass {event : Event α} (happened : session.after? event = some next)
    {number : TaskId} {pass : Pass α} (stood : session.task? number = some (.pass pass))
    (ended : pass.IsEnded) :
    ∃ told, next.task? number = some (.pass { pass with errors := told }) := by
  cases after?_move happened with
  | call request => exact ⟨pass.errors, task?_call_of stood request⟩
  | step _ _ move => exact move.ended_pass_stays stood ended
  | leave => exact ⟨pass.errors, stood⟩
  | files => exact ⟨pass.errors, stood⟩
  | time => exact ⟨pass.errors, stood⟩

/-- While the index stays as it is, it stays what a failed request may leave. -/
theorem LeavesIndex.event (leaves : LeavesIndex before request session) {event : Event α}
    (happened : session.after? event = some next) (same : next.index = session.index) :
    LeavesIndex before request next := by
  cases leaves with
  | kept kept => exact .kept (same.trans kept)
  | dropped wish wishes another empty =>
    refine .dropped wish wishes another ?_
    rw [index, index, empty] at same
    exact Option.map_eq_none_iff.mp same
  | rebuilt wish wishes number pass own stands project report ended built =>
    obtain ⟨told, there⟩ := after?_ended_pass happened stands ⟨_, ended⟩
    exact .rebuilt wish wishes number _ own there project report ended (same.trans built)

/-! ## Calls on their way -/

/-- What holds of the index at the place of a call that was made alone. Once its pass has ended well,
an index request will not fail. -/
def IndexAt (before : Session α) (request : Request α) (session : Session α) : CallPoint α → Prop
  | .made _ => session.index = before.index
  | .awaitingPass number .report =>
    LeavesIndex before request session ∨ ∃ report, session.passOutcome? number = some (.ok report)
  | .ended (.ok _) => True
  | _ => LeavesIndex before request session

theorem LeavesIndex.at {point : CallPoint α} (leaves : LeavesIndex before request session)
    (begun : ∀ made, point ≠ .made made) : IndexAt before request session point := by
  unfold IndexAt
  split
  · exact absurd rfl (begun _)
  · exact .inl leaves
  · exact trivial
  · exact leaves

/-- Unless it has ended well or is bound to, a call has left the index as a failed one may. -/
theorem IndexAt.leaves {point : CallPoint α} (here : IndexAt before request session point)
    (unfinished : ∀ answer, point ≠ .ended (.ok answer))
    (unreported : ∀ number report, point = .awaitingPass number .report →
      session.passOutcome? number ≠ some (.ok report)) : LeavesIndex before request session := by
  unfold IndexAt at here
  split at here
  · exact .kept here
  · rcases here with leaves | ⟨report, ended⟩
    · exact leaves
    · exact absurd ended (unreported _ report rfl)
  · exact absurd rfl (unfinished _)
  · exact here

/-- A call that has begun to wait for its pass, which has ended well, ends well. -/
theorem CallMove.reports {number : TaskId} {report : PassReport} {after : CallPoint α}
    (ended : session.passOutcome? number = some (.ok report))
    (move : CallMove session id (.awaitingPass number .report) shared after) :
    ∃ answer, after = .ended (.ok answer) := by
  cases move with
  | quiet _ _ move =>
    cases move with
    | failedWith _ _ fault outcome => cases ended.symm.trans outcome
    | reported => exact ⟨_, rfl⟩
  | gaveUp _ _ reason => cases reason

theorem CallMove.begun {point after : CallPoint α} (move : CallMove session id point shared after)
    (made : Request α) : after ≠ .made made := by
  rintro rfl
  cases move with
  | quiet _ _ move => cases move

private theorem IndexAt.call {point after : CallPoint α}
    (serves : point.IsOf request)
    (happened : session.after? (.step id) = some (shared.setCall id after))
    (here : IndexAt before request session point) (move : CallMove session id point shared after) :
    IndexAt before request (shared.setCall id after) after := by
  by_cases reported : ∃ number report, point = .awaitingPass number .report ∧
      session.passOutcome? number = some (.ok report)
  · obtain ⟨number, report, rfl, ended⟩ := reported
    obtain ⟨answer, rfl⟩ := move.reports ended
    exact trivial
  have leaves : LeavesIndex before request session := by
    refine here.leaves (fun answer => move.running (.ok answer)) ?_
    intro number report awaits ended
    exact reported ⟨number, report, awaits, ended⟩
  rcases move.index with same | ⟨answer, rfl⟩ | ⟨query, path, limit, wish, rfl, accepted, dropped⟩
  · exact (leaves.event happened same).at move.begun
  · exact trivial
  · cases serves
    refine LeavesIndex.at ?_ move.begun
    have wishes : (Request.context (α := α) query path limit).Wishes wish :=
      .context query path limit wish accepted
    cases found : session.snapshotOf wish.root with
    | none =>
      exact .dropped wish wishes (snapshotOf_eq_none_of_index here found) (dropped.trans found)
    | some snapshot =>
      have current := ((session.snapshotOf_eq_some_iff _ _).mp found).1
      refine .kept (Eq.trans ?_ here)
      exact congrArg (Option.map Snapshot.indexed) ((dropped.trans found).trans current.symm)

omit [Scalar α] in
private theorem asksFor_cases {root : String} (asks : request.AsksFor root) {number : TaskId}
    {after : AfterPass} (serves : (CallPoint.awaitingPass (α := α) number after).IsOf request) :
    after = .report ∨ ∃ wish, after = .context wish ∧ request.Wishes wish ∧ root = wish.root := by
  -- an update starts no pass
  cases asks with
  | index path force root accepted =>
    cases after with
    | report => exact .inl rfl
    | update => cases serves
    | context => cases serves
  | context query path limit wish accepted =>
    cases after with
    | report => obtain ⟨path, force, same⟩ := serves; cases same
    | update => cases serves
    | context other =>
      cases serves with
      | context _ _ _ _ known =>
        cases accepted.symm.trans known
        exact .inr ⟨_, rfl, .context query path limit wish accepted, rfl⟩

private theorem IndexAt.swap (lone : LoneCall before request session) {pass : Pass α}
    {point : CallPoint α} (stands : session.task? before.tasks.length = some (.call point))
    (stood : session.task? mover = some (.pass pass)) (swapping : pass.point = .swapping)
    (ended : next.task? mover = some (.pass { pass with point := .ended (.ok pass.report) }))
    (swapped : next.snapshot = some pass.draft) : IndexAt before request next point := by
  have running : ¬ pass.IsEnded := by
    rintro ⟨outcome, point⟩
    cases swapping.symm.trans point
  obtain ⟨new, asks⟩ := lone.passes mover pass stood running
  obtain ⟨after, waits⟩ := lone.waits stood running
  obtain ⟨place, there, serves⟩ := lone.own
  cases stands.symm.trans waits
  cases waits.symm.trans there
  rcases asksFor_cases asks serves with rfl | ⟨wish, rfl, wishes, project⟩
  · exact .inr ⟨pass.report, passOutcome?_eq_some_iff.mpr ⟨_, ended, rfl⟩⟩
  · exact LeavesIndex.rebuilt wish wishes mover _ new ended project pass.report rfl
      (congrArg (Option.map Snapshot.indexed) swapped)

private theorem IndexAt.keeps {point : CallPoint α} (here : IndexAt before request session point)
    {event : Event α} (happened : session.after? event = some next)
    (same : next.index = session.index) : IndexAt before request next point := by
  unfold IndexAt at here ⊢
  split at here
  · exact same.trans here
  · rcases here with leaves | ⟨report, ended⟩
    · exact .inl (leaves.event happened same)
    · exact .inr ⟨report, passOutcome?_keeps ended happened⟩
  · exact trivial
  · exact here.event happened same

private theorem IndexAt.other (lone : LoneCall before request session)
    (different : before.tasks.length ≠ mover) {point : CallPoint α}
    (stands : session.task? before.tasks.length = some (.call point))
    (here : IndexAt before request session point)
    (happened : session.after? (.step mover) = some next) (move : Move session mover next) :
    IndexAt before request next point := by
  have whole := move
  cases move with
  | call place after shared stood step => exact absurd (lone.eq_of_call whole stood).1.symm different
  | pass pass after shared stood step =>
    have there := step.task?_self stood
    cases step with
    | swaps swapping => exact IndexAt.swap lone stands stood swapping there rfl
    | quiet => exact here.keeps happened rfl
    | fails => exact here.keeps happened rfl
    | loads => exact here.keeps happened rfl
    | queued => exact here.keeps happened rfl
    | discards => exact here.keeps happened rfl
  | looks => exact here.keeps happened rfl
  | ends => exact here.keeps happened rfl
  | fails owner root path point message =>
    refine here.keeps happened ?_
    unfold tellOwner
    split <;> rfl

/-- A call that was made alone, with what holds of the index at its place. -/
structure Proceeds (before : Session α) (request : Request α) (session : Session α) : Prop where
  lone : LoneCall before request session
  index : ∀ point, session.task? before.tasks.length = some (.call point) →
    IndexAt before request session point

theorem Proceeds.event (proceeds : Proceeds before request session) {event : Event α}
    (alone : ∀ other, event ≠ .call other) (happened : session.after? event = some next) :
    Proceeds before request next := by
  refine ⟨proceeds.lone.event alone happened, ?_⟩
  obtain ⟨point, stood, serves⟩ := proceeds.lone.own
  have here := proceeds.index point stood
  intro place stands
  cases after?_move happened with
  | call other => exact absurd rfl (alone other)
  | step mover _ move =>
    by_cases own : before.tasks.length = mover
    · subst own
      obtain ⟨after, shared, step, rfl⟩ := move.of_call stood
      cases (step.task?_self stood).symm.trans stands
      exact here.call serves happened step
    · cases (move.call_stays own stood).symm.trans stands
      exact here.other proceeds.lone own stood happened move
  | leave => cases stood.symm.trans stands; exact here.keeps happened rfl
  | files => cases stood.symm.trans stands; exact here.keeps happened rfl
  | time => cases stood.symm.trans stands; exact here.keeps happened rfl

/-- A call that is made while no other is in progress, and fails, has left the index as it was; or it
has asked for context in a project of which there was no index. -/
theorem IsNew.leavesIndex (new : session.IsNew) {earlier : List (Event α)}
    (reached : session.replay? earlier = some before) (idle : before.IsIdle)
    (alone : ∀ other, .call other ∉ events)
    (run : before.replay? (.call request :: events) = some final) {fault : CallFault}
    (failed : final.outcome? before.tasks.length = some (.error fault)) :
    LeavesIndex before request final := by
  rw [replay?] at run
  obtain ⟨begun, called, rest⟩ := Option.bind_eq_some_iff.mp run
  have lone := new.loneCall reached idle called
  have start : Proceeds before request begun := by
    refine ⟨lone, ?_⟩
    intro point stands
    cases called
    rw [task?_call, if_pos rfl] at stands
    cases stands
    rfl
  have proceeds : Proceeds before request final := by
    refine replay?_keeps ?_ start rest
    intro current event after member proceeds happened
    refine proceeds.event ?_ happened
    rintro other rfl
    exact alone other member
  exact proceeds.index _ (task?_of_outcome failed)

end Session

end CodeSearch
