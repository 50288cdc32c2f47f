import CodeSearch.Proofs.Session.Calls
import CodeSearch.Proofs.Session.Requests
import CodeSearch.Proofs.Session.Waiting

/-! # Calls that are made alone

A call is made while no other call is in progress, and no other is made until it has ended. Whatever
happens meanwhile, all other calls have ended, and a pass that is under way was started by the call,
over the project that it asks for. An update asks for no pass, so the snapshot of its project stays
until the update itself stores its file.
-/

namespace CodeSearch

variable {α : Type} [Scalar α]

namespace Session

variable {before session next : Session α} {id mover : TaskId} {request : Request α}

/-- No call is in progress. -/
def IsIdle (session : Session α) : Prop :=
  ∀ id point, session.task? id = some (.call point) → ∃ outcome, point = .ended outcome

/-- When no call is in progress, no pass is under way. -/
theorem IsIdle.isEnded (idle : session.IsIdle) (attended : session.Attended) {pass : Pass α}
    (stands : session.task? id = some (.pass pass)) : pass.IsEnded := by
  by_contra running
  obtain ⟨caller, after, waits⟩ := attended.attended id pass stands running
  obtain ⟨outcome, same⟩ := idle caller _ waits
  cases same

/-- A call that was made alone, at any later moment. -/
structure LoneCall (before : Session α) (request : Request α) (session : Session α) : Prop where
  own : ∃ point, session.task? before.tasks.length = some (.call point) ∧ point.IsOf request
  others : ∀ other point, other ≠ before.tasks.length → session.task? other = some (.call point) →
    ∃ outcome, point = .ended outcome
  passes : ∀ number pass, session.task? number = some (.pass pass) → ¬ pass.IsEnded →
    before.task? number = none ∧ request.AsksFor pass.root
  attended : session.Attended
  tabled : session.Tabled
  current : session.Current

namespace LoneCall

/-- Whatever call makes a step, it is the one that was made alone. -/
theorem eq_of_call (lone : LoneCall before request session) (move : Move session mover next)
    {point : CallPoint α} (stands : session.task? mover = some (.call point)) :
    mover = before.tasks.length ∧ point.IsOf request := by
  by_cases own : mover = before.tasks.length
  · subst own
    obtain ⟨place, there, serves⟩ := lone.own
    cases stands.symm.trans there
    exact ⟨rfl, serves⟩
  · obtain ⟨outcome, same⟩ := lone.others mover point own stands
    exact absurd ⟨outcome, same⟩ (move.not_ended stands)

/-- A pass that is under way is the one that the call waits for. -/
theorem waits (lone : LoneCall before request session) {number : TaskId} {pass : Pass α}
    (stands : session.task? number = some (.pass pass)) (running : ¬ pass.IsEnded) :
    ∃ after, session.task? before.tasks.length = some (.call (.awaitingPass number after)) := by
  obtain ⟨caller, after, waits⟩ := lone.attended.attended number pass stands running
  by_cases own : caller = before.tasks.length
  · exact ⟨after, own ▸ waits⟩
  · obtain ⟨outcome, same⟩ := lone.others caller _ own waits
    cases same

private theorem passes_move (lone : LoneCall before request session)
    (move : Move session mover next) (older : before.tasks.length < session.tasks.length)
    {number : TaskId} {pass : Pass α} (stands : next.task? number = some (.pass pass))
    (running : ¬ pass.IsEnded) : before.task? number = none ∧ request.AsksFor pass.root := by
  rcases move.pass_origin stands with ⟨new, -⟩ | ⟨earlier, stood, root, ends⟩
  · refine ⟨?_, ?_⟩
    · rw [task?, List.getElem?_eq_none_iff] at new ⊢
      omega
    · cases move.requests with
      | kept _ old => exact absurd new (old number pass stands)
      | asked made root stood asks _ started =>
        cases (lone.eq_of_call move stood).2
        rw [started number pass stands new]
        exact asks
  · rw [← root]
    exact lone.passes number earlier stood fun ended => running (ends ended)

theorem event (lone : LoneCall before request session) {event : Event α}
    (alone : ∀ other, event ≠ .call other) (happened : session.after? event = some next) :
    LoneCall before request next := by
  obtain ⟨point, stood, serves⟩ := lone.own
  have own : ∃ point, next.task? before.tasks.length = some (.call point) ∧ point.IsOf request := by
    rcases after?_call stood happened with ⟨-, after, _, step, -, there⟩ | ⟨-, stays⟩
    · exact ⟨after, there, step.isOf serves⟩
    · exact ⟨point, stays, serves⟩
  have attended := lone.attended.event lone.current happened
  have tabled := lone.tabled.event happened
  have current := lone.current.event lone.tabled happened
  cases after?_move happened with
  | call other => exact absurd rfl (alone other)
  | step mover _ move =>
    refine ⟨own, ?_, ?_, attended, tabled, current⟩
    · intro other point different stands
      rcases move.call_origin stands with ⟨-, stood⟩ | ⟨rfl, earlier, _, stood, -⟩
      · exact lone.others other point different stood
      · exact absurd (lone.eq_of_call move stood).1 different
    · exact fun _ _ => lone.passes_move move (lt_of_task? stood)
  | leave => exact ⟨own, lone.others, lone.passes, attended, tabled, current⟩
  | files => exact ⟨own, lone.others, lone.passes, attended, tabled, current⟩
  | time => exact ⟨own, lone.others, lone.passes, attended, tabled, current⟩

/-- An update asks for no pass. -/
theorem passes_ended {path filePath : Argument String}
    (lone : LoneCall before (.update path filePath) session) {number : TaskId} {pass : Pass α}
    (stands : session.task? number = some (.pass pass)) : pass.IsEnded := by
  by_contra running
  cases (lone.passes number pass stands running).2

/-- A step leaves the snapshot of the project as it is, or the update stores its file in it. -/
theorem snapshotOf_of_update {path filePath : Argument String} {root : String}
    {snapshot : Snapshot α} (lone : LoneCall before (.update path filePath) session)
    (move : Move session mover next) (current : session.snapshotOf root = some snapshot) :
    next.snapshotOf root = some snapshot ∨
      ∃ target draft, session.task? mover = some (.call (.storing target draft)) ∧
        next.snapshotOf root = some (refreshed snapshot target.relative draft) := by
  obtain ⟨stored, own⟩ := (session.snapshotOf_eq_some_iff root snapshot).mp current
  generalize found : next.snapshot = after
  cases found ▸ move.snapshot with
  | kept => exact .inl ((next.snapshotOf_eq_some_iff _ _).mpr ⟨found.trans stored, own⟩)
  | dropped request stands drops =>
    cases (lone.eq_of_call move stands).2
    cases drops
  | answers stood query options known asked =>
    cases asked with
    | search _ _ _ _ stands => cases (lone.eq_of_call move stands).2
    | context wish stands => cases (lone.eq_of_call move stands).2
  | refreshed target draft stood stands there =>
    cases stored.symm.trans ((session.snapshotOf_eq_some_iff _ _).mp there).1
    exact .inr ⟨target, draft, stands, (next.snapshotOf_eq_some_iff _ _).mpr
      ⟨found, projectPath_refreshed.trans own⟩⟩
  | swapped pass stands point =>
    obtain ⟨outcome, ended⟩ := lone.passes_ended stands
    cases point.symm.trans ended

end LoneCall

/-- A call that is made while no other is in progress is made alone. -/
theorem IsNew.loneCall {events : List (Event α)} (new : session.IsNew)
    (reached : session.replay? events = some before) (idle : before.IsIdle)
    (made : before.after? (.call request) = some next) : LoneCall before request next := by
  have attended : before.Attended := new.attended_of_run reached
  have tabled : before.Tabled := new.tabled_of_run reached
  have current : before.Current := new.current_of_run reached
  have attendedNext := attended.event current made
  have tabledNext := tabled.event made
  have currentNext := current.event tabled made
  cases made
  refine ⟨⟨_, (task?_call _ _ _).trans (if_pos rfl), rfl⟩, ?_, ?_, attendedNext, tabledNext,
    currentNext⟩
  · intro other point different stands
    rw [task?_call, if_neg different] at stands
    exact idle other point stands
  · intro number pass stands running
    exact absurd (idle.isEnded attended (pass_of_call stands)) running

end Session

end CodeSearch
