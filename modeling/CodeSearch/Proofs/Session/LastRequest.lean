import CodeSearch.Proofs.Index.FileEntries
import CodeSearch.Proofs.Session.CachedAnswers
import CodeSearch.Proofs.Session.Requests

/-! # The project that was asked for last

When the last request for an index returns, its project is the one that is indexed, and it stays so.
The request is answered from the snapshot, or it waits for a pass which no other may overtake. The
one exception is a pass that has ended and is still entered as in flight: a request that joins it
returns, though the pass may have been discarded.
-/

namespace CodeSearch

namespace Session

variable {α : Type} [Scalar α]

/-- The request can return with nothing but the index of its project: it is there, or the request
waits for a pass over the project that has not ended well, or it has failed. -/
inductive Assured (root : String) (id : TaskId) (session : Session α) : Prop where
  | indexed (snapshot : Snapshot α) (current : session.snapshot = some snapshot)
      (own : snapshot.projectPath = root)
  | waits (number : TaskId) (pass : Pass α)
      (stands : session.task? id = some (.call (.awaitingPass number .report)))
      (there : session.task? number = some (.pass pass)) (project : pass.root = root)
      (ahead : ∀ report, pass.point ≠ .ended (.ok report))
  | failed (fault : CallFault) (told : session.outcome? id = some (.error fault))

variable {session shared next begun final : Session α} {events : List (Event α)} {id : TaskId}
  {root : String}

private theorem Assured.mono (assured : session.Assured root id)
    (snapshot : next.snapshot = session.snapshot)
    (tasks : ∀ other task, session.task? other = some task → next.task? other = some task) :
    next.Assured root id := by
  cases assured with
  | indexed current stood own => exact .indexed current (snapshot.trans stood) own
  | waits number pass stands there project ahead =>
    exact .waits number pass (tasks _ _ stands) (tasks _ _ there) project ahead
  | failed fault told =>
    exact .failed fault (by rw [outcome?, tasks _ _ (task?_of_outcome told)])

/-- No request comes with the run that has a project indexed or may drop the snapshot. -/
def IsLast (begun : Session α) (events : List (Event α)) : Prop :=
  ∀ request, begun.Comes events request → ¬ request.MayDrop ∧ ∀ root, ¬ request.AsksFor root

/-- Since the last request, its project is the one that is wanted. -/
structure Secures (begun : Session α) (events : List (Event α)) (root : String) (id : TaskId)
    (session : Session α) : Prop where
  drafts : session.OwnDrafts
  come : begun.CallsCome events session
  wanted : session.requestedRoot = some root
  assured : session.Assured root id

private theorem Move.awaited_pass (move : Move session id next) {number : TaskId} {pass : Pass α}
    (there : session.task? number = some (.pass pass))
    (wanted : session.requestedRoot = some pass.root)
    (ahead : ∀ report, pass.point ≠ .ended (.ok report)) :
    next.snapshot = some pass.draft ∨ ∃ after, next.task? number = some (.pass after) ∧
      after.root = pass.root ∧ ∀ report, after.point ≠ .ended (.ok report) := by
  obtain ⟨after, stands, root, -⟩ := move.pass_stays there
  by_cases own : number = id
  · subst own
    obtain ⟨before, shared, found, step, rfl⟩ := move.pass_own stands
    cases there.symm.trans found
    cases step with
    | swaps => exact .inl rfl
    | discards _ superseded => exact absurd wanted superseded
    | quiet _ quiet => exact .inr ⟨after, stands, root.symm, by cases quiet <;> nofun⟩
    | fails => exact .inr ⟨_, stands, root.symm, nofun⟩
    | loads => exact .inr ⟨_, stands, root.symm, nofun⟩
    | queued => exact .inr ⟨_, stands, root.symm, nofun⟩
  · obtain ⟨unmoved, found, point⟩ := move.pass_unmoved own there
    cases stands.symm.trans found
    exact .inr ⟨after, stands, root.symm, point ▸ ahead⟩

private theorem Secures.own_snapshot (secures : begun.Secures events root id session)
    (last : begun.IsLast events) {other : TaskId} {found : Option (Snapshot α)}
    (move : SnapshotMove session other found) {snapshot : Snapshot α}
    (current : session.snapshot = some snapshot) (own : snapshot.projectPath = root) :
    ∃ after, found = some after ∧ after.projectPath = root := by
  cases move with
  | kept => exact ⟨snapshot, current, own⟩
  | dropped request stands drops =>
    exact absurd drops (last request (secures.come other request stands)).1
  | answers before _ _ stood =>
    cases current.symm.trans stood
    exact ⟨_, rfl, own⟩
  | refreshed target draft before _ stood =>
    cases current.symm.trans ((session.snapshotOf_eq_some_iff _ _).mp stood).1
    exact ⟨_, rfl, projectPath_refreshed.trans own⟩
  | swapped pass stands _ wanted =>
    refine ⟨pass.draft, rfl, ?_⟩
    rw [secures.drafts other pass stands]
    exact Option.some.inj (wanted.symm.trans secures.wanted)

private theorem Secures.step (secures : begun.Secures events root id session)
    (last : begun.IsLast events) {other : TaskId}
    (happened : session.after? (.step other) = some next) (move : Move session other next) :
    next.Assured root id := by
  cases secures.assured with
  | indexed snapshot current own =>
    obtain ⟨after, there, same⟩ := secures.own_snapshot last move.snapshot current own
    exact .indexed after there same
  | waits number pass stands there project ahead =>
    rcases move.awaited_pass there (project ▸ secures.wanted) ahead with
      swapped | ⟨after, found, same, ahead⟩
    · exact .indexed _ swapped ((secures.drafts number pass there).trans project)
    rcases after?_call stands happened with ⟨-, point, shared, step, -, now⟩ | ⟨-, stays⟩
    · cases step with
      | quiet _ _ quiet =>
        cases quiet with
        | failedWith _ _ fault => exact .failed fault (by rw [outcome?, now])
        | reported _ report told =>
          rw [passOutcome?, there] at told
          split at told
          · next outcome place =>
            cases place
            cases told
            exact absurd rfl (ahead report)
          · cases told
      | gaveUp _ _ reason => cases reason
    · exact .waits number after stays found (same.trans project) ahead
  | failed fault told => exact .failed fault (outcome?_keeps told happened)

private theorem Secures.event (secures : begun.Secures events root id session)
    (last : begun.IsLast events) {event : Event α} (member : event ∈ events)
    (happened : session.after? event = some next) : begun.Secures events root id next := by
  have drafts := secures.drafts.event happened
  have come := secures.come.event member happened
  cases after?_move happened with
  | call request =>
    exact ⟨drafts, come, secures.wanted, secures.assured.mono rfl fun _ _ stood =>
      task?_call_of stood request⟩
  | step other _ move =>
    refine ⟨drafts, come, ?_, secures.step last happened move⟩
    cases move.requests with
    | kept requested => exact requested.trans secures.wanted
    | asked request asked stood asks =>
      exact absurd asks ((last request (secures.come other request stood)).2 asked)
  | leave => exact ⟨drafts, come, secures.wanted, secures.assured.mono rfl fun _ _ stood => stood⟩
  | files => exact ⟨drafts, come, secures.wanted, secures.assured.mono rfl fun _ _ stood => stood⟩
  | time => exact ⟨drafts, come, secures.wanted, secures.assured.mono rfl fun _ _ stood => stood⟩

private theorem assured_of_index {before begun : Session α} {path : Argument String} {force : Bool}
    (tabled : before.Tabled) (entries : before.Current)
    (stands : before.task? id = some (.call (.made (.index path force))))
    (accepted : path.projectPath = .ok root)
    (joins : ∀ pass, before.snapshotOf root = none → before.inFlight.get? root = some pass →
      pass ∉ before.leaving)
    (begins : before.after? (.step id) = some begun) :
    (∃ fault, begun.outcome? id = some (.error fault)) ∨
      begun.requestedRoot = some root ∧ begun.Assured root id := by
  -- only a request that joins a pass that is leaving is not assured of the index
  obtain ⟨-, point, shared, step, same, there⟩ | ⟨other, -⟩ := after?_call stands begins
  swap
  · exact absurd rfl other
  -- what is entered for the project and is not leaving is a pass that has not ended
  have waits : ∀ number, point = .awaitingPass number .report →
      begun.inFlight.get? root = some number → number ∉ begun.leaving →
      begun.Assured root id := by
    rintro number rfl entered stays
    obtain ⟨pass, found, project, leaves⟩ := entries.event tabled begins root number entered
    exact .waits number pass there found project fun report ended => stays (leaves ⟨_, ended⟩)
  cases step with
  | quiet _ _ quiet =>
    cases quiet with
    | refused _ fault => exact .inl ⟨fault, by rw [outcome?, there]⟩
  | answered _ _ _ _ _ named met =>
    cases accepted.symm.trans named
    refine .inr ⟨same ▸ met.requestedRoot, ?_⟩
    cases met with
    | served snapshot current =>
      have stood := (before.snapshotOf_eq_some_iff _ _).mp current
      exact .indexed snapshot (same ▸ stood.1) stood.2
  | indexes _ _ _ _ number named met =>
    cases accepted.symm.trans named
    refine .inr ⟨same ▸ met.requestedRoot, ?_⟩
    cases met with
    | joined _ entered absent =>
      exact waits number rfl (same ▸ entered) (same ▸ joins number absent entered)
    | started =>
      -- a pass that has just been started cannot be leaving: those that leave were there before
      refine waits _ rfl (same ▸ (OrderedMap.get?_insert _ _ _ _).trans (if_pos rfl)) ?_
      intro leaves
      obtain ⟨pass, stood, -⟩ := tabled.leaving _ (same ▸ leaves)
      exact Nat.lt_irrefl _ (lt_of_task? stood)
  | gaveUp _ _ reason => cases reason

/-- When the last request for an index returns, its project is the one that is indexed, and it stays
so: no pass over another project replaces the snapshot. The one condition is that the request joins
no pass that has ended and is still entered as in flight. -/
theorem last_requested_project_is_indexed {before begun final : Session α}
    {earlier later : List (Event α)} {path : Argument String} {force : Bool} {report : PassReport}
    (new : session.IsNew) (reached : session.replay? earlier = some before)
    (stands : before.task? id = some (.call (.made (.index path force))))
    (accepted : path.projectPath = .ok root)
    (joins : ∀ pass, before.snapshotOf root = none → before.inFlight.get? root = some pass →
      pass ∉ before.leaving)
    (begins : before.after? (.step id) = some begun) (last : begun.IsLast later)
    (run : begun.replay? later = some final)
    (told : final.outcome? id = some (.ok (.indexed report))) :
    ∃ snapshot, final.snapshot = some snapshot ∧ snapshot.projectPath = root := by
  have drafts := replay?_keeps (fun _ _ _ _ drafts => drafts.event) new.ownDrafts reached
  have tabled := new.tabled_of_run reached
  have entries := new.current_of_run reached
  rcases assured_of_index tabled entries stands accepted joins begins with
    ⟨fault, failed⟩ | ⟨wanted, assured⟩
  · have atEnd := replay?_keeps (fun _ _ _ _ => outcome?_keeps) failed run
    cases atEnd.symm.trans told
  have start : begun.Secures later root id begun :=
    ⟨drafts.event begins, fun other _ stands => .inr ⟨other, stands⟩, wanted, assured⟩
  have secures : begun.Secures later root id final := by
    refine replay?_keeps ?_ start run
    intro current event next member secures happened
    exact secures.event last member happened
  cases secures.assured with
  | indexed snapshot current own => exact ⟨snapshot, current, own⟩
  | waits number pass stands => cases (task?_of_outcome told).symm.trans stands
  | failed fault failed => cases failed.symm.trans told

/-- A pass over the project comes to replace the snapshot when another project has been asked for.
-/
def discardsPass : List (Event Float) :=
  [.call (.index (.given "/p") false), .step 0] ++ List.replicate 4 (.step 1) ++
    List.replicate 3 (.step 2) ++ List.replicate 9 (.step 1) ++
    [.call (.index (.given "/q") false), .step 3, .step 1]

/-- A request that joins a discarded pass before that has left the table returns, though nothing is
indexed and no other request comes. -/
theorem request_joins_discarded_pass :
    ∃ (before begun final : Session Float) (report : PassReport),
      (opened {} smallProject 0).replay?
        (discardsPass ++ [.call (.index (.given "/p") false)]) = some before ∧
      before.task? 5 = some (.call (.made (.index (.given "/p") false))) ∧
      before.after? (.step 5) = some begun ∧ begun.IsLast [.step 5] ∧
      begun.replay? [.step 5] = some final ∧
      final.outcome? 5 = some (.ok (.indexed report)) ∧ final.snapshot = none := by
  have reached : (((opened {} smallProject (0 : Float)).replay? discardsPass).bind fun middle =>
      if middle.tasks.length = 5 then
        (middle.after? (.call (.index (.given "/p") false))).bind fun before =>
          (before.after? (.step 5)).bind fun begun =>
            if begun.tasks.all hasBegun = true then
              (begun.replay? [.step 5]).filter fun final =>
                (final.isTold 5 fun | .indexed _ => true | _ => false) && final.snapshot.isNone
            else none
      else none).isSome = true := by decide +kernel
  obtain ⟨final, reached⟩ := Option.isSome_iff_exists.mp reached
  obtain ⟨middle, discarded, reached⟩ := Option.bind_eq_some_iff.mp reached
  obtain ⟨five, reached⟩ := Option.ite_none_right_eq_some.mp reached
  obtain ⟨before, called, reached⟩ := Option.bind_eq_some_iff.mp reached
  obtain ⟨begun, begins, reached⟩ := Option.bind_eq_some_iff.mp reached
  obtain ⟨calm, reached⟩ := Option.ite_none_right_eq_some.mp reached
  obtain ⟨run, ends⟩ := Option.filter_eq_some_iff.mp reached
  obtain ⟨told, empty⟩ := Bool.and_eq_true_iff.mp ends
  obtain ⟨report, told⟩ : ∃ report, final.outcome? 5 = some (.ok (.indexed report)) := by
    obtain ⟨answer, ended, wanted⟩ := exists_answer_of_isTold told
    cases answer with
    | indexed report => exact ⟨report, ended⟩
    | _ => cases wanted
  have stands : before.task? 5 = some (.call (.made (.index (.given "/p") false))) := by
    cases called
    rw [task?_call, if_pos five.symm]
  refine ⟨before, begun, final, report, replay?_concat discarded called, stands, begins, ?_, run,
    told, Option.isNone_iff_eq_none.mp empty⟩
  exact fun request comes => absurd comes (not_comes _ (by simp) calm)

end Session

end CodeSearch
