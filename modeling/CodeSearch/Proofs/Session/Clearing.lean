import CodeSearch.Proofs.Index.FileEntries
import CodeSearch.Proofs.Session.CachedAnswers
import CodeSearch.Proofs.Session.Requests

/-! # A cleared index

Clearing drops the snapshot at once and stops nothing. An update that was under way finds that its
project is no longer indexed and stores nothing. A pass that was under way finishes, and if its
project is still the one that was asked for last, it brings the index back. Where no such pass was
under way, there is no snapshot until a project is asked for again and a pass over it has ended.
-/

namespace CodeSearch

namespace Session

variable {α : Type} [Scalar α]

/-- A project is asked for in a run. -/
def AskedIn (begun : Session α) (events : List (Event α)) (root : String) : Prop :=
  ∃ request : Request α, request.AsksFor root ∧ begun.Comes events request

/-- A pass over a project has ended well that had not ended before. -/
def PassedSince (begun session : Session α) (root : String) : Prop :=
  ∃ id pass report, session.task? id = some (.pass pass) ∧ pass.root = root ∧
    pass.point = .ended (.ok report) ∧
    ∀ before, begun.task? id = some (.pass before) → ¬ before.IsEnded

/-- Any snapshot is one that was asked for and built in the run. Until a project is asked for, no
pass that could replace the snapshot is under way. -/
structure Renews (begun : Session α) (events : List (Event α)) (session : Session α) : Prop where
  drafts : session.OwnDrafts
  come : begun.CallsCome events session
  settled : ∀ root, session.requestedRoot = some root → begun.AskedIn events root ∨
    ∀ id pass, session.task? id = some (.pass pass) → pass.root = root → pass.IsEnded
  ended : ∀ id pass, begun.task? id = some (.pass pass) → pass.IsEnded →
    ∃ now, session.task? id = some (.pass now) ∧ now.IsEnded
  shown : ∀ snapshot, session.snapshot = some snapshot →
    begun.AskedIn events snapshot.projectPath ∧ begun.PassedSince session snapshot.projectPath

variable {begun session next : Session α} {events : List (Event α)} {id : TaskId}

private theorem PassedSince.move {root : String} (passed : begun.PassedSince session root)
    (move : Move session id next) : begun.PassedSince next root := by
  obtain ⟨other, before, report, stood, project, ended, late⟩ := passed
  obtain ⟨pass, stands, same, ended⟩ := move.ended_stays stood ended
  exact ⟨other, pass, report, stands, same.trans project, ended, late⟩

/-- With the step in which it may replace the snapshot, a pass ends well. -/
theorem Move.ends_swapping {pass : Pass α} (move : Move session id next)
    (stood : session.task? id = some (.pass pass)) (point : pass.point = .swapping) :
    ∃ after, next.task? id = some (.pass after) ∧ after.root = pass.root ∧
      after.point = .ended (.ok pass.report) := by
  obtain ⟨after, stands, -⟩ := move.pass_stays stood
  obtain ⟨before, shared, found, step, -⟩ := move.pass_own stands
  cases stood.symm.trans found
  refine ⟨after, stands, step.running.2, ?_⟩
  cases step with
  | quiet _ move => cases move <;> simp_all
  | fails => simp_all
  | loads => simp_all
  | queued => simp_all
  | swaps => rfl
  | discards => rfl

private theorem Renews.shown_move (renews : begun.Renews events session)
    (move : Move session id next) {snapshot : Snapshot α} (current : next.snapshot = some snapshot) :
    begun.AskedIn events snapshot.projectPath ∧ begun.PassedSince next snapshot.projectPath := by
  have kept : ∀ before, session.snapshot = some before →
      before.projectPath = snapshot.projectPath →
      begun.AskedIn events snapshot.projectPath ∧ begun.PassedSince next snapshot.projectPath := by
    intro before stood same
    obtain ⟨asked, passed⟩ := renews.shown before stood
    rw [← same]
    exact ⟨asked, passed.move move⟩
  have change := move.snapshot
  rw [current] at change
  generalize place : some snapshot = found at change
  cases change with
  | kept => exact kept snapshot place.symm rfl
  | dropped => cases place
  | answers before _ _ stood => cases place; exact kept before stood rfl
  | refreshed target draft before _ stood =>
    cases place
    exact kept before ((session.snapshotOf_eq_some_iff _ _).mp stood).1 projectPath_refreshed.symm
  | swapped pass stands point wanted =>
    cases place
    have running : ¬ pass.IsEnded := by
      rintro ⟨outcome, ended⟩
      cases point.symm.trans ended
    rw [renews.drafts id pass stands]
    refine ⟨?_, ?_⟩
    · rcases renews.settled pass.root wanted with asked | ended
      · exact asked
      · exact absurd (ended id pass stands rfl) running
    · obtain ⟨after, standsAfter, project, ended⟩ := move.ends_swapping stands point
      refine ⟨id, after, pass.report, standsAfter, project, ended, ?_⟩
      intro before there early
      obtain ⟨now, found, endedNow⟩ := renews.ended id before there early
      cases stands.symm.trans found
      exact running endedNow

private theorem Renews.settled_move (renews : begun.Renews events session)
    (move : Move session id next) {root : String} (wanted : next.requestedRoot = some root) :
    begun.AskedIn events root ∨
      ∀ id pass, next.task? id = some (.pass pass) → pass.root = root → pass.IsEnded := by
  cases move.requests with
  | kept requested old =>
    rw [requested] at wanted
    refine (renews.settled root wanted).imp_right ?_
    intro settled other pass stands project
    rcases move.pass_origin stands with ⟨new, -⟩ | ⟨before, stood, same, ends⟩
    · exact absurd new (old other pass stands)
    · exact ends (settled other before stood (same.trans project))
  | asked request asked stood asks requested =>
    cases requested.symm.trans wanted
    exact .inl ⟨request, asks, renews.come id request stood⟩

private theorem Renews.event (renews : begun.Renews events session) {event : Event α}
    (member : event ∈ events) (happened : session.after? event = some next) :
    begun.Renews events next := by
  have drafts := renews.drafts.event happened
  have come := renews.come.event member happened
  cases after?_move happened with
  | call request =>
    refine ⟨drafts, come, ?_, ?_, ?_⟩
    · intro root wanted
      exact (renews.settled root wanted).imp_right fun settled id pass stands =>
        settled id pass (pass_of_call stands)
    · intro id pass there early
      obtain ⟨now, stood, ended⟩ := renews.ended id pass there early
      exact ⟨now, task?_call_of stood request, ended⟩
    · intro snapshot current
      obtain ⟨asked, id, pass, report, stood, rest⟩ := renews.shown snapshot current
      exact ⟨asked, id, pass, report, task?_call_of stood request, rest⟩
  | step id _ move =>
    refine ⟨drafts, come, fun root => renews.settled_move move, ?_,
      fun snapshot => renews.shown_move move⟩
    intro other pass there early
    obtain ⟨now, stood, ended⟩ := renews.ended other pass there early
    obtain ⟨after, stands, -, ends⟩ := move.pass_stays stood
    exact ⟨after, stands, ends ended⟩
  | leave => exact ⟨drafts, come, renews.settled, renews.ended, renews.shown⟩
  | files => exact ⟨drafts, come, renews.settled, renews.ended, renews.shown⟩
  | time => exact ⟨drafts, come, renews.settled, renews.ended, renews.shown⟩

private theorem snapshot_of_clears {before cleared : Session α} {path : Option (Argument String)}
    {root : Option String} (stands : before.task? id = some (.call (.made (.clear path))))
    (accepted : path.mapM Argument.projectPath = .ok root)
    (whole : ∀ snapshot, before.snapshot = some snapshot → ∀ named ∈ root,
      snapshot.projectPath = named)
    (clears : before.after? (.step id) = some cleared) :
    cleared.snapshot = none ∧ cleared.outcome? id = some (.ok .cleared) := by
  change before.step? id = some cleared at clears
  simp only [step?, stands, stepCall, begin, accepted, Option.some.injEq] at clears
  subst clears
  refine ⟨?_, ?_⟩
  · change (before.clear root).snapshot = none
    cases root with
    | none => rfl
    | some named =>
      refine Option.filter_eq_none_iff.mpr ?_
      intro snapshot current other
      rw [whole snapshot current named rfl, bne_self_eq_false] at other
      cases other
  · have present : id < (before.clear root).tasks.length := by
      cases root <;> exact lt_of_task? stands
    rw [outcome?, endCall, setCall, task?_setTask _ _ _ _ present, if_pos rfl]

/-- No pass over the project that was asked for last is under way. -/
def NothingAwaited (session : Session α) : Prop :=
  ∀ id pass, session.task? id = some (.pass pass) → session.requestedRoot = some pass.root →
    pass.IsEnded

instance (pass : Pass α) : Decidable pass.IsEnded :=
  inferInstanceAs (Decidable (Task.pass pass).HasEnded)

/-- The task is a pass over a project, and it has not ended. -/
def IsUnderWay (root : Option String) : Task α → Prop
  | .pass pass => root = some pass.root ∧ ¬ pass.IsEnded
  | _ => False

instance (root : Option String) (task : Task α) : Decidable (IsUnderWay root task) :=
  match task with
  | .pass pass => inferInstanceAs (Decidable (root = some pass.root ∧ ¬ pass.IsEnded))
  | .call _ => .isFalse fun underWay => underWay
  | .load _ _ _ _ => .isFalse fun underWay => underWay

theorem nothingAwaited_iff (session : Session α) : session.NothingAwaited ↔
    ∀ task ∈ session.tasks, ¬ IsUnderWay session.requestedRoot task := by
  constructor
  · intro ended task member underWay
    obtain ⟨id, stands⟩ := List.mem_iff_getElem?.mp member
    cases task with
    | pass pass => exact underWay.2 (ended id pass stands underWay.1)
    | call => exact underWay
    | load => exact underWay
  · intro none id pass stands wanted
    by_contra running
    exact none (.pass pass) (List.mem_of_getElem? stands) ⟨wanted, running⟩

instance (session : Session α) : Decidable session.NothingAwaited :=
  decidable_of_iff _ session.nothingAwaited_iff.symm

/-- After the index is cleared there is no snapshot, whatever passes and updates were under way,
until a project is asked for and a pass over it has ended since. The one condition is that no pass
over the project that was asked for last was under way. -/
theorem cleared_index_stays_cleared {before cleared final : Session α}
    {earlier later : List (Event α)} {path : Option (Argument String)} {root : Option String}
    (new : session.IsNew) (reached : session.replay? earlier = some before)
    (stands : before.task? id = some (.call (.made (.clear path))))
    (accepted : path.mapM Argument.projectPath = .ok root)
    (whole : ∀ snapshot, before.snapshot = some snapshot → ∀ named ∈ root,
      snapshot.projectPath = named)
    (clears : before.after? (.step id) = some cleared)
    (settled : cleared.NothingAwaited)
    (run : cleared.replay? later = some final) :
    cleared.outcome? id = some (.ok .cleared) ∧ cleared.snapshot = none ∧
      (final.snapshot = none ∧ final.totals = {} ∧
          (∀ query options, (final.search query options).1 = []) ∨
        ∃ snapshot, final.snapshot = some snapshot ∧
          cleared.AskedIn later snapshot.projectPath ∧
          cleared.PassedSince final snapshot.projectPath) := by
  obtain ⟨empty, told⟩ := snapshot_of_clears stands accepted whole clears
  have drafts := replay?_keeps (fun _ _ _ _ drafts => drafts.event) new.ownDrafts reached
  have start : cleared.Renews later cleared :=
    { drafts := drafts.event clears
      come := fun other request stands => .inr ⟨other, stands⟩
      settled := fun root wanted => .inr fun other pass stands project =>
        settled other pass stands (project ▸ wanted)
      ended := fun other pass stands ended => ⟨pass, stands, ended⟩
      shown := fun snapshot current => by rw [empty] at current; cases current }
  have renews : cleared.Renews later final := by
    refine replay?_keeps ?_ start run
    intro current event after member renews happened
    exact renews.event member happened
  refine ⟨told, empty, ?_⟩
  cases current : final.snapshot with
  | none =>
    refine .inl ⟨rfl, by rw [totals, current]; rfl, ?_⟩
    intro query options
    rw [search, current]
  | some snapshot => exact .inr ⟨snapshot, rfl, renews.shown snapshot current⟩

/-- The project is indexed, and an update of its file has begun. -/
def indexThenUpdate : List (Event Float) :=
  indexAndSearch ++ [.leave 1, .call (.update (.given "/p") (.given "a.py"))] ++
    List.replicate 5 (.step 4)

/-- The index is cleared while the update is under way, and the update ends without storing. -/
theorem cleared_small_project_stays_cleared :
    ∃ before cleared final : Session Float,
      (opened {} smallProject 0).replay?
        (indexThenUpdate ++ [.call (.clear (some (.given "/p")))]) = some before ∧
      before.snapshot.isSome = true ∧ before.after? (.step 5) = some cleared ∧
      cleared.replay? (List.replicate 7 (.step 4)) = some final ∧
      cleared.outcome? 5 = some (.ok .cleared) ∧ cleared.snapshot = none ∧
      (final.snapshot = none ∧ final.totals = {} ∧
          (∀ query options, (final.search query options).1 = []) ∨
        ∃ snapshot, final.snapshot = some snapshot ∧
          cleared.AskedIn (List.replicate 7 (.step 4)) snapshot.projectPath ∧
          cleared.PassedSince final snapshot.projectPath) := by
  have reached : (((opened {} smallProject (0 : Float)).replay? indexThenUpdate).bind fun middle =>
      if middle.tasks.length = 5 then
        (middle.after? (.call (.clear (some (.given "/p"))))).bind fun before =>
          before.snapshot.bind fun snapshot => (before.after? (.step 5)).bind fun cleared =>
            if snapshot.projectPath = "/p" ∧ cleared.NothingAwaited then
              cleared.replay? (List.replicate 7 (.step 4))
            else none
      else none).isSome = true := by decide +kernel
  obtain ⟨final, reached⟩ := Option.isSome_iff_exists.mp reached
  obtain ⟨middle, begun, reached⟩ := Option.bind_eq_some_iff.mp reached
  obtain ⟨five, reached⟩ := Option.ite_none_right_eq_some.mp reached
  obtain ⟨before, called, reached⟩ := Option.bind_eq_some_iff.mp reached
  obtain ⟨snapshot, current, reached⟩ := Option.bind_eq_some_iff.mp reached
  obtain ⟨cleared, clears, reached⟩ := Option.bind_eq_some_iff.mp reached
  obtain ⟨⟨named, settled⟩, run⟩ := Option.ite_none_right_eq_some.mp reached
  have whole : (opened {} smallProject (0 : Float)).replay?
      (indexThenUpdate ++ [.call (.clear (some (.given "/p")))]) = some before :=
    replay?_concat begun called
  have stands : before.task? 5 = some (.call (.made (.clear (some (.given "/p"))))) := by
    cases called
    rw [task?_call, if_pos five.symm]
  refine ⟨before, cleared, final, whole, by rw [current]; rfl, clears, run, ?_⟩
  have accepted : (some (Argument.given "/p")).mapM Argument.projectPath = .ok (some "/p") := by
    decide +kernel
  refine cleared_index_stays_cleared (opened_isNew {} smallProject 0) whole stands accepted ?_
    clears settled run
  rintro other there _ ⟨⟩
  cases current.symm.trans there
  exact named

/-- A pass walks the project when the index is cleared. -/
def clearUnderway : List (Event Float) :=
  [.call (.index (.given "/p") false), .step 0, .step 1, .step 1, .call (.clear none)]

/-- The pass goes on to its end, and nothing is asked for. -/
def passGoesOn : List (Event Float) :=
  List.replicate 2 (.step 1) ++ List.replicate 3 (.step 3) ++ List.replicate 10 (.step 1)

/-- A pass over the project that was asked for last brings the index back, though no request comes
after the clearing. -/
theorem pass_underway_restores_cleared_index :
    ∃ before cleared final : Session Float,
      (opened {} smallProject 0).replay? clearUnderway = some before ∧
      before.after? (.step 2) = some cleared ∧ cleared.outcome? 2 = some (.ok .cleared) ∧
      cleared.snapshot = none ∧ cleared.replay? passGoesOn = some final ∧
      (∀ request, ¬ cleared.Comes passGoesOn request) ∧ final.snapshot.isSome = true := by
  have reached : (((opened {} smallProject (0 : Float)).replay? clearUnderway).bind fun before =>
      (before.after? (.step 2)).bind fun cleared =>
        if cleared.snapshot.isNone = true ∧ cleared.tasks.all hasBegun = true ∧
            (cleared.isTold 2 fun | .cleared => true | _ => false) = true then
          (cleared.replay? passGoesOn).filter fun final => final.snapshot.isSome
        else none).isSome = true := by decide +kernel
  obtain ⟨final, reached⟩ := Option.isSome_iff_exists.mp reached
  obtain ⟨before, run, reached⟩ := Option.bind_eq_some_iff.mp reached
  obtain ⟨cleared, clears, reached⟩ := Option.bind_eq_some_iff.mp reached
  obtain ⟨⟨empty, begun, told⟩, reached⟩ := Option.ite_none_right_eq_some.mp reached
  obtain ⟨goesOn, shown⟩ := Option.filter_eq_some_iff.mp reached
  have ended : cleared.outcome? 2 = some (.ok .cleared) := by
    obtain ⟨answer, ended, wanted⟩ := exists_answer_of_isTold told
    cases answer with
    | cleared => exact ended
    | _ => cases wanted
  refine ⟨before, cleared, final, run, clears, ended, Option.isNone_iff_eq_none.mp empty, goesOn, ?_,
    shown⟩
  exact fun request => not_comes passGoesOn (by simp [passGoesOn]) begun

end Session

end CodeSearch
