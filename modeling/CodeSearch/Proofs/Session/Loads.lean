import CodeSearch.Proofs.Index.InOrder
import CodeSearch.Proofs.Session.Provenance
import CodeSearch.Proofs.Session.Rest

/-! # Passes and their loads

A pass starts loads when it has done with walking, and waits for those that run. What a load has to
tell it tells at its end: its pass hears of a failure at once, wherever it stands, and of nothing
else that others do.
-/

namespace CodeSearch

open Loading Walk

variable {α : Type} [Scalar α]

/-- What a load has told, which it does at its end. -/
def LoadState.messages : LoadState α → List String
  | .running _ => []
  | .ended result => result.messages

/-- A load that runs is one that its pass waits for, and none of a pass was started while it walked.
-/
def LoadState.IsAwaited (load : TaskId) (point : PassPoint α) : LoadState α → Prop
  | .running _ => ∃ loads rest, point = .collecting loads rest ∧ load ∈ loads
  | .ended _ => ∀ pending found, point ≠ .walking pending found

omit [Scalar α] in
theorem LoadState.IsAwaited.has_walked {load : TaskId} {point : PassPoint α} {state : LoadState α}
    (awaited : state.IsAwaited load point) (pending : List Target) (found : List String) :
    point ≠ .walking pending found := by
  cases state with
  | running =>
    obtain ⟨loads, rest, rfl, -⟩ := awaited
    exact nofun
  | ended => exact awaited pending found

namespace Session

variable {session shared next : Session α} {id mover load : TaskId} {pass : Pass α}
  {root path : String}

/-! ## What loads have told -/

/-- What a load has told. -/
def messagesOf (session : Session α) (load : TaskId) : List String :=
  (session.loadResult? load).toList.flatMap LoadResult.messages

/-- What loads have told, in the order in which they were started. -/
def told (session : Session α) (loads : List TaskId) : List String :=
  loads.flatMap session.messagesOf

theorem messagesOf_load {owner : TaskId} {state : LoadState α}
    (stands : session.task? load = some (.load owner root path state)) :
    session.messagesOf load = state.messages := by
  rw [messagesOf, loadResult?, stands]
  cases state with
  | running => rfl
  | ended result => exact List.flatMap_singleton _ _

theorem messagesOf_congr (same : next.task? load = session.task? load) :
    next.messagesOf load = session.messagesOf load := by
  rw [messagesOf, messagesOf, loadResult?, loadResult?, same]

/-- Loads that have just been started have told nothing. -/
theorem told_of_running {loads : List TaskId}
    (running : ∀ load ∈ loads, session.loadResult? load = none) : session.told loads = [] := by
  rw [told, List.flatMap_eq_nil_iff]
  intro load member
  rw [messagesOf, running load member]
  rfl

theorem told_congr {loads : List TaskId}
    (same : ∀ load ∈ loads, next.messagesOf load = session.messagesOf load) :
    next.told loads = session.told loads := by
  rw [told, told]
  exact List.flatMap_congr same

/-- When one of several loads fails, one message is added to what they have told. -/
theorem told_of_failure {loads : List TaskId} {message : String} (distinct : loads.Nodup)
    (member : load ∈ loads) (none : session.messagesOf load = [])
    (failed : next.messagesOf load = [message])
    (quiet : ∀ other ∈ loads, other ≠ load → next.messagesOf other = session.messagesOf other) :
    (next.told loads).Perm (session.told loads ++ [message]) := by
  induction loads with
  | nil => cases member
  | cons first rest ih =>
    obtain ⟨apart, distinct⟩ := List.nodup_cons.mp distinct
    have unchanged : ∀ other ∈ rest, other ≠ load →
        next.messagesOf other = session.messagesOf other :=
      fun other inRest => quiet other (List.mem_cons_of_mem _ inRest)
    rcases List.mem_cons.mp member with rfl | inRest
    · have same : next.told rest = session.told rest :=
        told_congr fun other inRest => unchanged other inRest fun same => apart (same ▸ inRest)
      change (next.messagesOf load ++ next.told rest).Perm
        (session.messagesOf load ++ session.told rest ++ [message])
      rw [failed, none, same]
      exact List.perm_append_comm
    · have different : first ≠ load := fun same => apart (same ▸ inRest)
      change (next.messagesOf first ++ next.told rest).Perm
        (session.messagesOf first ++ session.told rest ++ [message])
      rw [quiet first List.mem_cons_self different, List.append_assoc]
      exact (ih distinct inRest unchanged).append_left _

/-! ## What a pass notices of others -/

/-- What a pass notices of a move of another task: nothing, or that one of its loads has failed. -/
inductive Notices (session next : Session α) (id : TaskId) (pass : Pass α) : Prop where
  | nothing (stands : next.task? id = some (.pass pass))
      (quiet : ∀ load root path state, session.task? load = some (.load id root path state) →
        next.messagesOf load = session.messagesOf load)
  | failure (load : TaskId) (root path message : String) (point : LoadPoint)
      (stood : session.task? load = some (.load id root path (.running point)))
      (failed : next.messagesOf load = [message])
      (stands : next.task? id = some (.pass (pass.told message)))
      (quiet : ∀ other root path state, other ≠ load →
        session.task? other = some (.load id root path state) →
        next.messagesOf other = session.messagesOf other)

private theorem Move.messagesOf_eq (move : Move session mover next) {owner : TaskId}
    {state : LoadState α} (stood : session.task? load = some (.load owner root path state))
    (quiet : load = mover → ∀ message,
      next.task? load ≠ some (.load owner root path (.ended (.failed message)))) :
    next.messagesOf load = session.messagesOf load := by
  obtain ⟨after, stands⟩ := move.load_stays stood
  rw [messagesOf_load stands, messagesOf_load stood]
  cases move.origin_load stands with
  | kept _ _ found => cases stood.symm.trans found; rfl
  | started _ _ _ new => cases stood.symm.trans new
  | looks _ _ _ found => cases stood.symm.trans found; rfl
  | ends point result own found =>
    cases stood.symm.trans found
    cases result with
    | failed message => exact absurd stands (quiet own message)
    | loaded => rfl
    | oversize => rfl

private theorem task?_of_others {started : List (Task α)} {task after : Task α}
    (tasks : shared.tasks = session.tasks ++ started) (present : mover < session.tasks.length)
    (different : id ≠ mover) (stood : session.task? id = some task) :
    (shared.setTask mover after).task? id = some task := by
  have there : mover < shared.tasks.length := by
    rw [tasks, List.length_append]
    exact Nat.lt_add_right _ present
  rw [task?_setTask _ _ _ _ there, if_neg (Ne.symm different), task?, tasks,
    List.getElem?_append_left (lt_of_task? stood)]
  exact stood

/-- A pass does not notice more of the moves of other tasks. -/
theorem Move.noticed (move : Move session mover next) (different : id ≠ mover)
    (stood : session.task? id = some (.pass pass)) : Notices session next id pass := by
  have alone : session.tasks = session.tasks ++ [] := (List.append_nil _).symm
  have kept : ∀ load root path state, session.task? load = some (.load id root path state) →
      load ≠ mover → next.messagesOf load = session.messagesOf load :=
    fun load root path state found apart => move.messagesOf_eq found fun own => absurd own apart
  have whole := move
  cases move with
  | call point after shared stands move =>
    refine .nothing ?_ fun load root path state found => kept load root path state found ?_
    · rcases move.tasks with same | ⟨_, _, _, same⟩
      · exact task?_of_others (same.trans alone) (lt_of_task? stands) different stood
      · exact task?_of_others same (lt_of_task? stands) different stood
    · rintro rfl
      cases stands.symm.trans found
  | pass before after shared stands move =>
    obtain ⟨paths, same⟩ := move.tasks
    refine .nothing (task?_of_others same (lt_of_task? stands) different stood) ?_
    intro load root path state found
    refine kept load root path state found ?_
    rintro rfl
    cases stands.symm.trans found
  | looks owner root path point after stands =>
    refine .nothing (task?_of_others alone (lt_of_task? stands) different stood) ?_
    intro load root path state found
    refine whole.messagesOf_eq found ?_
    rintro rfl message failed
    rw [task?_setTask _ _ _ _ (lt_of_task? stands), if_pos rfl] at failed
    cases failed
  | ends owner root path point result stands step quiet =>
    refine .nothing (task?_of_others alone (lt_of_task? stands) different stood) ?_
    intro load root path state found
    refine whole.messagesOf_eq found ?_
    rintro rfl message failed
    rw [task?_setTask _ _ _ _ (lt_of_task? stands), if_pos rfl] at failed
    cases failed
    exact quiet message rfl
  | fails owner root path point message stands =>
    have present := lt_of_task? stands
    have there := (session.task?_setTask mover mover
      (.load owner root path (.ended (.failed message))) present).trans (if_pos rfl)
    have stays : (session.setTask mover (.load owner root path (.ended (.failed message)))).task? id =
        some (.pass pass) := task?_of_others alone present different stood
    by_cases own : owner = id
    · subst own
      refine .failure mover root path message point stands ?_ ?_ fun other root' path' state apart
        found => kept other root' path' state found apart
      · exact messagesOf_load (task?_tellOwner_load _ _ _ _ _ _ _ _ there)
      · rw [tellOwner, stays]
        exact (task?_setTask _ _ _ _ (lt_of_task? stays)).trans (if_pos rfl)
    · refine .nothing ?_ fun load root' path' state found => kept load root' path' state found ?_
      · unfold tellOwner
        split
        · next found =>
          rw [setPass, task?_setTask _ _ _ _ (lt_of_task? found), if_neg own]
          exact stays
        · exact stays
      · rintro rfl
        cases stands.symm.trans found
        exact own rfl

/-! ## When loads run -/

private theorem PassMove.waitsFor {after : Pass α} (move : PassMove session id pass shared after)
    (new : session.task? load = none) (there : (shared.setPass id after).task? load ≠ none) :
    ∃ loads rest, after.point = .collecting loads rest ∧ load ∈ loads := by
  have beyond : session.tasks.length ≤ load := List.getElem?_eq_none_iff.mp new
  have within : load < shared.tasks.length := by
    refine Nat.lt_of_not_le fun beyond => there (List.getElem?_eq_none ?_)
    simpa [setPass, setTask] using beyond
  cases move with
  | loads paths =>
    refine ⟨_, _, rfl, List.mem_map.mpr ⟨load - session.tasks.length, ?_,
      Nat.add_sub_of_le beyond⟩⟩
    rw [start, List.length_append, List.length_map] at within
    exact List.mem_range.mpr (Nat.sub_lt_left_of_lt_add beyond within)
  | quiet => exact absurd within (Nat.not_lt.mpr beyond)
  | fails => exact absurd within (Nat.not_lt.mpr beyond)
  | queued => exact absurd within (Nat.not_lt.mpr beyond)
  | swaps => exact absurd within (Nat.not_lt.mpr beyond)
  | discards => exact absurd within (Nat.not_lt.mpr beyond)

private theorem PassMove.loads_ended {after : Pass α}
    (move : PassMove session id pass shared after) {loads : List TaskId} {rest : List String}
    (stands : pass.point = .collecting loads rest) :
    ∀ load ∈ loads, session.loadResult? load ≠ none := by
  cases move with
  | quiet _ move =>
    cases move with
    | collects loads' _ results stood ended =>
      cases stands.symm.trans stood
      have given := (forall₂_of_results ended).imp fun load result own =>
        (⟨Option.ne_none_iff_exists'.mpr ⟨result, own⟩, trivial⟩ :
          session.loadResult? load ≠ none ∧ True)
      exact ((List.forall₂_and_left _ _).mp given).1
    | walked _ other => cases stands.symm.trans other
    | finds _ _ _ other => cases stands.symm.trans other
    | lists _ _ _ _ other => cases stands.symm.trans other
    | completes other => cases stands.symm.trans other
    | batchDone _ other => cases stands.symm.trans other
    | embedsNext _ _ _ _ other => cases stands.symm.trans other
    | leavesOut _ _ _ other => cases stands.symm.trans other
    | adds _ _ _ other => cases stands.symm.trans other
    | embeds _ _ _ other => cases stands.symm.trans other
    | rested _ _ _ other => cases stands.symm.trans other
    | entered other => cases stands.symm.trans other
  | fails _ _ _ _ other => cases stands.symm.trans other
  | loads _ other => cases stands.symm.trans other
  | queued other => cases stands.symm.trans other
  | swaps other => cases stands.symm.trans other
  | discards other => cases stands.symm.trans other

private theorem PassMove.has_walked {after : Pass α} (move : PassMove session id pass shared after)
    (walked : ∀ pending found, pass.point ≠ .walking pending found) (pending : List Target)
    (found : List String) : after.point ≠ .walking pending found := by
  cases move with
  | quiet _ move =>
    cases move with
    | finds _ _ _ stands => exact absurd stands (walked _ _)
    | lists _ _ _ _ stands => exact absurd stands (walked _ _)
    | walked => exact nofun
    | completes => exact nofun
    | collects => exact nofun
    | batchDone => exact nofun
    | embedsNext => exact nofun
    | leavesOut => exact nofun
    | adds => exact nofun
    | embeds => exact nofun
    | rested => exact nofun
    | entered => exact nofun
  | fails => exact nofun
  | loads => exact nofun
  | queued => exact nofun
  | swaps => exact nofun
  | discards => exact nofun

/-- Every load is one of a pass that waits for it while it runs. -/
def LoadsAwaited (session : Session α) : Prop :=
  ∀ load owner root path state, session.task? load = some (.load owner root path state) →
    ∃ pass, session.task? owner = some (.pass pass) ∧ state.IsAwaited load pass.point

private theorem PassMove.isAwaited {after : Pass α} {owner : TaskId} {state : LoadState α}
    (move : PassMove session id pass shared after)
    (stood : session.task? load = some (.load owner root path state))
    (awaited : state.IsAwaited load pass.point) : state.IsAwaited load after.point := by
  -- if the load ran, the pass would not move
  cases state with
  | running =>
    obtain ⟨loads, rest, waits, member⟩ := awaited
    refine absurd ?_ (move.loads_ended waits load member)
    rw [loadResult?, stood]
  | ended => exact move.has_walked awaited

private theorem LoadsAwaited.move (awaited : session.LoadsAwaited)
    (move : Move session mover next) : next.LoadsAwaited := by
  -- a load whose pass is not the task that moves
  have elsewhere : ∀ load owner root path (before after : LoadState α), owner ≠ mover →
      session.task? load = some (.load owner root path before) →
      (∀ point, before.IsAwaited load point → after.IsAwaited load point) →
      ∃ pass, next.task? owner = some (.pass pass) ∧ after.IsAwaited load pass.point := by
    intro load owner root path before after different stood goesOn
    obtain ⟨pass, stoodPass, waits⟩ := awaited load owner root path before stood
    obtain ⟨later, stands, same⟩ := move.pass_unmoved different stoodPass
    exact ⟨later, stands, same ▸ goesOn _ waits⟩
  have ofLoad : ∀ load owner root path before, load = mover →
      session.task? load = some (.load owner root path before) → owner ≠ mover := by
    rintro load owner root path before rfl stood rfl
    obtain ⟨pass, stoodPass, -⟩ := awaited owner owner root path before stood
    cases stood.symm.trans stoodPass
  intro load owner root path state found
  cases move.origin_load found with
  | kept _ _ stood =>
    by_cases own : owner = mover
    · subst own
      obtain ⟨pass, stoodPass, waits⟩ := awaited load owner root path state stood
      obtain ⟨after, stands, -⟩ := move.pass_stays stoodPass
      obtain ⟨_, shared, stoodAt, step, -⟩ := move.pass_own stands
      cases stoodPass.symm.trans stoodAt
      exact ⟨after, stands, step.isAwaited stood waits⟩
    · exact elsewhere load owner root path state state own stood fun _ waits => waits
  | started pass own _ new stood =>
    subst own
    obtain ⟨after, stands, -⟩ := move.pass_stays stood
    obtain ⟨_, shared, -, step, rfl⟩ := move.pass_own stands
    exact ⟨after, stands, step.waitsFor new (by rw [found]; exact Option.some_ne_none _)⟩
  | looks point _ own stood =>
    exact elsewhere load owner root path _ _ (ofLoad load owner root path _ own stood) stood
      fun _ waits => waits
  | ends point _ own stood =>
    exact elsewhere load owner root path _ _ (ofLoad load owner root path _ own stood) stood
      fun _ waits => waits.has_walked

theorem LoadsAwaited.event (awaited : session.LoadsAwaited) {event : Event α}
    (happened : session.after? event = some next) : next.LoadsAwaited := by
  cases after?_move happened with
  | call request =>
    intro load owner root path state found
    rw [task?_call] at found
    split at found
    · cases found
    · obtain ⟨pass, stood, waits⟩ := awaited load owner root path state found
      exact ⟨pass, task?_call_of stood request, waits⟩
  | step mover _ move => exact awaited.move move
  | leave => exact awaited
  | files => exact awaited
  | time => exact awaited

theorem IsNew.loadsAwaited_of_run {start : Session α} {events : List (Event α)}
    (new : start.IsNew) (run : start.replay? events = some session) : session.LoadsAwaited := by
  refine replay?_keeps (fun _ _ _ _ awaited => awaited.event) ?_ run
  intro load owner root path state found
  rw [new.task?] at found
  cases found

end Session

end CodeSearch
