import CodeSearch.Proofs.Session.Exclusion

/-! # Sessions at rest

The lock knows only tasks that are in line for it or hold it, and the table only passes that have
not ended or are leaving it. So when all tasks have ended and no pass is leaving, the lock is free
and the table is empty.
-/

namespace CodeSearch

variable {α : Type} [Scalar α]

/-- The places of an update that stands in the lock's queue or holds the lock. -/
def CallPoint.IsInLine : CallPoint α → Prop
  | .queued _ => True
  | point => point.IsInside

def Task.IsInLine : Task α → Prop
  | .call point => point.IsInLine
  | .pass state => state.point = .queued ∨ state.point = .swapping
  | .load _ _ _ _ => False

/-- Tasks that make no more steps. -/
def Task.HasEnded : Task α → Prop
  | .call point => ∃ outcome, point = .ended outcome
  | .pass state => state.IsEnded
  | .load _ _ _ state => ∃ result, state = .ended result

instance (task : Task α) : Decidable task.HasEnded :=
  match task with
  | .call (.ended outcome) => isTrue ⟨outcome, rfl⟩
  | .pass { point := .ended outcome, .. } => isTrue ⟨outcome, rfl⟩
  | .load _ _ _ (.ended result) => isTrue ⟨result, rfl⟩
  | .load _ _ _ (.running _) => isFalse fun ⟨_, same⟩ => nomatch same
  | .call (.made _) => isFalse fun ⟨_, same⟩ => nomatch same
  | .call (.awaitingPass _ _) => isFalse fun ⟨_, same⟩ => nomatch same
  | .call (.locking _) => isFalse fun ⟨_, same⟩ => nomatch same
  | .call (.queued _) => isFalse fun ⟨_, same⟩ => nomatch same
  | .call (.updating _) => isFalse fun ⟨_, same⟩ => nomatch same
  | .call (.probing _) => isFalse fun ⟨_, same⟩ => nomatch same
  | .call (.loading _ _) => isFalse fun ⟨_, same⟩ => nomatch same
  | .call (.embedding _ _) => isFalse fun ⟨_, same⟩ => nomatch same
  | .call (.resting _ _) => isFalse fun ⟨_, same⟩ => nomatch same
  | .call (.storing _ _) => isFalse fun ⟨_, same⟩ => nomatch same
  | .call (.searching _) => isFalse fun ⟨_, same⟩ => nomatch same
  | .call (.reading _ _ _) => isFalse fun ⟨_, same⟩ => nomatch same
  | .call (.carrying _ _ _ _ _) => isFalse fun ⟨_, same⟩ => nomatch same
  | .pass { point := .walking _ _, .. } => isFalse fun ⟨_, same⟩ => nomatch same
  | .pass { point := .batching _, .. } => isFalse fun ⟨_, same⟩ => nomatch same
  | .pass { point := .collecting _ _, .. } => isFalse fun ⟨_, same⟩ => nomatch same
  | .pass { point := .adding _ _, .. } => isFalse fun ⟨_, same⟩ => nomatch same
  | .pass { point := .embedding _ _ _, .. } => isFalse fun ⟨_, same⟩ => nomatch same
  | .pass { point := .resting _ _ _, .. } => isFalse fun ⟨_, same⟩ => nomatch same
  | .pass { point := .locking, .. } => isFalse fun ⟨_, same⟩ => nomatch same
  | .pass { point := .queued, .. } => isFalse fun ⟨_, same⟩ => nomatch same
  | .pass { point := .swapping, .. } => isFalse fun ⟨_, same⟩ => nomatch same

omit [Scalar α] in
theorem Task.HasEnded.not_isInLine {task : Task α} (ended : task.HasEnded) : ¬ task.IsInLine := by
  intro inLine
  cases task with
  | call point =>
    obtain ⟨outcome, rfl⟩ := ended
    exact inLine
  | pass pass =>
    obtain ⟨outcome, stands⟩ := ended
    rcases inLine with queued | swapping
    · rw [stands] at queued; cases queued
    · rw [stands] at swapping; cases swapping
  | load => exact inLine

namespace Lock

/-- The holder and all that wait. -/
def members (lock : Lock) : List TaskId := lock.holder.toList ++ lock.waiting

theorem members_release (lock : Lock) : lock.release.members = lock.waiting := by
  cases waiting : lock.waiting <;> simp [members, release, waiting]

theorem members_request (lock : Lock) (task : TaskId) :
    (lock.request task).members.Perm (task :: lock.members) := by
  obtain ⟨holder, waiting⟩ := lock
  cases holder with
  | none => simp [members, request]
  | some holder =>
    simp only [members, request, Option.toList_some, List.singleton_append]
    exact ((List.perm_append_singleton task waiting).cons holder).trans (.swap task holder waiting)

end Lock

namespace Session

variable {session shared next : Session α} {id : TaskId}

/-- What a move does with the lock, and how it changes whether the task is in line. -/
inductive LineMove (session : Session α) (id : TaskId) (before after : Task α) : Lock → Prop where
  | kept (stays : before.IsInLine ↔ after.IsInLine) : LineMove session id before after session.lock
  | joined (outside : ¬ before.IsInLine) (inLine : after.IsInLine) :
      LineMove session id before after (session.lock.request id)
  | left (inside : before.IsInside) (outside : ¬ after.IsInLine) :
      LineMove session id before after session.lock.release

private theorem QuietMove.line {point after : CallPoint α}
    (move : QuietMove session id point after) : point.IsInLine ↔ after.IsInLine := by
  cases move <;> exact Iff.rfl

private theorem CallMove.line {point after : CallPoint α}
    (move : CallMove session id point shared after) :
    LineMove session id (.call point) (.call after) shared.lock := by
  cases move with
  | quiet _ _ move => exact .kept move.line
  | answered _ _ _ _ _ _ met => exact met.lock ▸ .kept Iff.rfl
  | indexes _ _ _ _ _ _ met => exact met.lock ▸ .kept Iff.rfl
  | searched _ _ query options => exact session.search_lock query options ▸ .kept Iff.rfl
  | contextReady => exact .kept Iff.rfl
  | contextServed _ _ _ _ _ _ _ met => exact met.lock ▸ .kept Iff.rfl
  | contextWaits _ _ _ _ _ _ _ met => exact met.lock ▸ .kept Iff.rfl
  | cleared _ root => cases root <;> exact .kept Iff.rfl
  | queued => exact .joined not_false trivial
  | gaveUp _ _ reason =>
    refine .left ?_ not_false
    cases reason <;> exact trivial
  | stored => exact .left trivial not_false
  | finds wish => exact session.search_lock wish.query _ ▸ .kept Iff.rfl

private theorem PassMove.line {pass after : Pass α} (move : PassMove session id pass shared after) :
    LineMove session id (.pass pass) (.pass after) shared.lock := by
  have apart : ∀ (pass : Pass α) point, pass.point = point → point ≠ .queued → point ≠ .swapping →
      ¬ (Task.pass pass).IsInLine := by
    rintro pass point stands notQueued notSwapping (queued | swapping)
    · exact notQueued (stands ▸ queued)
    · exact notSwapping (stands ▸ swapping)
  have aside : ∀ point, pass.point = point → point ≠ .queued → point ≠ .swapping →
      after.point ≠ .queued → after.point ≠ .swapping →
      LineMove session id (.pass pass) (.pass after) session.lock := by
    intro point stands notQueued notSwapping notQueuedAfter notSwappingAfter
    exact .kept (iff_of_false (apart pass point stands notQueued notSwapping)
      (apart after _ rfl notQueuedAfter notSwappingAfter))
  cases move with
  | quiet _ move =>
    cases move with
    | entered stands => exact .kept ⟨fun _ => .inr rfl, fun _ => .inl stands⟩
    | walked _ stands => exact aside _ stands (by simp) (by simp) (by simp) (by simp)
    | finds _ _ _ stands => exact aside _ stands (by simp) (by simp) (by simp) (by simp)
    | lists _ _ _ _ stands => exact aside _ stands (by simp) (by simp) (by simp) (by simp)
    | completes stands => exact aside _ stands (by simp) (by simp) (by simp) (by simp)
    | collects _ _ _ stands => exact aside _ stands (by simp) (by simp) (by simp) (by simp)
    | batchDone _ stands => exact aside _ stands (by simp) (by simp) (by simp) (by simp)
    | embedsNext _ _ _ _ stands => exact aside _ stands (by simp) (by simp) (by simp) (by simp)
    | leavesOut _ _ _ stands => exact aside _ stands (by simp) (by simp) (by simp) (by simp)
    | adds _ _ _ stands => exact aside _ stands (by simp) (by simp) (by simp) (by simp)
    | embeds _ _ _ stands => exact aside _ stands (by simp) (by simp) (by simp) (by simp)
    | rested _ _ _ stands => exact aside _ stands (by simp) (by simp) (by simp) (by simp)
  | fails _ _ _ _ stands => exact aside _ stands (by simp) (by simp) (by simp) (by simp)
  | loads _ stands => exact aside _ stands (by simp) (by simp) (by simp) (by simp)
  | queued stands => exact .joined (apart pass _ stands (by simp) (by simp)) (.inl rfl)
  | swaps stands => exact .left stands (apart _ _ rfl (by simp) (by simp))
  | discards stands => exact .left stands (apart _ _ rfl (by simp) (by simp))

/-- A task that moves was there and is there, and its move does this with the lock. -/
theorem Move.line (move : Move session id next) :
    ∃ before after, session.task? id = some before ∧ next.task? id = some after ∧
      LineMove session id before after next.lock := by
  cases move with
  | call point after shared stands move =>
    exact ⟨_, _, stands, move.task?_self stands, move.line⟩
  | pass pass after shared stands move =>
    exact ⟨_, _, stands, move.task?_self stands, move.line⟩
  | looks owner root path point after stands =>
    have own := (session.task?_setTask id id (.load owner root path (.running after))
      (lt_of_task? stands)).trans (if_pos rfl)
    exact ⟨_, _, stands, own, .kept Iff.rfl⟩
  | ends owner root path point result stands =>
    have own := (session.task?_setTask id id (.load owner root path (.ended result))
      (lt_of_task? stands)).trans (if_pos rfl)
    exact ⟨_, _, stands, own, .kept Iff.rfl⟩
  | fails owner root path point message stands =>
    have own := (session.task?_setTask id id (.load owner root path (.ended (.failed message)))
      (lt_of_task? stands)).trans (if_pos rfl)
    have lock : ((session.setTask id (.load owner root path (.ended (.failed message)))).tellOwner
        owner message).lock = session.lock := by
      simp only [tellOwner]
      split <;> rfl
    exact ⟨_, _, stands, task?_tellOwner_load _ _ owner _ root path message _ own,
      lock ▸ .kept Iff.rfl⟩

/-- The lock knows just the tasks that are in line, and each of them once. None waits for a lock that
is free. -/
structure Lined (session : Session α) : Prop where
  known : ∀ id ∈ session.lock.members, ∃ task, session.task? id = some task ∧ task.IsInLine
  distinct : session.lock.members.Nodup
  listed : ∀ id task, session.task? id = some task → task.IsInLine → id ∈ session.lock.members
  serving : session.lock.holder = none → session.lock.waiting = []

theorem IsNew.lined (new : session.IsNew) : session.Lined := by
  constructor <;> simp [new.lock, new.task?, Lock.members]

/-- A pass stands where it stood while others move, though it may be told of a file. -/
theorem Move.pass_unmoved (move : Move session id next) {other : TaskId} {before : Pass α}
    (different : other ≠ id) (stood : session.task? other = some (.pass before)) :
    ∃ pass, next.task? other = some (.pass pass) ∧ pass.point = before.point := by
  obtain ⟨pass, stands, -⟩ := move.pass_stays stood
  refine ⟨pass, stands, ?_⟩
  cases move.origin_pass stands with
  | kept _ _ found =>
    rw [stood] at found
    cases found
    rfl
  | told _ message _ found =>
    rw [stood] at found
    cases found
    rfl
  | started _ _ _ _ new => rw [stood] at new; cases new
  | moved _ _ _ own => exact absurd own different

private theorem inLine_kept (move : Move session id next) {other : TaskId} {task : Task α}
    (different : other ≠ id) (stood : session.task? other = some task) (inLine : task.IsInLine) :
    ∃ task, next.task? other = some task ∧ task.IsInLine := by
  cases task with
  | call point => exact ⟨_, move.call_stays different stood, inLine⟩
  | pass pass =>
    obtain ⟨after, stands, same⟩ := move.pass_unmoved different stood
    refine ⟨_, stands, ?_⟩
    exact inLine.imp same.trans same.trans
  | load => exact inLine.elim

private theorem wasInLine (move : Move session id next) {other : TaskId} {task : Task α}
    (different : other ≠ id) (stands : next.task? other = some task) (inLine : task.IsInLine) :
    ∃ before, session.task? other = some before ∧ before.IsInLine := by
  cases move.origin stands with
  | kept _ _ _ stood => exact ⟨task, stood, inLine⟩
  | told _ pass _ _ stood => exact ⟨_, stood, inLine⟩
  | passStarted => rcases inLine with queued | swapping <;> contradiction
  | loadStarted => exact inLine.elim
  | call => exact absurd rfl different
  | pass => exact absurd rfl different
  | looks => exact absurd rfl different
  | ends => exact absurd rfl different

private theorem LineMove.members {before after : Task α} {lock : Lock}
    (line : LineMove session id before after lock) (lined : session.Lined)
    (own : id ∈ session.lock.members ↔ before.IsInLine)
    (holds : before.IsInside → session.lock.holder = some id) :
    (∀ other, other ≠ id → (other ∈ lock.members ↔ other ∈ session.lock.members)) ∧
      (id ∈ lock.members ↔ after.IsInLine) ∧ lock.members.Nodup ∧
      (lock.holder = none → lock.waiting = []) := by
  cases line with
  | kept stays => exact ⟨fun _ _ => Iff.rfl, own.trans stays, lined.distinct, lined.serving⟩
  | joined outside inLine =>
    have request := session.lock.members_request id
    refine ⟨?_, ?_, ?_, ?_⟩
    · intro other different
      rw [request.mem_iff, List.mem_cons]
      exact or_iff_right different
    · exact iff_of_true (request.mem_iff.mpr List.mem_cons_self) inLine
    · rw [request.nodup_iff, List.nodup_cons]
      exact ⟨fun member => outside (own.mp member), lined.distinct⟩
    · intro free
      unfold Lock.request at free
      split at free
      · cases free
      · next holder held =>
        rw [held] at free
        cases free
  | left inside outside =>
    have distinct := lined.distinct
    rw [Lock.members_release]
    rw [Lock.members, holds inside] at distinct ⊢
    obtain ⟨notWaiting, distinct⟩ := List.nodup_cons.mp distinct
    refine ⟨?_, iff_of_false notWaiting outside, distinct, ?_⟩
    · intro other different
      exact (or_iff_right different).symm.trans List.mem_cons.symm
    · intro free
      rw [Lock.release, List.head?_eq_none_iff.mp free, List.tail_nil]

theorem Lined.move (lined : session.Lined) (exclusive : session.Exclusive)
    (move : Move session id next) : next.Lined := by
  obtain ⟨before, after, stood, stands, line⟩ := move.line
  have own : id ∈ session.lock.members ↔ before.IsInLine := by
    refine ⟨?_, lined.listed id before stood⟩
    intro member
    obtain ⟨task, found, inLine⟩ := lined.known id member
    rw [stood, Option.some.injEq] at found
    exact found ▸ inLine
  obtain ⟨elsewhere, here, distinct, serving⟩ := line.members lined own (exclusive id before stood)
  refine ⟨?_, distinct, ?_, serving⟩
  · intro other member
    by_cases same : other = id
    · subst same
      exact ⟨after, stands, here.mp member⟩
    · obtain ⟨task, stoodOther, inLine⟩ := lined.known other ((elsewhere other same).mp member)
      exact inLine_kept move same stoodOther inLine
  · intro other task standsOther inLine
    by_cases same : other = id
    · subst same
      rw [stands] at standsOther
      cases standsOther
      exact here.mpr inLine
    · obtain ⟨earlier, stoodOther, wasIn⟩ := wasInLine move same standsOther inLine
      exact (elsewhere other same).mpr (lined.listed other earlier stoodOther wasIn)

theorem Lined.event (lined : session.Lined) (exclusive : session.Exclusive) {event : Event α}
    (happened : session.after? event = some next) : next.Lined := by
  cases after?_move happened with
  | call request =>
    refine ⟨?_, lined.distinct, ?_, lined.serving⟩
    · intro id member
      obtain ⟨task, stood, inLine⟩ := lined.known id member
      exact ⟨task, task?_call_of stood request, inLine⟩
    · intro id task stands inLine
      rw [task?_call] at stands
      split at stands
      · cases stands
        exact inLine.elim
      · exact lined.listed id task stands inLine
  | step id _ move => exact lined.move exclusive move
  | leave => exact ⟨lined.known, lined.distinct, lined.listed, lined.serving⟩
  | files => exact ⟨lined.known, lined.distinct, lined.listed, lined.serving⟩
  | time => exact ⟨lined.known, lined.distinct, lined.listed, lined.serving⟩

theorem IsNew.lined_of_run {events : List (Event α)} (new : session.IsNew)
    (run : session.replay? events = some next) : next.Lined :=
  replay?_keeps_reached
    (fun _ _ _ _ reached lined => lined.event (new.exclusive_of_run reached)) new.lined run

/-- A task that moves has not ended. -/
theorem Move.not_ended (move : Move session id next) {task : Task α}
    (stands : session.task? id = some task) : ¬ task.HasEnded := by
  intro ended
  cases move with
  | call point after shared stood move =>
    rw [stands] at stood
    cases stood
    obtain ⟨outcome, same⟩ := ended
    exact move.running outcome same
  | pass pass after shared stood move =>
    rw [stands] at stood
    cases stood
    exact move.running.1 ended
  | looks _ _ _ _ _ stood =>
    rw [stands] at stood
    cases stood
    obtain ⟨result, state⟩ := ended
    cases state
  | ends _ _ _ _ _ stood =>
    rw [stands] at stood
    cases stood
    obtain ⟨result, state⟩ := ended
    cases state
  | fails _ _ _ _ _ stood =>
    rw [stands] at stood
    cases stood
    obtain ⟨result, state⟩ := ended
    cases state

/-! ## The table -/

private theorem Move.settled (move : Move session id next) {other : TaskId} {pass : Pass α}
    (stands : next.task? other = some (.pass pass)) (ended : pass.IsEnded) :
    (∃ before, session.task? other = some (.pass before) ∧ before.IsEnded) ∨
      other ∈ next.leaving := by
  obtain ⟨outcome, settled⟩ := ended
  cases move.origin_pass stands with
  | kept _ _ stood => exact .inl ⟨pass, stood, outcome, settled⟩
  | told before _ _ stood => exact .inl ⟨before, stood, outcome, settled⟩
  | started => cases settled
  | moved before _ shared own stood step set =>
    subst own set
    cases step with
    | quiet _ move => cases move <;> cases settled
    | loads => cases settled
    | queued => cases settled
    | fails => exact .inr (List.mem_append.mpr (.inr List.mem_cons_self))
    | swaps => exact .inr (List.mem_append.mpr (.inr List.mem_cons_self))
    | discards => exact .inr (List.mem_append.mpr (.inr List.mem_cons_self))

/-- Every entry of the table is a pass over its project that has not ended or is leaving. -/
def Current (session : Session α) : Prop :=
  ∀ root id, session.inFlight.get? root = some id →
    ∃ pass, session.task? id = some (.pass pass) ∧ pass.root = root ∧
      (pass.IsEnded → id ∈ session.leaving)

theorem IsNew.current (new : session.IsNew) : session.Current := by
  intro root id entered
  rw [new.inFlight] at entered
  cases entered

theorem Current.move (current : session.Current) (move : Move session id next) :
    next.Current := by
  have leaving : ∀ other ∈ session.leaving, other ∈ next.leaving := by
    intro other member
    cases move.table with
    | kept _ same => rw [same]; exact member
    | started _ _ _ same => rw [same]; exact member
    | ended _ _ _ _ _ _ _ same => rw [same]; exact List.mem_append.mpr (.inl member)
  have old : ∀ root other, session.inFlight.get? root = some other →
      ∃ pass, next.task? other = some (.pass pass) ∧ pass.root = root ∧
        (pass.IsEnded → other ∈ next.leaving) := by
    intro root other entered
    obtain ⟨before, stood, same, leaves⟩ := current root other entered
    obtain ⟨pass, stands, kept, -⟩ := move.pass_stays stood
    refine ⟨pass, stands, kept.symm.trans same, fun ended => ?_⟩
    rcases move.settled stands ended with ⟨found, stoodAt, settled⟩ | new
    · rw [stood] at stoodAt
      cases stoodAt
      exact leaving other (leaves settled)
    · exact new
  intro root other entered
  cases move.table with
  | kept inFlight => exact old root other (inFlight ▸ entered)
  | ended _ _ _ _ _ _ inFlight => exact old root other (inFlight ▸ entered)
  | started project free inFlight _ there =>
    rw [inFlight, OrderedMap.get?_insert] at entered
    split at entered
    · next same =>
      cases entered
      refine ⟨_, there, same, ?_⟩
      rintro ⟨outcome, settled⟩
      cases settled
    · exact old root other entered

theorem Current.event (current : session.Current) (tabled : session.Tabled) {event : Event α}
    (happened : session.after? event = some next) : next.Current := by
  cases after?_move happened with
  | call request =>
    intro root id entered
    obtain ⟨pass, stood, rest⟩ := current root id entered
    exact ⟨pass, task?_call_of stood request, rest⟩
  | step id _ move => exact current.move move
  | leave id pass stood member =>
    intro root other entered
    change (session.inFlight.erase pass.root).get? root = some other at entered
    rw [OrderedMap.get?_erase] at entered
    split at entered
    · cases entered
    · next different =>
      obtain ⟨found, stoodOther, same, leaves⟩ := current root other entered
      refine ⟨found, stoodOther, same, fun ended => ?_⟩
      refine (tabled.distinct.mem_erase_iff).mpr ⟨?_, leaves ended⟩
      rintro rfl
      rw [stood] at stoodOther
      cases stoodOther
      exact different same.symm
  | files => exact current
  | time => exact current

theorem IsNew.current_of_run {events : List (Event α)} (new : session.IsNew)
    (run : session.replay? events = some next) : next.Current :=
  replay?_keeps_reached
    (fun _ _ _ _ reached current => current.event (new.tabled_of_run reached)) new.current run

/-- Nothing is left to happen: all tasks have ended, and no pass is leaving. -/
structure AtRest (session : Session α) : Prop where
  tasks : ∀ id task, session.task? id = some task → task.HasEnded
  leaving : session.leaving = []

instance (session : Session α) : Decidable session.AtRest :=
  decidable_of_iff ((∀ task ∈ session.tasks, task.HasEnded) ∧ session.leaving.isEmpty = true)
    ⟨fun ⟨tasks, leaving⟩ => ⟨fun _ task stands => tasks task (List.mem_of_getElem? stands),
        List.isEmpty_iff.mp leaving⟩,
      fun rest => ⟨fun task member => (List.mem_iff_getElem?.mp member).elim fun id stands =>
        rest.tasks id task stands, List.isEmpty_iff.mpr rest.leaving⟩⟩

theorem AtRest.lock (rest : session.AtRest) (lined : session.Lined) :
    session.lock.holder = none := by
  cases held : session.lock.holder with
  | none => rfl
  | some id =>
    obtain ⟨task, stands, inLine⟩ := lined.known id (by simp [Lock.members, held])
    exact absurd inLine (rest.tasks id task stands).not_isInLine

theorem AtRest.inFlight (rest : session.AtRest) (current : session.Current) (root : String) :
    session.inFlight.get? root = none := by
  cases entered : session.inFlight.get? root with
  | none => rfl
  | some id =>
    obtain ⟨pass, stands, -, leaves⟩ := current root id entered
    have leaving := leaves (rest.tasks id _ stands)
    rw [rest.leaving] at leaving
    cases leaving

end Session

end CodeSearch
