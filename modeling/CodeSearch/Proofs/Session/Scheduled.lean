import CodeSearch.Proofs.Session.LoneUpdate
import CodeSearch.Session.Schedule

/-! # The schedule makes runs

Whatever the schedule does with its turns, it lets tasks make steps that are possible and passes that
have ended leave. So what holds throughout all runs of a session holds of a scheduled one.
-/

namespace CodeSearch

variable {α : Type} [Scalar α]

namespace Session

/-- Tasks have gone on and passes have left; no call was made, and files and time have stayed. -/
def GoesOnTo (session next : Session α) : Prop :=
  ∃ events : List (Event α), (∀ event ∈ events, event.IsInner) ∧ session.replay? events = some next

theorem GoesOnTo.refl (session : Session α) : session.GoesOnTo session := ⟨[], by simp, rfl⟩

theorem GoesOnTo.trans {first second third : Session α} (one : first.GoesOnTo second)
    (two : second.GoesOnTo third) : first.GoesOnTo third := by
  obtain ⟨events, inner, run⟩ := one
  obtain ⟨more, innerMore, rest⟩ := two
  exact ⟨events ++ more, List.forall_mem_append.mpr ⟨inner, innerMore⟩, replay?_trans run rest⟩

theorem goesOnTo_of_after? {session next : Session α} (event : Event α) (inner : event.IsInner)
    (happened : session.after? event = some next) : session.GoesOnTo next := by
  exact ⟨[event], by simpa using inner, replay?_cons happened rfl⟩

end Session

namespace Schedule

open Session

variable {schedule next : Schedule α}

theorem settleTask_session (schedule : Schedule α) (id : TaskId) :
    (schedule.settleTask id).session = schedule.session := by
  unfold settleTask
  split <;> rfl

theorem advance_goesOnTo (schedule : Schedule α) (id : TaskId) :
    schedule.session.GoesOnTo (schedule.advance id).session := by
  unfold advance
  split
  · exact .refl _
  · split
    · exact .refl _
    · next session stepped =>
      rw [settleTask_session]
      exact goesOnTo_of_after? (.step id) trivial stepped

theorem take_goesOnTo (schedule : Schedule α) (turn : Turn) :
    schedule.session.GoesOnTo (schedule.take turn).session := by
  cases turn with
  | step id => exact .refl _
  | leave id =>
    simp only [take]
    split
    · next session left => exact goesOnTo_of_after? (.leave id) trivial left
    · exact .refl _
  | tell id => exact .refl _
  | collect load =>
    simp only [take]
    split <;> exact .refl _

theorem next?_goesOnTo (happens : schedule.next? = some next) :
    schedule.session.GoesOnTo next.session := by
  unfold next? at happens
  split at happens
  · cases happens
    exact schedule.advance_goesOnTo _
  · next turn due _ _ =>
    cases happens
    exact take_goesOnTo { schedule with due } turn
  · cases happens

/-- However many turns are taken, the session has gone on. -/
theorem settle_goesOnTo (turns : Nat) (schedule : Schedule α) :
    schedule.session.GoesOnTo (settle turns schedule).session := by
  induction turns generalizing schedule with
  | zero => exact .refl _
  | succ turns ih =>
    rw [settle]
    split
    · next next happens => exact (next?_goesOnTo happens).trans (ih next)
    · exact .refl _

/-- A call that is put to the schedule is made, and the session goes on. -/
theorem call_run {schedule after : Schedule α} {request : Request α} {id : TaskId}
    (called : schedule.call request = (after, id)) :
    id = schedule.session.tasks.length ∧
      ∃ events : List (Event α), (∀ event ∈ events, event.IsInner) ∧
        schedule.session.replay? (.call request :: events) = some after.session := by
  cases called
  refine ⟨rfl, ?_⟩
  obtain ⟨events, inner, run⟩ := settle_goesOnTo allowance
    ({ schedule with session := schedule.session.start [.call (.made request)] }.enqueue
      [.step schedule.session.tasks.length])
  exact ⟨events, inner, run⟩

end Schedule

end CodeSearch
