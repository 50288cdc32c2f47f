import CodeSearch.Proofs.Session.Rest
import CodeSearch.Settings.Basic

/-! # Calls come to their ends

Every move of a call leads it nearer to its end. A call stands still only where it waits for a pass
or for the lock.
-/

namespace CodeSearch

variable {α : Type} [Scalar α]

/-- How far the loading of a file is from its end. -/
def LoadPoint.ahead : LoadPoint → Nat
  | .sizing => 2
  | .reading => 1
  | .carrying _ => 0

/-- How far a call is from its end: the parts that lie ahead, and what is left of this part. -/
def CallPoint.ahead : CallPoint α → Nat × Nat
  | .made _ => (10, 0)
  | .awaitingPass _ _ => (9, 0)
  | .locking _ => (8, 0)
  | .queued _ => (7, 0)
  | .updating _ => (6, 0)
  | .probing _ => (5, 0)
  | .loading _ point => (4, point.ahead)
  | .embedding _ draft => (3, 2 * draft.remaining.length)
  | .resting _ draft => (3, 2 * draft.remaining.length + 1)
  | .storing _ _ => (2, 0)
  | .searching _ => (2, 0)
  | .reading _ groups _ => (1, 2 * groups.length)
  | .carrying _ _ _ groups _ => (1, 2 * groups.length + 1)
  | .ended _ => (0, 0)

/-- Loading goes on towards its end. -/
theorem Loading.ahead_lt {settings : Settings α} {files : FileSystem} {now : α}
    {root path : String} {point next : LoadPoint}
    (step : Loading.step settings files now root path point = .next next) :
    next.ahead < point.ahead := by
  cases point with
  | sizing =>
    simp only [Loading.step] at step
    split at step
    · cases step
    · split at step
      · cases step
      · cases step
        decide
  | reading =>
    cases step
    exact Nat.zero_lt_one
  | carrying content => cases content <;> cases step

omit [Scalar α] in
/-- A batch leaves fewer chunks than there were. -/
theorem FileDraft.remaining_embedBatch_lt (draft : FileDraft α) (embedder : Embedder α) {size : Int}
    (positive : 1 ≤ size) (more : draft.remaining ≠ []) :
    (draft.embedBatch embedder size).1.remaining.length < draft.remaining.length := by
  change (draft.remaining.drop size.toNat).length < draft.remaining.length
  have some := List.length_pos_iff.mpr more
  rw [List.length_drop]
  omega

namespace Session

variable {session shared next : Session α} {id : TaskId}

/-- One place lies nearer to the end than another. -/
abbrev Nearer (after before : CallPoint α) : Prop :=
  Prod.Lex (· < ·) (· < ·) after.ahead before.ahead

omit [Scalar α] in
private theorem nearer_of_part {after before : CallPoint α}
    (part : after.ahead.1 < before.ahead.1) : Nearer after before :=
  Prod.Lex.left _ _ part

private theorem QuietMove.nearer {point after : CallPoint α}
    (batch : 1 ≤ session.settings.embeddingBatchSize) (move : QuietMove session id point after) :
    Nearer after point := by
  cases move with
  | looks target point next step => exact .right _ (Loading.ahead_lt step)
  | embeds target draft more =>
    refine .right _ ?_
    have fewer := draft.remaining_embedBatch_lt session.embedder batch more
    change 2 * _ + 1 < 2 * _
    omega
  | rested => exact .right _ (Nat.lt_succ_self _)
  | reads wish group groups =>
    refine .right _ ?_
    rw [List.length_cons]
    omega
  | takes => exact .right _ (Nat.lt_succ_self _)
  | skips => exact .right _ (Nat.lt_succ_self _)
  | refused => exact nearer_of_part (by simp [CallPoint.ahead])
  | awaits => exact nearer_of_part (by simp [CallPoint.ahead])
  | goesAhead => exact nearer_of_part (by simp [CallPoint.ahead])
  | failedWith => exact nearer_of_part (by simp [CallPoint.ahead])
  | reported => exact nearer_of_part (by simp [CallPoint.ahead])
  | updates => exact nearer_of_part (by simp [CallPoint.ahead])
  | serves => exact nearer_of_part (by simp [CallPoint.ahead])
  | entered => exact nearer_of_part (by simp [CallPoint.ahead])
  | probes => exact nearer_of_part (by simp [CallPoint.ahead])
  | opens => exact nearer_of_part (by simp [CallPoint.ahead])
  | passesBy => exact nearer_of_part (by simp [CallPoint.ahead])
  | loaded => exact nearer_of_part (by simp [CallPoint.ahead])
  | notLoaded => exact nearer_of_part (by simp [CallPoint.ahead])
  | embedded => exact nearer_of_part (by simp [CallPoint.ahead])
  | shown => exact nearer_of_part (by simp [CallPoint.ahead])
  | breaksOff => exact nearer_of_part (by simp [CallPoint.ahead])

/-- Every move of a call leads nearer to its end. -/
theorem CallMove.nearer {point after : CallPoint α}
    (batch : 1 ≤ session.settings.embeddingBatchSize)
    (move : CallMove session id point shared after) : Nearer after point := by
  cases move with
  | quiet _ _ move => exact move.nearer batch
  | gaveUp _ _ reason => cases reason <;> exact nearer_of_part (by simp [CallPoint.ahead])
  | answered => exact nearer_of_part (by simp [CallPoint.ahead])
  | indexes => exact nearer_of_part (by simp [CallPoint.ahead])
  | searched => exact nearer_of_part (by simp [CallPoint.ahead])
  | contextReady => exact nearer_of_part (by simp [CallPoint.ahead])
  | contextServed => exact nearer_of_part (by simp [CallPoint.ahead])
  | contextWaits => exact nearer_of_part (by simp [CallPoint.ahead])
  | cleared => exact nearer_of_part (by simp [CallPoint.ahead])
  | queued => exact nearer_of_part (by simp [CallPoint.ahead])
  | stored => exact nearer_of_part (by simp [CallPoint.ahead])
  | finds => exact nearer_of_part (by simp [CallPoint.ahead])

/-- What a call that has not ended may wait for before its next step. -/
def Blocks (session : Session α) (id : TaskId) : CallPoint α → Prop
  | .awaitingPass pass _ => session.passOutcome? pass = none
  | .queued _ => session.lock.holder ≠ some id
  | .ended _ => True
  | _ => False

/-- A call that nothing blocks makes a step. -/
theorem stepCall_isSome {point : CallPoint α} (free : ¬ session.Blocks id point) :
    ∃ next, session.stepCall id point = some next := by
  cases point with
  | awaitingPass pass next =>
    have told : session.passOutcome? pass ≠ none := free
    simp only [stepCall]
    split
    · next missing => exact absurd missing told
    · exact ⟨_, rfl⟩
    · exact ⟨_, rfl⟩
  | queued update =>
    have held : session.lock.holder = some id := Classical.not_not.mp free
    exact ⟨_, if_pos (by simp [holdsLock, held])⟩
  | ended => exact absurd trivial free
  | made => exact ⟨_, rfl⟩
  | locking => exact ⟨_, rfl⟩
  | updating => exact ⟨_, rfl⟩
  | probing => exact ⟨_, rfl⟩
  | loading => exact ⟨_, rfl⟩
  | embedding => exact ⟨_, rfl⟩
  | resting => exact ⟨_, rfl⟩
  | storing => exact ⟨_, rfl⟩
  | searching => exact ⟨_, rfl⟩
  | reading => exact ⟨_, rfl⟩
  | carrying => exact ⟨_, rfl⟩

/-- What a pass that has not ended may wait for before its next step. -/
def BlocksPass (session : Session α) (id : TaskId) : PassPoint α → Prop
  | .collecting loads _ => ∃ load ∈ loads, session.loadResult? load = none
  | .queued => session.lock.holder ≠ some id
  | .ended _ => True
  | _ => False

private theorem exists_results {loads : List TaskId}
    (ended : ∀ load ∈ loads, session.loadResult? load ≠ none) :
    ∃ results, loads.mapM session.loadResult? = some results := by
  induction loads with
  | nil => exact ⟨[], rfl⟩
  | cons load loads ih =>
    obtain ⟨result, first⟩ := Option.ne_none_iff_exists'.mp (ended load List.mem_cons_self)
    obtain ⟨results, others⟩ := ih fun other member => ended other (List.mem_cons_of_mem _ member)
    exact ⟨result :: results, by simp [first, others]⟩

/-- A pass that nothing blocks makes a step. -/
theorem stepPass_isSome {pass : Pass α} (free : ¬ session.BlocksPass id pass.point) :
    ∃ next, session.stepPass id pass = some next := by
  unfold stepPass
  cases point : pass.point with
  | collecting loads rest =>
    rw [point] at free
    obtain ⟨results, ended⟩ := exists_results fun load member none => free ⟨load, member, none⟩
    exact ⟨_, Option.map_eq_some_iff.mpr ⟨results, ended, rfl⟩⟩
  | queued =>
    rw [point] at free
    have held : session.lock.holder = some id := Classical.not_not.mp free
    exact ⟨_, if_pos (by simp [holdsLock, held])⟩
  | ended => exact absurd (by rw [point]; exact trivial) free
  | walking => exact ⟨_, rfl⟩
  | batching => exact ⟨_, rfl⟩
  | adding => exact ⟨_, rfl⟩
  | embedding => exact ⟨_, rfl⟩
  | resting => exact ⟨_, rfl⟩
  | locking => exact ⟨_, rfl⟩
  | swapping => exact ⟨_, rfl⟩

/-- A call of which an invariant says that nothing blocks it goes on to its end by its own steps. -/
theorem ends_of_unblocked (id : TaskId) (keeps : Session α → CallPoint α → Prop)
    (moves : ∀ session point shared after, session.task? id = some (.call point) →
      keeps session point → CallMove session id point shared after →
      keeps (shared.setCall id after) after)
    (batch : ∀ session point, keeps session point → 1 ≤ session.settings.embeddingBatchSize)
    (free : ∀ session point, keeps session point → (∀ outcome, point ≠ .ended outcome) →
      ¬ session.Blocks id point)
    {point : CallPoint α} (stands : session.task? id = some (.call point))
    (start : keeps session point) :
    ∃ count final outcome, session.replay? (List.replicate count (.step id)) = some final ∧
      final.task? id = some (.call (.ended outcome)) ∧ keeps final (.ended outcome) := by
  have wellFounded : WellFounded (Nearer : CallPoint α → CallPoint α → Prop) :=
    InvImage.wf CallPoint.ahead (Prod.lex Nat.lt_wfRel Nat.lt_wfRel).wf
  induction point using wellFounded.induction generalizing session with
  | _ point ih =>
    by_cases ended : ∃ outcome, point = .ended outcome
    · obtain ⟨outcome, rfl⟩ := ended
      exact ⟨0, session, outcome, rfl, stands, start⟩
    · have running : ∀ outcome, point ≠ .ended outcome := fun outcome same => ended ⟨outcome, same⟩
      obtain ⟨next, step⟩ := stepCall_isSome (free session point start running)
      obtain ⟨shared, after, move, rfl⟩ := stepCall_move step
      obtain ⟨count, final, outcome, run, rest⟩ := ih after (move.nearer (batch session point start))
        (move.task?_self stands) (moves session point shared after stands start move)
      refine ⟨count + 1, final, outcome, ?_, rest⟩
      rw [List.replicate_succ, replay?, after?, step?, stands]
      simp only [step]
      exact run

end Session

end CodeSearch
