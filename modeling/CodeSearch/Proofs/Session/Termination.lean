import CodeSearch.Proofs.Files.Depth
import CodeSearch.Proofs.Session.Waiting
import Mathlib.Logic.Hydra

/-! # Sessions come to rest

While no further calls are made and the files and the time stay as they are, tasks come nearer to
their ends with every step. A step may start other tasks: a call starts a pass, and a pass starts
loads. So the tasks are measured as in the game of the hydra, in which a head that is cut off grows
again as any number of lesser ones. Since no session gets stuck, whatever the order of the turns all
calls return and all passes end.
-/

namespace CodeSearch

open Relation

variable {α : Type} [Scalar α]

/-- How far a task is from its end, the nearest first: the looks of a load, the files and chunks that
lie before a pass, the targets that it has to walk to, and the parts that lie before a call. -/
abbrev Ahead := Nat ⊕ (Nat × Nat × Nat) ⊕ Multiset Walk.Target ⊕ (Nat × Nat)

/-- A pass that walks has its targets ahead. Later it has the files ahead that are not loaded, each
with three parts, then those that are not added, and the chunks of the one that is embedded. -/
def PassPoint.ahead : PassPoint α → Ahead
  | .walking pending _ => .inr (.inr (.inl pending))
  | .batching rest => .inr (.inl (4 + 3 * rest.length, 0, 0))
  | .collecting _ rest => .inr (.inl (4 + 3 * rest.length + 2, 0, 0))
  | .adding results rest => .inr (.inl (4 + 3 * rest.length + 1, results.length, 0))
  | .embedding draft results rest =>
    .inr (.inl (4 + 3 * rest.length + 1, results.length, 2 * draft.remaining.length + 1))
  | .resting draft results rest =>
    .inr (.inl (4 + 3 * rest.length + 1, results.length, 2 * draft.remaining.length + 2))
  | .locking => .inr (.inl (3, 0, 0))
  | .queued => .inr (.inl (2, 0, 0))
  | .swapping => .inr (.inl (1, 0, 0))
  | .ended _ => .inr (.inl (0, 0, 0))

def LoadState.ahead : LoadState α → Nat
  | .running point => point.ahead + 1
  | .ended _ => 0

def Task.ahead : Task α → Ahead
  | .load _ _ _ state => .inl state.ahead
  | .pass state => state.point.ahead
  | .call point => .inr (.inr (.inr point.ahead))

/-- A task is less when less lies ahead of it. Every load is less than a pass, and every pass less
than a call. -/
def Ahead.Less (settings : Settings α) (files : FileSystem) : Ahead → Ahead → Prop :=
  Sum.Lex (· < ·) <| Sum.Lex (Prod.Lex (· < ·) (Prod.Lex (· < ·) (· < ·))) <|
    Sum.Lex (CutExpand fun below above => Walk.Leads settings files above below) <|
      Prod.Lex (· < ·) (· < ·)

theorem Ahead.less_wellFounded (settings : Settings α) {files : FileSystem}
    (deep : files.HasDepth) : WellFounded (Less settings files) := by
  have pairs : WellFounded (Prod.Lex (· < ·) (· < ·) : Nat × Nat → Nat × Nat → Prop) :=
    (Prod.lex Nat.lt_wfRel Nat.lt_wfRel).wf
  have triples : WellFounded (Prod.Lex (· < ·) (Prod.Lex (· < ·) (· < ·)) :
      Nat × Nat × Nat → Nat × Nat × Nat → Prop) := WellFounded.prod_lex Nat.lt_wfRel.wf pairs
  have targets := (Walk.leads_wellFounded settings deep).cutExpand
  exact Sum.lex_wf Nat.lt_wfRel.wf (Sum.lex_wf triples (Sum.lex_wf targets pairs))

namespace Session

variable {session shared next : Session α} {id : TaskId}

/-- What lies ahead of all tasks. -/
def ahead (session : Session α) : Multiset Ahead := (session.tasks.map Task.ahead : List Ahead)

omit [Scalar α] in
private theorem cutExpand_set {less : Ahead → Ahead → Prop} {tasks started : List (Task α)}
    {before after : Task α} (stood : tasks[id]? = some before)
    (nearer : less after.ahead before.ahead)
    (lesser : ∀ task ∈ started, less task.ahead before.ahead) :
    CutExpand less (((tasks ++ started).set id after).map Task.ahead : List Ahead)
      (tasks.map Task.ahead : List Ahead) := by
  obtain ⟨present, rfl⟩ := List.getElem?_eq_some_iff.mp stood
  refine ⟨((after :: started).map Task.ahead : List Ahead), (tasks[id]).ahead, ?_, ?_⟩
  · simpa using ⟨nearer, lesser⟩
  · rw [List.set_append_left _ _ present, ← Multiset.coe_singleton, Multiset.coe_add,
      Multiset.coe_add, Multiset.coe_eq_coe, ← List.map_singleton (f := Task.ahead),
      ← List.map_append, ← List.map_append]
    refine List.Perm.map _ ?_
    have others := List.getElem_cons_eraseIdx_perm present
    calc (tasks.set id after ++ started ++ [tasks[id]]).Perm
          ((after :: tasks.eraseIdx id) ++ started ++ [tasks[id]]) :=
        ((List.set_perm_cons_eraseIdx present after).append_right _).append_right _
      List.Perm _ (tasks[id] :: after :: (tasks.eraseIdx id ++ started)) :=
        List.perm_append_singleton _ _
      List.Perm _ (after :: tasks[id] :: (tasks.eraseIdx id ++ started)) := .swap _ _ _
      List.Perm _ (after :: (tasks ++ started)) := (others.append_right started).cons after
      List.Perm _ (tasks ++ after :: started) := List.perm_middle.symm

private theorem ahead_tellOwner (owner : TaskId) (message : String) :
    (session.tellOwner owner message).ahead = session.ahead := by
  unfold tellOwner
  split
  · next pass stands =>
    obtain ⟨present, same⟩ := List.getElem?_eq_some_iff.mp stands
    have within : owner < (session.tasks.map Task.ahead).length := by simpa using present
    have unmoved : Task.ahead (.pass (pass.told message)) = (session.tasks.map Task.ahead)[owner] := by
      rw [List.getElem_map, same]
      rfl
    rw [setPass, setTask, ahead, List.map_set]
    change ((session.tasks.map Task.ahead).set owner (Task.ahead (.pass (pass.told message))) :
      Multiset Ahead) = _
    rw [unmoved, List.set_getElem_self]
    rfl
  · rfl

private theorem QuietPassMove.nearer {pass after : Pass α}
    (embeddings : 1 ≤ session.settings.embeddingBatchSize)
    (move : QuietPassMove session id pass after) :
    Ahead.Less session.settings session.files after.point.ahead pass.point.ahead := by
  cases move with
  | walked found stands => rw [stands]; exact .inr (.sep _ _)
  | finds path rest found stands =>
    rw [stands]
    refine .inr (.inr (.inl ⟨0, .file path, by simp, ?_⟩))
    rw [add_zero, ← Multiset.cons_coe, ← Multiset.singleton_add]
    exact add_comm _ _
  | lists path rest targets found stands listed =>
    rw [stands]
    refine .inr (.inr (.inl ⟨targets, .directory path, ?_, ?_⟩))
    · exact fun target member => (Walk.leads_iff_mem listed).mpr (by simpa using member)
    · rw [← Multiset.coe_add, ← Multiset.cons_coe, ← Multiset.singleton_add]
      ac_rfl
  | completes stands => rw [stands]; exact .inr (.inl (.left _ _ (by simp)))
  | collects loads rest results stands =>
    rw [stands]; exact .inr (.inl (.left _ _ (by simp)))
  | batchDone rest stands => rw [stands]; exact .inr (.inl (.left _ _ (by simp)))
  | embedsNext record chunks results rest stands =>
    rw [stands]; exact .inr (.inl (.right _ (.left _ _ (by simp))))
  | leavesOut result results rest stands =>
    rw [stands]; exact .inr (.inl (.right _ (.left _ _ (by simp))))
  | adds draft results rest stands =>
    rw [stands]; exact .inr (.inl (.right _ (.right _ (by simp))))
  | embeds draft results rest stands more =>
    rw [stands]
    have fewer := draft.remaining_embedBatch_lt session.embedder embeddings more
    exact .inr (.inl (.right _ (.right _ (by omega))))
  | rested draft results rest stands =>
    rw [stands]; exact .inr (.inl (.right _ (.right _ (by simp))))
  | entered stands => rw [stands]; exact .inr (.inl (.left _ _ (by simp)))

private theorem PassMove.nearer {pass after : Pass α}
    (reads : 1 ≤ session.settings.fileReadBatchSize)
    (embeddings : 1 ≤ session.settings.embeddingBatchSize)
    (move : PassMove session id pass shared after) :
    Ahead.Less session.settings session.files after.point.ahead pass.point.ahead := by
  cases move with
  | quiet _ move => exact move.nearer embeddings
  | fails path rest found fault stands => rw [stands]; exact .inr (.sep _ _)
  | loads paths stands more =>
    rw [stands]
    refine .inr (.inl (.left _ _ ?_))
    have some := List.length_pos_iff.mpr more
    rw [List.length_drop]
    omega
  | queued stands => rw [stands]; exact .inr (.inl (.left _ _ (by simp)))
  | swaps stands => rw [stands]; exact .inr (.inl (.left _ _ (by simp)))
  | discards stands => rw [stands]; exact .inr (.inl (.left _ _ (by simp)))

/-- Every step comes nearer to the end of all tasks. -/
theorem Move.nearer (reads : 1 ≤ session.settings.fileReadBatchSize)
    (embeddings : 1 ≤ session.settings.embeddingBatchSize) (move : Move session id next) :
    CutExpand (Ahead.Less session.settings session.files) next.ahead session.ahead := by
  have ofLoad : ∀ (owner : TaskId) (root path : String) (point : LoadPoint) (state : LoadState α),
      session.task? id = some (.load owner root path (.running point)) →
      state.ahead < point.ahead + 1 →
      CutExpand (Ahead.Less session.settings session.files)
        (session.setTask id (.load owner root path state)).ahead session.ahead := by
    intro owner root path point state stands less
    rw [ahead, setTask, ← List.append_nil session.tasks]
    exact cutExpand_set stands (.inl less) (by simp)
  cases move with
  | call point after shared stands move =>
    have nearer : Ahead.Less session.settings session.files (Task.call after).ahead
        (Task.call point).ahead := .inr (.inr (.inr (move.nearer embeddings)))
    rcases move.tasks with same | ⟨path, root, -, same⟩
    · rw [ahead, setCall, setTask, same, ← List.append_nil session.tasks]
      exact cutExpand_set stands nearer (by simp)
    · rw [ahead, setCall, setTask, same]
      refine cutExpand_set stands nearer ?_
      intro task member
      rw [List.mem_singleton.mp member]
      exact .inr (.inr (.sep _ _))
  | pass pass after shared stands move =>
    obtain ⟨paths, same⟩ := move.tasks
    rw [ahead, setPass, setTask, same]
    refine cutExpand_set stands (move.nearer reads embeddings) ?_
    intro task member
    obtain ⟨path, -, rfl⟩ := List.mem_map.mp member
    obtain ⟨left, same⟩ : ∃ left, pass.point.ahead = .inr left := by
      cases pass.point <;> exact ⟨_, rfl⟩
    change Ahead.Less _ _ (.inl _) pass.point.ahead
    rw [same]
    exact .sep _ _
  | looks owner root path point after stands step =>
    exact ofLoad owner root path point _ stands (Nat.succ_lt_succ (Loading.ahead_lt step))
  | ends owner root path point result stands =>
    exact ofLoad owner root path point _ stands (Nat.succ_pos _)
  | fails owner root path point message stands =>
    rw [ahead_tellOwner]
    exact ofLoad owner root path point _ stands (Nat.succ_pos _)

/-! ## Whatever the order of the turns -/

/-- A turn of the session: a task makes a step, or a pass that has ended leaves the table. -/
def TurnsTo (session next : Session α) : Prop :=
  ∃ id, session.after? (.step id) = some next ∨ session.after? (.leave id) = some next

/-- The goal is reached at some time while turns are taken, in whatever order they are. -/
inductive Inevitable (goal : Session α → Prop) : Session α → Prop where
  | now (session : Session α) (reached : goal session) : Inevitable goal session
  | later (session : Session α) (turn : ∃ next, session.TurnsTo next)
      (onward : ∀ next, session.TurnsTo next → Inevitable goal next) : Inevitable goal session

/-- What turns keep may be used where the goal is reached. -/
theorem Inevitable.imp {goal other : Session α → Prop} (inevitable : session.Inevitable goal)
    (keeps : Session α → Prop)
    (kept : ∀ session next, keeps session → session.TurnsTo next → keeps next)
    (start : keeps session) (reaches : ∀ session, keeps session → goal session → other session) :
    session.Inevitable other := by
  induction inevitable with
  | now session reached => exact .now session (reaches session start reached)
  | later session turn onward ih =>
    exact .later session turn fun next turns => ih next turns (kept session next start turns)

/-- A session that is not at rest has a turn to take. -/
theorem NeverStuck.turns (neverStuck : session.NeverStuck) (tabled : session.Tabled)
    (unrest : ¬ session.AtRest) : ∃ next, session.TurnsTo next := by
  by_cases ended : ∀ id task, session.task? id = some task → task.HasEnded
  · have leaving : session.leaving ≠ [] := fun none => unrest ⟨ended, none⟩
    obtain ⟨id, member⟩ := List.exists_mem_of_ne_nil _ leaving
    obtain ⟨pass, stands, -⟩ := tabled.leaving id member
    exact ⟨_, id, .inr (by simp only [after?, leave?, stands, if_pos member]; rfl)⟩
  · simp only [not_forall] at ended
    obtain ⟨id, task, stands, running⟩ := ended
    obtain ⟨other, next, -, step⟩ := neverStuck.goesOn id task stands running
    exact ⟨next, other, .inl step⟩

private theorem TurnsTo.nearer (turns : session.TurnsTo next)
    (reads : 1 ≤ session.settings.fileReadBatchSize)
    (embeddings : 1 ≤ session.settings.embeddingBatchSize) :
    (next.settings = session.settings ∧ next.files = session.files) ∧
      Prod.Lex (CutExpand (Ahead.Less session.settings session.files)) (· < ·)
        (next.ahead, next.leaving.length) (session.ahead, session.leaving.length) := by
  obtain ⟨id, happened | happened⟩ := turns
  · cases after?_move happened with
    | step _ _ move =>
      exact ⟨⟨move.world.settings, move.world.files⟩, .left _ _ (move.nearer reads embeddings)⟩
  · cases after?_move happened with
    | leave _ pass _ member =>
      refine ⟨⟨rfl, rfl⟩, .right _ ?_⟩
      change (session.leaving.erase id).length < _
      rw [List.length_erase_of_mem member]
      exact Nat.sub_one_lt (List.length_pos_of_mem member).ne'

/-- Without further calls every session comes to rest, in whatever order turns are taken. -/
theorem IsNew.comes_to_rest {start : Session α} {events : List (Event α)} (new : start.IsNew)
    (run : start.replay? events = some session) (deep : session.files.HasDepth)
    (reads : 1 ≤ session.settings.fileReadBatchSize)
    (embeddings : 1 ≤ session.settings.embeddingBatchSize) : session.Inevitable AtRest := by
  generalize same : session.settings = settings
  generalize sameFiles : session.files = files
  rw [sameFiles] at deep
  have wellFounded := WellFounded.prod_lex (Ahead.less_wellFounded settings deep).cutExpand
    Nat.lt_wfRel.wf
  generalize measure : (session.ahead, session.leaving.length) = left
  induction left using wellFounded.induction generalizing session events with
  | _ left ih =>
    by_cases rest : session.AtRest
    · exact .now session rest
    · have neverStuck := runs_never_get_stuck new run
      refine .later session (neverStuck.turns (new.tabled_of_run run) rest) ?_
      intro next turns
      obtain ⟨⟨settingsNext, filesNext⟩, nearer⟩ := turns.nearer reads embeddings
      obtain ⟨id, happened⟩ := turns
      have reached : ∃ event, start.replay? (events ++ [event]) = some next :=
        happened.elim (fun step => ⟨_, replay?_concat run step⟩)
          fun leave => ⟨_, replay?_concat run leave⟩
      obtain ⟨event, reached⟩ := reached
      subst same sameFiles measure
      exact ih _ nearer reached (settingsNext ▸ reads) (settingsNext ▸ embeddings) settingsNext
        filesNext rfl

/-- Every pass ends. -/
theorem IsNew.passes_end {start : Session α} {events : List (Event α)} (new : start.IsNew)
    (run : start.replay? events = some session) (deep : session.files.HasDepth)
    (reads : 1 ≤ session.settings.fileReadBatchSize)
    (embeddings : 1 ≤ session.settings.embeddingBatchSize) {pass : Pass α}
    (stands : session.task? id = some (.pass pass)) :
    session.Inevitable fun later => ∃ outcome, later.passOutcome? id = some outcome := by
  have rests := new.comes_to_rest run deep reads embeddings
  refine rests.imp (fun later => ∃ pass, later.task? id = some (.pass pass)) ?_ ⟨pass, stands⟩ ?_
  · rintro before next ⟨pass, stood⟩ ⟨mover, happened | happened⟩
    · cases after?_move happened with
      | step _ _ move =>
        obtain ⟨after, there, -⟩ := move.pass_stays stood
        exact ⟨after, there⟩
    · cases after?_move happened
      exact ⟨pass, stood⟩
  · rintro later ⟨pass, there⟩ rest
    obtain ⟨outcome, ended⟩ := rest.tasks id _ there
    exact ⟨outcome, passOutcome?_eq_some_iff.mpr ⟨pass, there, ended⟩⟩

/-- Every call returns. -/
theorem IsNew.calls_return {start : Session α} {events : List (Event α)} (new : start.IsNew)
    (run : start.replay? events = some session) (deep : session.files.HasDepth)
    (reads : 1 ≤ session.settings.fileReadBatchSize)
    (embeddings : 1 ≤ session.settings.embeddingBatchSize) {point : CallPoint α}
    (stands : session.task? id = some (.call point)) :
    session.Inevitable fun later => ∃ outcome, later.outcome? id = some outcome := by
  have rests := new.comes_to_rest run deep reads embeddings
  refine rests.imp (fun later => ∃ point, later.task? id = some (.call point)) ?_ ⟨point, stands⟩ ?_
  · rintro before next ⟨point, stood⟩ ⟨mover, happened | happened⟩
    all_goals
      rcases after?_call stood happened with ⟨-, after, -, -, -, there⟩ | ⟨-, there⟩
      · exact ⟨after, there⟩
      · exact ⟨point, there⟩
  · rintro later ⟨point, there⟩ rest
    obtain ⟨outcome, rfl⟩ := rest.tasks id _ there
    exact ⟨outcome, by rw [outcome?, there]⟩

end Session

end CodeSearch
