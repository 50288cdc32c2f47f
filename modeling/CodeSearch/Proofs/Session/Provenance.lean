import CodeSearch.Proofs.Index.Looks
import CodeSearch.Proofs.Session.Exclusion
import Mathlib.Data.List.Forall2

/-! # Where tasks have their knowledge from

While files change, what a task knows comes from looks made at different moments. For tasks that
were started late enough all of these moments are late too: a load looks after it was started, a
pass lists and loads after it was started, and an update looks after it has got the lock.
-/

namespace CodeSearch

open Loading Walk

variable {α : Type} [Scalar α]

/-- The file is known by the path that leads to it. -/
structure UpdateTarget.IsNamed (target : UpdateTarget) : Prop where
  relative : target.relative = relativePath target.root target.absolute

/-- A draft whose file was read at given moments, with embeddings for the chunks that are done. -/
structure FileDraft.RestsOn (settings : Settings α) (embedder : Embedder α)
    (moments : FileSystem → Prop) (root path : String) (draft : FileDraft α) : Prop where
  looked : Looked settings moments root path (.loaded draft.record draft.chunks)
  inHand : draft.InHand embedder

/-- The file of an update was there at one of the given moments, and is of a known language. -/
structure UpdateTarget.WasThere (moments : FileSystem → Prop) (target : UpdateTarget) : Prop where
  known : isIndexable target.relative = true
  told : ∃ files size, moments files ∧ files.size target.absolute = .ok (some size)

/-- What an update is about to store, and why it may. Without a draft the file is not there, not of
a known language, or was not loaded. -/
inductive StoreRestsOn (settings : Settings α) (embedder : Embedder α)
    (moments : FileSystem → Prop) (target : UpdateTarget) : Option (FileDraft α) → Prop where
  | passedBy (files : FileSystem) (size : Option Int) (moment : moments files)
      (told : files.size target.absolute = .ok size)
      (reason : size = none ∨ isIndexable target.relative = false) :
      StoreRestsOn settings embedder moments target none
  | notLoaded (result : LoadResult α) (there : target.WasThere moments)
      (looked : Looked settings moments target.root target.absolute result)
      (nothing : ∀ record chunks, result ≠ .loaded record chunks) :
      StoreRestsOn settings embedder moments target none
  | loaded (draft : FileDraft α) (there : target.WasThere moments)
      (looked : Looked settings moments target.root target.absolute
        (.loaded draft.record draft.chunks))
      (embeddings : draft.embeddings = embeddingsOf embedder draft.chunks) :
      StoreRestsOn settings embedder moments target (some draft)

/-- What an update that is inside knows comes from looks made at given moments. -/
def CallPoint.RestsOn (settings : Settings α) (embedder : Embedder α)
    (moments : FileSystem → Prop) : CallPoint α → Prop
  | .probing target => target.IsNamed
  | .loading target point =>
    target.IsNamed ∧ target.WasThere moments ∧ Reached settings moments target.absolute point
  | .embedding target draft | .resting target draft =>
    target.IsNamed ∧ target.WasThere moments ∧
      draft.RestsOn settings embedder moments target.root target.absolute
  | .storing target draft =>
    target.IsNamed ∧ StoreRestsOn settings embedder moments target draft
  | _ => True

def LoadState.RestsOn (settings : Settings α) (moments : FileSystem → Prop) (root path : String) :
    LoadState α → Prop
  | .running point => Reached settings moments path point
  | .ended result => Looked settings moments root path result

namespace Session

/-- A load of a pass, started late enough. -/
structure IsLoadOf (session : Session α) (since : Nat) (root : String) (load : TaskId)
    (path : String) : Prop where
  late : since ≤ load
  there : ∃ owner state, session.task? load = some (.load owner root path state)

end Session

/-- What a pass knows at its place, beyond the files that are done. -/
def PassPoint.RestsOn (settings : Settings α) (embedder : Embedder α)
    (moments : FileSystem → Prop) (session : Session α) (since : Nat) (root : String)
    (done : List String) : PassPoint α → Prop
  | .walking pending found => done = [] ∧ Walking settings moments root pending found
  | .batching rest => Walking settings moments root [] (done ++ rest)
  | .collecting loads rest =>
    ∃ batch, Walking settings moments root [] (done ++ batch ++ rest) ∧
      List.Forall₂ (session.IsLoadOf since root) loads batch
  | .adding results rest =>
    ∃ batch, Walking settings moments root [] (done ++ batch ++ rest) ∧
      List.Forall₂ (fun result path => Looked settings moments root path result) results batch
  | .embedding draft results rest | .resting draft results rest =>
    ∃ path batch, Walking settings moments root [] (done ++ path :: batch ++ rest) ∧
      draft.RestsOn settings embedder moments root path ∧
      List.Forall₂ (fun result path => Looked settings moments root path result) results batch
  | .locking | .queued | .swapping => Walking settings moments root [] done
  | .ended _ => True

/-- What a pass knows comes from listings and looks made at given moments. -/
def Pass.RestsOn (settings : Settings α) (embedder : Embedder α) (moments : FileSystem → Prop)
    (session : Session α) (since : Nat) (pass : Pass α) : Prop :=
  ∃ done, Built settings embedder moments pass.root done pass.draft ∧
    pass.point.RestsOn settings embedder moments session since pass.root done

namespace Session

variable {settings : Settings α} {embedder : Embedder α} {moments : FileSystem → Prop}
  {since : Nat} {session shared next : Session α} {id : TaskId}

/-- Late tasks rest on late moments. -/
structure Grounded (settings : Settings α) (embedder : Embedder α) (moments : FileSystem → Prop)
    (since : Nat) (session : Session α) : Prop where
  loads : ∀ id owner root path state, since ≤ id →
    session.task? id = some (.load owner root path state) →
    state.RestsOn settings moments root path
  passes : ∀ id pass, since ≤ id → session.task? id = some (.pass pass) →
    (∃ path, pass.root = Path.absolute path) ∧
      pass.RestsOn settings embedder moments session since

/-- All updates that are inside rest on the given moments. -/
def CallsRest (settings : Settings α) (embedder : Embedder α) (moments : FileSystem → Prop)
    (session : Session α) : Prop :=
  ∀ id point, session.task? id = some (.call point) → point.RestsOn settings embedder moments

/-- A call that goes on rests on what it has just seen and on what it rested on. -/
theorem CallMove.rests {point after : CallPoint α}
    (rests : point.RestsOn session.settings session.embedder moments)
    (moment : moments session.files) (move : CallMove session id point shared after) :
    after.RestsOn session.settings session.embedder moments := by
  cases move with
  | quiet _ _ move =>
    cases move with
    -- The two sides meet before any path is computed, which `rfl` would try first.
    | probes => exact ⟨by dsimp only⟩
    | opens target size told known =>
      exact ⟨⟨rests.relative⟩, ⟨known, session.files, size, moment, told⟩, .sizing⟩
    | passesBy target size told reason =>
      exact ⟨⟨rests.relative⟩, .passedBy session.files size moment told reason⟩
    | looks target point next step => exact ⟨rests.1, rests.2.1, rests.2.2.goesOn moment step⟩
    | loaded target point record chunks step =>
      exact ⟨rests.1, rests.2.1, rests.2.2.ends moment step,
        FileDraft.inHand_start session.embedder record chunks⟩
    | notLoaded target point result step nothing =>
      exact ⟨rests.1, .notLoaded result rests.2.1 (rests.2.2.ends moment step) nothing⟩
    | embedded target draft finished =>
      obtain ⟨named, there, looked, inHand⟩ := rests
      exact ⟨named, .loaded draft there looked (inHand.embeddings finished)⟩
    | embeds target draft =>
      obtain ⟨named, there, looked, inHand⟩ := rests
      exact ⟨named, there, looked, inHand.embedBatch session.settings.embeddingBatchSize⟩
    | rested => exact rests
    | refused => exact trivial
    | awaits => exact trivial
    | goesAhead => exact trivial
    | failedWith => exact trivial
    | reported => exact trivial
    | updates => exact trivial
    | serves => exact trivial
    | entered => exact trivial
    | shown => exact trivial
    | reads => exact trivial
    | takes => exact trivial
    | skips => exact trivial
    | breaksOff => exact trivial
  | answered => exact trivial
  | indexes => exact trivial
  | searched => exact trivial
  | contextReady => exact trivial
  | contextServed => exact trivial
  | contextWaits => exact trivial
  | cleared => exact trivial
  | queued => exact trivial
  | gaveUp => exact trivial
  | stored => exact trivial
  | finds => exact trivial

theorem CallsRest.move (rests : session.CallsRest session.settings session.embedder moments)
    (moment : moments session.files) (move : Move session id next) :
    next.CallsRest session.settings session.embedder moments := by
  intro other point stands
  rcases move.call_origin stands with ⟨-, stood⟩ | ⟨-, before, shared, stood, step, -⟩
  · exact rests other point stood
  · exact step.rests (rests id before stood) moment

/-! ## Passes and their loads -/

theorem IsLoadOf.move {root path : String} {load : TaskId}
    (ofPass : session.IsLoadOf since root load path) (move : Move session id next) :
    next.IsLoadOf since root load path := by
  obtain ⟨owner, state, stood⟩ := ofPass.there
  obtain ⟨after, stands⟩ := move.load_stays stood
  exact ⟨ofPass.late, owner, after, stands⟩

private theorem passRests_mono {other : Session α} {pass : Pass α}
    (loads : ∀ load path, session.IsLoadOf since pass.root load path →
      other.IsLoadOf since pass.root load path)
    (rests : pass.RestsOn settings embedder moments session since) :
    pass.RestsOn settings embedder moments other since := by
  obtain ⟨done, built, known⟩ := rests
  refine ⟨done, built, ?_⟩
  generalize pass.point = point at known
  cases point with
  | collecting loading rest =>
    obtain ⟨batch, walk, loadsOf⟩ := known
    exact ⟨batch, walk, loadsOf.imp loads⟩
  | walking => exact known
  | batching => exact known
  | adding => exact known
  | embedding => exact known
  | resting => exact known
  | locking => exact known
  | queued => exact known
  | swapping => exact known
  | ended => exact known

private theorem passRests_move {pass : Pass α}
    (rests : pass.RestsOn settings embedder moments session since) (move : Move session id next) :
    pass.RestsOn settings embedder moments next since :=
  passRests_mono (fun _ _ ofPass => ofPass.move move) rests

/-- The results of loads are told in the order of the loads. -/
theorem forall₂_of_results {loads : List TaskId} {results : List (LoadResult α)}
    (ended : loads.mapM session.loadResult? = some results) :
    List.Forall₂ (fun load result => session.loadResult? load = some result) loads results := by
  induction loads generalizing results with
  | nil =>
    cases ended
    exact .nil
  | cons load loads ih =>
    simp only [List.mapM_cons, Option.bind_eq_bind, Option.bind_eq_some_iff, Option.pure_def,
      Option.some.injEq] at ended
    obtain ⟨result, own, others, ended, rfl⟩ := ended
    exact .cons own (ih ended)

private theorem forall₂_looked {loads : List TaskId} {results : List (LoadResult α)}
    {root : String} {batch : List String}
    (ended : List.Forall₂ (fun load result => session.loadResult? load = some result) loads results)
    (loadsOf : List.Forall₂ (session.IsLoadOf since root) loads batch)
    (grounded : session.Grounded settings embedder moments since) :
    List.Forall₂ (fun result path => Looked settings moments root path result) results batch := by
  induction loadsOf generalizing results with
  | nil =>
    cases ended
    exact .nil
  | cons ofPass rest ih =>
    obtain _ | ⟨own, others⟩ := ended
    refine .cons ?_ (ih others)
    obtain ⟨_, _, _, stands⟩ := loadResult?_eq_some_iff.mp own
    obtain ⟨_, _, stood⟩ := ofPass.there
    cases stood.symm.trans stands
    exact grounded.loads _ _ _ _ _ ofPass.late stood

/-- The loads of a batch are started under the numbers that follow. -/
theorem task?_started {pass : Pass α} (after : Pass α) {batch : List String} {index : Nat}
    (inBatch : index < batch.length) (stood : session.task? id = some (.pass pass)) :
    ((session.start (batch.map fun path => .load id pass.root path (.running .sizing))).setPass id
        after).task? (session.tasks.length + index) =
      some (.load id pass.root batch[index] (.running .sizing)) := by
  have before : id < session.tasks.length := lt_of_task? stood
  have apart : ¬ id = session.tasks.length + index :=
    Nat.ne_of_lt (Nat.lt_of_lt_of_le before (Nat.le_add_right _ _))
  rw [setPass, task?_setTask _ _ _ _
    (by simpa [start] using Nat.lt_of_lt_of_le before (Nat.le_add_right _ _)), if_neg apart,
    task?_start, if_neg (Nat.not_lt.mpr (Nat.le_add_right _ _)), Nat.add_sub_cancel_left,
    List.getElem?_map, List.getElem?_eq_getElem inBatch]
  rfl

private theorem forall₂_started {pass : Pass α} {after : Pass α} {batch : List String}
    (late : since ≤ session.tasks.length) (stood : session.task? id = some (.pass pass)) :
    List.Forall₂
      (((session.start (batch.map fun path =>
        .load id pass.root path (.running .sizing))).setPass id after).IsLoadOf since pass.root)
      ((List.range batch.length).map (session.tasks.length + ·)) batch := by
  rw [List.forall₂_iff_get]
  refine ⟨by simp, ?_⟩
  intro index inLoads inBatch
  simp only [List.get_eq_getElem, List.getElem_map, List.getElem_range]
  exact ⟨Nat.le_trans late (Nat.le_add_right _ _), id, .running .sizing, task?_started _ inBatch stood⟩

private theorem QuietPassMove.rests {pass after : Pass α}
    (rests : pass.RestsOn session.settings session.embedder moments session since)
    (grounded : session.Grounded session.settings session.embedder moments since)
    (moment : moments session.files) (move : QuietPassMove session id pass after) :
    after.RestsOn session.settings session.embedder moments session since := by
  obtain ⟨done, built, known⟩ := rests
  cases move with
  | walked found stands =>
    rw [stands] at known
    obtain ⟨rfl, walk⟩ := known
    exact ⟨[], built, walk⟩
  | finds path rest found stands =>
    rw [stands] at known
    exact ⟨done, built, known.1, .finds path rest found known.2⟩
  | lists path rest targets found stands listed =>
    rw [stands] at known
    exact ⟨done, built, known.1, .lists path rest targets found session.files known.2 moment listed⟩
  | completes stands =>
    rw [stands] at known
    have walk : Walking session.settings moments pass.root [] (done ++ []) := known
    rw [List.append_nil] at walk
    exact ⟨done, .dated done pass.draft session.now built, walk⟩
  | collects loads rest results stands ended =>
    rw [stands] at known
    obtain ⟨batch, walk, loadsOf⟩ := known
    exact ⟨done, built, batch, walk, forall₂_looked (forall₂_of_results ended) loadsOf grounded⟩
  | batchDone rest stands =>
    rw [stands] at known
    obtain ⟨batch, walk, none⟩ := known
    cases none
    rw [List.append_nil] at walk
    exact ⟨done, built, walk⟩
  | embedsNext record chunks results rest stands =>
    rw [stands] at known
    obtain ⟨_, walk, looks⟩ := known
    cases looks with
    | cons looked looks =>
      exact ⟨done, built, _, _, walk,
        ⟨looked, FileDraft.inHand_start session.embedder record chunks⟩, looks⟩
  | leavesOut result results rest stands nothing =>
    rw [stands] at known
    obtain ⟨_, walk, looks⟩ := known
    cases looks with
    | @cons _ path _ batch looked looks =>
      refine ⟨done ++ [path], .skips path done pass.draft result built looked nothing, batch, ?_,
        looks⟩
      simpa using walk
  | adds draft results rest stands finished =>
    rw [stands] at known
    obtain ⟨path, batch, walk, ⟨looked, inHand⟩, looks⟩ := known
    refine ⟨done ++ [path], ?_, batch, ?_, looks⟩
    · have added := built.adds path done pass.draft draft.record draft.chunks looked
      rw [← inHand.embeddings finished] at added
      exact added
    · simpa using walk
  | embeds draft results rest stands more =>
    rw [stands] at known
    obtain ⟨path, batch, walk, ⟨looked, inHand⟩, looks⟩ := known
    exact ⟨done, built, path, batch, walk,
      ⟨looked, inHand.embedBatch session.settings.embeddingBatchSize⟩, looks⟩
  | rested draft results rest stands =>
    rw [stands] at known
    exact ⟨done, built, known⟩
  | entered stands =>
    rw [stands] at known
    exact ⟨done, built, known⟩

private theorem PassMove.rests {pass after : Pass α}
    (rests : pass.RestsOn session.settings session.embedder moments session since)
    (grounded : session.Grounded session.settings session.embedder moments since)
    (moment : moments session.files) (late : since ≤ session.tasks.length)
    (stood : session.task? id = some (.pass pass)) (move : PassMove session id pass shared after) :
    after.RestsOn session.settings session.embedder moments (shared.setPass id after) since := by
  have step := Move.pass pass after shared stood move
  cases move with
  | quiet _ move => exact passRests_move (move.rests rests grounded moment) step
  | fails =>
    obtain ⟨done, built, _⟩ := rests
    exact ⟨done, built, trivial⟩
  | loads paths stands =>
    obtain ⟨done, built, known⟩ := rests
    rw [stands] at known
    refine ⟨done, built, paths.take session.settings.fileReadBatchSize.toNat, ?_,
      forall₂_started late stood⟩
    rw [List.append_assoc, List.take_append_drop]
    exact known
  | queued stands =>
    obtain ⟨done, built, known⟩ := rests
    rw [stands] at known
    exact ⟨done, built, known⟩
  | swaps =>
    obtain ⟨done, built, _⟩ := rests
    exact ⟨done, built, trivial⟩
  | discards =>
    obtain ⟨done, built, _⟩ := rests
    exact ⟨done, built, trivial⟩

theorem projectPath_eq_absolute {path : Argument String} {root : String}
    (accepted : path.projectPath = .ok root) : ∃ given, root = Path.absolute given := by
  cases path with
  | given text =>
    simp only [Argument.projectPath] at accepted
    split at accepted
    · cases accepted
    · cases accepted; exact ⟨text, rfl⟩
  | other kind => cases accepted

theorem Grounded.move (grounded : session.Grounded session.settings session.embedder moments since)
    (moment : moments session.files) (late : since ≤ session.tasks.length)
    (move : Move session id next) :
    next.Grounded session.settings session.embedder moments since where
  loads other owner root path state lateLoad stands := by
    cases move.origin_load stands with
    | kept _ _ stood => exact grounded.loads other owner root path state lateLoad stood
    | started => exact .sizing
    | looks point after _ stood step =>
      exact (grounded.loads other owner root path _ lateLoad stood).goesOn moment step
    | ends point result _ stood step =>
      exact (grounded.loads other owner root path _ lateLoad stood).ends moment step
  passes other pass latePass stands := by
    cases move.origin_pass stands with
    | kept _ _ stood =>
      obtain ⟨rooted, rests⟩ := grounded.passes other pass latePass stood
      exact ⟨rooted, passRests_move rests move⟩
    | told before message _ stood =>
      obtain ⟨rooted, rests⟩ := grounded.passes other before latePass stood
      exact ⟨rooted, passRests_move rests move⟩
    | started path root accepted =>
      exact ⟨projectPath_eq_absolute accepted, [], .empty _ _, rfl, .start⟩
    | moved before _ shared own stood step set =>
      subst own set
      obtain ⟨rooted, rests⟩ := grounded.passes other before latePass stood
      exact ⟨step.running.2 ▸ rooted, step.rests rests grounded moment late stood⟩

private theorem isLoadOf_call {root path : String} {load : TaskId}
    (ofPass : session.IsLoadOf since root load path) (request : Request α) :
    (session.start [.call (.made request)]).IsLoadOf since root load path := by
  obtain ⟨owner, state, stood⟩ := ofPass.there
  exact ⟨ofPass.late, owner, state, task?_call_of stood request⟩

theorem Grounded.of_tasks {other : Session α} (same : other.tasks = session.tasks)
    (grounded : session.Grounded settings embedder moments since) :
    other.Grounded settings embedder moments since where
  loads id owner root path state late stands := by
    rw [task?, same] at stands
    exact grounded.loads id owner root path state late stands
  passes id pass late stands := by
    rw [task?, same] at stands
    obtain ⟨rooted, rests⟩ := grounded.passes id pass late stands
    refine ⟨rooted, passRests_mono ?_ rests⟩
    intro load path ofPass
    obtain ⟨owner, state, stood⟩ := ofPass.there
    refine ⟨ofPass.late, owner, state, ?_⟩
    rw [task?, same]
    exact stood

theorem Grounded.event
    (grounded : session.Grounded session.settings session.embedder moments since)
    (moment : moments session.files) (late : since ≤ session.tasks.length) {event : Event α}
    (happened : session.after? event = some next) :
    next.Grounded session.settings session.embedder moments since := by
  cases after?_move happened with
  | call request =>
    refine ⟨?_, ?_⟩
    · intro id owner root path state lateLoad stands
      rw [task?_call] at stands
      split at stands
      · cases stands
      · exact grounded.loads id owner root path state lateLoad stands
    · intro id pass latePass stands
      obtain ⟨rooted, rests⟩ := grounded.passes id pass latePass (pass_of_call stands)
      exact ⟨rooted, passRests_mono (fun _ _ ofPass => isLoadOf_call ofPass request) rests⟩
  | step id _ move => exact grounded.move moment late move
  | leave =>
    refine Grounded.of_tasks ?_ grounded
    rfl
  | files =>
    refine Grounded.of_tasks ?_ grounded
    rfl
  | time =>
    refine Grounded.of_tasks ?_ grounded
    rfl

theorem CallsRest.event (rests : session.CallsRest session.settings session.embedder moments)
    (moment : moments session.files) {event : Event α}
    (happened : session.after? event = some next) :
    next.CallsRest session.settings session.embedder moments := by
  cases after?_move happened with
  | call request =>
    intro id point stands
    rw [task?_call] at stands
    split at stands
    · cases stands
      exact trivial
    · exact rests id point stands
  | step id _ move => exact rests.move moment move
  | leave => exact rests
  | files => exact rests
  | time => exact rests

end Session

end CodeSearch
