import CodeSearch.Proofs.Session.Loads
import CodeSearch.Proofs.Session.Termination

/-! # What passes have taken in

While the files stay as they are, what a pass holds at any time comes from the results of its loads
as if they had been added one after another, whatever the order in which the loads have come about;
only what it was told of faults may be in another order. Time may go on meanwhile, so that each
result belongs to a moment of its own.
-/

namespace CodeSearch

open Loading Walk

variable {α : Type} [Scalar α]

/-- What a pass has taken in so far. -/
def Pass.part (pass : Pass α) : PartialIndex α :=
  { draft := pass.draft, indexed := pass.indexed, errors := pass.errors }

/-- One part of an index is another, but that something more was told of it. -/
structure PartialIndex.IsBut (part other : PartialIndex α) (more : List String) : Prop where
  draft : part.draft = other.draft
  indexed : part.indexed = other.indexed
  errors : part.errors.Perm (other.errors ++ more)

/-- A walk is done, and has found what is discovered. -/
structure HasFound (world : Session α) (root : String) (scanned : Nat) (paths : List String) :
    Prop where
  walk : Walking world.settings (· = world.files) root [] paths
  discovered : discover world.settings world.files root = .ok paths
  scanned : scanned = paths.length

/-- Everything but a change of the files, and the time only changes to certain moments. -/
def Event.IsWithin (moments : α → Prop) : Event α → Prop
  | .call _ | .step _ | .leave _ => True
  | .files _ => False
  | .time now => moments now

/-- A session goes on over the files of another one, at one of certain moments. -/
structure Session.GoesOn (world : Session α) (moments : α → Prop) (session : Session α) : Prop where
  settings : session.settings = world.settings
  embedder : session.embedder = world.embedder
  files : session.files = world.files
  now : moments session.now

/-- What loading a file may give at one of certain moments. -/
def Session.MaySee (world : Session α) (moments : α → Prop) (root path : String)
    (result : LoadResult α) : Prop :=
  ∃ now, moments now ∧ result = look world.settings world.files now root path

/-- What is known of a load. -/
def LoadState.MaySee (world : Session α) (moments : α → Prop) (root path : String) :
    LoadState α → Prop
  | .running point => Reached world.settings (· = world.files) path point
  | .ended result => world.MaySee moments root path result

/-- What a project has when files were taken in, one after another and each at one of certain
moments. -/
inductive TakenIn (world : Session α) (moments : α → Prop) (root : String) :
    List String → PartialIndex α → Prop where
  | nothing : TakenIn world moments root [] { draft := (Pass.start world.settings root).draft }
  | next (done : List String) (path : String) (part : PartialIndex α) (result : LoadResult α)
      (before : TakenIn world moments root done part)
      (seen : world.MaySee moments root path result) :
      TakenIn world moments root (done ++ [path]) (part.add world.embedder result)

/-- A pass holds what some of the files that were found have given, and was told something more;
other files are still ahead. -/
structure Pass.Holds (world : Session α) (moments : α → Prop) (pass : Pass α)
    (done ahead : List String) (part : PartialIndex α) (more : List String) : Prop where
  found : HasFound world pass.root pass.scanned (done ++ ahead)
  taken : TakenIn world moments pass.root done part
  same : pass.part.IsBut part more

/-- A pass has done with all the files that were found, and its draft is dated. -/
def Pass.IsComplete (world : Session α) (moments : α → Prop) (pass : Pass α) : Prop :=
  ∃ done part now, moments now ∧ HasFound world pass.root pass.scanned done ∧
    TakenIn world moments pass.root done part ∧ pass.part.IsBut (part.dated now) []

/-- Where a pass stands, in terms of the files that it has taken in one after another. -/
def PassPoint.IsTaking (world : Session α) (moments : α → Prop) (session : Session α) (id : TaskId)
    (pass : Pass α) : PassPoint α → Prop
  | .walking pending found =>
    Walking world.settings (· = world.files) pass.root pending found ∧
      pass.part.IsBut { draft := (Pass.start world.settings pass.root).draft } []
  | .batching rest => ∃ done part, pass.Holds world moments done rest part []
  | .collecting loads rest =>
    ∃ done batch part, pass.Holds world moments done (batch ++ rest) part (session.told loads) ∧
      loads.Nodup ∧
      List.Forall₂ (fun load path =>
        ∃ state, session.task? load = some (.load id pass.root path state)) loads batch
  | .adding results rest =>
    ∃ done batch part,
      pass.Holds world moments done (batch ++ rest) part (results.flatMap LoadResult.messages) ∧
      List.Forall₂ (world.MaySee moments pass.root) batch results
  | .embedding draft results rest | .resting draft results rest =>
    ∃ done path batch part chunks,
      pass.Holds world moments done (path :: batch ++ rest) part
        (failuresOf world.embedder chunks ++ results.flatMap LoadResult.messages) ∧
      List.Forall₂ (world.MaySee moments pass.root) batch results ∧
      world.MaySee moments pass.root path (.loaded draft.record draft.chunks) ∧
      draft.chunks = chunks ++ draft.remaining ∧
      draft.embeddings = embeddingsOf world.embedder chunks
  | .locking | .queued | .swapping => pass.IsComplete world moments
  | .ended (.error fault) =>
    ∃ told, fault = .files told ∧ discover world.settings world.files pass.root = .error told
  | .ended (.ok report) => report = pass.report ∧ pass.IsComplete world moments

namespace Session

variable {world session shared next : Session α} {moments : α → Prop} {id mover : TaskId}
  {pass : Pass α} {root : String}

theorem GoesOn.move (goesOn : world.GoesOn moments session) (same : SameWorld session next) :
    world.GoesOn moments next :=
  ⟨same.settings.trans goesOn.settings, same.embedder.trans goesOn.embedder,
    same.files.trans goesOn.files, same.now ▸ goesOn.now⟩

/-! ## What single results add -/

omit [Scalar α] in
private theorem add_of_nothing {embedder : Embedder α} {part : PartialIndex α}
    {result : LoadResult α} (nothing : ∀ record chunks, result ≠ .loaded record chunks) :
    part.add embedder result = { part with errors := part.errors ++ result.messages } := by
  cases result with
  | loaded record chunks => exact absurd rfl (nothing record chunks)
  | oversize => rfl
  | failed message => rfl

private theorem results_of_loads {loads : List TaskId} {batch : List String}
    {results : List (LoadResult α)}
    (sees : ∀ load path result,
      session.task? load = some (.load id root path (.ended result)) →
        world.MaySee moments root path result)
    (loadsOf : List.Forall₂ (fun load path =>
      ∃ state, session.task? load = some (.load id root path state)) loads batch)
    (ended : List.Forall₂ (fun load result => session.loadResult? load = some result)
      loads results) :
    List.Forall₂ (world.MaySee moments root) batch results ∧
      session.told loads = results.flatMap LoadResult.messages := by
  induction loadsOf generalizing results with
  | nil =>
    cases ended
    exact ⟨.nil, rfl⟩
  | @cons load path loads batch ofPass rest ih =>
    obtain _ | ⟨own, others⟩ := ended
    obtain ⟨seen, told⟩ := ih others
    obtain ⟨_, _, _, ended⟩ := loadResult?_eq_some_iff.mp own
    obtain ⟨_, stands⟩ := ofPass
    cases stands.symm.trans ended
    constructor
    · exact .cons (sees load path _ stands) seen
    · exact congrArg₂ _ (messagesOf_load stands) told

/-! ## Steps of the pass itself -/

private theorem isTaking_embeds {pass : Pass α} {draft : FileDraft α}
    {results : List (LoadResult α)} {rest : List String} (other : Session α)
    (goesOn : world.GoesOn moments session)
    (taking : PassPoint.IsTaking world moments session id pass (.embedding draft results rest)) :
    let step := draft.embedBatch session.embedder session.settings.embeddingBatchSize
    PassPoint.IsTaking world moments other id
      { pass with errors := pass.errors ++ step.2, point := .resting step.1 results rest }
      (.resting step.1 results rest) := by
  obtain ⟨done, path, batch, part, chunks, holds, others, seen, split, embeddings⟩ := taking
  generalize session.settings.embeddingBatchSize = size
  let now := draft.remaining.take size.toNat
  refine ⟨done, path, batch, part, chunks ++ now, ⟨holds.found, holds.taken, ?_⟩, others, seen, ?_,
    ?_⟩
  · have split : failuresOf world.embedder (chunks ++ now) =
        failuresOf world.embedder chunks ++ failuresOf world.embedder now := List.filterMap_append
    refine ⟨holds.same.draft, holds.same.indexed, ?_⟩
    change (pass.errors ++ _).Perm _
    rw [FileDraft.failures_embedBatch, goesOn.embedder, split]
    refine (holds.same.errors.append_right _).trans ?_
    simp only [List.append_assoc]
    apply List.Perm.append_left
    apply List.Perm.append_left
    exact List.perm_append_comm
  · rw [List.append_assoc]
    exact split.trans (congrArg (chunks ++ ·) (List.take_append_drop _ _).symm)
  · rw [FileDraft.embeddings_embedBatch, embeddings, goesOn.embedder]
    exact List.filterMap_append.symm

private theorem isTaking_adds {pass : Pass α} {draft : FileDraft α}
    {results : List (LoadResult α)} {rest : List String} (other : Session α)
    (finished : draft.remaining = [])
    (taking : PassPoint.IsTaking world moments session id pass (.embedding draft results rest)) :
    PassPoint.IsTaking world moments other id
      { pass with
        draft := pass.draft.addDraft draft
        indexed := pass.indexed + 1
        point := .adding results rest }
      (.adding results rest) := by
  obtain ⟨done, path, batch, part, chunks, holds, others, seen, split, embeddings⟩ := taking
  rw [finished, List.append_nil] at split
  refine ⟨done ++ [path], batch, _, ⟨?_, .next done path part _ holds.taken seen, ?_⟩, others⟩
  · have found := holds.found
    rwa [List.append_assoc, List.singleton_append]
  · constructor
    · change pass.part.draft.addFile _ _ _ = _
      rw [holds.same.draft, embeddings, split]
      rfl
    · exact congrArg (· + 1) holds.same.indexed
    · change pass.errors.Perm (part.errors ++ failuresOf world.embedder draft.chunks ++ _)
      rw [split, List.append_assoc]
      exact holds.same.errors

private theorem QuietPassMove.isTaking {after : Pass α} (other : Session α)
    (goesOn : world.GoesOn moments session) (deep : world.files.HasDepth)
    (sees : ∀ load path result,
      session.task? load = some (.load id pass.root path (.ended result)) →
        world.MaySee moments pass.root path result)
    (taking : pass.point.IsTaking world moments session id pass)
    (move : QuietPassMove session id pass after) :
    after.point.IsTaking world moments other id after := by
  cases move with
  | walked found stands =>
    rw [stands] at taking
    obtain ⟨walk, same⟩ := taking
    exact ⟨[], _, ⟨walk, walk.discover_of_done deep, rfl⟩, .nothing, same⟩
  | finds path rest found stands =>
    rw [stands] at taking
    obtain ⟨walk, same⟩ := taking
    exact ⟨.finds path rest found walk, same⟩
  | lists path rest targets found stands listed =>
    rw [stands] at taking
    obtain ⟨walk, same⟩ := taking
    rw [goesOn.settings] at listed
    exact ⟨.lists path rest targets found session.files walk goesOn.files listed, same⟩
  | completes stands =>
    rw [stands] at taking
    obtain ⟨done, part, holds⟩ := taking
    have found := holds.found
    rw [List.append_nil] at found
    refine ⟨done, part, session.now, goesOn.now, found, holds.taken, ?_, holds.same.indexed,
      holds.same.errors⟩
    change { pass.part.draft with indexedAt := session.now } = _
    rw [holds.same.draft]
    rfl
  | collects loads rest results stands ended =>
    rw [stands] at taking
    obtain ⟨done, batch, part, holds, -, loadsOf⟩ := taking
    obtain ⟨seen, told⟩ := results_of_loads sees loadsOf (forall₂_of_results ended)
    rw [told] at holds
    exact ⟨done, batch, part, ⟨holds.found, holds.taken, holds.same⟩, seen⟩
  | batchDone rest stands =>
    rw [stands] at taking
    obtain ⟨done, batch, part, holds, none⟩ := taking
    cases none
    exact ⟨done, part, holds.found, holds.taken, holds.same⟩
  | embedsNext record chunks results rest stands =>
    rw [stands] at taking
    obtain ⟨done, batch, part, holds, seen⟩ := taking
    cases seen with
    | @cons path _ batch _ first others =>
      exact ⟨done, path, batch, part, [], ⟨holds.found, holds.taken, holds.same⟩, others, first, rfl,
        rfl⟩
  | leavesOut result results rest stands nothing =>
    rw [stands] at taking
    obtain ⟨done, batch, part, holds, seen⟩ := taking
    cases seen with
    | @cons path _ batch _ first others =>
      refine ⟨done ++ [path], batch, _, ⟨?_, .next done path part result holds.taken first, ?_⟩,
        others⟩
      · have found := holds.found
        rwa [List.append_assoc, List.singleton_append]
      · rw [add_of_nothing nothing]
        refine ⟨holds.same.draft, holds.same.indexed, ?_⟩
        rw [List.append_assoc]
        exact holds.same.errors
  | adds draft results rest stands finished =>
    rw [stands] at taking
    exact isTaking_adds other finished taking
  | embeds draft results rest stands more =>
    rw [stands] at taking
    exact isTaking_embeds other goesOn taking
  | rested draft results rest stands =>
    rw [stands] at taking
    obtain ⟨done, path, batch, part, chunks, holds, known⟩ := taking
    exact ⟨done, path, batch, part, chunks, ⟨holds.found, holds.taken, holds.same⟩, known⟩
  | entered stands =>
    rw [stands] at taking
    exact taking

private theorem isTaking_loads {paths : List String} {count : Nat}
    (stood : session.task? id = some (.pass pass)) {done : List String} {part : PartialIndex α}
    (holds : pass.Holds world moments done paths part []) :
    let batch := paths.take count
    let after : Pass α := { pass with
      point := .collecting ((List.range batch.length).map (session.tasks.length + ·))
        (paths.drop count) }
    after.point.IsTaking world moments
      ((session.start (batch.map fun path => .load id pass.root path (.running .sizing))).setPass id
        after) id after := by
  intro batch after
  have started : ∀ index (inBatch : index < batch.length), _ :=
    fun index inBatch => task?_started after inBatch stood
  have quiet : ((session.start (batch.map fun path =>
      .load id pass.root path (.running .sizing))).setPass id after).told
        ((List.range batch.length).map (session.tasks.length + ·)) = [] := by
    apply told_of_running
    intro load member
    obtain ⟨index, inRange, rfl⟩ := List.mem_map.mp member
    rw [loadResult?, started index (List.mem_range.mp inRange)]
  refine ⟨done, batch, part, ⟨?_, holds.taken, quiet ▸ holds.same⟩, ?_, ?_⟩
  · rw [List.take_append_drop]
    exact holds.found
  · exact List.nodup_range.map fun _ _ same => Nat.add_left_cancel same
  · rw [List.forall₂_iff_get]
    refine ⟨by simp, ?_⟩
    intro index inLoads inBatch
    simp only [List.get_eq_getElem, List.getElem_map, List.getElem_range]
    exact ⟨_, started index inBatch⟩

private theorem PassMove.isTaking {after : Pass α} (goesOn : world.GoesOn moments session)
    (deep : world.files.HasDepth)
    (sees : ∀ load path result,
      session.task? load = some (.load id pass.root path (.ended result)) →
        world.MaySee moments pass.root path result)
    (stood : session.task? id = some (.pass pass))
    (taking : pass.point.IsTaking world moments session id pass)
    (move : PassMove session id pass shared after) :
    after.point.IsTaking world moments (shared.setPass id after) id after := by
  cases move with
  | quiet _ move => exact move.isTaking _ goesOn deep sees taking
  | fails path rest found fault stands listed =>
    rw [stands] at taking
    obtain ⟨walk, -⟩ := taking
    rw [goesOn.settings, goesOn.files] at listed
    exact ⟨fault, rfl, walk.discover_of_fault deep listed⟩
  | loads paths stands =>
    rw [stands] at taking
    obtain ⟨done, part, holds⟩ := taking
    exact isTaking_loads stood holds
  | queued stands =>
    rw [stands] at taking
    exact taking
  | swaps stands =>
    rw [stands] at taking
    exact ⟨rfl, taking⟩
  | discards stands =>
    rw [stands] at taking
    exact ⟨rfl, taking⟩

/-! ## From the start of a pass to its end -/

/-- A pass and its loads, while the files stay as they are. -/
structure Takes (world : Session α) (moments : α → Prop) (id : TaskId) (root : String)
    (session : Session α) : Prop where
  goesOn : world.GoesOn moments session
  pass : ∃ pass, session.task? id = some (.pass pass) ∧ pass.root = root ∧
    pass.point.IsTaking world moments session id pass
  loads : ∀ load root path state, session.task? load = some (.load id root path state) →
    state.MaySee world moments root path

private theorem Takes.loads_move (takes : Takes world moments id root session)
    (move : Move session mover next) (load : TaskId) (root path : String) (state : LoadState α)
    (found : next.task? load = some (.load id root path state)) :
    state.MaySee world moments root path := by
  cases move.origin_load found with
  | kept _ _ stood => exact takes.loads load root path state stood
  | started => exact .sizing
  | looks before _ _ stood step =>
    have reached := takes.loads load root path _ stood
    rw [takes.goesOn.settings, takes.goesOn.files] at step
    exact Reached.goesOn reached rfl step
  | ends before result _ stood step =>
    have reached := takes.loads load root path _ stood
    rw [takes.goesOn.settings, takes.goesOn.files] at step
    exact ⟨session.now, takes.goesOn.now, Reached.ends_look reached step⟩

private theorem Takes.move_own (takes : Takes world moments id root session)
    (deep : world.files.HasDepth) (move : Move session id next) :
    Takes world moments id root next := by
  obtain ⟨before, stood, rfl, taking⟩ := takes.pass
  obtain ⟨after, stands, -⟩ := move.pass_stays stood
  obtain ⟨_, shared, stoodAt, step, same⟩ := move.pass_own stands
  cases stood.symm.trans stoodAt
  have sees : ∀ load path result,
      session.task? load = some (.load id before.root path (.ended result)) →
        world.MaySee moments before.root path result :=
    fun load path result found => takes.loads load _ path _ found
  have further := step.isTaking takes.goesOn deep sees stood taking
  rw [← same] at further
  constructor
  · exact takes.goesOn.move move.world
  · exact ⟨after, stands, step.running.2, further⟩
  · exact takes.loads_move move

private theorem exists_load {loads : List TaskId} {batch : List String}
    (loadsOf : List.Forall₂ (fun load path =>
      ∃ state, session.task? load = some (.load id root path state)) loads batch) :
    ∀ load ∈ loads, ∃ path state, session.task? load = some (.load id root path state) :=
  ((List.forall₂_and_left _ _).mp (loadsOf.imp fun _ path stands => ⟨⟨path, stands⟩, stands⟩)).1

private theorem isTaking_of_same {point : PassPoint α}
    (taking : point.IsTaking world moments session id pass)
    (there : ∀ load root path state, session.task? load = some (.load id root path state) →
      ∃ state, next.task? load = some (.load id root path state))
    (quiet : ∀ load root path state, session.task? load = some (.load id root path state) →
      next.messagesOf load = session.messagesOf load) :
    point.IsTaking world moments next id pass := by
  cases point with
  | collecting loads rest =>
    obtain ⟨done, batch, part, holds, distinct, loadsOf⟩ := taking
    have same : next.told loads = session.told loads := by
      refine told_congr fun load member => ?_
      obtain ⟨path, state, stands⟩ := exists_load loadsOf load member
      exact quiet load _ path state stands
    exact ⟨done, batch, part, same ▸ holds, distinct, loadsOf.imp fun load path ⟨state, stands⟩ =>
      there load _ path state stands⟩
  | walking => exact taking
  | batching => exact taking
  | adding => exact taking
  | embedding => exact taking
  | resting => exact taking
  | locking => exact taking
  | queued => exact taking
  | swapping => exact taking
  | ended outcome => cases outcome <;> exact taking

private theorem Takes.move_other (takes : Takes world moments id root session)
    (awaited : session.LoadsAwaited) (different : id ≠ mover) (move : Move session mover next) :
    Takes world moments id root next := by
  obtain ⟨pass, stood, rfl, taking⟩ := takes.pass
  have there : ∀ load root path state, session.task? load = some (.load id root path state) →
      ∃ state, next.task? load = some (.load id root path state) :=
    fun load root path state stood => move.load_stays stood
  refine ⟨takes.goesOn.move move.world, ?_, takes.loads_move move⟩
  cases move.noticed different stood with
  | nothing stands quiet => exact ⟨pass, stands, rfl, isTaking_of_same taking there quiet⟩
  | failure load root path message point stoodLoad failed stands quiet =>
    refine ⟨pass.told message, stands, rfl, ?_⟩
    obtain ⟨owner, stoodOwner, loads, rest, waits, member⟩ := awaited load id root path _ stoodLoad
    cases stood.symm.trans stoodOwner
    change pass.point.IsTaking world moments next id (pass.told message)
    rw [waits] at taking ⊢
    obtain ⟨done, batch, part, holds, distinct, loadsOf⟩ := taking
    have more : (next.told loads).Perm (session.told loads ++ [message]) := by
      refine told_of_failure distinct member (messagesOf_load stoodLoad) failed ?_
      intro other inLoads apart
      obtain ⟨path, state, stands⟩ := exists_load loadsOf other inLoads
      exact quiet other _ path state apart stands
    refine ⟨done, batch, part, ⟨holds.found, holds.taken, holds.same.draft, holds.same.indexed, ?_⟩,
      distinct, loadsOf.imp fun load path ⟨state, stands⟩ => there load _ path state stands⟩
    refine (holds.same.errors.append_right [message]).trans ?_
    rw [List.append_assoc]
    exact more.symm.append_left _

private theorem Takes.of_tasks {other : Session α} (takes : Takes world moments id root session)
    (goesOn : world.GoesOn moments other)
    (kept : ∀ number task, session.task? number = some task → other.task? number = some task)
    (loads : ∀ number owner root path state, other.task? number = some (.load owner root path state) →
      session.task? number = some (.load owner root path state)) :
    Takes world moments id root other := by
  obtain ⟨pass, stood, rooted, taking⟩ := takes.pass
  refine ⟨goesOn, ⟨pass, kept _ _ stood, rooted, ?_⟩, ?_⟩
  · exact isTaking_of_same taking (fun load root path state found => ⟨state, kept _ _ found⟩)
      fun load root path state found => messagesOf_congr ((kept _ _ found).trans found.symm)
  · exact fun load root path state found => takes.loads load root path state (loads _ _ _ _ _ found)

/-- Whatever happens but a change of the files, a pass goes on taking in file after file. -/
theorem Takes.event (takes : Takes world moments id root session) (awaited : session.LoadsAwaited)
    (deep : world.files.HasDepth) {event : Event α} (within : event.IsWithin moments)
    (happened : session.after? event = some next) : Takes world moments id root next := by
  cases after?_move happened with
  | call request =>
    refine takes.of_tasks (takes.goesOn.move ⟨rfl, rfl, rfl, rfl⟩)
      (fun _ _ stood => task?_call_of stood request) ?_
    intro number owner root path state found
    rw [task?_call] at found
    split at found
    · cases found
    · exact found
  | step mover _ move =>
    by_cases own : id = mover
    · subst own
      exact takes.move_own deep move
    · exact takes.move_other awaited own move
  | leave =>
    exact takes.of_tasks (takes.goesOn.move ⟨rfl, rfl, rfl, rfl⟩) (fun _ _ stood => stood)
      fun _ _ _ _ _ found => found
  | files => exact within.elim
  | time now =>
    have goesOn := takes.goesOn
    exact takes.of_tasks ⟨goesOn.settings, goesOn.embedder, goesOn.files, within⟩
      (fun _ _ stood => stood) fun _ _ _ _ _ found => found

/-- A pass that starts has taken in nothing, and has no loads yet. -/
theorem LoadsAwaited.takes (awaited : world.LoadsAwaited) (now : moments world.now)
    (begins : world.task? id = some (.pass (.start world.settings root))) :
    Takes world moments id root world := by
  refine ⟨⟨rfl, rfl, rfl, now⟩, ⟨_, begins, rfl, .start, rfl, rfl, .refl _⟩, ?_⟩
  intro load root' path state found
  obtain ⟨pass, stands, waits⟩ := awaited load id root' path state found
  cases begins.symm.trans stands
  exact absurd rfl (waits.has_walked _ _)

/-- From its start on, a pass takes in file after file as long as the files stay as they are. -/
theorem takes_of_run {start : Session α} {earlier events : List (Event α)} (new : start.IsNew)
    (reached : start.replay? earlier = some world)
    (begins : world.task? id = some (.pass (.start world.settings root)))
    (deep : world.files.HasDepth) (now : moments world.now)
    (within : ∀ event ∈ events, event.IsWithin moments)
    (run : world.replay? events = some session) : Takes world moments id root session := by
  refine replay?_keeps_prefix ?_ ((new.loadsAwaited_of_run reached).takes now begins) run
  intro past current event _ isPrefix went takes happened
  exact takes.event (new.loadsAwaited_of_run (replay?_trans reached went)) deep
    (within event (isPrefix.subset (by simp))) happened

/-- How a pass ends: with the fault that the walk has met, or with the report of a draft that is
complete, and that is shown if the project is still the one that was asked for last. -/
inductive PassEnd (world : Session α) (moments : α → Prop) (session : Session α) (id : TaskId)
    (root : String) : Except CallFault PassReport → Prop where
  | fails (fault : FileFault)
      (undiscovered : discover world.settings world.files root = .error fault) :
      PassEnd world moments session id root (.error (.files fault))
  | ends (pass : Pass α) (stands : session.task? id = some (.pass pass)) (rooted : pass.root = root)
      (complete : pass.IsComplete world moments)
      (shown : session.requestedRoot = some root → session.snapshot = some pass.draft) :
      PassEnd world moments session id root (.ok pass.report)

private theorem PassMove.shows {after : Pass α} (move : PassMove session id pass shared after)
    {report : PassReport} (ended : after.point = .ended (.ok report))
    (wanted : shared.requestedRoot = some pass.root) : shared.snapshot = some after.draft := by
  cases move with
  | quiet _ move => cases move <;> cases ended
  | fails => cases ended
  | loads => cases ended
  | queued => cases ended
  | swaps => rfl
  | discards _ superseded => exact absurd wanted superseded

/-- The step by which a pass ends. -/
theorem Takes.ends (takes : Takes world moments id root session) (awaited : session.LoadsAwaited)
    (deep : world.files.HasDepth) (happened : session.after? (.step id) = some next)
    {outcome : Except CallFault PassReport} (ended : next.passOutcome? id = some outcome) :
    PassEnd world moments next id root outcome := by
  have step : (Event.step id : Event α).IsWithin moments := trivial
  obtain ⟨after, there, rfl, taking⟩ := (takes.event awaited deep step happened).pass
  obtain ⟨found, standsAfter, point⟩ := passOutcome?_eq_some_iff.mp ended
  rw [there] at standsAfter
  cases standsAfter
  rw [point] at taking
  cases outcome with
  | error fault =>
    obtain ⟨told, rfl, undiscovered⟩ := taking
    exact .fails told undiscovered
  | ok report =>
    obtain ⟨rfl, complete⟩ := taking
    refine .ends after there rfl complete fun wanted => ?_
    cases after?_move happened with
    | step _ _ move =>
      obtain ⟨before, shared, -, step, rfl⟩ := move.pass_own there
      exact step.shows point (step.running.2 ▸ wanted)

/-- As long as the files stay as they are, a pass that has started comes to its end, whatever the
order of the turns, and its last step ends it in one of these ways. -/
theorem passes_come_to_end {start : Session α} {earlier events : List (Event α)} (new : start.IsNew)
    (reached : start.replay? earlier = some world)
    (begins : world.task? id = some (.pass (.start world.settings root)))
    (deep : world.files.HasDepth) (reads : 1 ≤ world.settings.fileReadBatchSize)
    (embeddings : 1 ≤ world.settings.embeddingBatchSize)
    (within : ∀ event ∈ events, event.IsWithin moments) (now : moments world.now)
    (run : world.replay? events = some session) :
    (session.Inevitable fun later => ∃ outcome, later.passOutcome? id = some outcome) ∧
      ∀ next outcome, session.after? (.step id) = some next →
        next.passOutcome? id = some outcome → PassEnd world moments next id root outcome := by
  have takes : Takes world moments id root session :=
    takes_of_run new reached begins deep now within run
  have whole := replay?_trans reached run
  have goesOn := takes.goesOn
  constructor
  · obtain ⟨pass, stands, -⟩ := takes.pass
    exact new.passes_end whole (goesOn.files ▸ deep) (goesOn.settings ▸ reads)
      (goesOn.settings ▸ embeddings) stands
  · intro next outcome happened ended
    exact takes.ends (new.loadsAwaited_of_run whole) deep happened ended

end Session

end CodeSearch
