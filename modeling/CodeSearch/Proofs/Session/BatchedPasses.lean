import CodeSearch.Proofs.Session.Accounts

/-! # Passes work in batches

A pass loads several files at a time, in whatever order their looks come about, and embeds chunks in
batches between which others go on. Nothing of this shows. While the files and the time stay as they
are, a pass ends as if it had taken in one file after another, but for the order in which it is told
of faults.
-/

namespace CodeSearch

open Loading Walk

variable {α : Type} [Scalar α]

/-- Everything but a change of the files or of the time. -/
def Event.IsSteady : Event α → Prop
  | .call _ | .step _ | .leave _ => True
  | .files _ | .time _ => False

omit [Scalar α] in
theorem Event.IsSteady.isWithin {event : Event α} (steady : event.IsSteady) (moments : α → Prop) :
    event.IsWithin moments := by
  cases event with
  | call => trivial
  | step => trivial
  | leave => trivial
  | files => exact steady.elim
  | time => exact steady.elim

/-- Two reports that differ at most in the order of what was told. -/
structure PassReport.SameUpToOrder (report expected : PassReport) : Prop where
  counts : { report with errors := expected.errors } = expected
  errors : report.errors.Perm expected.errors

theorem PartialIndex.IsBut.report {world : Session α} {pass : Pass α} {part : PartialIndex α}
    {done : List String} (same : pass.part.IsBut part [])
    (found : HasFound world pass.root pass.scanned done) :
    pass.report.SameUpToOrder (part.report pass.root done) := by
  obtain ⟨root, scanned, indexed, errors, draft, point⟩ := pass
  obtain ⟨rfl, rfl, told⟩ := same
  obtain ⟨-, -, rfl⟩ := found
  rw [List.append_nil] at told
  exact ⟨rfl, told⟩

/-- At one moment there is one thing that a project can have after certain files. -/
theorem TakenIn.eq_after {world : Session α} {root : String} {done : List String}
    {part : PartialIndex α} (taken : TakenIn world (· = world.now) root done part) :
    part = .after world.settings world.embedder world.files world.now root done := by
  induction taken with
  | nothing => rfl
  | next done path part result before seen ih =>
    obtain ⟨now, rfl, rfl⟩ := seen
    rw [ih, PartialIndex.after, PartialIndex.after, List.foldl_concat]

namespace Session

variable {world session : Session α} {id : TaskId} {pass : Pass α} {root : String}

/-- The end of a pass over a project: it is told what indexing in order tells, and shows the same
snapshot if the project is still the one that was asked for last. -/
inductive ShowsInOrder (session : Session α) (id : TaskId) (root : String) :
    Except CallFault PassReport → Except FileFault (Snapshot α × PassReport) → Prop where
  | fails (fault : FileFault) : ShowsInOrder session id root (.error (.files fault)) (.error fault)
  | ends (pass : Pass α) (stands : session.task? id = some (.pass pass)) (report expected : PassReport)
      (same : report.SameUpToOrder expected)
      (shown : session.requestedRoot = some root → session.snapshot = some pass.draft) :
      ShowsInOrder session id root (.ok report) (.ok (pass.draft, expected))

private theorem indexInOrder_of_complete (complete : pass.IsComplete world (· = world.now)) :
    ∃ expected, pass.report.SameUpToOrder expected ∧
      indexInOrder world.settings world.embedder world.files world.now pass.root =
        .ok (pass.draft, expected) := by
  obtain ⟨done, part, now, rfl, found, taken, same⟩ := complete
  obtain rfl := taken.eq_after
  refine ⟨_, same.report found, ?_⟩
  rw [indexInOrder, found.discovered]
  change Except.ok (_, _) = Except.ok (pass.part.draft, _)
  rw [same.draft]

/-- A pass ends, whatever the order of the turns, and it ends as the indexing in order does, whatever
the sizes of batches. -/
theorem passes_index_in_order {start before : Session α} {earlier events : List (Event α)}
    (new : start.IsNew) (reached : start.replay? earlier = some before)
    (begins : before.task? id = some (.pass (.start before.settings root)))
    (deep : before.files.HasDepth) (readsSome : 1 ≤ before.settings.fileReadBatchSize)
    (embedsSome : 1 ≤ before.settings.embeddingBatchSize)
    (steady : ∀ event ∈ events, event.IsSteady) (run : before.replay? events = some session)
    (reads embeddings : Int) :
    (session.Inevitable fun later => ∃ outcome, later.passOutcome? id = some outcome) ∧
      ∀ next outcome, session.after? (.step id) = some next →
        next.passOutcome? id = some outcome →
        next.ShowsInOrder id root outcome
          (indexInOrder (before.settings.batched reads embeddings) before.embedder before.files
            before.now root) := by
  have within : ∀ event ∈ events, event.IsWithin (· = before.now) :=
    fun event member => (steady event member).isWithin _
  obtain ⟨inevitable, ends⟩ :=
    passes_come_to_end new reached begins deep readsSome embedsSome within rfl run
  refine ⟨inevitable, ?_⟩
  intro next outcome happened ended
  rw [indexInOrder_batched]
  cases ends next outcome happened ended with
  | fails fault undiscovered =>
    rw [indexInOrder, undiscovered]
    exact .fails fault
  | ends pass stands rooted complete shown =>
    subst rooted
    obtain ⟨expected, same, ends⟩ := indexInOrder_of_complete complete
    rw [ends]
    exact .ends pass stands pass.report expected same shown

/-- Two files with a function each, and between them one that is not readable. -/
def unevenVolume : Volume :=
  ((Volume.write {} "/p/a.py" (.ofText "def run():\n    pass\n")).write "/p/b.py"
    ⟨.error (.unavailable "denied"), none⟩).write "/p/c.py" (.ofText "def walk():\n    pass\n")

/-- Files are read two at a time, so that the last batch is not full, and chunks are embedded one at
a time. -/
def unevenSettings : Settings Float := { fileReadBatchSize := 2, embeddingBatchSize := 1 }

def unevenProject : Session Float :=
  { opened unevenSettings unevenVolume.fileSystem 0 with embedder := refusesFunctions }

/-- What comes after the listing up to the last step of the pass. The second file of the first batch
is done with before the first one. -/
def unevenPassButItsEnd : List (Event Float) :=
  List.replicate 5 (.step 1) ++ [.step 3, .step 2, .step 3, .step 3, .step 2, .step 2] ++
    List.replicate 10 (.step 1) ++ List.replicate 3 (.step 4) ++ List.replicate 11 (.step 1)

/-- The pass is told of the file before it is told of the chunk, in another order than file by file;
what it shows is the same. -/
theorem uneven_batches_are_indexed_in_order :
    ∃ (before session next : Session Float) (report : PassReport) (snapshot : Snapshot Float),
      unevenProject.replay? firstRequest = some before ∧
      before.replay? (.step 1 :: unevenPassButItsEnd) = some session ∧
      (session.Inevitable fun later => ∃ outcome, later.passOutcome? 1 = some outcome) ∧
      session.after? (.step 1) = some next ∧ next.passOutcome? 1 = some (.ok report) ∧
      report.errors = ["Error processing b.py: denied", "Failed to embed chunk a.py_run_1: refused",
        "Failed to embed chunk c.py_walk_1: refused"] ∧
      next.requestedRoot = some "/p" ∧ next.snapshot = some snapshot ∧
      snapshot.chunks.keys = ["a.py_file", "a.py_run_1", "c.py_file", "c.py_walk_1"] ∧
      snapshot.embeddings.keys = ["a.py_file", "c.py_file"] ∧
      next.ShowsInOrder 1 "/p" (.ok report)
        (indexInOrder (before.settings.batched 1 1) before.embedder before.files before.now "/p") ∧
      next.ShowsInOrder 1 "/p" (.ok report)
        (indexInOrder (before.settings.batched 50 50) before.embedder before.files before.now
          "/p") := by
  have ran : ((unevenProject.replay? firstRequest).bind fun before =>
      ((before.withListing 1 "/p" (threeEntries.filterMap (target? before.settings))).replay?
          unevenPassButItsEnd).bind fun session =>
        (session.after? (.step 1)).bind fun next => next.snapshot.bind fun snapshot =>
          (next.passOutcome? 1).bind fun outcome => outcome.toOption.bind fun report =>
            if (report.errors = ["Error processing b.py: denied",
                "Failed to embed chunk a.py_run_1: refused",
                "Failed to embed chunk c.py_walk_1: refused"] ∧ next.requestedRoot = some "/p") ∧
              snapshot.chunks.keys = ["a.py_file", "a.py_run_1", "c.py_file", "c.py_walk_1"] ∧
              snapshot.embeddings.keys = ["a.py_file", "c.py_file"]
            then some report else none).isSome = true := by decide +kernel
  obtain ⟨report, ran⟩ := Option.isSome_iff_exists.mp ran
  obtain ⟨before, reached, ran⟩ := Option.bind_eq_some_iff.mp ran
  obtain ⟨session, went, ran⟩ := Option.bind_eq_some_iff.mp ran
  obtain ⟨next, happened, ran⟩ := Option.bind_eq_some_iff.mp ran
  obtain ⟨snapshot, current, ran⟩ := Option.bind_eq_some_iff.mp ran
  obtain ⟨outcome, told, ran⟩ := Option.bind_eq_some_iff.mp ran
  obtain ⟨whole, ok, ran⟩ := Option.bind_eq_some_iff.mp ran
  obtain ⟨⟨⟨errors, wanted⟩, chunks, embeddings⟩, same⟩ := Option.ite_none_right_eq_some.mp ran
  cases same
  have new : unevenProject.IsNew := ⟨rfl, rfl, rfl, rfl, rfl, rfl⟩
  have settings : before.settings = unevenSettings := (replay?_world reached).1
  have files : before.files = unevenVolume.fileSystem := (begins_of_firstRequest new reached).1
  have begins := (begins_of_firstRequest new reached).2
  have listing : unevenVolume.fileSystem.list "/p" = .ok threeEntries := by decide +kernel
  have run := replay?_cons (lists_of_firstRequest new reached listing (by decide +kernel)) went
  have deep : before.files.HasDepth := files ▸ Volume.IsTidy.hasDepth (by decide +kernel)
  have reads : 1 ≤ before.settings.fileReadBatchSize := by
    rw [settings]
    decide
  have embeds : 1 ≤ before.settings.embeddingBatchSize := by
    rw [settings]
    decide
  have steady : ∀ event ∈ Event.step 1 :: unevenPassButItsEnd, event.IsSteady := by
    simp [unevenPassButItsEnd, Event.IsSteady]
  have ends := passes_index_in_order new reached begins deep reads embeds steady run
  cases outcome with
  | error fault => cases ok
  | ok report =>
    cases ok
    exact ⟨before, session, next, report, snapshot, reached, run, (ends 1 1).1, happened, told,
      errors, wanted, current, chunks, embeddings, (ends 1 1).2 next _ happened told,
      (ends 50 50).2 next _ happened told⟩

end Session

end CodeSearch
