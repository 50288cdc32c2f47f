import CodeSearch.Proofs.Index.Fates
import CodeSearch.Proofs.Session.Ledgers
import CodeSearch.Proofs.Session.SingleFlight
import CodeSearch.Proofs.Session.Soundness

/-! # Every file that was found is accounted for

A pass over a project indexes a file, passes it by because of its size, or tells of its fault, and it
does one of these for every file that its walk has found. Its report counts what it has done, and its
errors are those of the faulty files and of the chunks that were refused, one for each. The files
stay as they are meanwhile; time goes on, and so do other tasks.
-/

namespace CodeSearch

open Loading Walk

variable {α : Type} [Scalar α]

/-- Everything but a change of the files. -/
def Event.KeepsFiles : Event α → Prop
  | .call _ | .step _ | .leave _ | .time _ => True
  | .files _ => False

omit [Scalar α] in
theorem Event.KeepsFiles.isWithin {event : Event α} (keeps : event.KeepsFiles) :
    event.IsWithin fun _ => True := by
  cases event with
  | files => exact keeps.elim
  | call => trivial
  | step => trivial
  | leave => trivial
  | time => trivial

/-- A report adds up: every file that was found has its fate, those that are indexed are the files
that are stored, and what was told belongs to faulty files and refused chunks. -/
structure PassReport.AddsUp (settings : Settings α) (embedder : Embedder α) (files : FileSystem)
    (root : String) (found : List String) (fates : List (FileFate α)) (draft : Snapshot α)
    (report : PassReport) : Prop where
  each : List.Forall₂ (fun path fate => IsFateOf settings embedder files root path fate ∧
    draft.files.get? (relativePath root path) = fate.record?) found fates
  drafted : ∃ now, draft =
    { FileFate.addAll (Pass.start settings root).draft fates with indexedAt := now }
  scanned : report.filesScanned = found.length
  indexed : report.filesIndexed = draft.files.size
  stored : draft.files.size = (fates.filterMap FileFate.record?).length
  told : report.errors.Perm (fates.flatMap FileFate.told)
  chunks : report.chunksCreated = draft.chunks.size
  kinds : report.kindCounts.values.sum = draft.chunks.size
  embeddings : report.embeddingsGenerated = draft.embeddings.size

namespace Session

variable {world session : Session α} {moments : α → Prop} {id : TaskId} {pass : Pass α}
  {root : String}

private theorem fates_of_takenIn {done : List String} {part : PartialIndex α}
    (taken : TakenIn world moments root done part) :
    ∃ fates, List.Forall₂ (IsFateOf world.settings world.embedder world.files root) done fates ∧
      part = { draft := FileFate.addAll (Pass.start world.settings root).draft fates
               indexed := (fates.filterMap FileFate.record?).length
               errors := fates.flatMap FileFate.told } := by
  induction taken with
  | nothing => exact ⟨[], .nil, rfl⟩
  | next done path part result before seen ih =>
    obtain ⟨fates, each, rfl⟩ := ih
    obtain ⟨now, -, rfl⟩ := seen
    obtain ⟨fate, is, adds⟩ := IsFateOf.exists_of_look world.settings world.embedder world.files now
      root path
    refine ⟨fates ++ [fate], List.rel_append each (.cons is .nil), ?_⟩
    rw [adds]
    congr 1
    · exact (List.foldl_concat _ _ _ _).symm
    · rw [List.filterMap_append, List.length_append]
      cases fate <;> rfl
    · rw [List.flatMap_append, List.flatMap_singleton]

private theorem addsUp_of_complete (regular : world.files.IsRegular)
    (rooted : ∃ path, pass.root = Path.absolute path) (complete : pass.IsComplete world moments) :
    ∃ found fates, discover world.settings world.files pass.root = .ok found ∧
      pass.report.AddsUp world.settings world.embedder world.files pass.root found fates
        pass.draft := by
  obtain ⟨found, part, now, -, walked, taken, same⟩ := complete
  obtain ⟨fates, each, rfl⟩ := fates_of_takenIn taken
  have regular : ∀ files, files = world.files → files.IsRegular := fun files is => is ▸ regular
  have distinct := (walked.walk.relatives regular rooted).2
  have new : ∀ path ∈ found, (Pass.start world.settings pass.root).draft.files.get?
      (relativePath pass.root path) = none := fun _ _ => rfl
  have draft := same.draft
  have files : pass.draft.files =
      (FileFate.addAll (Pass.start world.settings pass.root).draft fates).files := by
    change pass.part.draft.files = _
    rw [draft]
    rfl
  have stored : pass.draft.files.size = (fates.filterMap FileFate.record?).length := by
    rw [files, FileFate.size_addAll each distinct new]
    exact Nat.zero_add _
  refine ⟨found, fates, walked.discovered, ?_⟩
  constructor
  case each =>
    rw [files]
    exact FileFate.get?_addAll each distinct new
  case drafted => exact ⟨now, draft⟩
  case scanned => exact walked.scanned
  case indexed => exact same.indexed.trans stored.symm
  case stored => exact stored
  case told =>
    have told := same.errors
    rwa [List.append_nil] at told
  case chunks => rfl
  case kinds => exact pass.draft.sum_kindCounts
  case embeddings => rfl

/-- A pass has ended, with the fault of the walk or with a report that adds up, of a draft that is
shown if the project is still the one that was asked for last. -/
inductive AccountsFor (world session : Session α) (id : TaskId) (root : String) :
    Except CallFault PassReport → Prop where
  | fails (fault : FileFault)
      (undiscovered : discover world.settings world.files root = .error fault) :
      AccountsFor world session id root (.error (.files fault))
  | ends (pass : Pass α) (stands : session.task? id = some (.pass pass)) (found : List String)
      (discovered : discover world.settings world.files root = .ok found)
      (fates : List (FileFate α)) (report : PassReport)
      (addsUp : report.AddsUp world.settings world.embedder world.files root found fates pass.draft)
      (shown : session.requestedRoot = some root → session.snapshot = some pass.draft) :
      AccountsFor world session id root (.ok report)

/-- A pass ends, whatever the order of the turns, and then every file that it has found is accounted
for. -/
theorem passes_account_for_files {start before : Session α} {earlier events : List (Event α)}
    (new : start.IsNew) (reached : start.replay? earlier = some before)
    (begins : before.task? id = some (.pass (.start before.settings root)))
    (regular : before.files.IsRegular) (deep : before.files.HasDepth)
    (valid : before.settings.Valid) (keeps : ∀ event ∈ events, event.KeepsFiles)
    (run : before.replay? events = some session) :
    (session.Inevitable fun later => ∃ outcome, later.passOutcome? id = some outcome) ∧
      ∀ next outcome, session.after? (.step id) = some next →
        next.passOutcome? id = some outcome → before.AccountsFor next id root outcome := by
  have within : ∀ event ∈ events, event.IsWithin fun _ => True :=
    fun event member => (keeps event member).isWithin
  obtain ⟨inevitable, ends⟩ := passes_come_to_end new reached begins deep valid.readBatch
    valid.embeddingBatch within trivial run
  refine ⟨inevitable, ?_⟩
  intro next outcome happened ended
  cases ends next outcome happened ended with
  | fails fault undiscovered => exact .fails fault undiscovered
  | ends pass stands rooted complete shown =>
    subst rooted
    have whole := replay?_concat (replay?_trans reached run) happened
    have grounded := new.grounded_of_run whole
    have rooted := (grounded.passes id pass (Nat.zero_le id) stands).1
    obtain ⟨found, fates, discovered, addsUp⟩ := addsUp_of_complete regular rooted complete
    exact .ends pass stands found discovered fates pass.report addsUp shown

/-- A file with a function, one that is not readable, and one that claims to be large. -/
def mixedVolume : Volume :=
  ((Volume.write {} "/p/a.py" (.ofText "def run():\n    pass\n")).write "/p/b.py"
    ⟨.error (.unavailable "denied"), none⟩).write "/p/c.py" ⟨.ok "", some 101⟩

/-- An embedder that refuses functions. -/
def refusesFunctions : Embedder Float where
  embedText _ := []
  embedChunk chunk := if chunk.kind = .function then .error "refused" else .ok []

def mixedProject : Session Float :=
  { opened { maxFileSize := 100 } mixedVolume.fileSystem 0 with embedder := refusesFunctions }

/-- What comes after the listing up to the last step of the pass. Time goes on meanwhile. -/
def mixedPassButItsEnd : List (Event Float) :=
  List.replicate 5 (.step 1) ++
    [.time 5, .step 2, .step 3, .step 4, .step 3, .step 3, .step 2, .step 2] ++
    List.replicate 11 (.step 1)

theorem mixed_files_are_accounted_for :
    ∃ (before session next : Session Float) (report : PassReport),
      mixedProject.replay? firstRequest = some before ∧
      before.replay? (.step 1 :: mixedPassButItsEnd) = some session ∧
      (session.Inevitable fun later => ∃ outcome, later.passOutcome? 1 = some outcome) ∧
      session.after? (.step 1) = some next ∧ next.passOutcome? 1 = some (.ok report) ∧
      report.filesScanned = 3 ∧ report.filesIndexed = 1 ∧
      report.errors =
        ["Error processing b.py: denied", "Failed to embed chunk a.py_run_1: refused"] ∧
      before.AccountsFor next 1 "/p" (.ok report) := by
  have ran : ((mixedProject.replay? firstRequest).bind fun before =>
      ((before.withListing 1 "/p" (threeEntries.filterMap (target? before.settings))).replay?
          mixedPassButItsEnd).bind fun session =>
        (session.after? (.step 1)).bind fun next =>
          (next.passOutcome? 1).bind fun outcome => outcome.toOption.bind fun report =>
            if report.filesScanned = 3 ∧ report.filesIndexed = 1 ∧ report.errors =
              ["Error processing b.py: denied", "Failed to embed chunk a.py_run_1: refused"]
            then some report else none).isSome = true := by decide +kernel
  obtain ⟨report, ran⟩ := Option.isSome_iff_exists.mp ran
  obtain ⟨before, reached, ran⟩ := Option.bind_eq_some_iff.mp ran
  obtain ⟨session, went, ran⟩ := Option.bind_eq_some_iff.mp ran
  obtain ⟨next, happened, ran⟩ := Option.bind_eq_some_iff.mp ran
  obtain ⟨outcome, told, ran⟩ := Option.bind_eq_some_iff.mp ran
  obtain ⟨whole, ok, ran⟩ := Option.bind_eq_some_iff.mp ran
  obtain ⟨⟨scanned, indexed, errors⟩, same⟩ := Option.ite_none_right_eq_some.mp ran
  cases same
  have new : mixedProject.IsNew := ⟨rfl, rfl, rfl, rfl, rfl, rfl⟩
  have settings : before.settings = { maxFileSize := 100 } := (replay?_world reached).1
  have files : before.files = mixedVolume.fileSystem := (begins_of_firstRequest new reached).1
  have begins := (begins_of_firstRequest new reached).2
  have listing : mixedVolume.fileSystem.list "/p" = .ok threeEntries := by decide +kernel
  have lists := lists_of_firstRequest new reached listing (by decide +kernel)
  have run := replay?_cons lists went
  have regular : before.files.IsRegular := files ▸ Volume.IsTidy.isRegular (by decide +kernel)
  have deep : before.files.HasDepth := files ▸ Volume.IsTidy.hasDepth (by decide +kernel)
  have valid : before.settings.Valid := by
    rw [settings]
    constructor <;> decide
  have keeps : ∀ event ∈ Event.step 1 :: mixedPassButItsEnd, event.KeepsFiles := by
    simp [mixedPassButItsEnd, Event.KeepsFiles]
  obtain ⟨inevitable, ends⟩ :=
    passes_account_for_files new reached begins regular deep valid keeps run
  cases outcome with
  | error fault => cases ok
  | ok report =>
    cases ok
    exact ⟨before, session, next, report, reached, run, inevitable, happened, told, scanned, indexed,
      errors, ends next _ happened told⟩

end Session

end CodeSearch
