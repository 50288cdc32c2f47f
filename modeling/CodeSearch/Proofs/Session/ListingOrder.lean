import CodeSearch.Proofs.Files.Relisting
import CodeSearch.Proofs.Index.UpToDate
import CodeSearch.Proofs.Session.Accounts

/-! # Passes over listings in another order

Two sessions index the same files, but the system lists the entries of directories to them in
different orders. As long as no names of a directory differ in case only, nothing of this is seen:
both passes end alike, with entries in the same order, so that equal scores are ranked alike. When
the passes run and how long they take may differ, and so may what else the sessions do meanwhile.
-/

namespace CodeSearch

open Loading

variable {α : Type} [Scalar α]

/-- The records of files in their order, without the times at which they were made. -/
def Snapshot.untimedFiles {α : Type} (snapshot : Snapshot α) : List (String × FileRecord Unit) :=
  snapshot.files.entries.map (Prod.map id FileRecord.untimed)

/-- Two snapshots hold the same in the same order, apart from times. -/
structure Snapshot.SameInOrder {α : Type} (first second : Snapshot α) : Prop where
  projectPath : first.projectPath = second.projectPath
  files : first.untimedFiles = second.untimedFiles
  chunks : first.chunks = second.chunks
  embeddings : first.embeddings = second.embeddings
  cache : first.cache = second.cache

private theorem map_store {κ ν μ : Type} [DecidableEq κ] (f : ν → μ) (key : κ) (value : ν)
    (entries : List (κ × ν)) :
    (OrderedMap.store key value entries).map (Prod.map id f) =
      OrderedMap.store key (f value) (entries.map (Prod.map id f)) := by
  induction entries with
  | nil => rfl
  | cons entry rest ih =>
    obtain ⟨known, stored⟩ := entry
    by_cases same : known = key <;> simp [OrderedMap.store, same, ih]

omit [Scalar α] in
theorem Snapshot.SameInOrder.addFile {first second : Snapshot α} (same : first.SameInOrder second)
    {record other : FileRecord α} (alike : record.untimed = other.untimed) (chunks : List Chunk)
    (embeddings : List (Embedding α)) :
    (first.addFile record chunks embeddings).SameInOrder
      (second.addFile other chunks embeddings) where
  projectPath := same.projectPath
  files := by
    have path : record.path = other.path := congrArg (fun known => known.path) alike
    change (OrderedMap.store _ _ _).map _ = (OrderedMap.store _ _ _).map _
    rw [map_store, map_store, path, alike]
    exact congrArg _ same.files
  chunks := congrArg (storeAll Chunk.id · chunks) same.chunks
  embeddings := congrArg (storeAll Embedding.chunkId · embeddings) same.embeddings
  cache := same.cache

variable {settings : Settings α} {embedder : Embedder α} {files other : FileSystem}
  {root path : String}

private theorem add_look_sameInOrder {part partOther : PartialIndex α} {now later : α}
    (same : part.draft.SameInOrder partOther.draft) (size : other.size path = files.size path)
    (read : other.read path = files.read path) :
    (part.add embedder (look settings files now root path)).draft.SameInOrder
      (partOther.add embedder (look settings other later root path)).draft := by
  rw [look, look, size, read]
  cases files.size path with
  | error fault => exact same
  | ok size =>
    dsimp only
    split
    · exact same
    · cases files.read path with
      | error fault => exact same
      | ok content =>
        let relative := relativePath root path
        have alike : (FileRecord.build relative content (languageTag relative) now).untimed =
          (FileRecord.build relative content (languageTag relative) later).untimed := rfl
        exact same.addFile alike _ _

namespace Session

variable {before beforeOther session sessionOther next nextOther : Session α} {id idOther : TaskId}

private theorem sameInOrder_of_takenIn {moments : α → Prop} {done : List String}
    {part partOther : PartialIndex α}
    (settings : beforeOther.settings = before.settings)
    (embedder : beforeOther.embedder = before.embedder)
    (relisted : before.files.IsRelisting beforeOther.files)
    (taken : TakenIn before moments root done part)
    (takenOther : TakenIn beforeOther moments root done partOther) :
    part.draft.SameInOrder partOther.draft := by
  induction taken generalizing partOther with
  | nothing =>
    generalize none : ([] : List String) = done at takenOther
    cases takenOther with
    | nothing => rw [settings]; exact ⟨rfl, rfl, rfl, rfl, rfl⟩
    | next => exact absurd none (by simp)
  | next done path part result taken seen ih =>
    generalize some : done ++ [path] = all at takenOther
    cases takenOther with
    | nothing => exact absurd some (by simp)
    | next doneOther pathOther partOther resultOther takenOther seenOther =>
      obtain ⟨rfl, last⟩ := List.append_inj' some rfl
      obtain rfl := List.singleton_inj.mp last
      obtain ⟨now, -, rfl⟩ := seen
      obtain ⟨later, -, rfl⟩ := seenOther
      rw [settings, embedder]
      exact add_look_sameInOrder (ih takenOther) (congrFun relisted.size path)
        (congrFun relisted.read path)

private theorem uncached_of_takenIn {moments : α → Prop} {done : List String}
    {part : PartialIndex α} (taken : TakenIn before moments root done part) :
    part.draft.cache.entries = ∅ := by
  induction taken with
  | nothing => rfl
  | next done path part result taken seen ih => cases result <;> exact ih

private theorem search_of_uncached {snapshot : Snapshot α} (shown : session.snapshot = some snapshot)
    (uncached : snapshot.cache.entries = ∅) (query : String) (options : SearchOptions α) :
    (session.search query options).1 =
      rank session.settings session.embedder query options snapshot.embeddings.values := by
  have missed : snapshot.cache.get session.now (options.cacheKey query) = (none, snapshot.cache) := by
    rw [QueryCache.get, uncached]
    rfl
  rw [search, shown]
  dsimp only
  rw [missed]
  split <;> rfl

/-- A pass over a project that starts in one session has come to another one, and the files have
stayed as they were. -/
structure PassRun (before : Session α) (id : TaskId) (root : String) (session : Session α) :
    Prop where
  reached : ∃ (start : Session α) (earlier : List (Event α)),
    start.IsNew ∧ start.replay? earlier = some before
  begins : before.task? id = some (.pass (.start before.settings root))
  goesOn : ∃ events : List (Event α),
    (∀ event ∈ events, event.KeepsFiles) ∧ before.replay? events = some session

/-- Two passes over a project have ended alike: with one fault, or with drafts that hold the same in
the same order. Where both drafts are shown, every search finds the same. -/
inductive EndAlike (next nextOther : Session α) (id idOther : TaskId) (root : String) :
    Except CallFault PassReport → Except CallFault PassReport → Prop where
  | fails (fault : FileFault) :
      EndAlike next nextOther id idOther root (.error (.files fault)) (.error (.files fault))
  | ends (pass passOther : Pass α) (stands : next.task? id = some (.pass pass))
      (standsOther : nextOther.task? idOther = some (.pass passOther))
      (same : pass.draft.SameInOrder passOther.draft)
      (shown : next.requestedRoot = some root → next.snapshot = some pass.draft)
      (shownOther : nextOther.requestedRoot = some root →
        nextOther.snapshot = some passOther.draft)
      (found : next.requestedRoot = some root → nextOther.requestedRoot = some root →
        ∀ query options, (next.search query options).1 = (nextOther.search query options).1) :
      EndAlike next nextOther id idOther root (.ok pass.report) (.ok passOther.report)

private theorem PassRun.ends (run : before.PassRun id root session) (deep : before.files.HasDepth)
    (readsSome : 1 ≤ before.settings.fileReadBatchSize)
    (embedsSome : 1 ≤ before.settings.embeddingBatchSize) :
    (session.Inevitable fun later => ∃ outcome, later.passOutcome? id = some outcome) ∧
      ∀ next outcome, session.after? (.step id) = some next →
        next.passOutcome? id = some outcome →
        PassEnd before (fun _ => True) next id root outcome ∧
          next.settings = before.settings ∧ next.embedder = before.embedder := by
  obtain ⟨start, earlier, new, reached⟩ := run.reached
  obtain ⟨events, keeps, went⟩ := run.goesOn
  obtain ⟨inevitable, ends⟩ := passes_come_to_end new reached run.begins deep readsSome embedsSome
    (fun event member => (keeps event member).isWithin) trivial went
  exact ⟨inevitable, fun next outcome happened ended =>
    ⟨ends next outcome happened ended, replay?_world (replay?_concat went happened)⟩⟩

private theorem sameInOrder_of_complete {moments : α → Prop} {pass passOther : Pass α}
    (settings : beforeOther.settings = before.settings)
    (embedder : beforeOther.embedder = before.embedder)
    (relisted : before.files.IsRelisting beforeOther.files)
    (discovered : discover before.settings before.files pass.root =
      discover beforeOther.settings beforeOther.files pass.root)
    (rooted : passOther.root = pass.root) (complete : pass.IsComplete before moments)
    (completeOther : passOther.IsComplete beforeOther moments) :
    pass.draft.SameInOrder passOther.draft ∧ pass.draft.cache.entries = ∅ := by
  obtain ⟨done, part, now, -, found, taken, same⟩ := complete
  obtain ⟨doneOther, partOther, later, -, foundOther, takenOther, sameOther⟩ := completeOther
  rw [rooted] at foundOther takenOther
  have order := found.discovered.symm.trans (discovered.trans foundOther.discovered)
  cases order
  have alike := sameInOrder_of_takenIn settings embedder relisted taken takenOther
  have draft : pass.draft = { part.draft with indexedAt := now } := same.draft
  have draftOther : passOther.draft = { partOther.draft with indexedAt := later } := sameOther.draft
  rw [draft, draftOther]
  exact ⟨⟨alike.projectPath, alike.files, alike.chunks, alike.embeddings, alike.cache⟩,
    uncached_of_takenIn taken⟩

/-- The order in which the system lists the entries of directories makes no difference. The same
files are discovered in the same order; passes over them come to their ends, and end alike. -/
theorem passes_ignore_order_of_listings (run : before.PassRun id root session)
    (runOther : beforeOther.PassRun idOther root sessionOther)
    (settings : beforeOther.settings = before.settings)
    (embedder : beforeOther.embedder = before.embedder)
    (relisted : before.files.IsRelisting beforeOther.files) (apart : before.files.NamesApart)
    (deep : before.files.HasDepth) (deepOther : beforeOther.files.HasDepth)
    (readsSome : 1 ≤ before.settings.fileReadBatchSize)
    (embedsSome : 1 ≤ before.settings.embeddingBatchSize) :
    (∀ (settings : Settings α) (directory : String),
      discover settings before.files directory = discover settings beforeOther.files directory) ∧
    (session.Inevitable fun later => ∃ outcome, later.passOutcome? id = some outcome) ∧
    (sessionOther.Inevitable fun later => ∃ outcome, later.passOutcome? idOther = some outcome) ∧
    ∀ next nextOther outcome outcomeOther, session.after? (.step id) = some next →
      next.passOutcome? id = some outcome → sessionOther.after? (.step idOther) = some nextOther →
      nextOther.passOutcome? idOther = some outcomeOther →
      next.EndAlike nextOther id idOther root outcome outcomeOther := by
  obtain ⟨inevitable, ends⟩ := run.ends deep readsSome embedsSome
  obtain ⟨inevitableOther, endsOther⟩ :=
    runOther.ends deepOther (settings ▸ readsSome) (settings ▸ embedsSome)
  have discovered : ∀ (settings : Settings α) (directory : String),
      discover settings before.files directory = discover settings beforeOther.files directory :=
    fun settings => relisted.discover_eq apart deep deepOther
  refine ⟨discovered, inevitable, inevitableOther, ?_⟩
  intro next nextOther outcome outcomeOther happened ended happenedOther endedOther
  obtain ⟨ending, nextSettings, nextEmbedder⟩ := ends next outcome happened ended
  obtain ⟨endingOther, otherSettings, otherEmbedder⟩ :=
    endsOther nextOther outcomeOther happenedOther endedOther
  have same := (discovered before.settings root).trans (by rw [← settings])
  cases ending with
  | fails fault undiscovered =>
    rw [undiscovered] at same
    cases endingOther with
    | fails faultOther undiscovered =>
      cases same.trans undiscovered
      exact .fails fault
    | ends pass stands rooted complete =>
      obtain ⟨done, -, -, -, found, -⟩ := complete
      rw [rooted] at found
      cases same.trans found.discovered
  | ends pass stands rooted complete shown =>
    subst rooted
    cases endingOther with
    | fails fault undiscovered =>
      obtain ⟨done, -, -, -, found, -⟩ := complete
      cases found.discovered.symm.trans (same.trans undiscovered)
    | ends passOther standsOther rooted completeOther shownOther =>
      obtain ⟨alike, uncached⟩ := sameInOrder_of_complete settings embedder relisted same rooted
        complete completeOther
      refine .ends pass passOther stands standsOther alike shown shownOther ?_
      intro wanted wantedOther query options
      rw [search_of_uncached (shown wanted) uncached,
        search_of_uncached (shownOther wantedOther) (alike.cache ▸ uncached), nextSettings,
        nextEmbedder, otherSettings, otherEmbedder, settings, embedder, alike.embeddings]

/-- Two files that hold the same, made in one order or in the other. -/
def twinVolume (turned : Bool) : Volume :=
  let file : StoredFile := .ofText "def run():\n    pass\n"
  if turned then (Volume.write {} "/p/B.py" file).write "/p/a.py" file
  else (Volume.write {} "/p/a.py" file).write "/p/B.py" file

private theorem twinVolume_isRelisting :
    (twinVolume false).fileSystem.IsRelisting (twinVolume true).fileSystem := by
  refine Volume.isRelisting (OrderedMap.ext (by decide +kernel)) ?_
  let file : StoredFile := .ofText "def run():\n    pass\n"
  have named : "/p/a.py" ≠ "/p/B.py" := by decide
  change (OrderedMap.store "/p/B.py" file [("/p/a.py", file)]).Perm
    (OrderedMap.store "/p/a.py" file [("/p/B.py", file)])
  simp only [OrderedMap.store, if_neg named, if_neg named.symm]
  exact .swap _ _ _

/-- A session over these files; the second one is opened later. -/
def twinProject (turned : Bool) : Session Float :=
  opened {} (twinVolume turned).fileSystem (if turned then 5 else 0)

def twinTargets : List Walk.Target := [.file "/p/a.py", .file "/p/B.py"]

/-- What comes after the listing up to the last step of the pass. In the second session another load
comes first. -/
def twinPassButItsEnd (turned : Bool) : List (Event Float) :=
  List.replicate 4 (.step 1) ++
    (if turned then List.replicate 3 (.step 3) ++ List.replicate 3 (.step 2)
      else List.replicate 3 (.step 2) ++ List.replicate 3 (.step 3)) ++
    List.replicate 13 (.step 1)

private theorem listTargets_twinVolume (turned : Bool) :
    Walk.listTargets ({} : Settings Float) ((twinVolume turned).fileSystem.list "/p") =
      .ok twinTargets := by
  have listing : (twinVolume turned).fileSystem.list "/p" =
      .ok (if turned then [⟨"B.py", "/p/B.py", false⟩, ⟨"a.py", "/p/a.py", false⟩]
        else [⟨"a.py", "/p/a.py", false⟩, ⟨"B.py", "/p/B.py", false⟩]) := by
    cases turned <;> decide +kernel
  have sorted : (if turned then [⟨"B.py", "/p/B.py", false⟩, ⟨"a.py", "/p/a.py", false⟩]
        else [⟨"a.py", "/p/a.py", false⟩, ⟨"B.py", "/p/B.py", false⟩]).Perm
      [⟨"a.py", "/p/a.py", false⟩, (⟨"B.py", "/p/B.py", false⟩ : Entry)] := by
    cases turned <;> decide +kernel
  rw [listing, Walk.listTargets, Walk.NamesApart.targets_of_sorted
    (by cases turned <;> decide +kernel) sorted (by decide +kernel)]
  decide +kernel

private theorem exists_twinRun (turned : Bool) :
    ∃ (before session next : Session Float) (report : PassReport),
      before.settings = {} ∧ before.embedder = .hashing 256 1500 ∧
      before.files = (twinVolume turned).fileSystem ∧
      before.PassRun 1 "/p" session ∧ session.after? (.step 1) = some next ∧
      next.passOutcome? 1 = some (.ok report) ∧ next.requestedRoot = some "/p" := by
  have ran : (((twinProject turned).replay? firstRequest).bind fun before =>
      ((before.withListing 1 "/p" twinTargets).replay? (twinPassButItsEnd turned)).bind fun session =>
        (session.after? (.step 1)).bind fun next =>
          (next.passOutcome? 1).bind fun outcome => outcome.toOption.filter fun _ =>
            next.requestedRoot = some "/p").isSome = true := by
    cases turned <;> decide +kernel
  obtain ⟨report, ran⟩ := Option.isSome_iff_exists.mp ran
  obtain ⟨before, reached, ran⟩ := Option.bind_eq_some_iff.mp ran
  obtain ⟨session, went, ran⟩ := Option.bind_eq_some_iff.mp ran
  obtain ⟨next, happened, ran⟩ := Option.bind_eq_some_iff.mp ran
  obtain ⟨outcome, told, ran⟩ := Option.bind_eq_some_iff.mp ran
  obtain ⟨ended, wanted⟩ := Option.filter_eq_some_iff.mp ran
  have settings : before.settings = {} := (replay?_world reached).1
  have embedder : before.embedder = .hashing 256 1500 := (replay?_world reached).2
  have new : (twinProject turned).IsNew := opened_isNew _ _ _
  have files : before.files = (twinVolume turned).fileSystem :=
    (begins_of_firstRequest new reached).1
  have begins := (begins_of_firstRequest new reached).2
  have lists : before.after? (.step 1) = some (before.withListing 1 "/p" twinTargets) := by
    refine after?_of_listTargets begins ?_
    rw [files, settings, listTargets_twinVolume]
  have run := replay?_cons lists went
  have keeps : ∀ event ∈ Event.step 1 :: twinPassButItsEnd turned, event.KeepsFiles := by
    cases turned <;> simp [twinPassButItsEnd, Event.KeepsFiles]
  cases outcome with
  | error fault => cases ended
  | ok =>
    cases ended
    exact ⟨before, session, next, report, settings, embedder, files,
      ⟨⟨_, _, new, reached⟩, begins, _, keeps, run⟩, happened, told,
      of_decide_eq_true wanted⟩

theorem twins_are_indexed_alike :
    ∃ (before session next beforeOther sessionOther nextOther : Session Float)
      (report reportOther : PassReport),
      before.PassRun 1 "/p" session ∧ beforeOther.PassRun 1 "/p" sessionOther ∧
      before.files.IsRelisting beforeOther.files ∧
      before.files.list "/p" ≠ beforeOther.files.list "/p" ∧
      session.after? (.step 1) = some next ∧ sessionOther.after? (.step 1) = some nextOther ∧
      next.passOutcome? 1 = some (.ok report) ∧ nextOther.passOutcome? 1 = some (.ok reportOther) ∧
      next.requestedRoot = some "/p" ∧ nextOther.requestedRoot = some "/p" ∧
      next.EndAlike nextOther 1 1 "/p" (.ok report) (.ok reportOther) := by
  obtain ⟨before, session, next, report, settings, embedder, files, run, happened, told, wanted⟩ :=
    exists_twinRun false
  obtain ⟨beforeOther, sessionOther, nextOther, reportOther, settingsOther, embedderOther, filesOther,
    runOther, happenedOther, toldOther, wantedOther⟩ := exists_twinRun true
  have relisted : before.files.IsRelisting beforeOther.files := by
    rw [files, filesOther]
    exact twinVolume_isRelisting
  have turned : before.files.list "/p" ≠ beforeOther.files.list "/p" := by
    rw [files, filesOther]
    decide +kernel
  have apart : before.files.NamesApart := files ▸ Volume.namesApart (by decide +kernel)
  have deep : before.files.HasDepth := files ▸ Volume.IsTidy.hasDepth (by decide +kernel)
  have deepOther : beforeOther.files.HasDepth :=
    filesOther ▸ Volume.IsTidy.hasDepth (by decide +kernel)
  obtain ⟨-, -, -, alike⟩ := passes_ignore_order_of_listings run runOther
    (settingsOther.trans settings.symm) (embedderOther.trans embedder.symm) relisted apart deep
    deepOther (by rw [settings]; decide) (by rw [settings]; decide)
  exact ⟨before, session, next, beforeOther, sessionOther, nextOther, report, reportOther, run,
    runOther, relisted, turned, happened, happenedOther, told, toldOther, wanted, wantedOther,
    alike next nextOther _ _ happened told happenedOther toldOther⟩

end Session

end CodeSearch
