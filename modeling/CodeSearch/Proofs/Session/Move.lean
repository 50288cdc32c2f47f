import CodeSearch.Session.Event

/-! # What one step of a task does

Every step of a task is one of the moves listed here. A move says where the task stood, what the
step changed of what tasks share, and where the task stands then; whatever a move does not mention
has stayed. Invariants are proved move by move, and the step functions themselves are opened in this
module only.
-/

namespace CodeSearch

/-- The arguments of a request are accepted, and the file of an update does not lead out of its
project. -/
def Request.IsValid {α : Type} [Scalar α] : Request α → Prop
  | .index path _ => ∃ root, path.projectPath = .ok root
  | .update path filePath => ∃ root file, path.projectPath = .ok root ∧
      filePath.filePath = .ok file ∧
      Session.leadsOut (Loading.relativePath root (Path.normalize (Path.join root file))) = false
  | .search query options => (∃ text, query.query = .ok text) ∧
      (∃ checked, options.check = .ok checked) ∧ options.keyFault? = none
  | .context query path limit => ∃ wish, Session.contextWish query path limit = .ok wish
  | .clear path => ∃ root, path.mapM Argument.projectPath = .ok root

namespace Session

variable {α : Type} [Scalar α]

/-- The options with which a request for context searches. -/
def contextOptions (wish : ContextWish) : SearchOptions α :=
  SearchOptions.normalized
    { limit := some (wish.limit * 2), boostTypes := some (contextBoosts wish.query) }

/-- How a request for a project's index is met: what is shared afterwards, and the answer. -/
inductive IndexMove (session : Session α) (root : String) (force : Bool) :
    Session α → IndexStart → Prop where
  /-- The snapshot answers, since it is fresh or a pass is under way. -/
  | served (snapshot : Snapshot α) (current : session.snapshotOf root = some snapshot)
      (reason : (force = false ∧ snapshot.isFresh session.now session.settings.stalenessSeconds) ∨
        (session.inFlight.get? root).isSome) :
      IndexMove session root force { session with requestedRoot := some root }
        (.answered snapshot.report)
  | joined (pass : TaskId) (entered : session.inFlight.get? root = some pass)
      (absent : session.snapshotOf root = none) :
      IndexMove session root force { session with requestedRoot := some root } (.waits pass)
  | started (free : session.inFlight.get? root = none)
      (stale : ∀ snapshot, session.snapshotOf root = some snapshot →
        force = true ∨ ¬ snapshot.isFresh session.now session.settings.stalenessSeconds) :
      IndexMove session root force
        ({ session with requestedRoot := some root }.startPass root).1
        (.waits session.tasks.length)

/-- Moves of a call that change nothing but where the call stands. -/
inductive QuietMove (session : Session α) (id : TaskId) : CallPoint α → CallPoint α → Prop where
  | refused (request : Request α) (fault : CallFault)
      (reason : ∀ path filePath, request = .update path filePath →
        path.projectPath = .error fault) (invalid : ¬ request.IsValid) :
      QuietMove session id (.made request) (.ended (.error fault))
  | awaits (path filePath : Argument String) (root : String) (pass : TaskId)
      (accepted : path.projectPath = .ok root) (entered : session.inFlight.get? root = some pass) :
      QuietMove session id (.made (.update path filePath))
        (.awaitingPass pass (.update ⟨root, filePath⟩))
  | goesAhead (path filePath : Argument String) (root : String)
      (accepted : path.projectPath = .ok root) (free : session.inFlight.get? root = none) :
      QuietMove session id (.made (.update path filePath)) (.locking ⟨root, filePath⟩)
  | failedWith (pass : TaskId) (next : AfterPass) (fault : CallFault)
      (outcome : session.passOutcome? pass = some (.error fault)) :
      QuietMove session id (.awaitingPass pass next) (.ended (.error fault))
  | reported (pass : TaskId) (report : PassReport)
      (outcome : session.passOutcome? pass = some (.ok report)) :
      QuietMove session id (.awaitingPass pass .report) (.ended (.ok (.indexed report)))
  | updates (pass : TaskId) (report : PassReport) (update : Update)
      (outcome : session.passOutcome? pass = some (.ok report)) :
      QuietMove session id (.awaitingPass pass (.update update)) (.locking update)
  | serves (pass : TaskId) (report : PassReport) (wish : ContextWish)
      (outcome : session.passOutcome? pass = some (.ok report)) :
      QuietMove session id (.awaitingPass pass (.context wish)) (.searching wish)
  | entered (update : Update) (held : session.lock.holder = some id) :
      QuietMove session id (.queued update) (.updating update)
  | probes (update : Update) (filePath : String) (given : update.filePath.filePath = .ok filePath)
      (indexed : (session.snapshotOf update.root).isSome)
      (inside : leadsOut (Loading.relativePath update.root
        (Path.normalize (Path.join update.root filePath))) = false) :
      QuietMove session id (.updating update)
        (.probing
          { root := update.root
            absolute := Path.normalize (Path.join update.root filePath)
            relative := Loading.relativePath update.root
              (Path.normalize (Path.join update.root filePath)) })
  | opens (target : UpdateTarget) (size : Int)
      (told : session.files.size target.absolute = .ok (some size))
      (known : isIndexable target.relative) :
      QuietMove session id (.probing target) (.loading { target with isThere := true } .sizing)
  | passesBy (target : UpdateTarget) (size : Option Int)
      (told : session.files.size target.absolute = .ok size)
      (reason : size = none ∨ isIndexable target.relative = false) :
      QuietMove session id (.probing target)
        (.storing { target with isThere := size.isSome } none)
  | looks (target : UpdateTarget) (point next : LoadPoint)
      (step : Loading.step session.settings session.files session.now target.root target.absolute
        point = .next next) :
      QuietMove session id (.loading target point) (.loading target next)
  | loaded (target : UpdateTarget) (point : LoadPoint) (record : FileRecord α)
      (chunks : List Chunk)
      (step : Loading.step session.settings session.files session.now target.root target.absolute
        point = .last (.loaded record chunks)) :
      QuietMove session id (.loading target point) (.embedding target (.start record chunks))
  | notLoaded (target : UpdateTarget) (point : LoadPoint) (result : LoadResult α)
      (step : Loading.step session.settings session.files session.now target.root target.absolute
        point = .last result)
      (empty : ∀ record chunks, result ≠ .loaded record chunks) :
      QuietMove session id (.loading target point) (.storing target none)
  | embedded (target : UpdateTarget) (draft : FileDraft α) (done : draft.remaining = []) :
      QuietMove session id (.embedding target draft) (.storing target (some draft))
  | embeds (target : UpdateTarget) (draft : FileDraft α) (more : draft.remaining ≠ []) :
      QuietMove session id (.embedding target draft)
        (.resting target
          (draft.embedBatch session.embedder session.settings.embeddingBatchSize).1)
  | rested (target : UpdateTarget) (draft : FileDraft α) :
      QuietMove session id (.resting target draft) (.embedding target draft)
  | shown (wish : ContextWish) (items : List (ContextItem α)) :
      QuietMove session id (.reading wish [] items) (.ended (.ok (.shown items)))
  | reads (wish : ContextWish) (group : FileHits α) (groups : List (FileHits α))
      (items : List (ContextItem α)) :
      QuietMove session id (.reading wish (group :: groups) items)
        (.carrying wish (session.files.read (Path.join wish.root group.filePath)) group groups
          items)
  | takes (wish : ContextWish) (content : String) (group : FileHits α)
      (groups : List (FileHits α)) (items : List (ContextItem α)) :
      QuietMove session id (.carrying wish (.ok content) group groups items)
        (.reading wish groups (items ++ [contextItem session.settings content group]))
  | skips (wish : ContextWish) (fault : FileFault) (group : FileHits α)
      (groups : List (FileHits α)) (items : List (ContextItem α)) :
      QuietMove session id (.carrying wish (.error fault) group groups items)
        (.reading wish groups items)
  | breaksOff (wish : ContextWish) (fault : FileFault) (group : FileHits α)
      (groups : List (FileHits α)) (items : List (ContextItem α))
      (noText : ∀ message, fault ≠ .undecodable message) (unborne : fault.isUnavailable = false) :
      QuietMove session id (.carrying wish (.error fault) group groups items)
        (.ended (.error (.files fault)))

/-- How an update that holds the lock ends without changing the snapshot. -/
inductive GivesUp (session : Session α) : CallPoint α → Outcome α → Prop where
  | notText (update : Update) (fault : CallFault)
      (refused : update.filePath.filePath = .error fault) :
      GivesUp session (.updating update) (.error fault)
  | notIndexed (update : Update) (absent : session.snapshotOf update.root = none) :
      GivesUp session (.updating update) (.ok (.updated false))
  | outside (update : Update) (filePath : String) (given : update.filePath.filePath = .ok filePath)
      (leads : leadsOut (Loading.relativePath update.root
        (Path.normalize (Path.join update.root filePath))) = true) :
      GivesUp session (.updating update) (.error (.outsideProject filePath update.root))
  | sizeFault (target : UpdateTarget) (fault : FileFault)
      (told : session.files.size target.absolute = .error fault) :
      GivesUp session (.probing target) (.error (.files fault))
  | dropped (target : UpdateTarget) (draft : Option (FileDraft α))
      (absent : session.snapshotOf target.root = none) :
      GivesUp session (.storing target draft) (.ok (.updated false))

/-- Moves of a call: where it stood, what is shared afterwards, and where it stands. -/
inductive CallMove (session : Session α) (id : TaskId) :
    CallPoint α → Session α → CallPoint α → Prop where
  | quiet (point next : CallPoint α) (move : QuietMove session id point next) :
      CallMove session id point session next
  | answered (path : Argument String) (force : Bool) (root : String) (shared : Session α)
      (report : PassReport) (accepted : path.projectPath = .ok root)
      (met : IndexMove session root force shared (.answered report)) :
      CallMove session id (.made (.index path force)) shared (.ended (.ok (.indexed report)))
  | indexes (path : Argument String) (force : Bool) (root : String) (shared : Session α)
      (pass : TaskId) (accepted : path.projectPath = .ok root)
      (met : IndexMove session root force shared (.waits pass)) :
      CallMove session id (.made (.index path force)) shared (.awaitingPass pass .report)
  | searched (argument : Argument String) (input : OptionsArgument α) (query : String)
      (options : SearchOptions α) (text : argument.query = .ok query)
      (checked : input.check = .ok options) :
      CallMove session id (.made (.search argument input)) (session.search query options).2
        (.ended (.ok (.found (session.search query options).1)))
  | contextReady (query path : Argument String) (limit : Argument Int) (wish : ContextWish)
      (accepted : contextWish query path limit = .ok wish) :
      CallMove session id (.made (.context query path limit))
        { session with snapshot := session.snapshotOf wish.root } (.searching wish)
  | contextServed (query path : Argument String) (limit : Argument Int) (wish : ContextWish)
      (shared : Session α) (report : PassReport)
      (accepted : contextWish query path limit = .ok wish)
      (met : IndexMove { session with snapshot := session.snapshotOf wish.root } wish.root false
        shared (.answered report)) :
      CallMove session id (.made (.context query path limit)) shared (.searching wish)
  | contextWaits (query path : Argument String) (limit : Argument Int) (wish : ContextWish)
      (shared : Session α) (pass : TaskId) (accepted : contextWish query path limit = .ok wish)
      (met : IndexMove { session with snapshot := session.snapshotOf wish.root } wish.root false
        shared (.waits pass)) :
      CallMove session id (.made (.context query path limit)) shared
        (.awaitingPass pass (.context wish))
  | cleared (path : Option (Argument String)) (root : Option String)
      (accepted : path.mapM Argument.projectPath = .ok root) :
      CallMove session id (.made (.clear path)) (session.clear root) (.ended (.ok .cleared))
  | queued (update : Update) :
      CallMove session id (.locking update) (session.requestLock id) (.queued update)
  | gaveUp (point : CallPoint α) (outcome : Outcome α) (reason : GivesUp session point outcome) :
      CallMove session id point session.releaseLock (.ended outcome)
  | stored (target : UpdateTarget) (draft : Option (FileDraft α)) (snapshot : Snapshot α)
      (current : session.snapshotOf target.root = some snapshot) :
      CallMove session id (.storing target draft)
        { session with snapshot := some (refreshed snapshot target.relative draft) }.releaseLock
        (.ended (.ok (.updated (!target.isThere || draft.isSome))))
  | finds (wish : ContextWish) :
      CallMove session id (.searching wish)
        (session.search wish.query (contextOptions wish)).2
        (.reading wish
          (groupByFile (session.search wish.query (contextOptions wish)).1 wish.limit) [])

/-- Moves of a pass that change nothing but the pass itself. -/
inductive QuietPassMove (session : Session α) (id : TaskId) (pass : Pass α) : Pass α → Prop where
  | walked (found : List String) (stands : pass.point = .walking [] found) :
      QuietPassMove session id pass { pass with scanned := found.length, point := .batching found }
  | finds (path : String) (rest : List Walk.Target) (found : List String)
      (stands : pass.point = .walking (.file path :: rest) found) :
      QuietPassMove session id pass { pass with point := .walking rest (found ++ [path]) }
  | lists (path : String) (rest targets : List Walk.Target) (found : List String)
      (stands : pass.point = .walking (.directory path :: rest) found)
      (listed : Walk.listTargets session.settings (session.files.list path) = .ok targets) :
      QuietPassMove session id pass { pass with point := .walking (targets ++ rest) found }
  | completes (stands : pass.point = .batching []) :
      QuietPassMove session id pass
        { pass with draft := { pass.draft with indexedAt := session.now }, point := .locking }
  | collects (loads : List TaskId) (rest : List String) (results : List (LoadResult α))
      (stands : pass.point = .collecting loads rest)
      (ended : loads.mapM session.loadResult? = some results) :
      QuietPassMove session id pass { pass with point := .adding results rest }
  | batchDone (rest : List String) (stands : pass.point = .adding [] rest) :
      QuietPassMove session id pass { pass with point := .batching rest }
  | embedsNext (record : FileRecord α) (chunks : List Chunk) (results : List (LoadResult α))
      (rest : List String) (stands : pass.point = .adding (.loaded record chunks :: results) rest) :
      QuietPassMove session id pass
        { pass with point := .embedding (.start record chunks) results rest }
  | leavesOut (result : LoadResult α) (results : List (LoadResult α)) (rest : List String)
      (stands : pass.point = .adding (result :: results) rest)
      (empty : ∀ record chunks, result ≠ .loaded record chunks) :
      QuietPassMove session id pass { pass with point := .adding results rest }
  | adds (draft : FileDraft α) (results : List (LoadResult α)) (rest : List String)
      (stands : pass.point = .embedding draft results rest) (done : draft.remaining = []) :
      QuietPassMove session id pass
        { pass with
          draft := pass.draft.addDraft draft
          indexed := pass.indexed + 1
          point := .adding results rest }
  | embeds (draft : FileDraft α) (results : List (LoadResult α)) (rest : List String)
      (stands : pass.point = .embedding draft results rest) (more : draft.remaining ≠ []) :
      QuietPassMove session id pass
        { pass with
          errors := pass.errors ++
            (draft.embedBatch session.embedder session.settings.embeddingBatchSize).2
          point := .resting
            (draft.embedBatch session.embedder session.settings.embeddingBatchSize).1 results rest }
  | rested (draft : FileDraft α) (results : List (LoadResult α)) (rest : List String)
      (stands : pass.point = .resting draft results rest) :
      QuietPassMove session id pass { pass with point := .embedding draft results rest }
  | entered (stands : pass.point = .queued) (held : session.lock.holder = some id) :
      QuietPassMove session id pass { pass with point := .swapping }

/-- Moves of a pass: what is shared afterwards, and how the pass stands. -/
inductive PassMove (session : Session α) (id : TaskId) (pass : Pass α) :
    Session α → Pass α → Prop where
  | quiet (next : Pass α) (move : QuietPassMove session id pass next) :
      PassMove session id pass session next
  | fails (path : String) (rest : List Walk.Target) (found : List String) (fault : FileFault)
      (stands : pass.point = .walking (.directory path :: rest) found)
      (listed : Walk.listTargets session.settings (session.files.list path) = .error fault) :
      PassMove session id pass { session with leaving := session.leaving ++ [id] }
        { pass with point := .ended (.error (.files fault)) }
  | loads (paths : List String) (stands : pass.point = .batching paths) (more : paths ≠ []) :
      PassMove session id pass
        (session.start ((paths.take session.settings.fileReadBatchSize.toNat).map fun path =>
          .load id pass.root path (.running .sizing)))
        { pass with
          point := .collecting
            ((List.range (paths.take session.settings.fileReadBatchSize.toNat).length).map
              (session.tasks.length + ·))
            (paths.drop session.settings.fileReadBatchSize.toNat) }
  | queued (stands : pass.point = .locking) :
      PassMove session id pass (session.requestLock id) { pass with point := .queued }
  | swaps (stands : pass.point = .swapping) (wanted : session.requestedRoot = some pass.root) :
      PassMove session id pass
        { session with
          snapshot := some pass.draft
          lock := session.lock.release
          leaving := session.leaving ++ [id] }
        { pass with point := .ended (.ok pass.report) }
  | discards (stands : pass.point = .swapping)
      (superseded : session.requestedRoot ≠ some pass.root) :
      PassMove session id pass
        { session with lock := session.lock.release, leaving := session.leaving ++ [id] }
        { pass with point := .ended (.ok pass.report) }

/-- One step of a task, and the session behind it. -/
inductive Move (session : Session α) (id : TaskId) : Session α → Prop where
  | call (point next : CallPoint α) (shared : Session α)
      (stands : session.task? id = some (.call point))
      (move : CallMove session id point shared next) : Move session id (shared.setCall id next)
  | pass (pass next : Pass α) (shared : Session α)
      (stands : session.task? id = some (.pass pass))
      (move : PassMove session id pass shared next) : Move session id (shared.setPass id next)
  | looks (owner : TaskId) (root path : String) (point next : LoadPoint)
      (stands : session.task? id = some (.load owner root path (.running point)))
      (step : Loading.step session.settings session.files session.now root path point =
        .next next) :
      Move session id (session.setTask id (.load owner root path (.running next)))
  | ends (owner : TaskId) (root path : String) (point : LoadPoint) (result : LoadResult α)
      (stands : session.task? id = some (.load owner root path (.running point)))
      (step : Loading.step session.settings session.files session.now root path point =
        .last result)
      (quiet : ∀ message, result ≠ .failed message) :
      Move session id (session.setTask id (.load owner root path (.ended result)))
  | fails (owner : TaskId) (root path : String) (point : LoadPoint) (message : String)
      (stands : session.task? id = some (.load owner root path (.running point)))
      (step : Loading.step session.settings session.files session.now root path point =
        .last (.failed message)) :
      Move session id
        ((session.setTask id (.load owner root path (.ended (.failed message)))).tellOwner owner
          message)

theorem requestIndex_move (session : Session α) (root : String) (force : Bool) :
    IndexMove session root force (session.requestIndex root force).1
      (session.requestIndex root force).2 := by
  have same : ({ session with requestedRoot := some root } : Session α).snapshotOf root =
      session.snapshotOf root := rfl
  simp only [requestIndex, same]
  cases current : session.snapshotOf root with
  | none =>
    simp only [Option.filter_none]
    cases entered : session.inFlight.get? root with
    | none =>
      exact .started entered fun snapshot present => by rw [current] at present; cases present
    | some pass => exact .joined pass entered current
  | some snapshot =>
    by_cases fresh : !force && snapshot.isFresh session.now session.settings.stalenessSeconds
    · simp only [Option.filter_some, fresh, if_true]
      refine .served snapshot current (.inl ?_)
      simpa using fresh
    · simp only [Option.filter_some, fresh, Bool.false_eq_true, if_false]
      cases entered : session.inFlight.get? root with
      | none =>
        refine .started entered fun other present => ?_
        rw [current, Option.some.injEq] at present
        subst present
        cases force <;> simp_all
      | some pass => exact .served snapshot current (.inr (by rw [entered]; rfl))

private theorem begin_move (session : Session α) (id : TaskId) (request : Request α) :
    ∃ shared next, CallMove session id (.made request) shared next ∧
      session.begin id request = shared.setCall id next := by
  cases request with
  | index path force =>
    simp only [begin]
    split
    · next fault refused =>
      exact ⟨session, _, .quiet _ _ (.refused _ fault (by simp) (by simp [Request.IsValid, refused])),
        rfl⟩
    · next root accepted =>
      have met := requestIndex_move session root force
      rw [beginIndex]
      generalize session.requestIndex root force = start at met
      obtain ⟨shared, report | pass⟩ := start
      · exact ⟨shared, _, .answered path force root shared report accepted met, rfl⟩
      · exact ⟨shared, _, .indexes path force root shared pass accepted met, rfl⟩
  | update path filePath =>
    simp only [begin]
    split
    · next fault refused =>
      refine ⟨session, _, .quiet _ _ (.refused _ fault ?_ (by simp [Request.IsValid, refused])), rfl⟩
      intro path filePath same
      cases same
      exact refused
    · next root accepted =>
      rw [beginUpdate]
      split
      · next pass entered =>
        exact ⟨session, _, .quiet _ _ (.awaits path filePath root pass accepted entered), rfl⟩
      · next free =>
        exact ⟨session, _, .quiet _ _ (.goesAhead path filePath root accepted free), rfl⟩
  | search argument input =>
    simp only [begin]
    split
    · next fault refused =>
      exact ⟨session, _, .quiet _ _ (.refused _ fault (by simp) (by simp [Request.IsValid, refused])),
        rfl⟩
    · next fault _ refused =>
      exact ⟨session, _, .quiet _ _ (.refused _ fault (by simp) (by simp [Request.IsValid, refused])),
        rfl⟩
    · next fault _ _ unkeyed =>
      obtain ⟨snapshot, -, unkeyed⟩ := Option.bind_eq_some_iff.mp unkeyed
      exact ⟨session, _, .quiet _ _ (.refused _ (.options fault) (by simp)
        (by simp [Request.IsValid, unkeyed])), rfl⟩
    · next query options text checked _ =>
      exact ⟨_, _, .searched argument input query options text checked, rfl⟩
  | context query path limit =>
    simp only [begin]
    split
    · next fault refused =>
      exact ⟨session, _, .quiet _ _ (.refused _ fault (by simp) (by simp [Request.IsValid, refused])),
        rfl⟩
    · next wish accepted =>
      simp only [beginContext]
      split
      · exact ⟨_, _, .contextReady query path limit wish accepted, rfl⟩
      · have met := requestIndex_move
          { session with snapshot := session.snapshotOf wish.root } wish.root false
        generalize requestIndex { session with snapshot := session.snapshotOf wish.root } wish.root
          false = start at met ⊢
        obtain ⟨shared, report | pass⟩ := start
        · exact ⟨shared, _, .contextServed query path limit wish shared report accepted met, rfl⟩
        · exact ⟨shared, _, .contextWaits query path limit wish shared pass accepted met, rfl⟩
  | clear path =>
    simp only [begin]
    split
    · next fault refused =>
      exact ⟨session, _, .quiet _ _ (.refused _ fault (by simp) (by simp [Request.IsValid, refused])),
        rfl⟩
    · next root accepted => exact ⟨_, _, .cleared path root accepted, rfl⟩

/-- A request that comes to ask for the index of a project, by force or not, and what it does when a
pass has given it. A request for context does so if no chunks of its project are there. -/
inductive Indexes (session : Session α) : Request α → String → Bool → AfterPass → Prop where
  | index (path : Argument String) (force : Bool) (root : String)
      (accepted : path.projectPath = .ok root) :
      Indexes session (.index path force) root force .report
  | context (query path : Argument String) (limit : Argument Int) (wish : ContextWish)
      (accepted : contextWish query path limit = .ok wish)
      (empty : ∀ snapshot, session.snapshotOf wish.root = some snapshot →
        snapshot.chunks.isEmpty = true) :
      Indexes session (.context query path limit) wish.root false (.context wish)

/-- A request that asks for an index waits for the pass that it is given. -/
theorem begin_waits {session : Session α} {request : Request α} {root : String} {force : Bool}
    {after : AfterPass} (asks : session.Indexes request root force after) (id : TaskId) :
    ∃ kept : Option (Snapshot α),
      ({ session with snapshot := kept } : Session α).snapshotOf root = session.snapshotOf root ∧
      ∀ shared pass,
        ({ session with snapshot := kept } : Session α).requestIndex root force =
          (shared, .waits pass) →
        session.begin id request = shared.setCall id (.awaitingPass pass after) := by
  cases asks with
  | index path _ _ accepted =>
    refine ⟨session.snapshot, rfl, ?_⟩
    intro shared pass waits
    simp only [begin, accepted, beginIndex, waits]
  | context query path limit wish accepted empty =>
    refine ⟨session.snapshotOf wish.root, ?_, ?_⟩
    · simp only [snapshotOf, Option.filter_filter, Bool.and_self]
    intro shared pass waits
    have none : ((session.snapshotOf wish.root).any fun snapshot => !snapshot.chunks.isEmpty) =
        false := by
      cases current : session.snapshotOf wish.root with
      | none => rfl
      | some snapshot => simp [empty snapshot current]
    simp only [begin, accepted, beginContext, none, waits, Bool.false_eq_true, if_false]

/-- A call that was made can begin. -/
theorem after?_made {session : Session α} {id : TaskId} {request : Request α}
    (stands : session.task? id = some (.call (.made request))) :
    session.after? (.step id) = some (session.begin id request) := by
  simp only [after?, step?, stands, stepCall]

private theorem beginUpdating_move (session : Session α) (id : TaskId) (update : Update) :
    ∃ shared next, CallMove session id (.updating update) shared next ∧
      session.beginUpdating id update = shared.setCall id next := by
  simp only [beginUpdating]
  split
  · next fault refused => exact ⟨_, _, .gaveUp _ _ (.notText update fault refused), rfl⟩
  · next filePath given =>
    split
    · next absent =>
      exact ⟨_, _, .gaveUp _ _ (.notIndexed update (Option.isNone_iff_eq_none.mp absent)), rfl⟩
    · next present =>
      split
      · next leads => exact ⟨_, _, .gaveUp _ _ (.outside update filePath given leads), rfl⟩
      · next inside =>
        refine ⟨_, _, .quiet _ _ (.probes update filePath given ?_ (by simpa using inside)), rfl⟩
        simpa [← Option.isSome_iff_ne_none] using present

private theorem probe_move (session : Session α) (id : TaskId) (target : UpdateTarget) :
    ∃ shared next, CallMove session id (.probing target) shared next ∧
      session.probe id target = shared.setCall id next := by
  simp only [probe]
  split
  · next fault told => exact ⟨_, _, .gaveUp _ _ (.sizeFault target fault told), rfl⟩
  · next size told =>
    split
    · next goes =>
      rw [Bool.and_eq_true] at goes
      obtain ⟨size, rfl⟩ := Option.isSome_iff_exists.mp goes.1
      exact ⟨_, _, .quiet _ _ (.opens target size told goes.2), rfl⟩
    · next stays =>
      refine ⟨_, _, .quiet _ _ (.passesBy target size told ?_), rfl⟩
      cases size with
      | none => exact .inl rfl
      | some size => exact .inr (by simpa using stays)

private theorem loadTarget_move (session : Session α) (id : TaskId) (target : UpdateTarget)
    (point : LoadPoint) :
    ∃ shared next, CallMove session id (.loading target point) shared next ∧
      session.loadTarget id target point = shared.setCall id next := by
  simp only [loadTarget]
  split
  · next next step => exact ⟨_, _, .quiet _ _ (.looks target point next step), rfl⟩
  · next record chunks step => exact ⟨_, _, .quiet _ _ (.loaded target point record chunks step), rfl⟩
  · next result empty step =>
    exact ⟨_, _, .quiet _ _ (.notLoaded target point result step empty), rfl⟩

private theorem storeTarget_move (session : Session α) (id : TaskId) (target : UpdateTarget)
    (draft : Option (FileDraft α)) :
    ∃ shared next, CallMove session id (.storing target draft) shared next ∧
      session.storeTarget id target draft = shared.setCall id next := by
  simp only [storeTarget]
  split
  · next absent => exact ⟨_, _, .gaveUp _ _ (.dropped target draft absent), rfl⟩
  · next snapshot current => exact ⟨_, _, .stored target draft snapshot current, rfl⟩

private theorem takeContext_move (session : Session α) (id : TaskId) (wish : ContextWish)
    (content : Except FileFault String) (group : FileHits α) (groups : List (FileHits α))
    (items : List (ContextItem α)) :
    ∃ shared next, CallMove session id (.carrying wish content group groups items) shared next ∧
      session.takeContext id wish content group groups items = shared.setCall id next := by
  simp only [takeContext]
  split
  · exact ⟨_, _, .quiet _ _ (.takes ..), rfl⟩
  · exact ⟨_, _, .quiet _ _ (.skips ..), rfl⟩
  · next fault noText =>
    split
    · exact ⟨_, _, .quiet _ _ (.skips ..), rfl⟩
    · next unborne =>
      exact ⟨_, _, .quiet _ _ (.breaksOff _ _ _ _ _ noText (Bool.eq_false_iff.mpr unborne)), rfl⟩

/-- Every step of a call is one of the moves. -/
theorem stepCall_move {session next : Session α} {id : TaskId} {point : CallPoint α}
    (success : session.stepCall id point = some next) :
    ∃ shared after, CallMove session id point shared after ∧ next = shared.setCall id after := by
  cases point with
  | made request => cases success; exact begin_move session id request
  | awaitingPass pass after =>
    simp only [stepCall] at success
    split at success
    · cases success
    · next fault outcome =>
      cases success
      exact ⟨_, _, .quiet _ _ (.failedWith pass after fault outcome), rfl⟩
    · next report outcome =>
      cases success
      cases after with
      | report => exact ⟨_, _, .quiet _ _ (.reported pass report outcome), rfl⟩
      | update update => exact ⟨_, _, .quiet _ _ (.updates pass report update outcome), rfl⟩
      | context wish => exact ⟨_, _, .quiet _ _ (.serves pass report wish outcome), rfl⟩
  | locking update => cases success; exact ⟨_, _, .queued update, rfl⟩
  | queued update =>
    simp only [stepCall] at success
    split at success
    · next held =>
      cases success
      exact ⟨_, _, .quiet _ _ (.entered update (by simpa [holdsLock] using held)), rfl⟩
    · cases success
  | updating update => cases success; exact beginUpdating_move session id update
  | probing target => cases success; exact probe_move session id target
  | loading target point => cases success; exact loadTarget_move session id target point
  | embedding target draft =>
    cases success
    simp only [embedTarget]
    split
    · next done => exact ⟨_, _, .quiet _ _ (.embedded target draft (by simpa using done)), rfl⟩
    · next more => exact ⟨_, _, .quiet _ _ (.embeds target draft (by simpa using more)), rfl⟩
  | resting target draft => cases success; exact ⟨_, _, .quiet _ _ (.rested target draft), rfl⟩
  | storing target draft => cases success; exact storeTarget_move session id target draft
  | searching wish => cases success; exact ⟨_, _, .finds wish, rfl⟩
  | reading wish groups items =>
    cases success
    cases groups with
    | nil => exact ⟨_, _, .quiet _ _ (.shown wish items), rfl⟩
    | cons group groups => exact ⟨_, _, .quiet _ _ (.reads wish group groups items), rfl⟩
  | carrying wish content group groups items =>
    cases success
    exact takeContext_move session id wish content group groups items
  | ended outcome => cases success

/-- Every step of a pass is one of the moves. -/
theorem stepPass_move {session next : Session α} {id : TaskId} {pass : Pass α}
    (success : session.stepPass id pass = some next) :
    ∃ shared after, PassMove session id pass shared after ∧ next = shared.setPass id after := by
  simp only [stepPass] at success
  split at success
  · next pending found stands =>
    cases success
    match pending with
    | [] => exact ⟨_, _, .quiet _ (.walked found stands), rfl⟩
    | .file path :: rest => exact ⟨_, _, .quiet _ (.finds path rest found stands), rfl⟩
    | .directory path :: rest =>
      simp only [walkOn]
      split
      · next targets listed =>
        exact ⟨_, _, .quiet _ (.lists path rest targets found stands listed), rfl⟩
      · next fault listed => exact ⟨_, _, .fails path rest found fault stands listed, rfl⟩
  · next rest stands =>
    cases success
    match rest with
    | [] => exact ⟨_, _, .quiet _ (.completes stands), rfl⟩
    | path :: rest => exact ⟨_, _, .loads (path :: rest) stands (by simp), rfl⟩
  · next loads rest stands =>
    obtain ⟨results, ended, rfl⟩ := Option.map_eq_some_iff.mp success
    exact ⟨_, _, .quiet _ (.collects loads rest results stands ended), rfl⟩
  · next results rest stands =>
    cases success
    match results with
    | [] => exact ⟨_, _, .quiet _ (.batchDone rest stands), rfl⟩
    | .loaded record chunks :: results =>
      exact ⟨_, _, .quiet _ (.embedsNext record chunks results rest stands), rfl⟩
    | .oversize :: results =>
      exact ⟨_, _, .quiet _ (.leavesOut .oversize results rest stands (by simp)), rfl⟩
    | .failed message :: results =>
      exact ⟨_, _, .quiet _ (.leavesOut (.failed message) results rest stands (by simp)), rfl⟩
  · next draft results rest stands =>
    cases success
    simp only [embedNext]
    split
    · next done => exact ⟨_, _, .quiet _ (.adds draft results rest stands (by simpa using done)), rfl⟩
    · next more =>
      exact ⟨_, _, .quiet _ (.embeds draft results rest stands (by simpa using more)), rfl⟩
  · next draft results rest stands =>
    cases success
    exact ⟨_, _, .quiet _ (.rested draft results rest stands), rfl⟩
  · next stands => cases success; exact ⟨_, _, .queued stands, rfl⟩
  · next stands =>
    split at success
    · next held =>
      cases success
      exact ⟨_, _, .quiet _ (.entered stands (by simpa [holdsLock] using held)), rfl⟩
    · cases success
  · next stands =>
    cases success
    by_cases wanted : session.requestedRoot = some pass.root
    · exact ⟨_, _, .swaps stands wanted, by simp only [swap, if_pos wanted]; rfl⟩
    · exact ⟨_, _, .discards stands wanted, by simp only [swap, if_neg wanted]; rfl⟩
  · cases success

/-- Every step of a task is one of the moves. -/
theorem step?_move {session next : Session α} {id : TaskId}
    (success : session.step? id = some next) : Move session id next := by
  simp only [step?] at success
  split at success
  · next point stands =>
    obtain ⟨shared, after, move, rfl⟩ := stepCall_move success
    exact .call point after shared stands move
  · next pass stands =>
    obtain ⟨shared, after, move, rfl⟩ := stepPass_move success
    exact .pass pass after shared stands move
  · next owner root path point stands =>
    cases success
    simp only [stepLoad]
    split
    · next next step => exact .looks owner root path point next stands step
    · next result step =>
      cases result with
      | failed message => exact .fails owner root path point message stands step
      | oversize => exact .ends owner root path point _ stands step (by simp)
      | loaded record chunks => exact .ends owner root path point _ stands step (by simp)
  · cases success

end Session

end CodeSearch
