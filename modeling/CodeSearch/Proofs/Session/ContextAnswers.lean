import CodeSearch.Proofs.Index.FileEntries
import CodeSearch.Proofs.Session.CachedAnswers
import CodeSearch.Proofs.Session.Requests
import Mathlib.Data.Rat.Sqrt

/-! # Where the context of a project comes from

A request for context drops the snapshot of another project, waits for a pass if there is nothing to
search, and searches the snapshot that is there when it goes on. The files that it shows are those of
the hits. As long as no other project is asked for while it waits, that snapshot is one of its own
project.
-/

namespace CodeSearch

variable {α : Type} [Scalar α]

/-! ## Hits and their files -/

/-- A hit is a chunk of the corpus. -/
theorem mem_of_mem_rank {settings : Settings α} {embedder : Embedder α} {query : String}
    {options : SearchOptions α} {corpus : List (Embedding α)} {hit : Hit α}
    (member : hit ∈ rank settings embedder query options corpus) :
    ∃ embedding ∈ corpus, embedding.chunk = hit.chunk := by
  have listed := (byFalling_perm Hit.score _).mem_iff.mp (List.mem_of_mem_take member)
  obtain ⟨embedding, known, made⟩ := List.mem_filterMap.mp listed
  refine ⟨embedding, known, ?_⟩
  simp only [Ranking.hit?] at made
  split at made
  · split at made
    · cases made
    · cases made; rfl
  · cases made

/-- A group of hits is named for the file of one of them. -/
theorem exists_hit_of_mem_groupByFile {hits : List (Hit α)} {limit : Int} {group : FileHits α}
    (member : group ∈ groupByFile hits limit) :
    ∃ hit ∈ hits, hit.chunk.filePath = group.filePath := by
  have listed := (byFalling_perm FileHits.maxScore _).mem_iff.mp (List.mem_of_mem_take member)
  obtain ⟨path, known, made⟩ := List.mem_filterMap.mp listed
  obtain ⟨hit, there, same⟩ := List.mem_map.mp (List.mem_eraseDups.mp known)
  refine ⟨hit, there, ?_⟩
  simp only [Context.fileHits?] at made
  split at made
  · cases made
  · cases made; exact same

private theorem groupByFile_singleton (hit : Hit α) {limit : Int} (positive : 0 < limit) :
    groupByFile [hit] limit = [⟨hit.chunk.filePath, hit.score, [hit]⟩] := by
  have once : [hit.chunk.filePath].eraseDups = [hit.chunk.filePath] := by
    rw [List.eraseDups_cons]
    rfl
  have groups : Context.groups [hit] = [⟨hit.chunk.filePath, hit.score, [hit]⟩] := by
    simp [Context.groups, once, Context.fileHits?, Context.greatest]
  have sorted := List.perm_singleton.mp
    (byFalling_perm FileHits.maxScore [⟨hit.chunk.filePath, hit.score, [hit]⟩])
  obtain ⟨count, rfl⟩ := Int.eq_succ_of_zero_lt positive
  rw [groupByFile, groups, sorted, ← Int.natCast_succ, Text.upTo_natCast]
  exact List.take_of_length_le (Nat.succ_le_succ (Nat.zero_le count))

namespace Session

variable {session shared next final : Session α} {id : TaskId} {wish : ContextWish}

/-- Hits come from the snapshot that is searched, also if the answer is a cached one. -/
theorem CacheSound.exists_embedding_of_mem_search {accepted : String → SearchOptions α → Prop}
    (sound : session.CacheSound accepted) {query : String} {options : SearchOptions α} {hit : Hit α}
    (member : hit ∈ (session.search query options).1) :
    ∃ snapshot, session.snapshot = some snapshot ∧
      ∃ embedding ∈ snapshot.embeddings.values, embedding.chunk = hit.chunk := by
  cases current : session.snapshot with
  | none =>
    simp only [search, current] at member
    cases member
  | some snapshot =>
    refine ⟨snapshot, rfl, ?_⟩
    simp only [search, current] at member
    split at member
    · split at member
      · next hits cache found =>
        obtain ⟨entry, stored, rfl⟩ := QueryCache.get?_of_get found
        obtain ⟨other, given, -, -, answer⟩ := sound.snapshot snapshot current _ entry stored
        rw [answer] at member
        exact mem_of_mem_rank member
      · exact mem_of_mem_rank member
    · exact mem_of_mem_rank member

/-! ## A request for context -/

/-- The call waits for the pass of its project, or is about to search. -/
def IsToSearch (wish : ContextWish) (point : CallPoint α) : Prop :=
  point = .searching wish ∨ ∃ pass, point = .awaitingPass pass (.context wish)

/-- Behind the search, whatever the call has shown or is to show is named for a file of the hits.
-/
def ShowsFiles (files : String → Prop) : CallPoint α → Prop
  | .reading _ groups items =>
    (∀ group ∈ groups, files group.filePath) ∧ ∀ item ∈ items, files item.path
  | .carrying _ _ group groups items =>
    (∀ other ∈ group :: groups, files other.filePath) ∧ ∀ item ∈ items, files item.path
  | .ended (.ok (.shown items)) => ∀ item ∈ items, files item.path
  | .ended _ => True
  | _ => False

private theorem ShowsFiles.move {files : String → Prop} {point after : CallPoint α}
    (shows : ShowsFiles files point) (move : CallMove session id point shared after) :
    ShowsFiles files after := by
  cases move with
  | quiet _ _ move =>
    cases move with
    | shown => exact shows.2
    | reads => exact shows
    | takes _ _ group groups items =>
      obtain ⟨named, shown⟩ := shows
      refine ⟨fun other member => named other (List.mem_cons_of_mem _ member), ?_⟩
      intro item member
      rcases List.mem_append.mp member with earlier | last
      · exact shown item earlier
      · rw [List.mem_singleton.mp last]
        exact named group List.mem_cons_self
    | skips =>
      exact ⟨fun other member => shows.1 other (List.mem_cons_of_mem _ member), shows.2⟩
    | breaksOff => exact trivial
    | _ => exact shows.elim
  | gaveUp _ _ reason => cases reason <;> exact shows.elim
  | _ => exact shows.elim

private theorem shown_of_run {files : String → Prop} {events : List (Event α)} {point : CallPoint α}
    {items : List (ContextItem α)} (stands : session.task? id = some (.call point))
    (shows : ShowsFiles files point) (run : session.replay? events = some final)
    (told : final.outcome? id = some (.ok (.shown items))) : ∀ item ∈ items, files item.path := by
  obtain ⟨reached, standsFinal, shown⟩ : ∃ point, final.task? id = some (.call point) ∧
      ShowsFiles files point := by
    refine @replay?_keeps α _ (fun current => ∃ point, current.task? id = some (.call point) ∧
      ShowsFiles files point) _ _ _ ?_ ⟨point, stands, shows⟩ run
    rintro before event next - ⟨point, stood, shows⟩ happened
    rcases after?_call stood happened with ⟨-, after, shared, step, -, there⟩ | ⟨-, stays⟩
    · exact ⟨after, there, shows.move step⟩
    · exact ⟨point, stays, shows⟩
  rw [task?_of_outcome told, Option.some.injEq, Task.call.injEq] at standsFinal
  subst standsFinal
  exact shown

private theorem shown_of_search {events : List (Event α)} {items : List (ContextItem α)}
    (stands : session.task? id = some (.call (.searching wish)))
    (happened : session.after? (.step id) = some next) (run : next.replay? events = some final)
    (told : final.outcome? id = some (.ok (.shown items))) :
    ∀ item ∈ items, ∃ hit ∈ (session.search wish.query (contextOptions wish)).1,
      hit.chunk.filePath = item.path := by
  obtain ⟨-, after, shared, step, -, there⟩ | ⟨other, -⟩ := after?_call stands happened
  · have shows : ShowsFiles (fun path => ∃ hit ∈
        (session.search wish.query (contextOptions wish)).1, hit.chunk.filePath = path) after := by
      cases step with
      | finds => exact ⟨fun group member => exists_hit_of_mem_groupByFile member, nofun⟩
      | quiet _ _ move => cases move
      | gaveUp _ _ reason => cases reason
    exact shown_of_run there shows run told
  · exact absurd rfl other

/-- A call that has failed shows nothing. -/
theorem not_shown_of_failed {events : List (Event α)} {fault : CallFault}
    {items : List (ContextItem α)} (stands : session.task? id = some (.call (.ended (.error fault))))
    (run : session.replay? events = some final)
    (told : final.outcome? id = some (.ok (.shown items))) : False := by
  have failed : session.outcome? id = some (.error fault) := by rw [outcome?, stands]
  have atEnd := replay?_keeps (fun _ _ _ _ => outcome?_keeps) failed run
  cases atEnd.symm.trans told

private theorem searches_in_run {events : List (Event α)} {point : CallPoint α}
    {items : List (ContextItem α)} (stands : session.task? id = some (.call point))
    (ahead : IsToSearch wish point) (run : session.replay? events = some final)
    (told : final.outcome? id = some (.ok (.shown items))) :
    ∃ waiting answering middle, events = waiting ++ .step id :: answering ∧
      session.replay? waiting = some middle ∧
      middle.task? id = some (.call (.searching wish)) := by
  -- the call stays where it is until a step of its own
  induction events generalizing session point with
  | nil =>
    cases run
    rw [task?_of_outcome told, Option.some.injEq, Task.call.injEq] at stands
    subst stands
    rcases ahead with same | ⟨pass, same⟩ <;> cases same
  | cons event rest ih =>
    obtain ⟨next, happened, suffix⟩ := Option.bind_eq_some_iff.mp run
    have further : ∀ {point}, next.task? id = some (.call point) → IsToSearch wish point →
        ∃ waiting answering middle, event :: rest = waiting ++ .step id :: answering ∧
          session.replay? waiting = some middle ∧
          middle.task? id = some (.call (.searching wish)) := by
      intro point there ahead
      obtain ⟨waiting, answering, middle, cut, reached, searching⟩ := ih there ahead suffix
      exact ⟨event :: waiting, answering, middle, by rw [cut]; rfl, replay?_cons happened reached,
        searching⟩
    rcases after?_call stands happened with ⟨rfl, after, shared, step, -, there⟩ | ⟨-, stays⟩
    · rcases ahead with rfl | ⟨pass, rfl⟩
      · exact ⟨[], rest, session, rfl, rfl, stands⟩
      · cases step with
        | quiet _ _ move =>
          cases move with
          | serves => exact further there (.inl rfl)
          | failedWith => exact (not_shown_of_failed there suffix told).elim
        | gaveUp _ _ reason => cases reason
    · exact further stays ahead

/-- There is no snapshot but of one project, and passes build snapshots of their own projects. -/
structure ServesOnly (root : String) (session : Session α) : Prop where
  drafts : session.OwnDrafts
  snapshot : ∀ snapshot, session.snapshot = some snapshot → snapshot.projectPath = root

/-- With its step, a pass over another project than the given one replaces the snapshot. -/
def Overtakes (root : String) (session : Session α) (event : Event α) : Prop :=
  ∃ id pass, event = .step id ∧ session.task? id = some (.pass pass) ∧ pass.point = .swapping ∧
    session.requestedRoot = some pass.root ∧ pass.root ≠ root

/-- While a project is the one that was asked for last, no other pass replaces the snapshot. -/
theorem not_overtakes_of_wanted {root : String} (wanted : session.requestedRoot = some root)
    (event : Event α) : ¬ session.Overtakes root event := by
  rintro ⟨id, pass, -, -, -, requested, other⟩
  exact other (Option.some.inj (requested.symm.trans wanted))

private theorem ServesOnly.snapshot_move {root : String} (serves : session.ServesOnly root)
    (own : ¬ session.Overtakes root (.step id)) {found : Option (Snapshot α)}
    (move : SnapshotMove session id found) (snapshot : Snapshot α)
    (current : found = some snapshot) : snapshot.projectPath = root := by
  cases move with
  | kept => exact serves.snapshot snapshot current
  | dropped => cases current
  | answers before _ _ stood => cases current; exact serves.snapshot before stood
  | refreshed target draft before _ stood =>
    cases current
    rw [projectPath_refreshed]
    exact serves.snapshot before ((session.snapshotOf_eq_some_iff _ _).mp stood).1
  | swapped pass stands point requested =>
    cases current
    rw [serves.drafts id pass stands]
    by_contra other
    exact own ⟨id, pass, rfl, stands, point, requested, other⟩

/-- No other project's snapshot comes in but by a pass over that project. -/
theorem ServesOnly.event {root : String} (serves : session.ServesOnly root)
    {event : Event α} (own : ¬ session.Overtakes root event)
    (happened : session.after? event = some next) : next.ServesOnly root := by
  have drafts := serves.drafts.event happened
  cases after?_move happened with
  | step id _ move =>
    exact ⟨drafts, fun snapshot => serves.snapshot_move own move.snapshot snapshot⟩
  | call => exact ⟨drafts, serves.snapshot⟩
  | leave => exact ⟨drafts, serves.snapshot⟩
  | files => exact ⟨drafts, serves.snapshot⟩
  | time => exact ⟨drafts, serves.snapshot⟩

/-- A request for context that is not refused leaves no snapshot but one of its own project. -/
theorem begins_context {query path : Argument String} {limit : Argument Int}
    {point : CallPoint α}
    (move : CallMove session id (.made (.context query path limit)) shared point) :
    (∃ fault, point = .ended (.error fault)) ∨
      ∃ wish, contextWish query path limit = .ok wish ∧ IsToSearch wish point ∧
        shared.snapshot = session.snapshotOf wish.root := by
  cases move with
  | quiet _ _ move =>
    cases move with
    | refused _ fault => exact .inl ⟨fault, rfl⟩
  | contextReady _ _ _ wish accepted => exact .inr ⟨wish, accepted, .inl rfl, rfl⟩
  | contextServed _ _ _ wish _ _ accepted met =>
    exact .inr ⟨wish, accepted, .inl rfl, met.snapshot⟩
  | contextWaits _ _ _ wish _ pass accepted met =>
    exact .inr ⟨wish, accepted, .inr ⟨pass, rfl⟩, met.snapshot⟩
  | gaveUp _ _ reason => cases reason

/-- What a request for context shows are files of hits that a search has found in between. If no
pass over another project replaced the snapshot while the request waited, and none does while its
project is the one that was asked for last, these are hits in a snapshot of that project. -/
theorem context_comes_from_its_project {before begun final : Session α}
    {earlier later : List (Event α)} {query path : Argument String} {limit : Argument Int}
    {items : List (ContextItem α)} (new : session.IsNew)
    (reached : session.replay? earlier = some before)
    (stands : before.task? id = some (.call (.made (.context query path limit))))
    (begins : before.after? (.step id) = some begun) (run : begun.replay? later = some final)
    (told : final.outcome? id = some (.ok (.shown items))) :
    ∃ wish, contextWish query path limit = .ok wish ∧
      (∃ waiting answering middle, later = waiting ++ .step id :: answering ∧
        begun.replay? waiting = some middle ∧
        middle.task? id = some (.call (.searching wish))) ∧
      ∀ waiting answering middle, later = waiting ++ .step id :: answering →
        begun.replay? waiting = some middle →
        middle.task? id = some (.call (.searching wish)) →
        (∀ item ∈ items, ∃ hit ∈ (middle.search wish.query (contextOptions wish)).1,
          hit.chunk.filePath = item.path) ∧
        (HoldsAlong (fun current event => ¬ current.Overtakes wish.root event) begun waiting →
          ∀ hit ∈ (middle.search wish.query (contextOptions wish)).1,
            ∃ snapshot, middle.snapshot = some snapshot ∧ snapshot.projectPath = wish.root ∧
              ∃ embedding ∈ snapshot.embeddings.values, embedding.chunk = hit.chunk) := by
  obtain ⟨-, point, shared, step, same, there⟩ | ⟨other, -⟩ := after?_call stands begins
  swap
  · exact absurd rfl other
  rcases begins_context step with ⟨fault, rfl⟩ | ⟨wish, accepted, ahead, own⟩
  · exact (not_shown_of_failed there run told).elim
  refine ⟨wish, accepted, searches_in_run there ahead run told, ?_⟩
  rintro waiting answering middle rfl reachedMiddle searching
  rw [replay?_append, reachedMiddle] at run
  obtain ⟨found, happened, suffix⟩ : ∃ found, middle.after? (.step id) = some found ∧
      found.replay? answering = some final := Option.bind_eq_some_iff.mp run
  refine ⟨shown_of_search searching happened suffix told, ?_⟩
  intro throughout hit member
  have drafts := replay?_keeps (fun _ _ _ _ drafts => drafts.event) new.ownDrafts reached
  have middleRun : session.replay? (earlier ++ [.step id] ++ waiting) = some middle := by
    rw [replay?_append, replay?_concat reached begins]
    exact reachedMiddle
  have start : begun.ServesOnly wish.root := by
    refine ⟨drafts.event begins, ?_⟩
    intro snapshot current
    rw [same, setCall, setTask, own] at current
    exact ((before.snapshotOf_eq_some_iff _ _).mp current).2
  have serves : middle.ServesOnly wish.root :=
    replay?_keeps_along (fun _ _ _ own serves happened => serves.event own happened) start
      throughout reachedMiddle
  have sound : middle.CacheSound fun _ _ => True :=
    new.cacheSound_of_run (fun _ => trivial) (fun _ _ _ _ _ _ _ => trivial) middleRun
  obtain ⟨snapshot, current, embedding, known, chunk⟩ := sound.exists_embedding_of_mem_search member
  exact ⟨snapshot, current, serves.snapshot snapshot current, embedding, known, chunk⟩

/-! ## Requests whose files are all there -/

private theorem after?_setCall (present : id < session.tasks.length) (point : CallPoint α) :
    (session.setCall id point).after? (.step id) = (session.setCall id point).stepCall id point := by
  change (session.setCall id point).step? id = _
  rw [step?, setCall, task?_setTask _ _ _ _ present, if_pos rfl]

private theorem setCall_setCall (first second : CallPoint α) :
    (session.setCall id first).setCall id second = session.setCall id second := by
  simp [setCall, setTask]

theorem outcome?_setCall (present : id < session.tasks.length) (outcome : Outcome α) :
    (session.setCall id (.ended outcome)).outcome? id = some outcome := by
  rw [outcome?, setCall, task?_setTask _ _ _ _ present, if_pos rfl]

theorem after?_of_searching (stands : session.task? id = some (.call (.searching wish))) :
    session.after? (.step id) =
      some ((session.search wish.query (contextOptions wish)).2.setCall id (.reading wish
        (groupByFile (session.search wish.query (contextOptions wish)).1 wish.limit) [])) := by
  change session.step? id = _
  rw [step?, stands]
  rfl

/-- Files that are there are shown one after another. The induction is on what is left to read. -/
theorem replay?_of_reading {groups : List (FileHits α)} {items : List (ContextItem α)}
    (present : id < session.tasks.length) (content : FileHits α → String) (there :
      ∀ group ∈ groups,
        session.files.read (Path.join wish.root group.filePath) = .ok (content group)) :
    (session.setCall id (.reading wish groups items)).replay?
        (List.replicate (2 * groups.length + 1) (.step id)) =
      some (session.setCall id (.ended (.ok (.shown (items ++ groups.map fun group =>
        contextItem session.settings (content group) group))))) := by
  induction groups generalizing items with
  | nil =>
    refine replay?_cons ?_ (by rw [List.map_nil, List.append_nil]; rfl)
    rw [after?_setCall present, stepCall, readContext, endCall, setCall_setCall]
  | cons group rest ih =>
    obtain ⟨told, later⟩ := List.forall_mem_cons.mp there
    have reads : (session.setCall id (.reading wish (group :: rest) items)).after? (.step id) =
        some (session.setCall id (.carrying wish (.ok (content group)) group rest items)) := by
      rw [after?_setCall present, stepCall, readContext, setCall_setCall, ← told]
      rfl
    have takes : (session.setCall id
        (.carrying wish (.ok (content group)) group rest items)).after? (.step id) =
          some (session.setCall id (.reading wish rest
            (items ++ [contextItem session.settings (content group) group]))) := by
      rw [after?_setCall present, stepCall, takeContext, setCall_setCall]
      rfl
    have goesOn := replay?_cons reads (replay?_cons takes (ih later))
    rw [List.append_assoc, List.singleton_append] at goesOn
    exact goesOn

/-! ## Runs over exact numbers

The runs that are looked at here count in fractions. -/

instance : Scalar ℚ where
  natCast := Nat.cast
  sqrt := Rat.sqrt
  text := toString
  decidableLT := inferInstance
  decidableLE := inferInstance

/-- Embeds whole files, all of them alike, and refuses their parts. -/
def wholeFiles : Embedder ℚ where
  embedText _ := [1]
  embedChunk chunk := if chunk.kind = .file then .ok [1] else .error "part of a file"

/-- The options of the requests below. -/
def runOptions : SearchOptions α :=
  { limit := some 10, boostTypes := some ["class", "function", "interface"] }

omit [Scalar α] in
private theorem contextOptions_run (root : String) (limit : ℤ) :
    contextOptions ⟨"run", root, limit⟩ =
      ({ runOptions with limit := some (limit * 2) } : SearchOptions α) := by
  have boosts : contextBoosts "run" = ["function", "class", "interface"] := by decide +kernel
  have sorted : sortedSet ["function", "class", "interface"] =
      ["class", "function", "interface"] := by
    have once : ["function", "class", "interface"].eraseDups =
        ["function", "class", "interface"] := by decide +kernel
    have first : textLE "function" "class" = false := by decide +kernel
    have second : textLE "class" "interface" = true := by decide +kernel
    have third : textLE "function" "interface" = true := by decide +kernel
    rw [sortedSet, once]
    simp [List.mergeSort, List.MergeSort.Internal.splitInTwo, first, second, third]
  rw [contextOptions, boosts, SearchOptions.normalized, runOptions, Option.map_some, sorted]
  rfl

/-- A snapshot that has answered nothing so far is ranked. -/
theorem search_run {snapshot : Snapshot α} (current : session.snapshot = some snapshot)
    (empty : snapshot.cache.entries.entries.isEmpty = true) (root : String) (limit : ℤ) :
    (session.search "run" (contextOptions ⟨"run", root, limit⟩)).1 =
      rank session.settings session.embedder "run" { runOptions with limit := some (limit * 2) }
        snapshot.embeddings.values := by
  have unknown (key : String) : snapshot.cache.entries.get? key = none := by
    rw [OrderedMap.get?, List.isEmpty_iff.mp empty]
    rfl
  rw [contextOptions_run, search, current]
  simp only [runOptions, if_true, QueryCache.get, unknown]

/-- Whether a request is about to find one file, in a snapshot that has answered nothing so far. -/
def findsOne (session : Session α) (id : TaskId) (root file : String) : Bool :=
  match session.task? id, session.snapshot, session.files.read (Path.join root file) with
  | some (.call (.searching wish)), some snapshot, .ok _ =>
    wish.query == "run" && wish.root == root && wish.limit == 5 &&
      snapshot.cache.entries.entries.isEmpty &&
      (rank session.settings session.embedder "run" runOptions snapshot.embeddings.values).map
        (·.chunk.filePath) == [file]
  | _, _, _ => false

theorem of_findsOne {root file : String}
    (finds : session.findsOne id root file = true) :
    session.task? id = some (.call (.searching ⟨"run", root, 5⟩)) ∧
      ∃ final items, session.replay? (List.replicate 4 (.step id)) = some final ∧
        final.outcome? id = some (.ok (.shown items)) ∧ items.map ContextItem.path = [file] := by
  unfold findsOne at finds
  split at finds
  · next wish snapshot content stands current told =>
    simp only [Bool.and_eq_true, beq_iff_eq] at finds
    obtain ⟨⟨⟨⟨query, named⟩, limit⟩, empty⟩, hits⟩ := finds
    obtain rfl : wish = ⟨"run", root, 5⟩ := by
      cases wish
      simp_all
    obtain ⟨hit, one, path⟩ := List.map_eq_singleton_iff.mp hits
    have found : (session.search "run" (contextOptions ⟨"run", root, 5⟩)).1 = [hit] :=
      (search_run current empty root 5).trans one
    have positive : (0 : Int) < 5 := by decide
    have searches := after?_of_searching stands
    have world := session.search_world "run" (contextOptions ⟨"run", root, 5⟩)
    have tasks := session.search_tasks "run" (contextOptions ⟨"run", root, 5⟩)
    rw [found, groupByFile_singleton hit positive, path] at searches
    generalize (session.search "run" (contextOptions ⟨"run", root, 5⟩)).2 = shared at *
    have present : id < shared.tasks.length := tasks ▸ lt_of_task? stands
    let group : FileHits α := ⟨file, hit.score, [hit]⟩
    have there : ∀ other ∈ [group],
        shared.files.read (Path.join root other.filePath) = .ok content := by
      rw [world.files]
      simpa [group] using told
    exact ⟨stands, _, [contextItem shared.settings content group],
      replay?_cons searches (replay?_of_reading present (fun _ => content) there),
      outcome?_setCall present _, rfl⟩
  · cases finds

/-- A new session that embeds whole files. -/
def wholeFileSession (files : FileSystem) : Session ℚ :=
  { opened {} files 0 with embedder := wholeFiles }

/-- The project is indexed for the request that waits, and the request goes on. -/
def indexesForContext : List (Event ℚ) :=
  List.replicate 4 (.step 1) ++ List.replicate 3 (.step 2) ++ List.replicate 10 (.step 1) ++
    [.step 0]

/-- A request for the context of a project that is not indexed yet shows its file. -/
theorem context_of_small_project_is_its_own :
    ∃ (before begun middle final : Session ℚ) (items : List (ContextItem ℚ)),
      (wholeFileSession smallProject).replay?
        [.call (.context (.given "run") (.given "/p") (.given 5))] = some before ∧
      before.after? (.step 0) = some begun ∧ begun.replay? indexesForContext = some middle ∧
      middle.replay? (List.replicate 4 (.step 0)) = some final ∧
      final.outcome? 0 = some (.ok (.shown items)) ∧ items.map ContextItem.path = ["a.py"] ∧
      (∀ item ∈ items, ∃ hit ∈ (middle.search "run" (contextOptions ⟨"run", "/p", 5⟩)).1,
        hit.chunk.filePath = item.path) ∧
      ∀ hit ∈ (middle.search "run" (contextOptions ⟨"run", "/p", 5⟩)).1,
        ∃ snapshot, middle.snapshot = some snapshot ∧ snapshot.projectPath = "/p" ∧
          ∃ embedding ∈ snapshot.embeddings.values, embedding.chunk = hit.chunk := by
  have reached : (((wholeFileSession smallProject).replay?
      [.call (.context (.given "run") (.given "/p") (.given 5))]).bind fun before =>
        (before.after? (.step 0)).bind fun begun =>
          if HoldsAlong (fun current _ => current.requestedRoot = some "/p") begun
              indexesForContext then
            (begun.replay? indexesForContext).filter fun middle => middle.findsOne 0 "/p" "a.py"
          else none).isSome = true := by decide +kernel
  obtain ⟨middle, reached⟩ := Option.isSome_iff_exists.mp reached
  obtain ⟨before, called, reached⟩ := Option.bind_eq_some_iff.mp reached
  obtain ⟨begun, begins, reached⟩ := Option.bind_eq_some_iff.mp reached
  obtain ⟨wanted, reached⟩ := Option.ite_none_right_eq_some.mp reached
  obtain ⟨waits, finds⟩ := Option.filter_eq_some_iff.mp reached
  obtain ⟨searching, final, items, answers, told, paths⟩ := of_findsOne finds
  have stands : before.task? 0 =
      some (.call (.made (.context (.given "run") (.given "/p") (.given 5)))) := by
    cases called
    rfl
  have run : begun.replay? (indexesForContext ++ .step 0 :: List.replicate 3 (.step 0)) =
      some final := by
    rw [replay?_append, waits]
    exact answers
  obtain ⟨wish, accepted, -, cuts⟩ := context_comes_from_its_project
    ⟨rfl, rfl, rfl, rfl, rfl, rfl⟩ called stands begins run told
  have known : contextWish (.given "run") (.given "/p") (.given 5) = .ok ⟨"run", "/p", 5⟩ := by
    have path : Argument.projectPath (.given "/p") = .ok "/p" := by decide +kernel
    have limit : Argument.limit (.given 5) = .ok 5 := by decide
    rw [contextWish, path, limit]
    rfl
  obtain rfl : wish = ⟨"run", "/p", 5⟩ := Except.ok.inj (accepted.symm.trans known)
  obtain ⟨shown, own⟩ := cuts _ _ _ rfl waits searching
  refine ⟨before, begun, middle, final, items, called, begins, waits, answers, told, paths, shown,
    own (wanted.mono fun current event wanted => not_overtakes_of_wanted wanted event)⟩

/-- Two projects with a file of one name; that of the first is too large to be indexed. -/
def twoProjects : FileSystem :=
  (((Volume.write {} "/a/x.py" ⟨.ok "def run():\n    return\n", some 600000⟩).write "/b/x.py"
    (.ofText "def run():\n    pass\n"))).fileSystem

/-- Context of the first project is asked for, then the index of the second. The second pass swaps
its snapshot in, the first is discarded, and the request goes on. -/
def contextOvertaken : List (Event ℚ) :=
  [.call (.context (.given "run") (.given "/a") (.given 5)), .step 0,
    .call (.index (.given "/b") false), .step 2] ++ List.replicate 4 (.step 3) ++
    List.replicate 3 (.step 4) ++ List.replicate 10 (.step 3) ++ List.replicate 4 (.step 1) ++
    [.step 5] ++ List.replicate 7 (.step 1) ++ [.step 0]

/-- The request that was overtaken shows a file that was no hit in a snapshot of its project: up to
its search there never was one. -/
theorem overtaken_context_shows_another_project :
    ∃ (middle final : Session ℚ) (items : List (ContextItem ℚ)),
      (wholeFileSession twoProjects).replay? contextOvertaken = some middle ∧
      HoldsAlong (fun current _ => ∀ snapshot ∈ current.snapshot, snapshot.projectPath ≠ "/a")
        (wholeFileSession twoProjects) (contextOvertaken ++ [.step 0]) ∧
      middle.task? 0 = some (.call (.searching ⟨"run", "/a", 5⟩)) ∧
      middle.replay? (List.replicate 4 (.step 0)) = some final ∧
      final.outcome? 0 = some (.ok (.shown items)) ∧ items.map ContextItem.path = ["x.py"] := by
  have reached : (((wholeFileSession twoProjects).replay? contextOvertaken).filter fun middle =>
      middle.findsOne 0 "/a" "x.py").isSome = true := by decide +kernel
  have never : HoldsAlong
      (fun (current : Session ℚ) _ => ∀ snapshot ∈ current.snapshot, snapshot.projectPath ≠ "/a")
      (wholeFileSession twoProjects) (contextOvertaken ++ [.step 0]) := by decide +kernel
  obtain ⟨middle, reached⟩ := Option.isSome_iff_exists.mp reached
  obtain ⟨run, finds⟩ := Option.filter_eq_some_iff.mp reached
  obtain ⟨searching, final, items, answers, told, paths⟩ := of_findsOne finds
  exact ⟨middle, final, items, run, never, searching, answers, told, paths⟩

end Session

end CodeSearch
