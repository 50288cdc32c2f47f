import CodeSearch.Files.Volume
import CodeSearch.Proofs.Session.Run

/-! # Cached answers are current

Whatever runs at the same time, an answer in the cache of the current snapshot is the ranking over
the embeddings of that snapshot. Updates empty the cache in the step that changes the embeddings,
and the drafts of passes, which become snapshots, have never answered a search.
-/

namespace CodeSearch

namespace QueryCache

variable {τ ρ : Type} [LT τ] [DecidableLT τ] [LE τ] [DecidableLE τ]

omit [LT τ] [DecidableLT τ] in
/-- Looking an answer up may drop an entry and stores none. -/
theorem get?_get [Sub τ] (cache : QueryCache τ ρ) (now : τ) (key other : String)
    (entry : CacheEntry τ ρ) (stored : (cache.get now key).2.entries.get? other = some entry) :
    cache.entries.get? other = some entry := by
  unfold get at stored
  split at stored
  · exact stored
  · split at stored
    · rw [OrderedMap.get?_erase] at stored
      split at stored
      · cases stored
      · exact stored
    · exact stored

/-- What is stored behind an answer is that answer or was stored before. -/
theorem get?_put (cache : QueryCache τ ρ) (now : τ) (key other : String) (answer : ρ)
    (entry : CacheEntry τ ρ) (stored : (cache.put now key answer).entries.get? other = some entry) :
    other = key ∧ entry = ⟨answer, now⟩ ∨ cache.entries.get? other = some entry := by
  simp only [put, trim, OrderedMap.get?_filter, Option.filter_eq_some_iff] at stored
  have found := stored.1
  rw [OrderedMap.get?_insert] at found
  split at found
  · next same => exact .inl ⟨same.symm, (Option.some.inj found).symm⟩
  · rw [OrderedMap.get?_erase] at found
    split at found
    · cases found
    · exact .inr found

omit [LT τ] [DecidableLT τ] in
/-- What is looked up was stored. -/
theorem get?_of_get [Sub τ] {cache after : QueryCache τ ρ} {now : τ} {key : String} {answer : ρ}
    (found : cache.get now key = (some answer, after)) :
    ∃ entry, cache.entries.get? key = some entry ∧ entry.answer = answer := by
  unfold get at found
  split at found
  · cases found
  · next entry stored =>
    split at found
    · cases found
    · exact ⟨entry, stored, Option.some.inj (congrArg Prod.fst found)⟩

end QueryCache

variable {α : Type} [Scalar α]

/-- Every cached answer is the ranking over the present embeddings for an accepted search that has
the answer's key. -/
def Snapshot.CacheAgrees (accepted : String → SearchOptions α → Prop) (settings : Settings α)
    (embedder : Embedder α) (snapshot : Snapshot α) : Prop :=
  ∀ key entry, snapshot.cache.entries.get? key = some entry →
    ∃ query options, accepted query options ∧ options.cacheKey query = key ∧
      entry.answer = rank settings embedder query options snapshot.embeddings.values

/-- Nothing is wrong with a cache that is empty. -/
theorem Snapshot.CacheAgrees.of_empty {accepted : String → SearchOptions α → Prop}
    {settings : Settings α} {embedder : Embedder α} {snapshot : Snapshot α}
    (empty : snapshot.cache.entries = ∅) : snapshot.CacheAgrees accepted settings embedder := by
  intro key entry stored
  rw [empty] at stored
  cases stored

/-- Remembering the answer to an accepted search keeps a cache right. -/
theorem Snapshot.CacheAgrees.answer {accepted : String → SearchOptions α → Prop}
    {settings : Settings α} {embedder : Embedder α} {snapshot : Snapshot α}
    (agrees : snapshot.CacheAgrees accepted settings embedder) (now : α) (query : String)
    (options : SearchOptions α) (permitted : accepted query options) :
    Snapshot.CacheAgrees accepted settings embedder
      { snapshot with
        cache := (snapshot.cache.get now (options.cacheKey query)).2.put now
          (options.cacheKey query)
          (rank settings embedder query options snapshot.embeddings.values) } := by
  intro key entry stored
  rcases QueryCache.get?_put _ _ _ _ _ _ stored with ⟨rfl, rfl⟩ | before
  · exact ⟨query, options, permitted, rfl, rfl⟩
  · exact agrees key entry (snapshot.cache.get?_get now _ key entry before)

namespace Session

/-- The cache of the snapshot is right, those of the drafts are empty, and the searches that are
about to be made are accepted. -/
structure CacheSound (accepted : String → SearchOptions α → Prop) (session : Session α) :
    Prop where
  snapshot : ∀ snapshot, session.snapshot = some snapshot →
    snapshot.CacheAgrees accepted session.settings session.embedder
  drafts : ∀ id pass, session.task? id = some (.pass pass) → pass.draft.cache.entries = ∅
  requests : ∀ id argument input query options,
    session.task? id = some (.call (.made (.search argument input))) →
    argument.query = .ok query → input.check = .ok options → accepted query options

theorem IsNew.cacheSound {session : Session α} (new : session.IsNew)
    (accepted : String → SearchOptions α → Prop) : session.CacheSound accepted where
  snapshot snapshot current := by rw [new.snapshot] at current; cases current
  drafts id pass stands := by rw [new.task?] at stands; cases stands
  requests id _ _ _ _ stands := by rw [new.task?] at stands; cases stands

variable {accepted : String → SearchOptions α → Prop} {session next : Session α} {id : TaskId}

private theorem draft_cache_kept {pass after : Pass α} {shared : Session α}
    (empty : pass.draft.cache.entries = ∅) (move : PassMove session id pass shared after) :
    after.draft.cache.entries = ∅ := by
  cases move with
  | quiet _ move => cases move <;> exact empty
  | fails => exact empty
  | loads => exact empty
  | queued => exact empty
  | swaps => exact empty
  | discards => exact empty

private theorem snapshot_cache_kept (sound : session.CacheSound accepted)
    (asked : ∀ query options, Asks session id query options → accepted query options)
    {found : Option (Snapshot α)} (move : SnapshotMove session id found) (snapshot : Snapshot α)
    (current : found = some snapshot) :
    snapshot.CacheAgrees accepted session.settings session.embedder := by
  -- the cases are the five ways in which a snapshot changes
  cases move with
  | kept => exact sound.snapshot snapshot current
  | dropped => cases current
  | answers before query options stood asks =>
    cases current
    exact (sound.snapshot before stood).answer session.now query options
      (asked query options asks)
  | refreshed =>
    cases current
    exact .of_empty rfl
  | swapped pass stands =>
    cases current
    exact .of_empty (sound.drafts id pass stands)

theorem CacheSound.move (sound : session.CacheSound accepted)
    (context : ∀ wish, accepted wish.query (contextOptions wish)) (move : Move session id next) :
    next.CacheSound accepted where
  snapshot snapshot current := by
    have asked : ∀ query options, Asks session id query options → accepted query options := by
      intro query options asks
      cases asks with
      | search argument input _ _ stands text checked =>
        exact sound.requests id argument input query options stands text checked
      | context wish => exact context wish
    rw [move.world.settings, move.world.embedder]
    exact snapshot_cache_kept sound asked move.snapshot snapshot current
  drafts := by
    refine move.passes (fun _ => rfl) ?_ ?_ sound.drafts
    · intro pass message empty
      exact empty
    · intro pass shared after empty move
      exact draft_cache_kept empty move
  requests other argument input query options stands :=
    sound.requests other argument input query options (move.request_made stands)

/-- No event makes a cache wrong, if the searches that are called for are accepted. -/
theorem CacheSound.event (sound : session.CacheSound accepted)
    (context : ∀ wish, accepted wish.query (contextOptions wish)) {event : Event α}
    (called : ∀ argument input query options, event = .call (.search argument input) →
      argument.query = .ok query → input.check = .ok options → accepted query options)
    (happened : session.after? event = some next) : next.CacheSound accepted := by
  cases after?_move happened with
  | call request =>
    refine ⟨sound.snapshot, ?_, ?_⟩
    · exact fun other pass stands => sound.drafts other pass (pass_of_call stands)
    · intro other argument input query options stands
      rw [task?_call] at stands
      split at stands
      · cases stands
        exact called argument input query options rfl
      · exact sound.requests other argument input query options stands
  | step id _ move => exact sound.move context move
  | leave => exact ⟨sound.snapshot, sound.drafts, sound.requests⟩
  | files => exact ⟨sound.snapshot, sound.drafts, sound.requests⟩
  | time => exact ⟨sound.snapshot, sound.drafts, sound.requests⟩

/-- Throughout a run the caches are right. -/
theorem IsNew.cacheSound_of_run {final : Session α} {events : List (Event α)}
    (new : session.IsNew) (context : ∀ wish, accepted wish.query (contextOptions wish))
    (called : ∀ argument input query options, .call (.search argument input) ∈ events →
      argument.query = .ok query → input.check = .ok options → accepted query options)
    (run : session.replay? events = some final) : final.CacheSound accepted := by
  refine replay?_keeps ?_ (new.cacheSound accepted) run
  intro before event after member sound happened
  refine sound.event context ?_ happened
  rintro argument input query options rfl
  exact called argument input query options member

/-- Accepted options are in normal form. -/
theorem check_normalized {input : OptionsArgument α} {options : SearchOptions α}
    (checked : input.check = .ok options) : ∃ given, options = SearchOptions.normalized given := by
  cases input with
  | absent => cases checked; exact ⟨{}, rfl⟩
  | other kind => cases checked
  | given limit minScore fileTypes boostTypes useCache =>
    simp only [OptionsArgument.check, bind, Except.bind] at checked
    split at checked
    · cases checked
    · split at checked
      · cases checked
      · cases checked
        exact ⟨_, rfl⟩

/-- In every state of every run, an answer in the current cache is the ranking over the embeddings
as they are then, for some query and options whose key is that of the answer. -/
theorem cached_answers_are_current {session final : Session α} {events : List (Event α)}
    (new : session.IsNew) (run : session.replay? events = some final) {snapshot : Snapshot α}
    (current : final.snapshot = some snapshot) {key : String}
    {entry : CacheEntry α (List (Hit α))}
    (stored : snapshot.cache.entries.get? key = some entry) :
    ∃ (query : String) (given : SearchOptions α), given.normalized.cacheKey query = key ∧
      entry.answer =
        rank final.settings final.embedder query given.normalized snapshot.embeddings.values := by
  have sound : final.CacheSound fun _ options => ∃ given, options = SearchOptions.normalized given :=
    new.cacheSound_of_run (fun _ => ⟨_, rfl⟩) (fun _ _ _ _ _ _ checked => check_normalized checked)
      run
  obtain ⟨query, _, ⟨given, rfl⟩, same, answer⟩ := sound.snapshot snapshot current key entry stored
  exact ⟨query, given, same, answer⟩

/-- A volume of one file. -/
def smallVolume : Volume := Volume.write {} "/p/a.py" (.ofText "def run():\n    pass\n")

/-- A project of one file. -/
def smallProject : FileSystem := smallVolume.fileSystem

/-- A second file beside the first. -/
def secondFile (text : String) : Volume := smallVolume.write "/p/b.py" (.ofText text)

/-- The project is indexed, then searched. -/
def indexAndSearch : List (Event Float) :=
  .call (.index (.given "/p") false) :: .step 0 :: List.replicate 4 (.step 1) ++
    List.replicate 3 (.step 2) ++ List.replicate 10 (.step 1) ++
    [.call (.search (.given "run") .absent), .step 3]

/-- The file is rewritten. An update of it has begun, and a pass waits behind the update, when the
old content is searched once more. -/
def searchBehindRewrite : List (Event Float) :=
  indexAndSearch ++ [.leave 1,
      .files (Volume.write {} "/p/a.py" (.ofText "def walk():\n    pass\n")).fileSystem,
      .call (.update (.given "/p") (.given "a.py"))] ++
    List.replicate 3 (.step 4) ++ [.call (.index (.given "/p") true), .step 5] ++
    List.replicate 4 (.step 6) ++ List.replicate 3 (.step 7) ++ List.replicate 8 (.step 6) ++
    [.call (.search (.given "pass") .absent), .step 8]

/-- The update ends, and the new content is searched before the pass shows it. -/
def searchBehindUpdate : List (Event Float) :=
  List.replicate 9 (.step 4) ++ [.call (.search (.given "walk") .absent), .step 9, .step 6]

theorem answers_are_current_around_update :
    ∃ (before final : Session Float) (shown after : Snapshot Float)
      (entry entry' : CacheEntry Float (List (Hit Float))),
      (opened {} smallProject 0).replay? searchBehindRewrite = some before ∧
      before.snapshot = some shown ∧ shown.chunks.keys = ["a.py_file", "a.py_run_1"] ∧
      shown.cache.entries.keys = ["run|None|None||", "pass|None|None||"] ∧
      shown.cache.entries.get? "run|None|None||" = some entry ∧
      (∃ query given, SearchOptions.cacheKey (SearchOptions.normalized given) query =
          "run|None|None||" ∧
        entry.answer =
          rank before.settings before.embedder query given.normalized shown.embeddings.values) ∧
      before.replay? searchBehindUpdate = some final ∧
      final.snapshot = some after ∧ after.chunks.keys = ["a.py_file", "a.py_walk_1"] ∧
      after.cache.entries.keys = ["walk|None|None||"] ∧
      after.cache.entries.get? "walk|None|None||" = some entry' ∧
      ∃ query given, SearchOptions.cacheKey (SearchOptions.normalized given) query =
          "walk|None|None||" ∧
        entry'.answer =
          rank final.settings final.embedder query given.normalized after.embeddings.values := by
  have new := opened_isNew {} smallProject (0 : Float)
  have answered : (((opened {} smallProject (0 : Float)).replay? searchBehindRewrite).bind
      fun before => before.snapshot.bind fun shown =>
        (shown.cache.entries.get? "run|None|None||").bind fun _ =>
          (before.replay? searchBehindUpdate).bind fun final => final.snapshot.bind fun after =>
            if (shown.chunks.keys = ["a.py_file", "a.py_run_1"] ∧
                shown.cache.entries.keys = ["run|None|None||", "pass|None|None||"]) ∧
              after.chunks.keys = ["a.py_file", "a.py_walk_1"] ∧
                after.cache.entries.keys = ["walk|None|None||"]
            then after.cache.entries.get? "walk|None|None||" else none).isSome = true := by
    decide +kernel
  obtain ⟨entry', answered⟩ := Option.isSome_iff_exists.mp answered
  obtain ⟨before, run, answered⟩ := Option.bind_eq_some_iff.mp answered
  obtain ⟨shown, current, answered⟩ := Option.bind_eq_some_iff.mp answered
  obtain ⟨entry, stored, answered⟩ := Option.bind_eq_some_iff.mp answered
  obtain ⟨final, goesOn, answered⟩ := Option.bind_eq_some_iff.mp answered
  obtain ⟨after, current', answered⟩ := Option.bind_eq_some_iff.mp answered
  obtain ⟨⟨⟨chunks, keys⟩, chunks', keys'⟩, stored'⟩ := Option.ite_none_right_eq_some.mp answered
  exact ⟨before, final, shown, after, entry, entry', run, current, chunks, keys, stored,
    cached_answers_are_current new run current stored, goesOn, current', chunks', keys', stored',
    cached_answers_are_current new (replay?_trans run goesOn) current' stored'⟩

end Session

end CodeSearch
