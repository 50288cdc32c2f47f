import CodeSearch.Proofs.Index.EmbeddedFiles
import CodeSearch.Proofs.Search.DefinedScores
import CodeSearch.Proofs.Search.Grouping
import CodeSearch.Proofs.Search.Windows
import CodeSearch.Proofs.Session.FileFaults
import CodeSearch.Proofs.Session.LoneCalls
import CodeSearch.Proofs.Session.SingleFlight

/-! # What a request for context shows

A request for context that is made alone searches once and then reads the files of the best groups,
one after another. What it shows is a part of these groups in their order, each with text that was
cut from its file as the file was read then, whatever the lines were when the file was indexed.
Nothing else runs behind the search, so the snapshot that was searched is there when the call ends.
-/

namespace CodeSearch

variable {α : Type} [Scalar α]

/-! ## Stored embeddings -/

namespace Snapshot

variable {snapshot : Snapshot α} {embedder : Embedder α} {settings : Settings α}
  {moments : FileSystem → Prop}

/-- Whatever was read and refused, a whole snapshot knows the files of its embeddings. -/
theorem IsWhole.embedsFiles (whole : snapshot.IsWhole settings embedder moments) :
    snapshot.EmbedsFiles embedder := by
  induction whole with
  | built root found draft _ _ built => exact built.embedsFiles
  | refreshed snapshot target draft _ _ _ rests ih =>
    have removed := ih.removeFile target.relative
    cases rests with
    | passedBy => exact removed
    | notLoaded => exact removed
    | loaded draft _ looked embeddings =>
      have added := removed.addFile looked
      rw [← embeddings] at added
      exact added
  | cached snapshot cache _ ih => exact ih

end Snapshot

/-! ## Items of groups -/

section Items

variable {settings : Settings α} {moments : FileSystem → Prop} {root : String}
  {groups : List (FileHits α)} {items : List (ContextItem α)} {item : ContextItem α}

theorem ShowsGroups.length_le (shows : ShowsGroups settings moments root groups items) :
    items.length ≤ groups.length := by
  induction shows with
  | none => exact le_refl 0
  | shows _ _ _ _ _ _ _ _ ih => simpa using ih
  | skips _ _ _ _ _ _ _ _ ih =>
    rw [List.length_append]
    exact ih.trans (Nat.le_add_right _ _)

/-- What every item has from its group, items have in the order of the groups. -/
theorem ShowsGroups.map_sublist {γ : Type} {ofItem : ContextItem α → γ} {ofGroup : FileHits α → γ}
    (same : ∀ content group, ofItem (Session.contextItem settings content group) = ofGroup group)
    (shows : ShowsGroups settings moments root groups items) :
    (items.map ofItem).Sublist (groups.map ofGroup) := by
  induction shows with
  | none => exact .slnil
  | shows _ _ group _ content _ _ _ ih =>
    rw [List.map_append, List.map_append, List.map_singleton, List.map_singleton, same]
    exact ih.append (.refl _)
  | skips _ _ _ _ _ _ _ _ ih =>
    rw [List.map_append]
    exact ih.trans (List.sublist_append_left _ _)

/-- An item shows the file of a group as it was read. -/
theorem ShowsGroups.exists_group (shows : ShowsGroups settings moments root groups items)
    (listed : item ∈ items) : ∃ group ∈ groups, ∃ files content, moments files ∧
      files.read (Path.join root group.filePath) = .ok content ∧
      item = Session.contextItem settings content group := by
  induction shows with
  | none => cases listed
  | shows _ _ group files content _ moment told ih =>
    rcases List.mem_append.mp listed with earlier | last
    · obtain ⟨other, inGroups, known⟩ := ih earlier
      exact ⟨other, List.mem_append_left _ inGroups, known⟩
    · exact ⟨group, List.mem_append_right _ List.mem_cons_self, files, content, moment, told,
        List.mem_singleton.mp last⟩
  | skips _ _ _ _ _ _ _ _ ih =>
    obtain ⟨other, inGroups, known⟩ := ih listed
    exact ⟨other, List.mem_append_left _ inGroups, known⟩

end Items

/-! ## Items of the best groups -/

/-- The hits of a file with the score that is told of it: one of them has it, and none has a greater
one. -/
structure IsBestScore (hits : List (Hit α)) (path : String) (score : α) : Prop where
  attained : ∃ hit ∈ hits, hit.chunk.filePath = path ∧ hit.score = score
  greatest : ∀ hit ∈ hits, hit.chunk.filePath = path → ¬ score < hit.score

section Best

variable {settings : Settings α} {moments : FileSystem → Prop} {root : String}
  {hits : List (Hit α)} {limit : ℤ} {items : List (ContextItem α)} {item : ContextItem α}

theorem length_groupByFile_le (hits : List (Hit α)) (nonneg : 0 ≤ limit) :
    ((groupByFile hits limit).length : ℤ) ≤ limit := by
  obtain ⟨count, rfl⟩ := Int.eq_ofNat_of_zero_le nonneg
  rw [groupByFile, Text.upTo_natCast]
  exact Int.ofNat_le.mpr (List.length_take_le _ _)

theorem groupByFile_sublist (hits : List (Hit α)) (limit : ℤ) :
    (groupByFile hits limit).Sublist (byFalling FileHits.maxScore (Context.groups hits)) :=
  List.take_sublist _ _

variable [OrderedScalar α]

theorem isGrouping_byFalling (hits : List (Hit α)) :
    Context.IsGrouping hits (byFalling FileHits.maxScore (Context.groups hits)) :=
  (Context.isGrouping_groups hits).perm (byFalling_perm _ _)

theorem ShowsGroups.paths_nodup
    (shows : ShowsGroups settings moments root (groupByFile hits limit) items) :
    (items.map ContextItem.path).Nodup :=
  (isGrouping_byFalling hits).once.sublist
    ((shows.map_sublist fun _ _ => rfl).trans ((groupByFile_sublist hits limit).map _))

theorem ShowsGroups.falls (shows : ShowsGroups settings moments root (groupByFile hits limit) items)
    (defined : KeysDefined Hit.score hits) :
    items.Pairwise fun first second => second.score ≤ first.score := by
  have order := pairwise_byFalling (Context.scores_of_groups defined) (Context.groups_inOrder hits)
  have maxima : ((byFalling FileHits.maxScore (Context.groups hits)).map
      FileHits.maxScore).Pairwise fun first second => second ≤ first :=
    List.pairwise_map.mpr (order.imp fun known => known.1)
  exact List.pairwise_map.mp (maxima.sublist
    ((shows.map_sublist fun _ _ => rfl).trans ((groupByFile_sublist hits limit).map _)))

theorem ShowsGroups.isBestScore
    (shows : ShowsGroups settings moments root (groupByFile hits limit) items)
    (listed : item ∈ items) : IsBestScore hits item.path item.score := by
  obtain ⟨group, inGroups, -, content, -, -, rfl⟩ := shows.exists_group listed
  have grouping := isGrouping_byFalling hits
  have known := (groupByFile_sublist hits limit).subset inGroups
  have own := grouping.own group known
  constructor
  · obtain ⟨hit, inGroup, best⟩ := grouping.attained group known
    rw [own, List.mem_filter, beq_iff_eq] at inGroup
    exact ⟨hit, inGroup.1, inGroup.2, best⟩
  · intro hit inHits path
    apply grouping.greatest group known hit
    rw [own, List.mem_filter, beq_iff_eq]
    exact ⟨inHits, path⟩

end Best

namespace Session

variable {before session shared next final : Session α} {id mover : TaskId} {request : Request α}
  {wish : ContextWish}

/-! ## Behind the search -/

/-- Where a request for context stands behind its search: of the groups that were found, those that
have been read are shown in part, and the rest is to be read. -/
def IsAnswering (settings : Settings α) (moments : FileSystem → Prop) (wish : ContextWish)
    (groups : List (FileHits α)) : CallPoint α → Prop
  | .reading own rest items => own = wish ∧
    ∃ done, groups = done ++ rest ∧ ShowsGroups settings moments wish.root done items
  | .carrying own content group rest items => own = wish ∧
    (∃ files, moments files ∧ files.read (Path.join wish.root group.filePath) = content) ∧
    ∃ done, groups = done ++ group :: rest ∧ ShowsGroups settings moments wish.root done items
  | .ended (.ok (.shown items)) => ShowsGroups settings moments wish.root groups items
  | .ended _ => True
  | _ => False

theorem IsAnswering.move {moments : FileSystem → Prop} {groups : List (FileHits α)}
    {point after : CallPoint α}
    (answering : IsAnswering session.settings moments wish groups point)
    (moment : moments session.files) (move : CallMove session id point shared after) :
    IsAnswering session.settings moments wish groups after := by
  cases move with
  | quiet _ _ move =>
    cases move with
    | shown =>
      obtain ⟨rfl, done, all, shows⟩ := answering
      rw [List.append_nil] at all
      exact all ▸ shows
    | reads =>
      obtain ⟨rfl, done, all, shows⟩ := answering
      exact ⟨rfl, ⟨session.files, moment, rfl⟩, done, all, shows⟩
    | takes _ content group rest items =>
      obtain ⟨rfl, ⟨files, known, told⟩, done, all, shows⟩ := answering
      exact ⟨rfl, done ++ [group], by rw [all, List.append_assoc]; rfl,
        shows.shows _ _ _ files content known told⟩
    | skips _ fault group rest items =>
      obtain ⟨rfl, ⟨files, known, told⟩, done, all, shows⟩ := answering
      exact ⟨rfl, done ++ [group], by rw [all, List.append_assoc]; rfl,
        shows.skips _ _ _ files fault known told⟩
    | breaksOff => exact trivial
    | _ => exact answering.elim
  | gaveUp _ _ reason => cases reason <;> exact answering.elim
  | _ => exact answering.elim

/-- The lone request is behind its search in a snapshot that stays. -/
structure IsBehind (before : Session α) (request : Request α) (settings : Settings α)
    (moments : FileSystem → Prop) (wish : ContextWish) (groups : List (FileHits α))
    (searched : Option (Snapshot α)) (session : Session α) : Prop where
  lone : LoneCall before request session
  configured : session.settings = settings
  moment : moments session.files
  snapshot : session.snapshot = searched
  answering : ∃ point, session.task? before.tasks.length = some (.call point) ∧
    IsAnswering settings moments wish groups point

private theorem snapshot_of_answering {settings : Settings α} {moments : FileSystem → Prop}
    {groups : List (FileHits α)} {point : CallPoint α} (lone : LoneCall before request session)
    (stands : session.task? before.tasks.length = some (.call point))
    (answering : IsAnswering settings moments wish groups point) (move : Move session mover next) :
    next.snapshot = session.snapshot := by
  have own : ∀ {other : CallPoint α}, session.task? mover = some (.call other) → other = point := by
    intro other there
    obtain ⟨rfl, -⟩ := lone.eq_of_call move there
    cases there.symm.trans stands
    rfl
  generalize found : next.snapshot = after
  cases found ▸ move.snapshot with
  | kept => rfl
  | dropped request there => cases own there; exact answering.elim
  | answers _ _ _ _ asked =>
    cases asked with
    | search _ _ _ _ there => cases own there; exact answering.elim
    | context wish there => cases own there; exact answering.elim
  | refreshed target draft _ there => cases own there; exact answering.elim
  | swapped pass there swapping =>
    have running : ¬ pass.IsEnded := by
      rintro ⟨outcome, ended⟩
      cases swapping.symm.trans ended
    obtain ⟨after, waits⟩ := lone.waits there running
    cases waits.symm.trans stands
    exact answering.elim

theorem IsBehind.event {settings : Settings α} {moments : FileSystem → Prop}
    {groups : List (FileHits α)} {searched : Option (Snapshot α)}
    (behind : IsBehind before request settings moments wish groups searched session)
    {event : Event α} (alone : ∀ other, event ≠ .call other)
    (moment : moments next.files) (happened : session.after? event = some next) :
    IsBehind before request settings moments wish groups searched next := by
  obtain ⟨point, stands, answering⟩ := behind.answering
  have lone := behind.lone.event alone happened
  have world := after?_world happened
  refine ⟨lone, world.1.trans behind.configured, moment, ?_, ?_⟩
  · rw [← behind.snapshot]
    cases after?_move happened with
    | call other => exact absurd rfl (alone other)
    | step mover _ move => exact snapshot_of_answering behind.lone stands answering move
    | leave => rfl
    | files => rfl
    | time => rfl
  · rcases after?_call stands happened with ⟨-, after, shared, step, -, there⟩ | ⟨-, stays⟩
    · refine ⟨after, there, ?_⟩
      rw [← behind.configured] at answering ⊢
      exact answering.move behind.moment step
    · exact ⟨point, stays, answering⟩

/-! ## Up to the search -/

/-- The lone request for context is yet to search, and there is no snapshot but of its project once
it has begun. -/
structure IsAhead (before : Session α) (request : Request α) (session : Session α) : Prop where
  lone : LoneCall before request session
  drafts : session.OwnDrafts
  waits : ∃ point, session.task? before.tasks.length = some (.call point) ∧
    (point = .made request ∨ ∃ wish, IsToSearch wish point ∧
      ∀ snapshot, session.snapshot = some snapshot → snapshot.projectPath = wish.root)

omit [Scalar α] in
private theorem root_of_asksFor {root : String} (wishes : request.Wishes wish)
    (asks : request.AsksFor root) : root = wish.root := by
  cases wishes with
  | context _ _ _ _ accepted =>
    cases asks with
    | context _ _ _ _ accepted' =>
      cases accepted.symm.trans accepted'
      rfl

/-- The passes of a lone request for context are over its project. -/
theorem LoneCall.not_overtakes (lone : LoneCall before request session)
    (wishes : request.Wishes wish) (event : Event α) : ¬ session.Overtakes wish.root event := by
  rintro ⟨number, pass, -, stands, swapping, -, other⟩
  have running : ¬ pass.IsEnded := by
    rintro ⟨outcome, ended⟩
    cases swapping.symm.trans ended
  exact other (root_of_asksFor wishes (lone.passes number pass stands running).2)

private theorem IsAhead.event {query path : Argument String} {limit : Argument Int}
    (ahead : IsAhead before (.context query path limit) session) {event : Event α}
    (alone : ∀ other, event ≠ .call other) (happened : session.after? event = some next) :
    IsAhead before (.context query path limit) next ∨
      (∃ fault, next.task? before.tasks.length = some (.call (.ended (.error fault)))) ∨
      ∃ wish, event = .step before.tasks.length ∧
        session.task? before.tasks.length = some (.call (.searching wish)) ∧
        (∀ snapshot, session.snapshot = some snapshot → snapshot.projectPath = wish.root) := by
  obtain ⟨point, stands, place⟩ := ahead.waits
  have lone := ahead.lone.event alone happened
  have drafts := ahead.drafts.event happened
  rcases after?_call stands happened with ⟨rfl, after, shared, step, same, there⟩ | ⟨other, stays⟩
  · rcases place with rfl | ⟨wish, toSearch, own⟩
    · rcases begins_context step with ⟨fault, rfl⟩ | ⟨wish, -, toSearch, dropped⟩
      · exact .inr (.inl ⟨fault, there⟩)
      · refine .inl ⟨lone, drafts, after, there, .inr ⟨wish, toSearch, fun snapshot current => ?_⟩⟩
        rw [same, setCall, setTask, dropped] at current
        exact ((session.snapshotOf_eq_some_iff _ _).mp current).2
    · rcases toSearch with rfl | ⟨pass, rfl⟩
      · exact .inr (.inr ⟨wish, rfl, stands, own⟩)
      · cases step with
        | quiet _ _ move =>
          cases move with
          | serves =>
            refine .inl ⟨lone, drafts, _, there, .inr ⟨wish, .inl rfl, fun snapshot current => ?_⟩⟩
            rw [same] at current
            exact own snapshot current
          | failedWith _ _ fault => exact .inr (.inl ⟨fault, there⟩)
        | gaveUp _ _ reason => cases reason
  · refine .inl ⟨lone, drafts, point, stays, place.imp_right ?_⟩
    rintro ⟨wish, toSearch, own⟩
    have wishes : Request.Wishes (.context query path limit : Request α) wish := by
      obtain ⟨place, stands', serves⟩ := ahead.lone.own
      cases stands.symm.trans stands'
      rcases toSearch with rfl | ⟨pass, rfl⟩ <;> exact serves
    have serves : session.ServesOnly wish.root := ⟨ahead.drafts, own⟩
    exact ⟨wish, toSearch, (serves.event (ahead.lone.not_overtakes wishes event) happened).snapshot⟩

private theorem IsAhead.searches {query path : Argument String} {limit : Argument Int}
    {events : List (Event α)} {items : List (ContextItem α)}
    (ahead : IsAhead before (.context query path limit) session)
    (alone : ∀ other, .call other ∉ events) (run : session.replay? events = some final)
    (told : final.outcome? before.tasks.length = some (.ok (.shown items))) :
    ∃ wish waiting answering middle, events = waiting ++ .step before.tasks.length :: answering ∧
      session.replay? waiting = some middle ∧
      middle.task? before.tasks.length = some (.call (.searching wish)) ∧
      IsAhead before (.context query path limit) middle ∧
      ∀ snapshot, middle.snapshot = some snapshot → snapshot.projectPath = wish.root := by
  -- up to its search the call stays ahead, with no snapshot but of its project
  induction events generalizing session with
  | nil =>
    cases run
    obtain ⟨point, stands, place⟩ := ahead.waits
    rw [task?_of_outcome told, Option.some.injEq, Task.call.injEq] at stands
    subst stands
    rcases place with same | ⟨wish, same | ⟨pass, same⟩, -⟩ <;> cases same
  | cons event rest ih =>
    obtain ⟨next, happened, suffix⟩ := Option.bind_eq_some_iff.mp run
    have quiet : ∀ other, event ≠ .call other := by
      rintro other rfl
      exact alone other List.mem_cons_self
    rcases ahead.event quiet happened with further | ⟨fault, failed⟩ | ⟨wish, rfl, stands, own⟩
    · obtain ⟨wish, waiting, answering, middle, cut, reached, searching⟩ :=
        ih further (fun other member => alone other (List.mem_cons_of_mem _ member)) suffix
      exact ⟨wish, event :: waiting, answering, middle, by rw [cut]; rfl,
        replay?_cons happened reached, searching⟩
    · exact (not_shown_of_failed failed suffix told).elim
    · exact ⟨wish, [], rest, session, rfl, rfl, stands, ahead, own⟩

/-! ## The answer -/

/-- What a request for context may show of the hits of its search: no more files than were asked
for, each once, all known to the snapshot, with the best scores of their hits, and with texts of
limited length that are cut from the files as they were read. -/
structure IsContextOf (settings : Settings α) (moments : FileSystem → Prop) (wish : ContextWish)
    (hits : List (Hit α)) (shown : Option (Snapshot α)) (items : List (ContextItem α)) : Prop where
  few : (items.length : ℤ) ≤ wish.limit
  once : (items.map ContextItem.path).Nodup
  known : ∀ item ∈ items, ∃ snapshot, shown = some snapshot ∧ snapshot.projectPath = wish.root ∧
    item.path ∈ snapshot.files.keys
  best : ∀ item ∈ items, IsBestScore hits item.path item.score
  short : ∀ item ∈ items, (item.content.length : ℤ) ≤ settings.contextContentLimit
  cut : ∀ item ∈ items, ∃ files content, moments files ∧
    files.read (Path.join wish.root item.path) = .ok content ∧
    Context.IsCutOf settings.contextContentLimit content item.content

private theorem snapshot_search (session : Session α) (query : String) (options : SearchOptions α)
    {snapshot : Snapshot α} (current : session.snapshot = some snapshot) :
    ∃ after, (session.search query options).2.snapshot = some after ∧
      after.projectPath = snapshot.projectPath ∧ after.files = snapshot.files := by
  rcases session.search_cases query options with same | ⟨found, stood, same⟩
  · exact ⟨snapshot, by rw [same, current], rfl, rfl⟩
  · cases stood.symm.trans current
    exact ⟨_, congrArg Session.snapshot same, rfl, rfl⟩

/-- Items of the best groups are what a request for context may show. -/
theorem IsContextOf.of_showsGroups [OrderedScalar α] {settings : Settings α}
    {moments : FileSystem → Prop} {hits : List (Hit α)} {items : List (ContextItem α)}
    {shown : Option (Snapshot α)}
    (shows : ShowsGroups settings moments wish.root (groupByFile hits wish.limit) items)
    (limit : 0 ≤ wish.limit) (nonneg : 0 ≤ settings.contextContentLimit)
    (known : ∀ item ∈ items, ∃ snapshot, shown = some snapshot ∧
      snapshot.projectPath = wish.root ∧ item.path ∈ snapshot.files.keys) :
    IsContextOf settings moments wish hits shown items := by
  refine ⟨?_, shows.paths_nodup, known, fun item listed => shows.isBestScore listed, ?_, ?_⟩
  · exact (Int.ofNat_le.mpr shows.length_le).trans (length_groupByFile_le hits limit)
  · intro item listed
    obtain ⟨group, -, files, content, -, -, rfl⟩ := shows.exists_group listed
    exact Context.length_extractContext_le content group.hits _ _ nonneg
  · intro item listed
    obtain ⟨group, -, files, content, moment, told, rfl⟩ := shows.exists_group listed
    exact ⟨files, content, moment, told, Context.isCutOf_extractContext content group.hits _ _ _⟩

private theorem shows_of_search {events answering : List (Event α)} {middle : Session α}
    {items : List (ContextItem α)} (lone : LoneCall before request middle)
    (searching : middle.task? before.tasks.length = some (.call (.searching wish)))
    (known : before.InForce events middle.files) (alone : ∀ other, .call other ∉ answering)
    (within : ∀ event ∈ answering, event ∈ events)
    (run : ∃ found, middle.after? (.step before.tasks.length) = some found ∧
      found.replay? answering = some final)
    (told : final.outcome? before.tasks.length = some (.ok (.shown items))) :
    ShowsGroups middle.settings (before.InForce events) wish.root
        (groupByFile (middle.search wish.query (contextOptions wish)).1 wish.limit) items ∧
      final.snapshot = (middle.search wish.query (contextOptions wish)).2.snapshot := by
  obtain ⟨found, happened, run⟩ := run
  have world := middle.search_world wish.query (contextOptions wish)
  have start : IsBehind before request middle.settings (before.InForce events) wish
      (groupByFile (middle.search wish.query (contextOptions wish)).1 wish.limit)
      (middle.search wish.query (contextOptions wish)).2.snapshot found := by
    obtain ⟨-, after, shared, step, same, there⟩ | ⟨other, -⟩ := after?_call searching happened
    · have loneAfter := lone.event (by rintro other ⟨⟩) happened
      cases step with
      | finds =>
        refine ⟨loneAfter, ?_, ?_, ?_, _, there, rfl, [], rfl, .none⟩
        · rw [same]; exact world.settings
        · rw [same]; exact world.files ▸ known
        · rw [same]; rfl
      | quiet _ _ move => cases move
      | gaveUp _ _ reason => cases reason
    · exact absurd rfl other
  have behind : IsBehind before request middle.settings (before.InForce events) wish
      (groupByFile (middle.search wish.query (contextOptions wish)).1 wish.limit)
      (middle.search wish.query (contextOptions wish)).2.snapshot final := by
    refine replay?_keeps ?_ start run
    intro current event next member behind happened
    refine behind.event ?_ (InForce.event behind.moment (within event member) happened) happened
    rintro other rfl
    exact alone other member
  obtain ⟨point, stands, shows⟩ := behind.answering
  rw [task?_of_outcome told, Option.some.injEq, Task.call.injEq] at stands
  subst stands
  exact ⟨shows, behind.snapshot⟩

private theorem limit_nonneg {query path : Argument String} {limit : Argument Int}
    (accepted : contextWish query path limit = .ok wish) : 0 ≤ wish.limit := by
  simp only [contextWish, bind, Except.bind] at accepted
  split at accepted
  · cases accepted
  · split at accepted
    · cases accepted
    · next given known =>
      split at accepted
      · cases accepted
      · cases accepted
        cases limit with
        | given number =>
          simp only [Argument.limit] at known
          split at known
          · cases known
          · next nonneg =>
            cases known
            exact not_lt.mp nonneg
        | other => cases known

/-- The scores of what a search finds are defined, if the embedder's are. -/
theorem CacheSound.scores_of_search [OrderedScalar α] {accepted : String → SearchOptions α → Prop}
    (sound : session.CacheSound accepted) (defined : session.embedder.ScoresDefined)
    (embeds : ∀ snapshot, session.snapshot = some snapshot →
      snapshot.EmbedsFiles session.embedder) (query : String) (options : SearchOptions α) :
    KeysDefined Hit.score (session.search query options).1 := by
  cases current : session.snapshot with
  | none =>
    simp only [search, current]
    exact fun hit member => absurd member List.not_mem_nil
  | some snapshot =>
    have ranked : ∀ query options, KeysDefined Hit.score (rank session.settings session.embedder
        query options snapshot.embeddings.values) := by
      refine fun query options => scores_of_rank fun embedding member _ => ?_
      obtain ⟨id, stored⟩ := OrderedMap.mem_values_iff.mp member
      exact defined query options embedding (embeds snapshot current id embedding stored).2
    simp only [search, current]
    split
    · split
      · next hits cache found =>
        obtain ⟨entry, stored, rfl⟩ := QueryCache.get?_of_get found
        obtain ⟨other, given, -, -, answer⟩ := sound.snapshot snapshot current _ entry stored
        rw [answer]
        exact ranked other given
      · exact ranked query options
    · exact ranked query options

private theorem CacheSound.knows_group {accepted : String → SearchOptions α → Prop}
    (sound : session.CacheSound accepted) (embeds : ∀ snapshot, session.snapshot = some snapshot →
      snapshot.EmbedsFiles session.embedder)
    (own : ∀ snapshot, session.snapshot = some snapshot → snapshot.projectPath = wish.root)
    {query : String} {options : SearchOptions α} {limit : ℤ} {group : FileHits α}
    (found : group ∈ groupByFile (session.search query options).1 limit) :
    ∃ after, (session.search query options).2.snapshot = some after ∧
      after.projectPath = wish.root ∧ group.filePath ∈ after.files.keys := by
  obtain ⟨hit, inHits, path⟩ := exists_hit_of_mem_groupByFile found
  obtain ⟨snapshot, current, embedding, stored, chunk⟩ := sound.exists_embedding_of_mem_search inHits
  obtain ⟨id, stored⟩ := OrderedMap.mem_values_iff.mp stored
  obtain ⟨after, there, project, files⟩ := snapshot_search session query options current
  refine ⟨after, there, project.trans (own snapshot current), ?_⟩
  rw [files, ← path, ← chunk]
  exact (embeds snapshot current id embedding stored).1

private theorem exists_search {session before final : Session α} {earlier events : List (Event α)}
    {query path : Argument String} {limit : Argument Int} {items : List (ContextItem α)}
    (new : session.IsNew) (reached : session.replay? earlier = some before) (idle : before.IsIdle)
    (alone : ∀ other, .call other ∉ events)
    (run : before.replay? (.call (.context query path limit) :: events) = some final)
    (told : final.outcome? before.tasks.length = some (.ok (.shown items))) :
    ∃ wish waiting answering middle, contextWish query path limit = .ok wish ∧
      events = waiting ++ .step before.tasks.length :: answering ∧
      before.replay? (.call (.context query path limit) :: waiting) = some middle ∧
      middle.task? before.tasks.length = some (.call (.searching wish)) ∧
      (∀ snapshot, middle.snapshot = some snapshot → snapshot.projectPath = wish.root) ∧
      ShowsGroups before.settings (before.InForce events) wish.root
        (groupByFile (middle.search wish.query (contextOptions wish)).1 wish.limit) items ∧
      final.snapshot = (middle.search wish.query (contextOptions wish)).2.snapshot := by
  obtain ⟨called, made, suffix⟩ : ∃ called,
      before.after? (.call (.context query path limit)) = some called ∧
        called.replay? events = some final := Option.bind_eq_some_iff.mp run
  have drafts : before.OwnDrafts :=
    replay?_keeps (fun _ _ _ _ drafts => drafts.event) new.ownDrafts reached
  have stands : called.task? before.tasks.length =
      some (.call (.made (.context query path limit))) := by
    cases made
    exact (task?_call _ _ _).trans (if_pos rfl)
  have ahead : IsAhead before (.context query path limit) called :=
    ⟨new.loneCall reached idle made, drafts.event made, _, stands, .inl rfl⟩
  obtain ⟨wish, waiting, answering, middle, rfl, waited, searching, aheadMiddle, own⟩ :=
    ahead.searches alone suffix told
  have toMiddle : before.replay? (.call (.context query path limit) :: waiting) = some middle :=
    replay?_cons made waited
  have accepted : contextWish query path limit = .ok wish := by
    obtain ⟨place, there, serves⟩ := aheadMiddle.lone.own
    cases there.symm.trans searching
    cases serves with
    | context _ _ _ _ accepted => exact accepted
  have known : before.InForce (waiting ++ .step before.tasks.length :: answering) middle.files := by
    refine @replay?_keeps α _ (fun current => before.InForce _ current.files) _ _ _ ?_ ?_ waited
    · exact fun _ _ _ member known happened =>
        InForce.event known (List.mem_append_left _ member) happened
    · cases made
      exact .inl rfl
  have later : ∃ found, middle.after? (.step before.tasks.length) = some found ∧
      found.replay? answering = some final := by
    rw [replay?_append, waited] at suffix
    exact Option.bind_eq_some_iff.mp suffix
  obtain ⟨shows, shown⟩ := shows_of_search aheadMiddle.lone searching known
    (fun other member => alone other (List.mem_append_right _ (List.mem_cons_of_mem _ member)))
    (fun event member => List.mem_append_right _ (List.mem_cons_of_mem _ member)) later told
  rw [(replay?_world toMiddle).1] at shows
  exact ⟨wish, waiting, answering, middle, accepted, rfl, toMiddle, searching, own, shows, shown⟩

end Session

open Session in
/-- Context results are bounded and well-formed. In every state in which no call is in progress, for
all files that are there meanwhile, a request for context that returns shows what may be shown of the
hits of the search that it has made in between. It shows it in an order of falling scores, as the
embedder that counts tokens gives no undefined ones; another embedder must not give any either. -/
theorem context_is_bounded_and_well_formed {session before final : Session Float}
    {earlier events : List (Event Float)} {query path : Argument String} {limit : Argument Int}
    {items : List (ContextItem Float)} (new : session.IsNew)
    (reached : session.replay? earlier = some before) (idle : before.IsIdle)
    (alone : ∀ other, .call other ∉ events)
    (nonneg : 0 ≤ before.settings.contextContentLimit)
    (run : before.replay? (.call (.context query path limit) :: events) = some final)
    (told : final.outcome? before.tasks.length = some (.ok (.shown items))) :
    ∃ wish waiting answering middle, contextWish query path limit = .ok wish ∧
      events = waiting ++ .step before.tasks.length :: answering ∧
      before.replay? (.call (.context query path limit) :: waiting) = some middle ∧
      middle.task? before.tasks.length = some (.call (.searching wish)) ∧
      IsContextOf before.settings (before.InForce events) wish
        (middle.search wish.query (contextOptions wish)).1 final.snapshot items ∧
      (before.embedder.CountsTokens ∨ before.embedder.ScoresDefined →
        items.Pairwise fun first second => second.score ≤ first.score) := by
  obtain ⟨wish, waiting, answering, middle, accepted, cuts, toMiddle, searching, own, shows, shown⟩ :=
    exists_search new reached idle alone run told
  have fromNew := replay?_trans reached toMiddle
  have sound : middle.CacheSound fun _ _ => True :=
    new.cacheSound_of_run (fun _ => trivial) (fun _ _ _ _ _ _ _ => trivial) fromNew
  have embeds : ∀ snapshot, middle.snapshot = some snapshot →
      snapshot.EmbedsFiles middle.embedder :=
    fun snapshot current => (new.showsWhole_of_run fromNew snapshot current).embedsFiles
  refine ⟨wish, waiting, answering, middle, accepted, cuts, toMiddle, searching, ?_, ?_⟩
  · refine .of_showsGroups shows (limit_nonneg accepted) nonneg fun item listed => ?_
    obtain ⟨group, inGroups, -, -, -, -, rfl⟩ := shows.exists_group listed
    exact shown ▸ sound.knows_group embeds own inGroups
  · intro kind
    have defined : middle.embedder.ScoresDefined := by
      rw [(replay?_world toMiddle).2]
      exact kind.elim Embedder.CountsTokens.scoresDefined id
    exact shows.falls (sound.scores_of_search defined embeds wish.query (contextOptions wish))

namespace Session

/-! ## Files with several hits -/

/-- The groups that a request is about to show, if hits that fall as they come are all that is to be
found, and nothing was searched so far. -/
def groupsInOrder? (session : Session α) (id : TaskId) (root : String) (limit : ℕ) :
    Option (List (FileHits α)) :=
  match session.task? id, session.snapshot with
  | some (.call (.searching wish)), some snapshot =>
    let options : SearchOptions α := { runOptions with limit := some ((limit : ℤ) * 2) }
    let hits := Ranking.hits (.of session.embedder "run" options)
      (options.leastScoreIn session.settings) snapshot.embeddings.values
    if wish.query = "run" ∧ wish.root = root ∧ wish.limit = limit ∧
        snapshot.cache.entries.entries.isEmpty = true ∧ Falls hits then
      some ((Context.groups (hits.take (limit * 2))).take limit)
    else none
  | _, _ => none

theorem of_groupsInOrder? [OrderedScalar α] {session : Session α} {id : TaskId} {root : String}
    {limit : ℕ} {groups : List (FileHits α)}
    (finds : session.groupsInOrder? id root limit = some groups) :
    session.task? id = some (.call (.searching ⟨"run", root, limit⟩)) ∧
      groupByFile (session.search "run" (contextOptions ⟨"run", root, limit⟩)).1 limit = groups ∧
      ∀ group ∈ groups, Falls group.hits := by
  unfold groupsInOrder? at finds
  split at finds
  · next wish snapshot stands current =>
    obtain ⟨⟨query, named, asked, empty, falls⟩, same⟩ := Option.ite_none_right_eq_some.mp finds
    obtain rfl : wish = ⟨"run", root, limit⟩ := by
      cases wish
      simp_all
    obtain rfl := Option.some.inj same
    have given : (({ runOptions with limit := some ((limit : ℤ) * 2) } : SearchOptions α).limitIn
        session.settings) = ((limit * 2 : ℕ) : ℤ) := by
      simp [SearchOptions.limitIn]
    have best := falls.sublist (List.take_sublist (limit * 2) _)
    refine ⟨stands, ?_, fun group listed => ?_⟩
    · rw [search_run current empty, rank_of_falls given falls, Context.groupByFile_of_falls best]
    · rw [(Context.isGrouping_groups _).own group (List.mem_of_mem_take listed)]
      exact best.sublist List.filter_sublist
  · cases finds

/-- Groups that a search has found are shown as their files are when they are read behind it. -/
theorem shows_behind_rewrite {session : Session α} {id : TaskId} {wish : ContextWish}
    {groups : List (FileHits α)} {files : FileSystem}
    (stands : session.task? id = some (.call (.searching wish)))
    (found : groupByFile (session.search wish.query (contextOptions wish)).1 wish.limit = groups)
    (content : FileHits α → String) (there : ∀ group ∈ groups,
      files.read (Path.join wish.root group.filePath) = .ok (content group)) :
    ∃ final, session.replay? (.step id :: .files files ::
        List.replicate (2 * groups.length + 1) (.step id)) = some final ∧
      final.outcome? id = some (.ok (.shown (groups.map fun group =>
        contextItem session.settings (content group) group))) := by
  have searches := after?_of_searching stands
  have world := session.search_world wish.query (contextOptions wish)
  have tasks := session.search_tasks wish.query (contextOptions wish)
  rw [found] at searches
  generalize (session.search wish.query (contextOptions wish)).2 = shared at *
  let rewritten : Session α := { shared with files }
  have present : id < rewritten.tasks.length := tasks ▸ lt_of_task? stands
  have rewrites : (shared.setCall id (.reading wish groups [])).after? (.files files) =
      some (rewritten.setCall id (.reading wish groups [])) := rfl
  have reads := replay?_cons searches (replay?_cons rewrites
    (replay?_of_reading present content there))
  have settings : rewritten.settings = session.settings := world.settings
  rw [settings, List.nil_append] at reads
  exact ⟨_, reads, outcome?_setCall present _⟩

/-- Counts the tokens of functions and refuses all else. -/
def countsFunctions : Embedder Float where
  embedText := Embedder.hashedText 3 1500
  embedChunk chunk :=
    if chunk.kind = .function then .ok (Embedder.hashedChunk 3 1500 chunk)
    else .error "not a function"

theorem countsFunctions_countsTokens : countsFunctions.CountsTokens := by
  refine ⟨3, 1500, rfl, fun chunk vector embedded => ?_⟩
  simp only [countsFunctions] at embedded
  split at embedded
  · exact (Except.ok.inj embedded).symm
  · cases embedded

/-- The text of a file with two functions. -/
def runText : String := "x = 1\ndef run():\n    return run\n\n\n\ndef walk():\n    run()\n\n"

/-- Three files, of which the text of the second one is given. -/
def functionVolume (text : String) : Volume :=
  ((Volume.write {} "/p/a.py" (.ofText runText)).write "/p/b.py" (.ofText text)).write "/p/c.py"
    (.ofText "def go():\n    run()\n")

/-- Functions have two lines, and one line is shown on both sides of them. -/
def narrowSettings : Settings Float :=
  { defaultEndLineOffset := 1, contextWindowLines := 1, contextContentLimit := 60 }

def functionProject : Session Float :=
  { opened narrowSettings (functionVolume "def stop():\n    # run\n").fileSystem 0 with
    embedder := countsFunctions }

/-- What comes after the listing, until nothing is left to happen. -/
def indexesFunctions : List (Event Float) :=
  List.replicate 5 (.step 1) ++ List.replicate 3 (.step 2) ++ List.replicate 3 (.step 3) ++
    List.replicate 3 (.step 4) ++ List.replicate 18 (.step 1) ++ [.step 0, .leave 1]

/-- What is in the second file when it is read for its context. -/
def rewrittenText : String :=
  "# changed\n\ndef stop():\n    # run\n    pass\n\ndef next():\n    run()\n\n"

/-- The second file is rewritten behind the search. -/
def answersAroundRewrite : List (Event Float) :=
  [.step 5, .step 5, .files (functionVolume rewrittenText).fileSystem] ++ List.replicate 5 (.step 5)

/-- The text of a group's file as it is by then. -/
def textBehindRewrite (group : FileHits Float) : String :=
  if group.filePath = "a.py" then runText else rewrittenText

/-- What is shown of a group if its hits are taken as they come. -/
def shownInOrder (group : FileHits Float) : String × String :=
  (group.filePath, Context.extractInOrder (textBehindRewrite group) group.hits
    narrowSettings.topChunksPerFile narrowSettings.contextWindowLines
    narrowSettings.contextContentLimit)

private theorem reads_behind_rewrite {group : FileHits Float}
    (named : group.filePath ∈ ["a.py", "b.py"]) :
    (functionVolume rewrittenText).fileSystem.read (Path.join "/p" group.filePath) =
      .ok (textBehindRewrite group) := by
  have texts : ∀ path ∈ ["a.py", "b.py"],
      (functionVolume rewrittenText).fileSystem.read (Path.join "/p" path) =
        .ok (if path = "a.py" then runText else rewrittenText) := by decide +kernel
  exact texts _ named

/-- Of three files with hits two are shown: the windows of two hits in the first one, and the text of
the second one as it is by then. Both texts are cut. -/
theorem context_around_rewrite_is_well_formed :
    ∃ (before final : Session Float) (items : List (ContextItem Float)),
      functionProject.replay? (firstRequest ++ .step 1 :: indexesFunctions) = some before ∧
      before.IsIdle ∧
      before.replay? (.call (.context (.given "run") (.given "/p") (.given 2)) ::
        answersAroundRewrite) = some final ∧
      final.outcome? before.tasks.length = some (.ok (.shown items)) ∧
      items.map (fun item => (item.path, item.content)) =
        [("a.py", "x = 1\ndef run():\n    return run\n\n\n// ...\n\n\ndef walk():\n    r"),
          ("b.py", "# changed\n\ndef stop():\n    # run\n    pass\n\ndef next():\n    r")] ∧
      ∃ wish hits, contextWish (.given "run") (.given "/p") (.given 2) = .ok wish ∧
        IsContextOf narrowSettings (before.InForce answersAroundRewrite) wish hits final.snapshot
          items ∧
        countsFunctions.CountsTokens ∧
        items.Pairwise fun first second => second.score ≤ first.score := by
  have ran : ((functionProject.replay? firstRequest).bind fun asked =>
      ((asked.withListing 1 "/p" (threeEntries.filterMap (Walk.target? asked.settings))).replay?
          indexesFunctions).bind fun before =>
        if before.AtRest ∧ before.tasks.length = 5 then
          (before.replay? [.call (.context (.given "run") (.given "/p") (.given 2)), .step 5]).bind
            fun middle => (middle.groupsInOrder? 5 "/p" 2).filter fun groups =>
              groups.map shownInOrder =
                [("a.py", "x = 1\ndef run():\n    return run\n\n\n// ...\n\n\ndef walk():\n    r"),
                  ("b.py", "# changed\n\ndef stop():\n    # run\n    pass\n\ndef next():\n    r")]
        else none).isSome = true := by decide +kernel
  obtain ⟨groups, ran⟩ := Option.isSome_iff_exists.mp ran
  obtain ⟨asked, reached, ran⟩ := Option.bind_eq_some_iff.mp ran
  obtain ⟨before, went, ran⟩ := Option.bind_eq_some_iff.mp ran
  obtain ⟨⟨rest, five⟩, ran⟩ := Option.ite_none_right_eq_some.mp ran
  obtain ⟨middle, begins, ran⟩ := Option.bind_eq_some_iff.mp ran
  obtain ⟨finds, texts⟩ := Option.filter_eq_some_iff.mp ran
  have texts := of_decide_eq_true texts
  obtain ⟨stands, found, falls⟩ := of_groupsInOrder? finds
  have new : functionProject.IsNew := ⟨rfl, rfl, rfl, rfl, rfl, rfl⟩
  have listing : (functionVolume "def stop():\n    # run\n").fileSystem.list "/p" =
      .ok threeEntries := by decide +kernel
  have indexed := replay?_trans reached
    (replay?_cons (lists_of_firstRequest new reached listing (by decide +kernel)) went)
  have settings : middle.settings = narrowSettings :=
    (replay?_world (replay?_trans indexed begins)).1
  have paths : groups.map FileHits.filePath = ["a.py", "b.py"] := by
    simpa [Function.comp_def, shownInOrder] using congrArg (List.map Prod.fst) texts
  have two : groups.length = 2 := by simpa using congrArg List.length paths
  obtain ⟨final, answers, told⟩ := shows_behind_rewrite stands found textBehindRewrite
    fun group listed => reads_behind_rewrite (paths ▸ List.mem_map_of_mem listed)
  rw [two] at answers
  let items := groups.map fun group => contextItem middle.settings (textBehindRewrite group) group
  have shown : items.map (fun item => (item.path, item.content)) = groups.map shownInOrder := by
    rw [List.map_map]
    refine List.map_congr_left fun group listed => ?_
    simp only [Function.comp_apply, contextItem, shownInOrder, settings,
      Context.extractContext_of_falls (falls group listed)]
  have run : before.replay? (.call (.context (.given "run") (.given "/p") (.given 2)) ::
      answersAroundRewrite) = some final := by
    have whole := replay?_trans begins answers
    exact whole
  have idle : before.IsIdle := fun id point stands => rest.tasks id _ stands
  have alone : ∀ other, .call other ∉ answersAroundRewrite := by
    intro other
    simp [answersAroundRewrite]
  obtain ⟨kept, embeds⟩ := replay?_world indexed
  have counts : before.embedder.CountsTokens := by
    rw [embeds]
    exact countsFunctions_countsTokens
  obtain ⟨wish, -, -, searched, accepted, -, -, -, shows, sorted⟩ :=
    context_is_bounded_and_well_formed new indexed idle alone (by rw [kept]; decide) run
      (five ▸ told)
  rw [kept] at shows
  exact ⟨before, final, items, indexed, idle, run, five ▸ told, shown.trans texts, wish, _, accepted,
    shows, countsFunctions_countsTokens, sorted (.inl counts)⟩

end Session

end CodeSearch
