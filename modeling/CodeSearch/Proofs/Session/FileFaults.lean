import CodeSearch.Proofs.Session.Calls
import CodeSearch.Proofs.Session.HealthyFiles
import CodeSearch.Proofs.Session.Requests
import CodeSearch.Proofs.Session.Termination

/-! # Which faults of files reach the callers

Files that cannot be read are left out of the index, and directories that the system refuses to list
are passed over. A call with valid arguments fails for three reasons only: a listing of its project
breaks, the size of the file that it updates is not told, or a file breaks while it is read for its
context. Whatever is indexed and shown is what the healthy files give alone.
-/

namespace CodeSearch

open Loading Walk FileSystem

variable {α : Type} [Scalar α]

/-- The project that a request is about. -/
inductive Request.IsAbout : Request α → String → Prop where
  | asks (request : Request α) (root : String) (asks : request.AsksFor root) : IsAbout request root
  | updates (request : Request α) (update : Update) (asks : request.AsksUpdate update) :
      IsAbout request update.root

/-- The faults of files that a request does not bear. -/
inductive Request.IsReachedBy (settings : Settings α) (moments : FileSystem → Prop)
    (request : Request α) : FileFault → Prop where
  /-- A directory of the project is not listed, and not because the system refuses. -/
  | listing (root : String) (fault : FileFault) (about : request.IsAbout root)
      (breaks : Walk.Breaks settings moments root fault) : IsReachedBy settings moments request fault
  /-- The size of the file that is updated is not told. -/
  | sizing (update : Update) (target : UpdateTarget) (files : FileSystem) (fault : FileFault)
      (asks : request.AsksUpdate update) (leads : update.LeadsTo target) (moment : moments files)
      (told : files.size target.absolute = .error fault) :
      IsReachedBy settings moments request fault
  /-- A file is not read for its context, neither because the system refuses nor because the file is
  no text. -/
  | reading (wish : ContextWish) (path : String) (files : FileSystem) (fault : FileFault)
      (wishes : request.Wishes wish) (moment : moments files)
      (told : files.read (Path.join wish.root path) = .error fault)
      (noText : ∀ message, fault ≠ .undecodable message) (unborne : fault.isUnavailable = false) :
      IsReachedBy settings moments request fault

/-! ## What is shown of groups of hits -/

/-- Of every group of hits the part of its file is shown if the file can be read, and else nothing. -/
inductive ShowsGroups (settings : Settings α) (moments : FileSystem → Prop) (root : String) :
    List (FileHits α) → List (ContextItem α) → Prop where
  | none : ShowsGroups settings moments root [] []
  | shows (groups : List (FileHits α)) (items : List (ContextItem α)) (group : FileHits α)
      (files : FileSystem) (content : String)
      (before : ShowsGroups settings moments root groups items) (moment : moments files)
      (told : files.read (Path.join root group.filePath) = .ok content) :
      ShowsGroups settings moments root (groups ++ [group])
        (items ++ [Session.contextItem settings content group])
  | skips (groups : List (FileHits α)) (items : List (ContextItem α)) (group : FileHits α)
      (files : FileSystem) (fault : FileFault)
      (before : ShowsGroups settings moments root groups items) (moment : moments files)
      (told : files.read (Path.join root group.filePath) = .error fault) :
      ShowsGroups settings moments root (groups ++ [group]) items

/-- The healthy files are shown as if the faulty ones were not there. -/
theorem ShowsGroups.without {settings : Settings α} {moments : FileSystem → Prop} {root : String}
    {faulty : Target → Bool} (fails : ∀ files, moments files → files.FailsAt faulty)
    {groups : List (FileHits α)} {items : List (ContextItem α)}
    (shows : ShowsGroups settings moments root groups items) :
    ShowsGroups settings (HealthyPart faulty moments) root groups items := by
  induction shows with
  | none => exact .none
  | shows groups items group files content before moment told ih =>
    refine ih.shows groups items group _ content ⟨files, moment, rfl⟩ ?_
    cases gone : faulty (.file (Path.join root group.filePath)) with
    | true =>
      obtain ⟨fault, unread⟩ := (fails files moment).read _ gone
      cases told.symm.trans unread
    | false => exact (read_without gone).trans told
  | skips groups items group files fault before moment told ih =>
    cases gone : faulty (.file (Path.join root group.filePath)) with
    | true =>
      refine ih.skips groups items group _ (.absent (Path.join root group.filePath))
        ⟨files, moment, rfl⟩ ?_
      simp only [FileSystem.without, gone, if_true]
    | false =>
      exact ih.skips groups items group _ fault ⟨files, moment, rfl⟩ ((read_without gone).trans told)

/-! ## Passes that fail -/

/-- A pass that walks has come so far by listings at the given moments, and one that has failed has
met a listing that breaks. -/
def Pass.HasWalked (settings : Settings α) (moments : FileSystem → Prop) (pass : Pass α) : Prop :=
  match pass.point with
  | .walking pending found => Walking settings moments pass.root pending found
  | .ended (.error fault) =>
    ∃ unborne, fault = .files unborne ∧ Walk.Breaks settings moments pass.root unborne
  | _ => True

namespace Session

variable {session shared next final : Session α} {id : TaskId} {moments : FileSystem → Prop}
  {events : List (Event α)} {request : Request α}

private theorem PassMove.hasWalked {pass after : Pass α}
    (walked : pass.HasWalked session.settings moments) (moment : moments session.files)
    (move : PassMove session id pass shared after) :
    after.HasWalked session.settings moments := by
  unfold Pass.HasWalked at walked ⊢
  cases move with
  | quiet _ move =>
    cases move with
    | finds path rest found stands =>
      rw [stands] at walked
      exact walked.finds
    | lists path rest targets found stands listed =>
      rw [stands] at walked
      exact walked.lists path rest targets found session.files moment listed
    | _ => exact trivial
  | fails path rest found fault stands listed =>
    rw [stands] at walked
    obtain ⟨told, unborne⟩ := listTargets_eq_error_iff.mp listed
    exact ⟨fault, rfl, .at path rest found session.files fault walked moment told unborne⟩
  | _ => exact trivial

/-- All passes have walked at the given moments, now being one of them. -/
structure Walks (moments : FileSystem → Prop) (session : Session α) : Prop where
  moment : moments session.files
  passes : ∀ number pass, session.task? number = some (.pass pass) →
    pass.HasWalked session.settings moments

theorem Walks.event (walks : session.Walks moments) {event : Event α}
    (changes : ∀ files, event = .files files → moments files)
    (happened : session.after? event = some next) : next.Walks moments := by
  obtain ⟨settings, -⟩ := after?_world happened
  cases after?_move happened with
  | call =>
    exact ⟨walks.moment, fun number pass stands => walks.passes number pass (pass_of_call stands)⟩
  | step id _ move =>
    refine ⟨move.world.files ▸ walks.moment, ?_⟩
    rw [settings]
    exact move.passes (fun root => Walking.start) (fun pass message walked => walked)
      (fun pass shared after walked step => step.hasWalked walked walks.moment) walks.passes
  | leave => exact ⟨walks.moment, walks.passes⟩
  | files files => exact ⟨changes files rfl, walks.passes⟩
  | time => exact ⟨walks.moment, walks.passes⟩

theorem IsNew.walks (new : session.IsNew) (moment : moments session.files) :
    session.Walks moments := by
  refine ⟨moment, ?_⟩
  intro number pass stands
  rw [new.task?] at stands
  cases stands

end Session

/-! ## Calls and what they meet -/

/-- What holds of a call at its place: it waits for a pass over its project, what it shows is of
groups that were found, and if it has failed, a fault has reached it. -/
def CallPoint.Bears (session : Session α) (moments : FileSystem → Prop)
    (found : ContextWish → List (FileHits α) → Prop) (request : Request α) : CallPoint α → Prop
  | .awaitingPass number _ =>
    ∃ pass, session.task? number = some (.pass pass) ∧ request.IsAbout pass.root
  | .reading wish groups items =>
    ∃ done, found wish (done ++ groups) ∧
      ShowsGroups session.settings moments wish.root done items
  | .carrying wish content group groups items =>
    (∃ files, moments files ∧ files.read (Path.join wish.root group.filePath) = content) ∧
      ∃ done, found wish (done ++ group :: groups) ∧
        ShowsGroups session.settings moments wish.root done items
  | .ended (.ok (.shown items)) =>
    ∃ wish groups, request.Wishes wish ∧ found wish groups ∧
      ShowsGroups session.settings moments wish.root groups items
  | .ended (.error fault) =>
    ∃ unborne, fault = .files unborne ∧ request.IsReachedBy session.settings moments unborne
  | _ => True

namespace Session

variable {session shared next final : Session α} {id : TaskId} {moments : FileSystem → Prop}
  {events : List (Event α)} {request : Request α}
  {found : ContextWish → List (FileHits α) → Prop}

private theorem IndexMove.enters {root : String} {force : Bool} {number : TaskId}
    (met : IndexMove session root force shared (.waits number)) :
    shared.inFlight.get? root = some number := by
  cases met with
  | joined _ entered => exact entered
  | started => exact (OrderedMap.get?_insert _ _ _ _).trans (if_pos rfl)

private theorem CallMove.enters {point : CallPoint α} {number : TaskId} {after : AfterPass}
    (serves : point.IsOf request)
    (move : CallMove session id point shared (.awaitingPass number after)) :
    ∃ root, request.IsAbout root ∧ shared.inFlight.get? root = some number := by
  cases move with
  | quiet _ _ move =>
    cases move with
    | awaits path filePath root _ accepted entered =>
      cases serves
      exact ⟨root, .updates _ _ (.update path filePath root accepted), entered⟩
  | indexes path force root _ _ accepted met =>
    cases serves
    exact ⟨root, .asks _ _ (.index path force root accepted), met.enters⟩
  | contextWaits query path limit wish _ _ accepted met =>
    cases serves
    exact ⟨wish.root, .asks _ _ (.context query path limit wish accepted), met.enters⟩

private theorem inside_of_valid (valid : request.IsValid) {update : Update}
    (asks : request.AsksUpdate update) :
    ∃ file, update.filePath.filePath = .ok file ∧ leadsOut (relativePath update.root
      (Path.normalize (Path.join update.root file))) = false := by
  cases asks with
  | update path filePath root accepted =>
    obtain ⟨root', file, accepted', given, inside⟩ := valid
    cases accepted.symm.trans accepted'
    exact ⟨file, given, inside⟩

private theorem GivesUp.bears {point : CallPoint α} {outcome : Outcome α}
    (moment : moments session.files) (valid : request.IsValid) (serves : point.IsOf request)
    (reason : GivesUp session point outcome) (later : Session α) :
    (CallPoint.ended outcome).Bears later moments found request := by
  cases reason with
  | notText update fault refused =>
    obtain ⟨file, given, -⟩ := inside_of_valid valid serves
    cases refused.symm.trans given
  | notIndexed => exact trivial
  | outside update filePath given leads =>
    obtain ⟨file, given', inside⟩ := inside_of_valid valid serves
    cases given.symm.trans given'
    cases leads.symm.trans inside
  | sizeFault target fault told =>
    obtain ⟨update, asks, leads⟩ := serves
    exact ⟨fault, rfl, .sizing update target session.files fault asks leads moment told⟩
  | dropped => exact trivial

private theorem CallMove.bears {point after : CallPoint α} (walks : session.Walks moments)
    (current : (shared.setCall id after).Current) (valid : request.IsValid)
    (serves : point.IsOf request) (bears : point.Bears session moments found request)
    (finds : ∀ wish, point = .searching wish → found wish
      (groupByFile (session.search wish.query (contextOptions wish)).1 wish.limit))
    (move : CallMove session id point shared after) :
    after.Bears (shared.setCall id after) moments found request := by
  -- where the call begins to wait, the table tells over which project the pass is
  have waits : ∀ number next, after = .awaitingPass number next →
      after.Bears (shared.setCall id after) moments found request := by
    rintro number next rfl
    obtain ⟨root, about, entered⟩ := move.enters serves
    obtain ⟨pass, stands, rfl, -⟩ := current root number entered
    exact ⟨pass, stands, about⟩
  cases move with
  | quiet _ _ move =>
    cases move with
    | refused request fault _ invalid =>
      cases serves
      exact absurd valid invalid
    | awaits => exact waits _ _ rfl
    | failedWith number _ fault outcome =>
      obtain ⟨pass, stands, about⟩ := bears
      obtain ⟨other, there, point⟩ := passOutcome?_eq_some_iff.mp outcome
      cases stands.symm.trans there
      have walked := walks.passes number pass stands
      simp only [Pass.HasWalked, point] at walked
      obtain ⟨unborne, rfl, breaks⟩ := walked
      exact ⟨unborne, rfl, .listing pass.root unborne about breaks⟩
    | shown wish items =>
      obtain ⟨done, found, shows⟩ := bears
      rw [List.append_nil] at found
      exact ⟨wish, done, serves, found, shows⟩
    | reads wish group groups items => exact ⟨⟨session.files, walks.moment, rfl⟩, bears⟩
    | takes wish content group groups items =>
      obtain ⟨⟨files, moment, told⟩, done, found, shows⟩ := bears
      rw [List.append_cons] at found
      exact ⟨done ++ [group], found, shows.shows done items group files content moment told⟩
    | skips wish fault group groups items =>
      obtain ⟨⟨files, moment, told⟩, done, found, shows⟩ := bears
      rw [List.append_cons] at found
      exact ⟨done ++ [group], found, shows.skips done items group files fault moment told⟩
    | breaksOff wish fault group groups items noText unborne =>
      obtain ⟨⟨files, moment, told⟩, -⟩ := bears
      exact ⟨fault, rfl, .reading wish group.filePath files fault serves moment told noText unborne⟩
    | _ => exact trivial
  | indexes => exact waits _ _ rfl
  | contextWaits => exact waits _ _ rfl
  | gaveUp _ _ reason => exact reason.bears walks.moment valid serves _
  | finds wish => exact ⟨[], finds wish rfl, .none⟩
  | _ => exact trivial

/-- A call that serves a request with valid arguments, wherever it stands. -/
structure Bears (moments : FileSystem → Prop) (found : ContextWish → List (FileHits α) → Prop)
    (request : Request α) (id : TaskId) (session : Session α) : Prop where
  walks : session.Walks moments
  tabled : session.Tabled
  current : session.Current
  call : ∃ point, session.task? id = some (.call point) ∧ point.IsOf request ∧
    point.Bears session moments found request

private theorem bears_kept {point : CallPoint α} (bears : point.Bears session moments found request)
    {event : Event α} (happened : session.after? event = some next) :
    point.Bears next moments found request := by
  obtain ⟨settings, -⟩ := after?_world happened
  unfold CallPoint.Bears at bears ⊢
  rw [settings]
  split at bears
  · next number after =>
    obtain ⟨pass, stood, about⟩ := bears
    cases after?_move happened with
    | call other => exact ⟨pass, task?_call_of stood other, about⟩
    | step mover _ move =>
      obtain ⟨later, stands, root, -⟩ := move.pass_stays stood
      exact ⟨later, stands, root ▸ about⟩
    | leave => exact ⟨pass, stood, about⟩
    | files => exact ⟨pass, stood, about⟩
    | time => exact ⟨pass, stood, about⟩
  all_goals exact bears

theorem Bears.event (bears : session.Bears moments found request id) (valid : request.IsValid)
    {event : Event α} (changes : ∀ files, event = .files files → moments files)
    (finds : ∀ wish, session.task? id = some (.call (.searching wish)) → found wish
      (groupByFile (session.search wish.query (contextOptions wish)).1 wish.limit))
    (happened : session.after? event = some next) : next.Bears moments found request id := by
  have current := bears.current.event bears.tabled happened
  refine ⟨bears.walks.event changes happened, bears.tabled.event happened, current, ?_⟩
  obtain ⟨point, stood, serves, holds⟩ := bears.call
  rcases after?_call stood happened with ⟨-, after, shared, step, rfl, there⟩ | ⟨-, stays⟩
  · refine ⟨after, there, step.isOf serves, ?_⟩
    refine step.bears bears.walks current valid serves holds ?_
    rintro wish rfl
    exact finds wish stood
  · exact ⟨point, stays, serves, bears_kept holds happened⟩

private theorem IsNew.bears_of_run {before : Session α} {earlier later : List (Event α)}
    (new : session.IsNew) (reached : session.replay? earlier = some before)
    (run : before.replay? (.call request :: later) = some final) (valid : request.IsValid)
    (found : ContextWish → List (FileHits α) → Prop)
    (finds : ∀ waiting searched wish, waiting <+: .call request :: later →
      before.replay? waiting = some searched →
      searched.task? before.tasks.length = some (.call (.searching wish)) →
      found wish (groupByFile (searched.search wish.query (contextOptions wish)).1 wish.limit)) :
    final.Bears (session.InForce (earlier ++ .call request :: later)) found request
      before.tasks.length := by
  have walks : before.Walks (session.InForce (earlier ++ .call request :: later)) := by
    refine replay?_keeps ?_ (new.walks (.inl rfl)) reached
    intro current event next member walks happened
    refine walks.event ?_ happened
    rintro files rfl
    exact .inr (List.mem_append.mpr (.inl member))
  rw [replay?] at run
  obtain ⟨begun, called, rest⟩ := Option.bind_eq_some_iff.mp run
  have begins := replay?_concat reached called
  have start : begun.Bears (session.InForce (earlier ++ .call request :: later)) found request
      before.tasks.length := by
    refine ⟨walks.event (by rintro files ⟨⟩) called, new.tabled_of_run begins,
      new.current_of_run begins, ?_⟩
    cases called
    exact ⟨_, (task?_call _ _ _).trans (if_pos rfl), rfl, trivial⟩
  refine replay?_keeps_prefix ?_ start rest
  intro past current event next isPrefix went bears happened
  have isPrefixAll : past <+: later := (List.prefix_append past [event]).trans isPrefix
  refine bears.event valid ?_ ?_ happened
  · rintro files rfl
    have member : .files files ∈ later := isPrefix.subset (by simp)
    exact .inr (by simp [member])
  · intro wish searching
    exact finds (.call request :: past) current wish (List.cons_prefix_cons.mpr ⟨rfl, isPrefixAll⟩)
      (replay?_cons called went) searching

/-- A call with valid arguments returns, and faults of files are no reason why it fails, but for
those that reach it. Whatever files cannot be read and whatever directories cannot be listed, the
snapshot is one of the other files alone, and so is the context that is shown. -/
theorem calls_bear_faulty_files {before : Session α} {earlier later : List (Event α)}
    (new : session.IsNew) (reached : session.replay? earlier = some before)
    (run : before.replay? (.call request :: later) = some final) (valid : request.IsValid)
    (deep : final.files.HasDepth) (reads : 1 ≤ final.settings.fileReadBatchSize)
    (embeddings : 1 ≤ final.settings.embeddingBatchSize) :
    (final.Inevitable fun ended =>
      (∃ answer, ended.outcome? before.tasks.length = some (.ok answer)) ∨
        ∃ fault, ended.outcome? before.tasks.length = some (.error (.files fault)) ∧
          request.IsReachedBy final.settings
            (session.InForce (earlier ++ .call request :: later)) fault) ∧
    ∀ faulty : Target → Bool,
      (∀ files, session.InForce (earlier ++ .call request :: later) files → files.FailsAt faulty) →
      final.ShowsWhole final.settings final.embedder
        (HealthyPart faulty (session.InForce (earlier ++ .call request :: later))) ∧
      ∀ items, final.outcome? before.tasks.length = some (.ok (.shown items)) →
        ∃ wish waiting searched, request.Wishes wish ∧ waiting <+: .call request :: later ∧
          before.replay? waiting = some searched ∧
          searched.task? before.tasks.length = some (.call (.searching wish)) ∧
          ShowsGroups final.settings
            (HealthyPart faulty (session.InForce (earlier ++ .call request :: later))) wish.root
            (groupByFile (searched.search wish.query (contextOptions wish)).1 wish.limit) items := by
  have whole : session.replay? (earlier ++ .call request :: later) = some final :=
    replay?_trans reached run
  refine ⟨?_, fun faulty fails => ⟨?_, ?_⟩⟩
  · have bears : final.Bears (session.InForce (earlier ++ .call request :: later))
        (fun _ _ => True) request before.tasks.length :=
      new.bears_of_run reached run valid _ fun _ _ _ _ _ _ => trivial
    obtain ⟨point, stands, -⟩ := bears.call
    refine (new.calls_return whole deep reads embeddings stands).imp
      (fun current => current.settings = final.settings ∧
        current.Bears (session.InForce (earlier ++ .call request :: later)) (fun _ _ => True)
          request before.tasks.length) ?_ ⟨rfl, bears⟩ ?_
    · rintro current next ⟨settings, bears⟩ ⟨mover, happened | happened⟩
      all_goals
        exact ⟨(after?_world happened).1.trans settings,
          bears.event valid (by rintro files ⟨⟩) (fun _ _ => trivial) happened⟩
    · rintro ended ⟨settings, bears⟩ ⟨outcome, told⟩
      obtain ⟨point, there, -, holds⟩ := bears.call
      cases (task?_of_outcome told).symm.trans there
      cases outcome with
      | ok answer => exact .inl ⟨answer, told⟩
      | error fault =>
        obtain ⟨unborne, rfl, reached⟩ := holds
        exact .inr ⟨unborne, told, settings ▸ reached⟩
  · intro snapshot current
    exact (new.showsWhole_of_run whole snapshot current).without fails
  · intro items told
    have bears := new.bears_of_run reached run valid (fun wish groups => ∃ waiting searched,
      waiting <+: .call request :: later ∧ before.replay? waiting = some searched ∧
      searched.task? before.tasks.length = some (.call (.searching wish)) ∧
      groups = groupByFile (searched.search wish.query (contextOptions wish)).1 wish.limit)
      fun waiting searched wish isPrefix went searching =>
        ⟨waiting, searched, isPrefix, went, searching, rfl⟩
    obtain ⟨point, there, -, holds⟩ := bears.call
    cases (task?_of_outcome told).symm.trans there
    obtain ⟨wish, groups, wishes, ⟨waiting, searched, isPrefix, went, searching, rfl⟩, shows⟩ := holds
    exact ⟨wish, waiting, searched, wishes, isPrefix, went, searching, shows.without fails⟩

/-- A project whose one file cannot be read. -/
def unreadableVolume : Volume :=
  Volume.write {} "/p/a.py" ⟨.error (.broken "broken"), some 20⟩

/-- Another file is written beside it. -/
def besideUnreadable : Volume :=
  unreadableVolume.write "/p/b.py" (.ofText "def run():\n    pass\n")

/-- The project is indexed, and the other file is written. -/
def indexesUnreadable : List (Event Float) :=
  [.call (.index (.given "/p") false), .step 0] ++ List.replicate 4 (.step 1) ++
    List.replicate 3 (.step 2) ++ List.replicate 7 (.step 1) ++
    [.step 0, .leave 1, .files besideUnreadable.fileSystem]

private theorem failsAt_unreadable {files : FileSystem}
    (known : files = unreadableVolume.fileSystem ∨ files = besideUnreadable.fileSystem) :
    files.FailsAt fun target => decide (target = .file "/p/a.py") := by
  refine ⟨?_, ?_⟩
  · intro path faulty
    obtain rfl : path = "/p/a.py" := by simpa using faulty
    refine ⟨.broken "broken", ?_⟩
    rcases known with rfl | rfl <;> decide +kernel
  · intro path faulty
    simp at faulty

/-- An update of the other file. -/
def updateOther : Request Float := .update (.given "/p") (.given "b.py")

/-- All that happens to the session of the unreadable file, when the update goes on to its end. -/
def updatesOther : List (Event Float) :=
  indexesUnreadable ++ .call updateOther :: List.replicate 12 (.step 3)

/-- The project of the unreadable file is indexed, and an update takes the other file in. -/
theorem update_beside_unreadable_file_returns :
    ∃ before final : Session Float,
      (opened {} unreadableVolume.fileSystem 0).replay? indexesUnreadable = some before ∧
      before.replay? (.call updateOther :: List.replicate 12 (.step 3)) = some final ∧
      (final.Inevitable fun ended => (∃ answer, ended.outcome? 3 = some (.ok answer)) ∨
        ∃ fault, ended.outcome? 3 = some (.error (.files fault)) ∧
          updateOther.IsReachedBy final.settings
            ((opened {} unreadableVolume.fileSystem 0).InForce updatesOther) fault) ∧
      (final.snapshot.map fun snapshot => snapshot.files.keys) = some ["b.py"] ∧
      final.ShowsWhole final.settings final.embedder
        (HealthyPart (fun target => decide (target = .file "/p/a.py"))
          ((opened {} unreadableVolume.fileSystem 0).InForce updatesOther)) := by
  have ran : (((opened {} unreadableVolume.fileSystem (0 : Float)).replay? indexesUnreadable).bind
      fun before => if before.tasks.length = 3 then
        (before.replay? (.call updateOther :: List.replicate 12 (.step 3))).filter fun final =>
          decide ((final.snapshot.map fun snapshot => snapshot.files.keys) = some ["b.py"])
        else none).isSome = true := by decide +kernel
  obtain ⟨final, ran⟩ := Option.isSome_iff_exists.mp ran
  obtain ⟨before, reached, ran⟩ := Option.bind_eq_some_iff.mp ran
  obtain ⟨three, ran⟩ := Option.ite_none_right_eq_some.mp ran
  obtain ⟨run, keys⟩ := Option.filter_eq_some_iff.mp ran
  have whole : (opened {} unreadableVolume.fileSystem (0 : Float)).replay? updatesOther =
      some final := replay?_trans reached run
  have settings : final.settings = {} := (replay?_world whole).1
  have valid : updateOther.IsValid := ⟨"/p", "b.py", by decide +kernel, rfl, by decide +kernel⟩
  have known : ∀ files, (opened {} unreadableVolume.fileSystem (0 : Float)).InForce updatesOther
      files → files = unreadableVolume.fileSystem ∨ files = besideUnreadable.fileSystem := by
    intro files inForce
    simpa [InForce, updatesOther, indexesUnreadable, opened] using inForce
  have deep : final.files.HasDepth := by
    rcases known _ (inForce_of_run _ whole) with same | same
    all_goals
      rw [same]
      exact Volume.IsTidy.hasDepth (by decide +kernel)
  obtain ⟨returns, healthy⟩ := calls_bear_faulty_files
    (opened_isNew {} unreadableVolume.fileSystem 0) reached run valid deep
    (by rw [settings]; decide) (by rw [settings]; decide)
  obtain ⟨shown, -⟩ := healthy _ fun files inForce => failsAt_unreadable (known files inForce)
  rw [three] at returns
  exact ⟨before, final, reached, run, returns, of_decide_eq_true keys, shown⟩

/-- A directory that fails for another reason than that the system refuses makes the index of its
whole project fail, though the arguments are valid. -/
theorem broken_directory_reaches_the_caller :
    ∃ final : Session Float,
      (opened {} (Volume.makeDirectory {} "/p/sub" (some (.broken "broken"))).fileSystem 0).replay?
        [.call (.index (.given "/p") false), .step 0, .step 1, .step 1, .step 0] = some final ∧
      (Request.index (α := Float) (.given "/p") false).IsValid ∧
      final.outcome? 0 = some (.error (.files (.broken "broken"))) := by
  have reached : (((opened {}
      (Volume.makeDirectory {} "/p/sub" (some (.broken "broken"))).fileSystem (0 : Float)).replay?
        [.call (.index (.given "/p") false), .step 0, .step 1, .step 1, .step 0]).filter fun final =>
          decide (final.fault? 0 = some (.files (.broken "broken")))).isSome = true := by
    decide +kernel
  obtain ⟨final, reached⟩ := Option.isSome_iff_exists.mp reached
  obtain ⟨run, told⟩ := Option.filter_eq_some_iff.mp reached
  exact ⟨final, run, ⟨"/p", by decide +kernel⟩, outcome?_of_fault? (of_decide_eq_true told)⟩

end Session

end CodeSearch
