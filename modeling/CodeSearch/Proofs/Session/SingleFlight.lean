import CodeSearch.Proofs.Session.CachedAnswers
import CodeSearch.Proofs.Session.Progress
import CodeSearch.Proofs.Session.Requests

/-! # Passes are shared

A project has at most one pass that has not ended. A call that asks for the index of a project while
a pass over it is entered starts none, and returns what that pass returns. A pass that has ended,
well or not, leaves the table with no entry but its own, and the next request that needs a pass
starts another.
-/

namespace CodeSearch

variable {α : Type} [Scalar α]

namespace Session

variable {session shared next : Session α} {id number : TaskId} {root : String} {force : Bool}
  {request : Request α} {after : AfterPass}

/-- A call starts a pass over a project, enters it and waits for it. -/
structure StartsPass (session : Session α) (id : TaskId) (root : String) (after : AfterPass)
    (begun : Session α) : Prop where
  started : begun.tasks.length = session.tasks.length + 1
  pass : begun.task? session.tasks.length = some (.pass (.start session.settings root))
  entered : begun.inFlight.get? root = some session.tasks.length
  waits : begun.task? id = some (.call (.awaitingPass session.tasks.length after))

/-- A call has an outcome, or comes to it with its next step. -/
def EndsWith (session : Session α) (id : TaskId) (outcome : Outcome α) : Prop :=
  session.outcome? id = some outcome ∨
    ∃ next, session.after? (.step id) = some next ∧ next.outcome? id = some outcome

/-- A call shares a pass that is there. It waits until the pass has ended, it fails as the pass has
failed, a request for the index returns the report of the pass, and the call starts nothing. -/
structure Shares (session : Session α) (id number : TaskId) (after : AfterPass) : Prop where
  waits : session.passOutcome? number = none →
    session.task? id = some (.call (.awaitingPass number after))
  fails : ∀ fault, session.passOutcome? number = some (.error fault) →
    session.EndsWith id (.error fault)
  returns : ∀ report, session.passOutcome? number = some (.ok report) → after = .report →
    session.EndsWith id (.ok (.indexed report))
  startsNone : ∀ next, session.after? (.step id) = some next →
    next.tasks.length = session.tasks.length

/-- How passes are started, shared and taken out of the table. -/
structure SharesPasses (session : Session α) : Prop where
  single : ∀ first second (one other : Pass α), session.task? first = some (.pass one) →
    session.task? second = some (.pass other) → ¬ one.IsEnded → ¬ other.IsEnded →
    one.root = other.root → first = second
  /-- A request for an index joins the pass that is in flight if there is no snapshot. -/
  shared : ∀ id request root force after number,
    session.task? id = some (.call (.made request)) → session.Indexes request root force after →
    session.inFlight.get? root = some number → session.snapshotOf root = none →
    ∃ begun, session.after? (.step id) = some begun ∧ begun.tasks.length = session.tasks.length ∧
      ∀ later final, begun.replay? later = some final → final.Shares id number after
  /-- When a pass has left the table, a request that no fresh snapshot answers starts another,
  unless a later pass is in flight by then. -/
  renewed : ∀ number pass id request force after,
    session.task? number = some (.pass pass) → session.inFlight.get? pass.root ≠ some number →
    session.task? id = some (.call (.made request)) →
    session.Indexes request pass.root force after →
    (∀ snapshot, session.snapshotOf pass.root = some snapshot →
      force = true ∨ ¬ snapshot.isFresh session.now session.settings.stalenessSeconds) →
    (∃ begun, session.after? (.step id) = some begun ∧
        session.StartsPass id pass.root after begun) ∨
      ∃ later, number < later ∧ session.inFlight.get? pass.root = some later
  /-- Whatever is entered is a pass over the project, which can leave as soon as it has ended. -/
  entries : ∀ root number, session.inFlight.get? root = some number →
    ∃ pass, session.task? number = some (.pass pass) ∧ pass.root = root ∧
      (pass.IsEnded → ∃ next, session.after? (.leave number) = some next)
  leaves : ∀ number next, session.after? (.leave number) = some next → ∀ root entry,
    next.inFlight.get? root = some entry ↔
      session.inFlight.get? root = some entry ∧ entry ≠ number

/-- A pass that has ended stays as it ended, whatever happens. -/
theorem passOutcome?_keeps {ended : Except CallFault PassReport} {event : Event α}
    (told : session.passOutcome? id = some ended) (happened : session.after? event = some next) :
    next.passOutcome? id = some ended := by
  obtain ⟨pass, stood, point⟩ := passOutcome?_eq_some_iff.mp told
  refine passOutcome?_eq_some_iff.mpr ?_
  cases after?_move happened with
  | call request => exact ⟨pass, task?_call_of stood request, point⟩
  | step other _ move =>
    obtain ⟨after, stands, -, same⟩ := move.ended_stays stood point
    exact ⟨after, stands, same⟩
  | leave => exact ⟨pass, stood, point⟩
  | files => exact ⟨pass, stood, point⟩
  | time => exact ⟨pass, stood, point⟩

/-! ## Sharing -/

/-- A call waits for a pass, or the pass has ended and the call has gone on from there. -/
inductive HasJoined (session : Session α) (id number : TaskId) (after : AfterPass) : Prop where
  | waits (stands : session.task? id = some (.call (.awaitingPass number after)))
  | told (ended : Except CallFault PassReport) (point : CallPoint α)
      (outcome : session.passOutcome? number = some ended)
      (stands : session.task? id = some (.call point)) (begun : ∀ request, point ≠ .made request)
      (fails : ∀ fault, ended = .error fault → point = .ended (.error fault))
      (returns : ∀ report, ended = .ok report → after = .report →
        point = .ended (.ok (.indexed report)))

private theorem CallMove.told {point : CallPoint α}
    (move : CallMove session id (.awaitingPass number after) shared point) :
    ∃ ended, session.passOutcome? number = some ended ∧
      (∀ fault, ended = .error fault → point = .ended (.error fault)) ∧
      ∀ report, ended = .ok report → after = .report → point = .ended (.ok (.indexed report)) := by
  cases move with
  | quiet _ _ move =>
    cases move with
    | failedWith _ _ fault outcome => exact ⟨_, outcome, by rintro _ ⟨⟩; rfl, nofun⟩
    | reported _ report outcome => exact ⟨_, outcome, nofun, by rintro _ ⟨⟩ -; rfl⟩
    | updates _ _ _ outcome => exact ⟨_, outcome, nofun, nofun⟩
    | serves _ _ _ outcome => exact ⟨_, outcome, nofun, nofun⟩
  | gaveUp _ _ reason => cases reason

theorem HasJoined.event (joined : session.HasJoined id number after) {event : Event α}
    (happened : session.after? event = some next) : next.HasJoined id number after := by
  cases joined with
  | waits stands =>
    rcases after?_call stands happened with ⟨rfl, point, shared, move, -, there⟩ | ⟨-, stays⟩
    · obtain ⟨ended, outcome, fails, returns⟩ := move.told
      refine .told ended point (passOutcome?_keeps outcome happened) there ?_ fails returns
      rintro request rfl
      cases (step?_move happened).request_made there |>.symm.trans stands
    · exact .waits stays
  | told ended point outcome stands begun fails returns =>
    have outcome := passOutcome?_keeps outcome happened
    rcases after?_call stands happened with ⟨rfl, point, shared, move, -, there⟩ | ⟨-, stays⟩
    · refine .told ended _ outcome there ?_ ?_ ?_
      · rintro request rfl
        cases (step?_move happened).request_made there |>.symm.trans stands
        exact begun request rfl
      · exact fun fault failed => absurd (fails fault failed) (move.running _)
      · exact fun report ok reports => absurd (returns report ok reports) (move.running _)
    · exact .told ended point outcome stays begun fails returns

private theorem length_of_begun {point : CallPoint α}
    (stands : session.task? id = some (.call point)) (begun : ∀ request, point ≠ .made request)
    (happened : session.after? (.step id) = some next) :
    next.tasks.length = session.tasks.length := by
  obtain ⟨-, point, shared, move, rfl, -⟩ | ⟨other, -⟩ := after?_call stands happened
  · cases move.asks with
    | nothing _ _ tasks => simp [setCall, setTask, tasks]
    | asks request => exact absurd rfl (begun request)
  · exact absurd rfl other

private theorem after?_awaitingPass {ended : Except CallFault PassReport} {outcome : Outcome α}
    (stands : session.task? id = some (.call (.awaitingPass number after)))
    (told : session.passOutcome? number = some ended)
    (ends : ∀ next point, CallMove session id (.awaitingPass number after) next point →
      point = .ended outcome) : session.EndsWith id outcome := by
  have free : ¬ session.Blocks id (.awaitingPass number after) := by simp [Blocks, told]
  obtain ⟨next, step⟩ := stepCall_isSome free
  have happened : session.after? (.step id) = some next := by
    simp only [after?, step?, stands, step]
  refine .inr ⟨next, happened, ?_⟩
  obtain ⟨-, point, shared, move, -, there⟩ | ⟨other, -⟩ := after?_call stands happened
  · rw [outcome?, there, ends _ _ move]
  · exact absurd rfl other

theorem HasJoined.shares (joined : session.HasJoined id number after) :
    session.Shares id number after := by
  cases joined with
  | waits stands =>
    refine ⟨fun _ => stands, ?_, ?_, fun next => length_of_begun stands (by simp)⟩
    · intro fault failed
      refine after?_awaitingPass stands failed fun next point move => ?_
      obtain ⟨ended, outcome, fails, -⟩ := move.told
      cases failed.symm.trans outcome
      exact fails fault rfl
    · intro report ok reports
      refine after?_awaitingPass stands ok fun next point move => ?_
      obtain ⟨ended, outcome, -, returns⟩ := move.told
      cases ok.symm.trans outcome
      exact returns report rfl reports
  | told ended point outcome stands begun fails returns =>
    refine ⟨?_, ?_, ?_, fun next => length_of_begun stands begun⟩
    · intro running
      cases running.symm.trans outcome
    · intro fault failed
      cases failed.symm.trans outcome
      exact .inl (by rw [outcome?, stands, fails fault rfl])
    · intro report ok reports
      cases ok.symm.trans outcome
      exact .inl (by rw [outcome?, stands, returns report rfl reports])

private theorem Indexes.joins (asks : session.Indexes request root force after)
    (stands : session.task? id = some (.call (.made request)))
    (entered : session.inFlight.get? root = some number) (absent : session.snapshotOf root = none) :
    ∃ begun, session.after? (.step id) = some begun ∧ begun.tasks.length = session.tasks.length ∧
      begun.task? id = some (.call (.awaitingPass number after)) := by
  obtain ⟨kept, same, waits⟩ := begin_waits asks id
  refine ⟨_, after?_made stands, ?_⟩
  have met := requestIndex_move { session with snapshot := kept } root force
  generalize given : requestIndex { session with snapshot := kept } root force = start at met
  obtain ⟨shared, answer⟩ := start
  cases met with
  | served snapshot current => cases absent.symm.trans (same.symm.trans current)
  | joined pass here =>
    cases entered.symm.trans here
    rw [waits _ _ given]
    refine ⟨by simp [setCall, setTask], ?_⟩
    exact (task?_setTask _ _ _ _ (lt_of_task? stands)).trans (if_pos rfl)
  | started free => cases entered.symm.trans free

private theorem Indexes.starts (asks : session.Indexes request root force after)
    (stands : session.task? id = some (.call (.made request)))
    (free : session.inFlight.get? root = none)
    (stale : ∀ snapshot, session.snapshotOf root = some snapshot →
      force = true ∨ ¬ snapshot.isFresh session.now session.settings.stalenessSeconds) :
    ∃ begun, session.after? (.step id) = some begun ∧ session.StartsPass id root after begun := by
  obtain ⟨kept, same, waits⟩ := begin_waits asks id
  refine ⟨_, after?_made stands, ?_⟩
  have met := requestIndex_move { session with snapshot := kept } root force
  generalize given : requestIndex { session with snapshot := kept } root force = start at met
  obtain ⟨shared, answer⟩ := start
  cases met with
  | served snapshot current reason =>
    rcases reason with ⟨unforced, fresh⟩ | entered
    · rcases stale snapshot (same.symm.trans current) with forced | notFresh
      · cases unforced.symm.trans forced
      · exact absurd fresh notFresh
    · change (session.inFlight.get? root).isSome = true at entered
      rw [free] at entered
      cases entered
  | joined pass entered => cases free.symm.trans entered
  | started =>
    rw [waits _ _ given]
    have before := lt_of_task? stands
    have present : id < (({ session with snapshot := kept, requestedRoot := some root } :
        Session α).startPass root).1.tasks.length := by
      simp only [startPass, start, List.length_append]
      exact Nat.lt_add_right _ before
    refine ⟨by simp [setCall, setTask, start], ?_, ?_, ?_⟩
    · refine (task?_setTask _ _ _ _ present).trans ?_
      rw [if_neg (Nat.ne_of_lt before)]
      exact List.getElem?_concat_length
    · exact (OrderedMap.get?_insert _ _ _ _).trans (if_pos rfl)
    · exact (task?_setTask _ _ _ _ present).trans (if_pos rfl)

/-! ## The table -/

/-- No pass over a project is later than the one that is entered for it. -/
def EntersLatest (session : Session α) : Prop :=
  ∀ id pass entry, session.task? id = some (.pass pass) →
    session.inFlight.get? pass.root = some entry → id ≤ entry

theorem IsNew.entersLatest (new : session.IsNew) : session.EntersLatest := by
  intro id pass entry stands
  rw [new.task?] at stands
  cases stands

theorem EntersLatest.move (latest : session.EntersLatest) (move : Move session id next) :
    next.EntersLatest := by
  have old : ∀ other pass entry, next.task? other = some (.pass pass) →
      session.task? other ≠ none → session.inFlight.get? pass.root = some entry →
      other ≤ entry := by
    intro other pass entry stands known entered
    rcases move.pass_origin stands with ⟨new, -⟩ | ⟨before, stood, same, -⟩
    · exact absurd new known
    · exact latest other before entry stood (same ▸ entered)
  intro other pass entry stands entered
  cases move.table with
  | kept inFlight _ known => exact old other pass entry stands (known _ _ stands) (inFlight ▸ entered)
  | ended _ _ _ _ _ _ inFlight _ known =>
    exact old other pass entry stands (known _ _ stands) (inFlight ▸ entered)
  | started project free inFlight _ _ new =>
    rw [inFlight, OrderedMap.get?_insert] at entered
    by_cases known : session.task? other = none
    · obtain ⟨rfl, same⟩ := new other pass stands known
      rw [if_pos same.symm] at entered
      exact Nat.le_of_eq (Option.some.inj entered)
    · split at entered
      · obtain ⟨task, stood⟩ := Option.ne_none_iff_exists'.mp known
        exact Option.some.inj entered ▸ Nat.le_of_lt (lt_of_task? stood)
      · exact old other pass entry stands known entered

theorem EntersLatest.event (latest : session.EntersLatest) {event : Event α}
    (happened : session.after? event = some next) : next.EntersLatest := by
  cases after?_move happened with
  | call => exact fun id pass entry stands => latest id pass entry (pass_of_call stands)
  | step id _ move => exact latest.move move
  | leave id left =>
    intro other pass entry stands entered
    refine latest other pass entry stands ?_
    change (session.inFlight.erase left.root).get? pass.root = some entry at entered
    rw [OrderedMap.get?_erase] at entered
    split at entered
    · cases entered
    · exact entered
  | files => exact latest
  | time => exact latest

private theorem Tabled.leaves (tabled : session.Tabled) (current : session.Current)
    (happened : session.after? (.leave number) = some next) (root : String) (entry : TaskId) :
    next.inFlight.get? root = some entry ↔
      session.inFlight.get? root = some entry ∧ entry ≠ number := by
  -- a pass that leaves takes its own entry, and no other one
  cases after?_move happened with
  | leave _ pass stood member =>
    obtain ⟨own, found, -, entered⟩ := tabled.leaving number member
    cases stood.symm.trans found
    change (session.inFlight.erase pass.root).get? root = some entry ↔ _
    rw [OrderedMap.get?_erase]
    split
    · next same =>
      refine iff_of_false (by simp) ?_
      rintro ⟨here, different⟩
      exact different (Option.some.inj (here.symm.trans (same ▸ entered)))
    · next different =>
      refine ⟨fun here => ⟨here, ?_⟩, And.left⟩
      rintro rfl
      obtain ⟨other, there, project, -⟩ := current root entry here
      cases stood.symm.trans there
      exact different project.symm

/-- In every state of every run, each project has at most one pass that has not ended, requests for
its index share the pass that is in flight, and a pass that has ended makes way for the next. -/
theorem passes_are_shared {events : List (Event α)} {current : Session α} (new : session.IsNew)
    (run : session.replay? events = some current) : current.SharesPasses := by
  have tabled := new.tabled_of_run run
  have entries := new.current_of_run run
  have latest := replay?_keeps (fun _ _ _ _ latest => latest.event) new.entersLatest run
  refine ⟨?_, ?_, ?_, ?_, fun number next => tabled.leaves entries⟩
  · intro first second one other standsOne standsOther runningOne runningOther same
    have entered := tabled.entered first one standsOne runningOne
    rw [same, tabled.entered second other standsOther runningOther] at entered
    exact (Option.some.inj entered).symm
  · intro id request root force after number stands asks entered absent
    obtain ⟨begun, happened, none, waits⟩ := asks.joins stands entered absent
    refine ⟨begun, happened, none, fun later final run => ?_⟩
    have joined : final.HasJoined id number after :=
      @replay?_keeps α _ (HasJoined · id number after) _ _ _
        (fun _ _ _ _ joined happened => joined.event happened) (.waits waits) run
    exact joined.shares
  · intro number pass id request force after stood left stands asks stale
    cases entered : current.inFlight.get? pass.root with
    | none => exact .inl (asks.starts stands entered stale)
    | some later =>
      refine .inr ⟨later, ?_, rfl⟩
      refine Nat.lt_of_le_of_ne (latest number pass later stood entered) ?_
      rintro rfl
      exact left entered
  · intro root number entered
    obtain ⟨pass, stands, project, leaves⟩ := entries root number entered
    refine ⟨pass, stands, project, fun ended => Option.isSome_iff_exists.mp ?_⟩
    simp [after?, leave?, stands, leaves ended]

/-- The project of a pass. -/
def passRoot? (session : Session α) (id : TaskId) : Option String :=
  match session.task? id with
  | some (.pass pass) => some pass.root
  | _ => none

private theorem exists_of_passRoot? (rooted : session.passRoot? id = some root) :
    ∃ pass, session.task? id = some (.pass pass) ∧ pass.root = root := by
  unfold passRoot? at rooted
  split at rooted
  · next pass stands => exact ⟨pass, stands, Option.some.inj rooted⟩
  · cases rooted

/-- The first steps of a request for the index of the small project. -/
def firstRequest : List (Event Float) := [.call (.index (.given "/p") false), .step 0]

/-- In a new session the first request starts a pass, whatever the project is. -/
theorem begins_of_firstRequest {session before : Session Float} (new : session.IsNew)
    (reached : session.replay? firstRequest = some before) :
    before.files = session.files ∧ before.task? 1 = some (.pass (.start before.settings "/p")) := by
  obtain ⟨_, _, _, _, _, _, _, _, _, _⟩ := session
  obtain ⟨rfl, rfl, rfl, rfl, rfl, rfl⟩ := new
  cases reached
  exact ⟨rfl, rfl⟩

/-- The listing of a directory with three files. -/
def threeEntries : List Entry :=
  [⟨"a.py", "/p/a.py", false⟩, ⟨"b.py", "/p/b.py", false⟩, ⟨"c.py", "/p/c.py", false⟩]

/-- The pass lists the directory first, and sorted entries are walked as they are listed. -/
theorem lists_of_firstRequest {session before : Session Float} (new : session.IsNew)
    (reached : session.replay? firstRequest = some before) {entries : List Entry}
    (listing : session.files.list "/p" = .ok entries)
    (sorted : entries.Pairwise fun first second => Walk.precedes first second = true) :
    before.after? (.step 1) = some (before.withListing 1 "/p"
      (entries.filterMap (Walk.target? before.settings))) := by
  obtain ⟨files, begins⟩ := begins_of_firstRequest new reached
  exact after?_of_sorted begins (files ▸ listing) sorted

/-- Every step of the pass over the small project when two requests were made before. -/
def restOfPass : List (Event Float) :=
  List.replicate 4 (.step 1) ++ List.replicate 3 (.step 3) ++ List.replicate 10 (.step 1)

/-- A second request returns the report of the pass that the first one has started, and a request
that comes when the pass has left starts another. -/
theorem small_project_has_one_pass_at_a_time :
    (∃ (asked begun final : Session Float) (report : PassReport),
      (opened {} smallProject 0).replay?
        (firstRequest ++ [.call (.index (.given "/p") true)]) = some asked ∧
      asked.after? (.step 2) = some begun ∧ begun.tasks.length = asked.tasks.length ∧
      begun.replay? restOfPass = some final ∧ final.passOutcome? 1 = some (.ok report) ∧
      final.EndsWith 2 (.ok (.indexed report))) ∧
    ∃ left begun : Session Float,
      (opened {} smallProject 0).replay?
        (firstRequest ++ [.call (.index (.given "/p") true), .step 2] ++ restOfPass ++
          [.leave 1] ++ [.call (.index (.given "/p") true)]) = some left ∧
      left.after? (.step 4) = some begun ∧ left.StartsPass 4 "/p" .report begun := by
  have accepted : (Argument.given "/p").projectPath = .ok "/p" := rfl
  constructor
  · have reached : (((opened {} smallProject (0 : Float)).replay? firstRequest).bind fun first =>
        if first.tasks.length = 2 ∧ first.inFlight.get? "/p" = some 1 ∧
            (first.snapshotOf "/p").isNone then
          (first.after? (.call (.index (.given "/p") true))).bind fun asked =>
            (asked.after? (.step 2)).bind fun begun => (begun.replay? restOfPass).bind fun final =>
              (final.passOutcome? 1).bind Except.toOption
        else none).isSome = true := by decide +kernel
    obtain ⟨report, reached⟩ := Option.isSome_iff_exists.mp reached
    obtain ⟨first, starts, reached⟩ := Option.bind_eq_some_iff.mp reached
    obtain ⟨⟨two, entered, absent⟩, reached⟩ := Option.ite_none_right_eq_some.mp reached
    obtain ⟨asked, called, reached⟩ := Option.bind_eq_some_iff.mp reached
    obtain ⟨begun, begins, reached⟩ := Option.bind_eq_some_iff.mp reached
    obtain ⟨final, run, reached⟩ := Option.bind_eq_some_iff.mp reached
    obtain ⟨ended, told, ok⟩ := Option.bind_eq_some_iff.mp reached
    have whole := replay?_concat starts called
    have stands : asked.task? 2 = some (.call (.made (.index (.given "/p") true))) := by
      cases called
      rw [task?_call, if_pos two.symm]
    obtain ⟨joined, happened, none, shares⟩ :=
      (passes_are_shared (opened_isNew {} smallProject 0) whole).shared 2 _ _ _ _ 1 stands
        (.index _ true "/p" accepted) (by cases called; exact entered)
        (by cases called; exact Option.isNone_iff_eq_none.mp absent)
    cases begins.symm.trans happened
    cases ended with
    | error fault => cases ok
    | ok =>
      cases ok
      exact ⟨asked, begun, final, report, whole, begins, none, run, told,
        (shares _ _ run).returns report told rfl⟩
  · have reached : (((opened {} smallProject (0 : Float)).replay?
        (firstRequest ++ [.call (.index (.given "/p") true), .step 2] ++ restOfPass ++
          [.leave 1])).bind fun ended =>
        (ended.passRoot? 1).bind fun root =>
          if root = "/p" ∧ ended.tasks.length = 4 ∧ (ended.inFlight.get? "/p").isNone then
            ended.after? (.call (.index (.given "/p") true))
          else none).isSome = true := by decide +kernel
    obtain ⟨left, reached⟩ := Option.isSome_iff_exists.mp reached
    obtain ⟨ended, run, reached⟩ := Option.bind_eq_some_iff.mp reached
    obtain ⟨root, rooted, reached⟩ := Option.bind_eq_some_iff.mp reached
    obtain ⟨⟨rfl, four, free⟩, called⟩ := Option.ite_none_right_eq_some.mp reached
    obtain ⟨pass, stood, project⟩ := exists_of_passRoot? rooted
    have whole := replay?_concat run called
    have free : left.inFlight.get? "/p" = none := by
      cases called
      exact Option.isNone_iff_eq_none.mp free
    have stands : left.task? 4 = some (.call (.made (.index (.given "/p") true))) := by
      cases called
      rw [task?_call, if_pos four.symm]
    have renewed := (passes_are_shared (opened_isNew {} smallProject 0) whole).renewed 1 pass 4 _ true
      .report (by cases called; exact task?_call_of stood _) (by rw [project, free]; nofun) stands
      (by rw [project]; exact .index _ true "/p" accepted) (fun _ _ => .inl rfl)
    rw [project] at renewed
    rcases renewed with ⟨begun, begins, starts⟩ | ⟨later, -, entered⟩
    · exact ⟨left, begun, whole, begins, starts⟩
    · cases free.symm.trans entered

end Session

end CodeSearch
