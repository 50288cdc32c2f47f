import CodeSearch.Proofs.Files.Inside
import CodeSearch.Proofs.Session.IncrementalIndex
import CodeSearch.Proofs.Session.LoneCalls
import CodeSearch.Proofs.Session.Termination

/-! # Updates of files outside the project

An update is refused if its project does not contain the file that it names, and for no other reason
but one: that on the way down from the project the first name begins with two dots. Any other end has
a cause of its own, which is not where the file lies: the project is not indexed, the pass for which
the update waits fails, or the size of the file is not told.
-/

namespace CodeSearch

open Loading

variable {α : Type} [Scalar α]

/-- The file that an update names is one that it refuses. -/
def IsRefused (root file : String) : Prop :=
  ¬ Path.Contains root (Path.normalize (Path.join root file)) ∨
    Path.OpensWithDots root (Path.normalize (Path.join root file))

theorem leadsOut_iff_isRefused (root file : String) :
    Session.leadsOut (relativePath root (Path.normalize (Path.join root file))) = true ↔
      IsRefused root file :=
  Path.leadsOut_relativePath_iff (Path.normalize_ne_empty _)

instance (root file : String) : Decidable (IsRefused root file) :=
  decidable_of_iff _ (leadsOut_iff_isRefused root file)

namespace Session

/-- A state of a run, its first and its last included. -/
def GoesThrough (session : Session α) (events : List (Event α)) (state : Session α) : Prop :=
  ∃ past, past <+: events ∧ session.replay? past = some state

/-- How the update of a file may end, by the states of the run. -/
inductive UpdateEnds (states : Session α → Prop) (id : TaskId) (root file : String) :
    Outcome α → Prop where
  | refused (refused : IsRefused root file) :
      UpdateEnds states id root file (.error (.outsideProject file root))
  | updated (accepted : ¬ IsRefused root file) (refreshed : Bool) :
      UpdateEnds states id root file (.ok (.updated refreshed))
  | unsized (accepted : ¬ IsRefused root file) (state : Session α) (met : states state)
      (fault : FileFault)
      (told : state.files.size (Path.normalize (Path.join root file)) = .error fault) :
      UpdateEnds states id root file (.error (.files fault))
  | notIndexed (state : Session α) (met : states state) (absent : state.snapshotOf root = none) :
      UpdateEnds states id root file (.ok (.updated false))
  | passFailed (state : Session α) (met : states state) (pass : TaskId) (next : AfterPass)
      (waits : state.task? id = some (.call (.awaitingPass pass next))) (fault : CallFault)
      (failed : state.passOutcome? pass = some (.error fault)) :
      UpdateEnds states id root file (.error fault)

/-- What is known at the place of an update: that its file is not refused, once the path has been
looked at, and what it may have come to, once it has ended. -/
def IsJudged (states : Session α → Prop) (id : TaskId) (root file : String) : CallPoint α → Prop
  | .probing _ | .loading _ _ | .embedding _ _ | .resting _ _ | .storing _ _ => ¬ IsRefused root file
  | .ended outcome => UpdateEnds states id root file outcome
  | _ => True

variable {session before shared next final : Session α} {id mover : TaskId}
  {path : Argument String} {root file : String} {states : Session α → Prop}

omit [Scalar α] in
private theorem asksUpdate_eq (accepted : path.projectPath = .ok root) {update : Update}
    (asks : (Request.update (α := α) path (.given file)).AsksUpdate update) :
    update = ⟨root, .given file⟩ := by
  cases asks with
  | update _ _ known accepted' =>
    cases accepted.symm.trans accepted'
    rfl

private theorem GivesUp.isJudged {point : CallPoint α} {outcome : Outcome α}
    (accepted : path.projectPath = .ok root) (met : states session)
    (serves : point.IsOf (.update path (.given file))) (judged : IsJudged states id root file point)
    (reason : GivesUp session point outcome) : UpdateEnds states id root file outcome := by
  cases reason with
  | notText update fault refused =>
    cases asksUpdate_eq accepted serves
    cases refused
  | notIndexed update absent =>
    cases asksUpdate_eq accepted serves
    exact .notIndexed session met absent
  | outside update filePath given leads =>
    cases asksUpdate_eq accepted serves
    cases given
    exact .refused ((leadsOut_iff_isRefused root file).mp leads)
  | sizeFault target fault told =>
    obtain ⟨update, asks, leads⟩ := serves
    cases asksUpdate_eq accepted asks
    obtain ⟨named, given, place⟩ := leads.given
    cases given
    exact .unsized judged session met fault (place ▸ told)
  | dropped => exact .updated judged false

private theorem CallMove.isJudged {point after : CallPoint α}
    (accepted : path.projectPath = .ok root) (met : states session)
    (stands : session.task? id = some (.call point))
    (serves : point.IsOf (.update path (.given file))) (judged : IsJudged states id root file point)
    (move : CallMove session id point shared after) : IsJudged states id root file after := by
  cases move with
  | quiet _ _ move =>
    cases move with
    | refused request fault reason =>
      cases serves
      cases accepted.symm.trans (reason path _ rfl)
    | failedWith pass next fault outcome =>
      exact .passFailed session met pass next stands fault outcome
    | reported => obtain ⟨_, _, same⟩ := serves; cases same
    | probes update filePath given indexed inside =>
      cases asksUpdate_eq accepted serves
      cases given
      intro refused
      cases inside.symm.trans ((leadsOut_iff_isRefused root file).mpr refused)
    | opens => exact judged
    | passesBy => exact judged
    | looks => exact judged
    | loaded => exact judged
    | notLoaded => exact judged
    | embedded => exact judged
    | embeds => exact judged
    | rested => exact judged
    | shown => cases serves
    | breaksOff => cases serves
    | awaits => exact trivial
    | goesAhead => exact trivial
    | updates => exact trivial
    | serves => exact trivial
    | entered => exact trivial
    | reads => exact trivial
    | takes => exact trivial
    | skips => exact trivial
  | answered => cases serves
  | searched => cases serves
  | cleared => cases serves
  | gaveUp _ _ reason => exact reason.isJudged accepted met serves judged
  | stored => exact .updated judged _
  | indexes => exact trivial
  | contextReady => exact trivial
  | contextServed => exact trivial
  | contextWaits => exact trivial
  | queued => exact trivial
  | finds => exact trivial

/-- An update that serves its request, wherever it stands. -/
def Judges (states : Session α → Prop) (path : Argument String) (root file : String) (id : TaskId)
    (session : Session α) : Prop :=
  ∃ point, session.task? id = some (.call point) ∧ point.IsOf (.update path (.given file)) ∧
    IsJudged states id root file point

private theorem Judges.event (judges : session.Judges states path root file id)
    (accepted : path.projectPath = .ok root) (met : states session) {event : Event α}
    (happened : session.after? event = some next) : next.Judges states path root file id := by
  obtain ⟨point, stands, serves, judged⟩ := judges
  rcases after?_call stands happened with ⟨-, after, shared, step, -, there⟩ | ⟨-, stays⟩
  · exact ⟨after, there, step.isOf serves, step.isJudged accepted met stands serves judged⟩
  · exact ⟨point, stays, serves, judged⟩

private theorem judges_of_run {later : List (Event α)} (accepted : path.projectPath = .ok root)
    (run : before.replay? (.call (.update path (.given file)) :: later) = some final) :
    final.Judges (before.GoesThrough (.call (.update path (.given file)) :: later)) path root file
      before.tasks.length := by
  rw [replay?] at run
  obtain ⟨begun, called, rest⟩ := Option.bind_eq_some_iff.mp run
  have start : begun.Judges (before.GoesThrough (.call (.update path (.given file)) :: later)) path
      root file before.tasks.length := by
    cases called
    exact ⟨_, (task?_call _ _ _).trans (if_pos rfl), rfl, trivial⟩
  refine replay?_keeps_prefix ?_ start rest
  intro past current event after isPrefix reached judges happened
  refine judges.event accepted ?_ happened
  exact ⟨_, List.cons_prefix_cons.mpr ⟨rfl, (List.prefix_append past _).trans isPrefix⟩,
    replay?_cons called reached⟩

/-! ## Updates that are not disturbed -/

/-- An update that was called for at rest, and of whose project there is an index, while no other call
is made. No pass is entered, so the update does not wait for one. -/
structure Undisturbed (before : Session α) (path : Argument String) (root file : String)
    (session : Session α) : Prop where
  lone : LoneCall before (.update path (.given file)) session
  free : ∀ project, session.inFlight.get? project = none
  indexed : ∃ snapshot, session.snapshotOf root = some snapshot
  goesOn : ∀ pass next, session.task? before.tasks.length ≠ some (.call (.awaitingPass pass next))

private theorem entered_of_awaits {point : CallPoint α} {pass : TaskId} {after : AfterPass}
    (serves : point.IsOf (.update path (.given file)))
    (move : CallMove session id point shared (.awaitingPass pass after)) :
    ∃ project, session.inFlight.get? project = some pass := by
  cases move with
  | quiet _ _ move =>
    cases move with
    | awaits _ _ project _ _ entered => exact ⟨project, entered⟩
  | indexes => cases serves
  | contextWaits => cases serves

private theorem Undisturbed.free_move (undisturbed : Undisturbed before path root file session)
    (lone : LoneCall before (.update path (.given file)) next) (move : Move session mover next)
    (project : String) : next.inFlight.get? project = none := by
  cases move.table with
  | kept inFlight => exact inFlight ▸ undisturbed.free project
  | started root _ _ _ there =>
    obtain ⟨outcome, same⟩ := lone.passes_ended there
    cases same
  | ended pass after stood running => exact absurd (undisturbed.lone.passes_ended stood) running

private theorem Undisturbed.event (undisturbed : Undisturbed before path root file session)
    {event : Event α} (alone : ∀ request, event ≠ .call request)
    (happened : session.after? event = some next) : Undisturbed before path root file next := by
  have lone := undisturbed.lone.event alone happened
  have goesOn : ∀ pass after,
      next.task? before.tasks.length ≠ some (.call (.awaitingPass pass after)) := by
    intro pass after waits
    obtain ⟨point, stands, serves⟩ := undisturbed.lone.own
    rcases after?_call stands happened with ⟨-, other, _, step, -, there⟩ | ⟨-, stays⟩
    · cases waits.symm.trans there
      obtain ⟨project, entered⟩ := entered_of_awaits serves step
      cases entered.symm.trans (undisturbed.free project)
    · cases waits.symm.trans stays
      exact undisturbed.goesOn pass after stands
  cases after?_move happened with
  | call request => exact absurd rfl (alone request)
  | step mover _ move =>
    refine ⟨lone, undisturbed.free_move lone move, ?_, goesOn⟩
    obtain ⟨snapshot, current⟩ := undisturbed.indexed
    rcases undisturbed.lone.snapshotOf_of_update move current with stays | ⟨_, _, -, stored⟩
    · exact ⟨snapshot, stays⟩
    · exact ⟨_, stored⟩
  | leave id pass =>
    refine ⟨lone, fun project => ?_, undisturbed.indexed, goesOn⟩
    change (session.inFlight.erase pass.root).get? project = none
    rw [OrderedMap.get?_erase, undisturbed.free, ite_self]
  | files => exact ⟨lone, undisturbed.free, undisturbed.indexed, goesOn⟩
  | time => exact ⟨lone, undisturbed.free, undisturbed.indexed, goesOn⟩

private theorem AtRest.undisturbed {earlier later : List (Event α)} (rest : before.AtRest)
    (new : session.IsNew) (reached : session.replay? earlier = some before)
    (indexed : ∃ snapshot, before.snapshotOf root = some snapshot)
    (alone : ∀ request, .call request ∉ later) {state : Session α}
    (met : before.GoesThrough (.call (.update path (.given file)) :: later) state) :
    (∃ snapshot, state.snapshotOf root = some snapshot) ∧
      ∀ pass next, state.task? before.tasks.length ≠ some (.call (.awaitingPass pass next)) := by
  obtain ⟨past, isPrefix, went⟩ := met
  cases past with
  | nil =>
    cases went
    refine ⟨indexed, fun pass next waits => ?_⟩
    exact absurd (lt_of_task? waits) (Nat.lt_irrefl _)
  | cons event past =>
    obtain ⟨rfl, among⟩ := List.cons_prefix_cons.mp isPrefix
    rw [replay?] at went
    obtain ⟨begun, called, onward⟩ := Option.bind_eq_some_iff.mp went
    have start : Undisturbed before path root file begun := by
      have lone := new.loneCall reached (fun id point stands => rest.tasks id _ stands) called
      cases called
      refine ⟨lone, rest.inFlight (new.current_of_run reached), indexed, ?_⟩
      intro pass next waits
      rw [task?_call, if_pos rfl] at waits
      cases waits
    have undisturbed : Undisturbed before path root file state := by
      refine replay?_keeps ?_ start onward
      rintro current event after member undisturbed happened
      refine undisturbed.event ?_ happened
      rintro request rfl
      exact alone request (among.subset member)
    exact ⟨undisturbed.indexed, undisturbed.goesOn⟩

private theorem UpdateEnds.outside_iff {outcome : Outcome α}
    (ends : UpdateEnds states id root file outcome)
    (quiet : ∀ state, states state → (∃ snapshot, state.snapshotOf root = some snapshot) ∧
      ∀ pass next, state.task? id ≠ some (.call (.awaitingPass pass next))) :
    outcome = .error (.outsideProject file root) ↔ IsRefused root file := by
  constructor
  · rintro rfl
    cases ends with
    | refused refused => exact refused
    | passFailed state met pass next waits => exact absurd waits ((quiet state met).2 pass next)
  · intro refused
    cases ends with
    | refused => rfl
    | updated inside => exact absurd refused inside
    | unsized inside => exact absurd refused inside
    | notIndexed state met absent =>
      obtain ⟨snapshot, current⟩ := (quiet state met).1
      cases absent.symm.trans current
    | passFailed state met pass next waits => exact absurd waits ((quiet state met).2 pass next)

/-- An update ends, and in one of the ways above, whatever else goes on. If it is not disturbed, it is
refused exactly if the project does not contain the file, or the first name on the way down to it
begins with two dots. Of the files that are discovered in a project at any moment, these are the ones
that lie directly in it and whose names begin with two dots. -/
theorem updates_refuse_files_outside {earlier later : List (Event α)} (new : session.IsNew)
    (reached : session.replay? earlier = some before) (accepted : path.projectPath = .ok root)
    (run : before.replay? (.call (.update path (.given file)) :: later) = some final)
    (deep : final.files.HasDepth) (reads : 1 ≤ final.settings.fileReadBatchSize)
    (embeddings : 1 ≤ final.settings.embeddingBatchSize) :
    (final.Inevitable fun ended => ∃ outcome, ended.outcome? before.tasks.length = some outcome) ∧
    (∀ outcome, final.outcome? before.tasks.length = some outcome →
      UpdateEnds (before.GoesThrough (.call (.update path (.given file)) :: later))
        before.tasks.length root file outcome) ∧
    (before.AtRest → (∃ snapshot, before.snapshotOf root = some snapshot) →
      (∀ request, .call request ∉ later) →
      ∀ outcome, final.outcome? before.tasks.length = some outcome →
        (outcome = .error (.outsideProject file root) ↔ IsRefused root file)) ∧
    ∀ (settings : Settings α) (files : FileSystem) (found : List String), files.IsRegular →
      discover settings files root = .ok found → ∀ listed ∈ found,
        (IsRefused root listed ↔ ∃ name : String, Path.IsStep name.toList ∧
          listed = Path.join root name ∧ ['.', '.'] <+: name.toList) := by
  have judges := judges_of_run accepted run
  have ends : ∀ outcome, final.outcome? before.tasks.length = some outcome →
      UpdateEnds (before.GoesThrough (.call (.update path (.given file)) :: later))
        before.tasks.length root file outcome := by
    intro outcome told
    obtain ⟨point, stands, -, judged⟩ := judges
    cases stands.symm.trans (task?_of_outcome told)
    exact judged
  refine ⟨?_, ends, ?_, ?_⟩
  · obtain ⟨point, stands, -⟩ := judges
    exact new.calls_return (replay?_trans reached run) deep reads embeddings stands
  · intro rest indexed alone outcome told
    exact (ends outcome told).outside_iff fun state met =>
      rest.undisturbed new reached indexed alone met
  · intro settings files found regular discovered listed member
    obtain ⟨same, inside, dots⟩ :=
      Walk.inside_of_discover regular (projectPath_eq_absolute accepted) discovered member
    rw [IsRefused, same, dots, or_iff_right (not_not.mpr inside)]

/-- A project with a file whose name begins with two dots. -/
def dottedProject : FileSystem :=
  (Volume.write {} "/p/..a.py" (.ofText "def run():\n    pass\n")).fileSystem

/-- The project is indexed. -/
def indexDotted : List (Event Float) := .call (.index (.given "/p") false) :: passOverOneFile

private theorem discover_dottedProject :
    discover ({} : Settings Float) dottedProject "/p" = .ok ["/p/..a.py"] := by
  decide +kernel

/-- An update of a file beside the project, in a directory whose name begins with that of the
project. -/
def updateBeside : List (Event Float) :=
  .call (.update (.given "/p") (.given "../pq/a.py")) :: List.replicate 4 (.step 3)

theorem file_beside_dotted_project_is_refused :
    ∃ before final : Session Float, (opened {} dottedProject 0).replay? indexDotted = some before ∧
      before.replay? updateBeside = some final ∧
      final.outcome? 3 = some (.error (.outsideProject "../pq/a.py" "/p")) ∧
      IsRefused "/p" "../pq/a.py" ∧ IsRefused "/p" "/p/..a.py" ∧ ¬ IsRefused "/p" "/p/b/..a.py" := by
  have ran : (((opened {} dottedProject (0 : Float)).replay? indexDotted).bind fun before =>
      if before.AtRest ∧ before.tasks.length = 3 ∧ (before.snapshotOf "/p").isSome then
        (before.replay? updateBeside).filter fun final =>
          decide (final.fault? 3 = some (.outsideProject "../pq/a.py" "/p"))
      else none).isSome = true := by decide +kernel
  obtain ⟨final, ran⟩ := Option.isSome_iff_exists.mp ran
  obtain ⟨before, reached, ran⟩ := Option.bind_eq_some_iff.mp ran
  obtain ⟨⟨rest, three, indexed⟩, ran⟩ := Option.ite_none_right_eq_some.mp ran
  obtain ⟨run, told⟩ := Option.filter_eq_some_iff.mp ran
  have told := outcome?_of_fault? (of_decide_eq_true told)
  have whole := replay?_trans reached run
  have settings : final.settings = {} := (replay?_world whole).1
  have known : final.files = dottedProject := by
    simpa [InForce, updateBeside, indexDotted, passOverOneFile, opened] using inForce_of_run _ whole
  have deep : final.files.HasDepth := known ▸ Volume.IsTidy.hasDepth (by decide +kernel)
  have accepted : (Argument.given "/p").projectPath = .ok "/p" := by decide +kernel
  obtain ⟨-, -, decided, listed⟩ := updates_refuse_files_outside
    (opened_isNew {} dottedProject 0) reached accepted run deep (by rw [settings]; decide)
    (by rw [settings]; decide)
  refine ⟨before, final, reached, run, told, ?_, ?_, by decide +kernel⟩
  · exact (decided rest (Option.isSome_iff_exists.mp indexed) (by simp) _ (three ▸ told)).mp rfl
  · refine (listed _ _ _ (Volume.IsTidy.isRegular (by decide +kernel)) discover_dottedProject _
      List.mem_cons_self).mpr ⟨"..a.py", ?_, by decide +kernel, by decide +kernel⟩
    constructor <;> decide +kernel

/-- A file is discovered and indexed, and its project contains it, but its update is refused. -/
theorem dotted_file_is_indexed_and_refused :
    discover ({} : Settings Float) dottedProject "/p" = .ok ["/p/..a.py"] ∧
      Path.Contains "/p" (Path.normalize (Path.join "/p" "/p/..a.py")) ∧
      ∃ before final : Session Float,
        (opened {} dottedProject 0).replay? indexDotted = some before ∧ before.AtRest ∧
        (before.snapshotOf "/p").map (fun snapshot => snapshot.files.keys) = some ["..a.py"] ∧
        before.replay? (.call (.update (.given "/p") (.given "/p/..a.py")) ::
          List.replicate 4 (.step 3)) = some final ∧
        final.outcome? 3 = some (.error (.outsideProject "/p/..a.py" "/p")) := by
  have ran : (((opened {} dottedProject (0 : Float)).replay? indexDotted).bind fun before =>
      if before.AtRest ∧
          (before.snapshotOf "/p").map (fun snapshot => snapshot.files.keys) = some ["..a.py"] then
        (before.replay? (.call (.update (.given "/p") (.given "/p/..a.py")) ::
          List.replicate 4 (.step 3))).filter fun final =>
            decide (final.fault? 3 = some (.outsideProject "/p/..a.py" "/p"))
      else none).isSome = true := by decide +kernel
  obtain ⟨final, ran⟩ := Option.isSome_iff_exists.mp ran
  obtain ⟨before, reached, ran⟩ := Option.bind_eq_some_iff.mp ran
  obtain ⟨⟨rest, indexed⟩, ran⟩ := Option.ite_none_right_eq_some.mp ran
  obtain ⟨run, told⟩ := Option.filter_eq_some_iff.mp ran
  exact ⟨discover_dottedProject, by decide +kernel, before, final, reached, rest, indexed, run,
    outcome?_of_fault? (of_decide_eq_true told)⟩

end Session

end CodeSearch
