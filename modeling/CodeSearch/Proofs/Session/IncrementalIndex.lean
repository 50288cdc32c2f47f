import CodeSearch.Proofs.Files.Volumes
import CodeSearch.Proofs.Session.CachedAnswers
import CodeSearch.Proofs.Session.FirstPass

/-! # Updates amount to a full pass

A project is indexed once. Then files are written and removed one at a time, and each time the file is
updated before anything else happens. Behind each update the snapshot holds what a full pass over the
files, as they are then, would leave.
-/

namespace CodeSearch

open Loading Walk

variable {α : Type} [Scalar α]

/-- A file of a project is written or removed. It is one that a walk accepts, its size is told, as
nothing if it is not there, and its path in the project does not lead out. The call names it by a
path of its own. -/
structure FileEdit (settings : Settings α) (root : String) (way : List String) (name file : String)
    (before after : FileSystem) : Prop where
  edited : FileSystem.EditedAt root way name before after
  regular : after.IsRegular
  accepted : Accepts settings way name
  sized : ∃ size, after.size (Path.join (Path.below root way) name) = .ok size ∧
    (size = none ↔ ¬ after.Shows root way name)
  named : Path.normalize (Path.join root file) = Path.join (Path.below root way) name
  inside : Session.leadsOut (relativePath root (Path.join (Path.below root way) name)) = false

variable {settings : Settings α} {embedder : Embedder α} {root name file : String}
  {way : List String} {before after : FileSystem} {snapshot : Snapshot α}

private theorem FileEdit.place (edit : FileEdit settings root way name file before after)
    {slashes : Nat} {parts : List (List Char)} (few : slashes = 1 ∨ slashes = 2)
    (steps : ∀ part ∈ parts, Path.IsStep part) (shape : root = Path.place slashes parts) :
    Path.join (Path.below root way) name =
        Path.place slashes (parts ++ (way.map String.toList ++ [name.toList])) ∧
      ∀ part ∈ parts ++ (way.map String.toList ++ [name.toList]), Path.IsStep part := by
  have above : ∀ part ∈ parts ++ way.map String.toList, Path.IsStep part := by
    intro part member
    rcases List.mem_append.mp member with inRoot | onWay
    · exact steps part inRoot
    · obtain ⟨text, inWay, rfl⟩ := List.mem_map.mp onWay
      exact edit.accepted.steps text inWay
  subst shape
  rw [below_place (by omega) steps edit.accepted.steps,
    Path.join_place (by omega) above edit.accepted.step, List.append_assoc]
  refine ⟨rfl, ?_⟩
  intro part member
  rw [← List.append_assoc] at member
  rcases List.mem_append.mp member with earlier | last
  · exact above part earlier
  · exact List.mem_singleton.mp last ▸ edit.accepted.step

private theorem FileEdit.relative_ne (edit : FileEdit settings root way name file before after)
    (rooted : ∃ path, root = Path.absolute path) {path : String}
    (reaches : Reaches settings after (.directory root) (.file path))
    (other : path ≠ Path.join (Path.below root way) name) :
    relativePath root path ≠ relativePath root (Path.join (Path.below root way) name) := by
  obtain ⟨given, rfl⟩ := rooted
  obtain ⟨slashes, parts, few, steps, shape⟩ := Path.absolute_eq_place given
  obtain ⟨place, stepsPlace⟩ := edit.place few steps shape
  rw [shape] at reaches
  obtain ⟨names, stepsNames, here, proper⟩ := reaches_below edit.regular few steps reaches
  have some : names ≠ [] := proper ⟨path, rfl⟩
  change path = _ at here
  have all : ∀ part ∈ parts ++ names, Path.IsStep part := by
    intro part member
    rcases List.mem_append.mp member with inRoot | inNames
    · exact steps part inRoot
    · exact stepsNames part inNames
  intro same
  apply other
  rw [place] at same ⊢
  rw [here, shape, Path.relativePath_place few all some,
    Path.relativePath_place few stepsPlace (by simp), String.ofList_inj] at same
  have equal := Path.joinWith_steps_injective stepsNames
    (fun part member => stepsPlace part (List.mem_append.mpr (.inr member))) some (by simp) same
  rw [here, equal]

private theorem FileEdit.known (edit : FileEdit settings root way name file before after)
    (rooted : ∃ path, root = Path.absolute path) :
    isIndexable (relativePath root (Path.join (Path.below root way) name)) = true := by
  obtain ⟨given, rfl⟩ := rooted
  obtain ⟨slashes, parts, few, steps, shape⟩ := Path.absolute_eq_place given
  obtain ⟨place, stepsPlace⟩ := edit.place few steps shape
  rw [place, shape, Path.relativePath_place few stepsPlace (by simp)]
  exact Path.isIndexable_way edit.accepted.known

private theorem FileEdit.reaches_iff (edit : FileEdit settings root way name file before after)
    (rooted : ∃ path, root = Path.absolute path) :
    Reaches settings after (.directory root) (.file (Path.join (Path.below root way) name)) ↔
      after.Shows root way name := by
  constructor
  · intro reaches
    obtain ⟨given, rfl⟩ := rooted
    obtain ⟨slashes, parts, few, steps, shape⟩ := Path.absolute_eq_place given
    rw [(edit.place few steps shape).1] at reaches
    rw [shape] at reaches ⊢
    exact edit.accepted.shows edit.regular few steps reaches
  · exact edit.accepted.reaches

private theorem FileEdit.looked_other (edit : FileEdit settings root way name file before after)
    {path : String} (other : path ≠ Path.join (Path.below root way) name)
    (reaches : Reaches settings before (.directory root) (.file path)) {result : LoadResult α}
    (looked : Looked settings (· = before) root path result) :
    Looked settings (· = after) root path result := by
  rcases reaches.cases_tail with same | ⟨middle, -, leads⟩
  · cases same
  · obtain ⟨directory, entry, _, lists, goal⟩ := leads
    rcases target?_cases goal with ⟨_, same⟩ | ⟨isFile, same⟩
    · cases same
    · cases same
      obtain ⟨size, read⟩ := edit.edited.others directory entry (.inl lists) isFile other
      exact looked.of_same size read

private theorem FileEdit.entries (edit : FileEdit settings root way name file before after)
    (snapshot : Snapshot α) {target : UpdateTarget} {draft : Option (FileDraft α)}
    (targets : Session.Targets root file target) (named : target.IsNamed)
    (known : isIndexable target.relative = true)
    (rests : StoreRestsOn settings embedder (· = after) target draft) :
    (after.Shows root way name → ∃ result, Looked settings (· = after) root target.absolute result ∧
        (Session.refreshed snapshot target.relative draft).entriesOf target.relative =
          result.entries embedder) ∧
      (¬ after.Shows root way name →
        (Session.refreshed snapshot target.relative draft).entriesOf target.relative = .none) := by
  obtain ⟨size, sized, absent⟩ := edit.sized
  rw [← edit.named, ← targets.place] at sized
  rw [Session.entriesOf_refreshed_self (rests.isOf named)]
  have there : target.WasThere (· = after) → after.Shows root way name := by
    rintro ⟨-, _, some, rfl, told⟩
    rw [sized] at told
    cases told
    exact Classical.not_not.mp fun missing => by cases absent.mpr missing
  rw [← targets.project]
  cases rests with
  | passedBy files told moment answer reason =>
    subst moment
    rw [sized] at answer
    cases answer
    refine ⟨fun shows => ?_, fun _ => rfl⟩
    rcases reason with none | unknown
    · exact absurd (targets.project ▸ shows) (targets.project ▸ absent.mp none)
    · rw [known] at unknown
      cases unknown
  | notLoaded result was looked nothing =>
    refine ⟨fun _ => ⟨result, looked, ?_⟩, fun _ => rfl⟩
    cases result with
    | loaded record chunks => exact absurd rfl (nothing record chunks)
    | oversize => rfl
    | failed message => rfl
  | loaded draft was looked embeddings =>
    refine ⟨fun _ => ⟨_, looked, ?_⟩, fun missing => ?_⟩
    · change FileEntries.of _ _ draft.embeddings = FileEntries.of _ _ _
      rw [embeddings]
    · exact absurd (there was) (targets.project ▸ missing)

/-- An update keeps a snapshot up to date with an edited file. -/
theorem Snapshot.UpToDate.refreshed (upToDate : snapshot.UpToDate settings embedder before root)
    (edit : FileEdit settings root way name file before after)
    (rooted : ∃ path, root = Path.absolute path)
    {target : UpdateTarget} {draft : Option (FileDraft α)}
    (targets : Session.Targets root file target) (named : target.IsNamed)
    (rests : StoreRestsOn settings embedder (· = after) target draft) :
    (Session.refreshed snapshot target.relative draft).UpToDate settings embedder after root := by
  have absolute : target.absolute = Path.join (Path.below root way) name :=
    targets.place.trans edit.named
  have relative : target.relative = relativePath root (Path.join (Path.below root way) name) := by
    rw [named.relative, targets.project, absolute]
  have known : isIndexable target.relative = true := relative ▸ edit.known rooted
  obtain ⟨there, gone⟩ := edit.entries snapshot targets named known rests
  have elsewhere : ∀ other, other ≠ target.relative →
      (Session.refreshed snapshot target.relative draft).entriesOf other =
        snapshot.entriesOf other := fun other different =>
    Session.entriesOf_refreshed_other upToDate.keyed (rests.isOf named) different
  refine ⟨Session.projectPath_refreshed.trans upToDate.projectPath,
    Session.keyed_refreshed upToDate.keyed (rests.isOf named), ?_, ?_⟩
  · intro path reaches
    by_cases own : path = Path.join (Path.below root way) name
    · subst own
      obtain ⟨result, looked, same⟩ := there ((edit.reaches_iff rooted).mp reaches)
      rw [absolute] at looked
      rw [← relative]
      exact ⟨result, looked, same⟩
    · have different := edit.relative_ne rooted reaches own
      have reachesBefore := (reaches_of_edited edit.edited own).mpr reaches
      obtain ⟨result, looked, same⟩ := upToDate.shown path reachesBefore
      rw [elsewhere _ (relative ▸ different)]
      exact ⟨result, edit.looked_other own reachesBefore looked, same⟩
  · intro other absent
    by_cases own : other = target.relative
    · subst own
      refine gone fun shows => ?_
      exact absent _ ((edit.reaches_iff rooted).mpr shows) relative.symm
    · rw [elsewhere other own]
      refine upToDate.hidden other fun path reaches same => ?_
      by_cases itself : path = Path.join (Path.below root way) name
      · subst itself
        exact own (same.symm.trans relative.symm)
      · exact absent path ((reaches_of_edited edit.edited itself).mp reaches) same

namespace Session

/-- A new session has made a full pass over a project, with nothing else going on. -/
def FreshPass (settings : Settings α) (embedder : Embedder α) (root : String) (files : FileSystem)
    (session : Session α) : Prop :=
  ∃ (start : Session α) (path : Argument String) (force : Bool) (report : PassReport),
    start.IsNew ∧ start.settings = settings ∧ start.embedder = embedder ∧ start.files = files ∧
      path.projectPath = .ok root ∧
      start.Serves (.index path force) (.ok (.indexed report)) session

/-- A project has been indexed by a full pass, and every edit since was followed by an update of the
edited file, each call with nothing else going on. -/
inductive Maintained (settings : Settings α) (embedder : Embedder α) (root : String) :
    FileSystem → Session α → Prop where
  | indexed (files : FileSystem) (session : Session α) (regular : files.IsRegular)
      (pass : FreshPass settings embedder root files session) :
      Maintained settings embedder root files session
  | updated (before after : FileSystem) (session final : Session α) (way : List String)
      (name file : String) (path : Argument String) (outcome : Outcome α)
      (earlier : Maintained settings embedder root before session)
      (edit : FileEdit settings root way name file before after)
      (accepted : path.projectPath = .ok root)
      (serves : { session with files := after }.Serves (.update path (.given file)) outcome final) :
      Maintained settings embedder root after final

/-- What holds of a project that is maintained. -/
structure InStep (settings : Settings α) (embedder : Embedder α) (root : String)
    (files : FileSystem) (session : Session α) : Prop where
  indexed : ∃ snapshot, session.snapshotOf root = some snapshot ∧
    snapshot.UpToDate settings embedder files root
  rooted : ∃ path, root = Path.absolute path
  sound : session.Sound
  rest : session.AtRest
  settings : session.settings = settings
  embedder : session.embedder = embedder
  files : session.files = files

private theorem Serves.sound {start final : Session α} {request : Request α} {outcome : Outcome α}
    (sound : start.Sound) (serves : start.Serves request outcome final) :
    final.Sound ∧ final.settings = start.settings ∧ final.embedder = start.embedder ∧
      final.files = start.files := by
  obtain ⟨events, inner, run⟩ := serves.run
  have quiet : ∀ files, Event.files files ∉ .call request :: events := by
    intro files member
    rcases List.mem_cons.mp member with same | later
    · cases same
    · exact (inner _ later).elim
  have world : final.settings = start.settings ∧ final.embedder = start.embedder :=
    replay?_world run
  refine ⟨sound.run (fun files member => absurd member (quiet files)) run, world.1, world.2, ?_⟩
  rcases start.inForce_of_run run with same | member
  · exact same
  · exact absurd member (quiet _)

private theorem InStep.replaces {session : Session α} {path : Argument String}
    (inStep : InStep settings embedder root before session)
    (edit : FileEdit settings root way name file before after)
    (accepted : path.projectPath = .ok root) :
    ∃ snapshot, snapshot.UpToDate settings embedder before root ∧
      { session with files := after }.Sound ∧ { session with files := after }.AtRest ∧
      { session with files := after }.Replaces path root file snapshot := by
  obtain ⟨snapshot, current, upToDate⟩ := inStep.indexed
  obtain ⟨size, sized, -⟩ := edit.sized
  have happened : session.after? (.files after) = some { session with files := after } := rfl
  have sound : { session with files := after }.Sound := by
    refine inStep.sound.event ?_ happened
    intro files same
    cases same
    exact edit.regular
  refine ⟨snapshot, upToDate, sound, ⟨inStep.rest.tasks, inStep.rest.leaving⟩, accepted, current,
    ?_, ?_⟩
  · rw [edit.named]
    exact edit.inside
  · rw [edit.named]
    exact ⟨size, sized⟩

private theorem FreshPass.inStep {files : FileSystem} {session : Session α}
    (pass : FreshPass settings embedder root files session) (regular : files.IsRegular) :
    InStep settings embedder root files session := by
  obtain ⟨start, path, force, report, new, rfl, rfl, rfl, accepted, serves⟩ := pass
  obtain ⟨sound, settings, embedder, files⟩ := serves.sound (new.sound regular)
  exact ⟨serves.upToDate new regular accepted, projectPath_eq_absolute accepted, sound, serves.rest,
    settings, embedder, files⟩

private theorem Maintained.inStep {files : FileSystem} {session : Session α}
    (maintained : Maintained settings embedder root files session) :
    InStep settings embedder root files session := by
  induction maintained with
  | indexed files session regular pass => exact pass.inStep regular
  | updated before after session final way name file path outcome earlier edit accepted serves ih =>
    obtain ⟨snapshot, upToDate, sound, rest, replaces⟩ := ih.replaces edit accepted
    obtain ⟨soundAfter, settings, embedder, files⟩ := serves.sound sound
    obtain ⟨target, draft, refreshes⟩ := serves.refreshes sound rest replaces
    have rests : StoreRestsOn session.settings session.embedder (· = after) target draft :=
      refreshes.rests
    rw [ih.settings, ih.embedder] at rests
    have upToDateAfter := upToDate.refreshed edit ih.rooted refreshes.targets refreshes.named rests
    refine ⟨⟨_, ?_, upToDateAfter⟩, ih.rooted, soundAfter, serves.rest, settings.trans ih.settings,
      embedder.trans ih.embedder, files⟩
    exact (final.snapshotOf_eq_some_iff root _).mpr ⟨refreshes.snapshot, upToDateAfter.projectPath⟩

/-- A maintained project holds what a full pass over its files leaves, apart from the times at which
files were indexed. And whichever file is edited next, the update that follows returns without an
error. -/
theorem updates_amount_to_full_pass {files : FileSystem} {session : Session α}
    (maintained : Maintained settings embedder root files session) :
    (∀ reference, FreshPass settings embedder root files reference →
      ∃ snapshot full, session.snapshotOf root = some snapshot ∧
        reference.snapshotOf root = some full ∧ snapshot.HoldsSame full) ∧
    ∀ way name file after (path : Argument String),
      FileEdit settings root way name file files after → path.projectPath = .ok root →
      settings.Valid → ∃ done final, { session with files := after }.Serves
        (.update path (.given file)) (.ok (.updated done)) final := by
  have inStep := maintained.inStep
  refine ⟨?_, ?_⟩
  · intro reference pass
    obtain ⟨snapshot, current, upToDate⟩ := inStep.indexed
    obtain ⟨full, currentFull, upToDateFull⟩ :=
      (pass.inStep (inStep.files ▸ inStep.sound.regular)).indexed
    exact ⟨snapshot, full, current, currentFull, upToDate.holdsSame upToDateFull⟩
  · intro way name file after path edit accepted valid
    obtain ⟨snapshot, _, sound, rest, replaces⟩ := inStep.replaces edit accepted
    have batch : 1 ≤ session.settings.embeddingBatchSize := inStep.settings ▸ valid.embeddingBatch
    obtain ⟨outcome, final, serves⟩ := serves_update sound rest batch replaces
    obtain ⟨target, draft, refreshes⟩ := serves.refreshes sound rest replaces
    exact ⟨_, final, refreshes.outcome ▸ serves⟩

/-- The small project with its file rewritten. -/
def rewrittenVolume : Volume :=
  { smallVolume with
    files := smallVolume.files.insert "/p/a.py" (.ofText "def walk():\n    pass\n") }

private theorem edit_of_small_file {before after : Volume}
    (alike : Volume.FilesAlikeBut "/p/a.py" before after)
    (free : "/p/a.py" ∉ before.directories.keys) (tidy : before.IsTidy) (tidyAfter : after.IsTidy)
    (sized : after.size "/p/a.py" = none ↔ ¬ after.fileSystem.Shows "/p" [] "a.py") :
    FileEdit ({} : Settings Float) "/p" [] "a.py" "a.py" before.fileSystem after.fileSystem := by
  have path : Path.join "/p" "a.py" = "/p/a.py" := by decide +kernel
  rw [← path] at alike free sized
  exact
    { edited := alike.editedAt (by decide +kernel) (by decide +kernel) free tidy tidyAfter
      regular := tidyAfter.isRegular
      accepted := ⟨by decide +kernel, by decide +kernel, by decide +kernel, by decide +kernel,
        by decide +kernel⟩
      sized := ⟨after.size _, rfl, sized⟩
      named := by decide +kernel
      inside := by decide +kernel }

/-- A full pass over a project of one file, from the step of the call on. -/
def passOverOneFile : List (Event Float) :=
  .step 0 :: List.replicate 4 (.step 1) ++ List.replicate 3 (.step 2) ++
    List.replicate 10 (.step 1) ++ [.step 0, .leave 1]

private theorem freshPass_of_served {files : FileSystem} {final : Session Float}
    {outcome : Outcome Float} (told : (outcome matches .ok (.indexed _)) = true)
    (served : (opened {} files (0 : Float)).served? (.index (.given "/p") false) passOverOneFile =
      some (final, outcome)) :
    FreshPass {} (.hashing 256 1500) "/p" files final := by
  have serves := serves_of_served? (by decide) served
  split at told
  · exact ⟨_, .given "/p", false, _, opened_isNew {} files 0, rfl, rfl, rfl, rfl, serves⟩
  · cases told

theorem rewritten_project_is_as_after_full_pass :
    ∃ (session reference : Session Float) (snapshot full : Snapshot Float) (done : Bool)
      (final : Session Float),
      Maintained ({} : Settings Float) (.hashing 256 1500) "/p" rewrittenVolume.fileSystem session ∧
      FreshPass {} (.hashing 256 1500) "/p" rewrittenVolume.fileSystem reference ∧
      session.snapshotOf "/p" = some snapshot ∧ reference.snapshotOf "/p" = some full ∧
      snapshot.HoldsSame full ∧
      { session with files := (rewrittenVolume.remove "/p/a.py").fileSystem }.Serves
        (.update (.given "/p") (.given "a.py")) (.ok (.updated done)) final := by
  have indexed : (((opened {} smallProject (0 : Float)).served? (.index (.given "/p") false)
      passOverOneFile).bind fun first => ({ first.1 with files := rewrittenVolume.fileSystem }.served?
        (.update (.given "/p") (.given "a.py")) (List.replicate 12 (.step 3))).filter
          fun _ => first.2 matches .ok (.indexed _)).isSome = true := by decide +kernel
  have passed : (((opened {} rewrittenVolume.fileSystem (0 : Float)).served?
      (.index (.given "/p") false) passOverOneFile).filter
        fun reference => reference.2 matches .ok (.indexed _)).isSome = true := by decide +kernel
  obtain ⟨⟨session, outcome⟩, rewritten⟩ := Option.isSome_iff_exists.mp indexed
  obtain ⟨⟨first, told⟩, indexes, rewritten⟩ := Option.bind_eq_some_iff.mp rewritten
  obtain ⟨updates, toldIndexed⟩ := Option.filter_eq_some_iff.mp rewritten
  obtain ⟨⟨reference, answer⟩, passes⟩ := Option.isSome_iff_exists.mp passed
  obtain ⟨passes, toldPassed⟩ := Option.filter_eq_some_iff.mp passes
  have maintained : Maintained ({} : Settings Float) (.hashing 256 1500) "/p"
      rewrittenVolume.fileSystem session := by
    refine .updated smallProject _ first session [] "a.py" "a.py" (.given "/p") outcome ?_
      ?_ rfl (serves_of_served? (by decide) updates)
    · exact .indexed _ _ (Volume.IsTidy.isRegular (by decide +kernel))
        (freshPass_of_served toldIndexed indexes)
    · exact edit_of_small_file (Volume.filesAlikeBut_insert smallVolume _ _) (by decide +kernel)
        (by decide +kernel) (by decide +kernel) (by decide +kernel)
  have removal : FileEdit ({} : Settings Float) "/p" [] "a.py" "a.py" rewrittenVolume.fileSystem
      (rewrittenVolume.remove "/p/a.py").fileSystem :=
    edit_of_small_file (Volume.filesAlikeBut_remove rewrittenVolume _) (by decide +kernel)
      (by decide +kernel) (by decide +kernel) (by decide +kernel)
  have referencePass := freshPass_of_served toldPassed passes
  obtain ⟨same, next⟩ := updates_amount_to_full_pass maintained
  obtain ⟨snapshot, full, current, currentFull, holdsSame⟩ := same reference referencePass
  obtain ⟨done, final, serves⟩ := next [] "a.py" "a.py" _ (.given "/p") removal rfl
    ⟨by decide, by decide, by decide, by decide⟩
  exact ⟨session, reference, snapshot, full, done, final, maintained, referencePass, current,
    currentFull, holdsSame, serves⟩

end Session

end CodeSearch
