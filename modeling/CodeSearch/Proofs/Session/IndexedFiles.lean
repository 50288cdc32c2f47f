import CodeSearch.Proofs.Files.Admission
import CodeSearch.Proofs.Files.Volumes
import CodeSearch.Proofs.Session.Calls
import CodeSearch.Proofs.Session.Soundness

/-! # Which files are indexed

A pass records only files that the rules of the walk admit. An update looks at the language of its
file alone, so a file that the rules leave out is indexed if an update names it, and only then.
-/

namespace CodeSearch

open Loading Walk

variable {α : Type} [Scalar α]

/-- An update that names a file of a project, by the path under which the project knows it. -/
inductive Request.Names : Request α → String → String → Prop where
  | update (path : Argument String) (file root : String) (accepted : path.projectPath = .ok root) :
      Names (.update path (.given file)) root
        (relativePath root (Path.normalize (Path.join root file)))

omit [Scalar α] in
theorem Request.AsksUpdate.names {request : Request α} {update : Update} {target : UpdateTarget}
    (asks : request.AsksUpdate update) (leads : update.LeadsTo target) :
    request.Names target.root target.relative := by
  cases asks with
  | update path filePath root accepted =>
    obtain ⟨file, rfl, place⟩ := leads.given
    rw [leads.named.relative, leads.project, place]
    exact .update path file root accepted

/-- Every file that is recorded is one of those that a project is said to record. -/
def Snapshot.RecordsOnly (records : String → String → Prop) (snapshot : Snapshot α) : Prop :=
  ∀ relative ∈ snapshot.files.keys, records snapshot.projectPath relative

omit [Scalar α] in
/-- Apart from its own file, an update records nothing that was not recorded before. -/
theorem Snapshot.RecordsOnly.refreshed {records : String → String → Prop} {snapshot : Snapshot α}
    {own : String} {draft : Option (FileDraft α)} (only : snapshot.RecordsOnly records)
    (file : ∀ loaded ∈ draft, loaded.IsOf own ∧ records snapshot.projectPath own) :
    (Session.refreshed snapshot own draft).RecordsOnly records := by
  have kept : ∀ relative ∈ (snapshot.removeFile own).files.keys,
      records snapshot.projectPath relative := by
    intro relative member
    change relative ∈ (snapshot.files.erase own).keys at member
    rw [OrderedMap.keys_erase] at member
    exact only relative (List.mem_filter.mp member).1
  intro relative member
  rw [Session.projectPath_refreshed]
  cases draft with
  | none => exact kept relative member
  | some loaded =>
    obtain ⟨ofOwn, recorded⟩ := file loaded rfl
    change relative ∈ ((snapshot.removeFile own).files.insert loaded.record.path
      loaded.record).keys at member
    rw [OrderedMap.keys_insert, ofOwn.record] at member
    split at member
    · exact kept relative member
    · rcases List.mem_append.mp member with before | last
      · exact kept relative before
      · rw [List.mem_singleton.mp last]
        exact recorded

namespace Session

variable {session next final : Session α} {id : TaskId} {events : List (Event α)}

/-- A file that may be indexed: it is of a known language, and the rules of the walk admit it unless
an update has named it. -/
structure MayRecord (settings : Settings α) (asked : Request α → Prop) (root relative : String) :
    Prop where
  known : isIndexable relative = true
  admitted : admits settings relative = true ∨ ∃ request, asked request ∧ request.Names root relative

/-- The snapshot that is there records only files that may be indexed. -/
def RecordsOnlyAdmitted (asked : Request α → Prop) (session : Session α) : Prop :=
  ∀ snapshot, session.snapshot = some snapshot →
    snapshot.RecordsOnly (MayRecord session.settings asked)

private theorem Sound.recordsOnly {asked : Request α → Prop} (sound : session.Sound) {pass : Pass α}
    (stands : session.task? id = some (.pass pass)) (point : pass.point = .swapping) :
    pass.draft.RecordsOnly (MayRecord session.settings asked) := by
  obtain ⟨rooted, found, walk, built⟩ := sound.grounded.swapping (Nat.zero_le id) stands point
  have regular : ∀ files : FileSystem, files.IsRegular → files.IsRegular := fun _ regular => regular
  intro relative member
  obtain ⟨path, inFound, rfl⟩ := List.mem_map.mp (built.mem_keys member)
  rw [built.projectPath]
  exact ⟨(walk.relatives regular rooted).1 path inFound,
    .inl (walk.admits regular rooted path inFound)⟩

private theorem RecordsOnlyAdmitted.move {asked : Request α → Prop}
    (only : session.RecordsOnlyAdmitted asked) (serve : session.CallsServe asked)
    (sound : session.Sound) (move : Move session id next) : next.RecordsOnlyAdmitted asked := by
  intro snapshot current
  rw [move.world.settings]
  generalize found : next.snapshot = after at current
  cases found ▸ move.snapshot with
  | kept => exact only snapshot current
  | dropped => cases current
  | answers before query options stood =>
    cases current
    exact only before stood
  | refreshed target draft before stands stood =>
    cases current
    obtain ⟨there, own⟩ := (session.snapshotOf_eq_some_iff _ _).mp stood
    obtain ⟨named, rests⟩ := sound.calls id _ stands
    obtain ⟨request, made, update, asks, leads⟩ := serve id _ stands
    refine (only before there).refreshed ?_
    intro loaded stored
    refine ⟨rests.isOf named loaded stored, (rests.isOf named loaded stored).known, ?_⟩
    rw [own]
    exact .inr ⟨request, made, asks.names leads⟩
  | swapped pass stands point =>
    cases current
    exact sound.recordsOnly stands point

private theorem RecordsOnlyAdmitted.event {asked : Request α → Prop} {event : Event α}
    (only : session.RecordsOnlyAdmitted asked) (serve : session.CallsServe asked)
    (sound : session.Sound) (happened : session.after? event = some next) :
    next.RecordsOnlyAdmitted asked := by
  cases after?_move happened with
  | call => exact only
  | step id _ move => exact only.move serve sound move
  | leave => exact only
  | files => exact only
  | time => exact only

private theorem IsNew.recordsOnly_of_run (new : session.IsNew)
    (regular : ∀ files, session.InForce events files → files.IsRegular)
    (run : session.replay? events = some final) :
    final.RecordsOnlyAdmitted fun request => .call request ∈ events := by
  refine replay?_keeps_prefix ?_ ?_ run
  · intro earlier before event after isPrefix reached only happened
    have past : earlier <+: events := (List.prefix_append earlier [event]).trans isPrefix
    have sound : before.Sound := by
      refine (new.sound (regular _ (.inl rfl))).run ?_ reached
      exact fun files member => regular files (.inr (past.subset member))
    have serve : before.CallsServe fun request => .call request ∈ events :=
      (new.callsServe_of_run reached).mono fun _ member => past.subset member
    exact only.event serve sound happened
  · intro snapshot current
    rw [new.snapshot] at current
    cases current

/-- In every state of every run, a file that is indexed is of a known language, and it passes the
rules of the walk under the settings unless an update of the run has named just this file. -/
theorem indexed_files_are_admitted_or_updated (new : session.IsNew)
    (regular : ∀ files, session.InForce events files → files.IsRegular)
    (run : session.replay? events = some final) {snapshot : Snapshot α}
    (shown : final.snapshot = some snapshot) {relative : String}
    (member : relative ∈ snapshot.files.keys) :
    isIndexable relative = true ∧
      (admits final.settings relative = true ∨
        ∃ request, .call request ∈ events ∧ request.Names snapshot.projectPath relative) := by
  have only := new.recordsOnly_of_run regular run
  obtain ⟨known, admitted⟩ := only snapshot shown relative member
  exact ⟨known, admitted⟩

/-- A project whose only file lies in a directory that the walk passes over. -/
def packagesOnly : FileSystem :=
  (Volume.write {} "/p/node_modules/x.js" (.ofText "function f() {}\n")).fileSystem

/-- The project is indexed, and then the file that the walk has passed over is updated. -/
def updatePassedOver : List (Event Float) :=
  [.call (.index (.given "/p") false), .step 0] ++ List.replicate 6 (.step 1) ++
    [.step 0, .leave 1, .call (.update (.given "/p") (.given "node_modules/x.js"))] ++
    List.replicate 12 (.step 2)

theorem passed_over_file_is_named_by_update :
    ∃ (final : Session Float) (snapshot : Snapshot Float),
      (opened {} packagesOnly 0).replay? updatePassedOver = some final ∧
      final.snapshot = some snapshot ∧ "node_modules/x.js" ∈ snapshot.files.keys ∧
      isIndexable "node_modules/x.js" = true ∧
      (admits final.settings "node_modules/x.js" = true ∨ ∃ request,
        .call request ∈ updatePassedOver ∧ request.Names snapshot.projectPath "node_modules/x.js") := by
  have reached : (((opened {} packagesOnly (0 : Float)).replay? updatePassedOver).bind fun final =>
      final.snapshot.filter fun snapshot =>
        decide ("node_modules/x.js" ∈ snapshot.files.keys)).isSome = true := by decide +kernel
  obtain ⟨snapshot, reached⟩ := Option.isSome_iff_exists.mp reached
  obtain ⟨final, run, reached⟩ := Option.bind_eq_some_iff.mp reached
  obtain ⟨shown, member⟩ := Option.filter_eq_some_iff.mp reached
  have regular : ∀ files, (opened {} packagesOnly (0 : Float)).InForce updatePassedOver files →
      files.IsRegular := by
    intro files known
    have known : files = packagesOnly := by simpa [InForce, updatePassedOver, opened] using known
    rw [known]
    exact Volume.IsTidy.isRegular (by decide +kernel)
  exact ⟨final, snapshot, run, shown, of_decide_eq_true member,
    indexed_files_are_admitted_or_updated (opened_isNew {} _ 0) regular run shown
      (of_decide_eq_true member)⟩

/-- An update indexes a file that the rules of the walk leave out. -/
theorem update_indexes_passed_over_file :
    ∃ (final : Session Float) (snapshot : Snapshot Float),
      (opened {} packagesOnly 0).replay? updatePassedOver = some final ∧
      final.snapshot = some snapshot ∧ snapshot.files.keys = ["node_modules/x.js"] ∧
      admits final.settings "node_modules/x.js" = false := by
  have reached : (((opened {} packagesOnly (0 : Float)).replay? updatePassedOver).bind fun final =>
      final.snapshot.filter fun snapshot =>
        decide (snapshot.files.keys = ["node_modules/x.js"] ∧
          admits final.settings "node_modules/x.js" = false)).isSome = true := by decide +kernel
  obtain ⟨snapshot, reached⟩ := Option.isSome_iff_exists.mp reached
  obtain ⟨final, run, reached⟩ := Option.bind_eq_some_iff.mp reached
  obtain ⟨shown, holds⟩ := Option.filter_eq_some_iff.mp reached
  obtain ⟨keys, passedOver⟩ := of_decide_eq_true holds
  exact ⟨final, snapshot, run, shown, keys, passedOver⟩

end Session

end CodeSearch
