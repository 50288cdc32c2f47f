import CodeSearch.Proofs.Session.Provenance
import CodeSearch.Proofs.Session.Rest

/-! # What holds of every session that is reached

In every state of every run the lock excludes, the table is right, tasks rest on what was read, and
the snapshot stores chunks under identifiers of their own files.
-/

namespace CodeSearch

open Loading Walk

variable {α : Type} [Scalar α]

/-- What is stored under an update's path is a draft of that file. -/
theorem StoreRestsOn.isOf {settings : Settings α} {embedder : Embedder α}
    {moments : FileSystem → Prop} {target : UpdateTarget} {draft : Option (FileDraft α)}
    (rests : StoreRestsOn settings embedder moments target draft) (named : target.IsNamed) :
    ∀ loaded ∈ draft, loaded.IsOf target.relative := by
  intro loaded stored
  cases rests with
  | passedBy => cases stored
  | notLoaded => cases stored
  | loaded draft there looked embeddings =>
    cases stored
    have known := there.known
    rw [named.relative] at known ⊢
    have file := looked.isFileOf known embedder
    rw [← embeddings] at file
    exact file

namespace Session

/-- The files that are there at some moment of a run. -/
def InForce (session : Session α) (events : List (Event α)) (files : FileSystem) : Prop :=
  files = session.files ∨ .files files ∈ events

/-- Files that are in force stay so until others are, which are in force as well. -/
theorem InForce.event {session current next : Session α} {events : List (Event α)} {event : Event α}
    (known : session.InForce events current.files) (member : event ∈ events)
    (happened : current.after? event = some next) : session.InForce events next.files := by
  cases after?_move happened with
  | call => exact known
  | step id _ move => exact move.world.files ▸ known
  | leave => exact known
  | files files => exact .inr member
  | time => exact known

/-- The files behind a run are in force in it. -/
theorem inForce_of_run (session : Session α) {final : Session α} {events : List (Event α)}
    (run : session.replay? events = some final) : session.InForce events final.files :=
  @replay?_keeps α _ (fun current => session.InForce events current.files) _ _ _
    (fun _ _ _ member known happened => InForce.event known member happened) (Or.inl rfl) run

/-- Everything that holds of every session that is reached while listings are regular. -/
structure Sound (session : Session α) : Prop where
  regular : session.files.IsRegular
  keyed : ∀ snapshot, session.snapshot = some snapshot → snapshot.IsKeyed
  exclusive : session.Exclusive
  tabled : session.Tabled
  lined : session.Lined
  current : session.Current
  grounded : session.Grounded session.settings session.embedder FileSystem.IsRegular 0
  calls : session.CallsRest session.settings session.embedder FileSystem.IsRegular

variable {session next final : Session α} {id : TaskId}

/-- A pass that is about to replace the snapshot has walked its project and shows what it looked at.
-/
theorem Grounded.swapping {settings : Settings α} {embedder : Embedder α}
    {moments : FileSystem → Prop} {since : Nat} {pass : Pass α}
    (grounded : session.Grounded settings embedder moments since) (late : since ≤ id)
    (stands : session.task? id = some (.pass pass)) (point : pass.point = .swapping) :
    (∃ path, pass.root = Path.absolute path) ∧ ∃ found,
      Walking settings moments pass.root [] found ∧
      Built settings embedder moments pass.root found pass.draft := by
  obtain ⟨rooted, done, built, known⟩ := grounded.passes id pass late stands
  rw [point] at known
  exact ⟨rooted, done, known, built⟩

private theorem snapshot_keyed (sound : session.Sound) {found : Option (Snapshot α)}
    (move : SnapshotMove session id found) (snapshot : Snapshot α)
    (current : found = some snapshot) : snapshot.IsKeyed := by
  cases move with
  | kept => exact sound.keyed snapshot current
  | dropped => cases current
  | answers before query options stood =>
    cases current
    exact ⟨(sound.keyed before stood).chunks, (sound.keyed before stood).embeddings⟩
  | refreshed target draft before stands stood =>
    cases current
    obtain ⟨named, rests⟩ := sound.calls id _ stands
    exact keyed_refreshed (sound.keyed before ((session.snapshotOf_eq_some_iff _ _).mp stood).1)
      (rests.isOf named)
  | swapped pass stands point =>
    cases current
    obtain ⟨rooted, files, walk, built⟩ := sound.grounded.swapping (Nat.zero_le id) stands point
    exact built.keyed (walk.relatives (fun _ regular => regular) rooted).1

theorem Sound.event (sound : session.Sound) {event : Event α}
    (regular : ∀ files, event = .files files → files.IsRegular)
    (happened : session.after? event = some next) : next.Sound := by
  obtain ⟨settings, embedder⟩ := after?_world happened
  refine ⟨?_, ?_, sound.exclusive.event happened, sound.tabled.event happened,
    sound.lined.event sound.exclusive happened, sound.current.event sound.tabled happened, ?_, ?_⟩
  · cases after?_move happened with
    | call => exact sound.regular
    | step id _ move => rw [move.world.files]; exact sound.regular
    | leave => exact sound.regular
    | files files => exact regular files rfl
    | time => exact sound.regular
  · cases after?_move happened with
    | call => exact sound.keyed
    | step id _ move => exact fun snapshot => snapshot_keyed sound move.snapshot snapshot
    | leave => exact sound.keyed
    | files => exact sound.keyed
    | time => exact sound.keyed
  · rw [settings, embedder]
    exact sound.grounded.event sound.regular (Nat.zero_le _) happened
  · rw [settings, embedder]
    exact sound.calls.event sound.regular happened

/-- Before any task there is nothing that could rest on anything. -/
theorem IsNew.grounded (new : session.IsNew) (moments : FileSystem → Prop) :
    session.Grounded session.settings session.embedder moments 0 := by
  refine ⟨?_, ?_⟩
  · intro id owner root path state _ stands
    rw [new.task?] at stands
    cases stands
  · intro id pass _ stands
    rw [new.task?] at stands
    cases stands

/-- Throughout a run, tasks rest on files that are in force in it. -/
theorem IsNew.grounded_of_run {events : List (Event α)} (new : session.IsNew)
    (run : session.replay? events = some final) :
    final.Grounded final.settings final.embedder (session.InForce events) 0 := by
  refine (@replay?_keeps α _ (fun current => session.InForce events current.files ∧
    current.Grounded current.settings current.embedder (session.InForce events) 0) _ _ _ ?_
    ⟨.inl rfl, new.grounded _⟩ run).2
  rintro before event after member ⟨moment, grounded⟩ happened
  obtain ⟨settings, embedder⟩ := after?_world happened
  exact ⟨InForce.event moment member happened,
    settings ▸ embedder ▸ grounded.event moment (Nat.zero_le _) happened⟩

theorem IsNew.sound (new : session.IsNew) (regular : session.files.IsRegular) :
    session.Sound where
  regular := regular
  keyed snapshot current := by rw [new.snapshot] at current; cases current
  exclusive := new.exclusive
  tabled := new.tabled
  lined := new.lined
  current := new.current
  grounded := new.grounded _
  calls id point stands := by rw [new.task?] at stands; cases stands

/-- A run keeps a session sound while all listings are regular. -/
theorem Sound.run {events : List (Event α)} (sound : session.Sound)
    (regular : ∀ files, .files files ∈ events → files.IsRegular)
    (run : session.replay? events = some final) : final.Sound := by
  refine replay?_keeps ?_ sound run
  intro before event after member sound happened
  refine sound.event ?_ happened
  rintro files rfl
  exact regular files member

end Session

end CodeSearch
