import CodeSearch.Proofs.Files.Volumes
import CodeSearch.Proofs.Index.Coherence
import CodeSearch.Proofs.Session.ContextAnswers
import CodeSearch.Proofs.Session.Soundness

/-! # Snapshots are seen whole

A pass builds apart from the snapshot that is searched and replaces it when all of its files are
done; an update replaces all that is known about its file in one step. So in every state the snapshot
is what a whole pass has built, with whole files replaced since, whatever faults files meet and
whichever chunks the embedder refuses. Such a snapshot agrees with itself.
-/

namespace CodeSearch

open Loading Walk

variable {α : Type} [Scalar α] {settings : Settings α} {embedder : Embedder α}
  {moments : FileSystem → Prop} {snapshot : Snapshot α}

/-- A snapshot that a pass has built after a walk that came to its end, with the entries of whole
files replaced since, and with any answers cached. -/
inductive Snapshot.IsWhole (settings : Settings α) (embedder : Embedder α)
    (moments : FileSystem → Prop) : Snapshot α → Prop where
  | built (root : String) (found : List String) (draft : Snapshot α)
      (rooted : ∃ path, root = Path.absolute path) (walk : Walking settings moments root [] found)
      (built : Built settings embedder moments root found draft) :
      IsWhole settings embedder moments draft
  | refreshed (snapshot : Snapshot α) (target : UpdateTarget) (draft : Option (FileDraft α))
      (before : IsWhole settings embedder moments snapshot)
      (project : target.root = snapshot.projectPath) (named : target.IsNamed)
      (rests : StoreRestsOn settings embedder moments target draft) :
      IsWhole settings embedder moments (Session.refreshed snapshot target.relative draft)
  | cached (snapshot : Snapshot α) (cache : QueryCache α (List (Hit α)))
      (before : IsWhole settings embedder moments snapshot) :
      IsWhole settings embedder moments { snapshot with cache }

namespace Snapshot

theorem IsWhole.keyed (whole : snapshot.IsWhole settings embedder moments)
    (regular : ∀ files, moments files → files.IsRegular) : snapshot.IsKeyed := by
  induction whole with
  | built root found draft rooted walk built => exact built.keyed (walk.relatives regular rooted).1
  | refreshed snapshot target draft _ _ named rests ih =>
    exact Session.keyed_refreshed ih (rests.isOf named)
  | cached snapshot cache _ ih => exact ⟨ih.chunks, ih.embeddings⟩

private theorem entriesOf_update {target : UpdateTarget} {draft : Option (FileDraft α)}
    (rests : StoreRestsOn settings embedder moments target draft) (named : target.IsNamed)
    (snapshot : Snapshot α) :
    (Session.refreshed snapshot target.relative draft).entriesOf target.relative = .none ∨
      ∃ result, Looked settings moments target.root target.absolute result ∧
        (Session.refreshed snapshot target.relative draft).entriesOf target.relative =
          result.entries embedder := by
  rw [Session.entriesOf_refreshed_self (rests.isOf named)]
  cases rests with
  | passedBy => exact .inl rfl
  | notLoaded => exact .inl rfl
  | loaded draft there looked embeddings =>
    refine .inr ⟨_, looked, ?_⟩
    simp only [Option.map_some, Option.getD_some, FileDraft.entries, embeddings, LoadResult.entries]

theorem IsWhole.showsLooks (whole : snapshot.IsWhole settings embedder moments)
    (regular : ∀ files, moments files → files.IsRegular) :
    snapshot.ShowsLooks settings embedder moments := by
  induction whole with
  | built root found draft rooted walk built =>
    intro relative
    obtain ⟨known, distinct⟩ := walk.relatives regular rooted
    obtain ⟨shown, hidden⟩ := built.entries known distinct
    by_cases member : relative ∈ found.map (relativePath root)
    · obtain ⟨path, inFound, rfl⟩ := List.mem_map.mp member
      obtain ⟨result, looked, same⟩ := shown path inFound
      rw [built.projectPath]
      exact .inr ⟨path, result, rfl, looked, same⟩
    · exact .inl (hidden relative member)
  | refreshed snapshot target draft before project named rests ih =>
    intro relative
    rw [Session.projectPath_refreshed]
    by_cases own : relative = target.relative
    · subst own
      rcases entriesOf_update rests named snapshot with none | ⟨result, looked, same⟩
      · exact .inl none
      · rw [← project]
        exact .inr ⟨target.absolute, result, named.relative.symm, looked, same⟩
    · rw [Session.entriesOf_refreshed_other (before.keyed regular) (rests.isOf named) own]
      exact ih relative
  | cached snapshot cache _ ih => exact ih

end Snapshot

namespace Session

variable {session next final : Session α} {id : TaskId} {events : List (Event α)}

/-- The snapshot that is there is whole. -/
def ShowsWhole (settings : Settings α) (embedder : Embedder α) (moments : FileSystem → Prop)
    (session : Session α) : Prop :=
  ∀ snapshot, session.snapshot = some snapshot → snapshot.IsWhole settings embedder moments

private theorem ShowsWhole.move
    (whole : session.ShowsWhole settings embedder moments)
    (grounded : session.Grounded settings embedder moments 0)
    (calls : session.CallsRest settings embedder moments) (move : Move session id next) :
    next.ShowsWhole settings embedder moments := by
  intro snapshot current
  generalize found : next.snapshot = after at current
  cases found ▸ move.snapshot with
  | kept => exact whole snapshot current
  | dropped => cases current
  | answers before query options stood =>
    cases current
    exact .cached before _ (whole before stood)
  | refreshed target draft before stands stood =>
    cases current
    obtain ⟨there, own⟩ := (session.snapshotOf_eq_some_iff _ _).mp stood
    obtain ⟨named, rests⟩ := calls id _ stands
    exact .refreshed before target draft (whole before there) own.symm named rests
  | swapped pass stands point =>
    cases current
    obtain ⟨rooted, files, walk, built⟩ := grounded.swapping (Nat.zero_le id) stands point
    exact .built pass.root files pass.draft rooted walk built

/-- Throughout a run the snapshot is whole, by looks at the files that are in force in the run. -/
theorem IsNew.showsWhole_of_run (new : session.IsNew)
    (run : session.replay? events = some final) :
    final.ShowsWhole final.settings final.embedder (session.InForce events) := by
  refine (@replay?_keeps α _ (fun current => session.InForce events current.files ∧
    current.Grounded current.settings current.embedder (session.InForce events) 0 ∧
    current.CallsRest current.settings current.embedder (session.InForce events) ∧
    current.ShowsWhole current.settings current.embedder (session.InForce events)) _ _ _ ?_
    ⟨.inl rfl, new.grounded _, ?_, ?_⟩ run).2.2.2
  · rintro before event after member ⟨moment, grounded, calls, whole⟩ happened
    obtain ⟨settings, embedder⟩ := after?_world happened
    have groundedAfter := grounded.event moment (Nat.zero_le _) happened
    have callsAfter := calls.event moment happened
    rw [settings, embedder]
    refine ⟨InForce.event moment member happened, groundedAfter, callsAfter, ?_⟩
    cases after?_move happened with
    | call => exact whole
    | step id _ move => exact whole.move grounded calls move
    | leave => exact whole
    | files => exact whole
    | time => exact whole
  · intro id point stands
    rw [new.task?] at stands
    cases stands
  · intro snapshot current
    rw [new.snapshot] at current
    cases current

/-- In every state of every run the snapshot is what a whole pass has built, with whole files
replaced since. Its records, chunks and embeddings agree, of every file it holds the chunks of one
content that was read from the file, and what a search finds is in it. -/
theorem visible_snapshots_are_whole {current : Session α} (new : session.IsNew)
    (regular : ∀ files, session.InForce events files → files.IsRegular)
    (run : session.replay? events = some current) (shown : current.snapshot = some snapshot) :
    snapshot.IsWhole current.settings current.embedder (session.InForce events) ∧
      snapshot.IsCoherent current.settings (session.InForce events) ∧
      ∀ query options, ∀ hit ∈ (current.search query options).1,
        ∃ embedding ∈ snapshot.embeddings.values, embedding.chunk = hit.chunk := by
  have whole := new.showsWhole_of_run run snapshot shown
  refine ⟨whole, (whole.showsLooks regular).isCoherent, ?_⟩
  intro query options hit member
  have sound : current.CacheSound fun _ _ => True :=
    new.cacheSound_of_run (fun _ => trivial) (fun _ _ _ _ _ _ _ => trivial) run
  obtain ⟨found, there, embedded⟩ := sound.exists_embedding_of_mem_search member
  cases shown.symm.trans there
  exact embedded

/-- A pass lists the project before a second file is there, and waits behind the update of that file.
The file is rewritten when the update has read it. -/
def updateBesidePass : List (Event Float) :=
  indexAndSearch ++ [.leave 1, .call (.update (.given "/p") (.given "b.py"))] ++
    List.replicate 3 (.step 4) ++ [.call (.index (.given "/p") true), .step 5] ++
    List.replicate 4 (.step 6) ++ [.files (secondFile "def walk():\n    pass\n").fileSystem] ++
    List.replicate 6 (.step 4) ++ [.files (secondFile "def go():\n    pass\n").fileSystem] ++
    List.replicate 3 (.step 4) ++ List.replicate 3 (.step 7) ++ List.replicate 9 (.step 6) ++
    [.call (.search (.given "walk") .absent), .step 8]

theorem snapshot_beside_pass_is_whole :
    ∃ (before next : Session Float) (snapshot replaced : Snapshot Float),
      (opened {} smallProject 0).replay? updateBesidePass = some before ∧
      before.snapshot = some snapshot ∧ snapshot.files.keys = ["a.py", "b.py"] ∧
      snapshot.chunks.keys = ["a.py_file", "a.py_run_1", "b.py_file", "b.py_walk_1"] ∧
      snapshot.IsWhole before.settings before.embedder
        ((opened {} smallProject 0).InForce updateBesidePass) ∧
      snapshot.IsCoherent before.settings ((opened {} smallProject 0).InForce updateBesidePass) ∧
      (∀ query options, ∀ hit ∈ (before.search query options).1,
        ∃ embedding ∈ snapshot.embeddings.values, embedding.chunk = hit.chunk) ∧
      before.after? (.step 6) = some next ∧ next.snapshot = some replaced ∧
      replaced.files.keys = ["a.py"] ∧
      replaced.IsCoherent next.settings
        ((opened {} smallProject 0).InForce (updateBesidePass ++ [.step 6])) := by
  have new := opened_isNew {} smallProject (0 : Float)
  have reached : (((opened {} smallProject (0 : Float)).replay? updateBesidePass).bind fun before =>
      before.snapshot.bind fun snapshot => (before.after? (.step 6)).bind fun next =>
        if snapshot.files.keys = ["a.py", "b.py"] ∧
          snapshot.chunks.keys = ["a.py_file", "a.py_run_1", "b.py_file", "b.py_walk_1"]
        then next.snapshot.filter fun replaced => decide (replaced.files.keys = ["a.py"])
        else none).isSome = true := by decide +kernel
  obtain ⟨replaced, reached⟩ := Option.isSome_iff_exists.mp reached
  obtain ⟨before, run, reached⟩ := Option.bind_eq_some_iff.mp reached
  obtain ⟨snapshot, current, reached⟩ := Option.bind_eq_some_iff.mp reached
  obtain ⟨next, happened, reached⟩ := Option.bind_eq_some_iff.mp reached
  obtain ⟨⟨files, chunks⟩, reached⟩ := Option.ite_none_right_eq_some.mp reached
  obtain ⟨shown, others⟩ := Option.filter_eq_some_iff.mp reached
  have regular : ∀ files, (opened {} smallProject (0 : Float)).InForce
      (updateBesidePass ++ [.step 6]) files → files.IsRegular := by
    intro files known
    have known : files = smallProject ∨
        files = (secondFile "def walk():\n    pass\n").fileSystem ∨
        files = (secondFile "def go():\n    pass\n").fileSystem := by
      simpa [InForce, updateBesidePass, indexAndSearch, opened] using known
    rcases known with rfl | rfl | rfl <;> exact Volume.IsTidy.isRegular (by decide +kernel)
  have regularBefore : ∀ files, (opened {} smallProject (0 : Float)).InForce updateBesidePass files →
      files.IsRegular :=
    fun files known => regular files (known.imp_right (List.mem_append_left _))
  obtain ⟨whole, coherent, found⟩ := visible_snapshots_are_whole new regularBefore run current
  obtain ⟨-, coherent', -⟩ :=
    visible_snapshots_are_whole new regular (replay?_concat run happened) shown
  exact ⟨before, next, snapshot, replaced, run, current, files, chunks, whole, coherent, found,
    happened, shown, of_decide_eq_true others, coherent'⟩

end Session

end CodeSearch
