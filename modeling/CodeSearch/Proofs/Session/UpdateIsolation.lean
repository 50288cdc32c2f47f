import CodeSearch.Proofs.Files.Volumes
import CodeSearch.Proofs.Index.Isolation
import CodeSearch.Proofs.Session.LoneCalls
import CodeSearch.Proofs.Session.Soundness

/-! # An update touches no other file

While an update runs and no other call is in progress, the snapshot stays that of its project, and
all that is known about other files stays as it is and where it is. It does not matter how far the
update comes or how it ends, what its file holds, or which of its chunks are refused.
-/

namespace CodeSearch

open Loading

variable {α : Type} [Scalar α]

namespace Session

variable {before session next final : Session α} {path filePath : Argument String}
  {root : String} {snapshot : Snapshot α}

/-- The files in question are other ones than the file of the update. -/
def SparesFile (root : String) (filePath : Argument String) (keep : String → Bool) : Prop :=
  ∀ file, filePath = .given file →
    keep (relativePath root (Path.normalize (Path.join root file))) = false

/-- An update is the only call in progress. It has left the other files of its project as they were.
-/
structure Isolated (before : Session α) (path filePath : Argument String) (root : String)
    (snapshot : Snapshot α) (session : Session α) : Prop where
  sound : session.Sound
  lone : LoneCall before (.update path filePath) session
  kept : ∃ current, session.snapshotOf root = some current ∧
    ∀ keep, SparesFile root filePath keep → snapshot.SameFor keep current

private theorem Isolated.kept_move {mover : TaskId}
    (isolated : Isolated before path filePath root snapshot session)
    (accepted : path.projectPath = .ok root) (move : Move session mover next) :
    ∃ current, next.snapshotOf root = some current ∧
      ∀ keep, SparesFile root filePath keep → snapshot.SameFor keep current := by
  obtain ⟨current, there, same⟩ := isolated.kept
  rcases isolated.lone.snapshotOf_of_update move there with stays | ⟨target, draft, stands, stored⟩
  · exact ⟨current, stays, same⟩
  obtain ⟨update, asks, leads⟩ := (isolated.lone.eq_of_call move stands).2
  obtain ⟨file, given, place⟩ := leads.given
  obtain ⟨named, rests⟩ := isolated.sound.calls mover _ stands
  refine ⟨_, stored, fun keep spares => ?_⟩
  have hidden : keep target.relative = false := by
    cases asks with
    | update _ _ known accepted' =>
      cases accepted.symm.trans accepted'
      rw [leads.named.relative, leads.project, place]
      exact spares file given
  have keyed := isolated.sound.keyed current ((session.snapshotOf_eq_some_iff _ _).mp there).1
  exact (same keep spares).trans (sameFor_refreshed keyed (rests.isOf named) hidden)

private theorem Isolated.event (isolated : Isolated before path filePath root snapshot session)
    (accepted : path.projectPath = .ok root) {event : Event α}
    (regular : ∀ files, event = .files files → files.IsRegular)
    (inner : ∀ request, event ≠ .call request) (happened : session.after? event = some next) :
    Isolated before path filePath root snapshot next := by
  refine ⟨isolated.sound.event regular happened, isolated.lone.event inner happened, ?_⟩
  cases after?_move happened with
  | call request => exact absurd rfl (inner request)
  | step mover _ move => exact isolated.kept_move accepted move
  | leave => exact isolated.kept
  | files => exact isolated.kept
  | time => exact isolated.kept

/-- While an update of a file runs and no other call is in progress, and when it has ended in any
way, the snapshot is that of the project, and the records, the chunks and the embeddings of all other
files are those that were there before, in the same order. -/
theorem update_leaves_other_files {earlier events : List (Event α)} {before : Session α}
    (new : session.IsNew)
    (regular : ∀ files, session.InForce (earlier ++ events) files → files.IsRegular)
    (reached : session.replay? earlier = some before) (idle : before.IsIdle)
    (accepted : path.projectPath = .ok root) (indexed : before.snapshotOf root = some snapshot)
    (alone : ∀ request, .call request ∉ events)
    (run : before.replay? (.call (.update path filePath) :: events) = some final) :
    ∃ after, final.snapshotOf root = some after ∧
      ∀ keep, SparesFile root filePath keep → snapshot.SameFor keep after := by
  have sound : before.Sound := (new.sound (regular _ (.inl rfl))).run
    (fun files member => regular files (.inr (List.mem_append.mpr (.inl member)))) reached
  rw [replay?] at run
  obtain ⟨begun, called, rest⟩ := Option.bind_eq_some_iff.mp run
  have start : Isolated before path filePath root snapshot begun := by
    refine ⟨sound.event (fun _ same => by cases same) called, new.loneCall reached idle called,
      snapshot, ?_, fun keep _ => .refl keep snapshot⟩
    cases called
    exact indexed
  have isolated : Isolated before path filePath root snapshot final := by
    refine replay?_keeps ?_ start rest
    intro current event after member isolated happened
    refine isolated.event accepted ?_ ?_ happened
    · rintro files rfl
      exact regular files (.inr (List.mem_append.mpr (.inr member)))
    · rintro request rfl
      exact alone request member
  exact isolated.kept

/-- The project is indexed, a second file is indexed by an update, and then it is written anew. -/
def indexTwoFiles : List (Event Float) :=
  [.call (.index (.given "/p") false), .step 0] ++ List.replicate 4 (.step 1) ++
    List.replicate 3 (.step 2) ++ List.replicate 10 (.step 1) ++
    [.step 0, .leave 1, .files (secondFile "def walk():\n    pass\n").fileSystem,
      .call (.update (.given "/p") (.given "b.py"))] ++ List.replicate 12 (.step 3) ++
    [.files (secondFile "def go():\n    pass\n").fileSystem]

theorem update_of_second_file_leaves_the_first :
    ∃ (before final : Session Float) (snapshot after : Snapshot Float),
      (opened {} smallProject 0).replay? indexTwoFiles = some before ∧
      before.snapshotOf "/p" = some snapshot ∧ snapshot.files.keys = ["a.py", "b.py"] ∧
      before.replay? (.call (.update (.given "/p") (.given "b.py")) ::
        List.replicate 12 (.step 4)) = some final ∧
      (final.outcome? 4).isSome = true ∧ final.snapshotOf "/p" = some after ∧
      snapshot.SameFor (· == "a.py") after := by
  have reached : (((opened {} smallProject (0 : Float)).replay? indexTwoFiles).bind fun before =>
      (before.snapshotOf "/p").bind fun snapshot =>
        if before.AtRest ∧ snapshot.files.keys = ["a.py", "b.py"] then
          (before.replay? (.call (.update (.given "/p") (.given "b.py")) ::
            List.replicate 12 (.step 4))).filter fun final => (final.outcome? 4).isSome
        else none).isSome = true := by decide +kernel
  obtain ⟨final, reached⟩ := Option.isSome_iff_exists.mp reached
  obtain ⟨before, indexes, reached⟩ := Option.bind_eq_some_iff.mp reached
  obtain ⟨snapshot, indexed, reached⟩ := Option.bind_eq_some_iff.mp reached
  obtain ⟨⟨rest, files⟩, reached⟩ := Option.ite_none_right_eq_some.mp reached
  obtain ⟨run, told⟩ := Option.filter_eq_some_iff.mp reached
  have regular : ∀ files, (opened {} smallProject (0 : Float)).InForce
      (indexTwoFiles ++ List.replicate 12 (.step 4)) files → files.IsRegular := by
    intro files known
    have known : files = smallProject ∨
        files = (secondFile "def walk():\n    pass\n").fileSystem ∨
        files = (secondFile "def go():\n    pass\n").fileSystem := by
      simpa [InForce, indexTwoFiles, opened] using known
    rcases known with rfl | rfl | rfl <;> exact Volume.IsTidy.isRegular (by decide +kernel)
  obtain ⟨after, current, same⟩ := update_leaves_other_files (opened_isNew {} smallProject 0)
    regular indexes (fun id point stands => rest.tasks id _ stands) (by decide +kernel) indexed
    (by simp) run
  refine ⟨before, final, snapshot, after, indexes, indexed, files, run, told, current, same _ ?_⟩
  rintro file ⟨⟩
  decide +kernel

end Session

end CodeSearch
