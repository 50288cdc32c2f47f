import CodeSearch.Proofs.Files.Edits
import CodeSearch.Proofs.Index.Looks

/-! # Snapshots that are up to date

A snapshot is up to date with files if it holds of every file that a walk finds what a look at the
file gives, and nothing else. All snapshots that are up to date with the same files hold the same,
apart from the times at which files were indexed.
-/

namespace CodeSearch

open Loading Walk

variable {α : Type} [Scalar α]

/-- A record without the time at which it was made. -/
def FileRecord.untimed {α : Type} (record : FileRecord α) : FileRecord Unit :=
  { record with indexedAt := () }

/-- Two snapshots hold the same, apart from the times at which files were indexed. -/
structure Snapshot.HoldsSame {α : Type} (first second : Snapshot α) : Prop where
  files : ∀ path, (first.files.get? path).map FileRecord.untimed =
    (second.files.get? path).map FileRecord.untimed
  chunks : ∀ id, first.chunks.get? id = second.chunks.get? id
  embeddings : ∀ id, first.embeddings.get? id = second.embeddings.get? id

/-- Entries that differ at most in the time at which the file was indexed. -/
structure FileEntries.Alike {α : Type} (first second : FileEntries α) : Prop where
  record : first.record.map FileRecord.untimed = second.record.map FileRecord.untimed
  chunks : first.chunks = second.chunks
  embeddings : first.embeddings = second.embeddings

omit [Scalar α] in
theorem FileEntries.Alike.refl (entries : FileEntries α) : entries.Alike entries := ⟨rfl, rfl, rfl⟩

variable {settings : Settings α} {embedder : Embedder α} {files before after : FileSystem}
  {root path : String}

namespace Loading

private theorem reading_iff :
    Reached settings (· = files) path .reading ↔
      ∃ size, files.size path = .ok size ∧
        (size.any fun size => decide (settings.maxFileSize < size)) = false := by
  constructor
  · intro reached
    cases reached with
    | reading _ size moment told small => exact ⟨size, moment ▸ told, small⟩
  · rintro ⟨size, told, small⟩
    exact .reading files size rfl told small

/-- Looks at a file that stays as it is all lead to the same entries. -/
theorem Looked.alike {first second : LoadResult α}
    (one : Looked settings (· = files) root path first)
    (other : Looked settings (· = files) root path second) :
    (first.entries embedder).Alike (second.entries embedder) := by
  cases one with
  | sizeFault _ fault moment told =>
    subst moment
    cases other with
    | loaded _ _ _ _ sized =>
      obtain ⟨size, sized, -⟩ := reading_iff.mp sized
      rw [told] at sized
      cases sized
    | _ => exact .refl _
  | oversize _ size moment told large =>
    subst moment
    cases other with
    | loaded _ _ _ _ sized =>
      obtain ⟨known, sized, small⟩ := reading_iff.mp sized
      rw [told] at sized
      cases sized
      rw [large] at small
      cases small
    | _ => exact .refl _
  | unread _ fault moment sized told =>
    subst moment
    cases other with
    | loaded _ content _ moment _ read =>
      subst moment
      rw [told] at read
      cases read
    | _ => exact .refl _
  | loaded _ content now moment sized told =>
    subst moment
    obtain ⟨size, sized, small⟩ := reading_iff.mp sized
    cases other with
    | sizeFault _ fault moment failed =>
      subst moment
      rw [sized] at failed
      cases failed
    | oversize _ _ moment known large =>
      subst moment
      rw [sized] at known
      cases known
      rw [small] at large
      cases large
    | unread _ fault moment _ read =>
      subst moment
      rw [told] at read
      cases read
    | loaded _ _ _ moment _ read =>
      subst moment
      rw [told] at read
      cases read
      exact ⟨rfl, rfl, rfl⟩

/-- A look gives the same wherever the file has the same size and content. -/
theorem Looked.of_same {result : LoadResult α} (looked : Looked settings (· = before) root path result)
    (size : after.size path = before.size path) (read : after.read path = before.read path) :
    Looked settings (· = after) root path result := by
  have sizedAfter : Reached settings (· = before) path .reading →
      Reached settings (· = after) path .reading := by
    rw [reading_iff, reading_iff, size]
    exact id
  cases looked with
  | sizeFault _ fault moment told =>
    subst moment
    exact .sizeFault after fault rfl (size.trans told)
  | oversize _ known moment told large =>
    subst moment
    exact .oversize after known rfl (size.trans told) large
  | unread _ fault moment sized told =>
    subst moment
    exact .unread after fault rfl (sizedAfter sized) (read.trans told)
  | loaded _ content now moment sized told =>
    subst moment
    exact .loaded after content now rfl (sizedAfter sized) (read.trans told)

end Loading

namespace Snapshot

/-- The snapshot shows of every file that a walk finds what a look gives, and nothing else. -/
structure UpToDate (settings : Settings α) (embedder : Embedder α) (files : FileSystem)
    (root : String) (snapshot : Snapshot α) : Prop where
  projectPath : snapshot.projectPath = root
  keyed : snapshot.IsKeyed
  shown : ∀ path, Reaches settings files (.directory root) (.file path) →
    ∃ result, Looked settings (· = files) root path result ∧
      snapshot.entriesOf (relativePath root path) = result.entries embedder
  hidden : ∀ relative,
    (∀ path, Reaches settings files (.directory root) (.file path) →
      relativePath root path ≠ relative) →
    snapshot.entriesOf relative = .none

/-- What a walk over files that stay as they are has built is up to date. -/
theorem UpToDate.of_built {found : List String} {snapshot : Snapshot α}
    (regular : files.IsRegular) (rooted : ∃ path, root = Path.absolute path)
    (walk : Walking settings (· = files) root [] found)
    (built : Built settings embedder (· = files) root found snapshot) :
    snapshot.UpToDate settings embedder files root := by
  obtain ⟨known, distinct⟩ := walk.relatives (by rintro _ rfl; exact regular) rooted
  obtain ⟨shown, hidden⟩ := built.entries known distinct
  refine ⟨built.projectPath, built.keyed known, ?_, ?_⟩
  · intro path reaches
    exact shown path ((walk.mem_found_iff path).mpr reaches)
  · intro relative absent
    refine hidden relative ?_
    intro member
    obtain ⟨path, inFound, same⟩ := List.mem_map.mp member
    exact absent path ((walk.mem_found_iff path).mp inFound) same

/-- Snapshots that are up to date with the same files hold the same. -/
theorem UpToDate.holdsSame {first second : Snapshot α}
    (one : first.UpToDate settings embedder files root)
    (other : second.UpToDate settings embedder files root) : first.HoldsSame second := by
  have alike : ∀ relative, (first.entriesOf relative).Alike (second.entriesOf relative) := by
    intro relative
    by_cases found : ∃ path, Reaches settings files (.directory root) (.file path) ∧
        relativePath root path = relative
    · obtain ⟨path, reaches, rfl⟩ := found
      obtain ⟨result, looked, same⟩ := one.shown path reaches
      obtain ⟨result', looked', same'⟩ := other.shown path reaches
      rw [same, same']
      exact looked.alike looked'
    · have absent : ∀ path, Reaches settings files (.directory root) (.file path) →
          relativePath root path ≠ relative := fun path reaches same => found ⟨path, reaches, same⟩
      rw [one.hidden relative absent, other.hidden relative absent]
      exact .refl _
  exact
    { files := fun path => (alike path).record
      chunks := chunks_eq_of_entriesOf fun path => (alike path).chunks
      embeddings := embeddings_eq_of_entriesOf fun path => (alike path).embeddings }

end Snapshot

end CodeSearch
