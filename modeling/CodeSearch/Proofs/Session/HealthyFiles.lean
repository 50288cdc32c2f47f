import CodeSearch.Proofs.Files.Faulty
import CodeSearch.Proofs.Session.WholeSnapshots

/-! # Faulty files are as good as absent

Of a file that cannot be read nothing gets into a snapshot, and nothing of what lies below a
directory that cannot be listed. So a snapshot that was built and refreshed over such files is one
that could have been built and refreshed without them.
-/

namespace CodeSearch

open Loading Walk FileSystem

variable {α : Type} [Scalar α] {settings : Settings α} {embedder : Embedder α}
  {moments : FileSystem → Prop} {faulty : Target → Bool} {root path : String}

namespace Loading

private theorem Reached.without {point : LoadPoint} (reached : Reached settings moments path point)
    (healthy : faulty (.file path) = false) :
    Reached settings (HealthyPart faulty moments) path point := by
  induction reached with
  | sizing => exact .sizing
  | reading files size moment told small =>
    exact .reading _ size ⟨files, moment, rfl⟩ ((size_without healthy).trans told) small
  | carrying files moment sized ih =>
    rw [← read_without healthy]
    exact .carrying _ ⟨files, moment, rfl⟩ ih

/-- A healthy file is seen in the same way when the faulty ones are not there. -/
theorem Looked.without {result : LoadResult α} (looked : Looked settings moments root path result)
    (healthy : faulty (.file path) = false) :
    Looked settings (HealthyPart faulty moments) root path result := by
  cases looked with
  | sizeFault files fault moment told =>
    exact .sizeFault _ fault ⟨files, moment, rfl⟩ ((size_without healthy).trans told)
  | oversize files size moment told large =>
    exact .oversize _ size ⟨files, moment, rfl⟩ ((size_without healthy).trans told) large
  | unread files fault moment sized told =>
    exact .unread _ fault ⟨files, moment, rfl⟩ (sized.without healthy)
      ((read_without healthy).trans told)
  | loaded files content now moment sized told =>
    exact .loaded _ content now ⟨files, moment, rfl⟩ (sized.without healthy)
      ((read_without healthy).trans told)

/-- Nothing is loaded of a faulty file. -/
theorem Looked.not_loaded (fails : ∀ files, moments files → files.FailsAt faulty)
    {record : FileRecord α} {chunks : List Chunk}
    (looked : Looked settings moments root path (.loaded record chunks)) :
    faulty (.file path) = false := by
  cases looked with
  | loaded files content now moment sized told =>
    refine Bool.eq_false_iff.mpr fun gone => ?_
    obtain ⟨fault, unread⟩ := (fails files moment).read path gone
    cases told.symm.trans unread

end Loading

/-- What a pass has built is what it builds without the faulty files. -/
theorem Built.without (fails : ∀ files, moments files → files.FailsAt faulty) {paths : List String}
    {draft : Snapshot α} (built : Built settings embedder moments root paths draft) :
    Built settings embedder (HealthyPart faulty moments) root
      (paths.filter fun path => !faulty (.file path)) draft := by
  induction built with
  | empty cache indexedAt => exact .empty cache indexedAt
  | skips path paths draft result before looked nothing ih =>
    rw [List.filter_append, List.filter_singleton]
    cases gone : faulty (.file path) with
    | true => simpa using ih
    | false => simpa using ih.skips path _ draft result (looked.without gone) nothing
  | adds path paths draft record chunks before looked ih =>
    have healthy := looked.not_loaded fails
    rw [List.filter_append, List.filter_singleton, healthy]
    exact ih.adds path _ draft record chunks (looked.without healthy)
  | dated paths draft indexedAt before ih => exact ih.dated _ draft indexedAt

private theorem UpdateTarget.WasThere.without {target : UpdateTarget}
    (there : target.WasThere moments) (healthy : faulty (.file target.absolute) = false) :
    target.WasThere (HealthyPart faulty moments) := by
  obtain ⟨files, size, moment, told⟩ := there.told
  exact ⟨there.known, _, size, ⟨files, moment, rfl⟩, (size_without healthy).trans told⟩

/-- An update stores what it stores without the faulty files. One of a faulty file stores nothing, as
if the file were not there. -/
theorem StoreRestsOn.without (fails : ∀ files, moments files → files.FailsAt faulty)
    {target : UpdateTarget} {draft : Option (FileDraft α)}
    (rests : StoreRestsOn settings embedder moments target draft) :
    StoreRestsOn settings embedder (HealthyPart faulty moments) target draft := by
  have absent : faulty (.file target.absolute) = true → ∀ files, moments files →
      StoreRestsOn settings embedder (HealthyPart faulty moments) target none := by
    intro gone files moment
    refine .passedBy _ none ⟨files, moment, rfl⟩ ?_ (.inl rfl)
    simp [FileSystem.without, gone]
  cases rests with
  | passedBy files size moment told reason =>
    cases gone : faulty (.file target.absolute) with
    | true => exact absent gone files moment
    | false =>
      exact .passedBy _ size ⟨files, moment, rfl⟩ ((size_without gone).trans told) reason
  | notLoaded result there looked nothing =>
    cases gone : faulty (.file target.absolute) with
    | true =>
      obtain ⟨files, -, moment, -⟩ := there.told
      exact absent gone files moment
    | false => exact .notLoaded result (there.without gone) (looked.without gone) nothing
  | loaded draft there looked embeddings =>
    have healthy := looked.not_loaded fails
    exact .loaded draft (there.without healthy) (looked.without healthy) embeddings

/-- A snapshot is one of the healthy files alone. -/
theorem Snapshot.IsWhole.without (fails : ∀ files, moments files → files.FailsAt faulty)
    {snapshot : Snapshot α} (whole : snapshot.IsWhole settings embedder moments) :
    snapshot.IsWhole settings embedder (HealthyPart faulty moments) := by
  induction whole with
  | built root found draft rooted walk built =>
    exact .built root _ draft rooted (walk.without fails) (built.without fails)
  | refreshed snapshot target draft before project named rests ih =>
    exact ih.refreshed snapshot target draft project named (rests.without fails)
  | cached snapshot cache before ih => exact ih.cached snapshot cache

end CodeSearch
