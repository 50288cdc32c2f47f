import CodeSearch.Proofs.Index.InOrder
import CodeSearch.Proofs.Path.Descent
import CodeSearch.Proofs.Session.OutsideFiles

/-! # The way back to a file

A project knows a file by the path that leads to it from the project's root. This path leads back to
the file: joined to the root it is the path under which the file was discovered, and it tells the
language that the file's name has told. So files are read again where they were found. They are
updated there too, unless the path begins with two dots.
-/

namespace CodeSearch

open Loading

variable {α : Type} [Scalar α] {settings : Settings α} {files : FileSystem} {root path : String}
  {found : List String}

namespace Walk

private theorem listed_of_filesBelow {depth : Nat} {directory : String}
    (below : filesBelow settings files depth directory = .ok found) :
    ∀ path ∈ found, ∃ above entry, files.Lists above entry ∧
      target? settings entry = some (.file path) := by
  induction depth generalizing directory found with
  | zero =>
    cases below
    simp
  | succ depth ih =>
    rw [filesBelow] at below
    cases listed : listTargets settings (files.list directory) with
    | error fault => rw [listed] at below; cases below
    | ok targets =>
      rw [listed] at below
      simp only [bind, Except.bind, pure, Except.pure] at below
      split at below
      · cases below
      · next lists mapped =>
        cases below
        intro path member
        obtain ⟨list, inLists, inList⟩ := List.mem_flatten.mp member
        obtain ⟨target, goal, visited⟩ := exists_of_mem_mapM mapped list inLists
        cases target with
        | directory other => exact ih visited path inList
        | file other =>
          cases visited
          obtain rfl := List.mem_singleton.mp inList
          cases (leads_iff_mem listed).mpr goal with
          | goes _ entry _ lists goal => exact ⟨directory, entry, lists, goal⟩

/-- The path by which a project knows a file leads back to it. -/
structure LeadsBack (settings : Settings α) (files : FileSystem) (root path : String) : Prop where
  filled : relativePath root path ≠ ""
  steps : ∀ component ∈ Path.components (relativePath root path), Path.IsStep component
  joined : Path.join root (relativePath root path) = path
  normal : Path.normalize (Path.join root (relativePath root path)) = path
  known : ∃ directory entry, files.Lists directory entry ∧
    target? settings entry = some (.file path) ∧
    languageTag (relativePath root path) = languageTag entry.name ∧
    isIndexable (relativePath root path) = isIndexable entry.name
  stored : ∀ now record chunks, look settings files now root path = .loaded record chunks →
    record.path = relativePath root path ∧
      ∀ chunk ∈ chunks, chunk.filePath = relativePath root path

private theorem stored_of_look {now : α} {record : FileRecord α} {chunks : List Chunk}
    (loaded : look settings files now root path = .loaded record chunks) :
    record.path = relativePath root path ∧
      ∀ chunk ∈ chunks, chunk.filePath = relativePath root path := by
  unfold look at loaded
  split at loaded
  · cases loaded
  · split at loaded
    · cases loaded
    · split at loaded
      · cases loaded
        refine ⟨rfl, fun chunk member => ?_⟩
        exact (Splitting.chunks_isOf (fun _ found => extractSymbols_isFound found) member).filePath
      · cases loaded

theorem leadsBack_of_discover (regular : files.IsRegular) (rooted : ∃ path, root = Path.absolute path)
    (discovered : discover settings files root = .ok found) (member : path ∈ found) :
    LeadsBack settings files root path := by
  obtain ⟨way, name, accepted, below⟩ := exists_way_of_discover regular rooted discovered member
  have steps := accepted.forall_isStep
  have some : way ++ [name] ≠ [] := by simp
  have relative : relativePath root path = Path.ofWay (way ++ [name]) :=
    below ▸ Path.relativePath_below rooted steps some
  have joined : Path.join root (relativePath root path) = path := by
    rw [relative, below, Path.below_eq_join some steps]
  have parts : ∀ component ∈ Path.components (relativePath root path), Path.IsStep component := by
    rw [relative, Path.components_ofWay some steps, List.forall_mem_map]
    exact steps
  have language : Language.ofPath? (relativePath root path) = Language.ofPath? name := by
    rw [relative, Path.ofWay, List.map_append, List.map_singleton]
    exact Path.ofPath?_way accepted.known
  obtain ⟨directory, entry, lists, goal⟩ := listed_of_filesBelow discovered path member
  have named : entry.name = name := by
    obtain ⟨step, written⟩ := regular.lists lists
    have same : Path.join directory entry.name = Path.join (Path.below root way) name := by
      rw [← written, ← target?_path goal]
      exact below.trans (Path.below_append root way [name])
    rw [← Path.baseName_join directory step, same, Path.baseName_join _ accepted.step]
  constructor
  case filled =>
    intro empty
    rw [empty] at parts
    exact (parts [] (by decide)).nonempty rfl
  case steps => exact parts
  case joined => exact joined
  case normal => rw [joined, below, Path.normalize_below rooted steps]
  case known =>
    refine ⟨directory, entry, lists, goal, ?_, ?_⟩
    · rw [languageTag, language, named, languageTag]
    · rw [isIndexable, language, named, isIndexable]
  case stored => exact fun now record chunks => stored_of_look

end Walk

namespace Session

/-- The path by which a project knows a discovered file leads back to it, and to no other one. What is
shown of the file is read from where it was discovered, and an update that is given this path looks
there too, unless it takes the path for one that leads out of the project. It does so if the file lies
directly in the project and its name begins with two dots. -/
theorem relative_paths_lead_back (regular : files.IsRegular)
    (rooted : ∃ path, root = Path.absolute path)
    (discovered : discover settings files root = .ok found) :
    (∀ path ∈ found, Walk.LeadsBack settings files root path ∧
      (∀ (session : Session α) (id : TaskId) (wish : ContextWish) (group : FileHits α)
          (groups : List (FileHits α)) (items : List (ContextItem α)),
        wish.root = root → group.filePath = relativePath root path →
        session.readContext id wish (group :: groups) items =
          session.setCall id (.carrying wish (session.files.read path) group groups items)) ∧
      (∀ (session : Session α) (id : TaskId), (session.snapshotOf root).isSome = true →
        session.beginUpdating id { root, filePath := .given (relativePath root path) } =
          if leadsOut (relativePath root path) then
            session.endUpdate id (.error (.outsideProject (relativePath root path) root))
          else
            session.setCall id
              (.probing { root, absolute := path, relative := relativePath root path })) ∧
      (leadsOut (relativePath root path) = true ↔ ∃ name : String, Path.IsStep name.toList ∧
        path = Path.join root name ∧ ['.', '.'] <+: name.toList)) ∧
    ∀ path ∈ found, ∀ other ∈ found,
      relativePath root path = relativePath root other → path = other := by
  have back : ∀ path ∈ found, Walk.LeadsBack settings files root path :=
    fun path member => Walk.leadsBack_of_discover regular rooted discovered member
  refine ⟨fun path member => ⟨back path member, ?_, ?_, ?_⟩, ?_⟩
  · rintro session id wish group groups items rfl known
    rw [readContext, known, (back path member).joined]
  · intro session id indexed
    have current : (session.snapshotOf root).isNone = false := by
      rw [← Option.not_isSome, indexed]
      rfl
    simp only [beginUpdating, Argument.filePath, current, (back path member).normal,
      Bool.false_eq_true, if_false]
  · obtain ⟨-, inside, dots⟩ := Walk.inside_of_discover regular rooted discovered member
    have filled : path ≠ "" := by
      rw [← (back path member).normal]
      exact Path.normalize_ne_empty _
    rw [Path.leadsOut_relativePath_iff filled, dots, or_iff_right (not_not.mpr inside)]
  · intro path member other memberOther same
    rw [← (back path member).joined, same, (back other memberOther).joined]

/-- A file under a root with two slashes, whose name begins with two dots. -/
def spacedProject : FileSystem := (Volume.write {} "//x y/..c.py" (.ofText "")).fileSystem

theorem file_in_spaced_directory_is_led_back_to :
    discover ({} : Settings Float) spacedProject "//" = .ok ["//x y/..c.py"] ∧
      relativePath "//" "//x y/..c.py" = "x y/..c.py" ∧
      Walk.LeadsBack ({} : Settings Float) spacedProject "//" "//x y/..c.py" ∧
      ∀ (session : Session Float) (id : TaskId), (session.snapshotOf "//").isSome = true →
        session.beginUpdating id { root := "//", filePath := .given "x y/..c.py" } =
          session.setCall id
            (.probing { root := "//", absolute := "//x y/..c.py", relative := "x y/..c.py" }) := by
  have discovered : discover ({} : Settings Float) spacedProject "//" = .ok ["//x y/..c.py"] := by
    decide +kernel
  have relative : relativePath "//" "//x y/..c.py" = "x y/..c.py" := by decide +kernel
  have rooted : ∃ path, "//" = Path.absolute path := ⟨"//", by decide +kernel⟩
  obtain ⟨each, -⟩ :=
    relative_paths_lead_back (Volume.IsTidy.isRegular (by decide +kernel)) rooted discovered
  obtain ⟨back, -, updates, -⟩ := each _ List.mem_cons_self
  refine ⟨discovered, relative, back, fun session id indexed => ?_⟩
  have update := updates session id indexed
  rw [relative] at update
  exact update

/-- A file is discovered and indexed, and the path by which it is known leads back to it, but the
update of this path is refused. -/
theorem relative_path_of_dotted_file_is_refused :
    discover ({} : Settings Float) dottedProject "/p" = .ok ["/p/..a.py"] ∧
      relativePath "/p" "/p/..a.py" = "..a.py" ∧
      Path.normalize (Path.join "/p" "..a.py") = "/p/..a.py" ∧
      ∃ before final : Session Float,
        (opened {} dottedProject 0).replay? indexDotted = some before ∧ before.AtRest ∧
        (before.snapshotOf "/p").map (fun snapshot => snapshot.files.keys) = some ["..a.py"] ∧
        before.replay? (.call (.update (.given "/p") (.given "..a.py")) ::
          List.replicate 4 (.step 3)) = some final ∧
        final.outcome? 3 = some (.error (.outsideProject "..a.py" "/p")) := by
  have ran : (((opened {} dottedProject (0 : Float)).replay? indexDotted).bind fun before =>
      if before.AtRest ∧
          (before.snapshotOf "/p").map (fun snapshot => snapshot.files.keys) = some ["..a.py"] then
        (before.replay? (.call (.update (.given "/p") (.given "..a.py")) ::
          List.replicate 4 (.step 3))).filter fun final =>
            decide (final.fault? 3 = some (.outsideProject "..a.py" "/p"))
      else none).isSome = true := by decide +kernel
  obtain ⟨final, ran⟩ := Option.isSome_iff_exists.mp ran
  obtain ⟨before, reached, ran⟩ := Option.bind_eq_some_iff.mp ran
  obtain ⟨⟨rest, indexed⟩, ran⟩ := Option.ite_none_right_eq_some.mp ran
  obtain ⟨run, told⟩ := Option.filter_eq_some_iff.mp ran
  exact ⟨by decide +kernel, by decide +kernel, by decide +kernel, before, final, reached, rest,
    indexed, run, outcome?_of_fault? (of_decide_eq_true told)⟩

end Session

end CodeSearch
