import CodeSearch.Proofs.Files.WalkOrder
import CodeSearch.Proofs.Path.Descent

/-! # What is discovered, and in which order

The files that are discovered are those that are there on ways that can be listed and that no rule
leaves out, each of them once. At every level the files below the directories come first, directory
by directory, and the files of the level itself last. A directory that is refused takes what lies
below it out of the result, and nothing else.
-/

namespace CodeSearch

namespace FileSystem

variable {files : FileSystem} {refused : String} {fault : FileFault}

/-- No directory fails to be listed but because the system refuses it. -/
def OnlyRefuses (files : FileSystem) : Prop :=
  ∀ directory fault, files.list directory = .error fault → fault.isUnavailable = true

/-- The same files when one directory is refused. -/
def refusing (files : FileSystem) (refused : String) (fault : FileFault) : FileSystem :=
  { files with
    list := fun directory => if directory = refused then .error fault else files.list directory }

theorem list_refusing {directory : String} (other : directory ≠ refused) :
    (files.refusing refused fault).list directory = files.list directory := if_neg other

theorem list_refused : (files.refusing refused fault).list refused = .error fault := if_pos rfl

theorem lists_refusing {directory : String} {entry : Entry} :
    (files.refusing refused fault).Lists directory entry ↔
      directory ≠ refused ∧ files.Lists directory entry := by
  by_cases same : directory = refused
  · subst same
    simp [Lists, list_refused]
  · simp [Lists, list_refusing same, same]

/-- An entry is told by its name and its kind. -/
theorem IsRegular.exists_of_lists (regular : files.IsRegular) {directory : String} {entry : Entry}
    (lists : files.Lists directory entry) :
    ∃ name kind, Path.IsStep name.toList ∧ entry = ⟨name, Path.join directory name, kind⟩ := by
  obtain ⟨name, path, kind⟩ := entry
  obtain ⟨step, path⟩ := regular.lists lists
  exact ⟨name, kind, step, by rw [← path]⟩

theorem IsRegular.refusing (regular : files.IsRegular) (refused : String) (fault : FileFault) :
    (files.refusing refused fault).IsRegular where
  entries directory listed answer := by
    by_cases same : directory = refused
    · rw [same, list_refused] at answer
      cases answer
    · exact regular.entries directory listed (list_refusing same ▸ answer)
  distinct directory listed answer := by
    by_cases same : directory = refused
    · rw [same, list_refused] at answer
      cases answer
    · exact regular.distinct directory listed (list_refusing same ▸ answer)

theorem HasDepth.refusing (deep : files.HasDepth) (refused : String) (fault : FileFault) :
    (files.refusing refused fault).HasDepth := by
  have within : ∀ {depth directory}, files.IsWithin depth directory →
      (files.refusing refused fault).IsWithin depth directory := by
    intro depth directory within
    induction within with
    | listed depth directory entries ih =>
      exact .listed depth directory fun entry lists => ih entry (lists_refusing.mp lists).2
  exact fun directory => within (deep directory)

theorem OnlyRefuses.refusing (refuses : files.OnlyRefuses) (refused : String)
    (unavailable : fault.isUnavailable = true) :
    (files.refusing refused fault).OnlyRefuses := by
  intro directory other told
  by_cases same : directory = refused
  · rw [same, list_refused] at told
    cases told
    exact unavailable
  · exact refuses directory other (list_refusing same ▸ told)

end FileSystem

/-- A volume lists what it holds unless it is told not to. -/
theorem Volume.onlyRefuses {volume : Volume}
    (refused : ∀ stored ∈ volume.directories.entries, ∀ fault ∈ stored.2,
      fault.isUnavailable = true) :
    volume.fileSystem.OnlyRefuses := by
  intro directory fault told
  change volume.list directory = _ at told
  unfold list at told
  split at told
  · cases told
    rfl
  · next here =>
    cases told
    exact refused _ ((volume.directories.get?_eq_some_iff _ _).mp here) _ rfl
  · cases told

namespace Walk

open FileSystem

variable {α : Type} [Scalar α] {settings : Settings α} {files : FileSystem}
  {directory root path : String} {found : List String}

/-! ## Level by level -/

/-- The files that are found from a directory on lie in the order of its levels: those below its
directories, which are walked with rising names, and then its own, with rising names too. -/
inductive IsLaidOut (settings : Settings α) (files : FileSystem) : String → List String → Prop where
  | refused (directory : String) (fault : FileFault) (told : files.list directory = .error fault) :
      IsLaidOut settings files directory []
  | listed (directory : String) (entries directories own : List Entry) (below : String → List String)
      (answer : files.list directory = .ok entries)
      (walked : directories.Perm (entries.filter (isWalked settings)))
      (found : own.Perm (entries.filter (isFound settings)))
      (rising : directories.Pairwise Rises) (risingOwn : own.Pairwise Rises)
      (deeper : ∀ entry ∈ directories, IsLaidOut settings files entry.path (below entry.path)) :
      IsLaidOut settings files directory
        (directories.flatMap (fun entry => below entry.path) ++ own.map Entry.path)

private theorem visitAll_files (own : List Entry) :
    visitAll settings files (own.map fun entry => .file entry.path) = .ok (own.map Entry.path) := by
  induction own with
  | nil => rfl
  | cons entry rest ih =>
    rw [List.map_cons, visitAll, ih]
    rfl

private theorem visitAll_directories {directories : List Entry} {below : String → List String}
    (each : ∀ entry ∈ directories, discover settings files entry.path = .ok (below entry.path)) :
    visitAll settings files (directories.map fun entry => .directory entry.path) =
      .ok (directories.flatMap fun entry => below entry.path) := by
  induction directories with
  | nil => rfl
  | cons entry rest ih =>
    rw [List.map_cons, visitAll, visit, each entry List.mem_cons_self,
      ih fun other member => each other (List.mem_cons_of_mem _ member)]
    rfl

/-- Where directories are refused at most, the discovery ends well and level by level. -/
theorem exists_isLaidOut (settings : Settings α) (deep : files.HasDepth)
    (refuses : files.OnlyRefuses) (directory : String) :
    ∃ found, discover settings files directory = .ok found ∧
      IsLaidOut settings files directory found := by
  induction directory using deep.induct with
  | listed directory ih =>
    rw [discover_eq deep]
    cases answer : files.list directory with
    | error fault =>
      refine ⟨[], ?_, .refused directory fault answer⟩
      rw [listTargets, if_pos (refuses directory fault answer)]
      rfl
    | ok entries =>
      obtain ⟨directories, own, walked, found, rising, risingOwn, goals⟩ :=
        targets_eq settings entries
      let below (path : String) : List String := (discover settings files path).toOption.getD []
      have deeper : ∀ entry ∈ directories,
          discover settings files entry.path = .ok (below entry.path) ∧
            IsLaidOut settings files entry.path (below entry.path) := by
        intro entry member
        obtain ⟨listed, isWalked⟩ := List.mem_filter.mp (walked.mem_iff.mp member)
        obtain ⟨more, discovered, laidOut⟩ := ih entry ⟨entries, answer, listed⟩
          (Bool.and_eq_true_iff.mp isWalked).1
        have same : below entry.path = more := by simp only [below, discovered]; rfl
        exact ⟨same ▸ discovered, same ▸ laidOut⟩
      refine ⟨_, ?_, .listed directory entries directories own below answer walked found rising
        risingOwn fun entry member => (deeper entry member).2⟩
      change visitAll settings files (targets settings entries) = _
      rw [goals, visitAll_append,
        visitAll_directories fun entry member => (deeper entry member).1, visitAll_files]
      rfl

/-! ## Soundness and completeness -/

/-- A file that is there, on a way that can be listed, and that no rule leaves out. -/
def IsWithinReach (settings : Settings α) (files : FileSystem) (root path : String) : Prop :=
  ∃ way name, Accepts settings way name ∧ files.Shows root way name ∧
    path = Path.below root (way ++ [name])

private theorem isWithinReach_iff (regular : files.IsRegular) :
    IsWithinReach settings files directory path ↔
      (∃ entry, files.Lists directory entry ∧ isWalked settings entry = true ∧
        IsWithinReach settings files entry.path path) ∨
      ∃ entry, files.Lists directory entry ∧ isFound settings entry = true ∧
        path = entry.path := by
  constructor
  · rintro ⟨way, name, accepted, shows, rfl⟩
    cases way with
    | nil =>
      obtain ⟨step, file, known⟩ := accepts_nil.mp accepted
      exact .inr ⟨_, shows _ List.mem_cons_self, by simp [isFound, file, known], rfl⟩
    | cons part way =>
      obtain ⟨step, kept, rest⟩ := accepts_cons.mp accepted
      exact .inl ⟨_, shows _ List.mem_cons_self, by simp [isWalked, kept], way, name, rest,
        fun step member => shows step (List.mem_cons_of_mem _ member), rfl⟩
  · rintro (⟨entry, lists, walked, way, name, accepted, shows, rfl⟩ | ⟨entry, lists, found, rfl⟩)
    · obtain ⟨part, kind, step, rfl⟩ := regular.exists_of_lists lists
      obtain ⟨rfl, kept⟩ := Bool.and_eq_true_iff.mp walked
      refine ⟨part :: way, name, accepts_cons.mpr ⟨step, by simpa using kept, accepted⟩, ?_, rfl⟩
      intro next member
      rcases List.mem_cons.mp member with rfl | later
      · exact lists
      · exact shows next later
    · obtain ⟨name, kind, step, rfl⟩ := regular.exists_of_lists lists
      obtain ⟨file, kept⟩ := Bool.and_eq_true_iff.mp found
      obtain ⟨notIgnored, known⟩ := Bool.and_eq_true_iff.mp kept
      obtain rfl : kind = false := by simpa using file
      refine ⟨[], name, accepts_nil.mpr ⟨step, by simpa using notIgnored, known⟩, ?_, rfl⟩
      intro next member
      rw [List.mem_singleton.mp member]
      exact lists

/-- What is laid out is what is within reach. -/
theorem IsLaidOut.mem_iff (laidOut : IsLaidOut settings files directory found)
    (regular : files.IsRegular) :
    path ∈ found ↔ IsWithinReach settings files directory path := by
  induction laidOut with
  | refused directory fault told =>
    have nothing : ∀ entry, ¬ files.Lists directory entry := by
      rintro entry ⟨listed, answer, -⟩
      rw [told] at answer
      cases answer
    rw [isWithinReach_iff regular]
    simp [nothing]
  | listed directory entries directories own below answer walked found rising risingOwn deeper ih =>
    have listed : ∀ entry, files.Lists directory entry ↔ entry ∈ entries := by
      intro entry
      simp [FileSystem.Lists, answer]
    rw [isWithinReach_iff regular]
    simp only [List.mem_append, List.mem_flatMap, List.mem_map, listed, walked.mem_iff,
      found.mem_iff, List.mem_filter, and_assoc]
    refine or_congr (exists_congr fun entry => ?_) (exists_congr fun entry => ?_)
    · refine and_congr_right fun inListing => and_congr_right fun isWalked => ?_
      exact ih entry (walked.mem_iff.mpr (List.mem_filter.mpr ⟨inListing, isWalked⟩))
    · exact and_congr_right fun _ => and_congr_right fun _ => eq_comm

-- The way from a directory to a path begins with a name.
private def BeginsWith (directory name path : String) : Prop :=
  ∃ rest, (∀ part ∈ name :: rest, Path.IsStep part.toList) ∧
    path = Path.below directory (name :: rest)

private theorem BeginsWith.name_eq {first second : String}
    (begins : BeginsWith directory first path) (other : BeginsWith directory second path) :
    first = second := by
  obtain ⟨rest, steps, rfl⟩ := begins
  obtain ⟨more, stepsOther, same⟩ := other
  exact (List.cons.inj (Path.below_injective steps stepsOther same)).1

private theorem beginsWith_own (regular : files.IsRegular) {entry : Entry}
    (lists : files.Lists directory entry) : BeginsWith directory entry.name entry.path := by
  obtain ⟨name, kind, step, rfl⟩ := regular.exists_of_lists lists
  exact ⟨[], by simpa using step, rfl⟩

private theorem beginsWith_deeper (regular : files.IsRegular) {entry : Entry}
    (lists : files.Lists directory entry) (reach : IsWithinReach settings files entry.path path) :
    BeginsWith directory entry.name path := by
  obtain ⟨part, kind, step, rfl⟩ := regular.exists_of_lists lists
  obtain ⟨way, name, accepted, -, rfl⟩ := reach
  exact ⟨way ++ [name], List.forall_mem_cons.mpr ⟨step, accepted.forall_isStep⟩, rfl⟩

/-- Nothing is laid out twice. -/
theorem IsLaidOut.nodup (laidOut : IsLaidOut settings files directory found)
    (regular : files.IsRegular) : found.Nodup := by
  induction laidOut with
  | refused => exact .nil
  | listed directory entries directories own below answer walked found rising risingOwn deeper ih =>
    have names : entries.Pairwise fun a b => a.name ≠ b.name :=
      List.pairwise_map.mp (regular.distinct directory entries answer)
    have different : ∀ {keep : Entry → Bool} {kept : List Entry}, kept.Perm (entries.filter keep) →
        kept.Pairwise fun a b => a.name ≠ b.name := fun perm =>
      perm.symm.pairwise (names.filter _) Ne.symm
    have inDirectories : ∀ entry ∈ directories, files.Lists directory entry ∧
        isWalked settings entry = true := by
      intro entry member
      obtain ⟨inListing, isWalked⟩ := List.mem_filter.mp (walked.mem_iff.mp member)
      exact ⟨⟨entries, answer, inListing⟩, isWalked⟩
    have inOwn : ∀ entry ∈ own, files.Lists directory entry ∧ isFound settings entry = true := by
      intro entry member
      obtain ⟨inListing, isFound⟩ := List.mem_filter.mp (found.mem_iff.mp member)
      exact ⟨⟨entries, answer, inListing⟩, isFound⟩
    have begins : ∀ entry ∈ directories, ∀ path ∈ below entry.path,
        BeginsWith directory entry.name path := fun entry member path inBelow =>
      beginsWith_deeper regular (inDirectories entry member).1
        (((deeper entry member).mem_iff regular).mp inBelow)
    have beginsOwn : ∀ entry ∈ own, BeginsWith directory entry.name entry.path :=
      fun entry member => beginsWith_own regular (inOwn entry member).1
    refine List.nodup_append.mpr ⟨List.nodup_flatMap.mpr ⟨ih, ?_⟩, ?_, ?_⟩
    · refine (different walked).imp_of_mem fun {a b} inA inB differ path first second => ?_
      exact differ ((begins a inA path first).name_eq (begins b inB path second))
    · refine List.pairwise_map.mpr ((different found).imp_of_mem fun {a b} inA inB differ same => ?_)
      exact differ ((beginsOwn a inA).name_eq (same ▸ beginsOwn b inB))
    · intro path inBelow other inFiles same
      obtain ⟨above, inAbove, inBelow⟩ := List.mem_flatMap.mp inBelow
      obtain ⟨file, inFile, rfl⟩ := List.mem_map.mp inFiles
      subst same
      have name := (begins above inAbove _ inBelow).name_eq (beginsOwn file inFile)
      obtain ⟨inListing, isDirectory⟩ := List.mem_filter.mp (walked.mem_iff.mp inAbove)
      obtain ⟨inListing', isFile⟩ := List.mem_filter.mp (found.mem_iff.mp inFile)
      obtain rfl := List.inj_on_of_nodup_map (regular.distinct directory entries answer) inListing
        inListing' name
      have directory := (Bool.and_eq_true_iff.mp isDirectory).1
      simp [isFound, directory] at isFile

/-! ## Refused directories -/

private theorem exists_mem_wayTo_iff {way : List String} {name refused : String} :
    (∃ step ∈ wayTo root way name, step.1 = refused) ↔
      ∃ front, front <+: way ∧ refused = Path.below root front := by
  induction way generalizing root with
  | nil =>
    simp only [wayTo, List.mem_singleton, exists_eq_left, List.prefix_nil]
    exact eq_comm
  | cons part way ih =>
    simp only [wayTo, List.mem_cons, or_and_right, exists_or, exists_eq_left, ih]
    constructor
    · rintro (rfl | ⟨front, ahead, rfl⟩)
      · exact ⟨[], List.nil_prefix, rfl⟩
      · exact ⟨part :: front, List.cons_prefix_cons.mpr ⟨rfl, ahead⟩, rfl⟩
    · rintro ⟨_ | ⟨first, front⟩, ahead, rfl⟩
      · exact .inl rfl
      · obtain ⟨rfl, further⟩ := List.cons_prefix_cons.mp ahead
        exact .inr ⟨front, further, rfl⟩

/-- A refused directory takes what lies below it out of reach, and nothing else. -/
theorem isWithinReach_refusing {way : List String} (steps : ∀ part ∈ way, Path.IsStep part.toList)
    (fault : FileFault) :
    IsWithinReach settings (files.refusing (Path.below root way) fault) root path ↔
      IsWithinReach settings files root path ∧ ¬ Path.IsBelow (Path.below root way) path := by
  have apart : ∀ {front name}, Accepts settings front name →
      ((∀ step ∈ wayTo root front name, step.1 ≠ Path.below root way) ↔
        ¬ Path.IsBelow (Path.below root way) (Path.below root (front ++ [name]))) := by
    intro front name accepted
    rw [Path.isBelow_iff accepted.steps steps accepted.step]
    have onWay : (∃ step ∈ wayTo root front name, step.1 = Path.below root way) ↔ way <+: front := by
      rw [exists_mem_wayTo_iff]
      constructor
      · rintro ⟨part, ahead, same⟩
        have stepsPart := fun name member => accepted.steps name (ahead.subset member)
        rwa [Path.below_injective steps stepsPart same]
      · exact fun ahead => ⟨way, ahead, rfl⟩
    rw [← onWay]
    simp only [not_exists, not_and, ne_eq]
  constructor
  · rintro ⟨front, name, accepted, shows, rfl⟩
    have listed := fun step member => lists_refusing.mp (shows step member)
    exact ⟨⟨front, name, accepted, fun step member => (listed step member).2, rfl⟩,
      (apart accepted).mp fun step member => (listed step member).1⟩
  · rintro ⟨⟨front, name, accepted, shows, rfl⟩, outside⟩
    have other := (apart accepted).mpr outside
    exact ⟨front, name, accepted,
      fun step member => lists_refusing.mpr ⟨other step member, shows step member⟩, rfl⟩

private theorem visitAll_cons_eq_ok {target : Target} {rest : List Target} :
    visitAll settings files (target :: rest) = .ok found ↔
      ∃ first later, visit settings files target = .ok first ∧
        visitAll settings files rest = .ok later ∧ found = first ++ later := by
  rw [visitAll]
  cases visit settings files target with
  | error fault => simp [bind, Except.bind]
  | ok first =>
    cases visitAll settings files rest with
    | error fault => simp [bind, Except.bind]
    | ok later => simp [bind, Except.bind, pure, Except.pure, eq_comm]

private theorem visitAll_sublist {other : FileSystem} {targets : List Target}
    {found spared : List String}
    (each : ∀ target ∈ targets, ∀ found spared, visit settings files target = .ok found →
      visit settings other target = .ok spared → spared.Sublist found)
    (visited : visitAll settings files targets = .ok found)
    (visitedStill : visitAll settings other targets = .ok spared) : spared.Sublist found := by
  induction targets generalizing found spared with
  | nil =>
    cases visited
    cases visitedStill
    exact .slnil
  | cons target rest ih =>
    obtain ⟨first, later, here, more, rfl⟩ := visitAll_cons_eq_ok.mp visited
    obtain ⟨firstStill, laterStill, hereStill, moreStill, rfl⟩ :=
      visitAll_cons_eq_ok.mp visitedStill
    exact (each target List.mem_cons_self _ _ here hereStill).append
      (ih (fun next member => each next (List.mem_cons_of_mem _ member)) more moreStill)

/-- What is still found when a directory is refused comes in the same order as before. -/
theorem sublist_of_refusing (deep : files.HasDepth) {refused : String} {fault : FileFault}
    (unavailable : fault.isUnavailable = true) {spared : List String}
    (discovered : discover settings files directory = .ok found)
    (discoveredStill : discover settings (files.refusing refused fault) directory = .ok spared) :
    spared.Sublist found := by
  induction directory using deep.induct generalizing found spared with
  | listed directory ih =>
    rw [discover_eq deep] at discovered
    rw [discover_eq (deep.refusing refused fault)] at discoveredStill
    by_cases same : directory = refused
    · rw [same, list_refused, listTargets, if_pos unavailable] at discoveredStill
      cases discoveredStill
      exact List.nil_sublist found
    · rw [list_refusing same] at discoveredStill
      cases listed : listTargets settings (files.list directory) with
      | error fault => rw [listed] at discovered; cases discovered
      | ok targets =>
        rw [listed] at discovered discoveredStill
        refine visitAll_sublist ?_ discovered discoveredStill
        rintro (path | path) member found spared visited visitedStill
        · obtain ⟨entry, lists, isDirectory, rfl⟩ := lists_of_mem listed member
          exact ih entry lists isDirectory visited visitedStill
        · cases visited
          cases visitedStill
          exact .refl _

/-- The discovery of files is sound, complete and ordered. Where the system refuses directories at
most, it finds just the files that are within reach, each once, and level by level. If it refuses one
more directory, the files below are missing and all else is as before. -/
theorem discover_is_exact_and_ordered (settings : Settings α) (regular : files.IsRegular)
    (deep : files.HasDepth) (refuses : files.OnlyRefuses) (root : String) :
    ∃ found, discover settings files root = .ok found ∧ found.Nodup ∧
      (∀ path, path ∈ found ↔ IsWithinReach settings files root path) ∧
      IsLaidOut settings files root found ∧
      ∀ (way : List String) (fault : FileFault), (∀ part ∈ way, Path.IsStep part.toList) →
        fault.isUnavailable = true →
        ∃ spared, discover settings (files.refusing (Path.below root way) fault) root = .ok spared ∧
          spared.Sublist found ∧
          ∀ path, path ∈ spared ↔ path ∈ found ∧ ¬ Path.IsBelow (Path.below root way) path := by
  obtain ⟨found, discovered, laidOut⟩ := exists_isLaidOut settings deep refuses root
  refine ⟨found, discovered, laidOut.nodup regular, fun _ => laidOut.mem_iff regular, laidOut, ?_⟩
  intro way fault steps unavailable
  obtain ⟨spared, discoveredStill, laidOutStill⟩ := exists_isLaidOut settings
    (deep.refusing (Path.below root way) fault) (refuses.refusing _ unavailable) root
  refine ⟨spared, discoveredStill,
    sublist_of_refusing deep unavailable discovered discoveredStill, fun path => ?_⟩
  rw [laidOutStill.mem_iff (regular.refusing _ fault), isWithinReach_refusing steps,
    laidOut.mem_iff regular]

/-- Directories whose names rise only if case is set aside, one of which is refused. -/
def crowdedVolume : Volume :=
  ((((Volume.write {} "/p/Zoo/b.py" (.ofText "")).write "/p/main.py" (.ofText "")).write
    "/p/api/a.py" (.ofText "")).write "/p/locked/c.py" (.ofText "")).makeDirectory "/p/locked"
      (some (.unavailable "denied"))

private theorem discover_crowdedVolume (deep : crowdedVolume.fileSystem.HasDepth) :
    discover ({} : Settings Float) crowdedVolume.fileSystem "/p" =
      .ok ["/p/api/a.py", "/p/Zoo/b.py", "/p/main.py"] := by
  have top : crowdedVolume.fileSystem.list "/p" =
      .ok [⟨"Zoo", "/p/Zoo", true⟩, ⟨"api", "/p/api", true⟩, ⟨"locked", "/p/locked", true⟩,
        ⟨"main.py", "/p/main.py", false⟩] := by decide +kernel
  have leads : listTargets ({} : Settings Float) (crowdedVolume.fileSystem.list "/p") =
      .ok [.directory "/p/api", .directory "/p/locked", .directory "/p/Zoo", .file "/p/main.py"] := by
    have sorted : [⟨"Zoo", "/p/Zoo", true⟩, ⟨"api", "/p/api", true⟩, ⟨"locked", "/p/locked", true⟩,
        ⟨"main.py", "/p/main.py", false⟩].Perm
      [⟨"api", "/p/api", true⟩, ⟨"locked", "/p/locked", true⟩, ⟨"Zoo", "/p/Zoo", true⟩,
        (⟨"main.py", "/p/main.py", false⟩ : Entry)] := by decide +kernel
    rw [top, listTargets,
      NamesApart.targets_of_sorted (by decide +kernel) sorted (by decide +kernel)]
    decide +kernel
  have api : discover ({} : Settings Float) crowdedVolume.fileSystem "/p/api" =
      .ok ["/p/api/a.py"] := by decide +kernel
  have locked : discover ({} : Settings Float) crowdedVolume.fileSystem "/p/locked" = .ok [] := by
    decide +kernel
  have zoo : discover ({} : Settings Float) crowdedVolume.fileSystem "/p/Zoo" =
      .ok ["/p/Zoo/b.py"] := by decide +kernel
  rw [discover_eq deep, leads]
  simp only [Except.bind, visitAll, visit, api, locked, zoo]
  rfl

theorem discovery_of_crowded_volume :
    ∃ found, discover ({} : Settings Float) crowdedVolume.fileSystem "/p" = .ok found ∧
      found = ["/p/api/a.py", "/p/Zoo/b.py", "/p/main.py"] ∧ found.Nodup ∧
      IsLaidOut ({} : Settings Float) crowdedVolume.fileSystem "/p" found ∧
      ¬ IsWithinReach ({} : Settings Float) crowdedVolume.fileSystem "/p" "/p/locked/c.py" ∧
      ∃ spared, discover ({} : Settings Float)
          (crowdedVolume.fileSystem.refusing "/p/Zoo" (.unavailable "denied")) "/p" = .ok spared ∧
        "/p/Zoo/b.py" ∉ spared ∧ "/p/main.py" ∈ spared := by
  have tidy : crowdedVolume.IsTidy := by decide +kernel
  have deep := tidy.hasDepth
  obtain ⟨found, discovered, distinct, reach, laidOut, refused⟩ :=
    discover_is_exact_and_ordered ({} : Settings Float) tidy.isRegular deep
      (Volume.onlyRefuses (by decide +kernel)) "/p"
  have same := discovered.symm.trans (discover_crowdedVolume deep)
  cases same
  obtain ⟨spared, discoveredStill, -, remain⟩ :=
    refused ["Zoo"] (.unavailable "denied") (by decide +kernel) rfl
  have steps : ∀ part ∈ ["Zoo"], Path.IsStep part.toList := by decide +kernel
  have below : Path.IsBelow "/p/Zoo" "/p/Zoo/b.py" := ⟨["b.py"], by decide +kernel⟩
  have beside : ¬ Path.IsBelow "/p/Zoo" "/p/main.py" := by
    intro below
    change Path.IsBelow (Path.below "/p" ["Zoo"]) (Path.below "/p" ([] ++ ["main.py"])) at below
    cases List.prefix_nil.mp ((Path.isBelow_iff (by simp) steps (by decide +kernel)).mp below)
  refine ⟨_, discovered, rfl, distinct, laidOut, ?_, spared, discoveredStill, ?_, ?_⟩
  · exact fun inReach => absurd ((reach _).mpr inReach) (by decide)
  · exact fun member => ((remain _).mp member).2 below
  · exact (remain _).mpr ⟨by decide, beside⟩

end Walk

end CodeSearch
