import CodeSearch.Proofs.Files.Admission
import CodeSearch.Proofs.Files.Volumes
import CodeSearch.Proofs.Path.Endings

/-! # What the exclusions keep out

Directories and extensions are put into lower case before they are looked for among those that are
excluded, and these are taken as they are given. So an exclusion that is not in lower case keeps
nothing out. Neither is a file kept out whose extension is not the suffix from which its language is
told. Everything else that is excluded is not discovered.
-/

namespace CodeSearch.Walk

variable {α : Type} [Scalar α] {settings : Settings α} {files : FileSystem} {root : String}
  {found : List String}

theorem not_excluded_of_kept {name : String} (kept : settings.ignoresDirectory name = false) :
    lowerCase name ∉ settings.excludedDirectories := by
  rw [Settings.ignoresDirectory, Bool.or_eq_false_iff] at kept
  simpa using kept.1

theorem not_excluded_of_found {name : String} (kept : settings.ignoresFile name = false) :
    name ∉ settings.excludedFiles ∧
      lowerCase (String.ofList (Path.extension name)) ∉ settings.excludedExtensions := by
  rw [Settings.ignoresFile, Bool.or_eq_false_iff, Bool.or_eq_false_iff] at kept
  rw [lowerCase, String.toList_ofList]
  exact ⟨by simpa using kept.1.1, by simpa using kept.2⟩

/-- No directory is entered whose name is excluded in lower case, and no file is found whose name is
excluded, nor one whose suffix is excluded in lower case, unless the name ends oddly. -/
theorem exclusions_hold_but_for_case_and_odd_endings (regular : files.IsRegular)
    (rooted : ∃ path, root = Path.absolute path)
    (discovered : discover settings files root = .ok found) :
    ∀ path ∈ found, ∃ (way : List String) (name : String),
      (∀ part ∈ way ++ [name], Path.IsStep part.toList) ∧ path = Path.below root (way ++ [name]) ∧
      (∀ directory ∈ way, lowerCase directory ∉ settings.excludedDirectories) ∧
      name ∉ settings.excludedFiles ∧
      lowerCase (String.ofList (Path.extension name)) ∉ settings.excludedExtensions ∧
      (lowerCase (Language.suffixOf name) ∈ settings.excludedExtensions →
        Path.HasOddEnding name) := by
  intro path member
  obtain ⟨way, name, accepted, below⟩ := exists_way_of_discover regular rooted discovered member
  obtain ⟨named, plain⟩ := not_excluded_of_found accepted.file
  refine ⟨way, name, accepted.forall_isStep, below, ?_, named, plain, ?_⟩
  · exact fun directory onWay => not_excluded_of_kept (accepted.directories directory onWay)
  · intro excluded
    rcases Path.suffixOf_eq_extension_or_odd accepted.step accepted.known with same | odd
    · exact absurd (same ▸ excluded) plain
    · exact odd

/-- A file alone. -/
def loneVolume (path : String) : Volume := Volume.write {} path (.ofText "")

theorem odd_file_below_build_is_discovered :
    ∃ (way : List String) (name : String),
      discover ({ excludedDirectories := ["Build"], excludedExtensions := [".ts"] } : Settings Float)
        (loneVolume "/p/Build/..ts").fileSystem "/p" = .ok ["/p/Build/..ts"] ∧
      "/p/Build/..ts" = Path.below "/p" (way ++ [name]) ∧
      (∀ directory ∈ way, lowerCase directory ∉ ["Build"]) ∧
      (lowerCase (Language.suffixOf name) ∈ [".ts"] → Path.HasOddEnding name) := by
  have discovered :
      discover ({ excludedDirectories := ["Build"], excludedExtensions := [".ts"] } : Settings Float)
        (loneVolume "/p/Build/..ts").fileSystem "/p" = .ok ["/p/Build/..ts"] := by decide +kernel
  have tidy : (loneVolume "/p/Build/..ts").IsTidy := by decide +kernel
  have rooted : ∃ path, "/p" = Path.absolute path := ⟨"/p", by decide +kernel⟩
  obtain ⟨way, name, -, below, directories, -, -, odd⟩ :=
    exclusions_hold_but_for_case_and_odd_endings tidy.isRegular rooted discovered _
      List.mem_cons_self
  exact ⟨way, name, discovered, below, directories, odd⟩

/-- An excluded directory is entered, and files with an excluded suffix are discovered, where it is
not in lower case or not the extension of the name. -/
theorem excluded_names_are_discovered :
    discover ({ excludedDirectories := ["Build"] } : Settings Float)
      (loneVolume "/p/Build/a.py").fileSystem "/p" = .ok ["/p/Build/a.py"] ∧
    (Language.suffixOf "a.TS" = ".TS" ∧
      discover ({ excludedExtensions := [".TS"] } : Settings Float)
        (loneVolume "/p/a.TS").fileSystem "/p" = .ok ["/p/a.TS"]) ∧
    (Language.suffixOf "..ts" = ".ts" ∧
      discover ({ excludedExtensions := [".ts"] } : Settings Float)
        (loneVolume "/p/..ts").fileSystem "/p" = .ok ["/p/..ts"]) ∧
    (Language.suffixOf "a.ts\\" = ".ts" ∧
      discover ({ excludedExtensions := [".ts"] } : Settings Float)
        (loneVolume "/p/a.ts\\").fileSystem "/p" = .ok ["/p/a.ts\\"]) := by
  decide +kernel

end CodeSearch.Walk
