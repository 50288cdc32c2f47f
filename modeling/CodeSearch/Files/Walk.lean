import CodeSearch.Files.Basic
import CodeSearch.Language
import CodeSearch.Settings.Exclusion
import CodeSearch.Text.Sorting

/-! # Walking a project

A walk visits directories before files and both in the order of their names without regard to case.
A directory that the system refuses to list is passed over; any other fault ends the walk.
-/

namespace CodeSearch.Walk

variable {α : Type} [Scalar α]

/-- What a walk goes to: a directory that it lists or a file that it finds. -/
inductive Target where
  | directory (path : String)
  | file (path : String)
  deriving DecidableEq

/-- Directories come before files; names are compared without regard to case. -/
def precedes (a b : Entry) : Bool :=
  if a.isDirectory = b.isDirectory then textLE (foldCase a.name) (foldCase b.name)
  else a.isDirectory

/-- What an entry leads to, unless it is left out. -/
def target? (settings : Settings α) (entry : Entry) : Option Target :=
  if entry.isDirectory then
    if settings.ignoresDirectory entry.name then none else some (.directory entry.path)
  else if !settings.ignoresFile entry.name && isIndexable entry.name then some (.file entry.path)
  else none

/-- What a listing leads to, in the order of the walk. -/
def targets (settings : Settings α) (entries : List Entry) : List Target :=
  (entries.mergeSort precedes).filterMap (target? settings)

/-- What the listing of a directory leads to; a refusal leads nowhere. -/
def listTargets (settings : Settings α) (listing : Except FileFault (List Entry)) :
    Except FileFault (List Target) :=
  match listing with
  | .ok entries => .ok (targets settings entries)
  | .error fault => if fault.isUnavailable then .ok [] else .error fault

/-- The files below a directory, down to a given depth. -/
def filesBelow (settings : Settings α) (files : FileSystem) :
    Nat → String → Except FileFault (List String)
  | 0, _ => .ok []
  | depth + 1, directory => do
    let found ← (← listTargets settings (files.list directory)).mapM fun
      | .directory path => filesBelow settings files depth path
      | .file path => .ok [path]
    return found.flatten

end CodeSearch.Walk

namespace CodeSearch

/-- The files of a project that are indexed, in the order of the walk. -/
def discover {α : Type} [Scalar α] (settings : Settings α) (files : FileSystem) (root : String) :
    Except FileFault (List String) :=
  Walk.filesBelow settings files files.depth root

end CodeSearch
