import CodeSearch.Path

/-! # File systems

The index sees files through three questions: how large a file is, what it holds, and what a
directory lists. Answers may differ from call to call only if the file system is replaced.
-/

namespace CodeSearch

/-- Why a file or a directory was not read. -/
inductive FileFault where
  /-- The bytes are not text. -/
  | undecodable (message : String)
  /-- Nothing stands at the path. -/
  | absent (message : String)
  /-- A directory stands at the path of a file. -/
  | isDirectory (message : String)
  /-- What should be a directory is none. -/
  | notDirectory (message : String)
  /-- The system refuses what stands there. -/
  | unavailable (message : String)
  /-- What was asked for makes no sense to the file system. -/
  | invalid (message : String)
  /-- The file system itself fails. -/
  | broken (message : String)
  deriving DecidableEq

namespace FileFault

def message : FileFault → String
  | undecodable message => message
  | absent message => message
  | isDirectory message => message
  | notDirectory message => message
  | unavailable message => message
  | invalid message => message
  | broken message => message

/-- Whether the system does not give access, because it refuses or because there is nothing. -/
def isUnavailable : FileFault → Bool
  | absent _ | isDirectory _ | notDirectory _ | unavailable _ => true
  | _ => false

end FileFault

/-- What a directory lists. A link counts as a file, wherever it leads. -/
structure Entry where
  name : String
  path : String
  isDirectory : Bool
  deriving DecidableEq

/-- The answers of a file system at one moment. A file has no size exactly if it is not there or the
system does not tell; asking for the size fails only where the path makes no sense. -/
structure FileSystem where
  size : String → Except FileFault (Option Int)
  read : String → Except FileFault String
  list : String → Except FileFault (List Entry)
  /-- No directory lies deeper below another. -/
  depth : Nat

/-- Why nothing can be added at the end of a file, if it cannot. A file that is not there is made,
provided that its directory is there. -/
def FileSystem.appendFault? (files : FileSystem) (path : String) : Option FileFault :=
  match files.read path with
  | .ok _ => none
  | .error (.undecodable _) => none
  | .error (.absent message) =>
    match files.list (Path.parent path) with
    | .ok _ => none
    | .error _ => some (.absent message)
  | .error fault => some fault

end CodeSearch
