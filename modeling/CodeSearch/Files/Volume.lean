import CodeSearch.Files.Basic
import CodeSearch.OrderedMap

/-! # Files in memory

A volume holds files and directories in the order in which they were made. Reading may fail by
arrangement, and a file may claim a size of its own. Paths are compared as they are written.
-/

namespace CodeSearch

/-- What a file of a volume answers. -/
structure StoredFile where
  content : Except FileFault String
  size : Option Int

/-- A file that holds a text and is as large as its bytes. -/
def StoredFile.ofText (content : String) : StoredFile := ⟨.ok content, some content.utf8ByteSize⟩

/-- Directories, with the fault that listing them meets, and files. -/
structure Volume where
  directories : OrderedMap String (Option FileFault) := ∅
  files : OrderedMap String StoredFile := ∅

namespace Volume

/-- The directories above a path, the nearest first; no more than the given number. -/
def ancestors : Nat → String → List String
  | 0, _ => []
  | count + 1, path =>
    let above := Path.parent path
    if above = path then [] else above :: ancestors count above

/-- Makes a directory unless it is there. -/
def ensure (directories : OrderedMap String (Option FileFault)) (path : String) :
    OrderedMap String (Option FileFault) :=
  if directories.contains path then directories else directories.insert path none

/-- Makes the directories above a path, the outermost first. -/
def ensureAbove (volume : Volume) (path : String) : Volume :=
  { volume with
    directories := (ancestors path.length path).reverse.foldl ensure volume.directories }

/-- Makes a directory, and with a fault given, one that cannot be listed. -/
def makeDirectory (volume : Volume) (path : String) (fault : Option FileFault) : Volume :=
  let volume := volume.ensureAbove path
  { volume with
    directories :=
      if fault.isSome then volume.directories.insert path fault
      else ensure volume.directories path }

/-- Writes a file; one that is there keeps its place. -/
def write (volume : Volume) (path : String) (file : StoredFile) : Volume :=
  let volume := volume.ensureAbove path
  { volume with files := volume.files.insert path file }

/-- Removes a file; its directory stays. -/
def remove (volume : Volume) (path : String) : Volume :=
  { volume with files := volume.files.erase path }

def size (volume : Volume) (path : String) : Option Int :=
  (volume.files.get? path).bind StoredFile.size

def read (volume : Volume) (path : String) : Except FileFault String :=
  match volume.files.get? path with
  | some file => file.content
  | none => .error (.absent path)

/-- The paths that lie directly in a directory. -/
def membersOf (directory : String) (paths : List String) : List String :=
  paths.filter fun path => path != directory && Path.parent path == directory

/-- Directories come first, each kind in the order in which it was made. -/
def list (volume : Volume) (path : String) : Except FileFault (List Entry) :=
  match volume.directories.get? path with
  | none => .error (.absent path)
  | some (some fault) => .error fault
  | some none =>
    let entries (isDirectory : Bool) (paths : List String) : List Entry :=
      (membersOf path paths).map fun member => ⟨Path.baseName member, member, isDirectory⟩
    .ok (entries true volume.directories.keys ++ entries false volume.files.keys)

def fileSystem (volume : Volume) : FileSystem where
  size path := .ok (volume.size path)
  read := volume.read
  list := volume.list
  depth := volume.directories.size + 1

end Volume

end CodeSearch
