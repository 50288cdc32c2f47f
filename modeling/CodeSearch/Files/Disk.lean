import CodeSearch.Files.Basic
import CodeSearch.OrderedMap
import CodeSearch.Text.Utf8

/-! # Files on a disk

A disk holds bytes, links and directories under absolute paths. Links are followed wherever a path
leads through them. Files are read as UTF-8 with line ends made uniform.
-/

namespace CodeSearch

/-- What stands at a path. -/
inductive DiskNode where
  | file (bytes : List UInt8)
  | link (target : String)
  | directory

/-- Everything on a disk by its path, all directories included. -/
abbrev Disk := OrderedMap String DiskNode

/-- Why a path does not lead to what was asked for. -/
inductive PathFault where
  | missing
  | notDirectory
  | isDirectory
  | tooManyLinks
  /-- A path cannot hold a null character. -/
  | nullCharacter

/-- A message about a path names the number of the system's error. -/
def PathFault.toFileFault (path : String) : PathFault → FileFault
  | missing => .absent ("[Errno 2] No such file or directory: " ++ quotedText path)
  | notDirectory => .notDirectory ("[Errno 20] Not a directory: " ++ quotedText path)
  | isDirectory => .isDirectory ("[Errno 21] Is a directory: " ++ quotedText path)
  | tooManyLinks =>
    .unavailable ("[Errno 40] Too many levels of symbolic links: " ++ quotedText path)
  | nullCharacter => .invalid "embedded null byte"

namespace Disk

/-- The root is always there. -/
def node? (disk : Disk) (path : String) : Option DiskNode :=
  if path = "/" then some .directory else disk.get? path

/-- How many links are followed on one way. -/
def linkLimit : Nat := 40

/-- Follows components from a directory on, and links with them. What is done where nothing stands
is for `fill` to say. -/
def follow (fill : Disk → String → Except PathFault Disk) (disk : Disk) (links : Nat)
    (place : String) (components : List (List Char)) : Except PathFault (Disk × String) :=
  match components with
  | [] => .ok (disk, place)
  | component :: rest =>
    match disk.node? place with
    | some .directory =>
      if component = [] || component = ['.'] then follow fill disk links place rest
      else if component = ['.', '.'] then follow fill disk links (Path.parent place) rest
      else
        let next := Path.join place (String.ofList component)
        match disk.node? next, links with
        | none, links =>
          match fill disk next with
          | .ok disk => follow fill disk links next rest
          | .error fault => .error fault
        | some (.link _), 0 => .error .tooManyLinks
        | some (.link target), links + 1 =>
          follow fill disk links (if Path.isAbsolute target then "/" else place)
            (Path.components target ++ rest)
        | some _, links => follow fill disk links next rest
    | _ => .error .notDirectory
termination_by (links, components.length)
decreasing_by all_goals (simp_wf; omega)

/-- The path of what a path leads to when all links are followed. -/
def locate (disk : Disk) (path : String) : Except PathFault String :=
  if path.toList.contains '\x00' then .error .nullCharacter
  else
    (disk.follow (fun _ _ => .error .missing) linkLimit "/" (Path.components path)).map Prod.snd

/-- What a path leads to. -/
def resolve (disk : Disk) (path : String) : Except PathFault DiskNode := do
  match disk.node? (← disk.locate path) with
  | some node => .ok node
  | none => .error .missing

/-- The size that a directory has. -/
def directorySize : Int := 4096

def size (disk : Disk) (path : String) : Except FileFault (Option Int) :=
  match disk.resolve path with
  | .ok (.file bytes) => .ok (some bytes.length)
  | .ok _ => .ok (some directorySize)
  | .error .nullCharacter => .error (PathFault.nullCharacter.toFileFault path)
  | .error _ => .ok none

/-- The text of a file. -/
def textOf (bytes : List UInt8) : Except FileFault String :=
  match Text.decodeUtf8 bytes with
  | .ok text => .ok (String.ofList (Text.unifyLineEnds text))
  | .error fault => .error (.undecodable fault.message)

def read (disk : Disk) (path : String) : Except FileFault String :=
  match disk.resolve path with
  | .ok (.file bytes) => textOf bytes
  | .ok _ => .error (PathFault.isDirectory.toFileFault path)
  | .error fault => .error (fault.toFileFault path)

/-- The entries of the directory at a place; they are named below the path that was asked for. -/
def entriesAt (disk : Disk) (place path : String) : List Entry :=
  disk.entries.filterMap fun (member, node) =>
    if member != place && Path.parent member == place then
      let isDirectory := match node with
        | .directory => true
        | _ => false
      some ⟨Path.baseName member, Path.join path (Path.baseName member), isDirectory⟩
    else none

def list (disk : Disk) (path : String) : Except FileFault (List Entry) :=
  match disk.locate path with
  | .error fault => .error (fault.toFileFault path)
  | .ok place =>
    match disk.node? place with
    | some .directory => .ok (disk.entriesAt place path)
    | _ => .error (PathFault.notDirectory.toFileFault path)

/-- Makes a directory with all that are missing on the way to it. -/
def makeDirectory (disk : Disk) (path : String) : Disk :=
  match disk.follow (fun disk path => .ok (disk.insert path .directory)) linkLimit "/"
      (Path.components path) with
  | .ok (disk, _) => disk
  | .error _ => disk

/-- The path of what stands at a path, of which only the part in front of the last component is
followed. -/
def placeOf (disk : Disk) (path : String) : String :=
  let path := Path.withoutEndSlashes path
  match disk.locate (Path.parent path) with
  | .ok place => Path.join place (Path.baseName path)
  | .error _ => path

/-- The place to which links at a place lead, even if nothing stands there yet. -/
def landing (disk : Disk) : Nat → String → String
  | 0, place => place
  | links + 1, place =>
    match disk.node? place with
    | some (.link target) =>
      landing disk links (disk.placeOf (Path.join (Path.parent place) target))
    | _ => place

/-- Puts something at a path; the directories above it are made. The bytes of a file go to where
links lead. -/
def write (disk : Disk) (path : String) (node : DiskNode) : Disk :=
  let disk := disk.makeDirectory (Path.parent path)
  let place := disk.placeOf path
  let place := match node with
    | .file _ => disk.landing linkLimit place
    | _ => place
  OrderedMap.insert disk place node

/-- Removes a file, a link, or a directory with everything below it. -/
def remove (disk : Disk) (path : String) : Disk :=
  let place := disk.placeOf path
  disk.filter fun member _ =>
    member != place && !Text.startsWith (place.toList ++ ['/']) member.toList

def fileSystem (disk : Disk) : FileSystem where
  size := disk.size
  read := disk.read
  list := disk.list
  depth := OrderedMap.size disk + 1

end Disk

end CodeSearch
