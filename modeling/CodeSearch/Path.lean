import CodeSearch.Text.Pieces

/-! # Paths

Absolute paths are put into normal form by working off their components. A path that starts with
exactly two slashes keeps both: it lies under a root of its own.
-/

namespace CodeSearch.Path

/-- What stands between the slashes, empty components included. -/
def components (path : String) : List (List Char) := Text.splitAt (· == '/') path.toList

def isAbsolute (path : String) : Bool := Text.startsWith ['/'] path.toList

/-- How many slashes the normal form starts with. -/
def rootSlashes (path : String) : Nat :=
  match path.toList with
  | '/' :: '/' :: '/' :: _ => 1
  | '/' :: '/' :: _ => 2
  | '/' :: _ => 1
  | _ => 0

/-- One component is taken into account; `kept` holds those that stand so far, last first. A step up
removes the last one, and is kept only where there is nothing to remove. -/
def resolveStep (rooted : Bool) (kept : List (List Char)) (component : List Char) :
    List (List Char) :=
  if component = [] || component = ['.'] then kept
  else if component = ['.', '.'] then
    match kept with
    | [] => if rooted then [] else [component]
    | last :: rest => if last = ['.', '.'] then component :: kept else rest
  else component :: kept

/-- The components that remain when steps up are worked off. -/
def resolve (rooted : Bool) (parts : List (List Char)) : List (List Char) :=
  (parts.foldl (resolveStep rooted) []).reverse

/-- The shortest path with the same meaning, by its text alone. -/
def normalize (path : String) : String :=
  let slashes := rootSlashes path
  let kept := resolve (slashes != 0) (components path)
  let text := List.replicate slashes '/' ++ Text.joinWith ['/'] kept
  if text.isEmpty then "." else String.ofList text

/-- A path below a directory; an absolute one stands for itself. -/
def join (directory path : String) : String :=
  if isAbsolute path then path
  else if directory.isEmpty || Text.endsWith ['/'] directory.toList then directory ++ path
  else directory ++ "/" ++ path

/-- Paths that are not absolute are taken from the top. -/
def absolute (path : String) : String := normalize (join "/" path)

/-- The components of an absolute path without the empty ones. -/
def steps (path : String) : List (List Char) :=
  (components (absolute path)).filter fun component => !component.isEmpty

/-- Both lists without the components that they start with in common. -/
def dropCommon : List (List Char) → List (List Char) → List (List Char) × List (List Char)
  | a :: as, b :: bs => if a = b then dropCommon as bs else (a :: as, b :: bs)
  | as, bs => (as, bs)

/-- The way from a directory to a path: up to where they part, then down. No way leads to the empty
path. -/
def relative? (root path : String) : Option String :=
  if path.isEmpty then none
  else
    let (up, down) := dropCommon (steps root) (steps path)
    let way := up.map (fun _ => ['.', '.']) ++ down
    some (if way.isEmpty then "." else String.ofList (Text.joinWith ['/'] way))

def withoutEndSlashes (path : String) : String :=
  String.ofList ((path.toList.reverse.dropWhile (· == '/')).reverse)

/-- The directory that holds a path, by its text alone. -/
def parent (path : String) : String :=
  let head := (path.toList.reverse.dropWhile (· != '/')).reverse
  let stripped := (head.reverse.dropWhile (· == '/')).reverse
  String.ofList (if stripped.isEmpty then head else stripped)

/-- What stands behind the last slash. -/
def baseName (path : String) : String :=
  String.ofList ((path.toList.reverse.takeWhile (· != '/')).reverse)

/-- The last component that is neither empty nor a single dot; a path of slashes and dots has none.
-/
def finalName (path : String) : List Char :=
  ((components path).filter fun component => !component.isEmpty && component != ['.']).getLastD []

/-- The last point of a name with what follows it, unless it opens or ends the name. -/
def nameSuffix (name : List Char) : List Char :=
  let behind := name.reverse.takeWhile (· != '.')
  let front := name.length - behind.length
  if behind.length = name.length || behind.isEmpty || front ≤ 1 then []
  else '.' :: behind.reverse

/-- The suffix of the file that a path names. -/
def suffix (path : String) : List Char := nameSuffix (finalName path)

/-- The extension in the other sense: the last point of the last component and what follows it, even
if nothing does, unless only points stand before it. -/
def extension (path : String) : List Char :=
  let name := (baseName path).toList
  let behind := name.reverse.takeWhile (· != '.')
  let front := name.take (name.length - behind.length - 1)
  if behind.length = name.length || front.all (· == '.') then [] else '.' :: behind.reverse

end CodeSearch.Path
