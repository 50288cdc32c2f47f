import CodeSearch.Search.Ranking

/-! # Context

Hits are grouped by their files. A file with one hit is shown whole; of a file with more, the lines
around its best hits are shown.
-/

namespace CodeSearch

/-- The hits of one file with the best score among them. -/
structure FileHits (α : Type) where
  filePath : String
  maxScore : α
  hits : List (Hit α)

/-- What is shown of one file. -/
structure ContextItem (α : Type) where
  path : String
  content : String
  score : α

namespace Context

variable {α : Type} [Scalar α]

/-- The greatest score of a list, or the given one if none is greater. -/
def greatest (score : α) (hits : List (Hit α)) : α :=
  hits.foldl (fun top hit => if top < hit.score then hit.score else top) score

/-- The hits of a file, unless there are none. -/
def fileHits? (hits : List (Hit α)) (path : String) : Option (FileHits α) :=
  match hits.filter fun hit => hit.chunk.filePath == path with
  | [] => none
  | first :: rest => some ⟨path, greatest first.score rest, first :: rest⟩

/-- The groups of a list of hits in the order in which their files first appear. -/
def groups (hits : List (Hit α)) : List (FileHits α) :=
  (hits.map fun hit => hit.chunk.filePath).eraseDups.filterMap (fileHits? hits)

/-- What stands between two parts of a file. -/
def separator : String := "\n\n// ...\n\n"

/-- The lines of a hit with a window on both sides. -/
def windowText (lines : List (List Char)) (window : Int) (hit : Hit α) : List Char :=
  let start := max 0 (hit.chunk.startLine - 1 - window)
  let stop := min (lines.length : Int) (hit.chunk.endLine + window)
  Text.joinWith ['\n'] (Text.slice start stop lines)

end Context

variable {α : Type} [Scalar α]

/-- The files with the best hits. -/
def groupByFile (hits : List (Hit α)) (limit : Int) : List (FileHits α) :=
  Text.upTo limit (byFalling FileHits.maxScore (Context.groups hits))

/-- What is shown of a file's content for its hits, cut at a length. -/
def extractContext (content : String) (hits : List (Hit α)) (topChunks window maxLength : Int) :
    String :=
  if hits.length ≤ 1 then cut maxLength content
  else
    let best := Text.upTo topChunks (byFalling Hit.score hits)
    let parts := best.map (Context.windowText (Text.lines content.toList) window)
    String.ofList (Text.upTo maxLength (Text.joinWith Context.separator.toList parts))

end CodeSearch
