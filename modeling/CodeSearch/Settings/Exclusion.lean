import CodeSearch.Path
import CodeSearch.Settings.Basic
import CodeSearch.Text.Case

/-! # What is not indexed

Directories and files are left out by their names. Hidden directories are left out but for a few,
and so are bundles that were made smaller for delivery.
-/

namespace CodeSearch

/-- Hidden directories that are walked all the same. -/
def visibleHidden : List String := [".github"]

/-- How the names of minified files end. -/
def minifiedEndings : List String := [".min.js", ".min.css"]

namespace Settings

variable {α : Type} [Scalar α]

/-- Excluded directories are compared in lower case. -/
def ignoresDirectory (settings : Settings α) (name : String) : Bool :=
  settings.excludedDirectories.contains (lowerCase name) ||
    (Text.startsWith ['.'] name.toList && !visibleHidden.contains name)

/-- Excluded names are compared as they are, excluded extensions in lower case. -/
def ignoresFile (settings : Settings α) (name : String) : Bool :=
  settings.excludedFiles.contains name ||
    minifiedEndings.any (fun ending => Text.endsWith ending.toList name.toList) ||
    settings.excludedExtensions.contains (String.ofList (Text.lower (Path.extension name)))

end Settings

end CodeSearch
