import CodeSearch.Path
import CodeSearch.Text.Case

/-! # Languages

The language of a file follows from the suffix of its name. Its comment family says which marks open
a comment. Files without a known suffix are plain text and are not indexed.
-/

namespace CodeSearch

/-- Languages whose files are indexed. -/
inductive Language where
  | typescript | javascript | python | java | cpp | c | csharp | php | ruby | go | rust | swift
  | kotlin
  deriving DecidableEq, Inhabited

/-- How a language marks comments. -/
inductive CommentFamily where
  /-- Two slashes up to the line's end, or a slash and a star up to a star and a slash. -/
  | slashes
  /-- A hash up to the line's end. -/
  | hash
  /-- No comments are known. -/
  | none
  deriving DecidableEq, Inhabited

namespace Language

def name : Language → String
  | typescript => "typescript"
  | javascript => "javascript"
  | python => "python"
  | java => "java"
  | cpp => "cpp"
  | c => "c"
  | csharp => "csharp"
  | php => "php"
  | ruby => "ruby"
  | go => "go"
  | rust => "rust"
  | swift => "swift"
  | kotlin => "kotlin"

def all : List Language :=
  [typescript, javascript, python, java, cpp, c, csharp, php, ruby, go, rust, swift, kotlin]

def ofName? (tag : String) : Option Language := all.find? fun language => language.name == tag

/-- The suffixes that are recognised, in lower case. -/
def suffixes : List (String × Language) := [
  (".ts", typescript), (".tsx", typescript), (".js", javascript), (".jsx", javascript),
  (".mjs", javascript), (".cjs", javascript), (".py", python), (".java", java), (".cpp", cpp),
  (".cc", cpp), (".hpp", cpp), (".h", cpp), (".c", c), (".cs", csharp), (".php", php),
  (".rb", ruby), (".go", go), (".rs", rust), (".swift", swift), (".kt", kotlin)]

/-- The language of a file; backslashes separate directories as slashes do. -/
def ofPath? (path : String) : Option Language :=
  let slashed := String.ofList (path.toList.map fun c => if c = '\\' then '/' else c)
  suffixes.lookup (String.ofList (Text.lower (Path.suffix slashed)))

def commentFamily : Language → CommentFamily
  | python | ruby => .hash
  | _ => .slashes

/-- In these languages a single quote opens a literal only if one character and a quote follow. -/
def quotesOnlyChars (language : Language) : Bool := language == rust

end Language

/-- The tag of a file without a known language. -/
def plainText : String := "plaintext"

/-- The tag that records carry for a path's language. -/
def languageTag (path : String) : String :=
  ((Language.ofPath? path).map Language.name).getD plainText

/-- The comment family of a language tag; unknown tags have none. -/
def commentFamilyOf (tag : String) : CommentFamily :=
  match Language.ofName? tag with
  | some language => language.commentFamily
  | none => .none

/-- Only files of a known language are indexed. -/
def isIndexable (path : String) : Bool := (Language.ofPath? path).isSome

/-- The suffix without its point, in lower case, as searches name file types. -/
def fileType (path : String) : String :=
  String.ofList ((Text.lower (Path.suffix path)).dropWhile (· == '.'))

end CodeSearch
