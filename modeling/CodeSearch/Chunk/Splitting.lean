import CodeSearch.Chunk.Basic
import CodeSearch.Chunk.Boundary
import CodeSearch.Chunk.LeadingComments
import CodeSearch.FileRecord.Basic
import CodeSearch.Settings.Basic

/-! # Splitting a file into chunks

A file gives one chunk that previews it, one chunk per symbol, and blocks for longer stretches
between symbols. A symbol whose scan fails gives no chunk; nothing else depends on the scan.
-/

namespace CodeSearch.Splitting

variable {α : Type} [Scalar α]

/-- What is split: the path, the text with its lines, the language, and what the record adds. -/
structure Source where
  path : String
  content : String
  lines : List (List Char)
  language : String
  imports : List String
  exports : List String
  dependencies : List String

/-- Without a record the language follows from the path, and nothing is imported. -/
def Source.ofRecord {β : Type} (path content : String) (record : Option (FileRecord β)) : Source :=
  { path
    content
    lines := Text.lines content.toList
    language := (record.map FileRecord.language).getD (languageTag path)
    imports := (record.map FileRecord.imports).getD []
    exports := (record.map FileRecord.exports).getD []
    dependencies := (record.map FileRecord.dependencies).getD [] }

/-- Some lines as one text. -/
def joinLines (lines : List (List Char)) : String := String.ofList (Text.joinWith ['\n'] lines)

def lineCount (source : Source) : Int := source.lines.length

/-- The preview of the whole file. -/
def fileChunk (settings : Settings α) (source : Source) : Chunk :=
  { id := Chunk.fileId source.path
    filePath := source.path
    language := source.language
    content := cut settings.filePreviewLength source.content
    kind := .file
    startLine := 1
    endLine := min settings.filePreviewLines (lineCount source)
    metadata :=
      { imports := source.imports
        exports := source.exports
        dependencies := source.dependencies } }

/-- The scan that a symbol's kind asks for. Other kinds have no body that is looked for. -/
def scanFor (settings : Settings α) (scanner : BoundaryScanner) (source : Source) (start : Nat) :
    SymbolKind → BoundaryResult
  | .function => scanner.findEnd source.lines start true settings.maxFunctionLines
  | .classType | .interface => scanner.findEnd source.lines start false settings.maxClassLines
  | _ => .unknown

/-- The last line of a symbol, counted from zero: what the scan finds, else a fixed number of lines.
-/
def symbolEnd? (settings : Settings α) (scanner : BoundaryScanner) (source : Source)
    (symbol : Symbol) (start : Nat) : Option Int :=
  match scanFor settings scanner source start symbol.kind with
  | .failed => none
  | .found line => some line
  | .unknown => some (min (start + settings.defaultEndLineOffset) (lineCount source - 1))

/-- The line of a symbol counted from zero, held between the first and the last line. -/
def symbolStart (source : Source) (symbol : Symbol) : Nat :=
  (min (max (symbol.line - 1) 0) (lineCount source - 1)).toNat

/-- The chunk of a symbol, unless the scan for its end fails. -/
def symbolChunk? (settings : Settings α) (scanner : BoundaryScanner) (source : Source)
    (symbol : Symbol) : Option Chunk := do
  let start := symbolStart source symbol
  let last ← symbolEnd? settings scanner source symbol start
  let comments ← LeadingComments.above? (commentFamilyOf source.language) source.lines start
    settings.maxLookbackLines
  some
    { id := Chunk.symbolId source.path symbol
      filePath := source.path
      language := source.language
      content := joinLines (Text.slice start (last + 1) source.lines)
      kind := .ofSymbolKind symbol.kind
      startLine := start + 1
      endLine := last + 1
      metadata :=
        { comments := if comments.isEmpty then none else some (joinLines comments)
          imports := source.imports
          dependencies := source.dependencies }
      symbol := some symbol }

/-- The block of a file without symbols. -/
def wholeBlock (settings : Settings α) (source : Source) : Chunk :=
  { id := Chunk.blockId source.path 0
    filePath := source.path
    language := source.language
    content := cut settings.fullContentLength source.content
    kind := .block
    startLine := 1
    endLine := min settings.filePreviewLines (lineCount source) }

/-- The block from one line up to another, both counted from zero and the second one excluded, if it
is long enough. -/
def gapBlock? (settings : Settings α) (source : Source) (index : Nat) (start stop : Int) :
    Option Chunk :=
  if stop > start + settings.minBlockGap then
    let content := joinLines (Text.slice start stop source.lines)
    if (Text.trim content.toList).length > settings.minBlockLength then
      some
        { id := Chunk.blockId source.path index
          filePath := source.path
          language := source.language
          content := cut settings.blockContentLength content
          kind := .block
          startLine := start + 1
          endLine := stop }
    else none
  else none

/-- The blocks that end at the given symbols, the first of which has a given position. Each starts
where the symbol before it is declared. -/
def gapBlocks (settings : Settings α) (source : Source) :
    Nat → Int → List Symbol → List Chunk
  | _, _, [] => []
  | index, start, symbol :: rest =>
    (gapBlock? settings source index start (symbol.line - 1)).toList ++
      gapBlocks settings source (index + 1) (symbol.line - 1) rest

def blockChunks (settings : Settings α) (source : Source) (symbols : List Symbol) : List Chunk :=
  match symbols with
  | [] => [wholeBlock settings source]
  | _ => gapBlocks settings source 0 0 symbols

/-- The chunks of a source: the preview, then the symbols, then the blocks. -/
def chunks (settings : Settings α) (scanner : BoundaryScanner) (source : Source)
    (symbols : List Symbol) : List Chunk :=
  fileChunk settings source ::
    (symbols.filterMap (symbolChunk? settings scanner source) ++
      blockChunks settings source symbols)

end CodeSearch.Splitting

namespace CodeSearch

/-- Splits a file. Unless a scanner is given, braces are counted by the rules of the language. -/
def chunkFile {α β : Type} [Scalar α] (settings : Settings α) (path content : String)
    (symbols : List Symbol) (record : Option (FileRecord β))
    (scanner : Option BoundaryScanner := none) : List Chunk :=
  let source := Splitting.Source.ofRecord path content record
  let scanner := scanner.getD (.counting (.ofTag source.language))
  Splitting.chunks settings scanner source symbols

end CodeSearch
