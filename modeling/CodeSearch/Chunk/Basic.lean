import CodeSearch.Symbol.Basic

/-! # Chunks

A chunk is a stretch of a file that is stored and found on its own.
-/

namespace CodeSearch

/-- What a chunk holds. -/
inductive ChunkKind where
  | function | classType | interface | method | block | file
  deriving DecidableEq, Inhabited

namespace ChunkKind

def name : ChunkKind → String
  | function => "function"
  | classType => "class"
  | interface => "interface"
  | method => "method"
  | block => "block"
  | file => "file"

def all : List ChunkKind := [function, .classType, interface, method, block, file]

def ofName? (text : String) : Option ChunkKind := all.find? fun kind => kind.name == text

/-- The kind of chunk that a declaration gives. -/
def ofSymbolKind : SymbolKind → ChunkKind
  | .function => function
  | .classType => .classType
  | .interface => interface
  | _ => block

end ChunkKind

/-- What is known about a chunk beyond its text. -/
structure ChunkMetadata where
  comments : Option String := none
  imports : List String := []
  exports : List String := []
  dependencies : List String := []
  deriving DecidableEq, Inhabited

/-- A stretch of a file. Lines are counted from one, and the last one belongs to the chunk. -/
structure Chunk where
  id : String
  filePath : String
  language : String
  content : String
  kind : ChunkKind
  startLine : Int
  endLine : Int
  metadata : ChunkMetadata := {}
  symbol : Option Symbol := none
  deriving DecidableEq, Inhabited

namespace Chunk

/-- The identifier of a file's preview. -/
def fileId (filePath : String) : String := filePath ++ "_file"

/-- The identifier of a declaration: its file, name and line. -/
def symbolId (filePath : String) (symbol : Symbol) : String :=
  filePath ++ "_" ++ symbol.name ++ "_" ++ toString symbol.line

/-- The identifier of a block: its file and the position of the symbol that ends it. -/
def blockId (filePath : String) (index : Nat) : String :=
  filePath ++ "_block_" ++ toString index

end Chunk

end CodeSearch
