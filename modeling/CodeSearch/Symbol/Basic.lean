/-! # Symbols

A symbol is a declaration found on a line of a source file.
-/

namespace CodeSearch

/-- What a declaration introduces. -/
inductive SymbolKind where
  | function | classType | interface | type | variable | constant | enum
  deriving DecidableEq, Inhabited

namespace SymbolKind

def name : SymbolKind → String
  | function => "function"
  | classType => "class"
  | interface => "interface"
  | type => "type"
  | .variable => "variable"
  | constant => "constant"
  | enum => "enum"

def all : List SymbolKind := [function, .classType, interface, type, .variable, constant, enum]

def ofName? (text : String) : Option SymbolKind := all.find? fun kind => kind.name == text

end SymbolKind

/-- A declared name, with the number of its line counted from one and the line's text. -/
structure Symbol where
  name : String
  kind : SymbolKind
  filePath : String
  line : Int
  signature : Option String
  deriving DecidableEq, Inhabited

end CodeSearch
