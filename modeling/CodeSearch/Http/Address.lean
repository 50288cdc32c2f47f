import CodeSearch.Numeral.Parse
import CodeSearch.Text.Pieces
import CodeSearch.Text.Quoted

/-! # Addresses of requests

Clients give the address of a request in full or relative to the server, and put it into normal form
before it is sent: steps between directories are worked off and escapes resolved. The query and the
fragment behind the path lead nowhere else.
-/

namespace CodeSearch.Http

/-- Why a client does not send to an address. -/
inductive AddressFault where
  | tooLong
  | control (c : Char) (position : Nat)
  | badPort (port : String)
  /-- Without a server's name a path cannot start with two slashes. -/
  | openingSlashes
  | openingColon
  deriving DecidableEq

def AddressFault.message : AddressFault → String
  | tooLong => "URL too long"
  | control c position =>
    "Invalid non-printable ASCII character in URL, " ++ quotedText (String.singleton c) ++
      " at position " ++ toString position ++ "."
  | badPort port => "Invalid port: " ++ quotedText port
  | openingSlashes => "Relative URLs cannot have a path starting with '//'"
  | openingColon => "Relative URLs cannot have a path starting with ':'"

/-- The parts of an address that decide where it leads. -/
structure Address where
  scheme : List Char
  /-- What stands between two slashes and the path: a user, the server's name and a port. -/
  authority : List Char
  path : List Char

namespace Address

/-- Addresses have at most this many characters. -/
def lengthLimit : Nat := 65536

def isSchemeChar (c : Char) : Bool :=
  Text.isAsciiAlphanumeric c || c == '+' || c == '.' || c == '-'

/-- The scheme in front of a colon and what follows the colon. -/
def splitScheme (text : List Char) : List Char × List Char :=
  let startsLikeScheme := text.head?.any fun c => Text.isAsciiLower c || Text.isAsciiUpper c
  let (scheme, rest) := if startsLikeScheme then text.span isSchemeChar else ([], text)
  match rest with
  | ':' :: rest => (scheme, rest)
  | _ => ([], text)

def isPathChar (c : Char) : Bool := c != '?' && c != '#'

/-- Takes an address apart. -/
def ofText (text : List Char) : Address :=
  let (scheme, rest) := splitScheme text
  let (authority, rest) := match rest with
    | '/' :: '/' :: rest => rest.span fun c => c != '/' && isPathChar c
    | _ => ([], rest)
  { scheme, authority, path := rest.takeWhile isPathChar }

/-- The name of the server and what follows it in the authority; a name in brackets may hold colons.
-/
def splitHost (authority : List Char) : List Char × List Char :=
  let (user, rest) := authority.span (· != '@')
  let place := if rest.isEmpty then user else rest.drop 1
  let bracketed := place.reverse.dropWhile (· != ']')
  if place.head? = some '[' && !bracketed.isEmpty then
    (bracketed.reverse, place.drop bracketed.length)
  else place.span fun c => c != ':' && c != '@'

def host (address : Address) : List Char := (splitHost address.authority).1

def port (address : Address) : List Char :=
  let behind := (splitHost address.authority).2
  if behind.head? = some ':' then behind.drop 1 else behind

/-- Whether the address names its server. -/
def isAbsolute (address : Address) : Bool := !address.scheme.isEmpty && !address.host.isEmpty

/-- Takes a component of a path into account; `kept` holds those that stand so far, last first. -/
def keepStep (kept : List (List Char)) (component : List Char) : List (List Char) :=
  if component = ['.'] then kept
  else if component = ['.', '.'] then (if kept = [[]] then kept else kept.tail)
  else component :: kept

/-- A path with its steps worked off. -/
def normalPath (path : List Char) : List Char :=
  Text.joinWith ['/'] ((Text.splitAt (· == '/') path).foldl keepStep []).reverse

/-- Resolves escapes, each by itself: those of characters beyond ASCII are not put together. -/
def unescape : List Char → List Char
  | '%' :: a :: b :: rest =>
    match Text.hexValue? a, Text.hexValue? b with
    | some high, some low => Char.ofNat (high * 16 + low) :: unescape rest
    | _, _ => '%' :: unescape (a :: b :: rest)
  | c :: rest => c :: unescape rest
  | [] => []

/-- What keeps a client from sending to an address. -/
def fault? (text : List Char) : Option AddressFault :=
  let address := ofText text
  let isControl (c : Char) : Bool := decide (c.toNat < 32) || c.toNat == 127
  if lengthLimit < text.length then some .tooLong
  else
    match text.find? isControl with
    | some c => some (.control c (text.takeWhile fun c => !isControl c).length)
    | none =>
      if !address.port.isEmpty && (Numeral.integer? address.port).isNone then
        some (.badPort (String.ofList address.port))
      else if address.scheme.isEmpty && address.authority.isEmpty then
        match address.path with
        | '/' :: '/' :: _ => some .openingSlashes
        | ':' :: _ => some .openingColon
        | _ => none
      else none

/-- The path on the server. A relative address starts at the top, however many slashes it has. -/
def target (address : Address) : String :=
  let path :=
    if address.isAbsolute then address.path
    else
      let path :=
        if address.scheme.isEmpty && address.authority.isEmpty then address.path
        else normalPath address.path
      '/' :: path.dropWhile (· == '/')
  let path := normalPath path
  String.ofList (if path.isEmpty then ['/'] else unescape path)

end Address

/-- The path to which a request is sent. -/
def targetPath (url : String) : Except AddressFault String :=
  match Address.fault? url.toList with
  | some fault => .error fault
  | none => .ok (Address.ofText url.toList).target

end CodeSearch.Http
