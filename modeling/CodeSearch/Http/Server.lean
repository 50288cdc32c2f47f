import CodeSearch.Http.Address
import CodeSearch.Http.Body
import CodeSearch.Json.Encoding
import CodeSearch.Json.Writer
import CodeSearch.Session.Schedule
import CodeSearch.Settings.Environment

/-! # The server

The server answers requests one after another from one session, which is opened with the settings of
the environment when it is first needed. How addresses and bodies are read is a parameter of the
server. A body is checked before the session is asked. Numbers that are not finite can be read but
not written, so that neither requests nor replies carry them.
-/

namespace CodeSearch

/-- What a client sends along: a text as it is, or a value that the client writes. -/
inductive HttpContent where
  | text (body : String)
  | json (body : Value)

/-- A request: its method, its address, and what is sent along. -/
structure HttpRequest where
  method : String
  url : String
  content : HttpContent := .text ""

/-- Why a request ends without a reply. -/
inductive ServerFault where
  | address (fault : Http.AddressFault)
  /-- A number that would have to be written is not finite. -/
  | notFinite
  | settings (fault : SettingsFault)
  | call (fault : CallFault)

def ServerFault.message : ServerFault → String
  | address fault => fault.message
  | notFinite => "Out of range float values are not JSON compliant"
  | settings fault => fault.message
  | call fault => fault.message

/-- The text that is sent; nothing is sent for null. -/
def HttpContent.sent : HttpContent → Except ServerFault String
  | text body => .ok body
  | json .null => .ok ""
  | json body => if body.isFinite then .ok (Json.write body) else .error .notFinite

/-- The reply to a request. -/
inductive Reply where
  | answered (body : Value)
  | refused (detail : String)
  /-- The address is known but for slashes at its end. -/
  | redirected
  | notFound
  | notAllowed
  | invalid (faults : List Http.PlacedFault)
  | failed (fault : ServerFault)

namespace Reply

def status : Reply → Nat
  | answered _ => 200
  | redirected => 307
  | refused _ => 400
  | notFound => 404
  | notAllowed => 405
  | invalid _ => 422
  | failed _ => 500

/-- What a refusal says. -/
def detail (text : String) : Value := .record [("detail", .text text)]

/-- The reply as it is sent: faults are reported with the values that they are about. -/
def written (reply : Reply) : Reply :=
  match reply with
  | answered body => if body.isFinite then reply else failed .notFinite
  | invalid faults =>
    if faults.all fun fault => fault.input.isFinite then reply else failed .notFinite
  | _ => reply

end Reply

/-- What the body of a call is read as. -/
inductive BodyReading where
  | asks (request : Request Float)
  | invalid (faults : List Http.PlacedFault)
  | unreadable

/-- Where an address leads, what a client sends along, and what the body of a call asks for. -/
structure HttpReader where
  path : String → Except Http.AddressFault String
  sent : HttpContent → Except ServerFault String
  body : Http.Form → String → BodyReading

/-- The session that a server has opened, or what it needs to open one. -/
structure Server where
  environment : Environment := ∅
  files : FileSystem
  now : Float
  schedule : Option (Schedule Float) := none

namespace Server

/-- What a route leads to. -/
inductive Endpoint where
  | health
  | totals
  | call (form : Http.Form)

/-- The routes with their methods. -/
def routes : List (String × String × Endpoint) := [
  ("/health", "GET", .health),
  ("/api/stats", "GET", .totals),
  ("/api/index", "POST", .call .index),
  ("/api/search", "POST", .call .search),
  ("/api/context", "POST", .call .context),
  ("/api/update", "POST", .call .update),
  ("/api/clear", "POST", .call .clear)]

/-- Replaces the files that the server sees. -/
def setFiles (server : Server) (files : FileSystem) : Server :=
  { server with files, schedule := server.schedule.map fun schedule => schedule.setFiles files }

/-- Lets time go by. -/
def wait (server : Server) (time : Float) : Server :=
  { server with
    now := server.now + time
    schedule := server.schedule.map fun schedule => schedule.wait time }

/-- The method and the endpoint at a path, behind which a line end may stand. -/
def route? (path : String) : Option (String × Endpoint) :=
  (routes.lookup path).or (routes.lookup (String.ofList (Text.dropLineEnd path.toList)))

/-- The schedule of the server's session, opened if there is none. -/
def opened (server : Server) : Except SettingsFault (Schedule Float) :=
  match server.schedule with
  | some schedule => .ok schedule
  | none => do
    let settings ← Settings.ofEnvironment server.environment
    return { session := .opened settings server.files server.now }

/-- Faults of arguments, and of files that make no sense, are told to the client. -/
def refusal? : CallFault → Option String
  | .files (.undecodable message) => some message
  | .files (.invalid message) => some message
  | .files _ => none
  | fault => some fault.message

def replyTo : Outcome Float → Reply
  | .ok answer => .answered (Http.ofAnswer answer)
  | .error fault =>
    match refusal? fault with
    | some detail => .refused detail
    | none => .failed (.call fault)

/-- Puts a request to the session. -/
def ask (server : Server) (request : Request Float) : Reply × Server :=
  match server.opened with
  | .error fault => (.refused fault.message, server)
  | .ok schedule =>
    let (schedule, id) := schedule.call request
    let reply := match schedule.session.outcome? id with
      | some outcome => replyTo outcome
      | none => .failed (.call (.files (.broken "the call has not ended")))
    (reply, { server with schedule := some schedule })

/-- What is known about the index; opening the session for it may fail. -/
def tellTotals (server : Server) : Reply × Server :=
  match server.opened with
  | .error fault => (.failed (.settings fault), server)
  | .ok schedule =>
    (.answered (Http.ofTotals schedule.session.totals), { server with schedule := some schedule })

/-- Puts a call to the session, if its body asks for one. -/
def callWith (server : Server) : BodyReading → Reply × Server
  | .asks request => server.ask request
  | .invalid faults => (.invalid faults, server)
  | .unreadable => (.refused "There was an error parsing the body", server)

/-- Whether a path is that of a route but for slashes at its end. -/
def isSlashed (path : String) : Bool :=
  Text.endsWith ['/'] path.toList && (route? (Path.withoutEndSlashes path)).isSome

/-- Answers a request at a path. -/
def answer (reader : HttpReader) (server : Server) (method path body : String) : Reply × Server :=
  match route? path with
  | none => (if isSlashed path then .redirected else .notFound, server)
  | some (wanted, endpoint) =>
    if method ≠ wanted then (.notAllowed, server)
    else
      match endpoint with
      | .health => (.answered (.record [("status", .text "ok")]), server)
      | .totals => server.tellTotals
      | .call form => server.callWith (reader.body form body)

/-- Answers a request. The client looks at the address before it writes what it sends along. -/
def handleWith (reader : HttpReader) (server : Server) (request : HttpRequest) : Reply × Server :=
  match reader.path request.url, reader.sent request.content with
  | .error fault, _ => (.failed (.address fault), server)
  | .ok _, .error fault => (.failed fault, server)
  | .ok path, .ok body =>
    let (reply, server) := server.answer reader request.method.toUpper path body
    (reply.written, server)

end Server

/-- Reads the body of a call by the fields of its form. -/
def Http.Form.readBody (form : Form) (body : String) : BodyReading :=
  let invalid (fault : FieldFault) : BodyReading := .invalid [⟨["body"], fault, .null⟩]
  if body.isEmpty then invalid .missing
  else
    match (Json.recode? body).map Json.read with
    | none => .unreadable
    | some (.error .longInteger) => .unreadable
    | some (.error .tooDeep) => .unreadable
    | some (.error .malformed) => invalid .malformed
    | some (.ok value) =>
      match (readRecord form.read value).below "body" with
      | .failed faults => .invalid faults
      | .passed request => .asks request

/-- Addresses in normal form, and bodies of records whose fields are read leniently. -/
def HttpReader.lenient : HttpReader :=
  { path := Http.targetPath, sent := HttpContent.sent, body := Http.Form.readBody }

/-- Answers a request as the program reads it. -/
def Server.handle (server : Server) (request : HttpRequest) : Reply × Server :=
  server.handleWith .lenient request

end CodeSearch
