import CodeSearch.Http.Server
import CodeSearch.Proofs.Session.FailedCalls
import CodeSearch.Proofs.Session.Scheduled

/-! # Refusals of the server

A reply with status 400 tells of arguments that were refused or of files that make no sense. The
server then has asked its session nothing, or a call that has failed, so its index is what a failed
call may leave, however addresses and bodies are read.
-/

namespace CodeSearch

namespace Server

open Session

variable {reader : HttpReader}

/-- The call that a request puts to the session: its path has a route, and its body asks for the call
in the form that the route wants. -/
inductive Puts (reader : HttpReader) (http : HttpRequest) : Request Float → Prop where
  | put (path body method : String) (form : Http.Form) (request : Request Float)
      (target : reader.path http.url = .ok path) (sent : reader.sent http.content = .ok body)
      (route : route? path = some (method, .call form))
      (asks : reader.body form body = .asks request) : Puts reader http request

/-- What becomes of the server when it answers a request, and what its reply can be. -/
inductive HandleMove (reader : HttpReader) (server : Server) (http : HttpRequest) (reply : Reply) :
    Server → Prop where
  | stays : HandleMove reader server http reply server
  | opens (schedule : Schedule Float) (opened : server.opened = .ok schedule)
      (unrefused : reply.status ≠ 400) :
      HandleMove reader server http reply { server with schedule := some schedule }
  | asks (request : Request Float) (puts : Puts reader http request) (schedule after : Schedule Float)
      (id : TaskId) (opened : server.opened = .ok schedule)
      (called : schedule.call request = (after, id))
      (failed : reply.status = 400 → ∃ fault, after.session.outcome? id = some (.error fault)) :
      HandleMove reader server http reply { server with schedule := some after }

theorem status_written {reply : Reply} (refused : reply.written.status = 400) :
    ∃ detail, reply = .refused detail := by
  cases reply with
  | refused detail => exact ⟨detail, rfl⟩
  | answered body =>
    simp only [Reply.written] at refused
    split at refused <;> cases refused
  | invalid faults =>
    simp only [Reply.written] at refused
    split at refused <;> cases refused
  | redirected => cases refused
  | notFound => cases refused
  | notAllowed => cases refused
  | failed fault => cases refused

/-- Only a call that has failed is answered by a refusal. -/
theorem error_of_replyTo {outcome : Outcome Float} {detail : String}
    (refused : replyTo outcome = .refused detail) : ∃ fault, outcome = .error fault := by
  cases outcome with
  | ok answer => cases refused
  | error fault => exact ⟨fault, rfl⟩

private theorem ask_move {server after : Server} {http : HttpRequest} {request : Request Float}
    {reply : Reply} (puts : Puts reader http request)
    (asked : server.ask request = (reply, after)) :
    HandleMove reader server http reply.written after := by
  unfold ask at asked
  split at asked
  · cases asked
    exact .stays
  · next schedule opened =>
    generalize called : schedule.call request = answered at asked
    obtain ⟨next, id⟩ := answered
    cases asked
    refine .asks request puts schedule next id opened called ?_
    intro refused
    obtain ⟨detail, same⟩ := status_written refused
    split at same
    · next outcome told =>
      obtain ⟨fault, rfl⟩ := error_of_replyTo same
      exact ⟨fault, told⟩
    · cases same

private theorem callWith_move {server after : Server} {http : HttpRequest}
    {path body method : String} {form : Http.Form} {reply : Reply}
    (target : reader.path http.url = .ok path) (sent : reader.sent http.content = .ok body)
    (route : route? path = some (method, .call form))
    (called : server.callWith (reader.body form body) = (reply, after)) :
    HandleMove reader server http reply.written after := by
  cases asks : reader.body form body with
  | asks request =>
    rw [asks] at called
    exact ask_move (.put path body method form request target sent route asks) called
  | invalid faults =>
    rw [asks] at called
    cases called
    exact .stays
  | unreadable =>
    rw [asks] at called
    cases called
    exact .stays

/-- Whatever a server answers, it does one of the moves. -/
theorem handleWith_move {server after : Server} {http : HttpRequest} {reply : Reply}
    (handled : server.handleWith reader http = (reply, after)) :
    HandleMove reader server http reply after := by
  unfold handleWith at handled
  split at handled
  · cases handled; exact .stays
  · cases handled; exact .stays
  · next path body target sent =>
    generalize answered : server.answer reader http.method.toUpper path body = told at handled
    obtain ⟨first, next⟩ := told
    cases handled
    unfold answer at answered
    split at answered
    · cases answered; exact .stays
    · next wanted endpoint route =>
      split at answered
      · cases answered; exact .stays
      · split at answered
        · cases answered; exact .stays
        · unfold tellTotals at answered
          split at answered
          · cases answered; exact .stays
          · next schedule opened =>
            cases answered
            refine .opens schedule opened ?_
            intro refused
            obtain ⟨detail, same⟩ := status_written refused
            cases same
        · exact callWith_move target sent route answered

/-- A server that has started without a session and answered any requests, while its files were
replaced and time went by. -/
inductive Serving (reader : HttpReader) : Server → Prop where
  | starts (environment : Environment) (files : FileSystem) (now : Float) :
      Serving reader { environment, files, now }
  | handles (server : Server) (http : HttpRequest) (before : Serving reader server) :
      Serving reader (server.handleWith reader http).2
  | files (server : Server) (files : FileSystem) (before : Serving reader server) :
      Serving reader (server.setFiles files)
  | waits (server : Server) (time : Float) (before : Serving reader server) :
      Serving reader (server.wait time)

/-- A session that was reached from a new one. -/
def IsReached (session : Session Float) : Prop :=
  ∃ (begun : Session Float) (events : List (Event Float)),
    begun.IsNew ∧ begun.replay? events = some session

theorem isReached_run {session next : Session Float} {events : List (Event Float)}
    (reached : IsReached session) (run : session.replay? events = some next) : IsReached next := by
  obtain ⟨begun, earlier, new, before⟩ := reached
  exact ⟨begun, earlier ++ events, new, replay?_trans before run⟩

private theorem isReached_opened {server : Server} {schedule : Schedule Float}
    (before : ∀ schedule, server.schedule = some schedule → IsReached schedule.session)
    (opened : server.opened = .ok schedule) : IsReached schedule.session := by
  unfold Server.opened at opened
  split at opened
  · next known =>
    cases opened
    exact before _ known
  · cases given : Settings.ofEnvironment server.environment with
    | error fault => rw [given] at opened; cases opened
    | ok settings =>
      rw [given] at opened
      cases opened
      exact ⟨_, [], opened_isNew settings server.files server.now, rfl⟩

/-- The session of a server was reached from a new one. -/
theorem Serving.isReached {server : Server} (serving : Serving reader server) :
    ∀ schedule, server.schedule = some schedule → IsReached schedule.session := by
  induction serving with
  | starts => intro schedule known; cases known
  | handles server http before ih =>
    intro schedule known
    generalize handled : server.handleWith reader http = told at known
    obtain ⟨reply, after⟩ := told
    cases handleWith_move handled with
    | stays => exact ih schedule known
    | opens found opened =>
      cases known
      exact isReached_opened ih opened
    | asks request puts found next id opened called =>
      cases known
      obtain ⟨-, events, -, run⟩ := Schedule.call_run called
      exact isReached_run (isReached_opened ih opened) run
  | files server files before ih =>
    intro schedule known
    obtain ⟨found, there, rfl⟩ := Option.map_eq_some_iff.mp known
    have run : found.session.replay? [.files files] = some { found.session with files } := rfl
    exact isReached_run (ih found there) run
  | waits server time before ih =>
    intro schedule known
    obtain ⟨found, there, rfl⟩ := Option.map_eq_some_iff.mp known
    have run : found.session.replay? [.time (found.session.now + time)] =
        some { found.session with now := found.session.now + time } := rfl
    exact isReached_run (ih found there) run

private theorem leavesIndex_of_refusal {server after : Server} {http : HttpRequest} {reply : Reply}
    (serving : Serving reader server)
    (idle : ∀ schedule, server.opened = .ok schedule → schedule.session.IsIdle)
    (handled : server.handleWith reader http = (reply, after)) (refused : reply.status = 400) :
    after = server ∨ ∃ schedule next request, Puts reader http request ∧ server.opened = .ok schedule ∧
      after.schedule = some next ∧ LeavesIndex schedule.session request next.session := by
  cases handleWith_move handled with
  | stays => exact .inl rfl
  | opens _ _ unrefused => exact absurd refused unrefused
  | asks request puts schedule next id opened called failed =>
    obtain ⟨rfl, events, inner, run⟩ := Schedule.call_run called
    obtain ⟨begun, earlier, new, reached⟩ := isReached_opened serving.isReached opened
    obtain ⟨fault, told⟩ := failed refused
    refine .inr ⟨schedule, next, request, puts, opened, rfl, ?_⟩
    exact new.leavesIndex reached (idle schedule opened) (fun other member => inner _ member) run told

end Server

namespace Session

open Server

/-- A call that is made while no other is in progress, and fails, leaves the index as it was: its
project, files, chunks, embeddings and time. Only a request for context whose arguments are accepted
may leave another one: none, if the index was that of another project, or the one that its own pass
has built. So does a request to which a server replies with status 400, however addresses and bodies
are read. -/
theorem failures_leave_the_index {α : Type} [Scalar α] :
    (∀ (session before final : Session α) (earlier events : List (Event α)) (request : Request α)
      (fault : CallFault), session.IsNew → session.replay? earlier = some before → before.IsIdle →
      (∀ other, .call other ∉ events) → before.replay? (.call request :: events) = some final →
      final.outcome? before.tasks.length = some (.error fault) → LeavesIndex before request final) ∧
    (∀ (reader : HttpReader) (server after : Server) (http : HttpRequest) (reply : Reply),
      Serving reader server →
      (∀ schedule, server.opened = .ok schedule → schedule.session.IsIdle) →
      server.handleWith reader http = (reply, after) → reply.status = 400 →
      after = server ∨ ∃ schedule next request, Puts reader http request ∧
        server.opened = .ok schedule ∧ after.schedule = some next ∧
        LeavesIndex schedule.session request next.session) := by
  refine ⟨?_, ?_⟩
  · intro session before final earlier events request fault new reached idle alone run failed
    exact new.leavesIndex reached idle alone run failed
  · intro reader server after http reply serving idle handled refused
    exact leavesIndex_of_refusal serving idle handled refused

/-- A project that can be indexed beside a directory that cannot be listed. -/
def besideBroken : FileSystem :=
  (smallVolume.makeDirectory "/q" (some (.broken "broken"))).fileSystem

/-- The project is indexed, and everything comes to its end. -/
def indexToEnd : List (Event Float) :=
  [.call (.index (.given "/p") false), .step 0] ++ List.replicate 4 (.step 1) ++
    List.replicate 3 (.step 2) ++ List.replicate 10 (.step 1) ++ [.step 0, .leave 1]

/-- A client asks for the index of a project. -/
def indexOverHttp (path : String) : HttpRequest :=
  { method := "POST", url := "/api/index", content := .json (.record [("path", .text path)]) }

/-- A server that has indexed the small project. -/
def indexedServer : Server :=
  (Server.handle { files := smallProject, now := 0 } (indexOverHttp "/p")).2

theorem failures_leave_index_of_small_project :
    (∃ before final : Session Float, (opened {} besideBroken 0).replay? indexToEnd = some before ∧
      before.replay? (.call (.index (.given "/q") false) :: [.step 3, .step 4, .step 3]) = some final ∧
      final.outcome? 3 = some (.error (.files (.broken "broken"))) ∧
      before.snapshot.isSome = true ∧ final.index = before.index) ∧
    ∃ (schedule : Schedule Float) (after : Server) (reply : Reply),
      indexedServer.opened = .ok schedule ∧ schedule.session.snapshot.isSome = true ∧
      indexedServer.handle (indexOverHttp "") = (reply, after) ∧ reply.status = 400 ∧
      (after = indexedServer ∨ ∃ schedule next request, Puts .lenient (indexOverHttp "") request ∧
        indexedServer.opened = .ok schedule ∧ after.schedule = some next ∧
        LeavesIndex schedule.session request next.session) := by
  obtain ⟨callsFail, requestsFail⟩ := failures_leave_the_index (α := Float)
  refine ⟨?_, ?_⟩
  · have reached : (((opened {} besideBroken (0 : Float)).replay? indexToEnd).bind fun before =>
        if before.AtRest ∧ before.tasks.length = 3 ∧ before.snapshot.isSome = true then
          (before.replay? (.call (.index (.given "/q") false) :: [.step 3, .step 4, .step 3])).bind
            fun final => (final.fault? 3).filter fun fault =>
              decide (fault = .files (.broken "broken"))
        else none).isSome = true := by decide +kernel
    obtain ⟨fault, reached⟩ := Option.isSome_iff_exists.mp reached
    obtain ⟨before, indexes, reached⟩ := Option.bind_eq_some_iff.mp reached
    obtain ⟨⟨rest, three, indexed⟩, reached⟩ := Option.ite_none_right_eq_some.mp reached
    obtain ⟨final, run, reached⟩ := Option.bind_eq_some_iff.mp reached
    obtain ⟨told, known⟩ := Option.filter_eq_some_iff.mp reached
    cases of_decide_eq_true known
    have failed := outcome?_of_fault? told
    refine ⟨before, final, indexes, run, failed, indexed, ?_⟩
    refine (callsFail _ _ _ _ _ _ _ (opened_isNew {} besideBroken 0) indexes
      (fun id point stands => rest.tasks id _ stands) (by simp) run (three ▸ failed)).same ?_
    rintro wish ⟨⟩
  · have serving : Serving .lenient indexedServer := .handles _ _ (.starts {} smallProject 0)
    have opens : (indexedServer.opened.toOption.filter fun schedule =>
        decide (schedule.session.AtRest ∧ schedule.session.snapshot.isSome = true)).isSome = true := by
      decide +kernel
    have refused : (indexedServer.handle (indexOverHttp "")).1.status = 400 := by decide +kernel
    obtain ⟨schedule, opens⟩ := Option.isSome_iff_exists.mp opens
    obtain ⟨found, holds⟩ := Option.filter_eq_some_iff.mp opens
    obtain ⟨rest, indexed⟩ := of_decide_eq_true holds
    have opened : indexedServer.opened = .ok schedule := by
      cases known : indexedServer.opened with
      | error fault => rw [known] at found; cases found
      | ok other => rw [known] at found; cases found; rfl
    refine ⟨schedule, _, _, opened, indexed, rfl, refused, ?_⟩
    refine requestsFail .lenient _ _ _ _ serving ?_ rfl refused
    intro other known
    cases opened.symm.trans known
    exact fun id point stands => rest.tasks id _ stands

/-- A request for context in a directory that cannot be listed fails, and the index of the project
that was there before is gone. -/
theorem failed_context_drops_other_project :
    ∃ before final : Session Float, (opened {} besideBroken 0).replay? indexToEnd = some before ∧
      before.AtRest ∧
      before.replay? (.call (.context (.given "run") (.given "/q") (.given 5)) ::
        [.step 3, .step 4, .step 3]) = some final ∧
      final.outcome? 3 = some (.error (.files (.broken "broken"))) ∧
      before.index.isSome = true ∧ final.index = none := by
  have reached : (((opened {} besideBroken (0 : Float)).replay? indexToEnd).bind fun before =>
      if before.AtRest ∧ before.index.isSome = true then
        (before.replay? (.call (.context (.given "run") (.given "/q") (.given 5)) ::
          [.step 3, .step 4, .step 3])).bind fun final =>
            (final.fault? 3).filter fun fault =>
              decide (fault = .files (.broken "broken") ∧ final.index.isNone = true)
      else none).isSome = true := by decide +kernel
  obtain ⟨fault, reached⟩ := Option.isSome_iff_exists.mp reached
  obtain ⟨before, indexes, reached⟩ := Option.bind_eq_some_iff.mp reached
  obtain ⟨⟨rest, indexed⟩, reached⟩ := Option.ite_none_right_eq_some.mp reached
  obtain ⟨final, run, reached⟩ := Option.bind_eq_some_iff.mp reached
  obtain ⟨told, holds⟩ := Option.filter_eq_some_iff.mp reached
  obtain ⟨rfl, empty⟩ := of_decide_eq_true holds
  exact ⟨before, final, indexes, rest, run, outcome?_of_fault? told, indexed,
    Option.isNone_iff_eq_none.mp empty⟩

end Session

end CodeSearch
