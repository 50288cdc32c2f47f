import CodeSearch.Proofs.Session.Provenance

/-! # Which request a call serves

A call carries on, from place to place, what its request asked for: an update goes to the file that
the request names, and a request for context keeps its wish. So whatever a call of a run is about
has been asked for in the run.
-/

namespace CodeSearch

open Loading

variable {α : Type} [Scalar α]

/-- The update that a request asks for, once its project is accepted. -/
inductive Request.AsksUpdate : Request α → Update → Prop where
  | update (path filePath : Argument String) (root : String)
      (accepted : path.projectPath = .ok root) :
      AsksUpdate (.update path filePath) ⟨root, filePath⟩

/-- The wish of a request for context whose arguments are accepted. -/
inductive Request.Wishes : Request α → ContextWish → Prop where
  | context (query path : Argument String) (limit : Argument Int) (wish : ContextWish)
      (accepted : Session.contextWish query path limit = .ok wish) :
      Wishes (.context query path limit) wish

/-- The file to which an update goes. -/
structure Update.LeadsTo (update : Update) (target : UpdateTarget) : Prop where
  given : ∃ file, update.filePath = .given file ∧
    target.absolute = Path.normalize (Path.join update.root file)
  project : target.root = update.root
  named : target.IsNamed

/-- The places of a call that serves a request. -/
def CallPoint.IsOf (request : Request α) : CallPoint α → Prop
  | .made own => own = request
  | .awaitingPass _ .report => ∃ path force, request = .index path force
  | .awaitingPass _ (.update update) | .locking update | .queued update | .updating update =>
    request.AsksUpdate update
  | .probing target | .loading target _ | .embedding target _ | .resting target _
  | .storing target _ => ∃ update, request.AsksUpdate update ∧ update.LeadsTo target
  | .awaitingPass _ (.context wish) | .searching wish | .reading wish _ _
  | .carrying wish _ _ _ _ => request.Wishes wish
  | .ended _ => True

namespace Session

variable {session shared next final : Session α} {id : TaskId} {events : List (Event α)}

/-- A call that goes on serves the same request. -/
theorem CallMove.isOf {request : Request α} {point after : CallPoint α}
    (serves : point.IsOf request) (move : CallMove session id point shared after) :
    after.IsOf request := by
  cases move with
  | quiet _ _ move =>
    cases move with
    | awaits path filePath root _ accepted =>
      cases serves
      exact .update path filePath root accepted
    | goesAhead path filePath root accepted =>
      cases serves
      exact .update path filePath root accepted
    | probes update file given =>
      -- The sides meet before any path is computed, which `rfl` would try first.
      refine ⟨update, serves, ⟨file, ?_, by dsimp only⟩, by dsimp only, ⟨by dsimp only⟩⟩
      cases told : update.filePath with
      | given => rw [told] at given; cases given; rfl
      | other => rw [told] at given; cases given
    | opens =>
      obtain ⟨update, asks, leads⟩ := serves
      exact ⟨update, asks, leads.given, leads.project, ⟨leads.named.relative⟩⟩
    | passesBy =>
      obtain ⟨update, asks, leads⟩ := serves
      exact ⟨update, asks, leads.given, leads.project, ⟨leads.named.relative⟩⟩
    | updates => exact serves
    | serves => exact serves
    | entered => exact serves
    | looks => exact serves
    | loaded => exact serves
    | notLoaded => exact serves
    | embedded => exact serves
    | embeds => exact serves
    | rested => exact serves
    | reads => exact serves
    | takes => exact serves
    | skips => exact serves
    | refused => exact trivial
    | failedWith => exact trivial
    | reported => exact trivial
    | shown => exact trivial
    | breaksOff => exact trivial
  | indexes path force => exact ⟨path, force, serves.symm⟩
  | contextReady query path limit wish accepted =>
    cases serves
    exact .context query path limit wish accepted
  | contextServed query path limit wish _ _ accepted =>
    cases serves
    exact .context query path limit wish accepted
  | contextWaits query path limit wish _ _ accepted =>
    cases serves
    exact .context query path limit wish accepted
  | queued => exact serves
  | finds => exact serves
  | answered => exact trivial
  | searched => exact trivial
  | cleared => exact trivial
  | gaveUp => exact trivial
  | stored => exact trivial

/-- Every call serves one of the given requests. -/
def CallsServe (asked : Request α → Prop) (session : Session α) : Prop :=
  ∀ id point, session.task? id = some (.call point) → ∃ request, asked request ∧ point.IsOf request

theorem CallsServe.mono {asked more : Request α → Prop} (serve : session.CallsServe asked)
    (known : ∀ request, asked request → more request) : session.CallsServe more := by
  intro id point stands
  obtain ⟨request, made, serves⟩ := serve id point stands
  exact ⟨request, known request made, serves⟩

theorem CallsServe.event {asked : Request α → Prop} (serve : session.CallsServe asked)
    {event : Event α} (made : ∀ request, event = .call request → asked request)
    (happened : session.after? event = some next) : next.CallsServe asked := by
  intro id point stands
  cases after?_move happened with
  | call request =>
    rw [task?_call] at stands
    split at stands
    · cases stands
      exact ⟨request, made request rfl, rfl⟩
    · exact serve id point stands
  | step mover _ move =>
    rcases move.call_origin stands with ⟨-, stood⟩ | ⟨-, before, shared, stood, step, -⟩
    · exact serve id point stood
    · obtain ⟨request, given, serves⟩ := serve mover before stood
      exact ⟨request, given, step.isOf serves⟩
  | leave => exact serve id point stands
  | files => exact serve id point stands
  | time => exact serve id point stands

theorem IsNew.callsServe (new : session.IsNew) (asked : Request α → Prop) :
    session.CallsServe asked := by
  intro id point stands
  rw [new.task?] at stands
  cases stands

/-- Every call of a run serves a request of the run. -/
theorem IsNew.callsServe_of_run (new : session.IsNew) (run : session.replay? events = some final) :
    final.CallsServe fun request => .call request ∈ events := by
  refine replay?_keeps ?_ (new.callsServe _) run
  intro before event after member serve happened
  refine serve.event ?_ happened
  rintro request rfl
  exact member

end Session

end CodeSearch
