import NoraFleet.HttpServer.Handlers

/-!
# What request handlers ask of the application

Between `try_start_client_request` and the `try` that ends in
`finish_client_request` the handlers make calls that can raise, and the cleanup
can raise before it gets there. The slot of such a request is never returned.

* `ChatRequest.events_post` and its like — what each handler asks;
* `Request.calls_eq` — the same of all of them;
* `Request.finishesOnce_iff` — a handler finishes what it started exactly when
  none of these calls raises what it does not expect.
-/

namespace NoraFleet.HttpServer

open Base Networks Flow

/-! ## What the handlers ask -/

/-- The exceptions that `do_finish` expects. -/
abbrev closedStream (e : PyError) : Bool := e = .streamClosedError

/-- The flags that the cleanup depends on. -/
abbrev cleanupFlags (locals : Locals) : Bool × Bool :=
  (locals.keepAliveTask, locals.resultGenerator)

theorem silent_doFinish {γ : Type} {kept : Locals → γ} (finish : Option PyError) :
    Silent kept (doFinish finish) :=
  (Silent.perform finish).suppress

theorem silent_doFinishError {γ : Type} {kept : Locals → γ} (write finish : Option PyError) :
    Silent kept (doFinishError write finish) :=
  (Silent.perform write).bind fun _ => silent_doFinish finish

theorem silent_doFlush {γ : Type} {kept : Locals → γ} (flush : Option PyError) :
    Silent kept (doFlush flush) := by
  refine ((Silent.perform flush).bind fun _ => Silent.pure true).tryExcept fun e => ?_
  split
  · exact Silent.pure false
  · exact Silent.raise e

theorem silent_getService (lookup : ServiceLookup) : Silent id (getService lookup) := by
  have hdenied : Silent id (do doFinish lookup.finish; pure false : Handling Bool) :=
    (silent_doFinish lookup.finish).bind fun _ => Silent.pure false
  have hprovider : ∀ hasProvider : Bool, Silent id
      (if hasProvider then (do perform lookup.providerGetService; pure true)
        else (do doFinish lookup.finish; pure false) : Handling Bool) := by
    intro hasProvider
    cases hasProvider with
    | true => exact (Silent.perform _).bind fun _ => Silent.pure true
    | false => exact hdenied
  refine (Silent.call lookup.allowAgent).bind fun answer => ?_
  obtain ⟨isAuthorized, hasProvider⟩ := answer
  dsimp only
  split
  · exact hdenied
  · split
    · exact (Silent.perform _).bind fun _ => Silent.pure true
    · split
      · split
        · exact hdenied
        · refine (Silent.call lookup.getAgentNetworkProvider).bind fun found => ?_
          split
          · refine Silent.bind ?_ hprovider
            exact (Silent.call lookup.allowAgentAgain).bind fun answer => Silent.pure answer.2
          · exact (Silent.pure false).bind hprovider
      · exact hdenied

/-- Whether the lookup of a service finds one. -/
def ServiceLookup.hasService (lookup : ServiceLookup) : Bool :=
  match ((getService lookup).run .initial).outcome with
  | .ok hasService => hasService
  | .error _ => false

/-- A handler goes on if it has a service. -/
theorem events_getService_bind (lookup : ServiceLookup) {next : Bool → Handling Unit}
    (hnone : ((next false).run .initial).events = []) :
    ((getService lookup >>= next).run .initial).events =
      if lookup.hasService then ((next true).run .initial).events else [] := by
  have hevents := (silent_getService lookup).events .initial
  have hlocals := (silent_getService lookup).locals .initial
  unfold ServiceLookup.hasService
  rw [run_bind]
  generalize (getService lookup).run .initial = ended at hevents hlocals ⊢
  obtain ⟨events, locals, e | hasService⟩ := ended
  · exact hevents
  · obtain rfl : events = [] := hevents
    obtain rfl : locals = .initial := hlocals
    cases hasService with
    | true => rfl
    | false => exact hnone

/-- A handler that is denied asks no more. -/
theorem events_denied (write finish : Option PyError) (started : Handling Unit)
    (answer : HttpServerApp.Answer) :
    ((if answer.1 ≠ HttpServerApp.httpOk then doFinishError write finish else started).run
      .initial).events =
      if answer.1 = HttpServerApp.httpOk then (started.run .initial).events else [] := by
  by_cases hok : answer.1 = HttpServerApp.httpOk
  · rw [if_neg (not_not.mpr hok), if_pos hok]
  · have hsilent : Silent id (doFinishError write finish) := silent_doFinishError write finish
    rw [if_pos hok, if_neg hok]
    exact hsilent.events .initial

namespace ChatRequest

variable (request : ChatRequest)

/-- The headers reach the client, so the results are streamed. -/
def streams : Bool := request.setHeaders.isNone && request.flush.isNone

theorem silent_streamResult (isEvent : Bool) (result : StreamedResult) :
    Silent cleanupFlags (streamResult isEvent result) := by
  refine (Silent.perform result.dumps).bind fun _ => (Silent.perform result.lock).bind fun _ =>
    (Silent.perform result.write).bind fun _ => (silent_doFlush result.flush).bind fun flushOk => ?_
  split
  · exact Silent.assign fun _ => rfl
  · refine Silent.readLocals.bind fun locals => ?_
    split
    · exact Silent.raise _
    · exact Silent.pure ()

theorem silent_streamResults (isEvent : Bool) (results : List StreamedResult) :
    Silent cleanupFlags (request.streamResults isEvent results) := by
  induction results with
  | nil => exact Silent.perform request.streamEnds
  | cons result rest ih => exact (silent_streamResult isEvent result).bind fun _ => ih

theorem silent_handleRaised (isEvent : Bool) (e : PyError) :
    Silent cleanupFlags (request.handleRaised isEvent e) := by
  unfold handleRaised
  split
  · exact Silent.raise e
  · split
    · refine Silent.readLocals.bind fun locals => ?_
      split
      · exact Silent.raise e
      · exact Silent.pure ()
    · split
      · exact Silent.perform request.timeoutWrite
      · split
        · exact (Silent.perform request.processException).suppress
        · exact Silent.raise e

/-- What the `try` block leaves to the cleanup: once the headers are sent, a
generator, and a heartbeat if there is to be one. -/
theorem leaves_stream (requestTimeout : Double) (isEvent : Bool) :
    ((request.stream requestTimeout isEvent).run .initial).events = [] ∧
      cleanupFlags ((request.stream requestTimeout isEvent).run .initial).locals =
        (request.streams && decide (0 < request.keepAliveIntervalSeconds), request.streams) := by
  unfold stream streams
  cases request.setHeaders with
  | some e => exact ⟨rfl, rfl⟩
  | none =>
      have hset : (perform none : Handling Unit).run .initial = ⟨[], .initial, .ok ()⟩ := rfl
      rw [bind_of_ok hset]
      cases request.flush with
      | some e =>
          by_cases hclosed : e = .streamClosedError
          · subst hclosed
            exact ⟨rfl, rfl⟩
          · have hraises : (doFlush (some e)).run .initial = ⟨[], .initial, .error e⟩ := by
              simp only [doFlush, tryExcept, perform, call, run_bind]
              rw [if_neg hclosed]
              rfl
            rw [bind_of_error hraises]
            exact ⟨rfl, rfl⟩
      | none =>
          have hsent : (doFlush none).run .initial = ⟨[], .initial, .ok true⟩ := rfl
          rw [bind_of_ok hsent, if_pos rfl, run_assign_bind]
          refine Silent.leaves_tryExcept (fun e => ?_) ?_
          · split
            · exact Silent.raise _
            · exact Silent.raise _
          · have hresults := request.silent_streamResults isEvent request.results
            rw [run_assign_bind]
            exact ⟨hresults.events _, hresults.locals _⟩

/-- The cleanup raises nothing that it does not expect. -/
def cleansUp : Bool :=
  (!(request.streams && decide (0 < request.keepAliveIntervalSeconds)) ||
    suppressed (fun e => e = .cancelledError) request.awaitKeepAlive) &&
  (!request.streams || suppressed PyError.isException request.aclose) &&
  suppressed closedStream request.finish

/-- With what the body gives the handler gets to its cleanup, and that raises
nothing that it does not expect. -/
def returnsSlotLoaded (extractorGet : ExtractorGet) : Except LoadError Json → Bool
  | .error .jsonDecodeError =>
      suppressed PyError.isException request.processException &&
        suppressed closedStream request.finish
  | .error _ => false
  | .ok requestDict =>
      returned (request.shouldProcessAsEvent extractorGet requestDict) && request.cleansUp

/-- The same of a request as it comes. -/
def returnsSlot (extractorGet : ExtractorGet) (limit : Nat) : Bool :=
  returned (request.getRequestTimeoutSeconds extractorGet) &&
    request.returnsSlotLoaded extractorGet (Json.loadsBytes limit request.body)

/-- `_finish_request` finishes unless a call before that raises. -/
theorem events_finishRequest (locals : Locals) :
    (request.finishRequest.run locals).events =
      if (!locals.resultGenerator || suppressed PyError.isException request.aclose) &&
        suppressed closedStream request.finish then [.finish request.caller] else [] := by
  have hfinish : ∀ locals, ((do doFinish request.finish; emit (.finish request.caller) :
      Handling Unit).run locals).events =
      if suppressed closedStream request.finish then [.finish request.caller] else [] :=
    fun locals => events_suppress_bind _ _ _ locals
  unfold finishRequest
  rw [run_readLocals_bind]
  cases locals.resultGenerator with
  | false => exact hfinish locals
  | true =>
      rw [if_pos rfl, events_suppress_bind]
      cases suppressed PyError.isException request.aclose with
      | false => rfl
      | true => exact hfinish locals

/-- The same of the `finally` block. -/
theorem events_cleanup (locals : Locals) :
    (request.cleanup.run locals).events =
      if (!locals.keepAliveTask || suppressed (fun e => e = .cancelledError)
          request.awaitKeepAlive) &&
        (!locals.resultGenerator || suppressed PyError.isException request.aclose) &&
        suppressed closedStream request.finish then [.finish request.caller] else [] := by
  unfold cleanup
  rw [run_readLocals_bind]
  cases locals.keepAliveTask with
  | false => exact request.events_finishRequest locals
  | true =>
      rw [if_pos rfl, events_suppress_bind]
      cases suppressed (fun e => e = .cancelledError) request.awaitKeepAlive with
      | false => rfl
      | true => exact request.events_finishRequest locals

/-- The guarded block finishes unless the cleanup raises. -/
theorem events_guardedStream (requestTimeout : Double) (isEvent : Bool) :
    ((tryFinally (tryExcept (request.stream requestTimeout isEvent) (request.handleRaised isEvent))
      request.cleanup).run .initial).events =
      if request.cleansUp then [.finish request.caller] else [] := by
  obtain ⟨hevents, hflags⟩ := Silent.leaves_tryExcept
    (request.silent_handleRaised isEvent) (request.leaves_stream requestTimeout isEvent)
  obtain ⟨htask, hgenerator⟩ := Prod.mk.inj hflags
  rw [events_tryFinally, hevents, request.events_cleanup, htask, hgenerator]
  rfl

theorem events_started (extractorGet : ExtractorGet) (limit : Nat) :
    ((request.started extractorGet limit).run .initial).events =
      if request.returnsSlot extractorGet limit then [.finish request.caller] else [] := by
  unfold started returnsSlot
  rw [events_of_and]
  cases Json.loadsBytes limit request.body with
  | error e =>
      cases e with
      | jsonDecodeError =>
          refine events_call_bind _ fun _ => ?_
          have hloaded : request.returnsSlotLoaded extractorGet (.error .jsonDecodeError) =
              (suppressed PyError.isException request.processException &&
                suppressed closedStream request.finish) := rfl
          rw [events_suppress_bind, request.events_finishRequest, hloaded]
          exact (events_of_and _ _ _).symm
      | valueError => exact events_call_bind _ fun _ => rfl
      | recursionError => exact events_call_bind _ fun _ => rfl
  | ok requestDict =>
      refine events_call_bind _ fun requestTimeout => ?_
      have hloaded : request.returnsSlotLoaded extractorGet (.ok requestDict) =
          (returned (request.shouldProcessAsEvent extractorGet requestDict) && request.cleansUp) :=
        rfl
      rw [hloaded, events_of_and]
      exact events_call_bind _ fun isEvent => request.events_guardedStream requestTimeout isEvent

theorem events_post (extractorGet : ExtractorGet) (limit : Nat) (answer : HttpServerApp.Answer) :
    ((request.post extractorGet limit answer).run .initial).events =
      if request.lookup.hasService then .tryStart request.caller ::
        (if answer.1 = HttpServerApp.httpOk then
          if request.returnsSlot extractorGet limit then [.finish request.caller] else []
        else []) else [] := by
  unfold post
  rw [events_getService_bind request.lookup rfl, if_pos rfl, events_emit_bind, events_denied,
    request.events_started]

end ChatRequest

/-- The body of the other handlers and what they do when it raises leave the
cleanup to be done. -/
theorem events_guarded (body : Handling Unit) (hbody : Silent id body)
    (processException finish : Option PyError) (caller : PyStr) (locals : Locals) :
    ((tryFinally
      (tryExcept body fun e => if e.isException then perform processException else raise e)
      (do doFinish finish; emit (.finish caller))).run locals).events =
      if suppressed closedStream finish then [.finish caller] else [] := by
  have hguarded : Silent id (tryExcept body fun e =>
      if e.isException then perform processException else raise e) := by
    refine hbody.tryExcept fun e => ?_
    split
    · exact Silent.perform processException
    · exact Silent.raise e
  rw [events_tryFinally, hguarded.events]
  exact events_suppress_bind _ _ _ _

namespace FunctionRequest

variable (request : FunctionRequest)

/-- The slot is returned unless finishing the response raises. -/
def returnsSlot : Bool := suppressed closedStream request.finish

theorem events_get (answer : HttpServerApp.Answer) :
    ((request.get answer).run .initial).events =
      if request.lookup.hasService then .tryStart request.caller ::
        (if answer.1 = HttpServerApp.httpOk then
          if request.returnsSlot then [.finish request.caller] else []
        else []) else [] := by
  have hbody : Silent id (do perform request.function; perform request.write : Handling Unit) :=
    (Silent.perform _).bind fun _ => Silent.perform _
  unfold get
  rw [events_getService_bind request.lookup rfl, if_pos rfl, events_emit_bind, events_denied]
  unfold started returnsSlot
  rw [events_guarded _ hbody]

end FunctionRequest

namespace ConciergeRequest

variable (request : ConciergeRequest)

/-- The slot is returned unless asking for the storages or the authorizer raises,
or finishing the response does. -/
def returnsSlot : Bool :=
  request.getNetworkStorageDict.isNone &&
    (request.listAgents.isNone && suppressed closedStream request.finish)

theorem events_get (answer : HttpServerApp.Answer) :
    ((request.get answer).run .initial).events = .tryStart caller ::
      (if answer.1 = HttpServerApp.httpOk then
        if request.returnsSlot then [.finish caller] else []
      else []) := by
  have hbody : Silent id (do perform request.sessionList; perform request.write : Handling Unit) :=
    (Silent.perform _).bind fun _ => Silent.perform _
  unfold get
  rw [events_emit_bind, events_denied]
  unfold started returnsSlot
  rw [events_perform_bind, events_perform_bind, events_guarded _ hbody, events_of_and,
    events_of_and]

end ConciergeRequest

namespace Request

/-- Whether the handler asks for a slot. -/
def asks : Request → Bool
  | .streamingChat request => request.lookup.hasService
  | .function request => request.lookup.hasService
  | .concierge _ => true

/-- Whether the handler returns a slot that it has. -/
def returnsSlot (extractorGet : ExtractorGet) (limit : Nat) : Request → Bool
  | .streamingChat request => request.returnsSlot extractorGet limit
  | .function request => request.returnsSlot
  | .concierge request => request.returnsSlot

/-- What a handler asks of the application: for a slot, and to take it back. -/
theorem calls_eq (extractorGet : ExtractorGet) (limit : Nat) (answer : HttpServerApp.Answer)
    (request : Request) :
    request.calls extractorGet limit answer =
      if request.asks then .tryStart request.caller ::
        (if answer.1 = HttpServerApp.httpOk then
          if request.returnsSlot extractorGet limit then [.finish request.caller] else []
        else []) else [] := by
  cases request with
  | streamingChat request => exact request.events_post extractorGet limit answer
  | function request => exact request.events_get answer
  | concierge request => exact request.events_get answer

/-- The handler of a request finishes it exactly once if it was started, and never
otherwise. -/
def FinishesOnce (extractorGet : ExtractorGet) (limit : Nat) (answer : HttpServerApp.Answer)
    (request : Request) : Prop :=
  (request.calls extractorGet limit answer).count (.finish request.caller) =
    if .tryStart request.caller ∈ request.calls extractorGet limit answer ∧
      answer.1 = HttpServerApp.httpOk then 1 else 0

/-- A handler finishes what it started exactly when nothing unexpected is raised
outside its `try`. -/
theorem finishesOnce_iff (extractorGet : ExtractorGet) (limit : Nat)
    (answer : HttpServerApp.Answer) (request : Request) :
    request.FinishesOnce extractorGet limit answer ↔
      (request.asks → answer.1 = HttpServerApp.httpOk →
        request.returnsSlot extractorGet limit) := by
  unfold FinishesOnce
  rw [calls_eq]
  cases request.asks with
  | false => simp
  | true =>
      by_cases hok : answer.1 = HttpServerApp.httpOk
      · cases request.returnsSlot extractorGet limit <;> simp [hok]
      · simp [hok]

end Request

end NoraFleet.HttpServer
