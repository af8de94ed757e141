import NoraFleet.Base.Runs
import NoraFleet.HttpServer.RequestCalls

/-!
# Slots of requests

The application and the requests whose handlers run. Their calls of the
application come in any order, and every call is one step.

* `Accounted.exec` — what one step keeps, if the requests that are started return
  their slots;
* `slots_always_returned_iff` — when a handler returns its slot, and that the
  slots that are taken are those of requests in flight if all do;
* `unreadable_body_keeps_slot` — a request whose body is no text keeps its slot.
-/

namespace NoraFleet.HttpServer

open Base Networks

/-- A request that was started and whose handler still runs: the calls of
`finish_client_request` that are to come. -/
structure InFlight where
  pending : List PyStr
  finished : Bool
  deriving DecidableEq

/-- The application and the requests in flight. -/
structure AppState where
  app : HttpServerApp
  inFlight : List InFlight

/-- What can happen: a request arrives, or a handler makes its next call, or
ends. -/
inductive AppStep where
  | arrives (request : Request)
  | proceeds (index : ℕ)

/-- The caller that a call finishes. -/
def AppCall.finishes : AppCall → Option PyStr
  | .finish caller => some caller
  | .tryStart _ => none

namespace AppState

/-- The application before any request. -/
def initial (requestsLimit concurrentRequestsLimit : Int) : AppState :=
  ⟨.new requestsLimit concurrentRequestsLimit, []⟩

/-- The number of requests between their start and their finish. -/
def processing (s : AppState) : ℕ := s.inFlight.countP fun request => !request.finished

/-- One step. -/
def exec (extractorGet : ExtractorGet) (limit : Nat) : AppStep → AppState → AppState
  | .arrives request, s =>
      let (answer, app) := s.app.tryStartClientRequest request.caller
      match request.calls extractorGet limit answer with
      | .tryStart _ :: calls =>
          if answer.1 = HttpServerApp.httpOk then
            ⟨app, s.inFlight ++ [⟨calls.filterMap AppCall.finishes, false⟩]⟩
          else ⟨app, s.inFlight⟩
      | _ => s
  | .proceeds index, s =>
      match s.inFlight[index]? with
      | none => s
      | some request =>
          match request.pending with
          | [] => { s with inFlight := s.inFlight.eraseIdx index }
          | _ :: pending =>
              ⟨s.app.finishClientRequest, s.inFlight.set index ⟨pending, true⟩⟩

/-- The slots that are taken are those of requests in flight, so only these can
use up the limit. -/
structure SlotsCounted (s : AppState) : Prop where
  counted : s.app.numProcessing = s.processing
  idle : s.inFlight = [] → s.app.numProcessing = 0
  refused : ∀ caller, s.app.serving = true →
    (s.app.tryStartClientRequest caller).1.1 ≠ HttpServerApp.httpOk →
    s.app.concurrentRequestsLimit ≤ s.processing

/-- A request that is started returns its slot. -/
def ReturnsStarted (extractorGet : ExtractorGet) (limit : Nat) : AppStep → AppState → Prop
  | .arrives request, s =>
      request.asks = true →
        (s.app.tryStartClientRequest request.caller).1.1 = HttpServerApp.httpOk →
        request.returnsSlot extractorGet limit = true
  | .proceeds _, _ => True

instance (extractorGet : ExtractorGet) (limit : Nat) (s : AppState) :
    (step : AppStep) → Decidable (ReturnsStarted extractorGet limit step s)
  | .arrives request =>
      inferInstanceAs (Decidable (request.asks = true →
        (s.app.tryStartClientRequest request.caller).1.1 = HttpServerApp.httpOk →
        request.returnsSlot extractorGet limit = true))
  | .proceeds _ => isTrue trivial

/-- Every slot that is taken is one that will be returned. -/
structure Accounted (s : AppState) : Prop where
  counted : s.app.numProcessing = s.processing
  pending : ∀ request ∈ s.inFlight,
    request.pending.length = if request.finished then 0 else 1

theorem Accounted.slotsCounted {s : AppState} (h : s.Accounted) : s.SlotsCounted := by
  refine ⟨h.counted, fun hidle => ?_, fun caller hserving hrefused => ?_⟩
  · rw [h.counted, processing, hidle]
    rfl
  · unfold HttpServerApp.tryStartClientRequest at hrefused
    rw [hserving, Bool.not_true, if_neg Bool.false_ne_true] at hrefused
    split at hrefused
    · rename_i hlimit
      rw [← h.counted]
      exact hlimit.2
    · exact absurd rfl hrefused

/-- A request that is started takes a slot. -/
theorem numProcessing_tryStart {caller : PyStr} {app : HttpServerApp}
    (h : (app.tryStartClientRequest caller).1.1 = HttpServerApp.httpOk) :
    (app.tryStartClientRequest caller).2.numProcessing = app.numProcessing + 1 := by
  unfold HttpServerApp.tryStartClientRequest at h ⊢
  split
  · rename_i hserving
    rw [if_pos hserving] at h
    cases h
  · rename_i hserving
    split
    · rename_i hlimit
      rw [if_neg hserving, if_pos hlimit] at h
      cases h
    · rfl

/-- One that is not takes none. -/
theorem tryStart_refused {caller : PyStr} {app : HttpServerApp}
    (h : (app.tryStartClientRequest caller).1.1 ≠ HttpServerApp.httpOk) :
    (app.tryStartClientRequest caller).2 = app := by
  unfold HttpServerApp.tryStartClientRequest at h ⊢
  split
  · rfl
  · rename_i hserving
    split
    · rfl
    · rename_i hlimit
      rw [if_neg hserving, if_neg hlimit] at h
      exact absurd rfl h

/-- A request arrives. -/
theorem Accounted.arrives {s : AppState} (h : s.Accounted) {extractorGet : ExtractorGet}
    {limit : Nat} {request : Request}
    (hok : ReturnsStarted extractorGet limit (.arrives request) s) :
    (exec extractorGet limit (.arrives request) s).Accounted := by
  simp only [exec, Request.calls_eq]
  cases hasks : request.asks with
  | false => exact h
  | true =>
      simp only [if_true]
      by_cases hstarted : (s.app.tryStartClientRequest request.caller).1.1 = HttpServerApp.httpOk
      · rw [if_pos hstarted, if_pos hstarted, hok hasks hstarted]
        constructor
        · show (s.app.tryStartClientRequest request.caller).2.numProcessing = _
          rw [numProcessing_tryStart hstarted, h.counted]
          simp [processing]
        · intro other hother
          rcases List.mem_append.mp hother with hbefore | hnew
          · exact h.pending other hbefore
          · obtain rfl := List.mem_singleton.mp hnew
            rfl
      · rw [if_neg hstarted, tryStart_refused hstarted]
        exact ⟨h.counted, h.pending⟩

/-- A handler that has made all its calls ends. -/
theorem exec_proceeds_ends {s : AppState} {index : ℕ} {request : InFlight}
    (h : s.inFlight[index]? = some request) (hpending : request.pending = [])
    (extractorGet : ExtractorGet) (limit : ℕ) :
    exec extractorGet limit (.proceeds index) s =
      { s with inFlight := s.inFlight.eraseIdx index } := by
  simp only [exec, h, hpending]

/-- A handler finishes its request. -/
theorem exec_proceeds_finishes {s : AppState} {index : ℕ} {request : InFlight}
    (h : s.inFlight[index]? = some request) {caller : PyStr} {calls : List PyStr}
    (hpending : request.pending = caller :: calls) (extractorGet : ExtractorGet) (limit : ℕ) :
    exec extractorGet limit (.proceeds index) s =
      ⟨s.app.finishClientRequest, s.inFlight.set index ⟨calls, true⟩⟩ := by
  simp only [exec, h, hpending]

/-- A handler goes on, or ends. -/
theorem Accounted.proceeds {s : AppState} (h : s.Accounted) (extractorGet : ExtractorGet)
    (limit index : ℕ) : (exec extractorGet limit (.proceeds index) s).Accounted := by
  cases hrequest : s.inFlight[index]? with
  | none =>
      simp only [exec, hrequest]
      exact h
  | some request =>
      obtain ⟨hlt, rfl⟩ := List.getElem?_eq_some_iff.mp hrequest
      have hpending := h.pending _ (List.getElem_mem hlt)
      have hcount : s.processing =
          (s.inFlight.eraseIdx index).countP (fun request => !request.finished) +
            if !(s.inFlight[index]).finished then 1 else 0 := by
        unfold processing
        rw [← (List.getElem_cons_eraseIdx_perm hlt).countP_eq, List.countP_cons]
      cases hcalls : (s.inFlight[index]).pending with
      | nil =>
          -- the handler ends, and has finished its request
          rw [exec_proceeds_ends hrequest hcalls]
          rw [hcalls] at hpending
          have hfinished : (s.inFlight[index]).finished = true := by
            by_contra hnot
            rw [if_neg hnot] at hpending
            cases hpending
          constructor
          · show s.app.numProcessing = _
            rw [h.counted, hcount, hfinished]
            rfl
          · exact fun other hother => h.pending other (List.mem_of_mem_eraseIdx hother)
      | cons caller calls =>
          rw [exec_proceeds_finishes hrequest hcalls]
          rw [hcalls] at hpending
          have hfinished : (s.inFlight[index]).finished = false := by
            by_contra hnot
            rw [if_pos (Bool.not_eq_false _ ▸ hnot)] at hpending
            cases hpending
          have hnone : calls = [] := by
            rw [hfinished] at hpending
            exact List.length_eq_zero_iff.mp (Nat.succ.inj hpending)
          constructor
          · have hset : processing ⟨s.app.finishClientRequest,
                s.inFlight.set index ⟨calls, true⟩⟩ =
                (s.inFlight.eraseIdx index).countP fun request => !request.finished := by
              unfold processing
              rw [(List.set_perm_cons_eraseIdx hlt _).countP_eq, List.countP_cons]
              rfl
            rw [hset]
            show s.app.numProcessing - 1 = _
            rw [h.counted, hcount, hfinished]
            simp
          · intro other hother
            rcases List.mem_or_eq_of_mem_set hother with hbefore | rfl
            · exact h.pending other hbefore
            · rw [hnone]
              rfl

/-- One step keeps the slots accounted for, if the request it starts returns its
slot. -/
theorem Accounted.exec {extractorGet : ExtractorGet} {limit : Nat} (step : AppStep)
    (s : AppState) (h : s.Accounted) (hok : ReturnsStarted extractorGet limit step s) :
    (exec extractorGet limit step s).Accounted := by
  cases step with
  | arrives request => exact h.arrives hok
  | proceeds index => exact h.proceeds extractorGet limit index

/-- A handler finishes the request that it started exactly once if and only if
nothing raises outside its `try` what is not expected there; and in every run of
which this holds for all requests that are started, the slots that are taken are
those of requests in flight. -/
theorem slots_always_returned_iff (extractorGet : ExtractorGet) (limit : Nat) :
    (∀ (answer : HttpServerApp.Answer) (request : Request),
      request.FinishesOnce extractorGet limit answer ↔
      (request.asks = true → answer.1 = HttpServerApp.httpOk →
        request.returnsSlot extractorGet limit = true)) ∧
    ∀ requestsLimit concurrentRequestsLimit s,
      Runs (AppState.exec extractorGet limit) (ReturnsStarted extractorGet limit)
        (initial requestsLimit concurrentRequestsLimit) s → s.SlotsCounted := by
  refine ⟨Request.finishesOnce_iff extractorGet limit, fun _ _ s hr => ?_⟩
  have hinit : ∀ requestsLimit concurrentRequestsLimit,
      (initial requestsLimit concurrentRequestsLimit).Accounted :=
    fun _ _ => ⟨rfl, fun _ hnone => (nomatch hnone)⟩
  exact (hr.invariant (hinit _ _) fun step s h hok => h.exec step s hok).slotsCounted

/-- A chat with a network that is served, of which no call raises. -/
def plainRequest (body : List UInt8) : Request :=
  .streamingChat
    { agentName := str "hello"
      lookup :=
        { isReservationName := false
          allowAgent := .ok (true, true)
          tempStorageConfigured := true
          getAgentNetworkProvider := .ok true
          allowAgentAgain := .ok (true, true)
          providerGetService := none
          finish := none }
      deniedWrite := none
      deniedFinish := none
      networkForTimeout := some ⟨[], str "hello", []⟩
      body := body
      networkForEvent := some ⟨[], str "hello", []⟩
      keepAliveIntervalSeconds := 0
      setHeaders := none
      flush := none
      results := []
      streamEnds := none
      timeoutExpired := false
      timeoutWrite := none
      processException := none
      awaitKeepAlive := none
      aclose := none
      finish := none }

/-- The application after some steps, when it serves one request at a time. -/
def serving (steps : List AppStep) : AppState :=
  steps.foldl (fun s step => AppState.exec dictionaryGet 1000 step s) (initial (-1) 1)

/-- A chat with `{}` as its body, from its arrival to its end. -/
theorem slots_counted_one_request :
    (serving [.arrives (plainRequest [123, 125]), .proceeds 0, .proceeds 0]).SlotsCounted :=
  (slots_always_returned_iff dictionaryGet 1000).2 (-1) 1 _ (Runs.of_ops .init (by decide +kernel))

/-- A chat whose body is one byte that is no text is not finished, and when no request
is in flight its slot is still taken. -/
theorem unreadable_body_keeps_slot :
    (¬ ∀ (answer : HttpServerApp.Answer) (request : Request),
      request.FinishesOnce dictionaryGet 1000 answer) ∧
    ¬ ∀ s, Runs (AppState.exec dictionaryGet 1000) Runs.anyOp (initial (-1) 1) s →
      s.SlotsCounted := by
  constructor
  · intro h
    have hreturns := (Request.finishesOnce_iff dictionaryGet 1000 (HttpServerApp.httpOk, "")
      (plainRequest [255])).mp (h _ _) (by decide +kernel) rfl
    exact absurd hreturns (by decide +kernel)
  · intro h
    have hcounted := h (serving [.arrives (plainRequest [255]), .proceeds 0])
      (Runs.of_ops .init (by decide +kernel))
    have hidle := hcounted.idle (by decide +kernel)
    exact absurd hidle (by decide +kernel)

end AppState

end NoraFleet.HttpServer
