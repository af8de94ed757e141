import NoraFleet.Sessions.Closing
import NoraFleet.Sessions.StreamingRequest

/-!
# What a streaming request releases

The request is counted before anything that can raise, and taken off the count
after the `finally` block: an exception anywhere, or a consumer that closes the
generator, leaves it counted. Between the creation of the context and the `try`,
an exception also leaves the context unfinished and the queue of its reservations
without the final item.

* `StreamingRequest.countsDown` — the runs that end in the decrement;
* `StreamingRequest.released_iff` — the runs that release what they took;
* `allReleased_iff` — any number of requests, and the count once they have ended.
-/

namespace NoraFleet.Sessions

open Base Flow Networks

/-! ## Pieces that do not count -/

/-- An effect that the methods of a context have once it is started. -/
def Effect.OfContext : Effect → Prop
  | .started _ | .incremented | .decremented | .reservationsQueued => False
  | _ => True

/-- A piece with effects of contexts only. -/
abbrev ActsOnContexts {α : Type} (piece : Managing α) : Prop :=
  Logs Effect.OfContext (fun _ => True) piece

/-- An effect other than those of the counter. -/
abbrev Uncounted (effect : Effect) : Prop := effect ≠ .incremented ∧ effect ≠ .decremented

theorem uncounted_of_ofContext (effect : Effect) (h : effect.OfContext) : Uncounted effect := by
  constructor
  · rintro rfl
    exact h
  · rintro rfl
    exact h

/-- A piece that leaves the counter alone. -/
abbrev LeavesCounter {α : Type} (piece : Managing α) : Prop :=
  Logs Uncounted (fun _ => True) piece

theorem leavesCounter_of_actsOnContexts {α : Type} {piece : Managing α}
    (h : ActsOnContexts piece) : LeavesCounter piece := h.mono uncounted_of_ofContext

theorem actsOnContexts_emit {effect : Effect} (h : effect.OfContext) :
    ActsOnContexts (emit effect) := Logs.emit h

theorem actsOnContexts_readContext_bind {α : Type} {c : Nat}
    {next : SessionInvocationContext → Managing α} (h : ∀ context, ActsOnContexts (next context)) :
    ActsOnContexts (readContext c >>= next) :=
  ⟨fun runtime _ => (h (runtime.contexts c)).events runtime trivial, fun _ _ => trivial⟩

theorem actsOnContexts_updateContext (c : Nat)
    (f : SessionInvocationContext → SessionInvocationContext) :
    ActsOnContexts (updateContext c f) := Logs.assign fun _ _ => trivial

theorem actsOnContexts_closeAll {closes : LingeringResource → Option PyError}
    {closed : Nat → Effect} (h : ∀ r, (closed r).OfContext) (resources : List LingeringResource) :
    ActsOnContexts (closeAll closes closed resources) := by
  induction resources with
  | nil => exact Logs.pure ()
  | cons resource rest ih =>
      exact (actsOnContexts_emit (h resource.id)).bind fun _ => (Logs.perform _).bind fun _ => ih

theorem actsOnContexts_closeOfRequest (c : Nat) : ActsOnContexts (closeOfRequest c) := by
  refine Logs.bind (actsOnContexts_readContext_bind fun context => ?_) fun _ =>
    actsOnContexts_readContext_bind fun context =>
      actsOnContexts_closeAll (fun _ => by trivial) context.resources
  split
  · exact (actsOnContexts_emit (by trivial)).bind fun _ => actsOnContexts_updateContext c _
  · exact Logs.pure ()

theorem actsOnContexts_closeOfWork (c : Nat) : ActsOnContexts (closeOfWork c) := by
  refine actsOnContexts_readContext_bind fun context => Logs.bind
    (actsOnContexts_closeAll (fun _ => by trivial) context.resources) fun _ =>
      actsOnContexts_readContext_bind fun context => ?_
  split
  · exact Logs.pure ()
  · split
    · exact Logs.pure ()
    · exact (actsOnContexts_updateContext c _).bind fun _ => (Logs.perform _).bind fun _ =>
        actsOnContexts_emit (by trivial)

theorem actsOnContexts_task (task : Task) : ActsOnContexts task.run := by
  cases task with
  | closeOfRequest c => exact actsOnContexts_closeOfRequest c
  | closeOfWork c => exact actsOnContexts_closeOfWork c
  | queueWork c handOver =>
      cases handOver with
      | queued => exact Logs.assign fun _ _ => trivial
      | dropped => exact Logs.pure ()
      | raises e => exact Logs.raise e

theorem actsOnContexts_runInExecutor (sameLoop : Bool) (c : Nat) (task : Task) :
    ActsOnContexts (runInExecutorUntilComplete sameLoop c task) := by
  refine actsOnContexts_readContext_bind fun context => ?_
  split
  · exact Logs.raise .attributeError
  · split
    · exact Logs.assign fun _ _ => trivial
    · exact actsOnContexts_task task

theorem actsOnContexts_doneWithWork (sameLoop : Bool) (c : Nat) :
    ActsOnContexts (doneWithWork sameLoop c) := by
  refine (actsOnContexts_runInExecutor sameLoop c _).bind fun _ =>
    actsOnContexts_readContext_bind fun context => ?_
  split
  · exact Logs.pure ()
  · exact (actsOnContexts_emit (by trivial)).bind fun _ => actsOnContexts_updateContext c _

theorem actsOnContexts_readLocals_bind {α : Type} {next : Runtime → Managing α}
    (h : ∀ runtime, ActsOnContexts (next runtime)) : ActsOnContexts (readLocals >>= next) :=
  Logs.readLocals_bind fun runtime _ => h runtime

theorem actsOnContexts_finishRequest (sameLoop : Bool) (handOver : HandOver) (c : Nat) :
    ActsOnContexts (finishRequest sameLoop handOver c) := by
  refine actsOnContexts_readContext_bind fun context =>
    (actsOnContexts_emit (by trivial)).bind fun _ => ?_
  split
  · exact Logs.pure ()
  · refine (actsOnContexts_updateContext c _).bind fun _ =>
      (Logs.assign fun _ _ => trivial).bind fun _ => Logs.tryFinally ?_ ?_
    · refine (actsOnContexts_runInExecutor sameLoop c _).bind fun _ =>
        actsOnContexts_readContext_bind fun context => ?_
      split
      · exact (Logs.assign fun _ _ => trivial).bind fun _ =>
          actsOnContexts_runInExecutor sameLoop c _
      · exact Logs.pure ()
    · refine actsOnContexts_readLocals_bind fun runtime => ?_
      split
      · exact actsOnContexts_doneWithWork sameLoop c
      · exact Logs.pure ()

theorem actsOnContexts_newContext (reservationist : Option Reservationist)
    (effectiveInvocation : PyStr) (hasEventWorkQueue : Bool) :
    ActsOnContexts (newContext reservationist effectiveInvocation hasEventWorkQueue) := by
  refine actsOnContexts_readLocals_bind fun runtime =>
    (actsOnContexts_updateContext _ _).bind fun _ => Logs.bind ?_ fun executor =>
      (actsOnContexts_updateContext _ _).bind fun _ => Logs.assign fun _ _ => trivial
  refine actsOnContexts_readLocals_bind fun runtime =>
    (actsOnContexts_emit (by trivial)).bind fun _ =>
      (Logs.assign fun _ _ => trivial).bind fun _ => Logs.pure _

theorem actsOnContexts_addResources (c : Nat) (resources : List LingeringResource) :
    ActsOnContexts (addResources c resources) := by
  induction resources with
  | nil => exact Logs.pure ()
  | cons resource rest ih =>
      refine Logs.bind (actsOnContexts_readContext_bind fun context => ?_) fun _ => ih
      exact (actsOnContexts_emit (by trivial)).bind fun _ => actsOnContexts_updateContext c _

theorem actsOnContexts_deliver (responses : List Response) :
    ActsOnContexts (deliver responses) := by
  induction responses with
  | nil => exact Logs.pure ()
  | cons response rest ih =>
      exact (Logs.perform _).bind fun _ => (Logs.perform _).bind fun _ => ih

namespace StreamingRequest

variable (request : StreamingRequest) (extractorGet : ExtractorGet)

theorem leavesCounter_prepare : LeavesCounter (request.prepare extractorGet) := by
  refine (Logs.call _).bind fun _ => (Logs.perform _).bind fun _ => (Logs.perform _).bind fun _ =>
    (Logs.perform _).bind fun _ => (Logs.call _).bind fun invocation =>
      (Logs.call _).bind fun reserves => Logs.bind ?_ fun _ => (Logs.perform _).bind fun _ =>
        (leavesCounter_of_actsOnContexts (actsOnContexts_newContext _ _ _)).bind fun _ =>
          (Logs.perform _).bind fun _ => (Logs.emit ⟨by simp, by simp⟩).bind fun _ =>
            (Logs.perform _).bind fun _ => (Logs.perform _).bind fun _ =>
              (Logs.call _).bind fun _ => Logs.pure ()
  cases reserves with
  | true => exact (Logs.perform _).bind fun _ => Logs.emit ⟨by simp, by simp⟩
  | false => exact Logs.pure ()

theorem actsOnContexts_closeGenerator : ActsOnContexts request.closeGenerator :=
  (Logs.assign fun _ _ => trivial).bind fun _ =>
    Logs.suppress (actsOnContexts_finishRequest false request.handOver 0)

theorem actsOnContexts_stream : ActsOnContexts (request.stream extractorGet) := by
  refine (Logs.call _).bind fun userInput => (Logs.perform _).bind fun _ => ?_
  split
  · exact actsOnContexts_deliver _
  · exact (Logs.perform _).bind fun _ => (Logs.perform _).bind fun _ =>
      (actsOnContexts_addResources 0 _).bind fun _ =>
        (Logs.assign fun _ _ => trivial).bind fun _ =>
          (actsOnContexts_deliver _).bind fun _ =>
            Logs.tryFinally (Logs.perform _) request.actsOnContexts_closeGenerator

theorem actsOnContexts_cleanup : ActsOnContexts request.cleanup := by
  refine Logs.bind (Logs.suppress (actsOnContexts_readLocals_bind fun runtime => ?_)) fun _ =>
    actsOnContexts_finishRequest false request.handOver 0
  split
  · exact request.actsOnContexts_closeGenerator
  · exact Logs.pure ()

theorem actsOnContexts_processPool : ActsOnContexts request.processPool := by
  refine actsOnContexts_readLocals_bind fun runtime => ?_
  split
  · exact Logs.pure ()
  · split
    · exact actsOnContexts_doneWithWork false _
    · exact Logs.pure ()

/-- What is counted: everything but the last step. -/
def counted : Managing Unit := do
  request.prepare extractorGet
  tryFinally (request.stream extractorGet) request.cleanup
  perform request.reportDone

theorem leavesCounter_counted : LeavesCounter (request.counted extractorGet) :=
  (request.leavesCounter_prepare extractorGet).bind fun _ =>
    (leavesCounter_of_actsOnContexts ((request.actsOnContexts_stream extractorGet).tryFinally
      request.actsOnContexts_cleanup)).bind fun _ => Logs.perform request.reportDone

/-- The request is counted first, and taken off the count at the end, if that is
reached. -/
theorem streamingChat_eq :
    request.streamingChat extractorGet =
      (do emit .incremented; request.counted extractorGet; emit .decremented) := by
  simp only [streamingChat, counted, bind_assoc]

/-! ## Preparing -/

/-- The request is to have a reservationist. -/
def reserved : Bool := request.reserves.toOption.getD false

/-- The invocation of the request. -/
def invocation : Except PyError Invocations :=
  InvocationUtil.getEffectiveInvocation extractorGet request.agentNetwork request.requestDict

/-- The calls before the `try` return. -/
def prepared : Bool :=
  returned (userText request.requestDict) && (request.redactPerEnvVar.isNone &&
    (request.updateMetadata.isNone && (request.logReceived.isNone &&
      (returned (request.invocation extractorGet) && (returned request.reserves &&
        ((!request.reserved || request.putQueue.isNone) && (request.getExecutor.isNone &&
          (request.start.isNone && (request.submitLogging.isNone &&
            (request.createSession.isNone &&
              returned (extractorGet request.requestDict (str "chat_filter.chat_filter_type")
                (.str (str "MINIMAL")))))))))))))

/-- The context of the request. -/
def context : SessionInvocationContext :=
  createdContext 0 (request.reservationist request.reserved)
    (invocationText ((request.invocation extractorGet).toOption.getD .chatbot))
    request.hasEventWorkQueue

/-- The runtime with that context, and no other. -/
def preparedRuntime : Runtime :=
  { initialRuntime.update 0 fun _ => request.context extractorGet with
    executors := 1, created := 1 }

/-- The effects of preparing. -/
def preparedEffects : List Effect :=
  (if request.reserved then [.reservationsQueued] else []) ++ [.obtained 0 0 0, .started 0]

/-- Preparing ends as given, with the context where it returns. -/
theorem endsIf_prepare :
    EndsIf (request.prepared extractorGet) (request.prepare extractorGet) initialRuntime
      ⟨request.preparedEffects, request.preparedRuntime extractorGet, .ok ()⟩ := by
  refine EndsIf.call_bind _ fun _ _ => EndsIf.perform_bind _ (EndsIf.perform_bind _
    (EndsIf.perform_bind _ (EndsIf.call_bind _ fun invocation hinvocation =>
      EndsIf.call_bind _ fun reserves hreserves => ?_)))
  have hreserved : request.reserved = reserves := by
    rw [reserved, hreserves]
    rfl
  have hcreated := run_newContext (request.reservationist reserves) (invocationText invocation)
    request.hasEventWorkQueue initialRuntime
  have hcontext : request.context extractorGet =
      createdContext 0 (request.reservationist reserves) (invocationText invocation)
        request.hasEventWorkQueue := by
    simp only [context, hreserved, hinvocation]
    rfl
  have hrest : EndsIf (request.getExecutor.isNone && (request.start.isNone &&
        (request.submitLogging.isNone && (request.createSession.isNone &&
          returned (extractorGet request.requestDict (str "chat_filter.chat_filter_type")
            (.str (str "MINIMAL")))))))
      (do
        perform request.getExecutor
        newContext (request.reservationist reserves) (invocationText invocation)
          request.hasEventWorkQueue
        perform request.start
        emit (.started 0)
        perform request.submitLogging
        perform request.createSession
        let _ ← call (extractorGet request.requestDict (str "chat_filter.chat_filter_type")
          (.str (str "MINIMAL")))
        pure () : Managing Unit) initialRuntime
      ⟨[.obtained 0 0 0, .started 0], request.preparedRuntime extractorGet, .ok ()⟩ := by
    have hstarted : ∀ runtime : Runtime, (emit (.started 0) : Managing Unit).run runtime =
        ⟨[.started 0], runtime, .ok ()⟩ := fun _ => rfl
    refine EndsIf.perform_bind _ (EndsIf.bind_of_ok hcreated (EndsIf.perform_bind _
      (EndsIf.bind_of_ok (hstarted _) (EndsIf.perform_bind _ (EndsIf.perform_bind _ ?_)))))
    rw [← Bool.and_true (returned _)]
    refine EndsIf.call_bind _ fun _ _ => ⟨rfl, fun _ => ?_⟩
    unfold preparedRuntime
    rw [hcontext]
    rfl
  have hqueued : ∀ runtime : Runtime, (emit .reservationsQueued : Managing Unit).run runtime =
      ⟨[.reservationsQueued], runtime, .ok ()⟩ := fun _ => rfl
  unfold preparedEffects queueReservations
  rw [hreserved]
  cases reserves with
  | false => exact hrest
  | true =>
      rw [if_pos rfl, bind_assoc]
      exact EndsIf.perform_bind request.putQueue (EndsIf.bind_of_ok (hqueued _) hrest)

end StreamingRequest

/-! ## Finishing the request -/

namespace SessionInvocationContext

variable (context : SessionInvocationContext)

/-- The work goes to the event work queue. -/
def defers : Bool := context.defersWork && context.requestRaised.isNone

/-- What finishing the request raises. -/
def finishRaised (handOver : HandOver) : Option PyError :=
  if context.defers then handOver.raised else context.workRaised <|> context.requestRaised

/-- Closing the work puts the final item for the reservations. -/
def endsReservations : Bool :=
  context.resourcesRaised.isNone && decide (context.finalItem = some none)

end SessionInvocationContext

theorem reservationsEnded_mem_closeOfWorkEffects (c : Nat) (context : SessionInvocationContext) :
    .reservationsEnded ∈ closeOfWorkEffects c context ↔ context.endsReservations = true := by
  have hclosed : .reservationsEnded ∉ closedEffects LingeringResource.closeOfWork
      (.closedOfWork c context.exchange) context.resources := by
    intro h
    obtain ⟨r, hr⟩ := mem_closedEffects h
    cases hr
  unfold closeOfWorkEffects SessionInvocationContext.endsReservations
  rw [List.mem_append, or_iff_right hclosed]
  split <;> simp_all

theorem reservationsEnded_mem_doneWithWorkEffects (c : Nat) (context : SessionInvocationContext) :
    .reservationsEnded ∈ doneWithWorkEffects c context ↔ context.endsReservations = true := by
  have hreturned : Effect.reservationsEnded ∉
      if context.workRaised = none then (context.ownExecutor.map Effect.returned).toList
      else [] := by
    split
    · simp
    · exact List.not_mem_nil
  unfold doneWithWorkEffects
  rw [List.mem_append, or_iff_left hreturned, reservationsEnded_mem_closeOfWorkEffects]

theorem reservationsEnded_not_mem_closeOfRequestEffects (c : Nat)
    (context : SessionInvocationContext) :
    .reservationsEnded ∉ closeOfRequestEffects c context := by
  intro h
  rcases List.mem_append.mp h with h | h
  · split at h
    · simp at h
    · exact absurd h List.not_mem_nil
  · obtain ⟨r, hr⟩ := mem_closedEffects h
    cases hr

/-- What finishing a request from another thread leaves. -/
structure FinishedBy (c : Nat) (handOver : HandOver) (runtime : Runtime)
    (ended : Ending Effect Runtime Unit) : Prop where
  ofContext : ∀ effect ∈ ended.events, effect.OfContext
  outcome : ended.outcome = ofRaised ((runtime.contexts c).finishRaised handOver)
  called : .finishCalled c (runtime.contexts c).exchange ∈ ended.events
  finished : (ended.locals.contexts c).requestFinished = true
  generatorOpen : ended.locals.generatorOpen = runtime.generatorOpen
  eventWork : ended.locals.eventWork =
    runtime.eventWork ++ if (runtime.contexts c).defers then handOver.eventWork c else []
  reservations : .reservationsEnded ∈ ended.events ↔
    (runtime.contexts c).defers = false ∧ (runtime.contexts c).endsReservations = true
  deferred : (runtime.contexts c).defers = true →
    ended.locals.contexts c = (runtime.contexts c).finished.withoutQueue

theorem finishedBy_finishRequest {c : Nat} {runtime : Runtime}
    (hfinished : (runtime.contexts c).requestFinished = false)
    (hexecutor : (runtime.contexts c).asyncioExecutor.isSome) (handOver : HandOver) :
    FinishedBy c handOver runtime ((finishRequest false handOver c).run runtime) := by
  have hofContext := (actsOnContexts_finishRequest false handOver c).events runtime trivial
  have hnotRequest := reservationsEnded_not_mem_closeOfRequestEffects c (runtime.contexts c)
  cases hdefers : (runtime.contexts c).defers with
  | true =>
      have hboth := hdefers
      unfold SessionInvocationContext.defers at hboth
      rw [Bool.and_eq_true, Option.isNone_iff_eq_none] at hboth
      rw [run_finishRequest_deferred hfinished hexecutor hboth.1 hboth.2] at hofContext ⊢
      refine ⟨hofContext, ?_, List.mem_cons_self, ?_, rfl, ?_, ?_, fun _ => ?_⟩
      · simp [SessionInvocationContext.finishRaised, hdefers]
      · simp [SessionInvocationContext.finished, SessionInvocationContext.withoutQueue]
      · simp [hdefers]
      · simp [hdefers, hnotRequest]
      · simp
  | false =>
      have hnow : (runtime.contexts c).defersWork = false ∨
          (runtime.contexts c).requestRaised ≠ none := by
        unfold SessionInvocationContext.defers at hdefers
        rcases Bool.and_eq_false_iff.mp hdefers with h | h
        · exact .inl h
        · exact .inr fun hnone => by simp [hnone] at h
      rw [run_finishRequest_now hfinished hexecutor hnow] at hofContext ⊢
      refine ⟨hofContext, ?_, List.mem_cons_self, ?_, rfl, ?_, ?_,
        fun h => absurd (hdefers.symm.trans h) Bool.false_ne_true⟩
      · simp [SessionInvocationContext.finishRaised, hdefers]
      · rw [Runtime.update_contexts_self, requestFinished_withWorkDone]
        simp [SessionInvocationContext.finished, SessionInvocationContext.withoutQueue]
      · simp [hdefers, Runtime.update, Runtime.finishing]
      · rw [List.mem_cons, List.mem_append, or_iff_right hnotRequest,
          reservationsEnded_mem_doneWithWorkEffects]
        simp [hdefers]

/-! ## Streaming -/

/-- What converting a response or its `yield` raises. -/
def Response.raised (response : Response) : Option PyError := response.convert <|> response.yielded

theorem run_deliver (responses : List Response) (runtime : Runtime) :
    (deliver responses).run runtime =
      ⟨[], runtime, ofRaised (responses.findSome? Response.raised)⟩ := by
  induction responses with
  | nil => rfl
  | cons response rest ih =>
      obtain ⟨convert, yielded⟩ := response
      unfold deliver
      cases convert with
      | some e => rfl
      | none =>
          cases yielded with
          | some e => rfl
          | none =>
              rw [run_perform_none_bind, run_perform_none_bind, ih]
              rfl

/-- The context with resources added to it. -/
def SessionInvocationContext.withResources (resources : List LingeringResource)
    (context : SessionInvocationContext) : SessionInvocationContext :=
  { context with resources := context.resources ++ resources }

theorem run_addResources (c : Nat) (resources : List LingeringResource) (runtime : Runtime) :
    (addResources c resources).run runtime =
      ⟨resources.map fun resource => .added c (runtime.contexts c).exchange resource.id,
        runtime.update c (SessionInvocationContext.withResources resources), .ok ()⟩ := by
  induction resources generalizing runtime with
  | nil =>
      have hsame : (runtime.contexts c).withResources [] = runtime.contexts c := by
        simp [SessionInvocationContext.withResources]
      rw [Runtime.update_eq_self hsame]
      rfl
  | cons resource rest ih =>
      have hadd : (addResource c resource).run runtime =
          ⟨[.added c (runtime.contexts c).exchange resource.id],
            runtime.update c (SessionInvocationContext.withResources [resource]), .ok ()⟩ := rfl
      unfold addResources
      rw [run_bind_ok hadd, ih, Runtime.update_contexts_self, Runtime.update_update]
      simp only [SessionInvocationContext.withResources, List.append_assoc]
      rfl

namespace StreamingRequest

variable (request : StreamingRequest) (extractorGet : ExtractorGet)

/-- The text of the user message, as the session reads it. -/
def userInput : Except PyError Json :=
  extractorGet request.requestDict (str "user_message.text") .null

/-- The session has nothing to chat about. -/
def templateOnly : Bool := (request.userInput extractorGet).toOption.any isNone

/-- The context at the end of the request: a chat has added its resources. -/
def finalContext : SessionInvocationContext :=
  if request.templateOnly extractorGet then request.context extractorGet
  else (request.context extractorGet).withResources request.resources

/-- The response with the template is delivered, and the context is finished. -/
def streamsTemplate : Bool :=
  request.templateResponse.raised.isNone &&
    ((request.finalContext extractorGet).finishRaised request.handOver).isNone

/-- The queue is streamed to its end, and the context is finished. -/
def streamsQueue : Bool :=
  request.applyQueueFilter.isNone && (request.submitChat.isNone &&
    ((request.responses.findSome? Response.raised).isNone && (request.queueEnds.isNone &&
      suppressed PyError.isException
        ((request.finalContext extractorGet).finishRaised request.handOver))))

/-- The `try` block and the `finally` block return. -/
def streams : Bool :=
  returned (request.userInput extractorGet) && (request.createChatSession.isNone &&
    if request.templateOnly extractorGet then request.streamsTemplate extractorGet
    else request.streamsQueue extractorGet)

/-- The request is taken off the count. -/
def countsDown : Bool :=
  request.prepared extractorGet && (request.streams extractorGet && request.reportDone.isNone)

/-- The final item is put for the reservations: as the request is finished, or by the
event work monitor once the work is done. -/
def endsReservations : Bool :=
  (request.finalContext extractorGet).endsReservations &&
    (!(request.finalContext extractorGet).defers ||
      (decide (request.handOver = .queued) && request.workDone))

/-- The request releases what it took. -/
def releases : Bool :=
  request.countsDown extractorGet && (!request.reserved || request.endsReservations extractorGet)

/-- What the two blocks leave, where they return. -/
structure StreamedBy (ended : Ending Effect Runtime Unit) : Prop where
  returned : ended.outcome = .ok ()
  ofContext : ∀ effect ∈ ended.events, effect.OfContext
  called : .finishCalled 0 0 ∈ ended.events
  eventWork : ended.locals.eventWork =
    if (request.finalContext extractorGet).defers then request.handOver.eventWork 0 else []
  reservations : .reservationsEnded ∈ ended.events ↔
    (request.finalContext extractorGet).defers = false ∧
      (request.finalContext extractorGet).endsReservations = true
  deferred : (request.finalContext extractorGet).defers = true →
    ended.locals.contexts 0 = (request.finalContext extractorGet).finished.withoutQueue

theorem contexts_preparedRuntime :
    (request.preparedRuntime extractorGet).contexts 0 = request.context extractorGet :=
  Runtime.update_contexts_self initialRuntime 0 fun _ => request.context extractorGet

/-- With no generator to close, the `finally` block finishes the request. -/
theorem run_cleanup {runtime : Runtime} (h : runtime.generatorOpen = false) :
    request.cleanup.run runtime = (finishRequest false request.handOver 0).run runtime := by
  have haclose : request.aclose.run runtime = ⟨[], runtime, ofRaised none⟩ := by
    simp only [aclose, run_readLocals_bind, h]
    rfl
  rw [cleanup, run_bind_ok (run_suppress_of_raised haclose)]
  rfl

/-- How finishing the request ends. -/
theorem run_finishRequest_of {runtime : Runtime}
    (hfinished : FinishedBy 0 request.handOver runtime
      ((finishRequest false request.handOver 0).run runtime)) :
    (finishRequest false request.handOver 0).run runtime =
      ⟨((finishRequest false request.handOver 0).run runtime).events,
        ((finishRequest false request.handOver 0).run runtime).locals,
        ofRaised ((runtime.contexts 0).finishRaised request.handOver)⟩ := by
  rw [← hfinished.outcome]

theorem exchange_finalContext : (request.finalContext extractorGet).exchange = 0 := by
  unfold finalContext
  split
  · rfl
  · rfl

/-- What finishing the request leaves is what the two blocks leave. -/
theorem streamedBy_of_finishedBy {runtime : Runtime} {ended : Ending Effect Runtime Unit}
    (hcontext : runtime.contexts 0 = request.finalContext extractorGet)
    (hwork : runtime.eventWork = []) (h : FinishedBy 0 request.handOver runtime ended)
    {before after : List Effect} (hofBefore : ∀ effect ∈ before, effect.OfContext)
    (hofAfter : ∀ effect ∈ after, effect.OfContext) (hbefore : .reservationsEnded ∉ before)
    (hafter : .reservationsEnded ∉ after) :
    request.StreamedBy extractorGet ⟨before ++ (ended.events ++ after), ended.locals, .ok ()⟩ := by
  have hcalled := h.called
  have heventWork := h.eventWork
  have hreservations := h.reservations
  have hdeferred := h.deferred
  rw [hcontext, exchange_finalContext] at hcalled
  rw [hcontext, hwork, List.nil_append] at heventWork
  rw [hcontext] at hreservations hdeferred
  refine ⟨rfl, ?_, ?_, heventWork, ?_, hdeferred⟩
  · intro effect heffect
    rcases List.mem_append.mp heffect with heffect | heffect
    · exact hofBefore effect heffect
    · exact (List.mem_append.mp heffect).elim (h.ofContext effect) (hofAfter effect)
  · exact List.mem_append_right _ (List.mem_append_left _ hcalled)
  · rw [← hreservations, List.mem_append, List.mem_append, or_iff_right hbefore, or_iff_left hafter]

/-- The session answers with the template, and leaves the context to the `finally`
block. -/
theorem streams_template (htemplate : request.templateOnly extractorGet = true) :
    ∃ ending, request.StreamedBy extractorGet ending ∧
      EndsIf (request.streamsTemplate extractorGet)
        (tryFinally (deliver [request.templateResponse]) request.cleanup)
        (request.preparedRuntime extractorGet) ending := by
  have hcontext := request.contexts_preparedRuntime extractorGet
  have hfinal : request.finalContext extractorGet = request.context extractorGet := by
    simp only [finalContext, htemplate, if_true]
  have hfinished : FinishedBy 0 request.handOver (request.preparedRuntime extractorGet)
      ((finishRequest false request.handOver 0).run (request.preparedRuntime extractorGet)) :=
    finishedBy_finishRequest (by rw [hcontext]; rfl) (by rw [hcontext]; rfl) _
  have hopen : (request.preparedRuntime extractorGet).generatorOpen = false := rfl
  have hcleanup := (request.run_cleanup hopen).trans (request.run_finishRequest_of hfinished)
  have hdelivered : EndsIf request.templateResponse.raised.isNone
      (deliver [request.templateResponse]) (request.preparedRuntime extractorGet)
      ⟨[], request.preparedRuntime extractorGet, .ok ()⟩ := by
    refine EndsIf.of_run ((run_deliver _ _).trans ?_)
    cases hraised : request.templateResponse.raised with
    | none => simp [hraised]
    | some e => simp [hraised]
  have hnone : ∀ effect, effect ∉ ([] : List Effect) := fun _ => List.not_mem_nil
  have hofNone : ∀ effect ∈ ([] : List Effect), effect.OfContext :=
    fun effect h => absurd h (hnone effect)
  have hstreamed := request.streamedBy_of_finishedBy extractorGet (hcontext.trans hfinal.symm) rfl
    hfinished hofNone hofNone (hnone _) (hnone _)
  refine ⟨_, hstreamed, ?_⟩
  rw [streamsTemplate, hfinal, List.append_nil]
  exact hcontext ▸ hdelivered.tryFinally hcleanup

/-- The session streams its queue, and finishes the context as it ends. -/
theorem streams_queue (htemplate : request.templateOnly extractorGet = false) :
    ∃ ending, request.StreamedBy extractorGet ending ∧
      EndsIf (request.streamsQueue extractorGet) (tryFinally request.streamQueue request.cleanup)
        (request.preparedRuntime extractorGet) ending := by
  have hfinal : request.finalContext extractorGet =
      (request.context extractorGet).withResources request.resources := by
    simp only [finalContext, htemplate, Bool.false_eq_true, if_false]
  let added := (request.preparedRuntime extractorGet).update 0
    (SessionInvocationContext.withResources request.resources)
  let closing : Runtime := { added with generatorOpen := false }
  have hcontext : closing.contexts 0 = request.finalContext extractorGet := by
    rw [hfinal, ← request.contexts_preparedRuntime extractorGet]
    exact Runtime.update_contexts_self ..
  have hfinished : FinishedBy 0 request.handOver closing
      ((finishRequest false request.handOver 0).run closing) :=
    finishedBy_finishRequest (by rw [hcontext, hfinal]; rfl) (by rw [hcontext, hfinal]; rfl) _
  generalize hended : (finishRequest false request.handOver 0).run closing = ended at hfinished
  have hfinish : (finishRequest false request.handOver 0).run closing =
      ⟨ended.events, ended.locals,
        ofRaised ((request.finalContext extractorGet).finishRaised request.handOver)⟩ := by
    rw [hended, ← hcontext, ← hfinished.outcome]
  -- the generator runs into its end, and its `finally` block finishes the context
  have hclose : EndsIf (request.queueEnds.isNone && suppressed PyError.isException
        ((request.finalContext extractorGet).finishRaised request.handOver))
      (tryFinally (perform request.queueEnds) request.closeGenerator)
      { added with generatorOpen := true } ⟨ended.events, ended.locals, .ok ()⟩ := by
    rw [← isNone_suppressed]
    exact (EndsIf.of_run (run_perform request.queueEnds _)).tryFinally
      (run_suppress_of_raised hfinish)
  have hbody : EndsIf (request.streamsQueue extractorGet) request.streamQueue
      (request.preparedRuntime extractorGet)
      ⟨(request.resources.map fun resource => .added 0
          ((request.preparedRuntime extractorGet).contexts 0).exchange resource.id) ++
        ended.events, ended.locals, .ok ()⟩ :=
    EndsIf.perform_bind _ (EndsIf.perform_bind _ (EndsIf.bind_of_ok (run_addResources 0 _ _)
      (EndsIf.assign_bind (EndsIf.bind (EndsIf.of_run (run_deliver _ _)) hclose))))
  -- what is left for the outer `finally` block is a context that is finished
  have hcleanup : request.cleanup.run ended.locals =
      ⟨[.finishCalled 0 (ended.locals.contexts 0).exchange], ended.locals, ofRaised none⟩ :=
    (request.run_cleanup hfinished.generatorOpen).trans
      (run_finishRequest_finished hfinished.finished false request.handOver)
  have hadded : .reservationsEnded ∉ request.resources.map fun resource => Effect.added 0
      ((request.preparedRuntime extractorGet).contexts 0).exchange resource.id := by simp
  have hcalled : .reservationsEnded ∉
      [Effect.finishCalled 0 (ended.locals.contexts 0).exchange] := by simp
  have hofAdded : ∀ effect ∈ request.resources.map fun resource => Effect.added 0
      ((request.preparedRuntime extractorGet).contexts 0).exchange resource.id,
      effect.OfContext := by
    intro effect heffect
    obtain ⟨resource, -, rfl⟩ := List.mem_map.mp heffect
    trivial
  have hofCalled : ∀ effect ∈ [Effect.finishCalled 0 (ended.locals.contexts 0).exchange],
      effect.OfContext := by
    intro effect heffect
    rw [List.mem_singleton.mp heffect]
    trivial
  have hstreamed := request.streamedBy_of_finishedBy extractorGet hcontext rfl hfinished hofAdded
    hofCalled hadded hcalled
  refine ⟨_, hstreamed, ?_⟩
  have hends := hbody.tryFinally hcleanup
  rwa [Option.isNone_none, Bool.and_true, List.append_assoc] at hends

/-- The `try` block and the `finally` block end as given. -/
theorem exists_streamedBy :
    ∃ ending, request.StreamedBy extractorGet ending ∧
      EndsIf (request.streams extractorGet)
        (tryFinally (request.stream extractorGet) request.cleanup)
        (request.preparedRuntime extractorGet) ending := by
  have hbranch : ∃ ending, request.StreamedBy extractorGet ending ∧
      ∀ userInput, request.userInput extractorGet = .ok userInput →
        EndsIf (if request.templateOnly extractorGet then request.streamsTemplate extractorGet
            else request.streamsQueue extractorGet)
          (tryFinally (if isNone userInput then deliver [request.templateResponse]
            else request.streamQueue) request.cleanup)
          (request.preparedRuntime extractorGet) ending := by
    cases htemplate : request.templateOnly extractorGet with
    | true =>
        obtain ⟨ending, hstreamed, hends⟩ := request.streams_template extractorGet htemplate
        refine ⟨ending, hstreamed, fun userInput hinput => ?_⟩
        rw [templateOnly, hinput] at htemplate
        have hnull : isNone userInput = true := htemplate
        rw [if_pos rfl, if_pos hnull]
        exact hends
    | false =>
        obtain ⟨ending, hstreamed, hends⟩ := request.streams_queue extractorGet htemplate
        refine ⟨ending, hstreamed, fun userInput hinput => ?_⟩
        rw [templateOnly, hinput] at htemplate
        have hnull : isNone userInput = false := htemplate
        rw [if_neg Bool.false_ne_true, if_neg (Bool.eq_false_iff.mp hnull)]
        exact hends
  obtain ⟨ending, hstreamed, hends⟩ := hbranch
  exact ⟨ending, hstreamed, EndsIf.tryFinally_call_bind _ fun userInput hinput =>
    EndsIf.tryFinally_perform_bind _ (hends userInput hinput)⟩

/-! ## What is released -/

/-- What was taken is released: the counter is decremented as often as incremented,
a context that was started is finished, and a queue for reservations that the
server watches gets its final item. -/
structure Released (effects : List Effect) : Prop where
  counted : effects.count .decremented = effects.count .incremented
  finished : ∀ c, .started c ∈ effects → ∃ exchange, .finishCalled c exchange ∈ effects
  reservations : .reservationsQueued ∈ effects → .reservationsEnded ∈ effects

/-- What is counted returns exactly where the request is taken off the count. -/
theorem exists_counted :
    ∃ ending, request.StreamedBy extractorGet ending ∧
      EndsIf (request.countsDown extractorGet) (request.counted extractorGet) initialRuntime
        ⟨request.preparedEffects ++ ending.events, ending.locals, .ok ()⟩ := by
  obtain ⟨⟨events, locals, outcome⟩, hstreamed, hends⟩ := request.exists_streamedBy extractorGet
  obtain rfl : outcome = .ok () := hstreamed.returned
  refine ⟨_, hstreamed, ?_⟩
  have hreported : EndsIf request.reportDone.isNone (perform request.reportDone : Managing Unit)
      locals ⟨[], locals, .ok ()⟩ := EndsIf.of_run (run_perform _ _)
  have hrest : EndsIf (request.streams extractorGet && request.reportDone.isNone)
      (do
        tryFinally (request.stream extractorGet) request.cleanup
        perform request.reportDone)
      (request.preparedRuntime extractorGet) ⟨events ++ [], locals, .ok ()⟩ :=
    EndsIf.bind hends hreported
  rw [List.append_nil] at hrest
  exact (request.endsIf_prepare extractorGet).bind hrest

/-- The effects of the request are those of its generator, and then those of the
event work monitor. -/
theorem effects_eq :
    request.effects extractorGet =
      ((request.streamingChat extractorGet).run initialRuntime).events ++
        (request.processPool.run
          ((request.streamingChat extractorGet).run initialRuntime).locals).events := by
  simp only [effects, run_bind, tryExcept]
  generalize (request.streamingChat extractorGet).run initialRuntime = ended
  obtain ⟨events, locals, e | _⟩ := ended
  · exact congrArg (· ++ _) (List.append_nil events)
  · rfl

/-- The generator: the increment, what is counted, and the decrement if that returns. -/
theorem run_streamingChat :
    ((request.streamingChat extractorGet).run initialRuntime).events =
      .incremented :: (((request.counted extractorGet).run initialRuntime).events ++
        if request.countsDown extractorGet then [.decremented] else []) ∧
    ((request.streamingChat extractorGet).run initialRuntime).locals =
      ((request.counted extractorGet).run initialRuntime).locals := by
  obtain ⟨ending, -, hends⟩ := request.exists_counted extractorGet
  have hreturned := hends.returned
  rw [streamingChat_eq, run_emit_bind, run_bind]
  generalize (request.counted extractorGet).run initialRuntime = ended at hreturned ⊢
  obtain ⟨events, locals, e | _⟩ := ended
  · have hfalse : false = request.countsDown extractorGet := hreturned
    rw [← hfalse]
    exact ⟨congrArg _ (List.append_nil events).symm, rfl⟩
  · have htrue : true = request.countsDown extractorGet := hreturned
    rw [← htrue]
    exact ⟨rfl, rfl⟩

/-- What is released first is counted. -/
theorem count_effects :
    (request.effects extractorGet).count .incremented = 1 ∧
      (request.effects extractorGet).count .decremented =
        if request.countsDown extractorGet then 1 else 0 := by
  have hcounted : ∀ effect ∈ ((request.counted extractorGet).run initialRuntime).events,
      Uncounted effect := (request.leavesCounter_counted extractorGet).events _ trivial
  have hpool : ∀ effect ∈ (request.processPool.run
      ((request.streamingChat extractorGet).run initialRuntime).locals).events, Uncounted effect :=
    (leavesCounter_of_actsOnContexts request.actsOnContexts_processPool).events _ trivial
  have hnone : ∀ {effects : List Effect}, (∀ effect ∈ effects, Uncounted effect) →
      effects.count .incremented = 0 ∧ effects.count .decremented = 0 := by
    intro effects h
    exact ⟨List.count_eq_zero.mpr fun hmem => (h _ hmem).1 rfl,
      List.count_eq_zero.mpr fun hmem => (h _ hmem).2 rfl⟩
  rw [effects_eq, (request.run_streamingChat extractorGet).1]
  obtain ⟨hinc, hdec⟩ := hnone hcounted
  obtain ⟨hinc', hdec'⟩ := hnone hpool
  cases request.countsDown extractorGet with
  | true => simp [List.count_append, hinc, hdec, hinc', hdec']
  | false => simp [List.count_append, hinc, hdec, hinc', hdec']

/-- A request that is taken off the count has prepared, and both blocks returned. -/
theorem run_counted_of_countsDown (h : request.countsDown extractorGet = true) :
    ∃ ending, request.StreamedBy extractorGet ending ∧
      (request.counted extractorGet).run initialRuntime =
        ⟨request.preparedEffects ++ ending.events, ending.locals, .ok ()⟩ := by
  obtain ⟨ending, hstreamed, hends⟩ := request.exists_counted extractorGet
  exact ⟨ending, hstreamed, hends.ending h⟩

theorem isSome_asyncioExecutor_finalContext :
    (request.finalContext extractorGet).asyncioExecutor.isSome := by
  unfold finalContext
  split
  · rfl
  · rfl

/-- The event work monitor ends the reservations of work that was handed over to it
and is done. -/
theorem reservationsEnded_mem_processPool {ending : Ending Effect Runtime Unit}
    (h : request.StreamedBy extractorGet ending) :
    .reservationsEnded ∈ (request.processPool.run ending.locals).events ↔
      (request.finalContext extractorGet).defers = true ∧ request.handOver = .queued ∧
        request.workDone = true ∧ (request.finalContext extractorGet).endsReservations = true := by
  have heventWork := h.eventWork
  have hidle : ending.locals.eventWork = [] →
      (request.processPool.run ending.locals).events = [] := by
    intro hnone
    simp only [processPool, run_readLocals_bind, hnone]
    rfl
  cases hdefers : (request.finalContext extractorGet).defers with
  | false =>
      rw [hdefers] at heventWork
      rw [hidle heventWork]
      simp
  | true =>
      rw [hdefers, if_pos rfl] at heventWork
      cases hhandOver : request.handOver with
      | queued =>
          rw [hhandOver] at heventWork
          have hone : ending.locals.eventWork = [0] := heventWork
          simp only [processPool, run_readLocals_bind, hone]
          cases request.workDone with
          | false => simp [pure]
          | true =>
              have hcontext := h.deferred hdefers
              have hsome : (ending.locals.contexts 0).asyncioExecutor.isSome := by
                rw [hcontext]
                exact request.isSome_asyncioExecutor_finalContext extractorGet
              rw [if_pos rfl, run_doneWithWork hsome, hcontext]
              refine (reservationsEnded_mem_doneWithWorkEffects 0 _).trans ?_
              simp only [true_and]
              exact Iff.rfl
      | dropped =>
          rw [hhandOver] at heventWork
          rw [hidle heventWork]
          simp
      | raises e =>
          rw [hhandOver] at heventWork
          rw [hidle heventWork]
          simp

/-- The effects of a request that is taken off the count. -/
theorem effects_of_countsDown (h : request.countsDown extractorGet = true) :
    ∃ ending, request.StreamedBy extractorGet ending ∧
      request.effects extractorGet =
        .incremented :: (request.preparedEffects ++ ending.events ++ [.decremented]) ++
          (request.processPool.run ending.locals).events := by
  obtain ⟨ending, hstreamed, hrun⟩ := request.run_counted_of_countsDown extractorGet h
  obtain ⟨hevents, hlocals⟩ := request.run_streamingChat extractorGet
  refine ⟨ending, hstreamed, ?_⟩
  rw [effects_eq, hevents, hlocals, hrun, h, if_pos rfl]

/-- The only context of the request is started, and only a request that is to have
reservations queues any. -/
theorem mem_effects {ending : Ending Effect Runtime Unit}
    (hstreamed : request.StreamedBy extractorGet ending)
    (heffects : request.effects extractorGet =
      .incremented :: (request.preparedEffects ++ ending.events ++ [.decremented]) ++
        (request.processPool.run ending.locals).events) :
    (∀ {c}, .started c ∈ request.effects extractorGet → c = 0) ∧
      (.reservationsQueued ∈ request.effects extractorGet → request.reserved = true) := by
  have hpool := request.actsOnContexts_processPool.events ending.locals trivial
  have hfrom : ∀ effect : Effect, ¬effect.OfContext → effect ∈ request.effects extractorGet →
      effect ∈ [.incremented, .decremented] ++ request.preparedEffects := by
    intro effect hnot hmem
    have hstream : effect ∉ ending.events := fun h => hnot (hstreamed.ofContext effect h)
    have hlater : effect ∉ (request.processPool.run ending.locals).events :=
      fun h => hnot (hpool effect h)
    rw [heffects] at hmem
    simp only [List.mem_append, List.mem_cons, List.not_mem_nil, hstream, hlater,
      or_false] at hmem ⊢
    tauto
  constructor
  · intro c hstarted
    have hmem := hfrom _ (fun h : Effect.OfContext (.started c) => h) hstarted
    unfold preparedEffects at hmem
    split at hmem
    · simpa using hmem
    · simpa using hmem
  · intro hqueued
    have hmem := hfrom _ (fun h : Effect.OfContext .reservationsQueued => h) hqueued
    unfold preparedEffects at hmem
    split at hmem
    · assumption
    · simp at hmem

/-- The final item is put for the reservations of a request that is taken off the
count, exactly where closing the work gets to it. -/
theorem reservationsEnded_mem_effects (h : request.countsDown extractorGet = true) :
    .reservationsEnded ∈ request.effects extractorGet ↔
      request.endsReservations extractorGet = true := by
  obtain ⟨ending, hstreamed, heffects⟩ := request.effects_of_countsDown extractorGet h
  have hprepared : .reservationsEnded ∉ request.preparedEffects := by
    unfold preparedEffects
    split
    · simp
    · simp
  have hpool := request.reservationsEnded_mem_processPool extractorGet hstreamed
  have hdirect := hstreamed.reservations
  rw [heffects]
  simp only [List.mem_append, List.mem_cons, hprepared, reduceCtorEq, false_or, List.not_mem_nil,
    or_false]
  rw [hpool, hdirect]
  unfold endsReservations
  cases (request.finalContext extractorGet).defers with
  | true =>
      simp only [true_and, Bool.not_true, Bool.false_or, Bool.and_eq_true, decide_eq_true_eq]
      tauto
  | false => simp

/-- **What a request releases.** A request releases what it took exactly where every
call on the way to the decrement returns, and the final item is put for its
reservations, if it is to have any. -/
theorem released_iff :
    Released (request.effects extractorGet) ↔ request.releases extractorGet = true := by
  obtain ⟨hinc, hdec⟩ := request.count_effects extractorGet
  constructor
  · intro h
    have hcounts : request.countsDown extractorGet = true := by
      have hcount := h.counted
      rw [hinc, hdec] at hcount
      by_contra hnot
      rw [if_neg hnot] at hcount
      exact absurd hcount Nat.zero_ne_one
    obtain ⟨ending, -, heffects⟩ := request.effects_of_countsDown extractorGet hcounts
    rw [releases, hcounts, Bool.true_and]
    cases hreserved : request.reserved with
    | false => rfl
    | true =>
        have hqueued : .reservationsQueued ∈ request.effects extractorGet := by
          rw [heffects, preparedEffects, hreserved]
          simp
        exact (request.reservationsEnded_mem_effects extractorGet hcounts).mp
          (h.reservations hqueued)
  · intro h
    obtain ⟨hcounts, hreservations⟩ := Bool.and_eq_true_iff.mp h
    obtain ⟨ending, hstreamed, heffects⟩ := request.effects_of_countsDown extractorGet hcounts
    refine ⟨?_, ?_, ?_⟩
    · rw [hinc, hdec, if_pos hcounts]
    · intro c hstarted
      obtain rfl := (request.mem_effects extractorGet hstreamed heffects).1 hstarted
      refine ⟨0, ?_⟩
      have hcalled := hstreamed.called
      rw [heffects]
      simp [hcalled]
    · intro hqueued
      have hreserved := (request.mem_effects extractorGet hstreamed heffects).2 hqueued
      rw [hreserved, Bool.not_true, Bool.false_or] at hreservations
      exact (request.reservationsEnded_mem_effects extractorGet hcounts).mpr hreservations

/-- A chat whose consumer closes the generator at the first response. -/
def closedByConsumer : StreamingRequest :=
  { requestDict := .obj [(str "user_message", .obj [(str "text", .str (str "hi"))])]
    agentNetwork := none
    redactPerEnvVar := none
    updateMetadata := none
    logReceived := none
    hasQueues := false
    isAllowed := .ok false
    putQueue := none
    getExecutor := none
    hasEventWorkQueue := false
    start := none
    submitLogging := none
    createSession := none
    reportDone := none
    createChatSession := none
    templateResponse := ⟨none, none⟩
    applyQueueFilter := none
    submitChat := none
    resources := []
    responses := [⟨none, some .otherBaseException⟩]
    queueEnds := none
    handOver := .queued
    putFinalItem := none
    workDone := true }

end StreamingRequest

/-! ## Any number of requests -/

/-- `get_request_count()` after the effects of finished requests. -/
def getRequestCount (effects : List Effect) : Int :=
  effects.foldl (fun count effect =>
    match effect with
    | .incremented => count + 1
    | .decremented => count - 1
    | _ => count) 0

theorem getRequestCount_eq (effects : List Effect) :
    getRequestCount effects = effects.count .incremented - effects.count .decremented := by
  have hfold : ∀ (effects : List Effect) (count : Int),
      effects.foldl (fun count effect =>
        match effect with
        | .incremented => count + 1
        | .decremented => count - 1
        | _ => count) count =
        count + effects.count .incremented - effects.count .decremented := by
    intro effects
    induction effects with
    | nil => simp
    | cons effect rest ih =>
        intro count
        rw [List.foldl_cons, ih]
        cases effect <;> simp <;> omega
  rw [getRequestCount, hfold]
  omega

/-- Requests that all release what they took: no request is counted once they have
ended, in whatever order the server got through their effects. -/
structure AllReleased (extractorGet : ExtractorGet) (requests : List StreamingRequest) : Prop where
  released : ∀ request ∈ requests, StreamingRequest.Released (request.effects extractorGet)
  requestCount : ∀ effects, effects.Perm (requests.flatMap fun request =>
    request.effects extractorGet) → getRequestCount effects = 0

theorem getRequestCount_eq_zero {extractorGet : ExtractorGet} {requests : List StreamingRequest}
    (h : ∀ request ∈ requests, StreamingRequest.Released (request.effects extractorGet))
    {effects : List Effect} (heffects : effects.Perm (requests.flatMap fun request =>
      request.effects extractorGet)) : getRequestCount effects = 0 := by
  have hsame : (requests.flatMap fun request => request.effects extractorGet).count .decremented =
      (requests.flatMap fun request => request.effects extractorGet).count .incremented := by
    clear heffects
    induction requests with
    | nil => rfl
    | cons request rest ih =>
        rw [List.forall_mem_cons] at h
        rw [List.flatMap_cons, List.count_append, List.count_append, h.1.counted, ih h.2]
  rw [getRequestCount_eq, heffects.count_eq, heffects.count_eq, hsame]
  omega

/-- **Streaming requests.** Finished requests have released what they took, and none
is counted any more, exactly where each of them releases what it took. -/
theorem allReleased_iff (extractorGet : ExtractorGet) (requests : List StreamingRequest) :
    AllReleased extractorGet requests ↔
      ∀ request ∈ requests, request.releases extractorGet = true := by
  constructor
  · intro h request hrequest
    exact (request.released_iff extractorGet).mp (h.released request hrequest)
  · intro h
    have hreleased : ∀ request ∈ requests,
        StreamingRequest.Released (request.effects extractorGet) :=
      fun request hrequest => (request.released_iff extractorGet).mpr (h request hrequest)
    exact ⟨hreleased, fun effects heffects => getRequestCount_eq_zero hreleased heffects⟩

/-- A request that its consumer closes is never taken off the count. -/
theorem closedByConsumer_not_released :
    ¬AllReleased dictionaryGet [StreamingRequest.closedByConsumer] := by
  intro h
  have hcounted := (h.released _ (List.mem_singleton.mpr rfl)).counted
  exact absurd hcounted (by decide +kernel)

end NoraFleet.Sessions
