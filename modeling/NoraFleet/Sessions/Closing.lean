import Mathlib.Data.List.Basic
import NoraFleet.Sessions.InvocationContext

/-!
# What closing a context does

The effects, the attributes it leaves and what it raises, for each of the methods
that close a context. A resource that raises is the last one that is closed.

* `run_closeOfRequest`, `run_closeOfWork` — the two coroutines;
* `run_doneWithWork` — the work is closed, and the executor returned if that does
  not raise;
* `run_finishRequest_finished`, `run_finishRequest_now`, `run_finishRequest_deferred` —
  a request that is finished is not finished again; otherwise its work is closed
  now, or put on the event work queue.
-/

namespace NoraFleet.Sessions

open Base Flow

/-! ## Attributes -/

@[simp] theorem Runtime.update_contexts_self (runtime : Runtime) (c : Nat)
    (f : SessionInvocationContext → SessionInvocationContext) :
    (runtime.update c f).contexts c = f (runtime.contexts c) := Function.update_self ..

theorem Runtime.update_contexts_of_ne (runtime : Runtime) {c d : Nat} (h : d ≠ c)
    (f : SessionInvocationContext → SessionInvocationContext) :
    (runtime.update c f).contexts d = runtime.contexts d := Function.update_of_ne h ..

/-- One update after another is one update. -/
@[simp] theorem Runtime.update_update (runtime : Runtime) (c : Nat)
    (f g : SessionInvocationContext → SessionInvocationContext) :
    (runtime.update c f).update c g = runtime.update c fun context => g (f context) := by
  simp [Runtime.update]

/-- An update that changes nothing. -/
theorem Runtime.update_eq_self {runtime : Runtime} {c : Nat}
    {f : SessionInvocationContext → SessionInvocationContext}
    (h : f (runtime.contexts c) = runtime.contexts c) : runtime.update c f = runtime := by
  simp [Runtime.update, h]

@[simp] theorem run_readContext_bind {α : Type} (c : Nat)
    (next : SessionInvocationContext → Managing α) (runtime : Runtime) :
    (readContext c >>= next).run runtime = (next (runtime.contexts c)).run runtime := rfl

@[simp] theorem run_updateContext_bind {α : Type} (c : Nat)
    (f : SessionInvocationContext → SessionInvocationContext) (next : Unit → Managing α)
    (runtime : Runtime) :
    (updateContext c f >>= next).run runtime = (next ()).run (runtime.update c f) := rfl

/-! ## Creating -/

theorem run_getExecutor (c : Nat) (runtime : Runtime) :
    (getExecutor c).run runtime =
      ⟨[.obtained c (runtime.contexts c).exchange runtime.executors],
        { runtime with executors := runtime.executors + 1 }, .ok runtime.executors⟩ := rfl

/-- A context as it is created. -/
def createdContext (executor : Nat) (reservationist : Option Reservationist)
    (effectiveInvocation : PyStr) (hasEventWorkQueue : Bool) : SessionInvocationContext :=
  { asyncioExecutor := some executor
    hasQueue := true
    resources := []
    reservationist := reservationist
    effectiveInvocation := effectiveInvocation
    hasEventWorkQueue := hasEventWorkQueue
    requestFinished := false
    cloned := false
    exchange := 0 }

theorem run_newContext (reservationist : Option Reservationist) (effectiveInvocation : PyStr)
    (hasEventWorkQueue : Bool) (runtime : Runtime) :
    (newContext reservationist effectiveInvocation hasEventWorkQueue).run runtime =
      ⟨[.obtained runtime.created 0 runtime.executors],
        { runtime.update runtime.created fun _ => createdContext runtime.executors reservationist
            effectiveInvocation hasEventWorkQueue with
          executors := runtime.executors + 1
          created := runtime.created + 1 }, .ok ()⟩ := by
  simp only [newContext, run_readLocals_bind, run_updateContext_bind]
  rw [run_bind_ok (run_getExecutor _ _)]
  simp [Runtime.update, updateContext, createdContext, run_bind, assign]

/-! ## The coroutines -/

/-- The effects of closing resources until one raises. -/
def closedEffects (closes : LingeringResource → Option PyError) (closed : Nat → Effect) :
    List LingeringResource → List Effect
  | [] => []
  | resource :: rest =>
      closed resource.id ::
        if (closes resource).isNone then closedEffects closes closed rest else []

/-- Where no resource raises, all are closed. -/
theorem closedEffects_of_returns {closes : LingeringResource → Option PyError}
    (closed : Nat → Effect) {resources : List LingeringResource}
    (h : ∀ resource ∈ resources, closes resource = none) :
    closedEffects closes closed resources = resources.map fun resource => closed resource.id := by
  induction resources with
  | nil => rfl
  | cons resource rest ih =>
      rw [List.forall_mem_cons] at h
      simp [closedEffects, h.1, ih h.2]

theorem mem_closedEffects {closes : LingeringResource → Option PyError} {closed : Nat → Effect}
    {resources : List LingeringResource} {effect : Effect}
    (h : effect ∈ closedEffects closes closed resources) : ∃ r, effect = closed r := by
  induction resources with
  | nil => exact absurd h List.not_mem_nil
  | cons resource rest ih =>
      rcases List.mem_cons.mp h with h | h
      · exact ⟨resource.id, h⟩
      · split at h
        · exact ih h
        · exact absurd h List.not_mem_nil

theorem run_closeAll (closes : LingeringResource → Option PyError) (closed : Nat → Effect)
    (resources : List LingeringResource) (runtime : Runtime) :
    (closeAll closes closed resources).run runtime =
      ⟨closedEffects closes closed resources, runtime,
        ofRaised (resources.findSome? closes)⟩ := by
  induction resources with
  | nil => rfl
  | cons resource rest ih =>
      simp only [closeAll, run_emit_bind, closedEffects, List.findSome?_cons]
      cases hraised : closes resource with
      | none =>
          rw [run_perform_none_bind, ih]
          simp
      | some e =>
          rw [run_perform_some_bind]
          simp [ofRaised]

/-- The queue is closed, and not there any more. -/
def SessionInvocationContext.withoutQueue (context : SessionInvocationContext) :
    SessionInvocationContext :=
  { context with hasQueue := false }

theorem run_closeQueue (c : Nat) (runtime : Runtime) :
    (closeQueue c).run runtime =
      ⟨if (runtime.contexts c).hasQueue then [.queueClosed c (runtime.contexts c).exchange] else [],
        runtime.update c SessionInvocationContext.withoutQueue, .ok ()⟩ := by
  simp only [closeQueue, run_readContext_bind]
  cases hqueue : (runtime.contexts c).hasQueue with
  | true => rfl
  | false =>
      have hsame : (runtime.contexts c).withoutQueue = runtime.contexts c := by
        simp only [SessionInvocationContext.withoutQueue, ← hqueue]
      rw [Runtime.update_eq_self hsame]
      rfl

/-- The effects of `close_of_request()`. -/
def closeOfRequestEffects (c : Nat) (context : SessionInvocationContext) : List Effect :=
  (if context.hasQueue then [.queueClosed c context.exchange] else []) ++
    closedEffects LingeringResource.closeOfRequest (.closedOfRequest c context.exchange)
      context.resources

theorem run_closeOfRequest (c : Nat) (runtime : Runtime) :
    (closeOfRequest c).run runtime =
      ⟨closeOfRequestEffects c (runtime.contexts c),
        runtime.update c SessionInvocationContext.withoutQueue,
        ofRaised ((runtime.contexts c).resources.findSome? LingeringResource.closeOfRequest)⟩ := by
  rw [closeOfRequest, run_bind_ok (run_closeQueue c runtime), run_readContext_bind, run_closeAll,
    Runtime.update_contexts_self]
  rfl

/-- The queue of the reservationist was sent its final item. -/
def SessionInvocationContext.withReservationsEnded (context : SessionInvocationContext) :
    SessionInvocationContext :=
  match context.ownReservationist with
  | none => context
  | some reservationist =>
      { context with reservationist := some { reservationist with lastItemSent := true } }

/-- The final item that is still to be put, and what putting it raises. -/
def SessionInvocationContext.finalItem (context : SessionInvocationContext) :
    Option (Option PyError) :=
  match context.ownReservationist with
  | none => none
  | some reservationist =>
      if reservationist.lastItemSent then none else some reservationist.putFinalItem

theorem run_endReservations (c : Nat) (runtime : Runtime) :
    (endReservations c).run runtime =
      ⟨if (runtime.contexts c).finalItem = some none then [.reservationsEnded] else [],
        runtime.update c SessionInvocationContext.withReservationsEnded,
        ofRaised ((runtime.contexts c).finalItem.getD none)⟩ := by
  simp only [endReservations, run_readContext_bind]
  cases hown : (runtime.contexts c).ownReservationist with
  | none =>
      have hsame : (runtime.contexts c).withReservationsEnded = runtime.contexts c := by
        simp only [SessionInvocationContext.withReservationsEnded, hown]
      have hfinal : (runtime.contexts c).finalItem = none := by
        simp only [SessionInvocationContext.finalItem, hown]
      rw [Runtime.update_eq_self hsame, hfinal]
      rfl
  | some reservationist =>
      obtain ⟨lastItemSent, putFinalItem⟩ := reservationist
      have hended : (runtime.contexts c).withReservationsEnded =
          { runtime.contexts c with reservationist := some ⟨true, putFinalItem⟩ } := by
        simp only [SessionInvocationContext.withReservationsEnded, hown]
      cases lastItemSent with
      | true =>
          have hreservationist : (runtime.contexts c).reservationist =
              some ⟨true, putFinalItem⟩ := by
            unfold SessionInvocationContext.ownReservationist at hown
            split at hown
            · cases hown
            · exact hown
          have hfinal : (runtime.contexts c).finalItem = none := by
            simp only [SessionInvocationContext.finalItem, hown, if_true]
          rw [Runtime.update_eq_self (by rw [hended, ← hreservationist]), hfinal]
          rfl
      | false =>
          have hfinal : (runtime.contexts c).finalItem = some putFinalItem := by
            simp [SessionInvocationContext.finalItem, hown]
          have hupdate : runtime.update c SessionInvocationContext.withReservationsEnded =
              runtime.update c fun context =>
                { context with reservationist := some ⟨true, putFinalItem⟩ } := by
            simp only [Runtime.update, hended]
          rw [hupdate, hfinal]
          cases putFinalItem with
          | none => rfl
          | some e => rfl

/-- What closing the resources raises. -/
def SessionInvocationContext.resourcesRaised (context : SessionInvocationContext) :
    Option PyError :=
  context.resources.findSome? LingeringResource.closeOfWork

/-- What `close_of_work()` raises. -/
def SessionInvocationContext.workRaised (context : SessionInvocationContext) : Option PyError :=
  context.resourcesRaised <|> context.finalItem.getD none

/-- The effects of `close_of_work()`. -/
def closeOfWorkEffects (c : Nat) (context : SessionInvocationContext) : List Effect :=
  closedEffects LingeringResource.closeOfWork (.closedOfWork c context.exchange)
    context.resources ++
    if context.resourcesRaised = none ∧ context.finalItem = some none then [.reservationsEnded]
    else []

/-- The attributes after `close_of_work()`. -/
def SessionInvocationContext.withWorkClosed (context : SessionInvocationContext) :
    SessionInvocationContext :=
  if context.resourcesRaised = none then context.withReservationsEnded else context

theorem run_closeOfWork (c : Nat) (runtime : Runtime) :
    (closeOfWork c).run runtime =
      ⟨closeOfWorkEffects c (runtime.contexts c),
        runtime.update c SessionInvocationContext.withWorkClosed,
        ofRaised (runtime.contexts c).workRaised⟩ := by
  have hclosed := run_closeAll LingeringResource.closeOfWork
    (.closedOfWork c (runtime.contexts c).exchange) (runtime.contexts c).resources runtime
  simp only [closeOfWork, run_readContext_bind, closeOfWorkEffects,
    SessionInvocationContext.workRaised]
  cases hraised : (runtime.contexts c).resourcesRaised with
  | some e =>
      have hsame : (runtime.contexts c).withWorkClosed = runtime.contexts c := by
        simp [SessionInvocationContext.withWorkClosed, hraised]
      rw [SessionInvocationContext.resourcesRaised] at hraised
      rw [hraised] at hclosed
      rw [run_bind_error hclosed, Runtime.update_eq_self hsame]
      simp [ofRaised]
  | none =>
      have hended : runtime.update c SessionInvocationContext.withWorkClosed =
          runtime.update c SessionInvocationContext.withReservationsEnded := by
        simp [Runtime.update, SessionInvocationContext.withWorkClosed, hraised]
      rw [SessionInvocationContext.resourcesRaised] at hraised
      rw [hraised] at hclosed
      rw [run_bind_ok hclosed, run_endReservations, hended]
      simp

/-! ## Finishing -/

/-- The executor is not there any more, unless this is a clone. -/
def SessionInvocationContext.withoutExecutor (context : SessionInvocationContext) :
    SessionInvocationContext :=
  match context.ownExecutor with
  | none => context
  | some _ => { context with asyncioExecutor := none }

theorem run_returnExecutor (c : Nat) (runtime : Runtime) :
    (returnExecutor c).run runtime =
      ⟨((runtime.contexts c).ownExecutor.map Effect.returned).toList,
        runtime.update c SessionInvocationContext.withoutExecutor, .ok ()⟩ := by
  simp only [returnExecutor, run_readContext_bind]
  cases hown : (runtime.contexts c).ownExecutor with
  | none =>
      have hsame : (runtime.contexts c).withoutExecutor = runtime.contexts c := by
        simp only [SessionInvocationContext.withoutExecutor, hown]
      rw [Runtime.update_eq_self hsame]
      rfl
  | some executor =>
      have hwithout : runtime.update c SessionInvocationContext.withoutExecutor =
          runtime.update c fun context => { context with asyncioExecutor := none } := by
        simp only [Runtime.update, SessionInvocationContext.withoutExecutor, hown]
      rw [hwithout]
      rfl

/-- With an executor, a coroutine is awaited or becomes a task. -/
theorem run_runInExecutor {c : Nat} {runtime : Runtime}
    (h : (runtime.contexts c).asyncioExecutor.isSome) (task : Task) :
    (runInExecutorUntilComplete false c task).run runtime = task.run.run runtime ∧
      (runInExecutorUntilComplete true c task).run runtime =
        ⟨[], { runtime with pending := runtime.pending ++ [task] }, .ok ()⟩ := by
  obtain ⟨executor, hexecutor⟩ := Option.isSome_iff_exists.mp h
  simp only [runInExecutorUntilComplete, run_readContext_bind, hexecutor]
  exact ⟨rfl, rfl⟩

theorem ownExecutor_withWorkClosed (context : SessionInvocationContext) :
    context.withWorkClosed.ownExecutor = context.ownExecutor := by
  unfold SessionInvocationContext.withWorkClosed SessionInvocationContext.withReservationsEnded
  split
  · split
    · rfl
    · rfl
  · rfl

/-- The effects of `done_with_work()` from another thread. -/
def doneWithWorkEffects (c : Nat) (context : SessionInvocationContext) : List Effect :=
  closeOfWorkEffects c context ++
    if context.workRaised = none then (context.ownExecutor.map Effect.returned).toList else []

/-- The attributes after that. -/
def SessionInvocationContext.withWorkDone (context : SessionInvocationContext) :
    SessionInvocationContext :=
  if context.workRaised = none then context.withWorkClosed.withoutExecutor
  else context.withWorkClosed

theorem requestFinished_withWorkDone (context : SessionInvocationContext) :
    context.withWorkDone.requestFinished = context.requestFinished := by
  have hclosed : context.withWorkClosed.requestFinished = context.requestFinished := by
    unfold SessionInvocationContext.withWorkClosed SessionInvocationContext.withReservationsEnded
    split
    · split
      · rfl
      · rfl
    · rfl
  unfold SessionInvocationContext.withWorkDone SessionInvocationContext.withoutExecutor
  split
  · split
    · exact hclosed
    · exact hclosed
  · exact hclosed

/-- From another thread, the work is closed, and the executor returned unless that
raises. -/
theorem run_doneWithWork {c : Nat} {runtime : Runtime}
    (h : (runtime.contexts c).asyncioExecutor.isSome) :
    (doneWithWork false c).run runtime =
      ⟨doneWithWorkEffects c (runtime.contexts c),
        runtime.update c SessionInvocationContext.withWorkDone,
        ofRaised (runtime.contexts c).workRaised⟩ := by
  have hclosed : (runInExecutorUntilComplete false c (.closeOfWork c)).run runtime =
      ⟨closeOfWorkEffects c (runtime.contexts c),
        runtime.update c SessionInvocationContext.withWorkClosed,
        ofRaised (runtime.contexts c).workRaised⟩ :=
    ((run_runInExecutor h _).1).trans (run_closeOfWork c runtime)
  unfold doneWithWork doneWithWorkEffects
  cases hraised : (runtime.contexts c).workRaised with
  | some e =>
      have hdone : runtime.update c SessionInvocationContext.withWorkDone =
          runtime.update c SessionInvocationContext.withWorkClosed := by
        simp [Runtime.update, SessionInvocationContext.withWorkDone, hraised]
      rw [hraised] at hclosed
      rw [run_bind_error hclosed, hdone]
      simp [ofRaised]
  | none =>
      have hdone : runtime.update c SessionInvocationContext.withWorkDone =
          runtime.update c fun context => context.withWorkClosed.withoutExecutor := by
        simp [Runtime.update, SessionInvocationContext.withWorkDone, hraised]
      rw [hraised] at hclosed
      rw [run_bind_ok hclosed, run_returnExecutor, hdone]
      simp [ownExecutor_withWorkClosed, ofRaised]

/-- A request that is finished is not finished again. -/
theorem run_finishRequest_finished {c : Nat} {runtime : Runtime}
    (h : (runtime.contexts c).requestFinished = true) (sameLoop : Bool) (handOver : HandOver) :
    (finishRequest sameLoop handOver c).run runtime =
      ⟨[.finishCalled c (runtime.contexts c).exchange], runtime, .ok ()⟩ := by
  simp only [finishRequest, run_readContext_bind, run_emit_bind, h]
  rfl

/-- The request is marked as finished. -/
def SessionInvocationContext.finished (context : SessionInvocationContext) :
    SessionInvocationContext :=
  { context with requestFinished := true }

/-- The runtime in which a request is finished for the first time. -/
def Runtime.finishing (runtime : Runtime) (c : Nat) : Runtime :=
  { runtime.update c SessionInvocationContext.finished with closeOfWorkNow := true }

@[simp] theorem Runtime.finishing_contexts_self (runtime : Runtime) (c : Nat) :
    (runtime.finishing c).contexts c = (runtime.contexts c).finished :=
  Runtime.update_contexts_self ..

/-- A request that is finished for the first time. -/
theorem run_finishRequest {c : Nat} {runtime : Runtime}
    (h : (runtime.contexts c).requestFinished = false) (sameLoop : Bool) (handOver : HandOver) :
    (finishRequest sameLoop handOver c).run runtime =
      ⟨.finishCalled c (runtime.contexts c).exchange ::
          ((tryFinally (finishNow sameLoop handOver c) (finishWorkNow sameLoop c)).run
            (runtime.finishing c)).events,
        ((tryFinally (finishNow sameLoop handOver c) (finishWorkNow sameLoop c)).run
          (runtime.finishing c)).locals,
        ((tryFinally (finishNow sameLoop handOver c) (finishWorkNow sameLoop c)).run
          (runtime.finishing c)).outcome⟩ := by
  simp only [finishRequest, run_readContext_bind, run_emit_bind, h]
  rfl

/-- What closing the resources of a request raises. -/
def SessionInvocationContext.requestRaised (context : SessionInvocationContext) :
    Option PyError :=
  context.resources.findSome? LingeringResource.closeOfRequest

/-- The request is closed first. -/
theorem run_closeRequestNow {c : Nat} {runtime : Runtime}
    (hexecutor : (runtime.contexts c).asyncioExecutor.isSome) :
    (runInExecutorUntilComplete false c (.closeOfRequest c)).run (runtime.finishing c) =
      ⟨closeOfRequestEffects c (runtime.contexts c),
        (runtime.finishing c).update c SessionInvocationContext.withoutQueue,
        ofRaised (runtime.contexts c).requestRaised⟩ := by
  have hsome : ((runtime.finishing c).contexts c).asyncioExecutor.isSome := by
    rw [Runtime.finishing_contexts_self]
    exact hexecutor
  rw [(run_runInExecutor hsome _).1]
  show (closeOfRequest c).run _ = _
  rw [run_closeOfRequest, Runtime.finishing_contexts_self]
  rfl

/-- From another thread, the work is closed now if it is not deferred, or if closing
the request raises. What closing the work raises comes first. -/
theorem run_finishRequest_now {c : Nat} {runtime : Runtime}
    (hfinished : (runtime.contexts c).requestFinished = false)
    (hexecutor : (runtime.contexts c).asyncioExecutor.isSome)
    (hnow : (runtime.contexts c).defersWork = false ∨
      (runtime.contexts c).requestRaised ≠ none) (handOver : HandOver) :
    (finishRequest false handOver c).run runtime =
      ⟨.finishCalled c (runtime.contexts c).exchange ::
          (closeOfRequestEffects c (runtime.contexts c) ++
            doneWithWorkEffects c (runtime.contexts c)),
        ((runtime.finishing c).update c SessionInvocationContext.withoutQueue).update c
          SessionInvocationContext.withWorkDone,
        ofRaised ((runtime.contexts c).workRaised <|> (runtime.contexts c).requestRaised)⟩ := by
  have hclosed := run_closeRequestNow hexecutor
  have hcontext :
      ((runtime.finishing c).update c SessionInvocationContext.withoutQueue).contexts c =
      (runtime.contexts c).finished.withoutQueue := by
    rw [Runtime.update_contexts_self, Runtime.finishing_contexts_self]
  have hbody : (finishNow false handOver c).run (runtime.finishing c) =
      ⟨closeOfRequestEffects c (runtime.contexts c),
        (runtime.finishing c).update c SessionInvocationContext.withoutQueue,
        ofRaised (runtime.contexts c).requestRaised⟩ := by
    unfold finishNow
    cases hraised : (runtime.contexts c).requestRaised with
    | some e =>
        rw [hraised] at hclosed
        exact run_bind_error hclosed
    | none =>
        have hdefers : (runtime.contexts c).finished.withoutQueue.defersWork = false :=
          hnow.resolve_right (not_not.mpr hraised)
        rw [hraised] at hclosed
        rw [run_bind_ok hclosed, run_readContext_bind, hcontext, hdefers]
        simp only [Bool.false_eq_true, if_false]
        exact congrArg (fun events => Ending.mk events _ _) (List.append_nil _)
  have hcleanup : (finishWorkNow false c).run
      ((runtime.finishing c).update c SessionInvocationContext.withoutQueue) =
      ⟨doneWithWorkEffects c (runtime.contexts c),
        ((runtime.finishing c).update c SessionInvocationContext.withoutQueue).update c
          SessionInvocationContext.withWorkDone,
        ofRaised (runtime.contexts c).workRaised⟩ := by
    have hsome : (((runtime.finishing c).update c SessionInvocationContext.withoutQueue).contexts
        c).asyncioExecutor.isSome := by
      rw [hcontext]
      exact hexecutor
    refine (run_doneWithWork hsome).trans ?_
    rw [hcontext]
    rfl
  rw [run_finishRequest hfinished, run_tryFinally_of_raised hbody hcleanup]

/-- What putting a context on the event work queue raises. -/
def HandOver.raised : HandOver → Option PyError
  | .raises e => some e
  | _ => none

/-- The event work after that. -/
def HandOver.eventWork (c : Nat) : HandOver → List Nat
  | .queued => [c]
  | _ => []

theorem run_queueWork (c : Nat) (handOver : HandOver) (runtime : Runtime) :
    (queueWork c handOver).run runtime =
      ⟨[], { runtime with eventWork := runtime.eventWork ++ handOver.eventWork c },
        ofRaised handOver.raised⟩ := by
  cases handOver with
  | queued => rfl
  | dropped => simp [queueWork, HandOver.eventWork, HandOver.raised, ofRaised, pure]
  | raises e => simp [queueWork, HandOver.eventWork, HandOver.raised, ofRaised, raise, call]

/-- From another thread, the work of an event is put on the event work queue after
the request is closed. -/
theorem run_finishRequest_deferred {c : Nat} {runtime : Runtime}
    (hfinished : (runtime.contexts c).requestFinished = false)
    (hexecutor : (runtime.contexts c).asyncioExecutor.isSome)
    (hdefers : (runtime.contexts c).defersWork = true)
    (hreturns : (runtime.contexts c).requestRaised = none) (handOver : HandOver) :
    (finishRequest false handOver c).run runtime =
      ⟨.finishCalled c (runtime.contexts c).exchange ::
          closeOfRequestEffects c (runtime.contexts c),
        { (runtime.finishing c).update c SessionInvocationContext.withoutQueue with
          closeOfWorkNow := false
          eventWork := runtime.eventWork ++ handOver.eventWork c },
        ofRaised handOver.raised⟩ := by
  have hclosed := run_closeRequestNow hexecutor
  have hcontext :
      ((runtime.finishing c).update c SessionInvocationContext.withoutQueue).contexts c =
      (runtime.contexts c).finished.withoutQueue := by
    rw [Runtime.update_contexts_self, Runtime.finishing_contexts_self]
  have hdefers' : (runtime.contexts c).finished.withoutQueue.defersWork = true := hdefers
  have hbody : (finishNow false handOver c).run (runtime.finishing c) =
      ⟨closeOfRequestEffects c (runtime.contexts c),
        { (runtime.finishing c).update c SessionInvocationContext.withoutQueue with
          closeOfWorkNow := false
          eventWork := runtime.eventWork ++ handOver.eventWork c },
        ofRaised handOver.raised⟩ := by
    unfold finishNow
    rw [hreturns] at hclosed
    rw [run_bind_ok hclosed, run_readContext_bind, hcontext, hdefers']
    simp only [if_true, run_assign_bind]
    have hsome : (({ (runtime.finishing c).update c SessionInvocationContext.withoutQueue with
        closeOfWorkNow := false } : Runtime).contexts c).asyncioExecutor.isSome := by
      rw [hcontext]
      exact hexecutor
    rw [(run_runInExecutor hsome _).1]
    show Ending.mk (_ ++ ((queueWork c handOver).run _).events)
        ((queueWork c handOver).run _).locals
      ((queueWork c handOver).run _).outcome = _
    rw [run_queueWork, List.append_nil]
    rfl
  have hcleanup : ∀ later : Runtime, later.closeOfWorkNow = false →
      (finishWorkNow false c).run later = ⟨[], later, ofRaised none⟩ := by
    intro later hlater
    simp only [finishWorkNow, run_readLocals_bind, hlater]
    rfl
  rw [run_finishRequest hfinished, run_tryFinally_of_raised hbody (hcleanup _ rfl),
    List.append_nil]
  rfl

end NoraFleet.Sessions
