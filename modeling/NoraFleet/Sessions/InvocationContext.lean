import Mathlib.Logic.Function.Basic
import NoraFleet.Base.Flow
import NoraFleet.Base.Text

/-!
# The invocation context of a session

A `SessionInvocationContext` takes an executor from the pool, keeps the queue that
messages are streamed on, and a list of resources that are closed with it. It can
be reset for another exchange, and copied for a session with an agent network on
the same server. `finish_request` closes what is to be closed at the end of the
request and, at once or through the event work queue, of the work.

Coroutines run to their end at once when they are awaited from another thread, and
later, as a task, when the executor's own loop calls. What the closing of a
resource does comes with the resource. The effects are logged with the context and
the number of its exchange.
-/

namespace NoraFleet.Sessions

open Base Flow

/-! ## State -/

/-- A resource, and what closing it raises. -/
structure LingeringResource where
  id : Nat
  closeOfRequest : Option PyError
  closeOfWork : Option PyError

/-- A `ServiceAgentReservationist`: whether its queue was sent the final item, and
what putting that raises. -/
structure Reservationist where
  lastItemSent : Bool
  putFinalItem : Option PyError

/-- `SessionInvocationContext`. `exchange` counts how often it was reset. -/
structure SessionInvocationContext where
  asyncioExecutor : Option Nat
  hasQueue : Bool
  resources : List LingeringResource
  reservationist : Option Reservationist
  effectiveInvocation : PyStr
  hasEventWorkQueue : Bool
  requestFinished : Bool
  cloned : Bool
  exchange : Nat

/-- What putting a context on the event work queue does. After the final item of
that queue, nothing is put on it. -/
inductive HandOver where
  | queued
  | dropped
  | raises (e : PyError)
  deriving DecidableEq

/-- A coroutine of a context. -/
inductive Task where
  | closeOfRequest (context : Nat)
  | queueWork (context : Nat) (handOver : HandOver)
  | closeOfWork (context : Nat)
  deriving DecidableEq

/-- The effects that have to come in pairs. -/
inductive Effect where
  -- the executor pool
  | obtained (context exchange executor : Nat)
  | returned (executor : Nat)
  -- SessionInvocationContext
  | started (context : Nat)
  | added (context exchange resource : Nat)
  | finishCalled (context exchange : Nat)
  | queueClosed (context exchange : Nat)
  | closedOfRequest (context exchange resource : Nat)
  | closedOfWork (context exchange resource : Nat)
  -- AsyncAgentService
  | incremented
  | decremented
  | reservationsQueued
  | reservationsEnded
  deriving DecidableEq

/-- The contexts created so far, how many executors were obtained, the tasks that
wait in the loops of executors, the contexts that the event work monitor has or is
to get, and the variables that cleanup depends on. -/
structure Runtime where
  contexts : Nat → SessionInvocationContext
  created : Nat
  executors : Nat
  pending : List Task
  eventWork : List Nat
  closeOfWorkNow : Bool
  generatorOpen : Bool

/-- A piece that works on contexts. -/
abbrev Managing (α : Type) := Flow Effect Runtime α

/-- The attributes of a context. -/
def readContext (c : Nat) : Managing SessionInvocationContext := do
  let runtime ← readLocals
  pure (runtime.contexts c)

/-- Set attributes of a context. -/
def Runtime.update (runtime : Runtime) (c : Nat)
    (f : SessionInvocationContext → SessionInvocationContext) : Runtime :=
  { runtime with contexts := Function.update runtime.contexts c (f (runtime.contexts c)) }

def updateContext (c : Nat) (f : SessionInvocationContext → SessionInvocationContext) :
    Managing Unit :=
  assign fun runtime => runtime.update c f

/-! ## Closing -/

/-- `for resource in self.resources`: each is closed, until one raises. -/
def closeAll (closes : LingeringResource → Option PyError) (closed : Nat → Effect) :
    List LingeringResource → Managing Unit
  | [] => pure ()
  | resource :: rest => do
      emit (closed resource.id)
      perform (closes resource)
      closeAll closes closed rest

/-- The queue is closed, if there is one. -/
def closeQueue (c : Nat) : Managing Unit := do
  let context ← readContext c
  if context.hasQueue then
    emit (.queueClosed c context.exchange)
    updateContext c fun context => { context with hasQueue := false }
  else pure ()

/-- `close_of_request()`. -/
def closeOfRequest (c : Nat) : Managing Unit := do
  closeQueue c
  let context ← readContext c
  closeAll LingeringResource.closeOfRequest (.closedOfRequest c context.exchange)
    context.resources

/-- The reservationist that the context is to close: clones share it, and do not. -/
def SessionInvocationContext.ownReservationist (context : SessionInvocationContext) :
    Option Reservationist :=
  if context.cloned then none else context.reservationist

/-- `close_of_work()` of the reservationist: its queue gets the final item, once. -/
def endReservations (c : Nat) : Managing Unit := do
  let context ← readContext c
  match context.ownReservationist with
  | none => pure ()
  | some reservationist =>
      if reservationist.lastItemSent then pure ()
      else
        updateContext c fun context =>
          { context with reservationist := some { reservationist with lastItemSent := true } }
        perform reservationist.putFinalItem
        emit .reservationsEnded

/-- `close_of_work()`. -/
def closeOfWork (c : Nat) : Managing Unit := do
  let context ← readContext c
  closeAll LingeringResource.closeOfWork (.closedOfWork c context.exchange) context.resources
  endReservations c

/-- `event_work_queue.put(self, synchronous=True)`. -/
def queueWork (c : Nat) : HandOver → Managing Unit
  | .queued => assign fun runtime => { runtime with eventWork := runtime.eventWork ++ [c] }
  | .dropped => pure ()
  | .raises e => raise e

def Task.run : Task → Managing Unit
  | .closeOfRequest c => Sessions.closeOfRequest c
  | .queueWork c handOver => Sessions.queueWork c handOver
  | .closeOfWork c => Sessions.closeOfWork c

/-- `_run_in_executor_until_complete(submitter_id, coroutine)`. -/
def runInExecutorUntilComplete (sameLoop : Bool) (c : Nat) (task : Task) : Managing Unit := do
  let context ← readContext c
  match context.asyncioExecutor with
  | none => raise .attributeError
  | some _ =>
      if sameLoop then assign fun runtime => { runtime with pending := runtime.pending ++ [task] }
      else task.run

/-- The executor that the context is to return: clones share it, and do not. -/
def SessionInvocationContext.ownExecutor (context : SessionInvocationContext) : Option Nat :=
  if context.cloned then none else context.asyncioExecutor

/-- The executor goes back to the pool. -/
def returnExecutor (c : Nat) : Managing Unit := do
  let context ← readContext c
  match context.ownExecutor with
  | none => pure ()
  | some executor =>
      emit (.returned executor)
      updateContext c fun context => { context with asyncioExecutor := none }

/-- `done_with_work(submitter_id)`. -/
def doneWithWork (sameLoop : Bool) (c : Nat) : Managing Unit := do
  runInExecutorUntilComplete sameLoop c (.closeOfWork c)
  returnExecutor c

namespace SessionInvocationContext

/-- Whether the work is finished later, through the event work queue. -/
def defersWork (context : SessionInvocationContext) : Bool :=
  context.effectiveInvocation = str "event" && context.hasEventWorkQueue

end SessionInvocationContext

/-- The `try` block of `finish_request`. -/
def finishNow (sameLoop : Bool) (handOver : HandOver) (c : Nat) : Managing Unit := do
  runInExecutorUntilComplete sameLoop c (.closeOfRequest c)
  let context ← readContext c
  if context.defersWork then
    assign fun runtime => { runtime with closeOfWorkNow := false }
    runInExecutorUntilComplete sameLoop c (.queueWork c handOver)
  else pure ()

/-- The `finally` block of `finish_request`. -/
def finishWorkNow (sameLoop : Bool) (c : Nat) : Managing Unit := do
  let runtime ← readLocals
  if runtime.closeOfWorkNow then doneWithWork sameLoop c else pure ()

/-- `finish_request()`. -/
def finishRequest (sameLoop : Bool) (handOver : HandOver) (c : Nat) : Managing Unit := do
  let context ← readContext c
  emit (.finishCalled c context.exchange)
  if context.requestFinished then pure ()
  else
    updateContext c fun context => { context with requestFinished := true }
    assign fun runtime => { runtime with closeOfWorkNow := true }
    tryFinally (finishNow sameLoop handOver c) (finishWorkNow sameLoop c)

/-! ## Exchanges -/

/-- `async_executors_pool.get_executor()`, for a context. -/
def getExecutor (c : Nat) : Managing Nat := do
  let runtime ← readLocals
  emit (.obtained c (runtime.contexts c).exchange runtime.executors)
  assign fun runtime => { runtime with executors := runtime.executors + 1 }
  pure runtime.executors

/-- `SessionInvocationContext(...)`. -/
def newContext (reservationist : Option Reservationist) (effectiveInvocation : PyStr)
    (hasEventWorkQueue : Bool) : Managing Unit := do
  let runtime ← readLocals
  let c := runtime.created
  updateContext c fun _ =>
    { asyncioExecutor := none
      hasQueue := true
      resources := []
      reservationist := reservationist
      effectiveInvocation := effectiveInvocation
      hasEventWorkQueue := hasEventWorkQueue
      requestFinished := false
      cloned := false
      exchange := 0 }
  let executor ← getExecutor c
  updateContext c fun context => { context with asyncioExecutor := some executor }
  assign fun runtime => { runtime with created := runtime.created + 1 }

/-- `add_resource(resource)`. -/
def addResource (c : Nat) (resource : LingeringResource) : Managing Unit := do
  let context ← readContext c
  emit (.added c context.exchange resource.id)
  updateContext c fun context => { context with resources := context.resources ++ [resource] }

/-- `reset()`: the queue is reset or made anew, and there is an executor. -/
def reset (c : Nat) : Managing Unit := do
  updateContext c fun context =>
    { context with hasQueue := true, exchange := context.exchange + 1 }
  let context ← readContext c
  match context.asyncioExecutor with
  | some _ => pure ()
  | none =>
      let executor ← getExecutor c
      updateContext c fun context => { context with asyncioExecutor := some executor }

/-- `safe_shallow_copy(invocation)`. -/
def safeShallowCopy (c : Nat) (invocation : Option PyStr) : Managing Unit := do
  let context ← readContext c
  let runtime ← readLocals
  updateContext runtime.created fun _ =>
    { context with
      cloned := true
      resources := []
      hasQueue := true
      effectiveInvocation := invocation.getD context.effectiveInvocation
      exchange := 0 }
  assign fun runtime => { runtime with created := runtime.created + 1 }

end NoraFleet.Sessions
