import NoraFleet.Base.Runs
import NoraFleet.Sessions.Closing
import NoraFleet.Sessions.StreamingRequest

/-!
# Exchanges on invocation contexts

Contexts of one executor pool, and whatever is called on them, in any order: a
context is created, reset or copied, gets resources, is finished. A task that waits
in the loop of an executor runs at any later time, and the event work monitor
finishes what it was given at any later time.

`Op.exec` carries out one call. It is logged what it obtained, added, closed and
returned, with the exchange of the context.
-/

namespace NoraFleet.Sessions

open Base Flow

/-- The runtime, and the log of effects. -/
structure Served where
  runtime : Runtime
  log : List Effect

namespace Served

/-- No context, and nothing obtained. -/
def initial : Served := ⟨StreamingRequest.initialRuntime, []⟩

end Served

/-- The calls on contexts. -/
inductive Op where
  | new (reservationist : Option Reservationist) (effectiveInvocation : PyStr)
      (hasEventWorkQueue : Bool)
  | addResource (context : Nat) (resource : LingeringResource)
  | reset (context : Nat)
  | safeShallowCopy (context : Nat) (invocation : Option PyStr)
  | finishRequest (sameLoop : Bool) (handOver : HandOver) (context : Nat)
  | runTask (i : Nat)
  | doneWithWork (sameLoop : Bool) (i : Nat)

/-- A task of a loop runs. -/
def runTask (i : Nat) : Managing Unit := do
  let runtime ← readLocals
  match runtime.pending[i]? with
  | none => pure ()
  | some task =>
      assign fun runtime => { runtime with pending := runtime.pending.eraseIdx i }
      task.run

/-- The event work monitor finishes one of the contexts it was given. -/
def finishEventWork (sameLoop : Bool) (i : Nat) : Managing Unit := do
  let runtime ← readLocals
  match runtime.eventWork[i]? with
  | none => pure ()
  | some c =>
      assign fun runtime => { runtime with eventWork := runtime.eventWork.eraseIdx i }
      doneWithWork sameLoop c

/-- A call on a context that was created. -/
def onCreated (c : Nat) (piece : Managing Unit) : Managing Unit := do
  let runtime ← readLocals
  if c < runtime.created then piece else pure ()

namespace Op

/-- What an operation does. -/
def piece : Op → Managing Unit
  | .new reservationist effectiveInvocation hasEventWorkQueue =>
      newContext reservationist effectiveInvocation hasEventWorkQueue
  | .addResource c resource => onCreated c (Sessions.addResource c resource)
  | .reset c => onCreated c (Sessions.reset c)
  | .safeShallowCopy c invocation => onCreated c (Sessions.safeShallowCopy c invocation)
  | .finishRequest sameLoop handOver c => onCreated c (Sessions.finishRequest sameLoop handOver c)
  | .runTask i => Sessions.runTask i
  | .doneWithWork sameLoop i => finishEventWork sameLoop i

/-- An operation carried out. -/
def exec (op : Op) (s : Served) : Served :=
  ⟨(op.piece.run s.runtime).locals, s.log ++ (op.piece.run s.runtime).events⟩

end Op

/-! ## What is to hold -/

/-- The context of a task. -/
def Task.context : Task → Nat
  | .closeOfRequest c => c
  | .queueWork c _ => c
  | .closeOfWork c => c

/-- A context is done with: finished, with no task of it waiting, and not with the
event work monitor. -/
structure Runtime.Done (runtime : Runtime) (c : Nat) : Prop where
  finished : (runtime.contexts c).requestFinished = true
  tasks : ∀ task ∈ runtime.pending, task.context ≠ c
  eventWork : c ∉ runtime.eventWork

/-- An exchange of a context has ended: it was finished in that exchange or a later
one, and is done with. -/
def Served.Ended (s : Served) (c exchange : Nat) : Prop :=
  (∃ later, exchange ≤ later ∧ .finishCalled c later ∈ s.log) ∧ s.runtime.Done c

/-- Executors are returned and resources closed exactly once per exchange. -/
structure ExchangesClosed (s : Served) : Prop where
  -- executors
  returnedOnce : ∀ executor, s.log.count (.returned executor) ≤ 1
  returned : ∀ c exchange executor, .obtained c exchange executor ∈ s.log →
    s.Ended c exchange → .returned executor ∈ s.log
  clonesDone : ∀ executor, .returned executor ∈ s.log → ∀ c < s.runtime.created,
    (s.runtime.contexts c).cloned = true →
      (s.runtime.contexts c).asyncioExecutor = some executor → s.runtime.Done c
  -- resources
  closedOnce : ∀ c exchange resource,
    s.log.count (.closedOfRequest c exchange resource) ≤
        s.log.count (.added c exchange resource) ∧
      s.log.count (.closedOfWork c exchange resource) ≤
        s.log.count (.added c exchange resource)
  closed : ∀ c exchange resource, s.Ended c exchange →
    s.log.count (.closedOfRequest c exchange resource) =
        s.log.count (.added c exchange resource) ∧
      s.log.count (.closedOfWork c exchange resource) =
        s.log.count (.added c exchange resource)
  -- the queue of the request
  queueClosed : ∀ c exchange, .finishCalled c exchange ∈ s.log → s.runtime.Done c →
    .queueClosed c exchange ∈ s.log

/-! ## When it holds -/

/-- The clones that use the executor which a context is to return are done with. -/
def Runtime.ClonesDone (runtime : Runtime) (c : Nat) : Prop :=
  ∀ executor, (runtime.contexts c).ownExecutor = some executor →
    ∀ clone < runtime.created, (runtime.contexts clone).cloned = true →
      (runtime.contexts clone).asyncioExecutor = some executor → runtime.Done clone

/-- Resources are added, and the context is reset or copied, only before its request
is finished, and it is reset only before resources are added. No closing raises. Event
work is put on its queue. Where the executor is about to be returned, the clones
that use it are done with. -/
def Op.InOrder (op : Op) (s : Served) : Prop :=
  match op with
  | .new reservationist _ _ => ∀ r, reservationist = some r → r.putFinalItem = none
  | .addResource c resource => (s.runtime.contexts c).requestFinished = false ∧
      resource.closeOfRequest = none ∧ resource.closeOfWork = none
  | .reset c => (s.runtime.contexts c).requestFinished = false ∧
      (s.runtime.contexts c).resources = []
  | .safeShallowCopy c _ => (s.runtime.contexts c).requestFinished = false
  | .finishRequest _ handOver c => (s.runtime.contexts c).requestFinished = true ∨
      if (s.runtime.contexts c).defersWork then handOver = .queued else s.runtime.ClonesDone c
  | .runTask _ => True
  | .doneWithWork _ i => ∀ c, s.runtime.eventWork[i]? = some c → s.runtime.ClonesDone c

end NoraFleet.Sessions
