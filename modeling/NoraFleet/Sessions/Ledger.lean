import NoraFleet.Sessions.Exchanges

/-!
# What contexts owe

An `Account` is what was logged, with the tasks that are still to run, whether they
wait in a loop or the call that runs them has not got to them, and the contexts
whose executor is about to be returned. A context owes each of its closings once:
before it is finished, or as one task, or as one entry of the event work monitor.

* `Ledger` — what one context owes and what was logged of it add up;
* `Kept` — the same of all contexts, and that clones are done with before the
  executor they use is returned;
* `Kept.moves`, `Kept.perm` — what keeps it.
-/

namespace NoraFleet.Sessions

open Base Flow

/-- The log, and what is still to be done. -/
structure Account where
  runtime : Runtime
  tasks : List Task
  returning : List Nat
  log : List Effect

namespace Account

variable (a : Account) (c : Nat)

/-- A context. -/
def context : SessionInvocationContext := a.runtime.contexts c

/-- Finishing the request is due. -/
def finishDue : Nat := if (a.context c).requestFinished then 0 else 1

/-- Whether finishing is due depends on the context alone. -/
theorem finishDue_eq {a b : Account} {c : Nat}
    (h : (b.context c).requestFinished = (a.context c).requestFinished) :
    b.finishDue c = a.finishDue c := by
  unfold finishDue
  rw [h]

/-- Closing the request is due. -/
def requestDue : Nat := a.finishDue c + a.tasks.count (.closeOfRequest c)

/-- The hand-over to the event work monitor is due, or the monitor has the context. -/
def eventDue : Nat := a.tasks.count (.queueWork c .queued) + a.runtime.eventWork.count c

/-- Closing the work is due. -/
def workDue : Nat := a.finishDue c + a.eventDue c + a.tasks.count (.closeOfWork c)

/-- Returning the executor is due. -/
def returnDue : Nat := a.finishDue c + a.eventDue c + a.returning.count c

/-- Nothing is to be closed. -/
def Settled : Prop := a.requestDue c = 0 ∧ a.workDue c = 0

/-- An executor was returned, or is about to be. -/
def Returns (executor : Nat) : Prop :=
  .returned executor ∈ a.log ∨ ∃ d ∈ a.returning, (a.context d).ownExecutor = some executor

end Account

/-! ## Closings that do not raise -/

namespace SessionInvocationContext

variable (context : SessionInvocationContext)

/-- No closing of the context raises. -/
structure Quiet : Prop where
  resources : ∀ resource ∈ context.resources,
    resource.closeOfRequest = none ∧ resource.closeOfWork = none
  reservationist : ∀ r, context.reservationist = some r → r.putFinalItem = none

/-- The resources of the context. -/
def ids : List Nat := context.resources.map LingeringResource.id

variable {context}

theorem Quiet.requestRaised (h : context.Quiet) : context.requestRaised = none := by
  rw [SessionInvocationContext.requestRaised, List.findSome?_eq_none_iff]
  exact fun resource hresource => (h.resources resource hresource).1

theorem Quiet.resourcesRaised (h : context.Quiet) : context.resourcesRaised = none := by
  rw [SessionInvocationContext.resourcesRaised, List.findSome?_eq_none_iff]
  exact fun resource hresource => (h.resources resource hresource).2

theorem Quiet.finalItem (h : context.Quiet) : context.finalItem.getD none = none := by
  have hown : ∀ r, context.ownReservationist = some r → r.putFinalItem = none := by
    intro r hr
    unfold ownReservationist at hr
    split at hr
    · cases hr
    · exact h.reservationist r hr
  unfold SessionInvocationContext.finalItem
  split
  · rfl
  · split
    · rfl
    · exact hown _ ‹_›

theorem Quiet.workRaised (h : context.Quiet) : context.workRaised = none := by
  rw [SessionInvocationContext.workRaised, h.resourcesRaised, h.finalItem]
  rfl

/-- What `close_of_request()` logs then. -/
theorem Quiet.closeOfRequestEffects (h : context.Quiet) (c : Nat) :
    closeOfRequestEffects c context =
      (if context.hasQueue then [.queueClosed c context.exchange] else []) ++
        context.ids.map (.closedOfRequest c context.exchange) := by
  rw [Sessions.closeOfRequestEffects,
    closedEffects_of_returns _ fun resource hresource => (h.resources resource hresource).1, ids,
    List.map_map]
  rfl

/-- What `close_of_work()` logs then. -/
theorem Quiet.closeOfWorkEffects (h : context.Quiet) (c : Nat) :
    closeOfWorkEffects c context = context.ids.map (.closedOfWork c context.exchange) ++
      if context.finalItem = some none then [.reservationsEnded] else [] := by
  rw [Sessions.closeOfWorkEffects,
    closedEffects_of_returns _ fun resource hresource => (h.resources resource hresource).2, ids,
    List.map_map, h.resourcesRaised]
  simp only [true_and]
  rfl

end SessionInvocationContext

/-! ## Ledgers -/

/-- The effects of a context. -/
def Effect.Of (c : Nat) : Effect → Prop
  | .obtained d _ _ => d = c
  | .added d _ _ => d = c
  | .finishCalled d _ => d = c
  | .queueClosed d _ => d = c
  | .closedOfRequest d _ _ => d = c
  | .closedOfWork d _ _ => d = c
  | _ => False

/-- A context's resources as they were added, and its executor. -/
structure Owned (a : Account) (c : Nat) : Prop where
  quiet : (a.context c).Quiet
  clone : (a.context c).cloned = true →
    (a.context c).asyncioExecutor.isSome ∧ ∀ k e, .obtained c k e ∉ a.log
  root : (a.context c).cloned = false → ∃ e, .obtained c 0 e ∈ a.log ∧
    (∀ k e', .obtained c k e' ∈ a.log → e' = e) ∧
      (a.returnDue c = 1 ∧ (a.context c).asyncioExecutor = some e ∧ .returned e ∉ a.log ∨
        a.returnDue c = 0 ∧ (a.context c).asyncioExecutor = none ∧ a.log.count (.returned e) = 1)
  added : ∀ k r, a.log.count (.added c k r) =
    if k = (a.context c).exchange then (a.context c).ids.count r else 0

/-- The context was finished in the exchange it is in, if it was. -/
def CalledIn (a : Account) (c : Nat) : Prop :=
  ∀ k, .finishCalled c k ∈ a.log →
    (a.context c).requestFinished = true ∧ k = (a.context c).exchange

/-- The request is to be closed, or was. -/
def RequestKept (a : Account) (c : Nat) : Prop :=
  (a.requestDue c = 1 ∧ (a.context c).hasQueue = true ∧ ∀ k r, .closedOfRequest c k r ∉ a.log) ∨
    (a.requestDue c = 0 ∧ .queueClosed c (a.context c).exchange ∈ a.log ∧
      ∀ k r, a.log.count (.closedOfRequest c k r) = a.log.count (.added c k r))

/-- The work is to be closed, or was. -/
def WorkKept (a : Account) (c : Nat) : Prop :=
  (a.workDue c = 1 ∧ ∀ k r, .closedOfWork c k r ∉ a.log) ∨
    (a.workDue c = 0 ∧ ∀ k r, a.log.count (.closedOfWork c k r) = a.log.count (.added c k r))

/-- What one context owes, and what was logged of it. -/
structure Ledger (a : Account) (c : Nat) : Prop extends Owned a c where
  called : CalledIn a c
  request : RequestKept a c
  work : WorkKept a c

/-- A context that has the resources and the executor of another. -/
structure SessionInvocationContext.Same (later context : SessionInvocationContext) : Prop where
  cloned : later.cloned = context.cloned
  executor : later.asyncioExecutor = context.asyncioExecutor
  exchange : later.exchange = context.exchange
  ids : later.ids = context.ids
  quiet : context.Quiet → later.Quiet

theorem SessionInvocationContext.Same.refl (context : SessionInvocationContext) :
    context.Same context := ⟨rfl, rfl, rfl, rfl, id⟩

section Frame

variable {a b : Account} {c : Nat} {events : List Effect}

theorem count_log_eq (hlog : b.log = a.log ++ events) {effect : Effect} (h : effect ∉ events) :
    b.log.count effect = a.log.count effect := by
  rw [hlog, List.count_append, List.count_eq_zero.mpr h, Nat.add_zero]

theorem mem_log_iff (hlog : b.log = a.log ++ events) {effect : Effect} (h : effect ∉ events) :
    effect ∈ b.log ↔ effect ∈ a.log := by
  rw [hlog, List.mem_append, or_iff_left h]

/-- A step that logs nothing that the resources and the executor depend on. -/
theorem Owned.frame (h : Owned a c) (hsame : (b.context c).Same (a.context c))
    (hreturn : b.returnDue c = a.returnDue c) (hlog : b.log = a.log ++ events)
    (hobtained : ∀ k e, .obtained c k e ∉ events)
    (hadded : ∀ k r, .added c k r ∉ events)
    (hreturned : ∀ e, .obtained c 0 e ∈ a.log → .returned e ∉ events) : Owned b c := by
  constructor
  · exact hsame.quiet h.quiet
  · intro hcloned
    rw [hsame.cloned] at hcloned
    rw [hsame.executor]
    refine ⟨(h.clone hcloned).1, fun k e hmem => (h.clone hcloned).2 k e ?_⟩
    exact (mem_log_iff hlog (hobtained k e)).mp hmem
  · intro hcloned
    rw [hsame.cloned] at hcloned
    rw [hsame.executor, hreturn]
    obtain ⟨e, hmem, hunique, hreturns⟩ := h.root hcloned
    refine ⟨e, (mem_log_iff hlog (hobtained 0 e)).mpr hmem,
      fun k e' h' => hunique k e' ((mem_log_iff hlog (hobtained k e')).mp h'), ?_⟩
    rw [mem_log_iff hlog (hreturned e hmem), count_log_eq hlog (hreturned e hmem)]
    exact hreturns
  · intro k r
    rw [hsame.exchange, hsame.ids, count_log_eq hlog (hadded k r)]
    exact h.added k r

/-- A step that finishes no request. -/
theorem CalledIn.frame (h : CalledIn a c)
    (hfinished : (b.context c).requestFinished = (a.context c).requestFinished)
    (hexchange : (b.context c).exchange = (a.context c).exchange)
    (hlog : b.log = a.log ++ events) (hcalled : ∀ k, .finishCalled c k ∉ events) :
    CalledIn b c := by
  intro k hmem
  rw [hfinished, hexchange]
  exact h k ((mem_log_iff hlog (hcalled k)).mp hmem)

/-- A step that closes no request. -/
theorem RequestKept.frame (h : RequestKept a c) (hdue : b.requestDue c = a.requestDue c)
    (hqueue : (b.context c).hasQueue = (a.context c).hasQueue)
    (hexchange : (b.context c).exchange = (a.context c).exchange)
    (hlog : b.log = a.log ++ events) (hadded : ∀ k r, .added c k r ∉ events)
    (hclosed : ∀ k r, .closedOfRequest c k r ∉ events) : RequestKept b c := by
  unfold RequestKept
  rw [hdue, hqueue, hexchange]
  refine h.imp ?_ ?_
  · rintro ⟨hdue, hqueue, hnone⟩
    exact ⟨hdue, hqueue, fun k r hmem => hnone k r ((mem_log_iff hlog (hclosed k r)).mp hmem)⟩
  · rintro ⟨hdue, hqueue, hall⟩
    refine ⟨hdue, hlog ▸ List.mem_append_left _ hqueue, fun k r => ?_⟩
    rw [count_log_eq hlog (hclosed k r), count_log_eq hlog (hadded k r), hall]

/-- A step that closes no work. -/
theorem WorkKept.frame (h : WorkKept a c) (hdue : b.workDue c = a.workDue c)
    (hlog : b.log = a.log ++ events) (hadded : ∀ k r, .added c k r ∉ events)
    (hclosed : ∀ k r, .closedOfWork c k r ∉ events) : WorkKept b c := by
  unfold WorkKept
  rw [hdue]
  refine h.imp ?_ ?_
  · rintro ⟨hdue, hnone⟩
    exact ⟨hdue, fun k r hmem => hnone k r ((mem_log_iff hlog (hclosed k r)).mp hmem)⟩
  · rintro ⟨hdue, hall⟩
    refine ⟨hdue, fun k r => ?_⟩
    rw [count_log_eq hlog (hclosed k r), count_log_eq hlog (hadded k r), hall]

/-- A step that leaves a context and what it owes, and logs nothing of it. -/
theorem Ledger.frame (h : Ledger a c) (hcontext : b.context c = a.context c)
    (hrequest : b.requestDue c = a.requestDue c) (hwork : b.workDue c = a.workDue c)
    (hreturn : b.returnDue c = a.returnDue c) (hlog : b.log = a.log ++ events)
    (hevents : ∀ effect ∈ events, ¬effect.Of c)
    (hreturned : ∀ e, .obtained c 0 e ∈ a.log → .returned e ∉ events) : Ledger b c := by
  have hnot : ∀ effect : Effect, effect.Of c → effect ∉ events :=
    fun effect hof hmem => hevents effect hmem hof
  have hadded := fun k r => hnot (.added c k r) rfl
  constructor
  · exact h.toOwned.frame (hcontext ▸ .refl _) hreturn hlog (fun k e => hnot (.obtained c k e) rfl)
      hadded hreturned
  · exact h.called.frame (by rw [hcontext]) (by rw [hcontext]) hlog
      fun k => hnot (.finishCalled c k) rfl
  · exact h.request.frame hrequest (by rw [hcontext]) (by rw [hcontext]) hlog hadded
      fun k r => hnot (.closedOfRequest c k r) rfl
  · exact h.work.frame hwork hlog hadded fun k r => hnot (.closedOfWork c k r) rfl

end Frame

/-! ## All contexts -/

/-- The ledgers of all contexts, and what is shared between them. -/
structure Kept (a : Account) : Prop where
  ledger : ∀ c < a.runtime.created, Ledger a c
  -- what waits
  tasks : ∀ task ∈ a.tasks, task.context < a.runtime.created
  queued : ∀ c handOver, .queueWork c handOver ∈ a.tasks → handOver = .queued
  eventWork : ∀ c ∈ a.runtime.eventWork, c < a.runtime.created
  returning : ∀ c ∈ a.returning, c < a.runtime.created
  -- what was logged
  logged : ∀ effect ∈ a.log, ∀ c, effect.Of c → c < a.runtime.created
  obtained : ∀ c k e, .obtained c k e ∈ a.log → e < a.runtime.executors
  returned : ∀ e, .returned e ∈ a.log → ∃ c, .obtained c 0 e ∈ a.log
  unique : ∀ c d k k' e, .obtained c k e ∈ a.log → .obtained d k' e ∈ a.log → c = d
  -- clones
  clones : ∀ e, a.Returns e → ∀ c < a.runtime.created, (a.context c).cloned = true →
    (a.context c).asyncioExecutor = some e → a.Settled c

/-- The effects of the calls on a context that was created, other than returning its
executor. -/
def Effect.By (c : Nat) : Effect → Prop
  | .added d _ _ => d = c
  | .finishCalled d _ => d = c
  | .queueClosed d _ => d = c
  | .closedOfRequest d _ _ => d = c
  | .closedOfWork d _ _ => d = c
  | .reservationsEnded => True
  | _ => False

theorem Effect.By.eq_of_of {effect : Effect} {c d : Nat} (h : effect.By c) (hd : effect.Of d) :
    d = c := by
  cases effect with
  | added => exact hd.symm.trans h
  | finishCalled => exact hd.symm.trans h
  | queueClosed => exact hd.symm.trans h
  | closedOfRequest => exact hd.symm.trans h
  | closedOfWork => exact hd.symm.trans h
  | obtained => exact absurd h fun h => h
  | _ => exact absurd hd fun h => h

/-- A call works on one context: what it changes and logs is of that context, or is
its executor that goes back. -/
structure WorksOn (c : Nat) (a b : Account) (events : List Effect) : Prop where
  created : b.runtime.created = a.runtime.created
  executors : b.runtime.executors = a.runtime.executors
  contexts : ∀ d, d ≠ c → b.context d = a.context d
  dues : ∀ d, d ≠ c → b.requestDue d = a.requestDue d ∧ b.workDue d = a.workDue d ∧
    b.returnDue d = a.returnDue d
  tasks : ∀ task ∈ b.tasks, task ∈ a.tasks ∨
    task.context = c ∧ ∀ handOver, task = .queueWork c handOver → handOver = .queued
  eventWork : ∀ d ∈ b.runtime.eventWork, d ∈ a.runtime.eventWork ∨ d = c
  returning : ∀ d ∈ b.returning, d ∈ a.returning ∨ d = c
  log : b.log = a.log ++ events
  events : ∀ effect ∈ events, effect.By c ∨ ∃ e, effect = .returned e ∧ .obtained c 0 e ∈ a.log
  clone : (b.context c).cloned = true → (a.context c).cloned = true ∧
    (b.context c).asyncioExecutor = (a.context c).asyncioExecutor
  settled : a.Settled c → b.Settled c
  returns : ∀ e, b.Returns e → a.Returns e ∨ ∀ d < a.runtime.created,
    (a.context d).cloned = true → (a.context d).asyncioExecutor = some e → a.Settled d

theorem WorksOn.obtained {c : Nat} {a b : Account} {events : List Effect}
    (h : WorksOn c a b events) {d k e : Nat} :
    .obtained d k e ∈ b.log ↔ .obtained d k e ∈ a.log := by
  rw [h.log, List.mem_append, or_iff_left]
  intro hmem
  rcases h.events _ hmem with hby | ⟨_, he, -⟩
  · exact hby
  · cases he

/-- A call that keeps the ledger of its context keeps all. -/
theorem Kept.worksOn {a b : Account} {c : Nat} {events : List Effect} (h : Kept a)
    (hc : c < a.runtime.created) (hworks : WorksOn c a b events) (hledger : Ledger b c) :
    Kept b := by
  have hof : ∀ effect ∈ events, ∀ d, effect.Of d → d = c := by
    intro effect hmem d hd
    rcases hworks.events effect hmem with hby | ⟨e, rfl, -⟩
    · exact hby.eq_of_of hd
    · exact absurd hd fun h => h
  constructor
  · intro d hd
    rw [hworks.created] at hd
    -- the ledger of another context is framed
    by_cases hdc : d = c
    · rw [hdc]
      exact hledger
    · obtain ⟨hrequest, hwork, hreturn⟩ := hworks.dues d hdc
      refine (h.ledger d hd).frame (hworks.contexts d hdc) hrequest hwork hreturn hworks.log
        (fun effect hmem hd => hdc (hof effect hmem d hd)) fun e hobtained hmem => ?_
      rcases hworks.events _ hmem with hby | ⟨e', he, hobtained'⟩
      · exact hby
      · cases he
        exact hdc (h.unique d c 0 0 e hobtained hobtained')
  · intro task htask
    rw [hworks.created]
    rcases hworks.tasks task htask with hold | ⟨hnew, -⟩
    · exact h.tasks task hold
    · exact hnew ▸ hc
  · intro d handOver htask
    rcases hworks.tasks _ htask with hold | ⟨hnew, hqueued⟩
    · exact h.queued d handOver hold
    · have hdc : d = c := hnew
      exact hqueued handOver (by rw [hdc])
  · intro d hd
    rw [hworks.created]
    rcases hworks.eventWork d hd with hold | rfl
    · exact h.eventWork d hold
    · exact hc
  · intro d hd
    rw [hworks.created]
    rcases hworks.returning d hd with hold | rfl
    · exact h.returning d hold
    · exact hc
  · intro effect hmem d hd
    rw [hworks.created]
    rw [hworks.log, List.mem_append] at hmem
    rcases hmem with hold | hnew
    · exact h.logged effect hold d hd
    · exact hof effect hnew d hd ▸ hc
  · intro d k e hobtained
    rw [hworks.executors]
    exact h.obtained d k e (hworks.obtained.mp hobtained)
  · intro e hreturned
    rw [hworks.log, List.mem_append] at hreturned
    rcases hreturned with hold | hnew
    · obtain ⟨d, hobtained⟩ := h.returned e hold
      exact ⟨d, hworks.obtained.mpr hobtained⟩
    · rcases hworks.events _ hnew with hby | ⟨e', he, hobtained⟩
      · exact absurd hby fun h => h
      · cases he
        exact ⟨c, hworks.obtained.mpr hobtained⟩
  · intro d d' k k' e hobtained hobtained'
    exact h.unique d d' k k' e (hworks.obtained.mp hobtained) (hworks.obtained.mp hobtained')
  · intro e hreturns d hd hcloned hexecutor
    rw [hworks.created] at hd
    -- a clone of the executor had settled, or settles with this step
    have hold : (a.context d).cloned = true → (a.context d).asyncioExecutor = some e →
        a.Settled d := by
      rcases hworks.returns e hreturns with hold | hnew
      · exact h.clones e hold d hd
      · exact hnew d hd
    by_cases hdc : d = c
    · rw [hdc] at hold hcloned hexecutor ⊢
      obtain ⟨hcloned', hsame⟩ := hworks.clone hcloned
      exact hworks.settled (hold hcloned' (hsame ▸ hexecutor))
    · rw [hworks.contexts d hdc] at hcloned hexecutor
      obtain ⟨hrequest, hwork, -⟩ := hworks.dues d hdc
      unfold Account.Settled
      rw [hrequest, hwork]
      exact hold hcloned hexecutor

/-- What is due moves between the tasks, the event work monitor and the call that runs. -/
structure Moves (a b : Account) : Prop where
  contexts : b.runtime.contexts = a.runtime.contexts
  created : b.runtime.created = a.runtime.created
  executors : b.runtime.executors = a.runtime.executors
  log : b.log = a.log
  requestDue : ∀ c, b.requestDue c = a.requestDue c
  workDue : ∀ c, b.workDue c = a.workDue c
  returnDue : ∀ c, b.returnDue c = a.returnDue c
  tasks : ∀ task ∈ b.tasks, task.context < a.runtime.created ∧
    ∀ c handOver, task = .queueWork c handOver → handOver = .queued
  eventWork : ∀ c ∈ b.runtime.eventWork, c < a.runtime.created
  returning : ∀ c ∈ b.returning, c < a.runtime.created
  returns : ∀ e, b.Returns e → a.Returns e ∨ ∀ d < a.runtime.created,
    (a.context d).cloned = true → (a.context d).asyncioExecutor = some e → a.Settled d

theorem Kept.moves {a b : Account} (h : Kept a) (hmoves : Moves a b) : Kept b := by
  have hcontext : ∀ c, b.context c = a.context c := fun c => congrFun hmoves.contexts c
  constructor
  · intro c hc
    rw [hmoves.created] at hc
    have hlog : b.log = a.log ++ [] := by rw [hmoves.log, List.append_nil]
    exact (h.ledger c hc).frame (hcontext c) (hmoves.requestDue c) (hmoves.workDue c)
      (hmoves.returnDue c) hlog (fun _ hmem => absurd hmem List.not_mem_nil)
      fun _ _ => List.not_mem_nil
  · intro task htask
    rw [hmoves.created]
    exact (hmoves.tasks task htask).1
  · exact fun c handOver htask => (hmoves.tasks _ htask).2 c handOver rfl
  · rw [hmoves.created]
    exact hmoves.eventWork
  · rw [hmoves.created]
    exact hmoves.returning
  · rw [hmoves.log, hmoves.created]
    exact h.logged
  · rw [hmoves.log, hmoves.executors]
    exact h.obtained
  · rw [hmoves.log]
    exact h.returned
  · rw [hmoves.log]
    exact h.unique
  · intro e hreturns c hc hcloned hexecutor
    rw [hmoves.created] at hc
    rw [hcontext] at hcloned hexecutor
    unfold Account.Settled
    rw [hmoves.requestDue, hmoves.workDue]
    rcases hmoves.returns e hreturns with hold | hnew
    · exact h.clones e hold c hc hcloned hexecutor
    · exact hnew c hc hcloned hexecutor

/-- The tasks in another order, and variables that the ledgers do not depend on. -/
theorem Kept.perm {runtime runtime' : Runtime} {tasks tasks' : List Task} {returning : List Nat}
    {log : List Effect} (h : Kept ⟨runtime, tasks, returning, log⟩) (hperm : tasks.Perm tasks')
    (hcontexts : runtime'.contexts = runtime.contexts)
    (hcreated : runtime'.created = runtime.created)
    (hexecutors : runtime'.executors = runtime.executors)
    (heventWork : runtime'.eventWork = runtime.eventWork) :
    Kept ⟨runtime', tasks', returning, log⟩ := by
  have hcount : ∀ task : Task, tasks'.count task = tasks.count task :=
    fun task => (hperm.count_eq task).symm
  have hfinish : ∀ c, Account.finishDue ⟨runtime', tasks', returning, log⟩ c =
      Account.finishDue ⟨runtime, tasks, returning, log⟩ c := fun c =>
    Account.finishDue_eq (by simp only [Account.context, hcontexts])
  refine h.moves ⟨hcontexts, hcreated, hexecutors, rfl, fun c => ?_, fun c => ?_, fun c => ?_,
    fun task htask => ?_, ?_, h.returning, fun e hreturns => .inl ?_⟩
  · simp only [Account.requestDue, hfinish, hcount]
  · simp only [Account.workDue, Account.eventDue, hfinish, heventWork, hcount]
  · simp only [Account.returnDue, Account.eventDue, hfinish, heventWork, hcount]
  · have hmem : task ∈ tasks := hperm.mem_iff.mpr htask
    refine ⟨h.tasks task hmem, fun c handOver heq => ?_⟩
    subst heq
    exact h.queued c handOver hmem
  · show ∀ c ∈ runtime'.eventWork, c < runtime.created
    rw [heventWork]
    exact h.eventWork
  · simp only [Account.Returns, Account.context, hcontexts] at hreturns ⊢
    exact hreturns

end NoraFleet.Sessions
