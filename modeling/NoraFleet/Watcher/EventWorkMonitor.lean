import Mathlib.Data.List.Nodup
import NoraFleet.Base.Runs
import NoraFleet.Sessions.Closing

/-!
# The event work monitor

`EventWorkMonitor.run` takes the contexts of event invocations from their queue into a
pool, and in every round closes the work of those whose event is set. Nothing is between
the loop and what closing a context raises.

* `processDone_of_closes`, `processDone_raises` — what a round does to the contexts that
  are done;
* `reaps_all_iff` — the runs in which every context is reaped, once, and the monitor goes on.
-/

namespace NoraFleet.Watcher

open Base Sessions

/-! ## The monitor -/

/-- What `get_nowait()` of the queue gives: nothing, from an open queue or a closed one,
the exception of a queue that was shut down, the final item, or a context. -/
inductive QueuedItem where
  | empty (closed : Bool)
  | shutDown
  | finalItem
  | context (c : ℕ)

/-- Whether `run()` goes on, has returned, or has raised. -/
inductive Status where
  | running
  | returned
  | raised (e : PyError)

/-- The monitor, with the contexts whose `work_done_event` is set, those that arrived, with
the executors they were to return, and the calls of `done_with_work`, with the effects each
had. -/
structure EventWorkMonitor where
  runtime : Runtime
  invocationContextPool : List ℕ
  status : Status
  workDone : List ℕ
  arrived : List (ℕ × Option ℕ)
  finished : List (ℕ × List Effect)

/-- The order in which the contexts of a set are gone through. -/
abbrev SetOrder := { arrange : List ℕ → List ℕ // ∀ l, (arrange l).Perm l }

/-- What happens, one after the other: work that goes on adds a resource to its context,
its event is set, or the loop of the monitor goes round. -/
inductive Step where
  | addResource (c : ℕ) (resource : LingeringResource)
  | workDone (c : ℕ)
  | round (queuedItem : QueuedItem) (order : SetOrder)

namespace EventWorkMonitor

/-- The second loop of `process_pool()`. -/
def processDone : List ℕ → EventWorkMonitor → EventWorkMonitor
  | [], s => s
  | c :: rest, s =>
      let ended := (doneWithWork false c).run s.runtime
      let s := { s with
        runtime := ended.locals
        finished := s.finished ++ [(c, ended.events)] }
      match ended.outcome with
      | .error e => { s with status := .raised e }
      | .ok () =>
          processDone rest { s with invocationContextPool := s.invocationContextPool.erase c }

/-- The contexts of the pool that are done. -/
def doneInvocations (s : EventWorkMonitor) : List ℕ :=
  s.invocationContextPool.filter fun c => c ∈ s.workDone

/-- `process_pool()`. -/
def processPool (order : SetOrder) (s : EventWorkMonitor) : EventWorkMonitor :=
  s.processDone (order.1 s.doneInvocations)

/-- `self.invocation_context_pool.add(queued_item)`. -/
def add (c : ℕ) (s : EventWorkMonitor) : EventWorkMonitor :=
  { s with
    invocationContextPool :=
      if c ∈ s.invocationContextPool then s.invocationContextPool
      else s.invocationContextPool ++ [c]
    arrived := s.arrived ++ [(c, (s.runtime.contexts c).ownExecutor)] }

/-- The pool that a round processes; `none` when the loop returns. -/
def takeItem (queuedItem : QueuedItem) (s : EventWorkMonitor) : Option EventWorkMonitor :=
  match queuedItem with
  | .empty closed => if closed then none else some s
  | .shutDown | .finalItem => none
  | .context c => some (s.add c)

/-- One round of the loop of `run()`. -/
def round (queuedItem : QueuedItem) (order : SetOrder) (s : EventWorkMonitor) :
    EventWorkMonitor :=
  match s.status with
  | .running =>
      match s.takeItem queuedItem with
      | none => { s with status := .returned }
      | some s => s.processPool order
  | _ => s

def exec : Step → EventWorkMonitor → EventWorkMonitor
  | .addResource c resource, s =>
      { s with runtime := ((addResource c resource).run s.runtime).locals }
  | .workDone c, s => { s with workDone := c :: s.workDone }
  | .round queuedItem order, s => s.round queuedItem order

/-- The monitor when it starts. -/
def initial (runtime : Runtime) (workDone : List ℕ) : EventWorkMonitor where
  runtime := runtime
  invocationContextPool := []
  status := .running
  workDone := workDone
  arrived := []
  finished := []

/-! ## What is to hold -/

/-- The contexts that `done_with_work` was called on. -/
def calls (s : EventWorkMonitor) : List ℕ := s.finished.map Prod.fst

end EventWorkMonitor

/-- The executor that an effect returns to the pool. -/
def returnedExecutor : Effect → Option ℕ
  | .returned executor => some executor
  | _ => none

namespace EventWorkMonitor

/-- The executors that were returned for a context. -/
def returnedOf (c : ℕ) (s : EventWorkMonitor) : List ℕ :=
  s.finished.flatMap fun call => if call.1 = c then call.2.filterMap returnedExecutor else []

/-- The monitor did not end because of a context; no context is done twice, and none
before its event is set; executors are returned once, when their contexts are done. -/
structure Reaping (s : EventWorkMonitor) : Prop where
  goes_on : ∀ e, s.status ≠ .raised e
  once : s.calls.Nodup
  not_before : ∀ c ∈ s.calls, c ∈ s.workDone
  returned : ∀ c executor, (c, some executor) ∈ s.arrived →
    s.returnedOf c = if c ∈ s.calls then [executor] else []

/-- After the step all is as it should be; and what a round left running has seen is done:
every context that arrived and had its event set when the round began. -/
def Reaps (step : Step) (s : EventWorkMonitor) : Prop :=
  (exec step s).Reaping ∧
    match step with
    | .round _ _ => (exec step s).status = .running →
        ∀ c executor, (c, executor) ∈ (exec step s).arrived → c ∈ s.workDone →
          c ∈ (exec step s).calls
    | _ => True

/-- Closing the work of a context does not raise, and its executor is there. -/
structure Closes (context : SessionInvocationContext) : Prop where
  executor : context.asyncioExecutor.isSome
  quiet : context.workRaised = none

/-- In a round, no context comes back after it was done, and every context of the pool that
is done can be closed. -/
def Sound : Step → EventWorkMonitor → Prop
  | .round queuedItem _, s => s.status = .running → ∀ taken, s.takeItem queuedItem = some taken →
      (∀ c, queuedItem = .context c → c ∉ s.calls) ∧
        ∀ c ∈ taken.doneInvocations, Closes (s.runtime.contexts c)
  | _, _ => True

/-! ## The contexts that are done -/

/-- A context that can be closed is closed. -/
theorem processDone_closes {c : ℕ} {s : EventWorkMonitor} (h : Closes (s.runtime.contexts c))
    (rest : List ℕ) :
    s.processDone (c :: rest) = processDone rest { s with
      runtime := s.runtime.update c SessionInvocationContext.withWorkDone
      finished := s.finished ++ [(c, doneWithWorkEffects c (s.runtime.contexts c))]
      invocationContextPool := s.invocationContextPool.erase c } := by
  have hrun := run_doneWithWork h.executor
  rw [h.quiet] at hrun
  rw [processDone, hrun]
  rfl

/-- One that cannot be closed ends the loop, and the thread. -/
theorem processDone_fails {c : ℕ} {s : EventWorkMonitor}
    (h : ¬ Closes (s.runtime.contexts c)) (rest : List ℕ) :
    ∃ e, (s.processDone (c :: rest)).status = .raised e := by
  have hraises : ∃ e, ((doneWithWork false c).run s.runtime).outcome = .error e := by
    cases hexecutor : (s.runtime.contexts c).asyncioExecutor with
    | none =>
        have hrun : (runInExecutorUntilComplete false c (.closeOfWork c)).run s.runtime =
            ⟨[], s.runtime, .error .attributeError⟩ := by
          simp only [runInExecutorUntilComplete, run_readContext_bind, hexecutor]
          rfl
        refine ⟨.attributeError, ?_⟩
        rw [doneWithWork, Flow.run_bind_error hrun]
    | some executor =>
        have hsome : (s.runtime.contexts c).asyncioExecutor.isSome := by
          rw [hexecutor]
          rfl
        rw [run_doneWithWork hsome]
        cases hraised : (s.runtime.contexts c).workRaised with
        | none => exact absurd ⟨hsome, hraised⟩ h
        | some e => exact ⟨e, rfl⟩
  obtain ⟨e, he⟩ := hraises
  refine ⟨e, ?_⟩
  rw [processDone]
  simp only [he]

/-- The attributes after the work of some contexts was closed. -/
def closeWork (done : List ℕ) (runtime : Runtime) : Runtime :=
  done.foldl (fun runtime c => runtime.update c SessionInvocationContext.withWorkDone) runtime

theorem closeWork_contexts_of_not_mem {done : List ℕ} {c : ℕ} (h : c ∉ done)
    (runtime : Runtime) : (closeWork done runtime).contexts c = runtime.contexts c := by
  induction done generalizing runtime with
  | nil => rfl
  | cons d rest ih =>
      rw [List.mem_cons, not_or] at h
      exact (ih h.2 _).trans (Runtime.update_contexts_of_ne runtime h.1 _)

/-- Where all that are done can be closed, all are closed, and nothing else happens. -/
theorem processDone_of_closes {done : List ℕ} (hnodup : done.Nodup) {s : EventWorkMonitor}
    (h : ∀ c ∈ done, Closes (s.runtime.contexts c)) :
    s.processDone done = { s with
      runtime := closeWork done s.runtime
      finished := s.finished ++ done.map fun c =>
        (c, doneWithWorkEffects c (s.runtime.contexts c))
      invocationContextPool := s.invocationContextPool.diff done } := by
  induction done generalizing s with
  | nil => simp [processDone, closeWork]
  | cons c rest ih =>
      obtain ⟨hc, hnodup⟩ := List.nodup_cons.mp hnodup
      obtain ⟨hfirst, hrest⟩ := List.forall_mem_cons.mp h
      -- the other contexts are as they were
      have hsame : ∀ d ∈ rest,
          (s.runtime.update c SessionInvocationContext.withWorkDone).contexts d =
            s.runtime.contexts d := by
        intro d hd
        refine Runtime.update_contexts_of_ne s.runtime ?_ _
        rintro rfl
        exact hc hd
      rw [processDone_closes hfirst, ih hnodup]
      · have heffects : (rest.map fun d => (d, doneWithWorkEffects d
            ((s.runtime.update c SessionInvocationContext.withWorkDone).contexts d))) =
              rest.map fun d => (d, doneWithWorkEffects d (s.runtime.contexts d)) := by
          apply List.map_congr_left
          intro d hd
          rw [hsame d hd]
        simp only [heffects, List.map_cons, List.append_assoc, List.singleton_append,
          List.diff_cons]
        rfl
      · intro d hd
        rw [hsame d hd]
        exact hrest d hd

/-- Where one cannot be closed, the thread ends. -/
theorem processDone_raises {done : List ℕ} (hnodup : done.Nodup) {s : EventWorkMonitor}
    (h : ∃ c ∈ done, ¬ Closes (s.runtime.contexts c)) :
    ∃ e, (s.processDone done).status = .raised e := by
  induction done generalizing s with
  | nil => exact absurd h.choose_spec.1 List.not_mem_nil
  | cons c rest ih =>
      obtain ⟨hc, hnodup⟩ := List.nodup_cons.mp hnodup
      by_cases hfirst : Closes (s.runtime.contexts c)
      · rw [processDone_closes hfirst]
        obtain ⟨d, hmem, hcloses⟩ := h
        rcases List.mem_cons.mp hmem with rfl | hd
        · exact absurd hfirst hcloses
        · refine ih hnodup ⟨d, hd, ?_⟩
          have hne : d ≠ c := fun heq => hc (heq ▸ hd)
          rw [Runtime.update_contexts_of_ne s.runtime hne]
          exact hcloses
      · exact processDone_fails hfirst rest

/-! ## Rounds -/

theorem calls_processDone {done : List ℕ} (hnodup : done.Nodup) {s : EventWorkMonitor}
    (h : ∀ c ∈ done, Closes (s.runtime.contexts c)) :
    (s.processDone done).calls = s.calls ++ done := by
  rw [processDone_of_closes hnodup h]
  simp only [calls, List.map_append, List.map_map, Function.comp_def, List.map_id']

/-- Closing a context that does not raise returns the executor that it is to return. -/
theorem returned_doneWithWorkEffects (c : ℕ) {context : SessionInvocationContext}
    (h : Closes context) :
    (doneWithWorkEffects c context).filterMap returnedExecutor = context.ownExecutor.toList := by
  have hclosed : (closeOfWorkEffects c context).filterMap returnedExecutor = [] := by
    rw [List.filterMap_eq_nil_iff]
    intro effect heffect
    rcases List.mem_append.mp heffect with hresource | hfinal
    · obtain ⟨resource, rfl⟩ := mem_closedEffects hresource
      rfl
    · split at hfinal
      · obtain rfl := List.mem_singleton.mp hfinal
        rfl
      · exact absurd hfinal List.not_mem_nil
  rw [doneWithWorkEffects, List.filterMap_append, hclosed, if_pos h.quiet]
  cases context.ownExecutor with
  | none => rfl
  | some executor => rfl

theorem returnedOf_of_not_called {c : ℕ} {s : EventWorkMonitor} (h : c ∉ s.calls) :
    s.returnedOf c = [] := by
  unfold returnedOf
  rw [List.flatMap_eq_nil_iff]
  intro call hcall
  have hne : call.1 ≠ c := by
    rintro rfl
    exact h (List.mem_map_of_mem hcall)
  rw [if_neg hne]

/-- What a round returns for a context. -/
theorem returnedOf_processDone {done : List ℕ} (hnodup : done.Nodup) {s : EventWorkMonitor}
    (h : ∀ c ∈ done, Closes (s.runtime.contexts c)) (c : ℕ) :
    (s.processDone done).returnedOf c =
      s.returnedOf c ++ if c ∈ done then (s.runtime.contexts c).ownExecutor.toList else [] := by
  have hround : (done.flatMap fun d => if d = c then
      (doneWithWorkEffects d (s.runtime.contexts d)).filterMap returnedExecutor else []) =
        if c ∈ done then (s.runtime.contexts c).ownExecutor.toList else [] := by
    induction done with
    | nil => rfl
    | cons d rest ih =>
        obtain ⟨hd, hnodup⟩ := List.nodup_cons.mp hnodup
        obtain ⟨hfirst, hrest⟩ := List.forall_mem_cons.mp h
        rw [List.flatMap_cons, ih hnodup hrest]
        by_cases hdc : d = c
        · subst hdc
          rw [if_pos rfl, if_neg hd, if_pos List.mem_cons_self, List.append_nil,
            returned_doneWithWorkEffects d hfirst]
        · rw [if_neg hdc, List.nil_append]
          simp [Ne.symm hdc]
  rw [processDone_of_closes hnodup h, ← hround]
  simp only [returnedOf, List.flatMap_append, List.flatMap_map]

/-- What holds of a monitor in a run, while nothing raised. -/
structure Inv (s : EventWorkMonitor) : Prop where
  reaping : s.Reaping
  pool_nodup : s.invocationContextPool.Nodup
  pool_not_called : ∀ c ∈ s.invocationContextPool, c ∉ s.calls
  arrived : ∀ c executor, (c, executor) ∈ s.arrived →
    c ∈ s.invocationContextPool ∨ c ∈ s.calls
  executor : ∀ c executor, (c, some executor) ∈ s.arrived → c ∉ s.calls →
    (s.runtime.contexts c).ownExecutor = some executor

theorem inv_initial (runtime : Runtime) (workDone : List ℕ) :
    (initial runtime workDone).Inv where
  reaping := ⟨fun _ h => (nomatch h), List.nodup_nil, fun _ h => absurd h List.not_mem_nil,
    fun _ _ h => absurd h List.not_mem_nil⟩
  pool_nodup := List.nodup_nil
  pool_not_called _ h := absurd h List.not_mem_nil
  arrived _ _ h := absurd h List.not_mem_nil
  executor _ _ h := absurd h List.not_mem_nil

theorem mem_add {s : EventWorkMonitor} {c d : ℕ} :
    d ∈ (s.add c).invocationContextPool ↔ d ∈ s.invocationContextPool ∨ d = c := by
  show d ∈ (if _ then _ else _) ↔ _
  split
  · rename_i hin
    constructor
    · exact Or.inl
    · rintro (hd | rfl)
      · exact hd
      · exact hin
  · rw [List.mem_append, List.mem_singleton]

theorem nodup_add {s : EventWorkMonitor} (h : s.invocationContextPool.Nodup) (c : ℕ) :
    (s.add c).invocationContextPool.Nodup := by
  show (if _ then _ else _ : List ℕ).Nodup
  split
  · exact h
  · rename_i hnot
    rw [List.nodup_append]
    refine ⟨h, List.nodup_singleton c, ?_⟩
    rintro d hd e he rfl
    exact hnot (List.mem_singleton.mp he ▸ hd)

/-- A context that was not done yet comes into the pool. -/
theorem Inv.add {s : EventWorkMonitor} (h : s.Inv) {c : ℕ} (hc : c ∉ s.calls) :
    (s.add c).Inv := by
  have harrived : ∀ d executor, (d, executor) ∈ (s.add c).arrived ↔
      (d, executor) ∈ s.arrived ∨ d = c ∧ executor = (s.runtime.contexts c).ownExecutor := by
    intro d executor
    show _ ∈ _ ++ _ ↔ _
    rw [List.mem_append, List.mem_singleton, Prod.mk.injEq]
  refine ⟨⟨h.reaping.goes_on, h.reaping.once, h.reaping.not_before, ?_⟩,
    nodup_add h.pool_nodup c, ?_, ?_, ?_⟩
  · intro d executor hd
    rcases (harrived d _).mp hd with hd | ⟨rfl, -⟩
    · exact h.reaping.returned d executor hd
    · have hnot : d ∉ (s.add d).calls := hc
      rw [if_neg hnot]
      exact returnedOf_of_not_called hnot
  · intro d hd
    rcases mem_add.mp hd with hd | rfl
    · exact h.pool_not_called d hd
    · exact hc
  · intro d executor hd
    rcases (harrived d _).mp hd with hd | ⟨rfl, -⟩
    · exact (h.arrived d executor hd).imp (fun hin => mem_add.mpr (.inl hin)) id
    · exact .inl (mem_add.mpr (.inr rfl))
  · intro d executor hd hnot
    rcases (harrived d _).mp hd with hd | ⟨rfl, heq⟩
    · exact h.executor d executor hd hnot
    · exact heq.symm

/-- A round in which all that are done can be closed. -/
theorem Inv.processPool {s : EventWorkMonitor} (h : s.Inv) (order : SetOrder)
    (hcloses : ∀ c ∈ s.doneInvocations, Closes (s.runtime.contexts c)) :
    (s.processPool order).Inv ∧
      ∀ c executor, (c, executor) ∈ (s.processPool order).arrived → c ∈ s.workDone →
        c ∈ (s.processPool order).calls := by
  have hperm := order.2 s.doneInvocations
  have hnodup : (order.1 s.doneInvocations).Nodup :=
    hperm.nodup_iff.mpr (h.pool_nodup.filter _)
  have hmem : ∀ c, c ∈ order.1 s.doneInvocations ↔
      c ∈ s.invocationContextPool ∧ c ∈ s.workDone := by
    intro c
    rw [hperm.mem_iff, doneInvocations, List.mem_filter, decide_eq_true_iff]
  have hall : ∀ c ∈ order.1 s.doneInvocations, Closes (s.runtime.contexts c) :=
    fun c hc => hcloses c (hperm.mem_iff.mp hc)
  -- no close raises, so that every context of the snapshot is called
  have hcalls := calls_processDone hnodup hall
  have hcalled : ∀ c, c ∈ (s.processPool order).calls ↔
      c ∈ s.calls ∨ c ∈ order.1 s.doneInvocations := by
    intro c
    rw [EventWorkMonitor.processPool, hcalls, List.mem_append]
  have hform := processDone_of_closes hnodup hall
  -- what was called leaves the pool, and nothing else does
  have hpool : ∀ c, c ∈ (s.processPool order).invocationContextPool ↔
      c ∈ s.invocationContextPool ∧ c ∉ order.1 s.doneInvocations := by
    intro c
    rw [EventWorkMonitor.processPool, hform]
    exact h.pool_nodup.mem_sdiff_iff
  have harrived : (s.processPool order).arrived = s.arrived := by
    rw [EventWorkMonitor.processPool, hform]
  have hworkDone : (s.processPool order).workDone = s.workDone := by
    rw [EventWorkMonitor.processPool, hform]
  refine ⟨⟨⟨?_, ?_, ?_, ?_⟩, ?_, ?_, ?_, ?_⟩, ?_⟩
  · intro e
    rw [EventWorkMonitor.processPool, hform]
    exact h.reaping.goes_on e
  · rw [EventWorkMonitor.processPool, hcalls, List.nodup_append]
    refine ⟨h.reaping.once, hnodup, ?_⟩
    rintro c hc d hd rfl
    exact h.pool_not_called c ((hmem c).mp hd).1 hc
  · intro c hc
    rw [hworkDone]
    rcases (hcalled c).mp hc with hc | hc
    · exact h.reaping.not_before c hc
    · exact ((hmem c).mp hc).2
  · intro c executor hc
    rw [harrived] at hc
    have hreturned := returnedOf_processDone hnodup hall c
    rw [EventWorkMonitor.processPool, hreturned, h.reaping.returned c executor hc, hcalls]
    -- called before, or now, or neither
    by_cases hbefore : c ∈ s.calls
    · have hnow : c ∉ order.1 s.doneInvocations := fun hin =>
        h.pool_not_called c ((hmem c).mp hin).1 hbefore
      rw [if_pos hbefore, if_neg hnow, if_pos (List.mem_append_left _ hbefore), List.append_nil]
    · rw [if_neg hbefore, List.nil_append, h.executor c executor hc hbefore]
      by_cases hnow : c ∈ order.1 s.doneInvocations
      · rw [if_pos hnow, if_pos (List.mem_append_right _ hnow)]
        rfl
      · rw [if_neg hnow, if_neg]
        rw [List.mem_append, not_or]
        exact ⟨hbefore, hnow⟩
  · rw [EventWorkMonitor.processPool, hform]
    exact h.pool_nodup.diff
  · intro c hc hcall
    obtain ⟨hin, hnot⟩ := (hpool c).mp hc
    rcases (hcalled c).mp hcall with hbefore | hnow
    · exact h.pool_not_called c hin hbefore
    · exact hnot hnow
  · intro c executor hc
    rw [harrived] at hc
    rw [hpool, hcalled]
    rcases h.arrived c executor hc with hin | hbefore
    · by_cases hnow : c ∈ order.1 s.doneInvocations
      · exact .inr (.inr hnow)
      · exact .inl ⟨hin, hnow⟩
    · exact .inr (.inl hbefore)
  · intro c executor hc hnot
    rw [harrived] at hc
    rw [hcalled, not_or] at hnot
    rw [EventWorkMonitor.processPool, hform]
    exact (congrArg SessionInvocationContext.ownExecutor
      (closeWork_contexts_of_not_mem hnot.2 s.runtime)).trans (h.executor c executor hc hnot.1)
  · intro c executor hc hset
    rw [harrived] at hc
    rw [hcalled, hmem]
    rcases h.arrived c executor hc with hin | hbefore
    · exact .inr ⟨hin, hset⟩
    · exact .inl hbefore

/-! ## Steps -/

theorem Inv.addResource {s : EventWorkMonitor} (h : s.Inv) (c : ℕ)
    (resource : LingeringResource) : (exec (.addResource c resource) s).Inv := by
  have hsame : ∀ d, ((exec (.addResource c resource) s).runtime.contexts d).ownExecutor =
      (s.runtime.contexts d).ownExecutor := by
    intro d
    have hadded : (exec (.addResource c resource) s).runtime = s.runtime.update c fun context =>
        { context with resources := context.resources ++ [resource] } := by
      rw [EventWorkMonitor.exec, Sessions.addResource, run_readContext_bind, Flow.run_emit_bind]
      rfl
    rw [hadded]
    by_cases hd : d = c
    · subst hd
      rw [Runtime.update_contexts_self]
      rfl
    · rw [Runtime.update_contexts_of_ne s.runtime hd]
  exact ⟨⟨h.reaping.goes_on, h.reaping.once, h.reaping.not_before, h.reaping.returned⟩,
    h.pool_nodup, h.pool_not_called, h.arrived,
    fun d executor hd hnot => (hsame d).trans (h.executor d executor hd hnot)⟩

theorem Inv.workDone {s : EventWorkMonitor} (h : s.Inv) (c : ℕ) :
    (exec (.workDone c) s).Inv :=
  ⟨⟨h.reaping.goes_on, h.reaping.once,
    fun d hd => List.mem_cons_of_mem c (h.reaping.not_before d hd), h.reaping.returned⟩,
    h.pool_nodup, h.pool_not_called, h.arrived, h.executor⟩

/-- Taking an item adds its context, and nothing else. -/
theorem takeItem_cases {queuedItem : QueuedItem} {s taken : EventWorkMonitor}
    (h : s.takeItem queuedItem = some taken) :
    taken = s ∨ ∃ c, queuedItem = .context c ∧ taken = s.add c := by
  cases queuedItem with
  | empty closed =>
      cases closed with
      | true => cases h
      | false => exact .inl (Option.some.inj h).symm
  | shutDown => cases h
  | finalItem => cases h
  | context c => exact .inr ⟨c, rfl, (Option.some.inj h).symm⟩

theorem takeItem_runtime {queuedItem : QueuedItem} {s taken : EventWorkMonitor}
    (h : s.takeItem queuedItem = some taken) :
    taken.runtime = s.runtime ∧ taken.workDone = s.workDone ∧ taken.calls = s.calls := by
  rcases takeItem_cases h with rfl | ⟨c, -, rfl⟩
  · exact ⟨rfl, rfl, rfl⟩
  · exact ⟨rfl, rfl, rfl⟩

/-- A round of a sound run. -/
theorem Inv.round {s : EventWorkMonitor} (h : s.Inv) {queuedItem : QueuedItem}
    {order : SetOrder} (hsound : Sound (.round queuedItem order) s) :
    (s.round queuedItem order).Inv ∧
      ((s.round queuedItem order).status = .running → ∀ c executor,
        (c, executor) ∈ (s.round queuedItem order).arrived → c ∈ s.workDone →
          c ∈ (s.round queuedItem order).calls) := by
  unfold EventWorkMonitor.round
  cases hstatus : s.status with
  | returned => exact ⟨h, fun hrunning => by rw [hstatus] at hrunning; cases hrunning⟩
  | raised e => exact absurd hstatus (h.reaping.goes_on e)
  | running =>
      cases htaken : s.takeItem queuedItem with
      | none =>
          refine ⟨⟨⟨?_, h.reaping.once, h.reaping.not_before, h.reaping.returned⟩,
            h.pool_nodup, h.pool_not_called, h.arrived, h.executor⟩, ?_⟩
          · intro e he
            cases he
          · intro hrunning
            cases hrunning
      | some taken =>
          obtain ⟨hnew, hcloses⟩ := hsound hstatus taken htaken
          obtain ⟨hruntime, hworkDone, -⟩ := takeItem_runtime htaken
          have hinv : taken.Inv := by
            rcases takeItem_cases htaken with rfl | ⟨c, hitem, rfl⟩
            · exact h
            · exact h.add (hnew c hitem)
          rw [← hruntime] at hcloses
          obtain ⟨hafter, hseen⟩ := hinv.processPool order hcloses
          rw [hworkDone] at hseen
          exact ⟨hafter, fun _ => hseen⟩

/-- A round that is not sound ends the thread, or closes a context twice. -/
theorem not_reaping_round {s : EventWorkMonitor} (h : s.Inv) {queuedItem : QueuedItem}
    {order : SetOrder} (hsound : ¬ Sound (.round queuedItem order) s) :
    ¬ (s.round queuedItem order).Reaping := by
  intro hreaping
  apply hsound
  intro hstatus taken htaken
  obtain ⟨hruntime, hworkDone, hcalls⟩ := takeItem_runtime htaken
  have hround : s.round queuedItem order = taken.processPool order := by
    unfold EventWorkMonitor.round
    simp only [hstatus, htaken]
  rw [hround] at hreaping
  have hperm := order.2 taken.doneInvocations
  have hpool : taken.invocationContextPool.Nodup := by
    rcases takeItem_cases htaken with rfl | ⟨c, -, rfl⟩
    · exact h.pool_nodup
    · exact nodup_add h.pool_nodup c
  have hnodup : (order.1 taken.doneInvocations).Nodup :=
    hperm.nodup_iff.mpr (hpool.filter _)
  have hcloses : ∀ c ∈ taken.doneInvocations, Closes (taken.runtime.contexts c) := by
    intro c hc
    by_contra hnot
    obtain ⟨e, he⟩ := processDone_raises hnodup ⟨c, hperm.mem_iff.mpr hc, hnot⟩
    exact hreaping.goes_on e he
  refine ⟨?_, hruntime ▸ hcloses⟩
  rintro c rfl hbefore
  -- a context that was done is done again, as its event is set
  obtain rfl : s.add c = taken := Option.some.inj htaken
  have hset : c ∈ s.workDone := h.reaping.not_before c hbefore
  have hin : c ∈ (s.add c).doneInvocations := by
    rw [doneInvocations, List.mem_filter, decide_eq_true_iff]
    exact ⟨mem_add.mpr (.inr rfl), hset⟩
  have honce := hreaping.once
  rw [EventWorkMonitor.processPool,
    calls_processDone hnodup fun d hd => hcloses d (hperm.mem_iff.mp hd),
    List.nodup_append] at honce
  exact honce.2.2 c (hcalls ▸ hbefore) c (hperm.mem_iff.mpr hin) rfl

theorem Inv.reaps_iff {s : EventWorkMonitor} (h : s.Inv) (step : Step) :
    Reaps step s ↔ Sound step s := by
  cases step with
  | addResource c resource =>
      exact ⟨fun _ => trivial, fun _ => ⟨(h.addResource c resource).reaping, trivial⟩⟩
  | workDone c => exact ⟨fun _ => trivial, fun _ => ⟨(h.workDone c).reaping, trivial⟩⟩
  | round queuedItem order =>
      constructor
      · intro hreaps
        by_contra hsound
        exact not_reaping_round h hsound hreaps.1
      · intro hsound
        obtain ⟨hafter, hseen⟩ := h.round hsound
        exact ⟨hafter.reaping, hseen⟩

theorem Inv.exec {s : EventWorkMonitor} (h : s.Inv) (step : Step) (hreaps : Reaps step s) :
    (exec step s).Inv := by
  cases step with
  | addResource c resource => exact h.addResource c resource
  | workDone c => exact h.workDone c
  | round queuedItem order => exact (h.round ((h.reaps_iff _).mp hreaps)).1

/-- A run reaps every context, once, and goes on until it is told to stop, exactly when in
every round the contexts that are done can be closed and none comes back. -/
theorem reaps_all_iff (runtime : Runtime) (workDone : List ℕ) (steps : List Step) :
    Runs.AllOk EventWorkMonitor.exec Reaps (initial runtime workDone) steps ↔
      Runs.AllOk EventWorkMonitor.exec Sound (initial runtime workDone) steps :=
  Runs.allOk_congr (inv_initial runtime workDone) (fun step _ h hreaps => h.exec step hreaps)
    (fun step _ h => h.reaps_iff step) steps

/-! ## A context that raises -/

/-- Two contexts, each with an executor; closing the resource of the first raises. -/
def twoContexts : Runtime where
  contexts c :=
    { asyncioExecutor := some c
      hasQueue := false
      resources := if c = 0 then [⟨0, none, some .otherException⟩] else []
      reservationist := none
      effectiveInvocation := Base.str "event"
      hasEventWorkQueue := true
      requestFinished := true
      cloned := false
      exchange := 0 }
  created := 2
  executors := 2
  pending := []
  eventWork := []
  closeOfWorkNow := false
  generatorOpen := false

/-- Both arrive, and both events are set, that of the second later. -/
def secondLater : List Step :=
  [.round (.context 0) ⟨id, fun l => .refl l⟩, .round (.context 1) ⟨id, fun l => .refl l⟩,
    .workDone 0, .round (.empty false) ⟨id, fun l => .refl l⟩,
    .workDone 1, .round (.empty false) ⟨id, fun l => .refl l⟩]

/-- The first ends the thread; the second is never closed. -/
theorem secondLater_not_reaped :
    ¬ ∀ (runtime : Runtime) (workDone : List ℕ) (steps : List Step),
      Runs.AllOk EventWorkMonitor.exec Reaps (initial runtime workDone) steps := by
  intro h
  have hthird := (h twoContexts [] secondLater).2.2.2.1
  exact hthird.1.goes_on .otherException rfl

end EventWorkMonitor

end NoraFleet.Watcher
