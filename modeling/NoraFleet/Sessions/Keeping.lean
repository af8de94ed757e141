import Mathlib.Data.List.Count
import NoraFleet.Sessions.Ledger

/-!
# The ledgers during a call

What each piece of finishing a request does to the ledgers. `Keeping inflight
returning` holds while a call has still to run the tasks `inflight` and to return
the executors of the contexts `returning`: a coroutine that is awaited runs now,
and one that becomes a task is still owed.

* `keeping_task` — a task that runs;
* `keeping_runInExecutor` — a coroutine that is awaited or becomes a task;
* `keeping_returnExecutor` — the executor goes back;
* `keeping_finishRequest`, `keeping_doneWithWork` — the two calls.
-/

namespace NoraFleet.Sessions

open Base Flow

/-- The ledgers, while a call has these tasks to run and these executors to return. -/
def Keeping (inflight : List Task) (returning : List Nat) (runtime : Runtime)
    (log : List Effect) : Prop := Kept ⟨runtime, inflight ++ runtime.pending, returning, log⟩

namespace Account

theorem count_task_cons {task other : Task} (h : other.context ≠ task.context)
    (tasks : List Task) : (task :: tasks).count other = tasks.count other := by
  refine List.count_cons_of_ne fun he => h ?_
  rw [he]

end Account

/-- The dues of the other contexts, when a task of a context is gone and its
attributes have changed. -/
theorem dues_of_update {runtime : Runtime} {task : Task} {tasks : List Task}
    {returning returning' : List Nat} {log log' : List Effect} {c d : Nat} (hd : d ≠ c)
    (htask : task.context = c) (hreturning : returning'.count d = returning.count d)
    (f : SessionInvocationContext → SessionInvocationContext) :
    let a : Account := ⟨runtime, task :: tasks, returning, log⟩
    let b : Account := ⟨runtime.update c f, tasks, returning', log'⟩
    b.requestDue d = a.requestDue d ∧ b.workDue d = a.workDue d ∧
      b.returnDue d = a.returnDue d := by
  have hcontext : (runtime.update c f).contexts d = runtime.contexts d :=
    Runtime.update_contexts_of_ne runtime hd f
  have hcount : ∀ other : Task, other.context = d →
      (task :: tasks).count other = tasks.count other := by
    intro other hother
    exact Account.count_task_cons (by rw [hother, htask]; exact hd) tasks
  have hrequest := hcount (.closeOfRequest d) rfl
  have hqueue := hcount (.queueWork d .queued) rfl
  have hwork := hcount (.closeOfWork d) rfl
  simp only [Account.requestDue, Account.workDue, Account.returnDue, Account.finishDue,
    Account.eventDue, Account.context, hcontext, hrequest, hqueue, hwork, hreturning]
  exact ⟨rfl, rfl, rfl⟩

/-- The dues of the context itself: those of the task are gone. -/
theorem dues_of_task {runtime : Runtime} (task : Task) (tasks : List Task) (returning : List Nat)
    (log log' : List Effect) {c : Nat} {f : SessionInvocationContext → SessionInvocationContext}
    (hfinished : (f (runtime.contexts c)).requestFinished =
      (runtime.contexts c).requestFinished) :
    let a : Account := ⟨runtime, task :: tasks, returning, log⟩
    let b : Account := ⟨runtime.update c f, tasks, returning, log'⟩
    a.requestDue c = b.requestDue c + [task].count (.closeOfRequest c) ∧
      a.workDue c = b.workDue c + [task].count (.queueWork c .queued) +
        [task].count (.closeOfWork c) ∧
      a.returnDue c = b.returnDue c + [task].count (.queueWork c .queued) := by
  intro a b
  have hfinish : b.finishDue c = a.finishDue c := by
    refine Account.finishDue_eq ?_
    show ((runtime.update c f).contexts c).requestFinished = (runtime.contexts c).requestFinished
    rw [Runtime.update_contexts_self]
    exact hfinished
  have hcons : ∀ other : Task, (task :: tasks).count other =
      tasks.count other + [task].count other := by
    intro other
    rw [← List.singleton_append, List.count_append, Nat.add_comm]
  have heventWork : (runtime.update c f).eventWork = runtime.eventWork := rfl
  simp only [Account.requestDue, Account.workDue, Account.returnDue, Account.eventDue,
    hfinish, a, b,
    hcons, heventWork]
  omega

/-! ## Counting what closing logs -/

theorem count_closed {closed : Nat → Nat → Effect}
    (hinjective : ∀ k r k' r', closed k r = closed k' r' ↔ k = k' ∧ r = r') (ids : List Nat)
    (k k' r : Nat) :
    (ids.map (closed k')).count (closed k r) = if k = k' then ids.count r else 0 := by
  by_cases hk : k = k'
  · subst hk
    rw [if_pos rfl]
    exact List.count_map_of_injective ids (closed k)
      (fun r r' h => ((hinjective k r k r').mp h).2) r
  · rw [if_neg hk, List.count_eq_zero]
    intro hmem
    obtain ⟨r', -, h⟩ := List.mem_map.mp hmem
    exact hk ((hinjective k' r' k r).mp h).1.symm

namespace SessionInvocationContext

variable {context : SessionInvocationContext}

theorem Quiet.count_closedOfRequest (h : context.Quiet) (c k r : Nat) :
    (Sessions.closeOfRequestEffects c context).count (.closedOfRequest c k r) =
      if k = context.exchange then context.ids.count r else 0 := by
  have hqueue : (if context.hasQueue then [Effect.queueClosed c context.exchange] else []).count
      (.closedOfRequest c k r) = 0 := by
    split
    · rfl
    · rfl
  rw [h.closeOfRequestEffects, List.count_append, hqueue, Nat.zero_add]
  exact count_closed (by simp) ..

theorem Quiet.by_closeOfRequestEffects (h : context.Quiet) (c : Nat) :
    ∀ effect ∈ Sessions.closeOfRequestEffects c context,
      effect = .queueClosed c context.exchange ∨
        ∃ r, effect = .closedOfRequest c context.exchange r := by
  intro effect hmem
  rw [h.closeOfRequestEffects, List.mem_append] at hmem
  rcases hmem with hqueue | hclosed
  · split at hqueue
    · exact .inl (List.mem_singleton.mp hqueue)
    · exact absurd hqueue List.not_mem_nil
  · obtain ⟨r, -, hr⟩ := List.mem_map.mp hclosed
    exact .inr ⟨r, hr.symm⟩

theorem Quiet.count_closedOfWork (h : context.Quiet) (c k r : Nat) :
    (Sessions.closeOfWorkEffects c context).count (.closedOfWork c k r) =
      if k = context.exchange then context.ids.count r else 0 := by
  have hended : (if context.finalItem = some none then [Effect.reservationsEnded] else []).count
      (.closedOfWork c k r) = 0 := by
    split
    · rfl
    · rfl
  rw [h.closeOfWorkEffects, List.count_append, hended, Nat.add_zero]
  exact count_closed (by simp) ..

theorem Quiet.by_closeOfWorkEffects (h : context.Quiet) (c : Nat) :
    ∀ effect ∈ Sessions.closeOfWorkEffects c context,
      effect = .reservationsEnded ∨ ∃ r, effect = .closedOfWork c context.exchange r := by
  intro effect hmem
  rw [h.closeOfWorkEffects, List.mem_append] at hmem
  rcases hmem with hclosed | hended
  · obtain ⟨r, -, hr⟩ := List.mem_map.mp hclosed
    exact .inr ⟨r, hr.symm⟩
  · split at hended
    · exact .inl (List.mem_singleton.mp hended)
    · exact absurd hended List.not_mem_nil

end SessionInvocationContext

/-! ## Tasks -/

/-- A task that changes attributes of its context, and logs effects of that. -/
theorem worksOn_task {runtime : Runtime} {task : Task} {tasks : List Task} {returning : List Nat}
    {log events : List Effect} {c : Nat} (htask : task.context = c)
    {f : SessionInvocationContext → SessionInvocationContext}
    (hsame : (f (runtime.contexts c)).Same (runtime.contexts c))
    (hfinished : (f (runtime.contexts c)).requestFinished = (runtime.contexts c).requestFinished)
    (hby : ∀ effect ∈ events, effect.By c) :
    WorksOn c ⟨runtime, task :: tasks, returning, log⟩
      ⟨runtime.update c f, tasks, returning, log ++ events⟩ events where
  created := rfl
  executors := rfl
  contexts := fun d hd => Runtime.update_contexts_of_ne runtime hd f
  dues := fun d hd => dues_of_update hd htask rfl f
  tasks := fun task htask => .inl (List.mem_cons_of_mem _ htask)
  eventWork := fun d hd => .inl hd
  returning := fun d hd => .inl hd
  log := rfl
  events := fun effect hmem => .inl (hby effect hmem)
  clone := by
    have hcontext : (runtime.update c f).contexts c = f (runtime.contexts c) :=
      Runtime.update_contexts_self ..
    intro hcloned
    simp only [Account.context, hcontext] at hcloned ⊢
    exact ⟨hsame.cloned ▸ hcloned, hsame.executor⟩
  settled := by
    obtain ⟨hrequest, hwork, -⟩ := dues_of_task task tasks returning log (log ++ events)
      hfinished
    rintro ⟨hrequest', hwork'⟩
    rw [hrequest] at hrequest'
    rw [hwork] at hwork'
    exact ⟨by omega, by omega⟩
  returns := by
    intro e hreturns
    refine .inl (hreturns.imp ?_ ?_)
    · intro hmem
      refine (List.mem_append.mp hmem).resolve_right fun hnew => ?_
      exact hby _ hnew
    · rintro ⟨d, hd, hown⟩
      refine ⟨d, hd, ?_⟩
      by_cases hdc : d = c
      · subst hdc
        have hcontext : (runtime.update d f).contexts d = f (runtime.contexts d) :=
          Runtime.update_contexts_self ..
        simp only [Account.context, hcontext, SessionInvocationContext.ownExecutor,
          hsame.cloned, hsame.executor] at hown ⊢
        exact hown
      · have hcontext : (runtime.update c f).contexts d = runtime.contexts d :=
          Runtime.update_contexts_of_ne runtime hdc f
        simp only [Account.context, hcontext] at hown ⊢
        exact hown

theorem same_withoutQueue (context : SessionInvocationContext) :
    context.withoutQueue.Same context :=
  ⟨rfl, rfl, rfl, rfl, fun h => ⟨h.resources, h.reservationist⟩⟩

/-- Closing the request, once. -/
theorem keeping_closeOfRequest (c : Nat) (inflight : List Task) (returning : List Nat) :
    Establishes (Keeping (.closeOfRequest c :: inflight) returning) (closeOfRequest c)
      fun _ => Keeping inflight returning := by
  refine Establishes.of_run fun runtime log hkeeping => ?_
  have h : Kept ⟨runtime, .closeOfRequest c :: (inflight ++ runtime.pending), returning, log⟩ :=
    hkeeping
  have hc : c < runtime.created := h.tasks _ List.mem_cons_self
  have hledger := h.ledger c hc
  have hquiet : (runtime.contexts c).Quiet := hledger.quiet
  -- no close raises, so that all of them are called
  have hraised : (runtime.contexts c).resources.findSome? LingeringResource.closeOfRequest = none :=
    hquiet.requestRaised
  refine ⟨(), _, _, (run_closeOfRequest c runtime).trans (by rw [hraised]; rfl), ?_⟩
  have hby := hquiet.by_closeOfRequestEffects c
  have hcontext : (runtime.update c SessionInvocationContext.withoutQueue).contexts c =
      (runtime.contexts c).withoutQueue := Runtime.update_contexts_self ..
  have hnot : ∀ effect : Effect, effect ∈ closeOfRequestEffects c (runtime.contexts c) →
      (∀ k, effect ≠ .queueClosed c k) → (∀ k r, effect ≠ .closedOfRequest c k r) → False := by
    intro effect hmem hqueue hclosed
    rcases hby effect hmem with h | ⟨r, h⟩
    · exact hqueue _ h
    · exact hclosed _ r h
  have hsame := same_withoutQueue (runtime.contexts c)
  have hfinished : (runtime.contexts c).withoutQueue.requestFinished =
      (runtime.contexts c).requestFinished := rfl
  -- only the accounts of this context change
  refine h.worksOn hc (worksOn_task (c := c) rfl hsame hfinished fun effect hmem => ?_) ?_
  · rcases hby effect hmem with rfl | ⟨r, rfl⟩
    · rfl
    · rfl
  have hadded : ∀ k r, .added c k r ∉ closeOfRequestEffects c (runtime.contexts c) :=
    fun k r hmem => hnot _ hmem (by simp) (by simp)
  obtain ⟨hrequest, hwork, hreturn⟩ := dues_of_task (.closeOfRequest c)
    (inflight ++ runtime.pending) returning log
    (log ++ closeOfRequestEffects c (runtime.contexts c)) hfinished
  simp only [List.count_singleton_self] at hrequest
  show Ledger ⟨runtime.update c _, inflight ++ runtime.pending, returning, log ++ _⟩ c
  have hsame' : ((runtime.update c SessionInvocationContext.withoutQueue).contexts c).Same
      (runtime.contexts c) := hcontext ▸ hsame
  have hfinished' : ((runtime.update c SessionInvocationContext.withoutQueue).contexts
      c).requestFinished = (runtime.contexts c).requestFinished := hcontext ▸ hfinished
  constructor
  · exact hledger.toOwned.frame hsame' hreturn.symm rfl
      (fun k e hmem => hnot _ hmem (by simp) (by simp)) hadded
      fun e _ hmem => hnot _ hmem (by simp) (by simp)
  · exact hledger.called.frame hfinished' hsame'.exchange rfl
      fun k hmem => hnot _ hmem (by simp) (by simp)
  · -- it was due, and is not any more
    rcases hledger.request with ⟨hdue, hqueue, hnone⟩ | ⟨hdue, -, -⟩
    · refine .inr ⟨by omega, ?_, fun k r => ?_⟩
      · refine List.mem_append_right _ ?_
        have hexchange : ((runtime.update c SessionInvocationContext.withoutQueue).contexts
            c).exchange = (runtime.contexts c).exchange := hsame'.exchange
        have hopen : (runtime.contexts c).hasQueue = true := hqueue
        show Effect.queueClosed c ((runtime.update c _).contexts c).exchange ∈ _
        rw [hexchange, hquiet.closeOfRequestEffects, hopen]
        exact List.mem_append_left _ List.mem_cons_self
      · show (log ++ _).count _ = (log ++ _).count _
        have hzero : log.count (.closedOfRequest c k r) = 0 := List.count_eq_zero.mpr (hnone k r)
        have hsum : log.count (.added c k r) = _ := hledger.added k r
        rw [List.count_append, List.count_append, hzero, hquiet.count_closedOfRequest, hsum,
          List.count_eq_zero.mpr (hadded k r), Nat.zero_add, Nat.add_zero]
        rfl
    · omega
  · exact hledger.work.frame hwork.symm rfl hadded
      fun k r hmem => hnot _ hmem (by simp) (by simp)

theorem same_withWorkClosed (context : SessionInvocationContext) :
    context.withWorkClosed.Same context := by
  unfold SessionInvocationContext.withWorkClosed SessionInvocationContext.withReservationsEnded
  split
  · split
    · exact .refl context
    · rename_i reservationist hown
      refine ⟨rfl, rfl, rfl, rfl, fun h => ⟨h.resources, ?_⟩⟩
      intro r hr
      obtain rfl : { reservationist with lastItemSent := true } = r := Option.some.inj hr
      have hsome : context.reservationist = some reservationist := by
        unfold SessionInvocationContext.ownReservationist at hown
        split at hown
        · cases hown
        · exact hown
      exact h.reservationist reservationist hsome
  · exact .refl context

theorem requestFinished_withWorkClosed (context : SessionInvocationContext) :
    context.withWorkClosed.requestFinished = context.requestFinished := by
  unfold SessionInvocationContext.withWorkClosed SessionInvocationContext.withReservationsEnded
  split
  · split
    · rfl
    · rfl
  · rfl

theorem hasQueue_withWorkClosed (context : SessionInvocationContext) :
    context.withWorkClosed.hasQueue = context.hasQueue := by
  unfold SessionInvocationContext.withWorkClosed SessionInvocationContext.withReservationsEnded
  split
  · split
    · rfl
    · rfl
  · rfl

/-- Closing the work, once. -/
theorem keeping_closeOfWork (c : Nat) (inflight : List Task) (returning : List Nat) :
    Establishes (Keeping (.closeOfWork c :: inflight) returning) (closeOfWork c)
      fun _ => Keeping inflight returning := by
  refine Establishes.of_run fun runtime log hkeeping => ?_
  have h : Kept ⟨runtime, .closeOfWork c :: (inflight ++ runtime.pending), returning, log⟩ :=
    hkeeping
  have hc : c < runtime.created := h.tasks _ List.mem_cons_self
  have hledger := h.ledger c hc
  have hquiet : (runtime.contexts c).Quiet := hledger.quiet
  refine ⟨(), _, _, (run_closeOfWork c runtime).trans (by rw [hquiet.workRaised]; rfl), ?_⟩
  have hby := hquiet.by_closeOfWorkEffects c
  have hnot : ∀ effect : Effect, effect ∈ closeOfWorkEffects c (runtime.contexts c) →
      effect ≠ .reservationsEnded → (∀ k r, effect ≠ .closedOfWork c k r) → False := by
    intro effect hmem hended hclosed
    rcases hby effect hmem with h | ⟨r, h⟩
    · exact hended h
    · exact hclosed _ r h
  have hsame := same_withWorkClosed (runtime.contexts c)
  have hfinished := requestFinished_withWorkClosed (runtime.contexts c)
  refine h.worksOn hc (worksOn_task (c := c) rfl hsame hfinished fun effect hmem => ?_) ?_
  · rcases hby effect hmem with rfl | ⟨r, rfl⟩
    · trivial
    · rfl
  have hadded : ∀ k r, .added c k r ∉ closeOfWorkEffects c (runtime.contexts c) :=
    fun k r hmem => hnot _ hmem (by simp) (by simp)
  obtain ⟨hrequest, hwork, hreturn⟩ := dues_of_task (.closeOfWork c)
    (inflight ++ runtime.pending) returning log
    (log ++ closeOfWorkEffects c (runtime.contexts c)) hfinished
  simp only [List.count_singleton_self] at hwork
  show Ledger ⟨runtime.update c _, inflight ++ runtime.pending, returning, log ++ _⟩ c
  have hcontext : (runtime.update c SessionInvocationContext.withWorkClosed).contexts c =
      (runtime.contexts c).withWorkClosed := Runtime.update_contexts_self ..
  have hsame' : ((runtime.update c SessionInvocationContext.withWorkClosed).contexts c).Same
      (runtime.contexts c) := hcontext ▸ hsame
  have hfinished' : ((runtime.update c SessionInvocationContext.withWorkClosed).contexts
      c).requestFinished = (runtime.contexts c).requestFinished := hcontext ▸ hfinished
  have hqueue : ((runtime.update c SessionInvocationContext.withWorkClosed).contexts c).hasQueue =
      (runtime.contexts c).hasQueue := by
    rw [hcontext]
    exact hasQueue_withWorkClosed _
  constructor
  · exact hledger.toOwned.frame hsame' hreturn.symm rfl
      (fun k e hmem => hnot _ hmem (by simp) (by simp)) hadded
      fun e _ hmem => hnot _ hmem (by simp) (by simp)
  · exact hledger.called.frame hfinished' hsame'.exchange rfl
      fun k hmem => hnot _ hmem (by simp) (by simp)
  · exact hledger.request.frame hrequest.symm hqueue hsame'.exchange rfl hadded
      fun k r hmem => hnot _ hmem (by simp) (by simp)
  · rcases hledger.work with ⟨hdue, hnone⟩ | ⟨hdue, -⟩
    · refine .inr ⟨by omega, fun k r => ?_⟩
      show (log ++ _).count _ = (log ++ _).count _
      have hzero : log.count (.closedOfWork c k r) = 0 := List.count_eq_zero.mpr (hnone k r)
      have hsum : log.count (.added c k r) = _ := hledger.added k r
      rw [List.count_append, List.count_append, hzero, hquiet.count_closedOfWork, hsum,
        List.count_eq_zero.mpr (hadded k r), Nat.zero_add, Nat.add_zero]
      rfl
    · omega

/-- Handing the work over to the event work monitor. -/
theorem keeping_queueWork (c : Nat) (handOver : HandOver) (inflight : List Task)
    (returning : List Nat) :
    Establishes (Keeping (.queueWork c handOver :: inflight) returning) (queueWork c handOver)
      fun _ => Keeping inflight returning := by
  refine Establishes.of_run fun runtime log hkeeping => ?_
  have h : Kept ⟨runtime, .queueWork c handOver :: (inflight ++ runtime.pending), returning, log⟩ :=
    hkeeping
  have hc : c < runtime.created := h.tasks _ List.mem_cons_self
  obtain rfl := h.queued c handOver List.mem_cons_self
  refine ⟨(), [], _, run_queueWork c .queued runtime, ?_⟩
  rw [List.append_nil]
  -- one entry of the monitor for one task
  have hqueue : ∀ d, (inflight ++ runtime.pending).count (.queueWork d .queued) +
      (runtime.eventWork ++ [c]).count d =
      (Task.queueWork c .queued :: (inflight ++ runtime.pending)).count (.queueWork d .queued) +
        runtime.eventWork.count d := by
    intro d
    have happend : (runtime.eventWork ++ [c]).count d =
        runtime.eventWork.count d + [c].count d := List.count_append
    rw [happend]
    by_cases hd : c = d
    · subst hd
      rw [List.count_singleton_self, List.count_cons_self]
      omega
    · have hnone : [c].count d = 0 := List.count_eq_zero.mpr (by simp [Ne.symm hd])
      have hsame : (Task.queueWork c .queued :: (inflight ++ runtime.pending)).count
          (.queueWork d .queued) = (inflight ++ runtime.pending).count (.queueWork d .queued) :=
        List.count_cons_of_ne (by simp [hd])
      rw [hnone, hsame, Nat.add_zero]
  have hother : ∀ other : Task, .queueWork c .queued ≠ other →
      (Task.queueWork c .queued :: (inflight ++ runtime.pending)).count other =
        (inflight ++ runtime.pending).count other := fun other h => List.count_cons_of_ne h
  refine h.moves ⟨rfl, rfl, rfl, rfl, fun d => ?_, fun d => ?_, fun d => ?_,
    fun task htask => ?_, fun d hd => ?_, h.returning, fun e hreturns => .inl hreturns⟩
  · simp only [Account.requestDue, hother (.closeOfRequest d) (by simp)]
    rfl
  · simp only [Account.workDue, Account.eventDue, hother (.closeOfWork d) (by simp)]
    exact congrArg (_ + · + _) (hqueue d)
  · simp only [Account.returnDue, Account.eventDue]
    exact congrArg (_ + · + _) (hqueue d)
  · refine ⟨h.tasks task (List.mem_cons_of_mem _ htask), fun d handOver heq => ?_⟩
    subst heq
    exact h.queued d handOver (List.mem_cons_of_mem _ htask)
  · rcases List.mem_append.mp hd with hd | hd
    · exact h.eventWork d hd
    · rw [List.mem_singleton.mp hd]
      exact hc

/-- A task that runs. -/
theorem keeping_task (task : Task) (inflight : List Task) (returning : List Nat) :
    Establishes (Keeping (task :: inflight) returning) task.run
      fun _ => Keeping inflight returning := by
  cases task with
  | closeOfRequest c => exact keeping_closeOfRequest c inflight returning
  | queueWork c handOver => exact keeping_queueWork c handOver inflight returning
  | closeOfWork c => exact keeping_closeOfWork c inflight returning

/-! ## The calls -/

/-- A context whose executor is still to be returned has one, and so has a clone. -/
theorem Kept.executor {a : Account} {c : Nat} (h : Kept a) (hc : c < a.runtime.created)
    (hdue : 0 < a.returnDue c) : (a.context c).asyncioExecutor.isSome := by
  have hledger := h.ledger c hc
  cases hcloned : (a.context c).cloned with
  | true => exact (hledger.clone hcloned).1
  | false =>
      obtain ⟨e, -, -, ⟨-, hexecutor, -⟩ | ⟨hnone, -, -⟩⟩ := hledger.root hcloned
      · rw [hexecutor]
        rfl
      · omega

/-- A coroutine that is awaited has run, and one that becomes a task still waits. -/
theorem keeping_runInExecutor (sameLoop : Bool) {task : Task} {c : Nat} (htask : task.context = c)
    {inflight : List Task} {returning : List Nat}
    (hdue : c ∈ returning ∨ .queueWork c .queued ∈ task :: inflight) :
    Establishes (Keeping (task :: inflight) returning) (runInExecutorUntilComplete sameLoop c task)
      fun _ => Keeping inflight returning := by
  intro runtime log h
  have hc : c < runtime.created := htask ▸ h.tasks task List.mem_cons_self
  have hsome : (runtime.contexts c).asyncioExecutor.isSome := by
    refine Kept.executor h hc ?_
    rcases hdue with hmem | hmem
    · have hpos := List.count_pos_iff.mpr hmem
      simp only [Account.returnDue]
      omega
    · have hpos := List.count_pos_iff.mpr (List.mem_append_left runtime.pending hmem)
      simp only [Account.returnDue, Account.eventDue]
      omega
  obtain ⟨hawaited, hsubmitted⟩ := run_runInExecutor hsome task
  cases sameLoop with
  | false =>
      rw [hawaited]
      exact keeping_task task inflight returning runtime log h
  | true =>
      rw [hsubmitted]
      refine ⟨(), rfl, ?_⟩
      rw [List.append_nil]
      refine Kept.perm h ?_ rfl rfl rfl rfl
      rw [← List.append_assoc]
      exact List.perm_append_singleton task _ |>.symm

/-- Without the executor, the context is the same otherwise. -/
theorem withoutExecutor_eq (context : SessionInvocationContext) :
    context.withoutExecutor =
      { context with
        asyncioExecutor := if context.cloned then context.asyncioExecutor else none } := by
  obtain ⟨executor, _, _, _, _, _, _, cloned, _⟩ := context
  cases cloned with
  | true => rfl
  | false =>
      cases executor with
      | none => rfl
      | some e => rfl

theorem ownExecutor_eq_some {context : SessionInvocationContext} {e : Nat} :
    context.ownExecutor = some e ↔ context.cloned = false ∧ context.asyncioExecutor = some e := by
  unfold SessionInvocationContext.ownExecutor
  cases context.cloned with
  | true => simp
  | false => simp

/-- The executor goes back, once. -/
theorem keeping_returnExecutor (c : Nat) :
    Establishes (Keeping [] [c]) (returnExecutor c) fun _ => Keeping [] [] := by
  refine Establishes.of_run fun runtime log hkeeping => ?_
  have h : Kept ⟨runtime, runtime.pending, [c], log⟩ := hkeeping
  have hc : c < runtime.created := h.returning c List.mem_cons_self
  have hledger := h.ledger c hc
  refine ⟨(), _, _, run_returnExecutor c runtime, ?_⟩
  generalize hevents : ((runtime.contexts c).ownExecutor.map Effect.returned).toList = events
  show Kept ⟨runtime.update c _, runtime.pending, [], log ++ events⟩
  have hcontext : (runtime.update c SessionInvocationContext.withoutExecutor).contexts c =
      { runtime.contexts c with
        asyncioExecutor := if (runtime.contexts c).cloned then (runtime.contexts c).asyncioExecutor
          else none } := by
    rw [Runtime.update_contexts_self, withoutExecutor_eq]
  have hothers : ∀ d, d ≠ c →
      (runtime.update c SessionInvocationContext.withoutExecutor).contexts d = runtime.contexts d :=
    fun d hd => Runtime.update_contexts_of_ne runtime hd _
  -- what is logged is the executor of a root
  have hown : ∀ effect ∈ events, ∃ e, effect = .returned e ∧
      (runtime.contexts c).ownExecutor = some e := by
    intro effect hmem
    rw [← hevents, Option.mem_toList, Option.map_eq_some_iff] at hmem
    obtain ⟨e, he, rfl⟩ := hmem
    exact ⟨e, rfl, he⟩
  have hnot : ∀ effect : Effect, (∀ e, effect ≠ .returned e) → effect ∉ events := by
    intro effect hne hmem
    obtain ⟨e, he, -⟩ := hown effect hmem
    exact hne e he
  have hroot : (runtime.contexts c).cloned = false → ∃ e, .obtained c 0 e ∈ log ∧
      (∀ k e', .obtained c k e' ∈ log → e' = e) ∧
        Account.returnDue ⟨runtime, runtime.pending, [c], log⟩ c = 1 ∧
          (runtime.contexts c).asyncioExecutor = some e ∧ .returned e ∉ log := by
    intro hcloned
    obtain ⟨e, hobtained, hunique, hreturns⟩ := hledger.root hcloned
    refine ⟨e, hobtained, hunique, hreturns.resolve_right fun hnone => ?_⟩
    have hzero := hnone.1
    simp only [Account.returnDue, List.count_singleton_self] at hzero
    omega
  have hfinish : ∀ d, Account.finishDue
      ⟨runtime.update c SessionInvocationContext.withoutExecutor, runtime.pending, [],
        log ++ events⟩ d = Account.finishDue ⟨runtime, runtime.pending, [c], log⟩ d := by
    intro d
    refine Account.finishDue_eq ?_
    show ((runtime.update c _).contexts d).requestFinished = (runtime.contexts d).requestFinished
    by_cases hd : d = c
    · rw [hd, hcontext]
    · rw [hothers d hd]
  refine h.worksOn hc (c := c) ⟨rfl, rfl, hothers, fun d hd => ?_, fun _ => .inl, fun _ => .inl,
    fun _ hmem => absurd hmem List.not_mem_nil, rfl, fun effect hmem => ?_, fun hcloned => ?_,
    fun hsettled => ?_, fun e hreturns => ?_⟩ ?_
  · have hnone : [c].count d = 0 := List.count_eq_zero.mpr (by simp [hd])
    refine ⟨?_, ?_, ?_⟩
    · simp only [Account.requestDue, hfinish]
    · simp only [Account.workDue, Account.eventDue, hfinish]
      rfl
    · simp only [Account.returnDue, Account.eventDue, hfinish, hnone, List.count_nil]
      rfl
  · obtain ⟨e, he, hown⟩ := hown effect hmem
    obtain ⟨hcloned, hexecutor⟩ := ownExecutor_eq_some.mp hown
    obtain ⟨e', hobtained, -, -, hexecutor', -⟩ := hroot hcloned
    obtain rfl : e' = e := Option.some.inj (hexecutor'.symm.trans hexecutor)
    exact .inr ⟨e', he, hobtained⟩
  · simp only [Account.context, hcontext] at hcloned ⊢
    exact ⟨hcloned, if_pos hcloned⟩
  · obtain ⟨hrequest, hwork⟩ := hsettled
    simp only [Account.Settled, Account.requestDue, Account.workDue, Account.eventDue, hfinish]
      at hrequest hwork ⊢
    exact ⟨hrequest, hwork⟩
  · rcases hreturns with hmem | hpending
    case inr =>
      obtain ⟨d, hd, -⟩ := hpending
      exact absurd hd List.not_mem_nil
    refine .inl ?_
    rcases List.mem_append.mp hmem with hold | hnew
    · exact .inl hold
    · obtain ⟨e', he, hown⟩ := hown _ hnew
      cases he
      exact .inr ⟨c, List.mem_cons_self, hown⟩
  have hadded : ∀ k r, .added c k r ∉ events := fun k r => hnot _ (by simp)
  constructor
  · constructor
    · simp only [Account.context, hcontext]
      exact ⟨hledger.quiet.resources, hledger.quiet.reservationist⟩
    · simp only [Account.context, hcontext]
      intro hcloned
      rw [if_pos hcloned]
      refine ⟨(hledger.clone hcloned).1, fun k e hmem => (hledger.clone hcloned).2 k e ?_⟩
      exact (List.mem_append.mp hmem).resolve_right (hnot _ (by simp))
    · simp only [Account.context, hcontext]
      intro hcloned
      obtain ⟨e, hobtained, hunique, hdue, hexecutor, hreturned⟩ := hroot hcloned
      have hreturns : events = [.returned e] := by
        rw [← hevents, ownExecutor_eq_some.mpr ⟨hcloned, hexecutor⟩]
        rfl
      refine ⟨e, List.mem_append_left _ hobtained, fun k e' hmem => hunique k e' ?_,
        .inr ⟨?_, ?_, ?_⟩⟩
      · exact (List.mem_append.mp hmem).resolve_right (hnot _ (by simp))
      · simp only [Account.returnDue, Account.eventDue, List.count_singleton_self] at hdue
        simp only [Account.returnDue, Account.eventDue, hfinish, List.count_nil]
        have heventWork : (runtime.update c SessionInvocationContext.withoutExecutor).eventWork =
            runtime.eventWork := rfl
        rw [heventWork]
        omega
      · rw [if_neg (by simp [hcloned])]
      · rw [List.count_append, List.count_eq_zero.mpr hreturned, hreturns,
          List.count_singleton_self]
    · intro k r
      simp only [Account.context, hcontext]
      rw [List.count_append, List.count_eq_zero.mpr (hadded k r), Nat.add_zero]
      exact hledger.added k r
  · refine hledger.called.frame ?_ ?_ rfl fun k => hnot _ (by simp)
    · simp only [Account.context, hcontext]
    · simp only [Account.context, hcontext]
  · refine hledger.request.frame ?_ ?_ ?_ rfl hadded fun k r => hnot _ (by simp)
    · simp only [Account.requestDue, hfinish]
    · simp only [Account.context, hcontext]
    · simp only [Account.context, hcontext]
  · refine hledger.work.frame ?_ rfl hadded fun k r => hnot _ (by simp)
    simp only [Account.workDue, Account.eventDue, hfinish]
    rfl

theorem settled_of_done {runtime : Runtime} {c : Nat} (h : runtime.Done c) (returning : List Nat)
    (log : List Effect) : Account.Settled ⟨runtime, runtime.pending, returning, log⟩ c := by
  have hfinish : Account.finishDue ⟨runtime, runtime.pending, returning, log⟩ c = 0 :=
    if_pos h.finished
  have hnone : ∀ task : Task, task.context = c → runtime.pending.count task = 0 :=
    fun task htask => List.count_eq_zero.mpr fun hmem => h.tasks task hmem htask
  have heventWork := List.count_eq_zero.mpr h.eventWork
  simp [Account.Settled, Account.requestDue, Account.workDue, Account.eventDue, hfinish,
    hnone (.closeOfRequest c) rfl, hnone (.queueWork c .queued) rfl, hnone (.closeOfWork c) rfl,
    heventWork]

theorem Kept.done_of_settled {runtime : Runtime} {returning : List Nat} {log : List Effect}
    {c : Nat} (h : Kept ⟨runtime, runtime.pending, returning, log⟩)
    (hsettled : Account.Settled ⟨runtime, runtime.pending, returning, log⟩ c) :
    runtime.Done c := by
  obtain ⟨hrequest, hwork⟩ := hsettled
  simp only [Account.requestDue, Account.workDue, Account.eventDue] at hrequest hwork
  refine ⟨?_, fun task hmem htask => ?_, ?_⟩
  · by_contra hnot
    have hone : Account.finishDue ⟨runtime, runtime.pending, returning, log⟩ c = 1 := if_neg hnot
    omega
  · have hpos := List.count_pos_iff.mpr hmem
    cases task with
    | closeOfRequest d =>
        obtain rfl : d = c := htask
        omega
    | queueWork d handOver =>
        obtain rfl : d = c := htask
        obtain rfl := h.queued d handOver hmem
        omega
    | closeOfWork d =>
        obtain rfl : d = c := htask
        omega
  · exact List.count_eq_zero.mp (by omega)

/-- The request is marked as finished: what was due as that is due as two tasks. -/
theorem keeping_finishing {runtime : Runtime} {log : List Effect} {c : Nat}
    (h : Kept ⟨runtime, runtime.pending, [], log⟩) (hc : c < runtime.created)
    (hfinished : (runtime.contexts c).requestFinished = false) {task : Task}
    {returning : List Nat}
    (htask : task = .queueWork c .queued ∧ returning = [] ∨
      task = .closeOfWork c ∧ returning = [c] ∧ runtime.ClonesDone c) :
    Keeping [.closeOfRequest c, task] returning (runtime.finishing c)
      (log ++ [.finishCalled c (runtime.contexts c).exchange]) := by
  generalize hevents : [Effect.finishCalled c (runtime.contexts c).exchange] = events
  show Kept ⟨runtime.finishing c, .closeOfRequest c :: task :: runtime.pending, returning, _⟩
  have hledger := h.ledger c hc
  have hcontext : (runtime.finishing c).contexts c = (runtime.contexts c).finished :=
    Runtime.finishing_contexts_self ..
  have hothers : ∀ d, d ≠ c → (runtime.finishing c).contexts d = runtime.contexts d :=
    fun d hd => Runtime.update_contexts_of_ne runtime hd _
  have hof : task.context = c := by
    rcases htask with ⟨rfl, -⟩ | ⟨rfl, -⟩
    · rfl
    · rfl
  -- the finish that was due is replaced by the tasks that it starts
  have hbefore : Account.finishDue ⟨runtime, runtime.pending, [], log⟩ c = 1 :=
    if_neg (by rw [Account.context, hfinished]; exact Bool.false_ne_true)
  have hafter : Account.finishDue ⟨runtime.finishing c,
      .closeOfRequest c :: task :: runtime.pending, returning, log ++ events⟩ c = 0 :=
    if_pos (by rw [Account.context, hcontext]; rfl)
  have hcount : ∀ other : Task,
      (Task.closeOfRequest c :: task :: runtime.pending).count other =
        runtime.pending.count other + [task].count other + [Task.closeOfRequest c].count other := by
    intro other
    show ([Task.closeOfRequest c] ++ ([task] ++ runtime.pending)).count other = _
    rw [List.count_append, List.count_append]
    omega
  have hdues : Account.requestDue ⟨runtime.finishing c,
        .closeOfRequest c :: task :: runtime.pending, returning, log ++ events⟩ c =
        Account.requestDue ⟨runtime, runtime.pending, [], log⟩ c ∧
      Account.workDue ⟨runtime.finishing c,
        .closeOfRequest c :: task :: runtime.pending, returning, log ++ events⟩ c =
        Account.workDue ⟨runtime, runtime.pending, [], log⟩ c ∧
      Account.returnDue ⟨runtime.finishing c,
        .closeOfRequest c :: task :: runtime.pending, returning, log ++ events⟩ c =
        Account.returnDue ⟨runtime, runtime.pending, [], log⟩ c := by
    have heventWork : (runtime.finishing c).eventWork = runtime.eventWork := rfl
    simp only [Account.requestDue, Account.workDue, Account.returnDue, Account.eventDue, hbefore,
      hafter, hcount, heventWork]
    rcases htask with ⟨rfl, rfl⟩ | ⟨rfl, rfl, -⟩
    · simp
      omega
    · simp
      omega
  obtain ⟨hrequest, hwork, hreturn⟩ := hdues
  have hevent : ∀ effect ∈ events, effect = .finishCalled c (runtime.contexts c).exchange := by
    intro effect hmem
    rw [← hevents] at hmem
    exact List.mem_singleton.mp hmem
  have hnot : ∀ effect : Effect, (∀ k, effect ≠ .finishCalled c k) → effect ∉ events :=
    fun effect hne hmem => hne _ (hevent effect hmem)
  have hsame : ((runtime.finishing c).contexts c).Same (runtime.contexts c) := by
    rw [hcontext]
    exact ⟨rfl, rfl, rfl, rfl, fun h => ⟨h.resources, h.reservationist⟩⟩
  have hadded : ∀ k r, .added c k r ∉ events := fun k r => hnot _ (by simp)
  -- only the accounts of this context change
  refine h.worksOn hc (c := c) ⟨rfl, rfl, hothers, fun d hd => ?_, fun other hmem => ?_,
    fun _ => .inl, fun d hmem => ?_, rfl, fun effect hmem => .inl ?_, fun hcloned => ?_,
    fun hsettled => ?_, fun e hreturns => ?_⟩ ?_
  · have hfinish : Account.finishDue ⟨runtime.finishing c,
        .closeOfRequest c :: task :: runtime.pending, returning, log ++ events⟩ d =
        Account.finishDue ⟨runtime, runtime.pending, [], log⟩ d :=
      Account.finishDue_eq (by rw [Account.context, hothers d hd]; rfl)
    have hother : ∀ other : Task, other.context = d →
        (Task.closeOfRequest c :: task :: runtime.pending).count other =
          runtime.pending.count other := by
      intro other hother
      have hne : other.context ≠ c := hother ▸ hd
      rw [Account.count_task_cons hne, Account.count_task_cons (hof ▸ hne)]
    have hnone : returning.count d = 0 := by
      refine List.count_eq_zero.mpr fun hmem => ?_
      rcases htask with ⟨-, rfl⟩ | ⟨-, rfl, -⟩
      · exact absurd hmem List.not_mem_nil
      · exact hd (List.mem_singleton.mp hmem)
    refine ⟨?_, ?_, ?_⟩
    · simp only [Account.requestDue, hfinish, hother (.closeOfRequest d) rfl]
    · simp only [Account.workDue, Account.eventDue, hfinish, hother (.queueWork d .queued) rfl,
        hother (.closeOfWork d) rfl]
      rfl
    · simp only [Account.returnDue, Account.eventDue, hfinish, hother (.queueWork d .queued) rfl,
        hnone, List.count_nil]
      rfl
  · rcases List.mem_cons.mp hmem with rfl | hmem
    · exact .inr ⟨rfl, by simp⟩
    rcases List.mem_cons.mp hmem with rfl | hmem
    · refine .inr ⟨hof, fun handOver heq => ?_⟩
      rcases htask with ⟨rfl, -⟩ | ⟨rfl, -⟩
      · cases heq
        rfl
      · cases heq
    · exact .inl hmem
  · rcases htask with ⟨-, rfl⟩ | ⟨-, rfl, -⟩
    · exact absurd hmem List.not_mem_nil
    · exact .inr (List.mem_singleton.mp hmem)
  · rw [hevent effect hmem]
    rfl
  · exact ⟨hsame.cloned ▸ hcloned, hsame.executor⟩
  · exact ⟨hrequest.trans hsettled.1, hwork.trans hsettled.2⟩
  · -- an executor is returned after its clones have settled
    rcases hreturns with hmem | ⟨d, hmem, hown⟩
    · refine .inl (.inl ((List.mem_append.mp hmem).resolve_right (hnot _ (by simp))))
    · rcases htask with ⟨-, rfl⟩ | ⟨-, rfl, hclones⟩
      · exact absurd hmem List.not_mem_nil
      · obtain rfl := List.mem_singleton.mp hmem
        have hown' : (runtime.contexts d).ownExecutor = some e := by
          rw [Account.context, hcontext] at hown
          exact hown
        exact .inr fun clone hclone hcloned hexecutor =>
          settled_of_done (hclones e hown' clone hclone hcloned hexecutor) [] log
  constructor
  · exact hledger.toOwned.frame hsame hreturn rfl (fun k e => hnot _ (by simp)) hadded
      fun e _ => hnot _ (by simp)
  · intro k hmem
    -- a context is finished once, or it would be finished already
    have hk : k = (runtime.contexts c).exchange := by
      rcases List.mem_append.mp hmem with hold | hnew
      · have hfalse : (runtime.contexts c).requestFinished = true := (hledger.called k hold).1
        exact absurd (hfinished.symm.trans hfalse) Bool.false_ne_true
      · have heq := hevent _ hnew
        simp only [Effect.finishCalled.injEq, true_and] at heq
        exact heq
    simp only [Account.context, hcontext]
    exact ⟨rfl, hk⟩
  · refine hledger.request.frame hrequest ?_ hsame.exchange rfl hadded fun k r => hnot _ (by simp)
    simp only [Account.context, hcontext]
    rfl
  · exact hledger.work.frame hwork rfl hadded fun k r => hnot _ (by simp)

/-- `done_with_work()` closes the work and returns the executor. -/
theorem keeping_doneWithWork (sameLoop : Bool) (c : Nat) :
    Establishes (Keeping [.closeOfWork c] [c]) (doneWithWork sameLoop c)
      fun _ => Keeping [] [] :=
  (keeping_runInExecutor sameLoop rfl (.inl List.mem_cons_self)).bind fun _ =>
    keeping_returnExecutor c

/-- Whether the work is deferred does not change while a request is closed. -/
theorem run_closing_keeps (sameLoop : Bool) (c : Nat) (defers : Bool) (runtime : Runtime)
    (h : (runtime.contexts c).defersWork = defers ∧ runtime.closeOfWorkNow = true) :
    (((runInExecutorUntilComplete sameLoop c (.closeOfRequest c)).run runtime).locals.contexts
        c).defersWork = defers ∧
      ((runInExecutorUntilComplete sameLoop c (.closeOfRequest c)).run
        runtime).locals.closeOfWorkNow = true := by
  simp only [runInExecutorUntilComplete, run_readContext_bind]
  cases (runtime.contexts c).asyncioExecutor with
  | none => exact h
  | some executor =>
      cases sameLoop with
      | true => exact h
      | false =>
          show (((closeOfRequest c).run runtime).locals.contexts c).defersWork = defers ∧
            ((closeOfRequest c).run runtime).locals.closeOfWorkNow = true
          rw [run_closeOfRequest, Runtime.update_contexts_self]
          exact h

/-- The `try` block of work that is deferred. -/
theorem keeping_finishNow_deferred (sameLoop : Bool) (c : Nat) :
    Establishes (fun runtime log =>
        Keeping [.closeOfRequest c, .queueWork c .queued] [] runtime log ∧
          ((runtime.contexts c).defersWork = true ∧ runtime.closeOfWorkNow = true))
      (finishNow sameLoop .queued c)
      fun _ runtime log => Keeping [] [] runtime log ∧ runtime.closeOfWorkNow = false := by
  have hqueue : Task.queueWork c .queued ∈ [Task.queueWork c .queued] := List.mem_cons_self
  refine ((keeping_runInExecutor sameLoop rfl (.inr (List.mem_cons_of_mem _ hqueue))).and_keeps
    (run_closing_keeps sameLoop c true)).bind fun _ => ?_
  rintro runtime log ⟨hkeeping, hdefers, -⟩
  rw [run_readContext_bind, if_pos hdefers]
  -- the flag of the `finally` block is no part of the ledgers
  have hlater : Establishes
      (fun runtime log => Keeping [.queueWork c .queued] [] runtime log ∧
        runtime.closeOfWorkNow = false)
      (runInExecutorUntilComplete sameLoop c (.queueWork c .queued))
      fun _ runtime log => Keeping [] [] runtime log ∧ runtime.closeOfWorkNow = false := by
    refine (keeping_runInExecutor sameLoop (c := c) rfl (.inr hqueue)).and_keeps
      fun later hlater => ?_
    simp only [runInExecutorUntilComplete, run_readContext_bind]
    cases (later.contexts c).asyncioExecutor with
    | none => exact hlater
    | some executor =>
        cases sameLoop with
        | true => exact hlater
        | false => exact hlater
  refine (Establishes.bind (Establishes.assign fun later log h => ?_) fun _ => hlater)
    runtime log hkeeping
  exact ⟨Kept.perm h (.refl _) rfl rfl rfl rfl, rfl⟩

/-- The `try` block of work that is closed now. -/
theorem keeping_finishNow (sameLoop : Bool) (handOver : HandOver) (c : Nat) :
    Establishes (fun runtime log =>
        Keeping [.closeOfRequest c, .closeOfWork c] [c] runtime log ∧
          ((runtime.contexts c).defersWork = false ∧ runtime.closeOfWorkNow = true))
      (finishNow sameLoop handOver c)
      fun _ runtime log => Keeping [.closeOfWork c] [c] runtime log ∧
        runtime.closeOfWorkNow = true := by
  refine ((keeping_runInExecutor sameLoop rfl (.inl List.mem_cons_self)).and_keeps
    (run_closing_keeps sameLoop c false)).bind fun _ => ?_
  rintro runtime log ⟨hkeeping, hdefers, hnow⟩
  rw [run_readContext_bind, if_neg (by rw [hdefers]; exact Bool.false_ne_true)]
  refine ⟨(), rfl, ?_, hnow⟩
  rw [show (pure () : Managing Unit).run runtime = ⟨[], runtime, .ok ()⟩ from rfl, List.append_nil]
  exact hkeeping

/-- The `finally` block of work that is deferred, and of work that is closed now. -/
theorem keeping_finishWorkNow (sameLoop : Bool) (c : Nat) :
    Establishes (fun runtime log => Keeping [] [] runtime log ∧ runtime.closeOfWorkNow = false)
        (finishWorkNow sameLoop c) (fun _ => Keeping [] []) ∧
      Establishes (fun runtime log =>
          Keeping [.closeOfWork c] [c] runtime log ∧ runtime.closeOfWorkNow = true)
        (finishWorkNow sameLoop c) (fun _ => Keeping [] []) := by
  constructor
  · rintro runtime log ⟨hkeeping, hnow⟩
    simp only [finishWorkNow, run_readLocals_bind, hnow, Bool.false_eq_true, if_false]
    exact Establishes.pure (fun _ _ h => h) runtime log hkeeping
  · rintro runtime log ⟨hkeeping, hnow⟩
    simp only [finishWorkNow, run_readLocals_bind, hnow, if_true]
    exact keeping_doneWithWork sameLoop c runtime log hkeeping

/-- A request that is finished again. -/
theorem Kept.finish_again {runtime : Runtime} {log : List Effect} {c : Nat}
    (h : Kept ⟨runtime, runtime.pending, [], log⟩) (hc : c < runtime.created)
    (hfinished : (runtime.contexts c).requestFinished = true) :
    Kept ⟨runtime, runtime.pending, [],
      log ++ [.finishCalled c (runtime.contexts c).exchange]⟩ := by
  have hledger := h.ledger c hc
  generalize hevents : [Effect.finishCalled c (runtime.contexts c).exchange] = events
  have hevent : ∀ effect ∈ events, effect = .finishCalled c (runtime.contexts c).exchange := by
    intro effect hmem
    rw [← hevents] at hmem
    exact List.mem_singleton.mp hmem
  have hnot : ∀ effect : Effect, (∀ k, effect ≠ .finishCalled c k) → effect ∉ events :=
    fun effect hne hmem => hne _ (hevent effect hmem)
  have hadded : ∀ k r, .added c k r ∉ events := fun k r => hnot _ (by simp)
  refine h.worksOn hc (c := c) ⟨rfl, rfl, fun _ _ => rfl, fun _ _ => ⟨rfl, rfl, rfl⟩,
    fun _ => .inl, fun _ => .inl, fun _ => .inl, rfl, fun effect hmem => .inl ?_,
    fun h => ⟨h, rfl⟩, id, fun e hreturns => .inl ?_⟩ ?_
  · rw [hevent effect hmem]
    rfl
  · exact hreturns.imp_left fun hmem => (List.mem_append.mp hmem).resolve_right (hnot _ (by simp))
  constructor
  · exact hledger.toOwned.frame (.refl _) rfl rfl (fun k e => hnot _ (by simp)) hadded
      fun e _ => hnot _ (by simp)
  · intro k hmem
    rcases List.mem_append.mp hmem with hold | hnew
    · exact hledger.called k hold
    · have heq := hevent _ hnew
      simp only [Effect.finishCalled.injEq, true_and] at heq
      exact ⟨hfinished, heq⟩
  · exact hledger.request.frame rfl rfl rfl rfl hadded fun k r => hnot _ (by simp)
  · exact hledger.work.frame rfl rfl hadded fun k r => hnot _ (by simp)

/-- `finish_request()`: where its condition is met, what was due is due no more, or as
a task or with the monitor. -/
theorem keeping_finishRequest (sameLoop : Bool) (handOver : HandOver) {runtime : Runtime}
    {log : List Effect} {c : Nat} (h : Keeping [] [] runtime log) (hc : c < runtime.created)
    (hok : (runtime.contexts c).requestFinished = true ∨
      if (runtime.contexts c).defersWork then handOver = .queued else runtime.ClonesDone c) :
    Keeping [] [] ((finishRequest sameLoop handOver c).run runtime).locals
      (log ++ ((finishRequest sameLoop handOver c).run runtime).events) := by
  cases hfinished : (runtime.contexts c).requestFinished with
  | true =>
      rw [run_finishRequest_finished hfinished]
      exact Kept.finish_again h hc hfinished
  | false =>
      rw [hfinished] at hok
      have hok' := hok.resolve_left Bool.false_ne_true
      rw [run_finishRequest hfinished, ← List.singleton_append, ← List.append_assoc]
      cases hdefers : (runtime.contexts c).defersWork with
      | true =>
          rw [if_pos hdefers] at hok'
          subst hok'
          have hstart := keeping_finishing h hc hfinished (.inl ⟨rfl, rfl⟩)
          have hcontext : ((runtime.finishing c).contexts c).defersWork = true := by
            rw [Runtime.finishing_contexts_self]
            exact hdefers
          obtain ⟨-, -, hdone⟩ := (keeping_finishNow_deferred sameLoop c).tryFinally
            (keeping_finishWorkNow sameLoop c).1 _ _ ⟨hstart, hcontext, rfl⟩
          exact hdone
      | false =>
          rw [if_neg (by rw [hdefers]; exact Bool.false_ne_true)] at hok'
          have hstart := keeping_finishing h hc hfinished (.inr ⟨rfl, rfl, hok'⟩)
          have hcontext : ((runtime.finishing c).contexts c).defersWork = false := by
            rw [Runtime.finishing_contexts_self]
            exact hdefers
          obtain ⟨-, -, hdone⟩ := (keeping_finishNow sameLoop handOver c).tryFinally
            (keeping_finishWorkNow sameLoop c).2 _ _ ⟨hstart, hcontext, rfl⟩
          exact hdone

end NoraFleet.Sessions
