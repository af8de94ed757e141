import Mathlib.Data.List.Perm.Basic
import NoraFleet.Sessions.Keeping

/-!
# Closed and returned exactly once

Every call on contexts keeps the ledgers, where it comes in order. After a request is
finished, its context is of no further use: `request_finished` stays set when it is
reset, so whatever a second exchange takes is never closed or returned.

* `exchangesClosed_of_runs` — runs whose calls come in order;
* `secondExchange_not_closed` — a second exchange on one context.
-/

namespace NoraFleet.Sessions

open Base Flow

/-! ## New contexts -/

/-- What a context is created with: an executor of its own, or that of the context it
is a copy of. -/
inductive CreatedWith (runtime : Runtime) (log : List Effect) (context : SessionInvocationContext) :
    Nat → List Effect → Prop
  | root : context.cloned = false → context.asyncioExecutor = some runtime.executors →
      CreatedWith runtime log context (runtime.executors + 1)
        [.obtained runtime.created 0 runtime.executors]
  | clone (e : Nat) : context.cloned = true → context.asyncioExecutor = some e →
      .returned e ∉ log → CreatedWith runtime log context runtime.executors []

/-- The runtime with one more context. -/
def Runtime.withContext (runtime : Runtime) (context : SessionInvocationContext)
    (executors : Nat) : Runtime :=
  { runtime.update runtime.created fun _ => context with
    executors := executors
    created := runtime.created + 1 }

theorem Runtime.withContext_self (runtime : Runtime) (context : SessionInvocationContext)
    (executors : Nat) :
    (runtime.withContext context executors).contexts runtime.created = context :=
  Runtime.update_contexts_self runtime runtime.created fun _ => context

theorem Runtime.withContext_of_lt {runtime : Runtime} {d : Nat} (h : d < runtime.created)
    (context : SessionInvocationContext) (executors : Nat) :
    (runtime.withContext context executors).contexts d = runtime.contexts d :=
  Runtime.update_contexts_of_ne runtime (Nat.ne_of_lt h) fun _ => context

/-- A context that is created owes its closings. -/
theorem Kept.create {runtime : Runtime} {log : List Effect} {context : SessionInvocationContext}
    {executors : Nat} {events : List Effect} (h : Kept ⟨runtime, runtime.pending, [], log⟩)
    (hcreated : CreatedWith runtime log context executors events) (hquiet : context.Quiet)
    (hfinished : context.requestFinished = false) (hqueue : context.hasQueue = true)
    (hresources : context.resources = []) :
    Kept ⟨runtime.withContext context executors, runtime.pending, [], log ++ events⟩ := by
  have hself := runtime.withContext_self context executors
  -- nothing was logged of it, and nothing waits for it
  have hfresh : ∀ effect : Effect, effect.Of runtime.created → effect ∉ log :=
    fun effect hof hmem => Nat.lt_irrefl _ (h.logged effect hmem _ hof)
  have htask : ∀ task : Task, task.context = runtime.created → runtime.pending.count task = 0 :=
    fun task htask => List.count_eq_zero.mpr fun hmem =>
      Nat.lt_irrefl _ (htask ▸ h.tasks task hmem)
  have hwork : runtime.eventWork.count runtime.created = 0 :=
    List.count_eq_zero.mpr fun hmem => Nat.lt_irrefl _ (h.eventWork _ hmem)
  have hevent : ∀ effect ∈ events, effect = .obtained runtime.created 0 runtime.executors := by
    intro effect hmem
    cases hcreated with
    | root => exact List.mem_singleton.mp hmem
    | clone => exact absurd hmem List.not_mem_nil
  have hnot : ∀ effect : Effect, (∀ c k e, effect ≠ .obtained c k e) → effect ∉ events :=
    fun effect hne hmem => hne _ _ _ (hevent effect hmem)
  have hobtained : ∀ c k e, .obtained c k e ∈ log ++ events → .obtained c k e ∈ log ∨
      c = runtime.created ∧ e = runtime.executors ∧ k = 0 ∧ executors = runtime.executors + 1 := by
    intro c k e hmem
    rcases List.mem_append.mp hmem with hold | hnew
    · exact .inl hold
    · cases hcreated with
      | root =>
          have heq := List.mem_singleton.mp hnew
          simp only [Effect.obtained.injEq] at heq
          exact .inr ⟨heq.1, heq.2.2, heq.2.1, rfl⟩
      | clone => exact absurd hnew List.not_mem_nil
  have hexecutors : runtime.executors ≤ executors := by
    cases hcreated with
    | root => exact Nat.le_succ _
    | clone => exact Nat.le_refl _
  have hreturned : ∀ e, .returned e ∉ events := fun e => hnot _ (by simp)
  have hfinishDue : Account.finishDue ⟨runtime.withContext context executors, runtime.pending, [],
      log ++ events⟩ runtime.created = 1 :=
    if_neg (by rw [Account.context, hself, hfinished]; exact Bool.false_ne_true)
  have heventWork : (runtime.withContext context executors).eventWork = runtime.eventWork := rfl
  have hnew : Ledger ⟨runtime.withContext context executors, runtime.pending, [], log ++ events⟩
      runtime.created := by
    have hnone : ∀ effect : Effect, effect.Of runtime.created →
        (∀ c k e, effect ≠ .obtained c k e) →
        effect ∉ log ++ events := fun effect hof hne hmem =>
      (List.mem_append.mp hmem).elim (hfresh effect hof) (hnot effect hne)
    constructor
    · constructor
      · simp only [Account.context, hself]
        exact hquiet
      · simp only [Account.context, hself]
        intro hcloned
        cases hcreated with
        | root hroot => exact absurd (hroot.symm.trans hcloned) Bool.false_ne_true
        | clone e _ hexecutor =>
            rw [hexecutor, List.append_nil]
            exact ⟨rfl, fun k e' => hfresh _ rfl⟩
      · simp only [Account.context, hself]
        intro hroot
        cases hcreated with
        | root _ hexecutor =>
            refine ⟨runtime.executors, List.mem_append_right _ List.mem_cons_self,
              fun k e' hmem => ?_, .inl ⟨?_, hexecutor, fun hmem => ?_⟩⟩
            · rcases hobtained _ k e' hmem with hold | ⟨-, he, -⟩
              · exact absurd hold (hfresh _ rfl)
              · exact he
            · simp only [Account.returnDue, Account.eventDue, hfinishDue, heventWork,
                htask (.queueWork runtime.created .queued) rfl, hwork, List.count_nil]
            · have hold := (List.mem_append.mp hmem).resolve_right (hreturned _)
              obtain ⟨d, hmem⟩ := h.returned _ hold
              exact Nat.lt_irrefl _ (h.obtained _ _ _ hmem)
        | clone e hcloned => exact absurd (hroot.symm.trans hcloned) Bool.false_ne_true
      · intro k r
        have hids : context.ids = [] := by rw [SessionInvocationContext.ids, hresources]; rfl
        simp only [Account.context, hself, hids, List.count_nil, ite_self]
        exact List.count_eq_zero.mpr (hnone _ rfl (by simp))
    · exact fun k hmem => absurd hmem (hnone _ rfl (by simp))
    · refine .inl ⟨?_, ?_, fun k r => hnone _ rfl (by simp)⟩
      · simp only [Account.requestDue, hfinishDue, htask (.closeOfRequest runtime.created) rfl]
      · simp only [Account.context, hself]
        exact hqueue
    · refine .inl ⟨?_, fun k r => hnone _ rfl (by simp)⟩
      simp only [Account.workDue, Account.eventDue, hfinishDue, heventWork, hwork,
        htask (.queueWork runtime.created .queued) rfl, htask (.closeOfWork runtime.created) rfl]
  have hdues : ∀ d, d < runtime.created →
      Account.requestDue ⟨runtime.withContext context executors, runtime.pending, [],
          log ++ events⟩ d = Account.requestDue ⟨runtime, runtime.pending, [], log⟩ d ∧
        Account.workDue ⟨runtime.withContext context executors, runtime.pending, [],
          log ++ events⟩ d = Account.workDue ⟨runtime, runtime.pending, [], log⟩ d ∧
        Account.returnDue ⟨runtime.withContext context executors, runtime.pending, [],
          log ++ events⟩ d = Account.returnDue ⟨runtime, runtime.pending, [], log⟩ d := by
    intro d hd
    have hfinish : Account.finishDue ⟨runtime.withContext context executors, runtime.pending, [],
        log ++ events⟩ d = Account.finishDue ⟨runtime, runtime.pending, [], log⟩ d :=
      Account.finishDue_eq (by
        simp only [Account.context, Runtime.withContext_of_lt hd])
    refine ⟨?_, ?_, ?_⟩
    · simp only [Account.requestDue, hfinish]
    · simp only [Account.workDue, Account.eventDue, hfinish, heventWork]
    · simp only [Account.returnDue, Account.eventDue, hfinish, heventWork]
  constructor
  · intro d hd
    rcases Nat.lt_succ_iff_lt_or_eq.mp hd with hlt | rfl
    · obtain ⟨hrequest, hwork, hreturn⟩ := hdues d hlt
      refine (h.ledger d hlt).frame (Runtime.withContext_of_lt hlt _ _) hrequest hwork hreturn rfl
        (fun effect hmem hof => ?_) fun e _ => hreturned e
      rw [hevent effect hmem] at hof
      have heq : runtime.created = d := hof
      omega
    · exact hnew
  · exact fun task hmem => Nat.lt_succ_of_lt (h.tasks task hmem)
  · exact h.queued
  · exact fun c hmem => Nat.lt_succ_of_lt (h.eventWork c hmem)
  · exact fun c hmem => absurd hmem List.not_mem_nil
  · intro effect hmem d hof
    rcases List.mem_append.mp hmem with hold | hadded
    · exact Nat.lt_succ_of_lt (h.logged effect hold d hof)
    · rw [hevent effect hadded] at hof
      have heq : runtime.created = d := hof
      exact heq ▸ Nat.lt_succ_self _
  · intro c k e hmem
    rcases hobtained c k e hmem with hold | ⟨-, rfl, -, hsucc⟩
    · exact Nat.lt_of_lt_of_le (h.obtained c k e hold) hexecutors
    · show runtime.executors < executors
      omega
  · intro e hmem
    obtain ⟨c, hold⟩ := h.returned e ((List.mem_append.mp hmem).resolve_right (hreturned e))
    exact ⟨c, List.mem_append_left _ hold⟩
  · intro c d k k' e hc hd
    rcases hobtained c k e hc with hc | ⟨rfl, he, -⟩
    · rcases hobtained d k' e hd with hd | ⟨-, rfl, -⟩
      · exact h.unique c d k k' e hc hd
      · exact absurd (h.obtained c k _ hc) (Nat.lt_irrefl _)
    · rcases hobtained d k' e hd with hd | ⟨rfl, -⟩
      · rw [he] at hd
        exact absurd (h.obtained d k' _ hd) (Nat.lt_irrefl _)
      · rfl
  · intro e hreturns d hd hcloned hexecutor
    have hold : .returned e ∈ log := by
      rcases hreturns with hmem | ⟨c, hmem, -⟩
      · exact (List.mem_append.mp hmem).resolve_right (hreturned e)
      · exact absurd hmem List.not_mem_nil
    rcases Nat.lt_succ_iff_lt_or_eq.mp hd with hlt | rfl
    · simp only [Account.context, Runtime.withContext_of_lt hlt] at hcloned hexecutor
      obtain ⟨hrequest, hwork, -⟩ := hdues d hlt
      have hsettled := h.clones e (.inl hold) d hlt hcloned hexecutor
      exact ⟨hrequest.trans hsettled.1, hwork.trans hsettled.2⟩
    · simp only [Account.context, hself] at hcloned hexecutor
      cases hcreated with
      | root hroot => exact absurd (hroot.symm.trans hcloned) Bool.false_ne_true
      | clone e' _ hexecutor' hkept =>
          obtain rfl : e' = e := Option.some.inj (hexecutor'.symm.trans hexecutor)
          exact absurd hold hkept

/-! ## Calls before the request is finished -/

/-- A call that changes attributes of a context, and runs no task. -/
theorem worksOn_update (runtime : Runtime) (log events : List Effect) {c : Nat}
    (f : SessionInvocationContext → SessionInvocationContext)
    (hcloned : (f (runtime.contexts c)).cloned = (runtime.contexts c).cloned)
    (hexecutor : (f (runtime.contexts c)).asyncioExecutor = (runtime.contexts c).asyncioExecutor)
    (hfinished : (f (runtime.contexts c)).requestFinished = (runtime.contexts c).requestFinished)
    (hby : ∀ effect ∈ events, effect.By c) :
    WorksOn c ⟨runtime, runtime.pending, [], log⟩
        ⟨runtime.update c f, runtime.pending, [], log ++ events⟩ events ∧
      ∀ d, Account.requestDue ⟨runtime.update c f, runtime.pending, [], log ++ events⟩ d =
          Account.requestDue ⟨runtime, runtime.pending, [], log⟩ d ∧
        Account.workDue ⟨runtime.update c f, runtime.pending, [], log ++ events⟩ d =
          Account.workDue ⟨runtime, runtime.pending, [], log⟩ d ∧
        Account.returnDue ⟨runtime.update c f, runtime.pending, [], log ++ events⟩ d =
          Account.returnDue ⟨runtime, runtime.pending, [], log⟩ d := by
  have hself : (runtime.update c f).contexts c = f (runtime.contexts c) :=
    Runtime.update_contexts_self ..
  have hothers : ∀ d, d ≠ c → (runtime.update c f).contexts d = runtime.contexts d :=
    fun d hd => Runtime.update_contexts_of_ne runtime hd f
  have hdues : ∀ d, Account.requestDue ⟨runtime.update c f, runtime.pending, [], log ++ events⟩ d =
        Account.requestDue ⟨runtime, runtime.pending, [], log⟩ d ∧
      Account.workDue ⟨runtime.update c f, runtime.pending, [], log ++ events⟩ d =
        Account.workDue ⟨runtime, runtime.pending, [], log⟩ d ∧
      Account.returnDue ⟨runtime.update c f, runtime.pending, [], log ++ events⟩ d =
        Account.returnDue ⟨runtime, runtime.pending, [], log⟩ d := by
    intro d
    have hfinish : Account.finishDue ⟨runtime.update c f, runtime.pending, [], log ++ events⟩ d =
        Account.finishDue ⟨runtime, runtime.pending, [], log⟩ d := by
      refine Account.finishDue_eq ?_
      show ((runtime.update c f).contexts d).requestFinished = (runtime.contexts d).requestFinished
      by_cases hd : d = c
      · rw [hd, hself]
        exact hfinished
      · rw [hothers d hd]
    have heventWork : (runtime.update c f).eventWork = runtime.eventWork := rfl
    refine ⟨?_, ?_, ?_⟩
    · simp only [Account.requestDue, hfinish]
    · simp only [Account.workDue, Account.eventDue, hfinish, heventWork]
    · simp only [Account.returnDue, Account.eventDue, hfinish, heventWork]
  refine ⟨⟨rfl, rfl, hothers, fun d _ => hdues d, fun _ => .inl, fun _ => .inl, fun _ => .inl, rfl,
    fun effect hmem => .inl (hby effect hmem), fun h => ?_, fun h => ?_, fun e hreturns => .inl ?_⟩,
    hdues⟩
  · simp only [Account.context, hself] at h ⊢
    exact ⟨hcloned ▸ h, hexecutor⟩
  · exact ⟨(hdues c).1.trans h.1, (hdues c).2.1.trans h.2⟩
  · rcases hreturns with hmem | hpending
    · exact .inl ((List.mem_append.mp hmem).resolve_right fun hnew => hby _ hnew)
    · obtain ⟨d, hd, -⟩ := hpending
      exact absurd hd List.not_mem_nil

/-- A request that is not finished owes both closings. -/
theorem Kept.owes {runtime : Runtime} {log : List Effect} {c : Nat}
    (h : Kept ⟨runtime, runtime.pending, [], log⟩) (hc : c < runtime.created)
    (hfinished : (runtime.contexts c).requestFinished = false) :
    (∀ k r, .closedOfRequest c k r ∉ log) ∧ (∀ k r, .closedOfWork c k r ∉ log) ∧
      (runtime.contexts c).hasQueue = true ∧ (∀ k, .finishCalled c k ∉ log) ∧
        Account.requestDue ⟨runtime, runtime.pending, [], log⟩ c = 1 ∧
          Account.workDue ⟨runtime, runtime.pending, [], log⟩ c = 1 ∧
            0 < Account.returnDue ⟨runtime, runtime.pending, [], log⟩ c := by
  have hledger := h.ledger c hc
  have hone : Account.finishDue ⟨runtime, runtime.pending, [], log⟩ c = 1 :=
    if_neg (by rw [Account.context, hfinished]; exact Bool.false_ne_true)
  have hcalled : ∀ k, .finishCalled c k ∉ log := by
    intro k hmem
    have htrue : (runtime.contexts c).requestFinished = true := (hledger.called k hmem).1
    exact absurd (hfinished.symm.trans htrue) Bool.false_ne_true
  rcases hledger.request with ⟨hrequest, hqueue, hnone⟩ | ⟨hzero, -⟩
  · rcases hledger.work with ⟨hwork, hnone'⟩ | ⟨hzero, -⟩
    · refine ⟨hnone, hnone', hqueue, hcalled, hrequest, hwork, ?_⟩
      simp only [Account.returnDue, hone]
      omega
    · simp only [Account.workDue, hone] at hzero
      omega
  · simp only [Account.requestDue, hone] at hzero
    omega

/-- A call on a context that is not finished: what is changed is its resources, and what
is logged is that they were added. -/
theorem Kept.update {runtime : Runtime} {log events : List Effect} {c : Nat}
    {f : SessionInvocationContext → SessionInvocationContext}
    (h : Kept ⟨runtime, runtime.pending, [], log⟩) (hc : c < runtime.created)
    (hfinished : (runtime.contexts c).requestFinished = false)
    (hcloned : (f (runtime.contexts c)).cloned = (runtime.contexts c).cloned)
    (hexecutor : (f (runtime.contexts c)).asyncioExecutor = (runtime.contexts c).asyncioExecutor)
    (hfinished' : (f (runtime.contexts c)).requestFinished = (runtime.contexts c).requestFinished)
    (hqueue : (f (runtime.contexts c)).hasQueue = true) (hquiet : (f (runtime.contexts c)).Quiet)
    (hevents : ∀ effect ∈ events, ∃ k r, effect = .added c k r)
    (hadded : ∀ k r, (log ++ events).count (.added c k r) =
      if k = (f (runtime.contexts c)).exchange then (f (runtime.contexts c)).ids.count r else 0) :
    Kept ⟨runtime.update c f, runtime.pending, [], log ++ events⟩ := by
  have hledger := h.ledger c hc
  obtain ⟨hnone, hnone', -, hcalled, hrequestDue, hworkDue, -⟩ := h.owes hc hfinished
  -- only resources are added, and nothing else is logged
  have hnot : ∀ effect : Effect, (∀ k r, effect ≠ .added c k r) → effect ∉ events := by
    intro effect hne hmem
    obtain ⟨k, r, heq⟩ := hevents effect hmem
    exact hne k r heq
  have hmem : ∀ effect : Effect, (∀ k r, effect ≠ .added c k r) → effect ∈ log ++ events →
      effect ∈ log := fun effect hne hmem =>
        (List.mem_append.mp hmem).resolve_right (hnot effect hne)
  obtain ⟨hworks, hdues⟩ := worksOn_update runtime log events f hcloned hexecutor hfinished'
    fun effect hmem => by
      obtain ⟨k, r, rfl⟩ := hevents effect hmem
      rfl
  obtain ⟨hrequest, hwork, hreturn⟩ := hdues c
  have hself : (runtime.update c f).contexts c = f (runtime.contexts c) :=
    Runtime.update_contexts_self ..
  refine h.worksOn hc hworks ?_
  constructor
  · constructor
    · simp only [Account.context, hself]
      exact hquiet
    · simp only [Account.context, hself, hcloned, hexecutor]
      intro hclone
      exact ⟨(hledger.clone hclone).1,
        fun k e hobtained => (hledger.clone hclone).2 k e (hmem _ (by simp) hobtained)⟩
    · simp only [Account.context, hself, hcloned, hexecutor, hreturn]
      intro hroot
      obtain ⟨e, hobtained, hunique, hreturns⟩ := hledger.root hroot
      refine ⟨e, List.mem_append_left _ hobtained,
        fun k e' hobtained' => hunique k e' (hmem _ (by simp) hobtained'), ?_⟩
      rw [List.mem_append, or_iff_left (hnot _ (by simp)), List.count_append,
        List.count_eq_zero.mpr (hnot _ (by simp)), Nat.add_zero]
      exact hreturns
    · simp only [Account.context, hself]
      exact hadded
  · exact fun k hcall => absurd (hmem _ (by simp) hcall) (hcalled k)
  · refine .inl ⟨hrequest.trans hrequestDue, ?_, fun k r hclosed =>
      hnone k r (hmem _ (by simp) hclosed)⟩
    simp only [Account.context, hself]
    exact hqueue
  · exact .inl ⟨hwork.trans hworkDue, fun k r hclosed => hnone' k r (hmem _ (by simp) hclosed)⟩

/-- `add_resource()` before the request is finished. -/
theorem Kept.add {runtime : Runtime} {log : List Effect} {c : Nat} {resource : LingeringResource}
    (h : Kept ⟨runtime, runtime.pending, [], log⟩) (hc : c < runtime.created)
    (hfinished : (runtime.contexts c).requestFinished = false)
    (hrequest : resource.closeOfRequest = none) (hwork : resource.closeOfWork = none) :
    Kept ⟨runtime.update c fun context =>
        { context with resources := context.resources ++ [resource] }, runtime.pending, [],
      log ++ [.added c (runtime.contexts c).exchange resource.id]⟩ := by
  have hledger := h.ledger c hc
  have hquiet : (runtime.contexts c).Quiet := hledger.quiet
  refine h.update hc hfinished rfl rfl rfl (h.owes hc hfinished).2.2.1 ⟨?_, hquiet.reservationist⟩
    (fun effect hmem => ⟨_, _, List.mem_singleton.mp hmem⟩) fun k r => ?_
  · intro other hmem
    rcases List.mem_append.mp hmem with hold | hnew
    · exact hquiet.resources other hold
    · rw [List.mem_singleton.mp hnew]
      exact ⟨hrequest, hwork⟩
  · have hsum : log.count (.added c k r) =
        if k = (runtime.contexts c).exchange then (runtime.contexts c).ids.count r else 0 :=
      hledger.added k r
    rw [List.count_append, hsum]
    simp only [SessionInvocationContext.ids, List.map_append, List.map_cons, List.map_nil,
      List.count_append, List.count_singleton]
    by_cases hk : k = (runtime.contexts c).exchange
    · subst hk
      simp
    · simp [hk, Ne.symm hk]

/-- `reset()` before anything is added. -/
theorem Kept.reset {runtime : Runtime} {log : List Effect} {c : Nat}
    (h : Kept ⟨runtime, runtime.pending, [], log⟩) (hc : c < runtime.created)
    (hfinished : (runtime.contexts c).requestFinished = false)
    (hresources : (runtime.contexts c).resources = []) :
    Kept ⟨runtime.update c fun context =>
        { context with hasQueue := true, exchange := context.exchange + 1 }, runtime.pending, [],
      log ++ []⟩ := by
  have hledger := h.ledger c hc
  have hquiet : (runtime.contexts c).Quiet := hledger.quiet
  have hids : (runtime.contexts c).ids = [] := by
    rw [SessionInvocationContext.ids, hresources]
    rfl
  refine h.update hc hfinished rfl rfl rfl rfl ⟨hquiet.resources, hquiet.reservationist⟩
    (fun effect hmem => absurd hmem List.not_mem_nil) fun k r => ?_
  have hsum : log.count (.added c k r) =
      if k = (runtime.contexts c).exchange then (runtime.contexts c).ids.count r else 0 :=
    hledger.added k r
  rw [List.append_nil, hsum]
  simp only [SessionInvocationContext.ids, hresources, List.map_nil, List.count_nil, ite_self]

/-- The executor of a context that is not finished was not returned. -/
theorem Kept.executor_of_unfinished {runtime : Runtime} {log : List Effect} {c : Nat}
    (h : Kept ⟨runtime, runtime.pending, [], log⟩) (hc : c < runtime.created)
    (hfinished : (runtime.contexts c).requestFinished = false) :
    ∃ e, (runtime.contexts c).asyncioExecutor = some e ∧ .returned e ∉ log := by
  obtain ⟨-, -, -, -, hrequest, -, hreturn⟩ := h.owes hc hfinished
  obtain ⟨e, hexecutor⟩ := Option.isSome_iff_exists.mp (h.executor hc hreturn)
  refine ⟨e, hexecutor, fun hmem => ?_⟩
  cases hcloned : (runtime.contexts c).cloned with
  | true =>
      -- the clones of an executor that was returned are settled
      have hsettled := (h.clones e (.inl hmem) c hc hcloned hexecutor).1
      omega
  | false =>
      obtain ⟨e', -, -, ⟨-, hexecutor', hnot⟩ | ⟨hzero, -⟩⟩ := (h.ledger c hc).root hcloned
      · obtain rfl : e' = e := Option.some.inj (hexecutor'.symm.trans hexecutor)
        exact hnot hmem
      · omega

/-! ## Calls that finish -/

theorem perm_cons_eraseIdx {α : Type} {l : List α} {i : Nat} {a : α} (h : l[i]? = some a) :
    l.Perm (a :: l.eraseIdx i) := by
  obtain ⟨hi, rfl⟩ := List.getElem?_eq_some_iff.mp h
  exact (List.getElem_cons_eraseIdx_perm hi).symm

/-- A task of a loop runs. -/
theorem keeping_runTask {runtime : Runtime} {log : List Effect} (h : Keeping [] [] runtime log)
    (i : Nat) :
    Keeping [] [] ((runTask i).run runtime).locals (log ++ ((runTask i).run runtime).events) := by
  simp only [runTask, run_readLocals_bind]
  cases htask : runtime.pending[i]? with
  | none =>
      show Keeping [] [] runtime (log ++ [])
      rw [List.append_nil]
      exact h
  | some task =>
      have hstart : Keeping [task] [] { runtime with pending := runtime.pending.eraseIdx i } log :=
        Kept.perm h (perm_cons_eraseIdx htask) rfl rfl rfl rfl
      obtain ⟨-, -, hdone⟩ := keeping_task task [] [] _ _ hstart
      exact hdone

/-- The event work monitor gets to a context it was given. -/
theorem keeping_eventWork {runtime : Runtime} {log : List Effect} (h : Keeping [] [] runtime log)
    {i c : Nat} (hc : runtime.eventWork[i]? = some c) (hclones : runtime.ClonesDone c) :
    Keeping [.closeOfWork c] [c]
      { runtime with eventWork := runtime.eventWork.eraseIdx i } log := by
  have hkept : Kept ⟨runtime, runtime.pending, [], log⟩ := h
  have hperm := perm_cons_eraseIdx hc
  have hmem : c ∈ runtime.eventWork := hperm.mem_iff.mpr List.mem_cons_self
  have hcount : ∀ d, runtime.eventWork.count d =
      (runtime.eventWork.eraseIdx i).count d + [c].count d := by
    intro d
    rw [hperm.count_eq, ← List.singleton_append, List.count_append, Nat.add_comm]
  have hwork : ∀ d, [Task.closeOfWork c].count (.closeOfWork d) = [c].count d := by
    intro d
    rw [List.count_singleton, List.count_singleton]
    by_cases hd : c = d
    · simp [hd]
    · simp [hd]
  have htask : ∀ other : Task, (Task.closeOfWork c :: runtime.pending).count other =
      runtime.pending.count other + [Task.closeOfWork c].count other := by
    intro other
    rw [← List.singleton_append, List.count_append, Nat.add_comm]
  have hnone : ∀ other : Task, (∀ d, other ≠ .closeOfWork d) →
      [Task.closeOfWork c].count other = 0 := fun other hne =>
    List.count_eq_zero.mpr fun hmem => hne c (List.mem_singleton.mp hmem)
  show Kept ⟨{ runtime with eventWork := runtime.eventWork.eraseIdx i },
    .closeOfWork c :: runtime.pending, [c], log⟩
  have hfinish : ∀ d, Account.finishDue ⟨{ runtime with eventWork := runtime.eventWork.eraseIdx i },
      .closeOfWork c :: runtime.pending, [c], log⟩ d =
      Account.finishDue ⟨runtime, runtime.pending, [], log⟩ d := fun d => rfl
  refine hkept.moves ⟨rfl, rfl, rfl, rfl, fun d => ?_, fun d => ?_, fun d => ?_,
    fun task hmem' => ?_, fun d hd => ?_, fun d hd => ?_, fun e hreturns => ?_⟩
  · simp only [Account.requestDue, hfinish, htask, hnone (.closeOfRequest d) (by simp),
      Nat.add_zero]
  · simp only [Account.workDue, Account.eventDue, hfinish, htask,
      hnone (.queueWork d .queued) (by simp), hwork, hcount d]
    omega
  · simp only [Account.returnDue, Account.eventDue, hfinish, htask,
      hnone (.queueWork d .queued) (by simp), hcount d, List.count_nil]
    omega
  · rcases List.mem_cons.mp hmem' with rfl | hold
    · exact ⟨hkept.eventWork c hmem, by simp⟩
    · refine ⟨hkept.tasks task hold, fun d handOver heq => ?_⟩
      subst heq
      exact hkept.queued d handOver hold
  · exact hkept.eventWork d (List.mem_of_mem_eraseIdx hd)
  · rw [List.mem_singleton.mp hd]
    exact hkept.eventWork c hmem
  · rcases hreturns with hold | ⟨d, hd, hown⟩
    · exact .inl (.inl hold)
    · obtain rfl := List.mem_singleton.mp hd
      exact .inr fun clone hclone hcloned hexecutor =>
        settled_of_done (hclones e hown clone hclone hcloned hexecutor) [] log

/-- `done_with_work()` of the event work monitor. -/
theorem keeping_finishEventWork {runtime : Runtime} {log : List Effect}
    (h : Keeping [] [] runtime log) (sameLoop : Bool) {i : Nat}
    (hclones : ∀ c, runtime.eventWork[i]? = some c → runtime.ClonesDone c) :
    Keeping [] [] ((finishEventWork sameLoop i).run runtime).locals
      (log ++ ((finishEventWork sameLoop i).run runtime).events) := by
  simp only [finishEventWork, run_readLocals_bind]
  cases hc : runtime.eventWork[i]? with
  | none =>
      show Keeping [] [] runtime (log ++ [])
      rw [List.append_nil]
      exact h
  | some c =>
      obtain ⟨-, -, hdone⟩ := keeping_doneWithWork sameLoop c _ _
        (keeping_eventWork h hc (hclones c hc))
      exact hdone

/-! ## Runs -/

theorem run_onCreated (c : Nat) (piece : Managing Unit) (runtime : Runtime) :
    (onCreated c piece).run runtime =
      if c < runtime.created then piece.run runtime else ⟨[], runtime, .ok ()⟩ := by
  simp only [onCreated, run_readLocals_bind]
  split
  · rfl
  · rfl

/-- A call on a context that was not created does nothing. -/
theorem keeping_onCreated {runtime : Runtime} {log : List Effect} {c : Nat} {piece : Managing Unit}
    (h : Keeping [] [] runtime log)
    (hpiece : c < runtime.created →
      Keeping [] [] (piece.run runtime).locals (log ++ (piece.run runtime).events)) :
    Keeping [] [] ((onCreated c piece).run runtime).locals
      (log ++ ((onCreated c piece).run runtime).events) := by
  rw [run_onCreated]
  split
  · exact hpiece ‹_›
  · rw [List.append_nil]
    exact h

theorem Op.keeping_exec {op : Op} {s : Served} (h : Keeping [] [] s.runtime s.log)
    (hok : op.InOrder s) : Keeping [] [] (op.exec s).runtime (op.exec s).log := by
  cases op with
  | new reservationist effectiveInvocation hasEventWorkQueue =>
      show Keeping [] [] ((newContext ..).run s.runtime).locals
        (s.log ++ ((newContext ..).run s.runtime).events)
      rw [run_newContext]
      have hquiet : (createdContext s.runtime.executors reservationist effectiveInvocation
          hasEventWorkQueue).Quiet := ⟨fun _ hmem => absurd hmem List.not_mem_nil, hok⟩
      exact Kept.create h (.root rfl rfl) hquiet rfl rfl rfl
  | addResource c resource =>
      refine keeping_onCreated h fun hc => ?_
      exact Kept.add h hc hok.1 hok.2.1 hok.2.2
  | reset c =>
      refine keeping_onCreated h fun hc => ?_
      obtain ⟨e, hexecutor, -⟩ := Kept.executor_of_unfinished h hc hok.1
      have hrun : (Sessions.reset c).run s.runtime = ⟨[], s.runtime.update c fun context =>
          { context with hasQueue := true, exchange := context.exchange + 1 }, .ok ()⟩ := by
        simp only [Sessions.reset, run_updateContext_bind, run_readContext_bind,
          Runtime.update_contexts_self, hexecutor]
        rfl
      rw [hrun]
      exact Kept.reset h hc hok.1 hok.2
  | safeShallowCopy c invocation =>
      refine keeping_onCreated h fun hc => ?_
      have hkept : Kept ⟨s.runtime, s.runtime.pending, [], s.log⟩ := h
      obtain ⟨e, hexecutor, hnot⟩ := hkept.executor_of_unfinished hc hok
      have hquiet := (hkept.ledger c hc).quiet
      exact Kept.create h (.clone e rfl hexecutor hnot)
        ⟨fun _ hmem => absurd hmem List.not_mem_nil, hquiet.reservationist⟩ hok rfl rfl
  | finishRequest sameLoop handOver c =>
      exact keeping_onCreated h fun hc => keeping_finishRequest sameLoop handOver h hc hok
  | runTask i => exact keeping_runTask h i
  | doneWithWork sameLoop i => exact keeping_finishEventWork h sameLoop hok

/-- The root that obtained an executor, and whether it was returned. -/
theorem Kept.root_of_obtained {a : Account} (h : Kept a) {c k e : Nat}
    (hobtained : .obtained c k e ∈ a.log) :
    a.returnDue c = 1 ∧ .returned e ∉ a.log ∨
      a.returnDue c = 0 ∧ a.log.count (.returned e) = 1 := by
  have hledger := h.ledger c (h.logged _ hobtained c rfl)
  cases hcloned : (a.context c).cloned with
  | true => exact absurd hobtained ((hledger.clone hcloned).2 k e)
  | false =>
      obtain ⟨e', -, hunique, hreturns⟩ := hledger.root hcloned
      obtain rfl := hunique k e hobtained
      exact hreturns.imp (fun h => ⟨h.1, h.2.2⟩) fun h => ⟨h.1, h.2.2⟩

theorem exchangesClosed_of_kept {s : Served} (hkeeping : Keeping [] [] s.runtime s.log) :
    ExchangesClosed s := by
  have h : Kept ⟨s.runtime, s.runtime.pending, [], s.log⟩ := hkeeping
  have hcreated : ∀ {c k}, .finishCalled c k ∈ s.log → c < s.runtime.created :=
    fun hmem => h.logged _ hmem _ rfl
  constructor
  · intro e
    -- an executor has one root, and that is charged once
    by_cases hmem : .returned e ∈ s.log
    · obtain ⟨c, hobtained⟩ := h.returned e hmem
      rcases h.root_of_obtained hobtained with ⟨-, hnot⟩ | ⟨-, hone⟩
      · exact absurd hmem hnot
      · exact Nat.le_of_eq hone
    · rw [List.count_eq_zero.mpr hmem]
      exact Nat.zero_le 1
  · rintro c k e hobtained ⟨-, hdone⟩
    -- the exchange is done, so that nothing is due
    obtain ⟨-, hwork⟩ := settled_of_done hdone [] s.log
    rcases h.root_of_obtained hobtained with ⟨hdue, -⟩ | ⟨-, hone⟩
    · simp only [Account.workDue] at hwork
      simp only [Account.returnDue, List.count_nil] at hdue
      omega
    · exact List.count_pos_iff.mp (hone ▸ Nat.zero_lt_one)
  · intro e hmem c hc hcloned hexecutor
    exact h.done_of_settled (h.clones e (.inl hmem) c hc hcloned hexecutor)
  · intro c k r
    by_cases hc : c < s.runtime.created
    · have hledger := h.ledger c hc
      constructor
      · rcases hledger.request with ⟨-, -, hnone⟩ | ⟨-, -, hall⟩
        · rw [List.count_eq_zero.mpr (hnone k r)]
          exact Nat.zero_le _
        · exact Nat.le_of_eq (hall k r)
      · rcases hledger.work with ⟨-, hnone⟩ | ⟨-, hall⟩
        · rw [List.count_eq_zero.mpr (hnone k r)]
          exact Nat.zero_le _
        · exact Nat.le_of_eq (hall k r)
    · have hnone : ∀ effect : Effect, effect.Of c → s.log.count effect = 0 :=
        fun effect hof => List.count_eq_zero.mpr fun hmem => hc (h.logged effect hmem c hof)
      rw [hnone (.closedOfRequest c k r) rfl, hnone (.closedOfWork c k r) rfl]
      exact ⟨Nat.zero_le _, Nat.zero_le _⟩
  · rintro c k r ⟨⟨later, -, hmem⟩, hdone⟩
    have hledger := h.ledger c (hcreated hmem)
    obtain ⟨hrequest, hwork⟩ := settled_of_done hdone [] s.log
    constructor
    · rcases hledger.request with ⟨hdue, -⟩ | ⟨-, -, hall⟩
      · omega
      · exact hall k r
    · rcases hledger.work with ⟨hdue, -⟩ | ⟨-, hall⟩
      · omega
      · exact hall k r
  · intro c k hmem hdone
    have hledger := h.ledger c (hcreated hmem)
    obtain ⟨hrequest, -⟩ := settled_of_done hdone [] s.log
    have hk : k = (s.runtime.contexts c).exchange := (hledger.called k hmem).2
    rcases hledger.request with ⟨hdue, -⟩ | ⟨-, hqueue, -⟩
    · omega
    · rw [hk]
      exact hqueue

theorem keeping_initial : Keeping [] [] Served.initial.runtime Served.initial.log := by
  have hnone : ∀ {α : Type} {p : α → Prop}, ∀ a ∈ ([] : List α), p a :=
    fun a hmem => absurd hmem List.not_mem_nil
  constructor
  · exact fun c hc => absurd hc (Nat.not_lt_zero c)
  · exact hnone
  · exact fun c handOver hmem => absurd hmem List.not_mem_nil
  · exact hnone
  · exact hnone
  · exact hnone
  · exact fun c k e hmem => absurd hmem List.not_mem_nil
  · exact fun e hmem => absurd hmem List.not_mem_nil
  · exact fun c d k k' e hmem => absurd hmem List.not_mem_nil
  · exact fun e _ c hc => absurd hc (Nat.not_lt_zero c)

/-- The call of `finish_request` is logged. -/
theorem finishCalled_mem_exec {s : Served} {c : Nat} (hc : c < s.runtime.created)
    (sameLoop : Bool) (handOver : HandOver) :
    .finishCalled c (s.runtime.contexts c).exchange ∈
      ((Op.finishRequest sameLoop handOver c).exec s).log := by
  refine List.mem_append_right _ ?_
  show _ ∈ ((onCreated c (finishRequest sameLoop handOver c)).run s.runtime).events
  rw [run_onCreated, if_pos hc]
  cases hfinished : (s.runtime.contexts c).requestFinished with
  | true =>
      rw [run_finishRequest_finished hfinished]
      exact List.mem_cons_self
  | false =>
      rw [run_finishRequest hfinished]
      exact List.mem_cons_self

/-- **Exchanges.** In a run whose calls come in order, every executor is returned and
every resource and queue closed exactly once for each exchange that has ended, and
no executor is returned while a clone that uses it is unfinished. A call of
`finish_request` that comes in order ends the request of its context. -/
theorem exchangesClosed_of_runs {s : Served} (hr : Runs Op.exec Op.InOrder Served.initial s) :
    ExchangesClosed s ∧ ∀ sameLoop handOver, ∀ c < s.runtime.created,
      (Op.finishRequest sameLoop handOver c).InOrder s →
        .finishCalled c (s.runtime.contexts c).exchange ∈
            ((Op.finishRequest sameLoop handOver c).exec s).log ∧
          (((Op.finishRequest sameLoop handOver c).exec s).runtime.contexts c).requestFinished =
            true := by
  have hkeeping : Keeping [] [] s.runtime s.log :=
    Runs.invariant (I := fun s => Keeping [] [] s.runtime s.log) keeping_initial
      (fun op s h hok => op.keeping_exec h hok) hr
  refine ⟨exchangesClosed_of_kept hkeeping, fun sameLoop handOver c hc hok => ?_⟩
  have hmem := finishCalled_mem_exec hc sameLoop handOver
  have hkept : Kept ⟨_, _, [], _⟩ := Op.keeping_exec hkeeping hok
  exact ⟨hmem, ((hkept.ledger c (hkept.logged _ hmem c rfl)).called _ hmem).1⟩

/-- One exchange with a resource, and a clone that is finished from the loop of the
executor before it. -/
def oneExchange : List Op :=
  [.new none (str "chatbot") false, .addResource 0 ⟨7, none, none⟩, .safeShallowCopy 0 none,
    .finishRequest true .queued 1, .runTask 0, .runTask 0, .finishRequest false .queued 0]

/-- Afterwards the executor is returned, the resource is closed, and the queue is. -/
theorem oneExchange_closed :
    ∃ s, Runs Op.exec Op.InOrder Served.initial s ∧ ExchangesClosed s ∧ .returned 0 ∈ s.log ∧
      s.log.count (.closedOfRequest 0 0 7) = 1 ∧ s.log.count (.closedOfWork 0 0 7) = 1 ∧
      .queueClosed 0 0 ∈ s.log := by
  have hruns : Runs Op.exec Op.InOrder Served.initial
      (oneExchange.foldl (fun s op => op.exec s) Served.initial) := by
    refine Runs.of_ops .init ?_
    refine ⟨fun r h => (nomatch h), ⟨rfl, rfl, rfl⟩, rfl, .inr ?_, trivial, trivial, .inr ?_,
      trivial⟩
    · rw [if_neg (by decide +kernel)]
      intro executor h
      have hnone : (((oneExchange.take 3).foldl (fun s op => Op.exec op s)
        Served.initial).runtime.contexts
          1).ownExecutor = none := by decide +kernel
      exact absurd (hnone.symm.trans h) (Option.some_ne_none executor).symm
    · rw [if_neg (by decide +kernel)]
      intro executor _ clone hclone hcloned _
      have hlt : clone < 2 := hclone
      obtain rfl | rfl : clone = 0 ∨ clone = 1 := by omega
      · exact absurd hcloned (by decide +kernel)
      · have hpending : ((oneExchange.take 6).foldl (fun s op => Op.exec op s)
            Served.initial).runtime.pending = [] := by decide +kernel
        exact ⟨by decide +kernel, fun task hmem => absurd (hpending ▸ hmem) List.not_mem_nil,
          by decide +kernel⟩
  exact ⟨_, hruns, (exchangesClosed_of_runs hruns).1, by decide +kernel, by decide +kernel,
    by decide +kernel, by decide +kernel⟩

/-- Two exchanges on one context, with a resource in the second. -/
def twoExchanges : List Op :=
  [.new none (str "chatbot") false, .finishRequest false .queued 0, .reset 0,
    .addResource 0 ⟨7, none, none⟩, .finishRequest false .queued 0]

/-- The second exchange on a context is never closed. -/
theorem secondExchange_not_closed :
    ¬∀ s, Runs Op.exec Runs.anyOp Served.initial s → ExchangesClosed s := by
  intro h
  have hrun : Runs Op.exec Runs.anyOp Served.initial
      (twoExchanges.foldl (fun s op => op.exec s) Served.initial) :=
    Runs.of_ops .init ⟨trivial, trivial, trivial, trivial, trivial, trivial⟩
  have hpending : (twoExchanges.foldl (fun s op => Op.exec op s)
      Served.initial).runtime.pending = [] := by decide +kernel
  have hended : Served.Ended (twoExchanges.foldl (fun s op => op.exec s) Served.initial) 0 1 :=
    ⟨⟨1, Nat.le_refl 1, by decide +kernel⟩, by decide +kernel, fun task hmem =>
      absurd (hpending ▸ hmem) List.not_mem_nil, by decide +kernel⟩
  have hclosed := ((h _ hrun).closed 0 1 7 hended).1
  exact absurd hclosed (by decide +kernel)

end NoraFleet.Sessions
