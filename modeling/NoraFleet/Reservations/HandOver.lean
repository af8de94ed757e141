import Mathlib.Data.List.Perm.Basic
import NoraFleet.Base.Interleaving
import NoraFleet.Reservations.Accumulating

/-!
# Handing batches over to the storage updater

`ServiceAgentReservationist.deploy` puts every batch on an `AsyncCollatingQueue`,
`close_of_work` puts the final item, and `TempNetworkStorageUpdater.process_one_queue`
takes items off in another thread until it sees that final item. A put is a look
at `last_item_sent` and then, as a step of its own, the enqueue; the look drops
what comes after the final item was sent. An event is not set by the consumer
itself: the setting is handed to the event loop the event belongs to.

* `consumer_invariant` — in every run, what was put on the queue so far is what
  was processed, what the consumer has in hand and what is still queued;
* `puts_invariant` — in every run, what a call was called with is what it has put
  on the queue, what it has dropped since the flag was set, and what is left;
* `enqueued_perm` — in every run, what is put on the queue is what the calls have
  put there, each once;
* `handedOver_at_final` — so a deployment that has returned has put each of its
  batches on the queue once, unless it dropped it, and when the consumer returns
  on the final item it has processed exactly the batches put before that item, in
  the order they were put, and handed the setting of each of their events over once;
* `dropped_and_pending` — runs with a batch that was dropped and with an event
  that is not set yet at that point.
-/

namespace NoraFleet.Reservations

open Base Base.Program

/-- What `deploy` puts on the queue for a batch. The event comes with the event
loop it belongs to. -/
structure QueuedItem (Spec Time Loop : Type*) where
  source : String
  deploymentDict : Batch Spec Time
  maxLifetimeInSeconds : Time
  event : Option (Nat × Loop)
  deriving DecidableEq

/-- An entry of the queue: an item, or `END_MESSAGE`. -/
inductive Entry (Spec Time Loop : Type*) where
  | item (queuedItem : QueuedItem Spec Time Loop)
  | final
  deriving DecidableEq

/-- The control point of `process_one_queue`. -/
inductive Consumer (Spec Time Loop : Type*) where
  | get
  | sleep
  -- process_one_queued_item
  | deployTogether (queuedItem : QueuedItem Spec Time Loop)
  | notify (queuedItem : QueuedItem Spec Time Loop)
  | close
  | returnedOnFinal
  | returnedOnClosed
  | raised
  deriving DecidableEq

/-- The queue with the flag of its wrapper, the consumer, the settings of events
handed to their loops and not run yet, and what happened so far: what was put on
the queue, what was deployed, which events were set. -/
structure Queue (Spec Time Loop : Type*) where
  queue : List (Entry Spec Time Loop)
  lastItemSent : Bool
  closed : Bool
  consumer : Consumer Spec Time Loop
  scheduled : List (Nat × Loop)
  enqueued : List (Entry Spec Time Loop)
  processed : List (QueuedItem Spec Time Loop)
  eventsSet : List (Nat × Loop)

/-- The calls of the reservationist. A `deployment_dict` here maps a supporting
reservation to the batches of one block, each under its key. -/
inductive ServiceOp (Spec Time Loop : Type*) where
  | deploy (runningLoop : Loop)
      (deploymentDict : List (AgentReservation Time × List (Key × Batch Spec Time)))
  | closeOfWork

/-- What a call was called with, and what became of it: the items it has put on
the queue, and those that a put dropped. -/
structure Puts (Spec Time Loop : Type*) where
  passed : List (QueuedItem Spec Time Loop)
  kept : List (QueuedItem Spec Time Loop)
  dropped : List (QueuedItem Spec Time Loop)
  deriving DecidableEq

/-- The control point of such a call; `rest` are the items it has still to put. -/
inductive ServiceCall (Spec Time Loop : Type*) where
  -- put
  | putCheck (puts : Puts Spec Time Loop) (rest : List (QueuedItem Spec Time Loop))
  | putEnqueue (puts : Puts Spec Time Loop) (queuedItem : QueuedItem Spec Time Loop)
      (rest : List (QueuedItem Spec Time Loop))
  -- put_final_item
  | finalCheck
  | finalSet
  | finalEnqueue
  | returned (puts : Puts Spec Time Loop)
  | raised (puts : Puts Spec Time Loop)
  deriving DecidableEq

/-- What happens outside the calls: a step of the consumer, where the `await` or
the hand-over in it may fail, or a loop running a setting it was handed. -/
inductive Background where
  | consumer (fails : Bool)
  | runScheduled (i : Nat)

section Steps

variable {Spec Time Loop : Type*}

/-- The items of a `deployment_dict`: one for each batch, with the event and the
running loop where the key is an event. -/
def queuedItems (maxLifetimeInSeconds : Time) (runningLoop : Loop)
    (deploymentDict : List (AgentReservation Time × List (Key × Batch Spec Time))) :
    List (QueuedItem Spec Time Loop) :=
  deploymentDict.flatMap fun (reservation, toDeploy) =>
    toDeploy.map fun (key, value) =>
      { source := reservation.idPrefix
        deploymentDict := value
        maxLifetimeInSeconds := maxLifetimeInSeconds
        event :=
          match key with
          | .event event => some (event, runningLoop)
          | .id _ => none }

/-- The entry goes to the end of the queue. -/
def Queue.enqueue (q : Queue Spec Time Loop) (entry : Entry Spec Time Loop) :
    Queue Spec Time Loop :=
  { q with queue := q.queue ++ [entry], enqueued := q.enqueued ++ [entry] }

/-- A put of the item has come to its enqueue. -/
def Puts.keep (puts : Puts Spec Time Loop) (queuedItem : QueuedItem Spec Time Loop) :
    Puts Spec Time Loop :=
  { puts with kept := puts.kept ++ [queuedItem] }

/-- A put of the item has dropped it. -/
def Puts.drop (puts : Puts Spec Time Loop) (queuedItem : QueuedItem Spec Time Loop) :
    Puts Spec Time Loop :=
  { puts with dropped := puts.dropped ++ [queuedItem] }

/-- `close_of_work` is called with no items. -/
def Puts.none : Puts Spec Time Loop := ⟨[], [], []⟩

/-- One step of a call of the reservationist. A put on a closed queue raises. -/
def serviceStep (q : Queue Spec Time Loop) :
    ServiceCall Spec Time Loop → Option (Queue Spec Time Loop × ServiceCall Spec Time Loop)
  | .putCheck puts [] => some (q, .returned puts)
  | .putCheck puts (queuedItem :: rest) =>
      -- if the last message was sent, don't put anything else
      if q.lastItemSent then some (q, .putCheck (puts.drop queuedItem) rest)
      else some (q, .putEnqueue puts queuedItem rest)
  | .putEnqueue puts queuedItem rest =>
      if q.closed then some (q, .raised puts)
      else some (q.enqueue (.item queuedItem), .putCheck (puts.keep queuedItem) rest)
  | .finalCheck => some (q, if q.lastItemSent then .returned Puts.none else .finalSet)
  | .finalSet => some ({ q with lastItemSent := true }, .finalEnqueue)
  | .finalEnqueue =>
      if q.closed then some (q, .raised Puts.none)
      else some (q.enqueue .final, .returned Puts.none)
  | .returned _ => none
  | .raised _ => none

/-- One step of `process_one_queue`. What `deploy_together` raises is logged and
swallowed, short of a cancellation (`fails`), which also ends a sleep; handing a
setting to a loop that is closed raises. -/
def consumerStep (fails : Bool) (q : Queue Spec Time Loop) : Option (Queue Spec Time Loop) :=
  match q.consumer with
  | .get =>
      if q.closed then some { q with consumer := .returnedOnClosed }
      else
        match q.queue with
        | [] => some { q with consumer := .sleep }
        | .final :: rest => some { q with queue := rest, consumer := .close }
        | .item queuedItem :: rest =>
            some { q with queue := rest, consumer := .deployTogether queuedItem }
  | .sleep => some { q with consumer := if fails then .raised else .get }
  | .deployTogether queuedItem =>
      if fails then some { q with consumer := .raised }
      else some { q with
        processed := q.processed ++ [queuedItem]
        consumer := .notify queuedItem }
  | .notify queuedItem =>
      match queuedItem.event with
      | none => some { q with consumer := .get }
      | some event =>
          if fails then some { q with consumer := .raised }
          else some { q with scheduled := q.scheduled ++ [event], consumer := .get }
  | .close => some { q with closed := true, consumer := .returnedOnFinal }
  | .returnedOnFinal => none
  | .returnedOnClosed => none
  | .raised => none

/-- A loop runs the setting number `i` of those not run yet. -/
def runScheduled (i : Nat) (q : Queue Spec Time Loop) : Option (Queue Spec Time Loop) :=
  match q.scheduled[i]? with
  | none => none
  | some event =>
      some { q with
        scheduled := q.scheduled.eraseIdx i
        eventsSet := q.eventsSet ++ [event] }

/-- Any number of `deploy` and `close_of_work` calls on one reservationist, with
the consumer and the event loops in between. -/
def handOverProgram (maxLifetimeInSeconds : Time) :
    Program (Queue Spec Time Loop) (ServiceOp Spec Time Loop) (ServiceCall Spec Time Loop)
      Unit Background where
  start
    | .deploy runningLoop deploymentDict =>
        let items := queuedItems maxLifetimeInSeconds runningLoop deploymentDict
        .putCheck ⟨items, [], []⟩ items
    | .closeOfWork => .finalCheck
  step := fun _ => serviceStep
  env
    | .consumer fails => consumerStep fails
    | .runScheduled i => runScheduled i

/-- A new queue with its consumer. -/
def initialQueue : Queue Spec Time Loop := ⟨[], false, false, .get, [], [], [], []⟩

/-- The items put before the first final item. -/
def itemsBeforeFinal : List (Entry Spec Time Loop) → List (QueuedItem Spec Time Loop)
  | [] => []
  | .final :: _ => []
  | .item queuedItem :: rest => queuedItem :: itemsBeforeFinal rest

theorem itemsBeforeFinal_append (items : List (QueuedItem Spec Time Loop))
    (rest : List (Entry Spec Time Loop)) :
    itemsBeforeFinal (items.map .item ++ .final :: rest) = items := by
  induction items with
  | nil => rfl
  | cons queuedItem items ih =>
      show queuedItem :: itemsBeforeFinal (items.map .item ++ .final :: rest) = _
      rw [ih]

/-! ## The invariant -/

/-- What the consumer has taken off the queue and not processed. -/
def Consumer.inHand : Consumer Spec Time Loop → List (Entry Spec Time Loop)
  | .deployTogether queuedItem => [.item queuedItem]
  | .close => [.final]
  | .returnedOnFinal => [.final]
  | _ => []

/-- The setting the consumer has still to hand over. -/
def Consumer.owed : Consumer Spec Time Loop → List (Nat × Loop)
  | .notify queuedItem => queuedItem.event.toList
  | _ => []

/-- As long as the consumer has not raised: everything put on the queue was
processed, is in hand or is queued, in this order; the events of what was
processed are set, handed over or about to be, each once; and only a consumer
that has seen the final item has closed the queue. -/
structure InOrder (q : Queue Spec Time Loop) : Prop where
  entries : q.enqueued = q.processed.map .item ++ q.consumer.inHand ++ q.queue
  events : (q.eventsSet ++ q.scheduled ++ q.consumer.owed).Perm
    (q.processed.filterMap QueuedItem.event)
  closed : q.closed = true → q.consumer = .returnedOnFinal

/-- The items a call has put on the queue. -/
def ServiceCall.kept : ServiceCall Spec Time Loop → List (QueuedItem Spec Time Loop)
  | .putCheck puts _ => puts.kept
  | .putEnqueue puts _ _ => puts.kept
  | .finalCheck => []
  | .finalSet => []
  | .finalEnqueue => []
  | .returned puts => puts.kept
  | .raised puts => puts.kept

/-- The item of an entry. -/
def Entry.queuedItem? : Entry Spec Time Loop → Option (QueuedItem Spec Time Loop)
  | .item queuedItem => some queuedItem
  | .final => none

/-- What a step of a call can do: set the flag or leave the queue as it is, or
put one entry at its end, which is the item the call then has put there, if it
is one. -/
theorem serviceStep_queue {q q' : Queue Spec Time Loop} {l l' : ServiceCall Spec Time Loop}
    (h : serviceStep q l = some (q', l')) :
    ((q' = q ∨ q' = { q with lastItemSent := true }) ∧ l'.kept = l.kept) ∨
      ∃ entry, q' = q.enqueue entry ∧ l'.kept = l.kept ++ entry.queuedItem?.toList ∧
        (entry = .final → l = .finalEnqueue) := by
  cases l with
  | putCheck puts rest =>
      cases rest with
      | nil =>
          obtain ⟨rfl, rfl⟩ := Prod.mk.inj (Option.some.inj h)
          exact .inl ⟨.inl rfl, rfl⟩
      | cons queuedItem rest =>
          simp only [serviceStep] at h
          split at h <;>
          · obtain ⟨rfl, rfl⟩ := Prod.mk.inj (Option.some.inj h)
            exact .inl ⟨.inl rfl, rfl⟩
  | putEnqueue puts queuedItem rest =>
      simp only [serviceStep] at h
      split at h
      · obtain ⟨rfl, rfl⟩ := Prod.mk.inj (Option.some.inj h)
        exact .inl ⟨.inl rfl, rfl⟩
      · obtain ⟨rfl, rfl⟩ := Prod.mk.inj (Option.some.inj h)
        exact .inr ⟨.item queuedItem, rfl, rfl, fun h => by cases h⟩
  | finalCheck =>
      obtain ⟨rfl, rfl⟩ := Prod.mk.inj (Option.some.inj h)
      refine .inl ⟨.inl rfl, ?_⟩
      split
      · rfl
      · rfl
  | finalSet =>
      obtain ⟨rfl, rfl⟩ := Prod.mk.inj (Option.some.inj h)
      exact .inl ⟨.inr rfl, rfl⟩
  | finalEnqueue =>
      simp only [serviceStep] at h
      split at h
      · obtain ⟨rfl, rfl⟩ := Prod.mk.inj (Option.some.inj h)
        exact .inl ⟨.inl rfl, rfl⟩
      · obtain ⟨rfl, rfl⟩ := Prod.mk.inj (Option.some.inj h)
        exact .inr ⟨.final, rfl, rfl, fun _ => rfl⟩
  | returned puts => cases h
  | raised puts => cases h

/-- Putting an entry keeps the order. -/
theorem InOrder.enqueue {q : Queue Spec Time Loop} (h : InOrder q)
    (entry : Entry Spec Time Loop) : InOrder (q.enqueue entry) where
  entries := by
    show q.enqueued ++ [entry] = q.processed.map .item ++ q.consumer.inHand ++ (q.queue ++ [entry])
    rw [h.entries, List.append_assoc _ q.queue]
  events := h.events
  closed := h.closed

/-- A step of the consumer that does not raise keeps the order. -/
theorem InOrder.consumer {q q' : Queue Spec Time Loop} {fails : Bool} (h : InOrder q)
    (hs : consumerStep fails q = some q') : q'.consumer = .raised ∨ InOrder q' := by
  obtain ⟨queue, lastItemSent, closed, consumer, scheduled, enqueued, processed, eventsSet⟩ := q
  obtain ⟨hentries, hevents, hclosed⟩ := h
  cases consumer with
  | get =>
      -- the queue is closed when the consumer is past its loop
      have hopen : closed = false := by
        cases closed with
        | false => rfl
        | true => cases hclosed rfl
      subst hopen
      simp only [consumerStep, Bool.false_eq_true, if_false] at hs
      cases queue with
      | nil =>
          obtain rfl := Option.some.inj hs
          exact .inr ⟨hentries, hevents, fun h => nomatch h⟩
      | cons entry rest =>
          have hentries' : enqueued = processed.map .item ++ [entry] ++ rest := by
            rw [List.append_assoc]
            simpa [Consumer.inHand] using hentries
          cases entry <;>
          · obtain rfl := Option.some.inj hs
            exact .inr ⟨hentries', hevents, fun h => nomatch h⟩
  | sleep =>
      obtain rfl := Option.some.inj hs
      cases fails with
      | true => exact .inl rfl
      | false => exact .inr ⟨hentries, hevents, fun hc => nomatch hclosed hc⟩
  | deployTogether queuedItem =>
      cases fails with
      | true =>
          obtain rfl := Option.some.inj hs
          exact .inl rfl
      | false =>
          obtain rfl := Option.some.inj hs
          refine .inr ⟨?_, ?_, fun hc => nomatch hclosed hc⟩
          · simpa [Consumer.inHand] using hentries
          · -- the batch is processed, and its event is owed until it is notified
            have hone : [queuedItem].filterMap QueuedItem.event = queuedItem.event.toList := by
              cases h : queuedItem.event <;> simp [h]
            simp only [Consumer.owed, List.append_nil] at hevents
            simp only [Consumer.owed, List.filterMap_append, hone]
            exact List.Perm.append_right _ hevents
  | notify queuedItem =>
      simp only [consumerStep] at hs
      simp only [Consumer.owed] at hevents
      -- the event that was owed is scheduled
      cases hevent : queuedItem.event with
      | none =>
          rw [hevent] at hs hevents
          obtain rfl := Option.some.inj hs
          exact .inr ⟨hentries, hevents, fun hc => nomatch hclosed hc⟩
      | some event =>
          rw [hevent] at hs hevents
          cases fails with
          | true =>
              obtain rfl := Option.some.inj hs
              exact .inl rfl
          | false =>
              obtain rfl := Option.some.inj hs
              refine .inr ⟨hentries, ?_, fun hc => nomatch hclosed hc⟩
              simpa [Consumer.owed] using hevents
  | close =>
      obtain rfl := Option.some.inj hs
      exact .inr ⟨hentries, hevents, fun _ => rfl⟩
  | returnedOnFinal => cases hs
  | returnedOnClosed => cases hs
  | raised => cases hs

theorem InOrder.runScheduled {q q' : Queue Spec Time Loop} {i : Nat} (h : InOrder q)
    (hs : runScheduled i q = some q') : q'.consumer = q.consumer ∧ InOrder q' := by
  unfold Reservations.runScheduled at hs
  split at hs
  · cases hs
  · rename_i event hevent
    obtain rfl := Option.some.inj hs
    refine ⟨rfl, h.entries, ?_, h.closed⟩
    refine List.Perm.trans (List.Perm.append_right _ ?_) h.events
    rw [List.append_assoc]
    refine List.Perm.append_left _ ?_
    obtain ⟨hlt, heq⟩ := List.getElem?_eq_some_iff.mp hevent
    rw [← heq]
    exact List.getElem_cons_eraseIdx_perm hlt

/-! ## What becomes of the items of a call -/

/-- Every item of a call was put on the queue, or a put dropped it, or is left
to be put. Puts drop only since the flag was set. -/
structure PutsRight (q : Queue Spec Time Loop) (puts : Puts Spec Time Loop)
    (rest : List (QueuedItem Spec Time Loop)) : Prop where
  split : puts.passed = puts.kept ++ puts.dropped ++ rest
  kept : (puts.kept.map Entry.item).Sublist q.enqueued
  flag : puts.dropped ≠ [] → q.lastItemSent = true

/-- What the code keeps at each control point. A put that has passed the check
has no item dropped before it, and the final item comes after the flag. -/
def ServiceCall.Right (q : Queue Spec Time Loop) : ServiceCall Spec Time Loop → Prop
  | .putCheck puts rest => PutsRight q puts rest
  | .putEnqueue puts queuedItem rest => PutsRight q puts (queuedItem :: rest) ∧ puts.dropped = []
  | .finalCheck => True
  | .finalSet => True
  | .finalEnqueue => q.lastItemSent = true
  | .returned puts => PutsRight q puts []
  | .raised _ => True

/-- Nothing leaves what was put on the queue, and the flag stays set. -/
theorem PutsRight.mono {q q' : Queue Spec Time Loop} {puts : Puts Spec Time Loop}
    {rest : List (QueuedItem Spec Time Loop)} (h : PutsRight q puts rest)
    (henqueued : q.enqueued.Sublist q'.enqueued)
    (hflag : q.lastItemSent = true → q'.lastItemSent = true) : PutsRight q' puts rest :=
  ⟨h.split, h.kept.trans henqueued, fun hdropped => hflag (h.flag hdropped)⟩

theorem ServiceCall.Right.mono {q q' : Queue Spec Time Loop} {l : ServiceCall Spec Time Loop}
    (h : l.Right q) (henqueued : q.enqueued.Sublist q'.enqueued)
    (hflag : q.lastItemSent = true → q'.lastItemSent = true) : l.Right q' := by
  cases l with
  | putCheck puts rest => exact PutsRight.mono h henqueued hflag
  | putEnqueue puts queuedItem rest => exact ⟨h.1.mono henqueued hflag, h.2⟩
  | returned puts => exact PutsRight.mono h henqueued hflag
  | finalEnqueue => exact hflag h
  | _ => trivial

/-- The put after a check that found the flag set. -/
theorem PutsRight.drop {q : Queue Spec Time Loop} {puts : Puts Spec Time Loop}
    {queuedItem : QueuedItem Spec Time Loop} {rest : List (QueuedItem Spec Time Loop)}
    (h : PutsRight q puts (queuedItem :: rest)) (hflag : q.lastItemSent = true) :
    PutsRight q (puts.drop queuedItem) rest where
  split := by
    show puts.passed = puts.kept ++ (puts.dropped ++ [queuedItem]) ++ rest
    rw [h.split]
    simp only [List.append_assoc, List.singleton_append]
  kept := h.kept
  flag := fun _ => hflag

/-- The put after a check that did not, and its enqueue. -/
theorem PutsRight.keep {q : Queue Spec Time Loop} {puts : Puts Spec Time Loop}
    {queuedItem : QueuedItem Spec Time Loop} {rest : List (QueuedItem Spec Time Loop)}
    (h : PutsRight q puts (queuedItem :: rest)) (hdropped : puts.dropped = []) :
    PutsRight (q.enqueue (.item queuedItem)) (puts.keep queuedItem) rest where
  split := by
    show puts.passed = puts.kept ++ [queuedItem] ++ puts.dropped ++ rest
    rw [h.split, hdropped]
    simp only [List.append_nil, List.append_assoc, List.singleton_append]
  kept := by
    show ((puts.kept ++ [queuedItem]).map Entry.item).Sublist (q.enqueued ++ [.item queuedItem])
    rw [List.map_append]
    exact h.kept.append (.refl _)
  flag := fun h => absurd hdropped h

/-- A step keeps account of the items of its call. -/
theorem ServiceCall.Right.step {q q' : Queue Spec Time Loop} {l l' : ServiceCall Spec Time Loop}
    (h : l.Right q) (hs : serviceStep q l = some (q', l')) : l'.Right q' := by
  cases l with
  | putCheck puts rest =>
      cases rest with
      | nil =>
          obtain ⟨rfl, rfl⟩ := Prod.mk.inj (Option.some.inj hs)
          exact h
      | cons queuedItem rest =>
          simp only [serviceStep] at hs
          split at hs
          · rename_i hflag
            obtain ⟨rfl, rfl⟩ := Prod.mk.inj (Option.some.inj hs)
            exact PutsRight.drop h hflag
          · rename_i hflag
            obtain ⟨rfl, rfl⟩ := Prod.mk.inj (Option.some.inj hs)
            -- with the flag not set, nothing was dropped before
            refine ⟨h, ?_⟩
            by_contra hdropped
            exact hflag (PutsRight.flag h hdropped)
  | putEnqueue puts queuedItem rest =>
      simp only [serviceStep] at hs
      split at hs
      · obtain ⟨rfl, rfl⟩ := Prod.mk.inj (Option.some.inj hs)
        trivial
      · obtain ⟨rfl, rfl⟩ := Prod.mk.inj (Option.some.inj hs)
        exact h.1.keep h.2
  | finalCheck =>
      obtain ⟨rfl, rfl⟩ := Prod.mk.inj (Option.some.inj hs)
      split
      · exact ⟨rfl, List.nil_sublist _, fun h => absurd rfl h⟩
      · trivial
  | finalSet =>
      obtain ⟨rfl, rfl⟩ := Prod.mk.inj (Option.some.inj hs)
      exact rfl
  | finalEnqueue =>
      simp only [serviceStep] at hs
      split at hs
      · obtain ⟨rfl, rfl⟩ := Prod.mk.inj (Option.some.inj hs)
        trivial
      · obtain ⟨rfl, rfl⟩ := Prod.mk.inj (Option.some.inj hs)
        exact ⟨rfl, List.nil_sublist _, fun h => absurd rfl h⟩
  | returned puts => cases hs
  | raised puts => cases hs

/-- Before the flag is set, no final item is put. -/
def FlagFirst (q : Queue Spec Time Loop) : Prop :=
  q.lastItemSent = false → Entry.final ∉ q.enqueued

/-- A step of a call puts the final item only after the flag was set. -/
theorem FlagFirst.step {q q' : Queue Spec Time Loop} {l l' : ServiceCall Spec Time Loop}
    (h : FlagFirst q) (hl : l.Right q) (hs : serviceStep q l = some (q', l')) : FlagFirst q' := by
  rcases serviceStep_queue hs with ⟨rfl | rfl, -⟩ | ⟨entry, rfl, -, hset⟩
  · exact h
  · intro hflag
    cases hflag
  · intro hflag hmem
    rcases List.mem_append.mp hmem with hmem | hmem
    · exact h hflag hmem
    · obtain rfl := hset (List.mem_singleton.mp hmem).symm
      exact absurd (hl.symm.trans hflag) (by decide)

/-- What the consumer and the loops do leaves what was put on the queue, and the
flag. -/
theorem background_frame {maxLifetimeInSeconds : Time} {q q' : Queue Spec Time Loop}
    {e : Background}
    (hs : (handOverProgram maxLifetimeInSeconds).env e q = some q') :
    q'.enqueued = q.enqueued ∧ q'.lastItemSent = q.lastItemSent := by
  cases e with
  | consumer fails =>
      have hs' : consumerStep fails q = some q' := hs
      unfold consumerStep at hs'
      repeat' split at hs'
      all_goals first
        | (obtain rfl := Option.some.inj hs'; exact ⟨rfl, rfl⟩)
        | cases hs'
  | runScheduled i =>
      have hs' : runScheduled i q = some q' := hs
      unfold runScheduled at hs'
      split at hs'
      · cases hs'
      · obtain rfl := Option.some.inj hs'
        exact ⟨rfl, rfl⟩

section Runs

variable {maxLifetimeInSeconds : Time}

/-- In every run, everything is in order unless the consumer raised. -/
theorem consumer_invariant
    {c : Config (Queue Spec Time Loop) (ServiceCall Spec Time Loop)}
    (hr : Reach (handOverProgram maxLifetimeInSeconds) anyStep initialQueue c) :
    c.shared.consumer = .raised ∨ InOrder c.shared := by
  refine Reach.invariant (I := fun q => q.consumer = .raised ∨ InOrder q) ?_ ?_ ?_ hr
  · exact .inr ⟨rfl, List.Perm.refl _, fun h => nomatch h⟩
  · intro ch q l q' l' hI _ hs
    rcases serviceStep_queue hs with ⟨rfl | rfl, -⟩ | ⟨entry, rfl, -⟩
    · exact hI
    · exact hI.imp id fun h => ⟨h.entries, h.events, h.closed⟩
    · exact hI.imp id fun h => h.enqueue entry
  · intro e q q' hI hs
    rcases hI with hraised | hI
    · cases e with
      | consumer fails =>
          have hs' : consumerStep fails q = some q' := hs
          unfold consumerStep at hs'
          rw [hraised] at hs'
          cases hs'
      | runScheduled i =>
          have hs' : runScheduled i q = some q' := hs
          unfold runScheduled at hs'
          split at hs'
          · cases hs'
          · obtain rfl := Option.some.inj hs'
            exact .inl hraised
    · cases e with
      | consumer fails => exact hI.consumer hs
      | runScheduled i => exact .inr (hI.runScheduled hs).2

theorem puts_outline :
    Outline (handOverProgram maxLifetimeInSeconds) anyStep
      (initialQueue : Queue Spec Time Loop) FlagFirst (fun q l => l.Right q) where
  init := fun _ => List.not_mem_nil
  start q op _ := by
    cases op with
    | deploy runningLoop deploymentDict =>
        exact ⟨rfl, List.nil_sublist _, fun h => absurd rfl h⟩
    | closeOfWork => trivial
  step h hcall _ hs := ⟨h.step hcall hs, hcall.step hs⟩
  interfere _ _ hk _ hs := by
    rcases serviceStep_queue hs with ⟨rfl | rfl, -⟩ | ⟨entry, rfl, -⟩
    · exact hk
    · exact hk.mono (.refl _) fun _ => rfl
    · exact hk.mono (List.sublist_append_left _ _) id
  env h hs := by
    obtain ⟨henqueued, hflag⟩ := background_frame hs
    intro hnot
    rw [henqueued]
    exact h (hflag.symm.trans hnot)
  envStable _ hk hs := by
    obtain ⟨henqueued, hflag⟩ := background_frame hs
    exact hk.mono (by rw [henqueued]) fun h => hflag.trans h

/-- In every run, each item of a call was put on the queue, dropped or is left,
and no final item comes before the flag. -/
theorem puts_invariant {c : Config (Queue Spec Time Loop) (ServiceCall Spec Time Loop)}
    (hr : Reach (handOverProgram maxLifetimeInSeconds) anyStep initialQueue c) :
    FlagFirst c.shared ∧ ∀ call ∈ c.calls, call.Right c.shared :=
  puts_outline.sound hr

/-- In every run, the items put on the queue are those the calls have put there,
each once. -/
theorem enqueued_perm {c : Config (Queue Spec Time Loop) (ServiceCall Spec Time Loop)}
    (hr : Reach (handOverProgram maxLifetimeInSeconds) anyStep initialQueue c) :
    (c.shared.enqueued.filterMap Entry.queuedItem?).Perm (c.calls.flatMap ServiceCall.kept) := by
  induction hr with
  | init => exact List.Perm.refl _
  | @call s ls op _ ih =>
      have hnone : ((handOverProgram maxLifetimeInSeconds).start op :
          ServiceCall Spec Time Loop).kept = [] := by
        cases op with
        | deploy runningLoop deploymentDict => rfl
        | closeOfWork => rfl
      rw [List.flatMap_append, List.flatMap_singleton, hnone, List.append_nil]
      exact ih
  | @run s ls i l ch s' l' _ hl _ hs ih =>
      rcases serviceStep_queue hs with ⟨hqueue, hkept⟩ | ⟨entry, rfl, hkept, -⟩
      · have henqueued : s'.enqueued = s.enqueued := by
          rcases hqueue with rfl | rfl
          · rfl
          · rfl
        rw [henqueued]
        have hcalls := flatMap_set_append hl (hkept.trans (List.append_nil _).symm)
        rw [List.append_nil] at hcalls
        exact ih.trans hcalls.symm
      · have hitems : (s.enqueue entry).enqueued.filterMap Entry.queuedItem? =
            s.enqueued.filterMap Entry.queuedItem? ++ entry.queuedItem?.toList := by
          show (s.enqueued ++ [entry]).filterMap Entry.queuedItem? = _
          rw [List.filterMap_append]
          cases entry <;> rfl
        rw [hitems]
        exact (ih.append_right _).trans (flatMap_set_append hl hkept).symm
  | env _ he ih =>
      rw [(background_frame he).1]
      exact ih

/-- A deployment that has returned has put each of its batches on the queue, in their
order, or dropped it, and it dropped none before the flag was set. Nothing else is put on
the queue, and no final item before the flag was set. When the consumer has returned on
the final item, it has processed exactly the batches put before that item, each once and
in the order they were put, and the setting of each of their events was handed to its loop
once. -/
theorem handedOver_at_final
    {c : Config (Queue Spec Time Loop) (ServiceCall Spec Time Loop)}
    (hr : Reach (handOverProgram maxLifetimeInSeconds) anyStep initialQueue c) :
    (∀ puts, .returned puts ∈ c.calls →
      puts.passed = puts.kept ++ puts.dropped ∧
      (puts.kept.map Entry.item).Sublist c.shared.enqueued ∧
      (puts.dropped ≠ [] → c.shared.lastItemSent = true)) ∧
    (c.shared.enqueued.filterMap Entry.queuedItem?).Perm (c.calls.flatMap ServiceCall.kept) ∧
    (c.shared.lastItemSent = false → Entry.final ∉ c.shared.enqueued) ∧
    (c.shared.consumer = .returnedOnFinal →
      c.shared.processed = itemsBeforeFinal c.shared.enqueued ∧
      (c.shared.eventsSet ++ c.shared.scheduled).Perm
        ((itemsBeforeFinal c.shared.enqueued).filterMap QueuedItem.event)) := by
  obtain ⟨hflagFirst, hcalls⟩ := puts_invariant hr
  refine ⟨fun puts hcall => ?_, enqueued_perm hr, hflagFirst, fun hfinal => ?_⟩
  · have hputs : PutsRight c.shared puts [] := hcalls _ hcall
    exact ⟨hputs.split.trans (List.append_nil _), hputs.kept, hputs.flag⟩
  · rcases consumer_invariant hr with hraised | hI
    · rw [hfinal] at hraised
      cases hraised
    · have hentries := hI.entries
      have hevents := hI.events
      rw [hfinal] at hentries hevents
      have hprocessed : itemsBeforeFinal c.shared.enqueued = c.shared.processed := by
        rw [hentries, Consumer.inHand, List.append_assoc]
        exact itemsBeforeFinal_append _ _
      rw [hprocessed]
      refine ⟨rfl, ?_⟩
      simpa [Consumer.owed] using hevents

end Runs

end Steps

/-! ## Runs -/

/-- One confirmed batch of one network, as a block hands it over. -/
def oneBatch : ServiceOp Nat Nat Unit :=
  .deploy () [(copyReservation, [(.event 0, oneNetwork 1)])]

/-- The reservationist is closed before the deployment: the deployment returns
and the consumer never sees its batch. -/
def closeThenDeploy : List (Action (ServiceOp Nat Nat Unit) Unit Background) :=
  [.call .closeOfWork, .run 0 (), .run 0 (), .run 0 (), .call oneBatch, .run 1 (), .run 1 (),
    .env (.consumer false), .env (.consumer false)]

/-- The deployment comes first. The consumer hands the setting of the event over
and returns before the loop runs it. -/
def deployThenClose : List (Action (ServiceOp Nat Nat Unit) Unit Background) :=
  [.call oneBatch, .run 0 (), .run 0 (), .run 0 (), .call .closeOfWork, .run 1 (), .run 1 (),
    .run 1 (), .env (.consumer false), .env (.consumer false), .env (.consumer false),
    .env (.consumer false), .env (.consumer false)]

/-- The reservationist of the runs, with specs and times as numbers. -/
def natHandOver : Program (Queue Nat Nat Unit) (ServiceOp Nat Nat Unit) (ServiceCall Nat Nat Unit)
    Unit Background :=
  handOverProgram 86400

/-- A batch without a confirmation. -/
def plainBatch : ServiceOp Nat Nat Unit :=
  .deploy () [(copyReservation, [(.id "copy-1", oneNetwork 1)])]

/-- Two batches, the first with a confirmation. -/
def twoBatches : ServiceOp Nat Nat Unit :=
  .deploy () [(copyReservation, [(.event 0, oneNetwork 1), (.id "copy-2", oneNetwork 2)])]

/-- The reservationist is closed while one deployment has put the first of its
two batches on the queue. Another deployment, of one batch, has returned before. -/
def closeInBetween : List (Action (ServiceOp Nat Nat Unit) Unit Background) :=
  [.call plainBatch, .call twoBatches, .run 1 (), .run 0 (), .run 1 (), .run 0 (), .run 0 (),
    .call .closeOfWork, .run 2 (), .env (.consumer false), .run 2 (), .run 1 (),
    .env (.consumer false), .env (.consumer false), .env (.consumer false), .run 1 (), .run 2 (),
    .env (.consumer false), .env (.consumer false), .env (.consumer false),
    .env (.consumer false)]

/-- What the calls of `closeInBetween` have put and dropped. -/
def putsInBetween : List (Puts Nat Nat Unit) :=
  [⟨[⟨"copy-", oneNetwork 1, 86400, none⟩], [⟨"copy-", oneNetwork 1, 86400, none⟩], []⟩,
    ⟨[⟨"copy-", oneNetwork 1, 86400, some (0, ())⟩, ⟨"copy-", oneNetwork 2, 86400, none⟩],
      [⟨"copy-", oneNetwork 1, 86400, some (0, ())⟩], [⟨"copy-", oneNetwork 2, 86400, none⟩]⟩,
    Puts.none]

/-- The second batch of the one deployment is dropped; the other two batches are
processed when the consumer returns. -/
theorem handedOver_closeInBetween :
    ∃ c, Reach natHandOver anyStep initialQueue c ∧
      c.calls = putsInBetween.map .returned ∧ c.shared.consumer = .returnedOnFinal ∧
      c.shared.processed = [⟨"copy-", oneNetwork 1, 86400, some (0, ())⟩,
        ⟨"copy-", oneNetwork 1, 86400, none⟩] ∧
      (∀ puts, .returned puts ∈ c.calls →
        puts.passed = puts.kept ++ puts.dropped ∧
        (puts.kept.map Entry.item).Sublist c.shared.enqueued ∧
        (puts.dropped ≠ [] → c.shared.lastItemSent = true)) ∧
      (c.shared.enqueued.filterMap Entry.queuedItem?).Perm (c.calls.flatMap ServiceCall.kept) ∧
      (c.shared.lastItemSent = false → Entry.final ∉ c.shared.enqueued) ∧
      (c.shared.consumer = .returnedOnFinal →
        c.shared.processed = itemsBeforeFinal c.shared.enqueued ∧
        (c.shared.eventsSet ++ c.shared.scheduled).Perm
          ((itemsBeforeFinal c.shared.enqueued).filterMap QueuedItem.event)) := by
  have run := reach_get natHandOver anyStep initialQueue closeInBetween (by decide)
  exact ⟨_, run, by decide, by decide, by decide, handedOver_at_final run⟩

/-- A deployment that returned normally whose batch the consumer, returned on
the final item, has not processed; and one whose batch was processed but whose
event is not set. -/
theorem dropped_and_pending :
    (¬ ∀ c, Reach (natHandOver) anyStep initialQueue c →
      c.shared.consumer = .returnedOnFinal → ∀ puts, .returned puts ∈ c.calls →
        ∀ queuedItem ∈ puts.passed, queuedItem ∈ c.shared.processed) ∧
    (¬ ∀ c, Reach (natHandOver) anyStep initialQueue c →
      c.shared.consumer = .returnedOnFinal → ∀ puts, .returned puts ∈ c.calls →
        ∀ queuedItem ∈ puts.passed, queuedItem ∈ c.shared.processed →
          ∀ event, queuedItem.event = some event → event ∈ c.shared.eventsSet) := by
  constructor
  · intro h
    have run := reach_get natHandOver anyStep initialQueue
      closeThenDeploy (by decide)
    have processed := h _ run (by decide)
      ⟨[⟨"copy-", oneNetwork 1, 86400, some (0, ())⟩], [],
        [⟨"copy-", oneNetwork 1, 86400, some (0, ())⟩]⟩ (by decide)
      ⟨"copy-", oneNetwork 1, 86400, some (0, ())⟩ (by decide)
    exact absurd processed (by decide)
  · intro h
    have run := reach_get natHandOver anyStep initialQueue
      deployThenClose (by decide)
    have eventSet := h _ run (by decide)
      ⟨[⟨"copy-", oneNetwork 1, 86400, some (0, ())⟩],
        [⟨"copy-", oneNetwork 1, 86400, some (0, ())⟩], []⟩ (by decide)
      ⟨"copy-", oneNetwork 1, 86400, some (0, ())⟩ (by decide) (by decide) (0, ()) rfl
    exact absurd eventSet (by decide)

end NoraFleet.Reservations
