import Mathlib
import NoraFleet.Base.Interleaving
import NoraFleet.Base.Text

/-!
# The client of the authorizer

All requests share one `OpenFgaAuthorizer`. Each of them enters it, which opens a
client in the field `fga_client`, asks one question of the client in that field, and
leaves it, which closes the client in that field and empties it. Calls interleave
wherever they wait.

* `proper_of_undisturbed` — a call that finds the field empty, and then its own client
  in it until it leaves, asks an open client, and every client is closed once.
-/

namespace NoraFleet.Authorization

open Base

/-- What a call of the policy asks for. -/
inductive Request where
  | allowAgent (agentName : PyStr)
  | listAgents

/-- A question that was asked: of which client, and whether it was open until the
answer. -/
structure Check where
  client : Option Nat
  isOpen : Bool
  deriving DecidableEq

/-- The `OpenFgaAuthorizer` of a policy: its client, how many clients were opened, which
were closed, one entry for each time, and the questions that were asked. -/
structure OpenFgaAuthorizer where
  fgaClient : Option Nat
  opened : Nat
  closed : List Nat
  checks : List Check
  deriving DecidableEq

namespace OpenFgaAuthorizer

/-- The authorizer that the factory creates. -/
def created : OpenFgaAuthorizer := ⟨none, 0, [], []⟩

/-- `await client.close()`, as it begins. -/
def close (authorizer : OpenFgaAuthorizer) (client : Nat) : OpenFgaAuthorizer :=
  { authorizer with closed := authorizer.closed ++ [client] }

/-- `self.fga_client = await OpenFgaStoreCache.get_client()`, when the client is there. -/
def openClient (authorizer : OpenFgaAuthorizer) : OpenFgaAuthorizer :=
  { authorizer with fgaClient := some authorizer.opened, opened := authorizer.opened + 1 }

/-- A question was asked. -/
def note (authorizer : OpenFgaAuthorizer) (client : Option Nat) : OpenFgaAuthorizer :=
  { authorizer with
    checks := authorizer.checks ++
      [⟨client, client.any fun client => decide (client ∉ authorizer.closed)⟩] }

end OpenFgaAuthorizer

/-- How a block ends. `noClient` is the `AttributeError` of an empty field. -/
inductive Ending where
  | returned
  | raised
  | noClient
  deriving DecidableEq

/-- Where a call of the policy waits, with the client that it opened. -/
inductive Waiting where
  | entering
  | closingOld
  | opening
  | entered (own : Nat)
  | checking (own client : Nat)
  | answered (own : Nat) (ending : Ending)
  | leaving (own : Nat) (ending : Ending)
  | done (own : Nat) (ending : Ending)
  deriving DecidableEq

namespace Waiting

/-- The client that the call opened. -/
def own? : Waiting → Option Nat
  | .entering | .closingOld | .opening => none
  | .entered own | .checking own _ | .answered own _ | .leaving own _ | .done own _ => some own

/-- The call has left, or is leaving. -/
def hasLeft : Waiting → Bool
  | .leaving _ _ | .done _ _ => true
  | _ => false

/-- How the block of the call ended, if it did. -/
def ending? : Waiting → Option Ending
  | .answered _ ending | .leaving _ ending | .done _ ending => some ending
  | _ => none

end Waiting

namespace AgentAuthorizationPolicy

/-- `allow_agent` and `list_agents` up to the next `await`: `__aenter__`, the question,
`__aexit__`. The choice is whether the question raises. -/
def resume (raises : Bool) (authorizer : OpenFgaAuthorizer) :
    Waiting → Option (OpenFgaAuthorizer × Waiting)
  | .entering =>
      match authorizer.fgaClient with
      | some client => some (authorizer.close client, .closingOld)
      | none => some (authorizer, .opening)
  | .closingOld => some (authorizer, .opening)
  | .opening => some (authorizer.openClient, .entered authorizer.opened)
  | .entered own =>
      match authorizer.fgaClient with
      | some client => some (authorizer, .checking own client)
      | none => some (authorizer.note none, .answered own .noClient)
  | .checking own client =>
      some (authorizer.note (some client), .answered own (if raises then .raised else .returned))
  | .answered own ending =>
      match authorizer.fgaClient with
      | some client => some (authorizer.close client, .leaving own ending)
      | none => some (authorizer, .done own .noClient)
  | .leaving own ending => some ({ authorizer with fgaClient := none }, .done own ending)
  | .done _ _ => none

/-- The calls of a policy. -/
def calls : Program OpenFgaAuthorizer Request Waiting Bool Empty where
  start := fun _ => .entering
  step := resume
  env := fun e _ => e.elim

/-- When a call enters, the field is empty; when it asks and when it leaves, nobody else
has written the field since it did. -/
def Undisturbed : Bool → OpenFgaAuthorizer → Waiting → Prop
  | _, authorizer, .entering => authorizer.fgaClient = none
  | _, authorizer, .entered own => authorizer.fgaClient = some own
  | _, authorizer, .answered own _ => authorizer.fgaClient = some own
  | _, _, _ => True

instance : ∀ raises authorizer waiting, Decidable (Undisturbed raises authorizer waiting)
  | _, authorizer, .entering => inferInstanceAs (Decidable (authorizer.fgaClient = none))
  | _, authorizer, .entered own => inferInstanceAs (Decidable (authorizer.fgaClient = some own))
  | _, authorizer, .answered own _ =>
      inferInstanceAs (Decidable (authorizer.fgaClient = some own))
  | _, _, .closingOld | _, _, .opening | _, _, .checking _ _ | _, _, .leaving _ _
  | _, _, .done _ _ => inferInstanceAs (Decidable True)

/-- Every question was asked of a client that was open until the answer, no call failed
for want of a client, and clients are closed once. -/
structure Proper (c : Config OpenFgaAuthorizer Waiting) : Prop where
  checks : ∀ check ∈ c.shared.checks, check.client.isSome ∧ check.isOpen = true
  endings : ∀ call ∈ c.calls, call.ending? ≠ some .noClient
  closedOnce : ∀ client, c.shared.closed.count client ≤ 1
  allClosed : (∀ call ∈ c.calls, call.hasLeft) →
    ∀ client < c.shared.opened, c.shared.closed.count client = 1

/-! ## Undisturbed runs -/

/-- What undisturbed calls keep: each has its own client, and that is open until the
call leaves. -/
structure Kept (c : Config OpenFgaAuthorizer Waiting) : Prop where
  owned : (c.calls.filterMap Waiting.own?).Perm (List.range c.shared.opened)
  closedOwn : ∀ call ∈ c.calls, ∀ own, call.own? = some own →
    c.shared.closed.count own = if call.hasLeft then 1 else 0
  closedLt : ∀ client ∈ c.shared.closed, client < c.shared.opened
  asksOwn : ∀ own client, Waiting.checking own client ∈ c.calls → client = own
  checks : ∀ check ∈ c.shared.checks, check.client.isSome ∧ check.isOpen = true
  endings : ∀ call ∈ c.calls, call.ending? ≠ some .noClient

theorem kept_created : Kept ⟨OpenFgaAuthorizer.created, []⟩ := by
  constructor <;> simp [OpenFgaAuthorizer.created]

theorem Kept.ownLt {c : Config OpenFgaAuthorizer Waiting} (h : Kept c) {call : Waiting}
    (hcall : call ∈ c.calls) {own : Nat} (hown : call.own? = some own) : own < c.shared.opened := by
  have hmem : own ∈ c.calls.filterMap Waiting.own? := List.mem_filterMap.mpr ⟨call, hcall, hown⟩
  exact List.mem_range.mp (h.owned.mem_iff.mp hmem)

theorem Kept.nodup {c : Config OpenFgaAuthorizer Waiting} (h : Kept c) :
    (c.calls.filterMap Waiting.own?).Nodup :=
  h.owned.nodup_iff.mpr List.nodup_range

/-- A call begins. -/
theorem Kept.call {authorizer : OpenFgaAuthorizer} {ls : List Waiting}
    (h : Kept ⟨authorizer, ls⟩) : Kept ⟨authorizer, ls ++ [.entering]⟩ := by
  constructor
  · have hnone : [Waiting.entering].filterMap Waiting.own? = [] := rfl
    rw [List.filterMap_append, hnone, List.append_nil]
    exact h.owned
  · intro call hcall own hown
    rcases List.mem_append.mp hcall with hold | hnew
    · exact h.closedOwn call hold own hown
    · rw [List.mem_singleton.mp hnew] at hown
      cases hown
  · exact h.closedLt
  · intro own client hmem
    rcases List.mem_append.mp hmem with hold | hnew
    · exact h.asksOwn own client hold
    · cases List.mem_singleton.mp hnew
  · exact h.checks
  · intro call hcall
    rcases List.mem_append.mp hcall with hold | hnew
    · exact h.endings call hold
    · rw [List.mem_singleton.mp hnew]
      simp [Waiting.ending?]

section Steps

variable {authorizer authorizer' : OpenFgaAuthorizer} {ls : List Waiting} {i : Nat}
  {call next : Waiting}

/-- A step of a call that closes nothing. -/
theorem Kept.quiet (h : Kept ⟨authorizer, ls⟩) (hcall : ls[i]? = some call)
    (hown : next.own? = call.own?) (hleft : next.hasLeft = call.hasLeft)
    (hopened : authorizer'.opened = authorizer.opened)
    (hclosed : authorizer'.closed = authorizer.closed)
    (hasks : ∀ own client, next = .checking own client → client = own)
    (hchecks : ∀ check ∈ authorizer'.checks, check.client.isSome ∧ check.isOpen = true)
    (hending : next.ending? ≠ some .noClient) : Kept ⟨authorizer', ls.set i next⟩ := by
  have hmem : call ∈ ls := List.mem_of_getElem? hcall
  constructor
  · rw [Program.filterMap_set_of_eq hcall hown, hopened]
    exact h.owned
  · intro k hk own hkown
    rw [hclosed]
    rcases Program.mem_set_cases hk with rfl | hold
    · rw [hleft]
      exact h.closedOwn call hmem own (hown ▸ hkown)
    · exact h.closedOwn k hold own hkown
  · intro client hclient
    rw [hopened]
    exact h.closedLt client (hclosed ▸ hclient)
  · intro own client hk
    rcases Program.mem_set_cases hk with heq | hold
    · exact hasks own client heq.symm
    · exact h.asksOwn own client hold
  · exact hchecks
  · intro k hk
    rcases Program.mem_set_cases hk with rfl | hold
    · exact hending
    · exact h.endings k hold

/-- A call gets its client. -/
theorem Kept.opens (h : Kept ⟨authorizer, ls⟩) (hcall : ls[i]? = some .opening) :
    Kept ⟨authorizer.openClient, ls.set i (.entered authorizer.opened)⟩ := by
  constructor
  · show (List.filterMap _ _).Perm (List.range (authorizer.opened + 1))
    rw [List.range_succ]
    have hnone : Waiting.own? .opening = none := rfl
    refine (Program.filterMap_set_of_none hcall hnone rfl).trans ?_
    exact (h.owned.cons _).trans (List.perm_append_singleton _ _).symm
  · intro k hk own hkown
    show authorizer.closed.count own = _
    rcases Program.mem_set_cases hk with rfl | hold
    · cases hkown
      refine List.count_eq_zero.mpr fun hmem => ?_
      exact absurd (h.closedLt _ hmem) (Nat.lt_irrefl _)
    · exact h.closedOwn k hold own hkown
  · intro client hclient
    exact Nat.lt_succ_of_lt (h.closedLt client hclient)
  · intro own client hk
    rcases Program.mem_set_cases hk with heq | hold
    · cases heq
    · exact h.asksOwn own client hold
  · exact h.checks
  · intro k hk
    rcases Program.mem_set_cases hk with rfl | hold
    · simp [Waiting.ending?]
    · exact h.endings k hold

/-- A call closes its own client. -/
theorem Kept.closes {own : Nat} {ending : Ending} (h : Kept ⟨authorizer, ls⟩)
    (hcall : ls[i]? = some (.answered own ending)) :
    Kept ⟨authorizer.close own, ls.set i (.leaving own ending)⟩ := by
  have hmem : Waiting.answered own ending ∈ ls := List.mem_of_getElem? hcall
  have hlt : own < authorizer.opened := h.ownLt hmem rfl
  have hopen : authorizer.closed.count own = 0 := h.closedOwn _ hmem own rfl
  constructor
  · have hsame : Waiting.own? (.leaving own ending) = Waiting.own? (.answered own ending) := rfl
    rw [Program.filterMap_set_of_eq hcall hsame]
    exact h.owned
  · intro k hk client hkown
    show (authorizer.closed ++ [own]).count client = _
    rw [List.count_append]
    rcases Program.mem_set_of_nodup hcall (x := own) rfl h.nodup hk with rfl | ⟨hold, hne⟩
    · cases hkown
      rw [hopen, List.count_singleton_self]
      rfl
    · have hother : client ≠ own := fun heq => hne (heq ▸ hkown)
      rw [List.count_singleton, if_neg (by simpa using Ne.symm hother), Nat.add_zero]
      exact h.closedOwn k hold client hkown
  · intro client hclient
    rcases List.mem_append.mp hclient with hold | hnew
    · exact h.closedLt client hold
    · rw [List.mem_singleton.mp hnew]
      exact hlt
  · intro k client hk
    rcases Program.mem_set_cases hk with heq | hold
    · cases heq
    · exact h.asksOwn k client hold
  · exact h.checks
  · intro k hk
    rcases Program.mem_set_cases hk with rfl | hold
    · exact h.endings (.answered own ending) hmem
    · exact h.endings k hold

end Steps

/-- Undisturbed steps keep it. -/
theorem Kept.resume {authorizer authorizer' : OpenFgaAuthorizer} {ls : List Waiting} {i : Nat}
    {call next : Waiting} {raises : Bool} (h : Kept ⟨authorizer, ls⟩)
    (hcall : ls[i]? = some call) (hok : Undisturbed raises authorizer call)
    (hstep : resume raises authorizer call = some (authorizer', next)) :
    Kept ⟨authorizer', ls.set i next⟩ := by
  have hmem : call ∈ ls := List.mem_of_getElem? hcall
  cases call with
  | entering =>
      have hfield : authorizer.fgaClient = none := hok
      simp only [AgentAuthorizationPolicy.resume, hfield, Option.some.injEq, Prod.mk.injEq]
        at hstep
      obtain ⟨rfl, rfl⟩ := hstep
      exact h.quiet hcall rfl rfl rfl rfl (by simp) h.checks (by simp [Waiting.ending?])
  | closingOld =>
      cases hstep
      exact h.quiet hcall rfl rfl rfl rfl (by simp) h.checks (by simp [Waiting.ending?])
  | opening =>
      cases hstep
      exact h.opens hcall
  | entered own =>
      have hfield : authorizer.fgaClient = some own := hok
      simp only [AgentAuthorizationPolicy.resume, hfield, Option.some.injEq, Prod.mk.injEq]
        at hstep
      obtain ⟨rfl, rfl⟩ := hstep
      refine h.quiet hcall rfl rfl rfl rfl (fun own' client heq => ?_) h.checks
        (by simp [Waiting.ending?])
      cases heq
      rfl
  | checking own client =>
      obtain rfl : client = own := h.asksOwn own client hmem
      -- its own client, which nobody else closes
      have hopen : authorizer.closed.count client = 0 := h.closedOwn _ hmem client rfl
      cases hstep
      refine h.quiet hcall rfl rfl rfl rfl (by simp) (fun check hcheck => ?_) ?_
      · rcases List.mem_append.mp hcheck with hold | hnew
        · exact h.checks check hold
        · rw [List.mem_singleton.mp hnew]
          refine ⟨rfl, ?_⟩
          simpa using List.count_eq_zero.mp hopen
      · cases raises <;> simp [Waiting.ending?]
  | answered own ending =>
      have hfield : authorizer.fgaClient = some own := hok
      simp only [AgentAuthorizationPolicy.resume, hfield, Option.some.injEq, Prod.mk.injEq]
        at hstep
      obtain ⟨rfl, rfl⟩ := hstep
      exact h.closes hcall
  | leaving own ending =>
      cases hstep
      exact h.quiet hcall rfl rfl rfl rfl (by simp) h.checks (h.endings (.leaving own ending) hmem)
  | done own ending => cases hstep

theorem kept_of_reach {c : Config OpenFgaAuthorizer Waiting}
    (hr : Program.Reach calls Undisturbed OpenFgaAuthorizer.created c) : Kept c := by
  induction hr with
  | init => exact kept_created
  | call op _ ih => exact ih.call
  | run _ hcall hok hstep ih => exact ih.resume hcall hok hstep
  | @env _ _ e _ _ _ _ => exact e.elim

/-- However calls interleave: if each finds the field empty when it enters, and its own
client in it when it asks and when it leaves, then every question is asked of an open
client, no call fails because of another, and every client is closed once. -/
theorem proper_of_undisturbed {c : Config OpenFgaAuthorizer Waiting}
    (hr : Program.Reach calls Undisturbed OpenFgaAuthorizer.created c) : Proper c := by
  have h := kept_of_reach hr
  constructor
  · exact h.checks
  · exact h.endings
  · intro client
    by_cases hclosed : client ∈ c.shared.closed
    · have hrange := List.mem_range.mpr (h.closedLt client hclosed)
      obtain ⟨call, hcall, hown⟩ := List.mem_filterMap.mp (h.owned.mem_iff.mpr hrange)
      rw [h.closedOwn call hcall client hown]
      split <;> omega
    · rw [List.count_eq_zero.mpr hclosed]
      omega
  · intro hleft client hlt
    obtain ⟨call, hcall, hown⟩ :=
      List.mem_filterMap.mp (h.owned.mem_iff.mpr (List.mem_range.mpr hlt))
    rw [h.closedOwn call hcall client hown, hleft call hcall]
    rfl

/-- A request of an agent enters together with a listing, and opens its client when the
listing has let go of its own. The request fails, and another listing follows. -/
def handedOn : List (Action Request Bool Empty) :=
  [.call .listAgents, .call (.allowAgent (str "hello_world")), .run 0 false, .run 1 false,
    .run 0 false, .run 0 false, .run 0 false, .run 0 false, .run 0 false, .run 1 false,
    .run 1 false, .run 1 true, .call .listAgents, .run 1 false, .run 1 false, .run 2 false,
    .run 2 false, .run 2 false, .run 2 false, .run 2 false]

/-- Two calls are done, the third is leaving, and each has asked its own client. -/
theorem proper_handedOn :
    ∃ c, Program.Reach calls Undisturbed OpenFgaAuthorizer.created c ∧
      c.shared.opened = 3 ∧ c.shared.closed = [0, 1, 2] ∧ c.calls.length = 3 ∧ Proper c := by
  have hrun := Program.reach_get calls Undisturbed OpenFgaAuthorizer.created handedOn
    (by decide +kernel)
  exact ⟨_, hrun, by decide +kernel, by decide +kernel, by decide +kernel,
    proper_of_undisturbed hrun⟩

/-- A request enters while a listing waits for its answer: it closes the client that
was asked. -/
def whileAsked : List (Action Request Bool Empty) :=
  [.call .listAgents, .run 0 false, .run 0 false, .run 0 false,
    .call (.allowAgent (str "hello_world")), .run 1 false, .run 0 false]

theorem closed_whileAsked :
    ¬ ∀ c, Program.Reach calls Program.anyStep OpenFgaAuthorizer.created c → Proper c := by
  intro h
  have hrun := Program.reach_get calls Program.anyStep OpenFgaAuthorizer.created whileAsked
    (by decide +kernel)
  have hopen := ((h _ hrun).checks ⟨some 0, false⟩ (by decide +kernel)).2
  cases hopen

end AgentAuthorizationPolicy

end NoraFleet.Authorization
