import Mathlib
import NoraFleet.Base.Text

/-!
# Grants and revokes

OpenFGA holds a set of tuples. It refuses to write a tuple that it has and to delete
one that it does not have, and says so in the text of a `ValidationException`.
`grant` and `revoke` recognise their own text and take it for "nothing to do", but
only where the authorizer is told to debug.

* `perform_eq` — what one call does to the set, and how it ends;
* `actsAsSet_iff` — a sequence of calls acts as a sequence of operations on a set when
  debugging is on, and otherwise when none of the calls repeats what is already so.
-/

namespace NoraFleet.Authorization.Granting

open Base

/-! ## The store -/

/-- `ClientTuple`. -/
structure ClientTuple where
  user : PyStr
  relation : PyStr
  object : PyStr
  deriving DecidableEq

/-- `ClientWriteRequest`. -/
structure ClientWriteRequest where
  writes : Option (List ClientTuple)
  deletes : Option (List ClientTuple)

/-- `text.find(part)`. -/
def find (text part : PyStr) : Int :=
  match text.tails.findIdx? fun rest => part.isPrefixOf rest with
  | some i => i
  | none => -1

def alreadyExisted : PyStr := str "tuple to be written already existed"

def didNotExist : PyStr := str "tuple to be deleted did not exist"

/-- The texts of a server's exceptions: each has its phrase, and not at the start. -/
structure Texts where
  existed : ClientTuple → PyStr
  absent : ClientTuple → PyStr
  existed_found : ∀ tuple, find (existed tuple) alreadyExisted > 0
  absent_found : ∀ tuple, find (absent tuple) didNotExist > 0

variable (texts : Texts)

/-- `fga_client.write(body)`: the store after it, and the text of the exception. -/
def write (store : Finset ClientTuple) (body : ClientWriteRequest) :
    Finset ClientTuple × Except PyStr Unit :=
  let writes := body.writes.getD []
  let deletes := body.deletes.getD []
  match writes.find? fun tuple => decide (tuple ∈ store) with
  | some tuple => (store, .error (texts.existed tuple))
  | none =>
      match deletes.find? fun tuple => decide (tuple ∉ store) with
      | some tuple => (store, .error (texts.absent tuple))
      | none => ((store ∪ writes.toFinset) \ deletes.toFinset, .ok ())

/-! ## The authorizer -/

/-- An actor or a resource: for each of its keys that is there, the value as a
formatted string shows it. -/
structure Party where
  type : Option PyStr
  id : Option PyStr

/-- `f"\x7btype\x7d:\x7bid\x7d"`, each of them empty where its key is missing. -/
def Party.tagged (party : Party) : PyStr :=
  party.type.getD [] ++ 58 :: party.id.getD []

/-- `handle_special_user_writes(writes, actor, resource)`. -/
def handleSpecialUserWrites (writes : List ClientTuple) (_actor _resource : Party) :
    List ClientTuple := writes

/-- `grant(actor, relation, resource)`. -/
def grant (debug : Bool) (store : Finset ClientTuple) (actor : Party) (relation : PyStr)
    (resource : Party) : Finset ClientTuple × Except PyStr Bool :=
  let clientTuple : ClientTuple := ⟨actor.tagged, relation, resource.tagged⟩
  let writes := handleSpecialUserWrites [clientTuple] actor resource
  match write texts store ⟨some writes, none⟩ with
  | (store, .ok ()) => (store, .ok true)
  | (store, .error err) =>
      if find err alreadyExisted > 0 && debug then (store, .ok false) else (store, .error err)

/-- `revoke(actor, relation, resource)`. -/
def revoke (debug : Bool) (store : Finset ClientTuple) (actor : Party) (relation : PyStr)
    (resource : Party) : Finset ClientTuple × Except PyStr Bool :=
  let clientTuple : ClientTuple := ⟨actor.tagged, relation, resource.tagged⟩
  match write texts store ⟨none, some [clientTuple]⟩ with
  | (store, .ok ()) => (store, .ok true)
  | (store, .error err) =>
      if find err didNotExist > 0 && debug then (store, .ok false) else (store, .error err)

/-! ## Sequences of calls -/

/-- A call of `grant` or of `revoke`. -/
inductive Call where
  | grant (actor : Party) (relation : PyStr) (resource : Party)
  | revoke (actor : Party) (relation : PyStr) (resource : Party)

namespace Call

/-- The tuple that a call names. -/
def tuple : Call → ClientTuple
  | .grant actor relation resource => ⟨actor.tagged, relation, resource.tagged⟩
  | .revoke actor relation resource => ⟨actor.tagged, relation, resource.tagged⟩

/-- Make the call. -/
def perform (debug : Bool) (store : Finset ClientTuple) :
    Call → Finset ClientTuple × Except PyStr Bool
  | .grant actor relation resource => Granting.grant texts debug store actor relation resource
  | .revoke actor relation resource => Granting.revoke texts debug store actor relation resource

/-- The operation on the set that a call stands for. -/
def apply (store : Finset ClientTuple) (call : Call) : Finset ClientTuple :=
  match call with
  | .grant _ _ _ => insert call.tuple store
  | .revoke _ _ _ => store.erase call.tuple

/-- The operation changes the set: a grant of a tuple that is absent, or a revoke of one
that is present. -/
def changes (store : Finset ClientTuple) (call : Call) : Bool :=
  match call with
  | .grant _ _ _ => decide (call.tuple ∉ store)
  | .revoke _ _ _ => decide (call.tuple ∈ store)

/-- The text of the exception that a call sees where it changes nothing. -/
def refusal (call : Call) : PyStr :=
  match call with
  | .grant _ _ _ => texts.existed call.tuple
  | .revoke _ _ _ => texts.absent call.tuple

end Call

/-- Calls one after the other, whether they raise or not: how each ends, and the
store. -/
def performAll (debug : Bool) :
    Finset ClientTuple → List Call → List (Except PyStr Bool) × Finset ClientTuple
  | store, [] => ([], store)
  | store, call :: rest =>
      let (store, outcome) := call.perform texts debug store
      let (outcomes, store) := performAll debug store rest
      (outcome :: outcomes, store)

/-- What operations on a set return, one after the other. -/
def changesAll : Finset ClientTuple → List Call → List Bool
  | _, [] => []
  | store, call :: rest => call.changes store :: changesAll (call.apply store) rest

/-- The calls act as operations on a set: none raises, each says whether it changed the
set, and the store afterwards is the fold of the operations, with other tuples as they
were. -/
structure ActsAsSet (debug : Bool) (store : Finset ClientTuple) (calls : List Call) : Prop where
  outcomes : (performAll texts debug store calls).1 = (changesAll store calls).map .ok
  final : (performAll texts debug store calls).2 = calls.foldl Call.apply store
  unnamed : ∀ tuple, (∀ call ∈ calls, call.tuple ≠ tuple) →
    (tuple ∈ (performAll texts debug store calls).2 ↔ tuple ∈ store)

/-! ## One call -/

theorem write_one (store : Finset ClientTuple) (tuple : ClientTuple) :
    write texts store ⟨some [tuple], none⟩ =
      if tuple ∈ store then (store, .error (texts.existed tuple))
      else (insert tuple store, .ok ()) := by
  unfold write
  by_cases hmem : tuple ∈ store
  · simp [hmem]
  · simp [hmem, Finset.union_comm store]

theorem delete_one (store : Finset ClientTuple) (tuple : ClientTuple) :
    write texts store ⟨none, some [tuple]⟩ =
      if tuple ∈ store then (store.erase tuple, .ok ())
      else (store, .error (texts.absent tuple)) := by
  unfold write
  by_cases hmem : tuple ∈ store
  · simp [hmem, Finset.sdiff_singleton_eq_erase]
  · simp [hmem]

/-- A call does its operation. Where that changes nothing, it says so if debugging is on,
and raises otherwise. -/
theorem perform_eq (debug : Bool) (store : Finset ClientTuple) (call : Call) :
    call.perform texts debug store =
      (call.apply store,
        if call.changes store then .ok true
        else if debug then .ok false
        else .error (call.refusal texts)) := by
  cases call with
  | grant actor relation resource =>
      have hfound := texts.existed_found ⟨actor.tagged, relation, resource.tagged⟩
      simp only [Call.perform, grant, handleSpecialUserWrites, write_one, Call.apply,
        Call.changes, Call.refusal, Call.tuple]
      by_cases hmem : (⟨actor.tagged, relation, resource.tagged⟩ : ClientTuple) ∈ store
      · cases debug <;> simp [hmem, hfound]
      · simp [hmem]
  | revoke actor relation resource =>
      have hfound := texts.absent_found ⟨actor.tagged, relation, resource.tagged⟩
      simp only [Call.perform, revoke, delete_one, Call.apply, Call.changes, Call.refusal,
        Call.tuple]
      by_cases hmem : (⟨actor.tagged, relation, resource.tagged⟩ : ClientTuple) ∈ store
      · simp [hmem]
      · cases debug <;> simp [hmem, hfound]

/-! ## All calls -/

/-- The store is always the fold of the operations: a call that raises had nothing to
change. -/
theorem performAll_store (debug : Bool) (store : Finset ClientTuple) (calls : List Call) :
    (performAll texts debug store calls).2 = calls.foldl Call.apply store := by
  induction calls generalizing store with
  | nil => rfl
  | cons call rest ih =>
      show (performAll texts debug (call.perform texts debug store).1 rest).2 = _
      rw [perform_eq, ih]
      rfl

/-- A tuple that no call names stays as it was. -/
theorem mem_foldl_apply_iff {tuple : ClientTuple} {calls : List Call}
    (h : ∀ call ∈ calls, call.tuple ≠ tuple) (store : Finset ClientTuple) :
    tuple ∈ calls.foldl Call.apply store ↔ tuple ∈ store := by
  induction calls generalizing store with
  | nil => rfl
  | cons call rest ih =>
      have hne : tuple ≠ call.tuple := (h call List.mem_cons_self).symm
      rw [List.foldl_cons, ih fun other hother => h other (List.mem_cons_of_mem _ hother)]
      cases call with
      | grant actor relation resource =>
          rw [Call.apply, Finset.mem_insert]
          exact or_iff_right hne
      | revoke actor relation resource =>
          rw [Call.apply, Finset.mem_erase]
          exact and_iff_right hne

/-- Every call changes the set that the calls before it leave. -/
def EachChanges (store : Finset ClientTuple) (calls : List Call) : Prop :=
  ∀ before call after, calls = before ++ call :: after →
    call.changes (before.foldl Call.apply store) = true

theorem eachChanges_cons (store : Finset ClientTuple) (call : Call) (rest : List Call) :
    EachChanges store (call :: rest) ↔
      call.changes store = true ∧ EachChanges (call.apply store) rest := by
  constructor
  · intro h
    refine ⟨h [] call rest rfl, fun before other after heq => ?_⟩
    exact h (call :: before) other after (by rw [heq]; rfl)
  · rintro ⟨hfirst, hrest⟩ before other after heq
    cases before with
    | nil =>
        obtain ⟨rfl, -⟩ := List.cons.inj heq
        exact hfirst
    | cons first before =>
        obtain ⟨rfl, hafter⟩ := List.cons.inj heq
        exact hrest before other after hafter

/-- The calls end as the operations say when debugging is on, or when each of them
changes the set. -/
theorem performAll_outcomes_iff (debug : Bool) (store : Finset ClientTuple)
    (calls : List Call) :
    (performAll texts debug store calls).1 = (changesAll store calls).map .ok ↔
      debug = true ∨ EachChanges store calls := by
  induction calls generalizing store with
  | nil =>
      refine iff_of_true rfl (.inr fun before call after heq => ?_)
      cases before <;> cases heq
  | cons call rest ih =>
      have hfirst : (performAll texts debug store (call :: rest)).1 =
          (call.perform texts debug store).2 ::
            (performAll texts debug (call.apply store) rest).1 := by
        show (call.perform texts debug store).2 ::
          (performAll texts debug (call.perform texts debug store).1 rest).1 = _
        rw [perform_eq]
      rw [hfirst, changesAll, List.map_cons, List.cons.injEq, ih, eachChanges_cons, perform_eq]
      cases hchanges : call.changes store with
      | true => simp
      | false => cases debug <;> simp

/-- A sequence of grants and revokes acts as a sequence of operations on a set if and
only if debugging is on or each of them, at its turn, changes the set. -/
theorem actsAsSet_iff (debug : Bool) (store : Finset ClientTuple) (calls : List Call) :
    ActsAsSet texts debug store calls ↔ debug = true ∨ EachChanges store calls := by
  constructor
  · intro h
    exact (performAll_outcomes_iff texts debug store calls).mp h.outcomes
  · intro h
    refine ⟨(performAll_outcomes_iff texts debug store calls).mpr h,
      performAll_store texts debug store calls, fun tuple hunnamed => ?_⟩
    rw [performAll_store]
    exact mem_foldl_apply_iff hunnamed store

/-! ## A repeated grant -/

/-- The texts of a server that puts its error code first. -/
def codeFirst : Texts where
  existed _ := str "(400) " ++ alreadyExisted
  absent _ := str "(400) " ++ didNotExist
  existed_found _ := by decide
  absent_found _ := by decide

/-- Ann may read `hello_world`. -/
def annReads : Call :=
  .grant ⟨some (str "User"), some (str "ann")⟩ (str "read")
    ⟨some (str "AgentNetwork"), some (str "hello_world")⟩

theorem repeated_grant_raises : ¬ ActsAsSet codeFirst false ∅ [annReads, annReads] := by
  intro h
  have houtcomes := h.outcomes
  revert houtcomes
  decide

end NoraFleet.Authorization.Granting
