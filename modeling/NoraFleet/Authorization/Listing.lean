import Mathlib
import NoraFleet.Base.Dict
import NoraFleet.Base.Flow
import NoraFleet.Base.Text

/-!
# Listing and access

Whether an actor may use an agent is asked in two ways: about one agent, and for the
list of all. OpenFGA answers the second with objects such as `AgentNetwork:hello_world`,
of which the authorizer takes what stands between the first colon and the next. Asked
for the list of one resource, it takes the coroutine of the other question for its
answer.

* `listing_agrees_iff` — when each of the lists has what may be used, and no more.
-/

namespace NoraFleet.Authorization

open Base

/-- `":"`. -/
def colon : Nat := 58

/-- `f"\x7btype\x7d:\x7bid\x7d"`. -/
def tagged (type id : PyStr) : PyStr := type ++ colon :: id

/-- What OpenFGA answers: whether a user has a relation to an object, and the objects of
a type it has the relation to. Both are the same relation. -/
structure OpenFga where
  check : Option PyStr → PyStr → PyStr → Bool
  listObjects : Option PyStr → PyStr → PyStr → List PyStr
  objects_tagged : ∀ user relation type, ∀ object ∈ listObjects user relation type,
    ∃ id, object = tagged type id
  check_iff : ∀ user relation type id,
    check user relation (tagged type id) = true ↔
      tagged type id ∈ listObjects user relation type

/-- An actor: its type, and its id, which may be `None`. -/
structure Actor where
  type : PyStr
  id : Option PyStr

namespace OpenFgaAuthorizer

/-- The user that `authorize` asks about. -/
def checkUser (actor : Actor) : PyStr := tagged actor.type (actor.id.getD (str "None"))

/-- `authorize(actor, action, resource)`, when failing is not forced. -/
def authorize (openFga : OpenFga) (actor : Actor) (action type id : PyStr) : Bool :=
  openFga.check (some (checkUser actor)) action (tagged type id)

/-- The user that `list` asks about. Without a type, the id has to have a length. -/
def requestUser (actor : Actor) : Except PyError (Option PyStr) :=
  if actor.type ≠ [] then .ok (some (tagged actor.type (actor.id.getD (str "None"))))
  else
    match actor.id with
    | none => .error .typeError
    | some id => .ok (if id ≠ [] then some (tagged actor.type id) else none)

/-- `one_object.split(":")[1]`. -/
def idOf (oneObject : PyStr) : Except PyError PyStr :=
  match (oneObject.splitOn colon)[1]? with
  | some oneId => .ok oneId
  | none => .error .otherException

/-- `list(actor, relation, resource)`. With an id, `self.authorize(...)` is a coroutine
that nobody awaits, and is true as every object is. -/
def list (openFga : OpenFga) (actor : Actor) (relation type : PyStr) (id : Option PyStr) :
    Except PyError (List PyStr) :=
  match id with
  | some id => .ok [id]
  | none =>
      match requestUser actor with
      | .error e => .error e
      | .ok user => (openFga.listObjects user relation type).mapM idOf

end OpenFgaAuthorizer

/-- `AgentAuthorizationPolicy`. -/
structure AgentAuthorizationPolicy (Provider : Type*) where
  allowedAgents : Dict PyStr Provider
  actorKey : PyStr
  resourceKey : PyStr
  allowRelation : PyStr

namespace AgentAuthorizationPolicy

variable {Provider : Type*} (policy : AgentAuthorizationPolicy Provider)

/-- `allow_agent(agent_name, metadata)`, for the id in the metadata. -/
def allowAgent (openFga : OpenFga) (agentName : PyStr) (actorId : Option PyStr) :
    Bool × Option Provider :=
  (OpenFgaAuthorizer.authorize openFga ⟨policy.actorKey, actorId⟩ policy.allowRelation
      policy.resourceKey agentName,
    policy.allowedAgents.get? agentName)

/-- `list_agents(metadata)`, for the id in the metadata; the order of the set is left
open. -/
def listAgents (openFga : OpenFga) (actorId : Option PyStr) : Except PyError (List PyStr) :=
  (OpenFgaAuthorizer.list openFga ⟨policy.actorKey, actorId⟩ policy.allowRelation
    policy.resourceKey none).map fun authorizedAgents =>
    authorizedAgents.dedup.filter fun name => decide (name ∈ policy.allowedAgents)

end AgentAuthorizationPolicy

/-! ## What is read off an object -/

/-- The part of an object that is taken for its id. -/
def readId (type id : PyStr) : PyStr := ((tagged type id).splitOn colon)[1]?.getD []

theorem splitOn_tagged (type id : PyStr) :
    (tagged type id).splitOn colon = type.splitOn colon ++ id.splitOn colon :=
  List.splitOn_append_cons_of_beq type id (by simp)

theorem idOf_tagged (type id : PyStr) :
    OpenFgaAuthorizer.idOf (tagged type id) = .ok (readId type id) := by
  have hlength : 1 < ((tagged type id).splitOn colon).length := by
    rw [splitOn_tagged, List.length_append]
    have htype := List.length_pos_of_ne_nil (List.splitOn_ne_nil colon type)
    have hid := List.length_pos_of_ne_nil (List.splitOn_ne_nil colon id)
    omega
  unfold OpenFgaAuthorizer.idOf readId
  rw [List.getElem?_eq_getElem hlength]
  rfl

theorem splitOn_head (id : PyStr) :
    (id.splitOn colon)[0]? = some (id.takeWhile fun c => decide (c ≠ colon)) := by
  induction id with
  | nil => rfl
  | cons c rest ih =>
      rw [List.splitOn_cons_eq_if_modifyHead]
      by_cases hc : c = colon
      · simp [hc]
      · obtain ⟨part, parts, hparts⟩ :=
          List.exists_cons_of_ne_nil (List.splitOn_ne_nil colon rest)
        rw [hparts] at ih ⊢
        have hhead : part = rest.takeWhile fun c => decide (c ≠ colon) := by simpa using ih
        simp [hc, hhead]

/-- What is read of an id stands before its first colon, or, where the type has a colon,
always the same. -/
theorem readId_cases (type : PyStr) :
    (colon ∉ type ∧ ∀ id, readId type id = id.takeWhile fun c => decide (c ≠ colon)) ∨
      (colon ∈ type ∧ ∃ part, ∀ id, readId type id = part) := by
  by_cases hcolon : colon ∈ type
  · refine .inr ⟨hcolon, ?_⟩
    obtain ⟨before, after, htype⟩ := List.append_of_mem hcolon
    obtain ⟨first, firsts, hfirsts⟩ :=
      List.exists_cons_of_ne_nil (List.splitOn_ne_nil colon before)
    obtain ⟨next, nexts, hnexts⟩ :=
      List.exists_cons_of_ne_nil (List.splitOn_ne_nil colon after)
    refine ⟨((firsts ++ next :: nexts)[0]?).getD [], fun id => ?_⟩
    unfold readId
    rw [splitOn_tagged, htype, List.splitOn_append_cons_self, hfirsts, hnexts]
    cases firsts <;> rfl
  · refine .inl ⟨hcolon, fun id => ?_⟩
    unfold readId
    rw [splitOn_tagged, List.splitOn_eq_singleton hcolon, List.singleton_append,
      List.getElem?_cons_succ, splitOn_head]
    rfl

theorem readId_readId (type id : PyStr) : readId type (readId type id) = readId type id := by
  rcases readId_cases type with ⟨-, hread⟩ | ⟨-, part, hread⟩
  · rw [hread, hread, List.takeWhile_eq_self_iff]
    intro c hc
    have hbefore := List.mem_takeWhile_imp (p := fun c => decide (c ≠ colon)) hc
    exact hbefore
  · rw [hread, hread]

/-! ## Agreement -/

open OpenFgaAuthorizer

/-- The list without an id, for the user it asks about. -/
theorem list_eq (openFga : OpenFga) (actor : Actor) (relation type : PyStr)
    {user : Option PyStr} (huser : requestUser actor = .ok user) :
    ∃ ids, list openFga actor relation type none = .ok ids ∧
      ∀ name, name ∈ ids ↔
        ∃ id, openFga.check user relation (tagged type id) = true ∧ readId type id = name := by
  have hids : ∃ ids, (openFga.listObjects user relation type).mapM idOf = .ok ids := by
    rw [exists_mapM_ok_iff]
    intro object hobject
    obtain ⟨id, rfl⟩ := openFga.objects_tagged user relation type object hobject
    exact ⟨_, idOf_tagged type id⟩
  obtain ⟨ids, hids⟩ := hids
  refine ⟨ids, ?_, fun name => ?_⟩
  · unfold list
    simp only [huser]
    exact hids
  · rw [mem_iff_of_mapM_eq_ok hids]
    constructor
    · rintro ⟨object, hobject, hread⟩
      obtain ⟨id, rfl⟩ := openFga.objects_tagged user relation type object hobject
      rw [idOf_tagged] at hread
      exact ⟨id, (openFga.check_iff user relation type id).mpr hobject, Except.ok.inj hread⟩
    · rintro ⟨id, hcheck, rfl⟩
      exact ⟨_, (openFga.check_iff user relation type id).mp hcheck, idOf_tagged type id⟩

/-- The actor has a type or an id: then both questions are about the same user. -/
def Actor.Named (actor : Actor) : Prop := actor.type ≠ [] ∨ ∃ id, actor.id = some id ∧ id ≠ []

theorem requestUser_of_named {actor : Actor} (h : actor.Named) :
    requestUser actor = .ok (some (checkUser actor)) := by
  unfold requestUser checkUser
  by_cases htype : actor.type = []
  · obtain ⟨id, hid, hne⟩ := h.resolve_left (not_not_intro htype)
    rw [if_neg (not_not_intro htype), hid]
    show Except.ok (if id ≠ [] then _ else _) = _
    rw [if_pos hne]
    rfl
  · rw [if_pos htype]

/-- Without a name, the list is about nobody, or fails. -/
theorem requestUser_of_not_named {actor : Actor} (h : ¬ actor.Named) :
    (actor.id = none ∧ requestUser actor = .error .typeError) ∨
      (actor.id = some [] ∧ requestUser actor = .ok none) := by
  have htype : actor.type = [] := by
    by_contra hne
    exact h (.inl hne)
  unfold requestUser
  rw [if_neg (not_not_intro htype)]
  cases hid : actor.id with
  | none => exact .inl ⟨rfl, rfl⟩
  | some id =>
      have hempty : id = [] := by
        by_contra hne
        exact h (.inr ⟨id, hid, hne⟩)
      subst hempty
      exact .inr ⟨rfl, rfl⟩

section Agreement

variable (openFga : OpenFga) (actor : Actor) (relation type : PyStr)

/-- The list without an id has the ids that the actor is authorized for, and no others. -/
def ListsExactly : Prop :=
  ∃ ids, list openFga actor relation type none = .ok ids ∧
    ∀ id, id ∈ ids ↔ authorize openFga actor relation type id = true

/-- The list of one id has it if the actor is authorized for it, and is empty if not. -/
def ListsOne (id : PyStr) : Prop :=
  list openFga actor relation type (some id) =
    .ok (if authorize openFga actor relation type id then [id] else [])

/-- Every id that the actor is authorized for is read back from its object. Of an actor
without type and id, the objects of nobody are listed. -/
def ReadsIds : Prop :=
  (actor.Named → ∀ id, authorize openFga actor relation type id = true → readId type id = id) ∧
    (¬ actor.Named → actor.id = some [] ∧
      ∀ id, authorize openFga actor relation type id = true ↔
        ∃ other, openFga.check none relation (tagged type other) = true ∧ readId type other = id)

theorem listsExactly_iff :
    ListsExactly openFga actor relation type ↔ ReadsIds openFga actor relation type := by
  by_cases hnamed : actor.Named
  · obtain ⟨ids, hids, hmem⟩ :=
      list_eq openFga actor relation type (requestUser_of_named hnamed)
    simp only [ListsExactly, ReadsIds, hids, hnamed, Except.ok.injEq, exists_eq_left',
      not_true_eq_false, false_implies, and_true, true_implies]
    constructor
    · intro h id hid
      obtain ⟨other, -, rfl⟩ := (hmem id).mp ((h id).mpr hid)
      exact readId_readId type other
    · intro h id
      rw [hmem]
      constructor
      · rintro ⟨other, hother, rfl⟩
        rw [h other hother]
        exact hother
      · intro hid
        exact ⟨id, hid, h id hid⟩
  · rcases requestUser_of_not_named hnamed with ⟨hid, huser⟩ | ⟨hid, huser⟩
    · have herror : list openFga actor relation type none = .error .typeError := by
        unfold list
        rw [huser]
      simp [ListsExactly, ReadsIds, herror, hnamed, hid]
    · obtain ⟨ids, hids, hmem⟩ := list_eq openFga actor relation type huser
      simp only [ListsExactly, ReadsIds, hids, hnamed, hid, hmem, Except.ok.injEq,
        exists_eq_left', false_implies, not_false_eq_true, true_implies, true_and]
      exact forall_congr' fun id => iff_comm

theorem listsOne_iff (id : PyStr) :
    ListsOne openFga actor relation type id ↔ authorize openFga actor relation type id = true := by
  unfold ListsOne list
  cases authorize openFga actor relation type id <;> simp

end Agreement

namespace AgentAuthorizationPolicy

variable {Provider : Type*} (policy : AgentAuthorizationPolicy Provider) (openFga : OpenFga)
  (actorId : Option PyStr)

/-- The agents are listed that exist and may be used, and no others. -/
def ListsAllowed : Prop :=
  ∃ names, policy.listAgents openFga actorId = .ok names ∧
    ∀ name, name ∈ names ↔
      name ∈ policy.allowedAgents ∧ (policy.allowAgent openFga name actorId).1 = true

/-- An agent that may be used is read back from its object, and no object that is read as
another agent gives away one that may not. Of an actor without type and id, the objects
of nobody are listed. -/
def ReadsAgents : Prop :=
  let actor : Actor := ⟨policy.actorKey, actorId⟩
  let may : PyStr → Prop := fun name =>
    authorize openFga actor policy.allowRelation policy.resourceKey name = true
  (actor.Named →
    (∀ name ∈ policy.allowedAgents, may name → readId policy.resourceKey name = name) ∧
      ∀ id, may id → readId policy.resourceKey id ∈ policy.allowedAgents →
        may (readId policy.resourceKey id)) ∧
    (¬ actor.Named → actorId = some [] ∧
      ∀ name ∈ policy.allowedAgents, may name ↔
        ∃ other, openFga.check none policy.allowRelation
          (tagged policy.resourceKey other) = true ∧ readId policy.resourceKey other = name)

theorem listsAllowed_iff : policy.ListsAllowed openFga actorId ↔
    policy.ReadsAgents openFga actorId := by
  by_cases hnamed : Actor.Named ⟨policy.actorKey, actorId⟩
  · obtain ⟨ids, hids, hmem⟩ := list_eq openFga ⟨policy.actorKey, actorId⟩ policy.allowRelation
      policy.resourceKey (requestUser_of_named hnamed)
    simp only [ListsAllowed, ReadsAgents, listAgents, hids, hnamed, Except.map, Except.ok.injEq,
      exists_eq_left', not_true_eq_false, false_implies, and_true, true_implies, List.mem_filter,
      List.mem_dedup, decide_eq_true_eq, hmem, allowAgent]
    constructor
    · intro h
      constructor
      · intro name hallowed hmay
        obtain ⟨⟨other, -, rfl⟩, -⟩ := (h name).mpr ⟨hallowed, hmay⟩
        exact readId_readId policy.resourceKey other
      · intro id hid hallowed
        exact ((h _).mp ⟨⟨id, hid, rfl⟩, hallowed⟩).2
    · rintro ⟨hread, hgives⟩ name
      constructor
      · rintro ⟨⟨other, hother, rfl⟩, hallowed⟩
        exact ⟨hallowed, hgives other hother hallowed⟩
      · rintro ⟨hallowed, hmay⟩
        exact ⟨⟨name, hmay, hread name hallowed hmay⟩, hallowed⟩
  · rcases requestUser_of_not_named hnamed with ⟨hid, huser⟩ | ⟨hid, huser⟩
    · -- the request has no user, and the list raises
      obtain rfl : actorId = none := hid
      have herror : list openFga ⟨policy.actorKey, none⟩ policy.allowRelation
          policy.resourceKey none = .error .typeError := by
        unfold list
        rw [huser]
      simp [ListsAllowed, ReadsAgents, listAgents, herror, hnamed, Except.map]
    · -- the list asks about another user
      obtain rfl : actorId = some [] := hid
      obtain ⟨ids, hids, hmem⟩ := list_eq openFga ⟨policy.actorKey, some []⟩
        policy.allowRelation policy.resourceKey huser
      simp only [ListsAllowed, ReadsAgents, listAgents, hids, hnamed, Except.map,
        Except.ok.injEq, exists_eq_left', not_false_eq_true, false_implies, true_and,
        true_implies, List.mem_filter, List.mem_dedup, decide_eq_true_eq, hmem, allowAgent]
      constructor
      · intro h name hallowed
        constructor
        · intro hmay
          exact ((h name).mpr ⟨hallowed, hmay⟩).1
        · intro hother
          exact ((h name).mp ⟨hother, hallowed⟩).2
      · intro h name
        constructor
        · rintro ⟨hother, hallowed⟩
          exact ⟨hallowed, (h name hallowed).mpr hother⟩
        · rintro ⟨hallowed, hmay⟩
          exact ⟨(h name hallowed).mp hmay, hallowed⟩

end AgentAuthorizationPolicy

/-- The list without an id has what the actor is authorized for exactly when those ids
are read back; the list of one id exactly when the actor is authorized for it; and the
listed agents are those that may be used exactly when those of the existing agents are
read back, and none is listed for another object. -/
theorem listing_agrees_iff {Provider : Type} (openFga : OpenFga) (actor : Actor)
    (relation type : PyStr) (policy : AgentAuthorizationPolicy Provider)
    (actorId : Option PyStr) :
    (ListsExactly openFga actor relation type ↔ ReadsIds openFga actor relation type) ∧
      (∀ id, ListsOne openFga actor relation type id ↔
        authorize openFga actor relation type id = true) ∧
      (policy.ListsAllowed openFga actorId ↔ policy.ReadsAgents openFga actorId) := by
  refine ⟨?_, ?_, ?_⟩
  · exact listsExactly_iff openFga actor relation type
  · intro id
    exact listsOne_iff openFga actor relation type id
  · exact policy.listsAllowed_iff openFga actorId

/-- One user has every relation to one object. -/
def OpenFga.granting (user object : PyStr) : OpenFga where
  check asked _ other := decide (asked = some user ∧ other = object)
  listObjects asked _ type :=
    if asked = some user ∧ (type ++ [colon]).isPrefixOf object then [object] else []
  objects_tagged := by
    intro asked relation type other hmem
    split at hmem
    · rename_i h
      obtain ⟨rest, hrest⟩ := List.isPrefixOf_iff_prefix.mp h.2
      refine ⟨rest, ?_⟩
      rw [List.mem_singleton.mp hmem, ← hrest]
      simp [tagged]
    · cases hmem
  check_iff := by
    intro asked relation type id
    by_cases hasked : asked = some user
    · simp only [hasked, true_and, decide_eq_true_eq]
      constructor
      · rintro rfl
        rw [if_pos]
        · exact List.mem_singleton_self _
        · exact List.isPrefixOf_iff_prefix.mpr ⟨id, by simp [tagged]⟩
      · intro hmem
        split at hmem
        · exact List.mem_singleton.mp hmem
        · cases hmem
    · simp [hasked]

/-- A user who may use the agent `team:a` is shown neither that nor, asked for one that
the user may not use, an empty list. -/
theorem listing_of_colon :
    let openFga := OpenFga.granting (str "User:ann") (str "AgentNetwork:team:a")
    let actor : Actor := ⟨str "User", some (str "ann")⟩
    let policy : AgentAuthorizationPolicy Unit :=
      ⟨Dict.empty.set (str "team:a") (), str "User", str "AgentNetwork", str "read"⟩
    ¬ ListsExactly openFga actor (str "read") (str "AgentNetwork") ∧
      ¬ ListsOne openFga actor (str "read") (str "AgentNetwork") (str "secret") ∧
      ¬ policy.ListsAllowed openFga (some (str "ann")) := by
  intro openFga actor policy
  have hnamed : actor.Named := .inl (by decide +kernel)
  have hmay : authorize openFga actor (str "read") (str "AgentNetwork") (str "team:a") = true := by
    decide +kernel
  have hread : readId (str "AgentNetwork") (str "team:a") ≠ str "team:a" := by decide +kernel
  refine ⟨?_, ?_, ?_⟩
  · rw [listsExactly_iff]
    intro h
    exact hread (h.1 hnamed _ hmay)
  · rw [listsOne_iff]
    decide +kernel
  · rw [policy.listsAllowed_iff]
    intro h
    exact hread ((h.1 hnamed).1 (str "team:a") (by decide +kernel) hmay)

end NoraFleet.Authorization
