import Mathlib.Algebra.GroupWithZero.Nat
import Mathlib.Data.List.Sort
import Mathlib.Data.String.Basic
import NoraFleet.Base.Dict

/-!
# The accumulating reservationist

`AccumulatingAgentReservationist` collects what a tool deploys inside an
`async with` block and hands it over when the block is left. The batches are
kept in one dictionary under a key each: the confirmation event of a confirmed
batch, the id of its first reservation otherwise. The line that looks that id
up indexes the keys view of a dictionary, which Python refuses, so an
unconfirmed call always raises.

* `runCalls_confirmed` — what any sequence of confirmed calls leaves: every
  batch under a new event of its own, in order;
* `handedOverOnce_iff` — a block hands every batch over once exactly when all
  its calls ask for confirmation.
-/

namespace NoraFleet.Reservations

open Base

/-- What a call raises: a `ValueError` (which is what the callers catch) or an
exception of another class. -/
inductive Raised where
  | valueError (message : String)
  | otherError (className message : String)
  deriving DecidableEq, Repr

/-- `str(uuid4())`. -/
structure Uuid where
  text : String
  wellFormed : text.length = 36 ∧ ∀ c ∈ text.toList, c ∈ "0123456789abcdef-".toList

/-- `AgentReservation`. -/
structure AgentReservation (Time : Type*) where
  id : String
  idPrefix : String
  lifetimeInSeconds : Time
  expirationTimeInSeconds : Time
  deriving DecidableEq

/-- `AgentReservation(lifetime_in_seconds, prefix)`. -/
def agentReservation {Time : Type*} [Zero Time] (lifetimeInSeconds : Time)
    (idPrefix : Option String) (uuid : Uuid) : AgentReservation Time :=
  let given := idPrefix.getD ""
  { id := uuid.text
    idPrefix := if given.length > 0 then given ++ "-" else given
    lifetimeInSeconds := lifetimeInSeconds
    expirationTimeInSeconds := 0 }

/-- `get_reservation_id()`. -/
def AgentReservation.getReservationId {Time : Type*} (reservation : AgentReservation Time) :
    String :=
  reservation.idPrefix ++ reservation.id

/-! ## Texts of errors -/

/-- `{n:04x}`. -/
def hex4 (n : Nat) : String :=
  let digits := String.ofList (Nat.toDigits 16 n)
  "".pushn '0' (4 - digits.length) ++ digits

/-- One character of a JSON string: printable ASCII as it is, the rest escaped,
outside the basic plane as a surrogate pair. -/
def quoteChar (c : Char) : String :=
  if c = '"' then "\\\""
  else if c = '\\' then "\\\\"
  else if c = '\n' then "\\n"
  else if c = '\r' then "\\r"
  else if c = '\t' then "\\t"
  else if c.toNat = 8 then "\\b"
  else if c.toNat = 12 then "\\f"
  else if 32 ≤ c.toNat ∧ c.toNat ≤ 126 then c.toString
  else if c.toNat < 65536 then "\\u" ++ hex4 c.toNat
  else "\\u" ++ hex4 (55296 + (c.toNat - 65536) / 1024) ++
    "\\u" ++ hex4 (56320 + (c.toNat - 65536) % 1024)

/-- A JSON string. -/
def quoteText (text : String) : String :=
  "\"" ++ String.join (text.toList.map quoteChar) ++ "\""

/-- `dumps(errors, indent=4, sort_keys=True)` of nonempty errors with nonempty
lists. -/
def dumpsErrors (errors : Dict String (List String)) : String :=
  let entry := fun (e : String × List String) =>
    "    " ++ quoteText e.1 ++ ": [\n" ++
      ",\n".intercalate (e.2.map fun line => "        " ++ quoteText line) ++ "\n    ]"
  "\x7b\n" ++ ",\n".intercalate ((errors.items.insertionSort fun a b => a.1 ≤ b.1).map entry) ++
    "\n\x7d"

/-- The text of the `ValueError` that reports all validation errors at once. -/
def validationMessage (errors : Dict String (List String)) : String :=
  "Found " ++ toString errors.length ++ " validation errors when attempting to deploy():\n" ++
    dumpsErrors errors

/-! ## Validation -/

/-- The characters `validate_id` refuses. -/
def invalidChars : List Char := "/: ".toList

/-- `validate_id`. -/
def validateId (testId : Option String) : Except Raised Unit :=
  match testId with
  | none => .error (.valueError "Reservation id is None")
  | some testId =>
      if testId.length = 0 then .error (.valueError "Reservation id is empty")
      else if invalidChars.any (· ∈ testId.toList) then
        .error (.valueError ("Reservation id " ++ testId ++
          " cannot contain any of these characters: '/: '"))
      else .ok ()

/-- What `ManifestNetworkValidator(external_network_names, mcp_servers,
network_name).validate(spec)` gives: the errors found, or an exception. -/
abbrev Validate (Spec : Type*) :=
  Option (List String) → Option (List String) → String → Spec →
    Except Raised (Option (List String))

/-- A `deployment_dict`: reservations, each with the spec to deploy under it. -/
abbrev Batch (Spec Time : Type*) := List (AgentReservation Time × Spec)

/-- A key of `deployments`: a confirmation event, or the id of a reservation. -/
inductive Key where
  | event (event : Nat)
  | id (reservationId : String)
  deriving DecidableEq

/-- Whether a key is an event. -/
def Key.isEvent : Key → Bool
  | .event _ => true
  | .id _ => false

/-- The attributes of `AccumulatingAgentReservationist`, and the number of the
next event object to be made. -/
structure Accumulating (Spec Time : Type*) where
  maxLifetimeInSeconds : Time
  agentName : String
  deployments : Dict Key (Batch Spec Time)
  supportingReservation : Option (AgentReservation Time)
  externalNetworks : Option (List String)
  mcpServers : Option (List String)
  nextEvent : Nat

namespace Accumulating

variable {Spec Time : Type*}

/-- `reserve(lifetime_in_seconds, prefix)`. -/
def reserve [LinearOrder Time] [Zero Time] (s : Accumulating Spec Time)
    (lifetimeInSeconds : Time) (idPrefix : Option String) (uuid : Uuid) :
    Except Raised (AgentReservation Time) :=
  let actualLifetime := min lifetimeInSeconds s.maxLifetimeInSeconds
  let checked : Except Raised Unit :=
    match idPrefix with
    | some text => if text.length > 0 then validateId (some text) else .ok ()
    | none => .ok ()
  match checked with
  | .error e => .error e
  | .ok () => .ok (agentReservation actualLifetime idPrefix uuid)

/-- `validate_with(external_networks, mcp_servers)`. -/
def validateWith (s : Accumulating Spec Time) (externalNetworks mcpServers : Option (List String)) :
    Accumulating Spec Time :=
  { s with externalNetworks := externalNetworks, mcpServers := mcpServers }

/-- `__aenter__()`, with the reservation the supporting reservationist made. -/
def aenter (s : Accumulating Spec Time) (supportingReservation : AgentReservation Time) :
    Accumulating Spec Time :=
  { s with deployments := .empty, supportingReservation := some supportingReservation }

/-- The validation loop of `deploy`: the errors by reservation id. -/
def validateLoop (validate : Validate Spec) (externalNetworks mcpServers : Option (List String)) :
    Batch Spec Time → Dict String (List String) → Except Raised (Dict String (List String))
  | [], errors => .ok errors
  | (reservation, agentNetworkSpec) :: rest, errors =>
      let key := reservation.getReservationId
      match validateId (some key) with
      | .error e => .error e
      | .ok () =>
          match validate externalNetworks mcpServers key agentNetworkSpec with
          | .error e => .error e
          | .ok newErrors =>
              if (newErrors.getD []).length > 0 then
                validateLoop validate externalNetworks mcpServers rest
                  (errors.set key (newErrors.getD []))
              else validateLoop validate externalNetworks mcpServers rest errors

/-- `deployment_dict.keys()[index]`: the keys view of a dictionary cannot be
indexed. -/
def subscriptKeys {α : Type*} (_keys : List α) (_index : Nat) : Except Raised α :=
  .error (.otherError "TypeError" "'dict_keys' object is not subscriptable")

/-- `deploy(deployment_dict, confirmation)`. -/
def deploy (validate : Validate Spec) (deploymentDict : Batch Spec Time) (confirmation : Bool)
    (s : Accumulating Spec Time) : Except Raised (Option Nat) × Accumulating Spec Time :=
  if deploymentDict.isEmpty then (.ok none, s)
  else
    match validateLoop validate s.externalNetworks s.mcpServers deploymentDict .empty with
    | .error e => (.error e, s)
    | .ok errors =>
        if errors.length > 0 then
          (.error (.valueError (validationMessage errors)), s)
        else if confirmation then
          let event := s.nextEvent
          (.ok (some event),
            { s with
              nextEvent := event + 1
              deployments := s.deployments.set (.event event) deploymentDict })
        else
          match subscriptKeys (deploymentDict.map Prod.fst) 0 with
          | .error e => (.error e, s)
          | .ok firstRes =>
              (.ok none,
                { s with
                  deployments := s.deployments.set (.id firstRes.getReservationId)
                    deploymentDict })

/-- `__aexit__()`: what `deploy_one` is given and what it does with it decide
whether the state is reset. -/
def aexit (deployOne : Option (AgentReservation Time) → Dict Key (Batch Spec Time) →
      Except Raised Unit) (s : Accumulating Spec Time) :
    Except Raised Unit × Accumulating Spec Time :=
  match deployOne s.supportingReservation s.deployments with
  | .error e => (.error e, s)
  | .ok () =>
      (.ok (),
        { s with
          supportingReservation := none
          externalNetworks := none
          mcpServers := none
          deployments := .empty })

end Accumulating

/-! ## A block -/

/-- One `deploy` call of a block. -/
structure DeployCall (Spec Time : Type*) where
  deploymentDict : Batch Spec Time
  confirmation : Bool

/-- What a block did: the outcome of each call, the mapping `deploy_one` was
given, how `__aexit__` ended, and the state after it. -/
structure BlockRun (Spec Time : Type*) where
  results : List (Except Raised (Option Nat))
  handedOver : Dict Key (Batch Spec Time)
  exit : Except Raised Unit
  after : Accumulating Spec Time

section Blocks

variable {Spec Time : Type*}

/-- The calls of a block, one after the other; a body that catches what a call
raises goes on with the next one. -/
def runCalls (validate : Validate Spec) :
    List (DeployCall Spec Time) → Accumulating Spec Time →
      List (Except Raised (Option Nat)) × Accumulating Spec Time
  | [], s => ([], s)
  | call :: rest, s =>
      let one := s.deploy validate call.deploymentDict call.confirmation
      let others := runCalls validate rest one.2
      (one.1 :: others.1, others.2)

/-- `async with reservationist:` around the calls. -/
def runBlock (validate : Validate Spec) (supportingReservation : AgentReservation Time)
    (deployOne : Option (AgentReservation Time) → Dict Key (Batch Spec Time) → Except Raised Unit)
    (calls : List (DeployCall Spec Time)) (s : Accumulating Spec Time) : BlockRun Spec Time :=
  let body := runCalls validate calls (s.aenter supportingReservation)
  let left := body.2.aexit deployOne
  ⟨body.1, body.2.deployments, left.1, left.2⟩

/-- The batch is not empty, its reservation ids are valid and the validator
finds nothing wrong with its specs. -/
def Accepted (validate : Validate Spec) (externalNetworks mcpServers : Option (List String))
    (deploymentDict : Batch Spec Time) : Prop :=
  deploymentDict ≠ [] ∧ ∀ entry ∈ deploymentDict,
    validateId (some entry.1.getReservationId) = .ok () ∧
    ∃ newErrors, validate externalNetworks mcpServers entry.1.getReservationId entry.2 =
      .ok newErrors ∧ newErrors.getD [] = []

/-- The block handed every batch over once: each call returned what it promises,
the mapping holds each batch once, under an event exactly where one was asked
for, and nothing stays behind. -/
structure HandedOverOnce (calls : List (DeployCall Spec Time)) (run : BlockRun Spec Time) :
    Prop where
  returned : ∀ (i : ℕ) call, calls[i]? = some call → ∃ event,
    run.results[i]? = some (.ok event) ∧
      if call.confirmation then
        ∃ e, event = some e ∧ run.handedOver.get? (.event e) = some call.deploymentDict
      else event = none
  batches : (run.handedOver.items.map fun e => (e.2, e.1.isEvent)).Perm
    (calls.map fun call => (call.deploymentDict, call.confirmation))
  nothingLeft : run.exit = .ok () → run.after.deployments = .empty

/-! ### Single calls -/

variable {validate : Validate Spec} {s : Accumulating Spec Time}

/-- The validation of an accepted batch finds no error. -/
theorem validateLoop_accepted {externalNetworks mcpServers : Option (List String)}
    {deploymentDict : Batch Spec Time} {errors : Dict String (List String)}
    (h : ∀ entry ∈ deploymentDict, validateId (some entry.1.getReservationId) = .ok () ∧
      ∃ newErrors, validate externalNetworks mcpServers entry.1.getReservationId entry.2 =
        .ok newErrors ∧ newErrors.getD [] = []) :
    Accumulating.validateLoop validate externalNetworks mcpServers deploymentDict errors =
      .ok errors := by
  induction deploymentDict with
  | nil => rfl
  | cons entry rest ih =>
      obtain ⟨reservation, agentNetworkSpec⟩ := entry
      obtain ⟨hid, newErrors, hvalidate, hnone⟩ := h _ List.mem_cons_self
      have hrest := ih fun e he => h e (List.mem_cons_of_mem _ he)
      unfold Accumulating.validateLoop
      simp only at hid hvalidate
      simp only [hid, hvalidate, hnone]
      exact hrest

/-- An accepted batch with confirmation is stored under a new event, which is
returned. -/
theorem deploy_confirmed {deploymentDict : Batch Spec Time}
    (h : Accepted validate s.externalNetworks s.mcpServers deploymentDict) :
    s.deploy validate deploymentDict true =
      (.ok (some s.nextEvent),
        { s with
          nextEvent := s.nextEvent + 1
          deployments := s.deployments.set (.event s.nextEvent) deploymentDict }) := by
  have hempty : deploymentDict.isEmpty = false := List.isEmpty_eq_false_iff.mpr h.1
  unfold Accumulating.deploy
  rw [hempty, validateLoop_accepted h.2]
  rfl

/-- An accepted batch without confirmation raises, and nothing is stored. -/
theorem deploy_unconfirmed {deploymentDict : Batch Spec Time}
    (h : Accepted validate s.externalNetworks s.mcpServers deploymentDict) :
    s.deploy validate deploymentDict false =
      (.error (.otherError "TypeError" "'dict_keys' object is not subscriptable"), s) := by
  have hempty : deploymentDict.isEmpty = false := List.isEmpty_eq_false_iff.mpr h.1
  unfold Accumulating.deploy
  rw [hempty, validateLoop_accepted h.2]
  rfl

/-- A call does not change what is validated against. -/
theorem deploy_validateWith (validate : Validate Spec) (s : Accumulating Spec Time)
    (deploymentDict : Batch Spec Time) (confirmation : Bool) :
    (s.deploy validate deploymentDict confirmation).2.externalNetworks = s.externalNetworks ∧
      (s.deploy validate deploymentDict confirmation).2.mcpServers = s.mcpServers := by
  unfold Accumulating.deploy
  repeat' split
  all_goals exact ⟨rfl, rfl⟩

/-! ### Sequences of calls -/

/-- The batches of confirmed calls, under the events made from `next` on. -/
def confirmedEntries (next : Nat) : List (DeployCall Spec Time) → List (Key × Batch Spec Time)
  | [] => []
  | call :: rest => (.event next, call.deploymentDict) :: confirmedEntries (next + 1) rest

/-- Every event in the dictionary was made earlier. -/
def EventsBelow (s : Accumulating Spec Time) : Prop :=
  ∀ e, Key.event e ∈ s.deployments → e < s.nextEvent

/-- A confirmed call appends its batch. -/
theorem items_deploy_confirmed {deploymentDict : Batch Spec Time} (hbelow : EventsBelow s)
    (h : Accepted validate s.externalNetworks s.mcpServers deploymentDict) :
    (s.deploy validate deploymentDict true).2.deployments.items =
        s.deployments.items ++ [(.event s.nextEvent, deploymentDict)] ∧
      EventsBelow (s.deploy validate deploymentDict true).2 := by
  have hnew : Key.event s.nextEvent ∉ s.deployments := fun hmem => by
    have hlt := hbelow _ hmem
    omega
  rw [deploy_confirmed h]
  refine ⟨Dict.items_set_of_not_mem hnew deploymentDict, fun e hmem => ?_⟩
  show e < s.nextEvent + 1
  rcases Dict.mem_set.mp hmem with heq | hold
  · have hevent : e = s.nextEvent := Key.event.inj heq
    omega
  · have hlt := hbelow e hold
    omega

/-- What a sequence of accepted, confirmed calls leaves, by induction on it:
every call returned a new event, and its batch is under that event. -/
theorem runCalls_confirmed {calls : List (DeployCall Spec Time)} (hbelow : EventsBelow s)
    (haccepted : ∀ call ∈ calls,
      Accepted validate s.externalNetworks s.mcpServers call.deploymentDict)
    (hconfirmed : ∀ call ∈ calls, call.confirmation = true) :
    (runCalls validate calls s).1 =
        (List.range' s.nextEvent calls.length).map (fun e => .ok (some e)) ∧
      (runCalls validate calls s).2.deployments.items =
        s.deployments.items ++ confirmedEntries s.nextEvent calls := by
  induction calls generalizing s with
  | nil => exact ⟨rfl, (List.append_nil _).symm⟩
  | cons call rest ih =>
      obtain ⟨deploymentDict, confirmation⟩ := call
      have hone : confirmation = true := hconfirmed _ List.mem_cons_self
      have hok : Accepted validate s.externalNetworks s.mcpServers deploymentDict :=
        haccepted _ List.mem_cons_self
      subst hone
      obtain ⟨hitems, hbelow'⟩ := items_deploy_confirmed hbelow hok
      obtain ⟨hexternal, hmcp⟩ := deploy_validateWith validate s
        deploymentDict true
      have hrest := ih hbelow' (fun c hc => by
          rw [hexternal, hmcp]
          exact haccepted c (List.mem_cons_of_mem _ hc))
        (fun c hc => hconfirmed c (List.mem_cons_of_mem _ hc))
      have hnext : (s.deploy validate deploymentDict true).2.nextEvent = s.nextEvent + 1 := by
        rw [deploy_confirmed hok]
      rw [hnext, hitems] at hrest
      obtain ⟨hresults, hstored⟩ := hrest
      constructor
      · show (s.deploy validate deploymentDict true).1 ::
          (runCalls validate rest (s.deploy validate deploymentDict true).2).1 = _
        rw [hresults, deploy_confirmed hok]
        rfl
      · show (runCalls validate rest (s.deploy validate deploymentDict true).2).2.deployments.items
          = _
        rw [hstored, List.append_assoc]
        rfl

/-- An accepted call without confirmation is among the results as an error. -/
theorem runCalls_unconfirmed {calls : List (DeployCall Spec Time)} {i : ℕ}
    {call : DeployCall Spec Time}
    (haccepted : ∀ call ∈ calls,
      Accepted validate s.externalNetworks s.mcpServers call.deploymentDict)
    (hcall : calls[i]? = some call) (hunconfirmed : call.confirmation = false) :
    (runCalls validate calls s).1[i]? =
      some (.error (.otherError "TypeError" "'dict_keys' object is not subscriptable")) := by
  induction calls generalizing s i with
  | nil => cases hcall
  | cons first rest ih =>
      cases i with
      | zero =>
          obtain rfl : first = call := Option.some.inj hcall
          have hok := haccepted first List.mem_cons_self
          show some (s.deploy validate first.deploymentDict first.confirmation).1 = _
          rw [hunconfirmed, deploy_unconfirmed hok]
      | succ i =>
          obtain ⟨hexternal, hmcp⟩ := deploy_validateWith validate s
            first.deploymentDict first.confirmation
          refine ih (fun c hc => ?_) hcall
          rw [hexternal, hmcp]
          exact haccepted c (List.mem_cons_of_mem _ hc)

/-- The batches of confirmed calls in the mapping are those of the calls. -/
theorem confirmedEntries_map (next : Nat) {calls : List (DeployCall Spec Time)}
    (hconfirmed : ∀ call ∈ calls, call.confirmation = true) :
    (confirmedEntries next calls).map (fun e => (e.2, e.1.isEvent)) =
      calls.map fun call => (call.deploymentDict, call.confirmation) := by
  induction calls generalizing next with
  | nil => rfl
  | cons call rest ih =>
      have hone := hconfirmed call List.mem_cons_self
      have hrest := ih (next + 1) fun c hc => hconfirmed c (List.mem_cons_of_mem _ hc)
      unfold confirmedEntries
      rw [List.map_cons, List.map_cons, hrest, hone]
      rfl

/-- Call number `i` is under the event `next + i`. -/
theorem mem_confirmedEntries (next : Nat) {calls : List (DeployCall Spec Time)} {i : ℕ}
    {call : DeployCall Spec Time} (hcall : calls[i]? = some call) :
    (Key.event (next + i), call.deploymentDict) ∈ confirmedEntries next calls := by
  induction calls generalizing next i with
  | nil => cases hcall
  | cons first rest ih =>
      cases i with
      | zero =>
          obtain rfl : first = call := Option.some.inj hcall
          exact List.mem_cons_self
      | succ i =>
          have hmem := ih (next + 1) hcall
          rw [show next + 1 + i = next + (i + 1) by omega] at hmem
          exact List.mem_cons_of_mem _ hmem

/-- A block of accepted batches hands every batch over once exactly when all its
calls ask for confirmation. -/
theorem handedOverOnce_iff {supportingReservation : AgentReservation Time}
    {deployOne : Option (AgentReservation Time) → Dict Key (Batch Spec Time) →
      Except Raised Unit} {calls : List (DeployCall Spec Time)}
    (haccepted : ∀ call ∈ calls,
      Accepted validate s.externalNetworks s.mcpServers call.deploymentDict) :
    HandedOverOnce calls (runBlock validate supportingReservation deployOne calls s) ↔
      ∀ call ∈ calls, call.confirmation = true := by
  constructor
  · intro h call hmem
    by_contra hnot
    have hunconfirmed : call.confirmation = false := Bool.eq_false_iff.mpr hnot
    obtain ⟨i, hcall⟩ := List.mem_iff_getElem?.mp hmem
    obtain ⟨event, hresult, -⟩ := h.returned i call hcall
    have herror : (runBlock validate supportingReservation deployOne calls s).results[i]? =
        some (.error (.otherError "TypeError" "'dict_keys' object is not subscriptable")) :=
      runCalls_unconfirmed haccepted hcall hunconfirmed
    cases herror.symm.trans hresult
  · intro hconfirmed
    have hbelow : EventsBelow (s.aenter supportingReservation) :=
      fun e hmem => absurd hmem (Dict.not_mem_empty _)
    obtain ⟨hresults, hstored⟩ := runCalls_confirmed hbelow haccepted hconfirmed
    have hitems : (runBlock validate supportingReservation deployOne calls s).handedOver.items =
        confirmedEntries s.nextEvent calls := hstored
    refine ⟨fun i call hcall => ?_, ?_, fun hexit => ?_⟩
    · have hlt : i < calls.length := (List.getElem?_eq_some_iff.mp hcall).1
      refine ⟨some (s.nextEvent + i), ?_, ?_⟩
      · show (runCalls validate calls (s.aenter supportingReservation)).1[i]? = _
        rw [hresults]
        simp [hlt, Accumulating.aenter]
      · rw [if_pos (hconfirmed call (List.mem_of_getElem? hcall))]
        refine ⟨s.nextEvent + i, rfl, Dict.get?_eq_some_iff.mpr ?_⟩
        rw [hitems]
        exact mem_confirmedEntries s.nextEvent hcall
    · rw [hitems, confirmedEntries_map s.nextEvent hconfirmed]
    · revert hexit
      unfold runBlock Accumulating.aexit
      dsimp only
      split
      · intro hexit
        cases hexit
      · intro _
        rfl

end Blocks

/-! ## Two blocks -/

/-- A uuid. -/
def someUuid : Uuid := ⟨"3f2a9c04-8d17-4e6b-9b35-0c1d2e3f4a5b", rfl, by simp⟩

/-- A validator that finds nothing. -/
def findsNothing : Validate Nat := fun _ _ _ _ => .ok none

/-- A reservationist of an agent, before its first block. -/
def idle : Accumulating Nat Nat := ⟨86400, "planner", .empty, none, none, none, 0⟩

/-- A reservation with a prefix. -/
def copyReservation : AgentReservation Nat := agentReservation 60 (some "copy") someUuid

/-- A batch of one network. -/
def oneNetwork (agentSpec : Nat) : Batch Nat Nat := [(copyReservation, agentSpec)]

theorem oneNetwork_accepted (agentSpec : Nat) :
    Accepted findsNothing none none (oneNetwork agentSpec) := by
  refine ⟨List.cons_ne_nil _ _, fun entry hentry => ?_⟩
  rw [List.mem_singleton.mp hentry]
  have hid : validateId (some copyReservation.getReservationId) = .ok () := by decide
  exact ⟨hid, none, rfl, rfl⟩

/-- Two confirmed calls are handed over under an event each. -/
theorem handedOverOnce_confirmed :
    HandedOverOnce [⟨oneNetwork 1, true⟩, ⟨oneNetwork 2, true⟩]
      (runBlock findsNothing (agentReservation 60 (some "planner") someUuid)
        (fun _ _ => .ok ()) [⟨oneNetwork 1, true⟩, ⟨oneNetwork 2, true⟩] idle) := by
  refine (handedOverOnce_iff ?_).mpr (by simp)
  intro call hcall
  rcases List.mem_cons.mp hcall with rfl | hcall
  · exact oneNetwork_accepted 1
  · rw [List.mem_singleton.mp hcall]
    exact oneNetwork_accepted 2

/-- An unconfirmed call is not: it raises. -/
theorem unconfirmed_not_handedOver :
    ¬ ∀ calls : List (DeployCall Nat Nat),
      (∀ call ∈ calls, Accepted findsNothing none none call.deploymentDict) →
      HandedOverOnce calls (runBlock findsNothing
        (agentReservation 60 (some "planner") someUuid) (fun _ _ => .ok ()) calls idle) := by
  intro h
  have hrun := h [⟨oneNetwork 1, false⟩] fun call hcall => by
    rw [List.mem_singleton.mp hcall]
    exact oneNetwork_accepted 1
  obtain ⟨event, hresult, -⟩ := hrun.returned 0 _ rfl
  cases hresult

end NoraFleet.Reservations
