import NoraFleet.Reservations.HandOver

/-!
# Waiting for one deployment

`ReservationUtil.wait_for_one` from end to end: it reserves, deploys one spec
with confirmation inside an `async with` block, and waits for the event. The
block hands the batch to the service reservationist, which puts it on the queue;
the consumer deploys it to the temporary storage, swallows what that raises and
has the event set either way.

The ways this can go are four lemmas: the prefix is refused
(`waitForOne_badPrefix`), the validator raises (`waitForOne_validatorRaises`),
it finds errors (`waitForOne_rejected`), or it finds none and the batch is
handed over (`waitForOne_handedOver`). `noFalseSuccess_iff` reads off them when
the documented result comes out: not when validation refuses anything, and not
when the storage raises.
-/

namespace NoraFleet.Reservations

open Base

/-- `set_expiration_from(use_now_in_seconds, max_lifetime_in_seconds)`. -/
def AgentReservation.setExpirationFrom {Time : Type*} [LinearOrder Time] [Add Time]
    (reservation : AgentReservation Time) (useNowInSeconds maxLifetimeInSeconds : Time) :
    AgentReservation Time :=
  { reservation with
    expirationTimeInSeconds :=
      useNowInSeconds + min reservation.lifetimeInSeconds maxLifetimeInSeconds }

/-- How `storage.add_reservations(reservations_dict, source)` ends. -/
abbrev AddReservations (Spec Time : Type*) := Batch Spec Time → String → Except Raised Unit

/-- What becomes of an item that is put: the consumer gets it, nobody ever does,
or the put raises. -/
inductive Put where
  | consumed
  | lost
  | raised (e : Raised)
  deriving DecidableEq

/-- What `wait_for_one` runs against. -/
structure Surroundings (Spec Time : Type*) where
  validate : Validate Spec
  put : QueuedItem Spec Time Unit → Put
  tempStorage : AddReservations Spec Time
  -- time(), when the consumer deploys
  useNow : Time
  -- of the service reservationist
  maxLifetimeInSeconds : Time

/-- The reservation ids the temporary storage accepted a network under while an
item was processed, and the event that was set afterwards. -/
structure Processed where
  accepted : List String
  event : Option Nat

/-- How a call of `wait_for_one` ends. -/
inductive Outcome (Time : Type*) where
  | returned (reservation : Option (AgentReservation Time)) (error : Option String)
  | raised (e : Raised)
  | waiting
  deriving DecidableEq

/-- How a call ends, and what the temporary storage accepted before its event
was set. -/
structure WaitResult (Time : Type*) where
  outcome : Outcome Time
  accepted : List String
  deriving DecidableEq

/-- The error when `args` has no reservationist. -/
def noReservationist : String := "
Reservationist is None.  Make sure that temporary networks reservations
 are allowed in agent network definition by specifying:
\"allow\": \x7b \"reservations\": True \x7d or
 add a NetworkCopyMiddleware entry with allow.reservations = true.
"

section Definitions

variable {Spec Time : Type*} [LinearOrder Time] [Add Time] [Zero Time]

/-- `deploy_together`: consistent expiration times, then every storage in turn. -/
def deployTogether (storages : List (AddReservations Spec Time))
    (deploymentDict : Batch Spec Time) (source : String)
    (useNow maxLifetimeInSeconds : Time) : Except Raised Unit :=
  let reservationsDict := deploymentDict.map fun (reservation, agentSpec) =>
    (reservation.setExpirationFrom useNow maxLifetimeInSeconds, agentSpec)
  storages.foldl (fun done storage =>
    match done with
    | .error e => .error e
    | .ok () => storage reservationsDict source) (.ok ())

/-- `process_one_queued_item`: even if deployment fails, the event is set. -/
def processOneQueuedItem (around : Surroundings Spec Time)
    (queuedItem : QueuedItem Spec Time Unit) : Processed :=
  let event := queuedItem.event.map Prod.fst
  match deployTogether [around.tempStorage] queuedItem.deploymentDict queuedItem.source
      around.useNow queuedItem.maxLifetimeInSeconds with
  | .error _ => ⟨[], event⟩
  | .ok () => ⟨queuedItem.deploymentDict.map fun e => e.1.getReservationId, event⟩

/-- The puts of `ServiceAgentReservationist.deploy`: how they end, and the items
the consumer gets. -/
def putAll (put : QueuedItem Spec Time Unit → Put) :
    List (QueuedItem Spec Time Unit) → Except Raised Unit × List (QueuedItem Spec Time Unit)
  | [] => (.ok (), [])
  | queuedItem :: rest =>
      match put queuedItem with
      | .raised e => (.error e, [])
      | .lost => putAll put rest
      | .consumed => ((putAll put rest).1, queuedItem :: (putAll put rest).2)

/-- `deploy_one` of the service reservationist. Inside a block the supporting
reservation is always there. -/
def deployOne (around : Surroundings Spec Time)
    (supportingReservation : Option (AgentReservation Time))
    (deployment : Dict Key (Batch Spec Time)) :
    Except Raised Unit × List (QueuedItem Spec Time Unit) :=
  match supportingReservation with
  | none => (.error (.otherError "AttributeError"
      "'NoneType' object has no attribute 'get_prefix'"), [])
  | some reservation =>
      putAll around.put
        (queuedItems around.maxLifetimeInSeconds () [(reservation, deployment.items)])

/-- The `async with` statement of `wait_for_one`: the event, if `deploy` returned
one, and what the statement raises. What leaving the block raises replaces what
its body raised. -/
def blockOutcome (run : BlockRun Spec Time) : Option Nat × Option Raised :=
  match run.exit, run.results with
  | .error e, .ok event :: _ => (event, some e)
  | .error e, _ => (none, some e)
  | .ok (), .ok event :: _ => (event, none)
  | .ok (), .error e :: _ => (none, some e)
  | .ok (), [] => (none, none)

/-- `Reservationist.DEFAULT_LIFETIME`. -/
def defaultLifetime (Time : Type*) [NatCast Time] : Time := ((24 * 60 * 60 : Nat) : Time)

/-- The supporting reservation of a block: `reserve(prefix=self.agent_name)` of
the service reservationist. -/
def supportingReservation [NatCast Time] (around : Surroundings Spec Time)
    (accumulating : Accumulating Spec Time) (supportingUuid : Uuid) : AgentReservation Time :=
  agentReservation (min (defaultLifetime Time) around.maxLifetimeInSeconds)
    (some accumulating.agentName) supportingUuid

/-- `wait_for_one` from its `try` on: the block with its one deployment, and the
wait for the event. -/
def deployAndWait [NatCast Time] (around : Surroundings Spec Time)
    (accumulating : Accumulating Spec Time)
    (reservation : AgentReservation Time) (agentSpec : Spec)
    (externalNetworks mcpServers : Option (List String)) (supportingUuid : Uuid) :
    WaitResult Time :=
  let supporting := supportingReservation around accumulating supportingUuid
  let run := runBlock around.validate supporting
    (fun r deployment => (deployOne around r deployment).1) [⟨[(reservation, agentSpec)], true⟩]
    (accumulating.validateWith externalNetworks mcpServers)
  let processed := (deployOne around (some supporting) run.handedOver).2.map
    (processOneQueuedItem around)
  let accepted := processed.flatMap Processed.accepted
  let returned := fun (error : Option String) =>
    match (blockOutcome run).1 with
    | none => Outcome.returned (some reservation) error
    | some event =>
        -- await deployed_event.wait()
        if processed.any (fun p => p.event = some event) then .returned (some reservation) error
        else .waiting
  match (blockOutcome run).2 with
  | some (.otherError className message) => ⟨.raised (.otherError className message), accepted⟩
  | some (.valueError message) => ⟨returned (some message), accepted⟩
  | none => ⟨returned none, accepted⟩

/-- `wait_for_one(args, agent_spec, lifetime_in_seconds, prefix,
external_networks, mcp_servers)`, with the uuids of the reservation and of the
supporting one. -/
def waitForOne [NatCast Time] (around : Surroundings Spec Time)
    (reservationist : Option (Accumulating Spec Time)) (agentSpec : Spec) (lifetimeInSeconds : Time)
    (idPrefix : Option String)
    (externalNetworks mcpServers : Option (List String)) (uuid supportingUuid : Uuid) :
    WaitResult Time :=
  match reservationist with
  | none => ⟨.returned none (some noReservationist), []⟩
  | some accumulating =>
      -- outside of the try block
      match accumulating.reserve lifetimeInSeconds idPrefix uuid with
      | .error e => ⟨.raised e, []⟩
      | .ok reservation =>
          deployAndWait around accumulating reservation agentSpec externalNetworks mcpServers
            supportingUuid

end Definitions

/-! ## Ids -/

/-- No character of the prefix is one `validate_id` refuses. -/
def PrefixOk (idPrefix : Option String) : Prop :=
  ∀ c ∈ (idPrefix.getD "").toList, c ∉ invalidChars

instance (idPrefix : Option String) : Decidable (PrefixOk idPrefix) :=
  inferInstanceAs (Decidable (∀ c ∈ (idPrefix.getD "").toList, c ∉ invalidChars))

theorem prefixOk_of_empty {idPrefix : Option String} (h : idPrefix.getD "" = "") :
    PrefixOk idPrefix := by
  intro c hc
  rw [h] at hc
  simp at hc

/-- An id is valid exactly when it is not empty and has no refused character. -/
theorem validateId_eq_ok {testId : String} :
    validateId (some testId) = .ok () ↔
      testId ≠ "" ∧ ∀ c ∈ testId.toList, c ∉ invalidChars := by
  have hlength : testId.length = 0 ↔ testId = "" := by
    rw [← String.length_toList, List.length_eq_zero_iff]
    exact String.toList_eq_nil_iff
  unfold validateId
  simp only [hlength]
  by_cases hempty : testId = ""
  · simp [hempty]
  · rw [if_neg hempty]
    by_cases hany : invalidChars.any (· ∈ testId.toList) = true
    · rw [if_pos hany]
      simp only [List.any_eq_true, decide_eq_true_eq] at hany
      obtain ⟨c, hc, hmem⟩ := hany
      refine ⟨fun h => (nomatch h), fun h => absurd hc (h.2 c hmem)⟩
    · rw [if_neg hany]
      refine ⟨fun _ => ⟨hempty, fun c hmem hc => hany ?_⟩, fun _ => rfl⟩
      simp only [List.any_eq_true, decide_eq_true_eq]
      exact ⟨c, hc, hmem⟩

/-- `validate_id` raises nothing but a `ValueError`. -/
theorem validateId_error {testId : Option String} {e : Raised}
    (h : validateId testId = .error e) : ∃ message, e = .valueError message := by
  unfold validateId at h
  cases testId with
  | none => exact ⟨_, (Except.error.inj h).symm⟩
  | some testId =>
      dsimp only at h
      repeat' split at h
      · exact ⟨_, (Except.error.inj h).symm⟩
      · exact ⟨_, (Except.error.inj h).symm⟩
      · cases h

/-- The id of a reservation with a good prefix passes `validate_id`. -/
theorem validateId_reservationId {Time : Type*} [Zero Time] {idPrefix : Option String}
    (h : PrefixOk idPrefix) (lifetimeInSeconds : Time) (uuid : Uuid) :
    validateId (some (agentReservation lifetimeInSeconds idPrefix uuid).getReservationId) =
      .ok () := by
  have huuid : ∀ c ∈ uuid.text.toList, c ∉ invalidChars := by
    have hplain : ∀ c ∈ "0123456789abcdef-".toList, c ∉ invalidChars := by
      simp [invalidChars]
    exact fun c hc => hplain c (uuid.wellFormed.2 c hc)
  have hdash : '-' ∉ invalidChars := by decide
  have hparts : ∀ c ∈ (agentReservation lifetimeInSeconds idPrefix uuid).getReservationId.toList,
      c ∉ invalidChars := by
    intro c hc
    unfold AgentReservation.getReservationId agentReservation at hc
    dsimp only at hc
    rw [String.toList_append, List.mem_append] at hc
    rcases hc with hc | hc
    · split at hc
      · rw [String.toList_append, List.mem_append] at hc
        rcases hc with hc | hc
        · exact h c hc
        · rw [List.mem_singleton.mp hc]
          exact hdash
      · exact h c hc
    · exact huuid c hc
  refine validateId_eq_ok.mpr ⟨fun hempty => ?_, hparts⟩
  have hlength := congrArg String.length hempty
  unfold AgentReservation.getReservationId agentReservation at hlength
  rw [String.length_append, uuid.wellFormed.1] at hlength
  simp at hlength

/-- Reserving succeeds exactly with a good prefix, and otherwise raises a
`ValueError`. -/
theorem reserve_eq {Spec Time : Type*} [LinearOrder Time] [Zero Time]
    (s : Accumulating Spec Time) (lifetimeInSeconds : Time) (idPrefix : Option String)
    (uuid : Uuid) :
    (PrefixOk idPrefix → s.reserve lifetimeInSeconds idPrefix uuid =
      .ok (agentReservation (min lifetimeInSeconds s.maxLifetimeInSeconds) idPrefix uuid)) ∧
    (¬ PrefixOk idPrefix → ∃ message, s.reserve lifetimeInSeconds idPrefix uuid =
      .error (.valueError message)) := by
  unfold Accumulating.reserve
  cases idPrefix with
  | none => exact ⟨fun _ => rfl, fun h => absurd (prefixOk_of_empty rfl) h⟩
  | some text =>
      dsimp only
      by_cases hlength : text.length > 0
      · have hne : text ≠ "" := by
          rintro rfl
          exact absurd hlength (by decide)
        rw [if_pos hlength]
        constructor
        · intro h
          rw [validateId_eq_ok.mpr ⟨hne, h⟩]
        · intro h
          cases hvalidate : validateId (some text) with
          | ok u => exact absurd (validateId_eq_ok.mp hvalidate).2 h
          | error e =>
              obtain ⟨message, rfl⟩ := validateId_error hvalidate
              exact ⟨message, rfl⟩
      · rw [if_neg hlength]
        refine ⟨fun _ => rfl, fun h => absurd (prefixOk_of_empty ?_) h⟩
        show text = ""
        rw [← String.toList_eq_nil_iff, ← List.length_eq_zero_iff, String.length_toList]
        omega

/-! ## The four ways -/

section Ways

variable {Spec Time : Type*} [LinearOrder Time] [Add Time] [Zero Time] [NatCast Time]
  {around : Surroundings Spec Time} {accumulating : Accumulating Spec Time} {agentSpec : Spec}
  {lifetimeInSeconds : Time} {idPrefix : Option String}
  {externalNetworks mcpServers : Option (List String)} {uuid supportingUuid : Uuid}

/-- The reservation `wait_for_one` makes. -/
def theReservation (accumulating : Accumulating Spec Time) (lifetimeInSeconds : Time)
    (idPrefix : Option String) (uuid : Uuid) : AgentReservation Time :=
  agentReservation (min lifetimeInSeconds accumulating.maxLifetimeInSeconds) idPrefix uuid

/-- The item that carries its batch. -/
def theItem (around : Surroundings Spec Time) (accumulating : Accumulating Spec Time)
    (agentSpec : Spec) (lifetimeInSeconds : Time) (idPrefix : Option String)
    (uuid supportingUuid : Uuid) : QueuedItem Spec Time Unit where
  source := (supportingReservation around accumulating supportingUuid).idPrefix
  deploymentDict := [(theReservation accumulating lifetimeInSeconds idPrefix uuid, agentSpec)]
  maxLifetimeInSeconds := around.maxLifetimeInSeconds
  event := some (accumulating.nextEvent, ())

/-- What the validator says of the spec under the id of that reservation. -/
def theVerdict (around : Surroundings Spec Time) (accumulating : Accumulating Spec Time)
    (agentSpec : Spec) (lifetimeInSeconds : Time) (idPrefix : Option String)
    (externalNetworks mcpServers : Option (List String)) (uuid : Uuid) :
    Except Raised (Option (List String)) :=
  around.validate externalNetworks mcpServers
    (theReservation accumulating lifetimeInSeconds idPrefix uuid).getReservationId agentSpec

/-- How the call ends when `deploy` raises: a `ValueError` is reported beside the
reservation. -/
def reported (reservation : AgentReservation Time) : Raised → Outcome Time
  | .valueError message => .returned (some reservation) (some message)
  | .otherError className message => .raised (.otherError className message)

variable (around accumulating agentSpec lifetimeInSeconds externalNetworks mcpServers uuid
  supportingUuid) in
theorem waitForOne_badPrefix (h : ¬ PrefixOk idPrefix) :
    ∃ message, waitForOne around (some accumulating) agentSpec lifetimeInSeconds idPrefix
      externalNetworks mcpServers uuid supportingUuid = ⟨.raised (.valueError message), []⟩ := by
  obtain ⟨message, hreserve⟩ := (reserve_eq accumulating lifetimeInSeconds idPrefix uuid).2 h
  refine ⟨message, ?_⟩
  simp only [waitForOne, hreserve]

/-- With a good prefix the call comes to its block. -/
theorem waitForOne_reserved (h : PrefixOk idPrefix) :
    waitForOne around (some accumulating) agentSpec lifetimeInSeconds idPrefix
      externalNetworks mcpServers uuid supportingUuid =
      deployAndWait around accumulating
        (theReservation accumulating lifetimeInSeconds idPrefix uuid) agentSpec externalNetworks
        mcpServers supportingUuid := by
  have hreserve := (reserve_eq accumulating lifetimeInSeconds idPrefix uuid).1 h
  simp only [waitForOne, hreserve]
  rfl

/-- A `deploy` that raises leaves nothing to hand over. -/
theorem deployAndWait_raises {reservation : AgentReservation Time} {e : Raised}
    (hdeploy : ∀ s : Accumulating Spec Time, s.externalNetworks = externalNetworks →
      s.mcpServers = mcpServers →
      s.deploy around.validate [(reservation, agentSpec)] true = (.error e, s)) :
    deployAndWait around accumulating reservation agentSpec externalNetworks mcpServers
      supportingUuid = ⟨reported reservation e, []⟩ := by
  have hentered := hdeploy ((accumulating.validateWith externalNetworks mcpServers).aenter
    (supportingReservation around accumulating supportingUuid)) rfl rfl
  unfold deployAndWait
  simp only [runBlock, runCalls, hentered]
  cases e <;> rfl

variable (supportingUuid) in
theorem waitForOne_validatorRaises (hgood : PrefixOk idPrefix) {e : Raised}
    (hverdict : theVerdict around accumulating agentSpec lifetimeInSeconds idPrefix
      externalNetworks mcpServers uuid = .error e) :
    waitForOne around (some accumulating) agentSpec lifetimeInSeconds idPrefix
      externalNetworks mcpServers uuid supportingUuid =
      ⟨reported (theReservation accumulating lifetimeInSeconds idPrefix uuid) e, []⟩ := by
  rw [waitForOne_reserved hgood]
  refine deployAndWait_raises fun s hexternal hmcp => ?_
  have hid := validateId_reservationId hgood
    (min lifetimeInSeconds accumulating.maxLifetimeInSeconds) uuid
  unfold theVerdict theReservation at hverdict
  unfold theReservation
  simp only [Accumulating.deploy, Accumulating.validateLoop, List.isEmpty_cons,
    Bool.false_eq_true, if_false, hid, hexternal, hmcp, hverdict]

variable (supportingUuid) in
theorem waitForOne_rejected (hgood : PrefixOk idPrefix) {newErrors : Option (List String)}
    (hverdict : theVerdict around accumulating agentSpec lifetimeInSeconds idPrefix
      externalNetworks mcpServers uuid = .ok newErrors) (hsome : newErrors.getD [] ≠ []) :
    ∃ message, waitForOne around (some accumulating) agentSpec lifetimeInSeconds idPrefix
      externalNetworks mcpServers uuid supportingUuid =
      ⟨.returned (some (theReservation accumulating lifetimeInSeconds idPrefix uuid))
        (some message), []⟩ := by
  let errors : Dict String (List String) := Dict.empty.set
    (theReservation accumulating lifetimeInSeconds idPrefix uuid).getReservationId
    (newErrors.getD [])
  rw [waitForOne_reserved hgood]
  refine ⟨validationMessage errors,
    deployAndWait_raises (e := .valueError (validationMessage errors)) fun s hexternal hmcp => ?_⟩
  have hid := validateId_reservationId hgood
    (min lifetimeInSeconds accumulating.maxLifetimeInSeconds) uuid
  have hpos : (newErrors.getD []).length > 0 := List.length_pos_iff.mpr hsome
  unfold theVerdict theReservation at hverdict
  unfold theReservation
  simp only [Accumulating.deploy, Accumulating.validateLoop, List.isEmpty_cons,
    Bool.false_eq_true, if_false, hid, hexternal, hmcp, hverdict, if_pos hpos]
  rfl

variable (supportingUuid) in
/-- The batch is handed over: the put decides whether the event is ever set, and
what the storage did is not looked at. -/
theorem waitForOne_handedOver (hgood : PrefixOk idPrefix) {newErrors : Option (List String)}
    (hverdict : theVerdict around accumulating agentSpec lifetimeInSeconds idPrefix
      externalNetworks mcpServers uuid = .ok newErrors) (hnone : newErrors.getD [] = []) :
    waitForOne around (some accumulating) agentSpec lifetimeInSeconds idPrefix
      externalNetworks mcpServers uuid supportingUuid =
      match around.put (theItem around accumulating agentSpec lifetimeInSeconds idPrefix uuid
        supportingUuid) with
      | .consumed =>
          ⟨.returned (some (theReservation accumulating lifetimeInSeconds idPrefix uuid)) none,
            (processOneQueuedItem around (theItem around accumulating agentSpec
              lifetimeInSeconds idPrefix uuid supportingUuid)).accepted⟩
      | .raised (.otherError className message) =>
          ⟨.raised (.otherError className message), []⟩
      | _ => ⟨.waiting, []⟩ := by
  have hid := validateId_reservationId hgood
    (min lifetimeInSeconds accumulating.maxLifetimeInSeconds) uuid
  -- the batch is this one network, and the verdict on it is clean
  have haccepted : Accepted around.validate externalNetworks mcpServers
      [(theReservation accumulating lifetimeInSeconds idPrefix uuid, agentSpec)] := by
    refine ⟨List.cons_ne_nil _ _, fun entry hentry => ?_⟩
    rw [List.mem_singleton.mp hentry]
    exact ⟨hid, newErrors, hverdict, hnone⟩
  have hdeploy := deploy_confirmed (s := (accumulating.validateWith externalNetworks
    mcpServers).aenter (supportingReservation around accumulating supportingUuid)) haccepted
  have hitems : deployOne around (some (supportingReservation around accumulating supportingUuid))
      ((Dict.empty : Dict Key (Batch Spec Time)).set (.event accumulating.nextEvent)
        [(theReservation accumulating lifetimeInSeconds idPrefix uuid, agentSpec)]) =
      putAll around.put [theItem around accumulating agentSpec lifetimeInSeconds idPrefix uuid
        supportingUuid] := rfl
  rw [waitForOne_reserved hgood]
  unfold deployAndWait
  simp only [runBlock, runCalls, hdeploy]
  simp only [Accumulating.aenter, Accumulating.validateWith, Accumulating.aexit, hitems, putAll]
  cases hput : around.put (theItem around accumulating agentSpec lifetimeInSeconds idPrefix uuid
      supportingUuid) with
  | consumed =>
      -- a batch that is consumed has its event set
      have hset : (processOneQueuedItem around (theItem around accumulating agentSpec
          lifetimeInSeconds idPrefix uuid supportingUuid)).event =
          some accumulating.nextEvent := by
        unfold processOneQueuedItem
        dsimp only
        split <;> rfl
      simp [blockOutcome, hset]
  | lost => simp [blockOutcome]
  | raised e => cases e <;> simp [blockOutcome]

omit [Zero Time] [NatCast Time] in
variable (around) in
/-- The storage accepts the batch exactly when its `add_reservations` returns. -/
theorem mem_accepted_iff (item : QueuedItem Spec Time Unit)
    {reservation : AgentReservation Time} {spec : Spec}
    (hitem : item.deploymentDict = [(reservation, spec)]) :
    reservation.getReservationId ∈ (processOneQueuedItem around item).accepted ↔
      around.tempStorage [(reservation.setExpirationFrom around.useNow
        item.maxLifetimeInSeconds, spec)] item.source = .ok () := by
  unfold processOneQueuedItem deployTogether
  simp only [hitem, List.map_cons, List.map_nil, List.foldl_cons, List.foldl_nil]
  cases around.tempStorage [(reservation.setExpirationFrom around.useNow
      item.maxLifetimeInSeconds, spec)] item.source with
  | ok u => simp
  | error e => simp

/-! ## The documented result -/

/-- Validation refuses the prefix or the spec. -/
def Refused (around : Surroundings Spec Time) (accumulating : Accumulating Spec Time)
    (agentSpec : Spec) (lifetimeInSeconds : Time) (idPrefix : Option String)
    (externalNetworks mcpServers : Option (List String)) (uuid : Uuid) : Prop :=
  ¬ PrefixOk idPrefix ∨ ∃ newErrors, theVerdict around accumulating agentSpec lifetimeInSeconds
    idPrefix externalNetworks mcpServers uuid = .ok newErrors ∧ newErrors.getD [] ≠ []

/-- What is documented of the result: exactly one of reservation and error is
`None`; there is no error only if the storage accepted a network under the id of
the reservation; what validation refuses is reported as an error alone. -/
structure NoFalseSuccess (refused : Prop) (result : WaitResult Time) : Prop where
  exactlyOne : ∀ reservation error, result.outcome = .returned reservation error →
    (reservation = none ↔ error ≠ none)
  success : ∀ reservation, result.outcome = .returned reservation none →
    ∃ r, reservation = some r ∧ r.getReservationId ∈ result.accepted
  refusal : refused → ∃ message, result.outcome = .returned none (some message)

/-- The storage accepts the batch of the call. -/
def StorageAccepts (around : Surroundings Spec Time) (item : QueuedItem Spec Time Unit) : Prop :=
  around.tempStorage (item.deploymentDict.map fun e =>
    (e.1.setExpirationFrom around.useNow item.maxLifetimeInSeconds, e.2)) item.source = .ok ()

/-- When the documented result comes out: the prefix is good, and the validator
fails with something else than a `ValueError`, or finds no error and the storage
accepts the batch if the consumer gets it. -/
def GoesWell (around : Surroundings Spec Time) (accumulating : Accumulating Spec Time)
    (agentSpec : Spec) (lifetimeInSeconds : Time) (idPrefix : Option String)
    (externalNetworks mcpServers : Option (List String)) (uuid supportingUuid : Uuid) : Prop :=
  PrefixOk idPrefix ∧
    match theVerdict around accumulating agentSpec lifetimeInSeconds idPrefix externalNetworks
      mcpServers uuid with
    | .error (.valueError _) => False
    | .error (.otherError _ _) => True
    | .ok newErrors => newErrors.getD [] = [] ∧
        (around.put (theItem around accumulating agentSpec lifetimeInSeconds idPrefix uuid
            supportingUuid) = .consumed →
          StorageAccepts around (theItem around accumulating agentSpec lifetimeInSeconds idPrefix
            uuid supportingUuid))

omit [LinearOrder Time] [Add Time] [Zero Time] [NatCast Time] in
/-- With a reservation and an error, or with neither, `exactlyOne` fails. -/
theorem NoFalseSuccess.not_both {refused : Prop} {result : WaitResult Time}
    (h : NoFalseSuccess refused result) {reservation : AgentReservation Time} {message : String}
    (heq : result.outcome = .returned (some reservation) (some message)) : False :=
  nomatch (h.exactlyOne _ _ heq).mpr (Option.some_ne_none message)

omit [LinearOrder Time] [Add Time] [Zero Time] [NatCast Time] in
/-- What never returns and was not refused meets what is documented. -/
theorem NoFalseSuccess.of_not_returned {refused : Prop} {result : WaitResult Time}
    (hnot : ∀ reservation error, result.outcome ≠ .returned reservation error)
    (hrefused : ¬ refused) : NoFalseSuccess refused result where
  exactlyOne r e heq := absurd heq (hnot r e)
  success r heq := absurd heq (hnot r none)
  refusal h := absurd h hrefused

omit [Add Time] [NatCast Time] in
/-- With a good prefix, a spec the validator finds no error in is not refused. -/
theorem not_refused (hgood : PrefixOk idPrefix)
    (hpasses : ∀ newErrors, theVerdict around accumulating agentSpec lifetimeInSeconds idPrefix
      externalNetworks mcpServers uuid = .ok newErrors → newErrors.getD [] = []) :
    ¬ Refused around accumulating agentSpec lifetimeInSeconds idPrefix externalNetworks
      mcpServers uuid := by
  rintro (hbad | ⟨newErrors, hok, hsome⟩)
  · exact hbad hgood
  · exact hsome (hpasses newErrors hok)

/-- Once the batch is handed over, the documented result comes out exactly when
the storage accepts it if the consumer gets it. -/
theorem noFalseSuccess_handedOver (hgood : PrefixOk idPrefix) {newErrors : Option (List String)}
    (hverdict : theVerdict around accumulating agentSpec lifetimeInSeconds idPrefix
      externalNetworks mcpServers uuid = .ok newErrors) (hnone : newErrors.getD [] = []) :
    NoFalseSuccess (Refused around accumulating agentSpec lifetimeInSeconds idPrefix
        externalNetworks mcpServers uuid)
      (waitForOne around (some accumulating) agentSpec lifetimeInSeconds idPrefix
        externalNetworks mcpServers uuid supportingUuid) ↔
      (around.put (theItem around accumulating agentSpec lifetimeInSeconds idPrefix uuid
          supportingUuid) = .consumed →
        StorageAccepts around (theItem around accumulating agentSpec lifetimeInSeconds idPrefix
          uuid supportingUuid)) := by
  have hnotRefused := not_refused hgood fun errors hok => by
    rw [hverdict] at hok
    cases hok
    exact hnone
  have haccepted := mem_accepted_iff around (theItem around accumulating agentSpec
    lifetimeInSeconds idPrefix uuid supportingUuid) rfl
  rw [waitForOne_handedOver supportingUuid hgood hverdict hnone]
  cases hput : around.put (theItem around accumulating agentSpec lifetimeInSeconds
      idPrefix uuid supportingUuid) with
  | consumed =>
      constructor
      · intro h _
        obtain ⟨r, hr, hmem⟩ := h.success _ rfl
        obtain rfl := Option.some.inj hr
        exact haccepted.mp hmem
      · intro haccepts
        refine ⟨fun r e heq => ?_, fun r heq => ?_, fun h => absurd h hnotRefused⟩
        · obtain ⟨rfl, rfl⟩ := Outcome.returned.inj heq
          simp
        · obtain ⟨rfl, -⟩ := Outcome.returned.inj heq
          exact ⟨_, rfl, haccepted.mpr (haccepts rfl)⟩
  | lost =>
      refine iff_of_true ?_ fun h => nomatch h
      exact NoFalseSuccess.of_not_returned (fun r e heq => nomatch heq) hnotRefused
  | raised e =>
      refine iff_of_true ?_ fun h => nomatch h
      cases e <;>
        exact NoFalseSuccess.of_not_returned (fun r e heq => nomatch heq) hnotRefused

/-- With a reservationist, the documented result comes out exactly when it
`GoesWell`. -/
theorem noFalseSuccess_some_iff :
    NoFalseSuccess (Refused around accumulating agentSpec lifetimeInSeconds idPrefix
        externalNetworks mcpServers uuid)
      (waitForOne around (some accumulating) agentSpec lifetimeInSeconds idPrefix
        externalNetworks mcpServers uuid supportingUuid) ↔
      GoesWell around accumulating agentSpec lifetimeInSeconds idPrefix externalNetworks
        mcpServers uuid supportingUuid := by
  unfold GoesWell
  by_cases hgood : PrefixOk idPrefix
  · rw [and_iff_right hgood]
    cases hverdict : theVerdict around accumulating agentSpec lifetimeInSeconds idPrefix
      externalNetworks mcpServers uuid with
    | error e =>
        have hresult := waitForOne_validatorRaises supportingUuid hgood hverdict
        cases e with
        | valueError message =>
            exact iff_of_false (fun h => h.not_both (congrArg WaitResult.outcome hresult)) id
        | otherError className message =>
            have hnotRefused := not_refused hgood fun errors hok => by
              rw [hverdict] at hok
              cases hok
            refine iff_of_true (NoFalseSuccess.of_not_returned (fun r e heq => ?_) hnotRefused)
              trivial
            rw [hresult] at heq
            cases heq
    | ok newErrors =>
        by_cases hnone : newErrors.getD [] = []
        · rw [noFalseSuccess_handedOver hgood hverdict hnone]
          exact (and_iff_right hnone).symm
        · obtain ⟨message, hresult⟩ := waitForOne_rejected supportingUuid hgood hverdict hnone
          exact iff_of_false (fun h => h.not_both (congrArg WaitResult.outcome hresult))
            fun h => hnone h.1
  · obtain ⟨message, hresult⟩ := waitForOne_badPrefix around accumulating agentSpec
      lifetimeInSeconds externalNetworks mcpServers uuid supportingUuid hgood
    refine iff_of_false (fun h => ?_) fun h => hgood h.1
    obtain ⟨error, heq⟩ := h.refusal (.inl hgood)
    rw [hresult] at heq
    cases heq

/-- The documented result of `wait_for_one` comes out exactly when there is no
reservationist or the call `GoesWell`. -/
theorem noFalseSuccess_iff (around : Surroundings Spec Time)
    (reservationist : Option (Accumulating Spec Time)) (agentSpec : Spec)
    (lifetimeInSeconds : Time) (idPrefix : Option String)
    (externalNetworks mcpServers : Option (List String)) (uuid supportingUuid : Uuid) :
    NoFalseSuccess (∃ accumulating, reservationist = some accumulating ∧
        Refused around accumulating agentSpec lifetimeInSeconds idPrefix externalNetworks
          mcpServers uuid)
      (waitForOne around reservationist agentSpec lifetimeInSeconds idPrefix externalNetworks
        mcpServers uuid supportingUuid) ↔
      ∀ accumulating, reservationist = some accumulating →
        GoesWell around accumulating agentSpec lifetimeInSeconds idPrefix externalNetworks
          mcpServers uuid supportingUuid := by
  cases reservationist with
  | none =>
      refine Iff.intro (fun _ _ h => nomatch h) fun _ => ?_
      refine ⟨fun r e heq => ?_, fun r heq => ?_, fun h => ?_⟩
      · obtain ⟨rfl, rfl⟩ := Outcome.returned.inj heq
        simp
      · cases heq
      · obtain ⟨_, hsome, -⟩ := h
        cases hsome
  | some accumulating =>
      simp only [Option.some.injEq, forall_eq', exists_eq_left']
      exact noFalseSuccess_some_iff

end Ways

/-- A storage that refuses every batch. -/
def refusing : Surroundings Nat Nat where
  validate := findsNothing
  put := fun _ => .consumed
  tempStorage := fun _ _ => .error (.otherError "OSError" "No space left on device")
  useNow := 0
  maxLifetimeInSeconds := 86400

/-- The storage raises, and the call still returns the reservation without an
error. -/
theorem refused_reported_as_success :
    ¬ ∀ (around : Surroundings Nat Nat) (agentSpec lifetimeInSeconds : Nat),
      NoFalseSuccess (Refused around idle agentSpec lifetimeInSeconds (some "copy") none none
          someUuid)
        (waitForOne around (some idle) agentSpec lifetimeInSeconds (some "copy") none none someUuid
          someUuid) := by
  intro h
  have hresult : waitForOne refusing (some idle) 1 60 (some "copy") none none someUuid someUuid =
      ⟨.returned (some copyReservation) none, []⟩ := by decide
  obtain ⟨r, -, hmem⟩ := (h refusing 1 60).success _ (congrArg WaitResult.outcome hresult)
  rw [hresult] at hmem
  exact absurd hmem List.not_mem_nil

end NoraFleet.Reservations
