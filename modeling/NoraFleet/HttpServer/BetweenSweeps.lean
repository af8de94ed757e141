import NoraFleet.Base.Merging
import NoraFleet.HttpServer.Redeployed

/-!
# Requests between two sweeps

A temporary network that has expired stays in the tables until a sweep takes it out. A
request is answered from the server's own table, where nobody looks at the clock; only
for a name that is not in it the storage is asked, which does.

* `getOneReservation_lastDeployed` — the base storage gives out what was deployed last;
* `served_of_not_allowed` — a network that had to be looked up has not expired;
* `servesUnexpired_iff` — the runs in which no expired network is served.
-/

namespace NoraFleet.HttpServer

open Base TempNetworks

/-- The server, its base storage, if it has one, and the reservation last deployed under
each name: last stored by `add_reservations` in the base storage or, without one, in the
tables. -/
structure Installation (Name Spec Network Time : Type*) where
  server : Server Name Network Time
  baseStorage : Option (Dict Name (Reservation Name Time × Spec))
  lastDeployed : Dict Name (Reservation Name Time)

/-- What happens, one after the other. A base storage may raise when it has stored some of
a batch; it may not answer, because it has expired what it holds or cannot be reached. -/
inductive Event (Name Spec Time : Type*) where
  | addReservations (reservationsDict : List (Reservation Name Time × Spec))
      (baseRaisesAfter : Option ℕ)
  | expireReservations
  | request (agentName : Name) (baseAnswers : Bool)

namespace Installation

variable {Name Spec Network Time : Type*} [DecidableEq Name]

/-- What was deployed before the server started is in its base storage. -/
def initial (maxItems : Int) (itemsOverflowThreshold : ℕ)
    (deployedBefore : Option (List (Reservation Name Time × Spec))) :
    Installation Name Spec Network Time where
  server := .initial maxItems itemsOverflowThreshold
  baseStorage := deployedBefore.map fun stored =>
    Dict.empty.update (stored.map fun entry => (entry.1.id, entry))
  lastDeployed := Dict.empty.update
    ((deployedBefore.getD []).map fun entry => (entry.1.id, entry.1))

/-- `get_one_reservation(agent_name)` of the base storage. -/
def getOneReservation (kind : NetworkKind Name Spec Network) (agentName : Name)
    (baseAnswers : Bool) (s : Installation Name Spec Network Time) :
    Option (Reservation Name Time × Network) :=
  match s.baseStorage with
  | none => none
  | some base =>
      if baseAnswers = false then none
      else
        match base.get? agentName with
        | none => none
        | some (reservation, agentSpec) =>
            (kind.agentNetwork agentSpec agentName).map fun agentNetwork =>
              (reservation, agentNetwork)

variable [LinearOrder Time]

/-- `add_reservations(reservations_dict)`. -/
def addReservations (kind : NetworkKind Name Spec Network) (clock : Clock Name Time)
    (reservationsDict : List (Reservation Name Time × Spec)) (baseRaisesAfter : Option ℕ)
    (s : Installation Name Spec Network Time) : Installation Name Spec Network Time :=
  match s.baseStorage with
  | none =>
      let stored := reservationsDict.takeWhile fun entry =>
        (kind.agentNetwork entry.2 entry.1.id).isSome
      { s with
        server := s.server.addReservations kind clock reservationsDict false
        lastDeployed := s.lastDeployed.update (stored.map fun entry => (entry.1.id, entry.1)) }
  | some base =>
      let stored :=
        match baseRaisesAfter with
        | none => reservationsDict
        | some count => reservationsDict.take count
      { server := s.server.addReservations kind clock reservationsDict baseRaisesAfter.isSome
        baseStorage := some (base.update (stored.map fun entry => (entry.1.id, entry)))
        lastDeployed := s.lastDeployed.update (stored.map fun entry => (entry.1.id, entry.1)) }

/-- `get_service(agent_name, metadata)` of an authorized request: the service it returns. -/
def getService (kind : NetworkKind Name Spec Network) (isReservationName : Name → Bool)
    (clock : Clock Name Time) (agentName : Name) (baseAnswers : Bool)
    (s : Installation Name Spec Network Time) : Option (AgentService Name Network) :=
  match s.server.allowedAgents.get? agentName with
  | some provider => some provider.getService.1
  | none =>
      if isReservationName agentName then
        match s.server.getAgentNetworkProvider kind clock agentName
          (s.getOneReservation kind agentName baseAnswers) with
        | (_, none) => none
        | (server, some _) =>
            (server.allowedAgents.get? agentName).map fun provider => provider.getService.1
      else none

/-- One event. -/
def exec (kind : NetworkKind Name Spec Network) (isReservationName : Name → Bool) :
    Clock Name Time × Event Name Spec Time → Installation Name Spec Network Time →
      Installation Name Spec Network Time
  | (clock, .addReservations reservationsDict baseRaisesAfter), s =>
      s.addReservations kind clock reservationsDict baseRaisesAfter
  | (clock, .expireReservations), s =>
      { s with server := s.server.expireReservations clock.now }
  | (clock, .request agentName baseAnswers), s =>
      { s with server := s.server.getService kind isReservationName clock agentName true
                (s.getOneReservation kind agentName baseAnswers) }

/-- The reservation last deployed under a name, if there is one, has not expired. -/
def Unexpired (now : Time) (agentName : Name) (s : Installation Name Spec Network Time) : Prop :=
  ∀ reservation, s.lastDeployed.get? agentName = some reservation →
    Storage.isExpired now reservation = false

/-- A request returns a service only when what was last deployed has not expired. -/
def ServesUnexpired (kind : NetworkKind Name Spec Network) (isReservationName : Name → Bool) :
    Clock Name Time × Event Name Spec Time → Installation Name Spec Network Time → Prop
  | (clock, .request agentName baseAnswers), s =>
      (s.getService kind isReservationName clock agentName baseAnswers).isSome →
        s.Unexpired clock.now agentName
  | _, _ => True

/-- No request is for a name that is in the server's table although what was last deployed
under it has expired. -/
def SweptBefore :
    Clock Name Time × Event Name Spec Time → Installation Name Spec Network Time → Prop
  | (clock, .request agentName _), s =>
      agentName ∈ s.server.allowedAgents → s.Unexpired clock.now agentName
  | _, _ => True

/-! ## What the base storage holds -/

/-- The base storage holds what was deployed last. -/
def HoldsLastDeployed (s : Installation Name Spec Network Time) : Prop :=
  ∀ base, s.baseStorage = some base → ∀ agentName,
    s.lastDeployed.get? agentName = (base.get? agentName).map Prod.fst

omit [LinearOrder Time] in
theorem holdsLastDeployed_initial (maxItems : Int) (itemsOverflowThreshold : ℕ)
    (deployedBefore : Option (List (Reservation Name Time × Spec))) :
    (initial maxItems itemsOverflowThreshold deployedBefore :
      Installation Name Spec Network Time).HoldsLastDeployed := by
  intro base hbase agentName
  cases deployedBefore with
  | none => cases hbase
  | some stored =>
      obtain rfl := Option.some.inj hbase
      have hempty : ∀ k, (Dict.empty : Dict Name (Reservation Name Time)).get? k =
          ((Dict.empty : Dict Name (Reservation Name Time × Spec)).get? k).map Prod.fst :=
        fun _ => rfl
      exact Dict.get?_update_map hempty (fun entry => entry.1.id) (fun entry => entry) stored
        agentName

/-- Every event keeps it: both are written together. -/
theorem HoldsLastDeployed.exec {kind : NetworkKind Name Spec Network}
    {isReservationName : Name → Bool} (op : Clock Name Time × Event Name Spec Time)
    (s : Installation Name Spec Network Time) (h : s.HoldsLastDeployed) :
    (Installation.exec kind isReservationName op s).HoldsLastDeployed := by
  obtain ⟨clock, event⟩ := op
  cases event with
  | expireReservations => exact h
  | request agentName baseAnswers => exact h
  | addReservations reservationsDict baseRaisesAfter =>
      intro after hafter agentName
      cases hbase : s.baseStorage with
      | none =>
          simp only [Installation.exec, addReservations, hbase] at hafter
          cases hafter
      | some base =>
          simp only [Installation.exec, addReservations, hbase] at hafter ⊢
          obtain rfl := Option.some.inj hafter
          exact Dict.get?_update_map (h base hbase) (fun entry => entry.1.id)
            (fun entry => entry) _ agentName

omit [LinearOrder Time] in
/-- What the base storage gives out is what was deployed last. -/
theorem getOneReservation_lastDeployed {kind : NetworkKind Name Spec Network}
    {s : Installation Name Spec Network Time} (h : s.HoldsLastDeployed) {agentName : Name}
    {baseAnswers : Bool} {reservation : Reservation Name Time} {agentNetwork : Network}
    (hfound : s.getOneReservation kind agentName baseAnswers = some (reservation, agentNetwork)) :
    s.lastDeployed.get? agentName = some reservation := by
  unfold getOneReservation at hfound
  split at hfound
  · cases hfound
  · rename_i base hbase
    split at hfound
    · cases hfound
    · split at hfound
      · cases hfound
      · rename_i held agentSpec hget
        obtain ⟨built, -, heq⟩ := Option.map_eq_some_iff.mp hfound
        obtain ⟨rfl, rfl⟩ := Prod.mk.inj heq
        rw [h base hbase agentName, hget]
        rfl

/-! ## Requests -/

/-- A network that is not in the server's table is looked up, and served only when it is
found in the base storage and has not expired. -/
theorem served_of_not_allowed {kind : NetworkKind Name Spec Network}
    {isReservationName : Name → Bool} {clock : Clock Name Time} {agentName : Name}
    {baseAnswers : Bool} {s : Installation Name Spec Network Time}
    (hallowed : s.server.allowedAgents.get? agentName = none)
    (hserved : (s.getService kind isReservationName clock agentName baseAnswers).isSome) :
    ∃ reservation agentNetwork,
      s.getOneReservation kind agentName baseAnswers = some (reservation, agentNetwork) ∧
        Storage.isExpired clock.now reservation = false := by
  unfold getService at hserved
  simp only [hallowed] at hserved
  split at hserved
  · unfold Server.getAgentNetworkProvider at hserved
    cases hreserved : s.server.storage.reservationsTable.get? agentName with
    | some reservation =>
        -- the storage has it, but asking for it gives the server no provider
        simp only [hreserved] at hserved
        obtain ⟨-, hself⟩ := Server.provideReserved_spec clock.now agentName reservation s.server
        have hgone : (s.server.provideReserved clock.now agentName reservation).1.allowedAgents.get?
            agentName = none := by
          rcases hself with ⟨-, hgone⟩ | ⟨-, hsame, -⟩
          · exact hgone
          · rw [hsame]
            exact hallowed
        split at hserved
        · cases hserved
        · rename_i heq
          rw [heq] at hgone
          rw [hgone] at hserved
          cases hserved
    | none =>
        simp only [hreserved] at hserved
        cases hfound : s.getOneReservation kind agentName baseAnswers with
        | none =>
            simp only [hfound] at hserved
            cases hserved
        | some found =>
            obtain ⟨reservation, agentNetwork⟩ := found
            refine ⟨reservation, agentNetwork, rfl, ?_⟩
            cases hexpired : Storage.isExpired clock.now reservation with
            | false => rfl
            | true =>
                simp only [hfound, hexpired, if_true] at hserved
                cases hserved
  · cases hserved

/-- One request, in a state where the base storage holds what was deployed last. -/
theorem HoldsLastDeployed.unexpired_iff_swept {s : Installation Name Spec Network Time}
    (h : s.HoldsLastDeployed) (kind : NetworkKind Name Spec Network)
    (isReservationName : Name → Bool) (op : Clock Name Time × Event Name Spec Time) :
    ServesUnexpired kind isReservationName op s ↔ SweptBefore op s := by
  obtain ⟨clock, event⟩ := op
  cases event with
  | addReservations => exact Iff.rfl
  | expireReservations => exact Iff.rfl
  | request agentName baseAnswers =>
      show (_ → _) ↔ (_ → _)
      cases hallowed : s.server.allowedAgents.get? agentName with
      | some provider =>
          have hserved : s.getService kind isReservationName clock agentName baseAnswers =
              some provider.getService.1 := by
            simp only [getService, hallowed]
          rw [hserved]
          have hmem : agentName ∈ s.server.allowedAgents := Dict.mem_of_get?_eq_some hallowed
          exact ⟨fun hunexpired _ => hunexpired rfl, fun hswept _ => hswept hmem⟩
      | none =>
          constructor
          · intro _ hmem
            obtain ⟨provider, hprovider⟩ := Dict.exists_get?_of_mem hmem
            rw [hallowed] at hprovider
            cases hprovider
          · intro _ hserved reservation hlast
            obtain ⟨found, agentNetwork, hfound, hunexpired⟩ :=
              served_of_not_allowed hallowed hserved
            rw [getOneReservation_lastDeployed h hfound] at hlast
            obtain rfl := Option.some.inj hlast
            exact hunexpired

/-! ## Runs -/

/-- A run serves no expired network exactly when none of its requests comes between the
time a network expired and the time its name goes from the server's table. -/
theorem servesUnexpired_iff (kind : NetworkKind Name Spec Network)
    (isReservationName : Name → Bool) (maxItems : Int) (itemsOverflowThreshold : ℕ)
    (deployedBefore : Option (List (Reservation Name Time × Spec)))
    (ops : List (Clock Name Time × Event Name Spec Time)) :
    Runs.AllOk (exec kind isReservationName) (ServesUnexpired kind isReservationName)
        (initial maxItems itemsOverflowThreshold deployedBefore) ops ↔
      Runs.AllOk (exec kind isReservationName) SweptBefore
        (initial maxItems itemsOverflowThreshold deployedBefore) ops :=
  Runs.allOk_congr (holdsLastDeployed_initial maxItems itemsOverflowThreshold deployedBefore)
    (fun op s h _ => h.exec op s)
    (fun op _ h => h.unexpired_iff_swept kind isReservationName op) ops

/-- A network for a hundred seconds is asked for when they are over. -/
def lateRequest : List (Clock String ℕ × Event String ℕ ℕ) :=
  [(⟨0, fun _ => 0⟩, .addReservations [(⟨"hello", 100, 100⟩, 1)] none),
    (⟨150, fun _ => 150⟩, .request "hello" true)]

/-- It is served, though the clock never goes back. -/
theorem lateRequest_served :
    ¬ ∀ (deployedBefore : Option (List (TempNetworks.Reservation String ℕ × ℕ)))
      (ops : List (Clock String ℕ × Event String ℕ ℕ)),
      (ops.map fun op => op.1.now).Pairwise (· ≤ ·) →
        Runs.AllOk (exec Server.numbered fun _ => true)
          (ServesUnexpired Server.numbered fun _ => true) (initial 0 0 deployedBefore) ops := by
  intro h
  have hok := h none lateRequest (by decide)
  exact absurd (hok.2.1 rfl ⟨"hello", 100, 100⟩ rfl) (by decide)

end Installation

end NoraFleet.HttpServer
