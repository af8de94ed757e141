import NoraFleet.HttpServer.Deployments

/-!
# Deploying a network again

A service provider holds the network that the storage gave out when the server
was told of the agent. When a network is deployed again the server resets the
service, but not the provider, so the next service serves the old network once
more.

* `provideReserved_spec` — what asking for a reserved network does to the two
  tables;
* `ServesTable.addReservations` and its like — what each operation keeps;
* `serves_current_network` — in every run whose deployments store networks only
  under names that are not served, what is served is what is in the table;
* `redeployed_network_not_served` — a run that deploys a served name again.
-/

namespace NoraFleet.HttpServer

open Base TempNetworks

variable {Name Spec Network Time : Type*}

/-- The provider and its service, if it has one, hold a network. -/
structure Holds (provider : ServiceProvider Name Network) (agentNetwork : Network) : Prop where
  held : provider.agentNetworkProvider = .fixed agentNetwork
  served : ∀ service, provider.serviceInstance = some service →
    service.agentNetworkProvider = .fixed agentNetwork

theorem Holds.getService {provider : ServiceProvider Name Network} {agentNetwork : Network}
    (h : Holds provider agentNetwork) :
    provider.getService.1.agentNetworkProvider = .fixed agentNetwork ∧
      Holds provider.getService.2 agentNetwork := by
  unfold ServiceProvider.getService
  split
  · rename_i service hservice
    exact ⟨h.served service hservice, h⟩
  · refine ⟨h.held, h.held, fun service heq => ?_⟩
    obtain rfl := Option.some.inj heq
    exact h.held

theorem Holds.resetService {provider : ServiceProvider Name Network} {agentNetwork : Network}
    (h : Holds provider agentNetwork) : Holds provider.resetService agentNetwork :=
  ⟨h.held, fun _ heq => (nomatch heq)⟩

namespace Server

variable [DecidableEq Name]

/-- A name that is served is served with the network that the table has. -/
def ServesTableAt (s : Server Name Network Time) (agentName : Name) : Prop :=
  ∀ provider, s.allowedAgents.get? agentName = some provider →
    ∃ agentNetwork, s.storage.agentsTable.get? agentName = some agentNetwork ∧
      Holds provider agentNetwork

/-- The same for every name. -/
def ServesTable (s : Server Name Network Time) : Prop := ∀ agentName, s.ServesTableAt agentName

theorem ServesTableAt.congr {s s' : Server Name Network Time} {agentName : Name}
    (h : s.ServesTableAt agentName)
    (hallowed : s'.allowedAgents.get? agentName = s.allowedAgents.get? agentName)
    (htable : s'.storage.agentsTable.get? agentName = s.storage.agentsTable.get? agentName) :
    s'.ServesTableAt agentName := by
  unfold ServesTableAt
  rw [hallowed, htable]
  exact h

theorem ServesTableAt.of_not_served {s : Server Name Network Time} {agentName : Name}
    (h : s.allowedAgents.get? agentName = none) : s.ServesTableAt agentName := by
  intro provider hprovider
  rw [h] at hprovider
  cases hprovider

/-! ## The steps of the operations -/

/-- Names that go from both tables. -/
theorem ServesTable.popAll {s s' : Server Name Network Time} (h : s.ServesTable)
    {names : List Name} (hallowed : s'.allowedAgents = s.allowedAgents.popAll names)
    (htable : s'.storage.agentsTable = s.storage.agentsTable.popAll names) : s'.ServesTable := by
  intro agentName
  by_cases hmem : agentName ∈ names
  · refine .of_not_served ?_
    rw [hallowed, Dict.get?_popAll, if_pos hmem]
  · refine (h agentName).congr ?_ ?_
    · rw [hallowed, Dict.get?_popAll, if_neg hmem]
    · rw [htable, Dict.get?_popAll, if_neg hmem]

variable [LinearOrder Time]

theorem ServesTable.evict {s : Server Name Network Time} (h : s.ServesTable) :
    s.evictLruAgentNetworks.ServesTable := by
  unfold evictLruAgentNetworks
  split
  · exact h
  · refine h.popAll rfl ?_
    show (s.storage.removeAll s.storage.lruOverflow).agentsTable = _
    rw [Storage.removeAll_eq]

theorem ServesTable.expire {s : Server Name Network Time} (h : s.ServesTable) (now : Time) :
    (s.expireReservations now).ServesTable := by
  refine h.popAll rfl ?_
  show (s.storage.removeAll _).agentsTable = _
  rw [Storage.removeAll_eq]

/-- Asking for a reserved network touches no other name; the name itself goes
from both tables, or stays as it is. -/
theorem provideReserved_spec (now : Time) (agentName : Name)
    (reservation : Reservation Name Time) (s : Server Name Network Time) :
    (∀ other, other ≠ agentName →
      (s.provideReserved now agentName reservation).1.allowedAgents.get? other =
        s.allowedAgents.get? other ∧
      (s.provideReserved now agentName reservation).1.storage.agentsTable.get? other =
        s.storage.agentsTable.get? other) ∧
    ((s.provideReserved now agentName reservation).2 = none ∧
      (s.provideReserved now agentName reservation).1.allowedAgents.get? agentName = none ∨
      (s.provideReserved now agentName reservation).2 = s.storage.agentsTable.get? agentName ∧
      (s.provideReserved now agentName reservation).1.allowedAgents = s.allowedAgents ∧
      (s.provideReserved now agentName reservation).1.storage.agentsTable =
        s.storage.agentsTable) := by
  unfold provideReserved
  split
  · refine ⟨fun other hne => ⟨?_, ?_⟩, .inl ⟨rfl, ?_⟩⟩
    · show (s.allowedAgents.pop agentName).get? other = _
      rw [Dict.get?_pop, if_neg hne]
    · show (s.storage.agentsTable.pop agentName).get? other = _
      rw [Dict.get?_pop, if_neg hne]
    · show (s.allowedAgents.pop agentName).get? agentName = none
      rw [Dict.get?_pop, if_pos rfl]
  · split
    · rename_i hnone
      exact ⟨fun _ _ => ⟨rfl, rfl⟩, .inr ⟨hnone.symm, rfl, rfl⟩⟩
    · rename_i hsome
      exact ⟨fun _ _ => ⟨rfl, rfl⟩, .inr ⟨hsome.symm, rfl, rfl⟩⟩

theorem ServesTable.provideReserved {s : Server Name Network Time} (h : s.ServesTable)
    (now : Time) (agentName : Name) (reservation : Reservation Name Time) :
    (s.provideReserved now agentName reservation).1.ServesTable := by
  obtain ⟨hother, hself⟩ := provideReserved_spec now agentName reservation s
  intro name
  by_cases hname : name = agentName
  · subst hname
    rcases hself with ⟨-, hgone⟩ | ⟨-, hallowed, htable⟩
    · exact .of_not_served hgone
    · exact (h name).congr (by rw [hallowed]) (by rw [htable])
  · exact (h name).congr (hother name hname).1 (hother name hname).2

/-- When the server is told that an agent was added, the name is served with what
the table has, if the table has it with its reservation. -/
theorem servesTable_agentAdded {s : Server Name Network Time} {agentName : Name}
    (hothers : ∀ other, other ≠ agentName → s.ServesTableAt other)
    (hself : s.ServesTableAt agentName ∨
      (∃ reservation, s.storage.reservationsTable.get? agentName = some reservation) ∧
        ∃ agentNetwork, s.storage.agentsTable.get? agentName = some agentNetwork)
    (clock : Clock Name Time) : (s.agentAdded clock agentName).ServesTable := by
  unfold agentAdded
  cases hreserved : s.storage.reservationsTable.get? agentName with
  | none =>
      have hself : s.ServesTableAt agentName := by
        rcases hself with hself | ⟨⟨reservation, hsome⟩, -⟩
        · exact hself
        · rw [hreserved] at hsome
          cases hsome
      intro name
      by_cases hname : name = agentName
      · exact hname ▸ hself
      · exact hothers name hname
  | some reservation =>
      obtain ⟨hother, hasked⟩ :=
        provideReserved_spec (clock.askedBack agentName) agentName reservation s
      dsimp only
      intro name
      by_cases hname : name = agentName
      · subst hname
        -- the table is asked once more, and may have lost the name meanwhile
        rcases hasked with ⟨hnone, hgone⟩ | ⟨hfound, hallowed, htable⟩
        · refine .of_not_served ?_
          rw [hnone]
          exact hgone
        · rw [hfound]
          cases hnetwork : s.storage.agentsTable.get? name with
          | none =>
              have hself : s.ServesTableAt name := by
                rcases hself with hself | ⟨-, ⟨agentNetwork, hsome⟩⟩
                · exact hself
                · rw [hnetwork] at hsome
                  cases hsome
              exact hself.congr (congrArg (fun d => d.get? name) hallowed)
                (congrArg (fun d => d.get? name) htable)
          | some agentNetwork =>
              intro provider hprovider
              change (Dict.set _ name _).get? name = some provider at hprovider
              rw [Dict.get?_set, if_pos rfl] at hprovider
              obtain rfl := Option.some.inj hprovider
              refine ⟨agentNetwork, ?_, rfl, fun _ heq => (nomatch heq)⟩
              show Dict.get? (s.provideReserved _ name reservation).1.storage.agentsTable name = _
              rw [htable, hnetwork]
      · refine (hothers name hname).congr ?_ (hother name hname).2
        rw [← (hother name hname).1]
        cases (s.provideReserved (clock.askedBack agentName) agentName reservation).2 with
        | none => rfl
        | some agentNetwork =>
            show (Dict.set _ agentName _).get? name = _
            rw [Dict.get?_set, if_neg hname]

omit [LinearOrder Time] in
theorem ServesTable.agentModified {s : Server Name Network Time} (h : s.ServesTable)
    (agentName : Name) : (s.agentModified agentName).ServesTable := by
  intro name provider hprovider
  change (AllowedAgents.agentModified agentName s.allowedAgents).get? name = some provider
    at hprovider
  unfold AllowedAgents.agentModified at hprovider
  split at hprovider
  · exact h name provider hprovider
  · rename_i before hbefore
    rw [Dict.get?_set] at hprovider
    split at hprovider
    · rename_i hname
      subst hname
      obtain rfl := Option.some.inj hprovider
      obtain ⟨agentNetwork, hnetwork, hholds⟩ := h name before hbefore
      exact ⟨agentNetwork, hnetwork, hholds.resetService⟩
    · exact h name provider hprovider

omit [LinearOrder Time] in
/-- A service may be created whenever it is asked for. -/
theorem ServesTable.getService {s s' : Server Name Network Time} (h : s.ServesTable)
    {agentName : Name} {provider : ServiceProvider Name Network}
    (hprovider : s.allowedAgents.get? agentName = some provider)
    (hallowed : s'.allowedAgents = s.allowedAgents.set agentName provider.getService.2)
    (htable : s'.storage = s.storage) : s'.ServesTable := by
  intro name served hserved
  rw [hallowed, Dict.get?_set] at hserved
  rw [htable]
  split at hserved
  · rename_i hname
    subst hname
    obtain rfl := Option.some.inj hserved
    obtain ⟨agentNetwork, hnetwork, hholds⟩ := h name provider hprovider
    exact ⟨agentNetwork, hnetwork, hholds.getService.2⟩
  · exact h name served hserved

/-! ## Deployments -/

omit [LinearOrder Time] in
/-- The loop of `add_reservations` leaves the names alone that it does not
store. -/
theorem get?_agentsTable_addLoop (kind : NetworkKind Name Spec Network) (now : Time)
    (batch : List (Reservation Name Time × Spec)) (storage : Storage Name Network Time)
    (added replaced : List Name) {name : Name} (hname : name ∉ storedNames kind batch) :
    (Storage.addLoop kind now batch storage added replaced).storage.agentsTable.get? name =
      storage.agentsTable.get? name := by
  induction batch generalizing storage added replaced with
  | nil => rfl
  | cons entry rest ih =>
      obtain ⟨reservation, agentSpec⟩ := entry
      cases hnetwork : kind.agentNetwork agentSpec reservation.id with
      | none => rw [Storage.addLoop_raise kind now hnetwork]
      | some agentNetwork =>
          rw [storedNames_store hnetwork, List.mem_cons, not_or] at hname
          rw [Storage.addLoop_store kind now hnetwork, ih _ _ _ hname.2]
          show (storage.agentsTable.set reservation.id agentNetwork).get? name = _
          rw [Dict.get?_set, if_neg hname.1]

theorem ServesTable.addReservations {s : Server Name Network Time} (h : s.ServesTable)
    (kind : NetworkKind Name Spec Network) (clock : Clock Name Time)
    {batch : List (Reservation Name Time × Spec)}
    (hbatch : ∀ name ∈ storedNames kind batch, name ∉ s.allowedAgents) (baseRaises : Bool) :
    (s.addReservations kind clock batch baseRaises).ServesTable := by
  have hadded : ∀ (names : List Name) (s : Server Name Network Time), s.ServesTable →
      (names.foldl (agentAdded clock) s).ServesTable := by
    intro names
    induction names with
    | nil => exact fun _ h => h
    | cons name rest ih =>
        intro s h
        exact ih _ (servesTable_agentAdded (fun other _ => h other) (.inl (h name)) clock)
  have hmodified : ∀ (names : List Name) (s : Server Name Network Time), s.ServesTable →
      (names.foldl Server.agentModified s).ServesTable := by
    intro names
    induction names with
    | nil => exact fun _ h => h
    | cons name rest ih => exact fun s h => ih _ (h.agentModified name)
  unfold Server.addReservations
  split
  · exact h
  · -- what is stored is not served, so nothing that is served has changed
    have hstored : ∀ lastUsed : Dict Name Time, ({ s with
        storage := (s.storage.addReservationsLocked kind clock.now batch).storage
        lastUsed := lastUsed } : Server Name Network Time).ServesTable := by
      intro lastUsed name provider hprovider
      have hname : name ∉ storedNames kind batch := fun hmem =>
        hbatch name hmem (Dict.mem_of_get?_eq_some hprovider)
      have hkept : ({ s with
          storage := (s.storage.addReservationsLocked kind clock.now batch).storage
          lastUsed := lastUsed } : Server Name Network Time).ServesTableAt name :=
        (h name).congr rfl (get?_agentsTable_addLoop kind clock.now batch s.storage [] [] hname)
      exact hkept provider hprovider
    dsimp only
    split
    · exact hstored _
    · exact (hmodified _ _ (hadded _ _ (hstored _))).evict

theorem ServesTable.getAgentNetworkProvider {s : Server Name Network Time} (h : s.ServesTable)
    (kind : NetworkKind Name Spec Network) (clock : Clock Name Time) (agentName : Name)
    (found : Option (Reservation Name Time × Network)) :
    (s.getAgentNetworkProvider kind clock agentName found).1.ServesTable := by
  unfold Server.getAgentNetworkProvider
  split
  · exact h.provideReserved clock.now agentName _
  · split
    · exact h
    · split
      · exact h
      · refine (servesTable_agentAdded (fun other hne => ?_) (.inr ⟨?_, ?_⟩) clock).evict
        · refine (h other).congr rfl ?_
          show (s.storage.agentsTable.set agentName _).get? other = _
          rw [Dict.get?_set, if_neg hne]
        · rename_i reservation agentNetwork _
          refine ⟨reservation, ?_⟩
          show (s.storage.reservationsTable.set agentName reservation).get? agentName = _
          rw [Dict.get?_set, if_pos rfl]
        · rename_i reservation agentNetwork _
          refine ⟨agentNetwork, ?_⟩
          show (s.storage.agentsTable.set agentName agentNetwork).get? agentName = _
          rw [Dict.get?_set, if_pos rfl]

theorem ServesTable.getServiceRequest {s : Server Name Network Time} (h : s.ServesTable)
    (kind : NetworkKind Name Spec Network) (isReservationName : Name → Bool)
    (clock : Clock Name Time) (agentName : Name) (isAuthorized : Bool)
    (found : Option (Reservation Name Time × Network)) :
    (s.getService kind isReservationName clock agentName isAuthorized found).ServesTable := by
  unfold Server.getService
  split
  · exact h
  · split
    · rename_i provider hprovider
      exact h.getService hprovider rfl rfl
    · split
      · have hasked := h.getAgentNetworkProvider kind clock agentName found
        split
        · rename_i heq
          rw [heq] at hasked
          exact hasked
        · rename_i heq
          rw [heq] at hasked
          split
          · exact hasked
          · rename_i provider hprovider
            exact hasked.getService hprovider rfl rfl
      · exact h

/-! ## Runs -/

/-- A deployment stores networks only under names that are not served. -/
def DeploysUnserved (kind : NetworkKind Name Spec Network) :
    Clock Name Time × Operation Name Spec Network Time → Server Name Network Time → Prop
  | (_, .addReservations reservationsDict _), s =>
      ∀ name ∈ storedNames kind reservationsDict, name ∉ s.allowedAgents
  | _, _ => True

instance (kind : NetworkKind Name Spec Network) (s : Server Name Network Time) :
    (op : Clock Name Time × Operation Name Spec Network Time) →
      Decidable (DeploysUnserved kind op s)
  | (_, .addReservations reservationsDict _) =>
      inferInstanceAs (Decidable (∀ name ∈ storedNames kind reservationsDict,
        name ∉ s.allowedAgents))
  | (_, .expireReservations) | (_, .getAgentNetworkProvider ..) | (_, .getService ..) =>
      isTrue trivial

/-- One operation that meets the condition keeps what is served up to date. -/
theorem ServesTable.exec {kind : NetworkKind Name Spec Network} {isReservationName : Name → Bool}
    (op : Clock Name Time × Operation Name Spec Network Time) (s : Server Name Network Time)
    (h : s.ServesTable) (hok : DeploysUnserved kind op s) :
    (Server.exec kind isReservationName op s).ServesTable := by
  obtain ⟨clock, operation⟩ := op
  cases operation with
  | addReservations reservationsDict baseRaises =>
      exact h.addReservations kind clock hok baseRaises
  | expireReservations => exact h.expire clock.now
  | getAgentNetworkProvider agentName found =>
      exact h.getAgentNetworkProvider kind clock agentName found
  | getService agentName isAuthorized found =>
      exact h.getServiceRequest kind isReservationName clock agentName isAuthorized found

/-- Whenever the server has a provider for a name that is in the table, its
service serves the network that is there now. -/
def ServesCurrent (s : Server Name Network Time) : Prop :=
  ∀ agentName provider agentNetwork, s.allowedAgents.get? agentName = some provider →
    s.storage.agentsTable.get? agentName = some agentNetwork →
    provider.getService.1.getAgentNetwork (fun _ => s.storage.agentsTable) = some agentNetwork

omit [LinearOrder Time] in
theorem ServesTable.servesCurrent {s : Server Name Network Time} (h : s.ServesTable) :
    s.ServesCurrent := by
  intro agentName provider agentNetwork hprovider hnetwork
  obtain ⟨held, hheld, hholds⟩ := h agentName provider hprovider
  rw [hnetwork] at hheld
  obtain rfl := Option.some.inj hheld
  unfold AgentService.getAgentNetwork
  rw [hholds.getService.1]
  rfl

/-- In every run whose deployments store networks only under names that are not
served, the network that is served under a name is the one in the table. -/
theorem serves_current_network {kind : NetworkKind Name Spec Network}
    {isReservationName : Name → Bool} {maxItems : Int} {itemsOverflowThreshold : Nat}
    {s : Server Name Network Time}
    (hr : Runs (Server.exec kind isReservationName) (DeploysUnserved kind)
      (initial maxItems itemsOverflowThreshold) s) : s.ServesCurrent := by
  have hinit : (initial maxItems itemsOverflowThreshold : Server Name Network Time).ServesTable :=
    fun _ => .of_not_served rfl
  exact (hr.invariant hinit fun op s h hok => h.exec op s hok).servesCurrent

/-- A server with two deployments, of different names. -/
theorem serves_current_network_two_deployed :
    (served 0 0 [deploy "hello" 1 1, deploy "world" 2 2]).ServesCurrent :=
  serves_current_network (Runs.of_ops .init (by decide))

/-- After the second deployment of a name its first network is served. -/
theorem redeployed_network_not_served :
    ¬ ∀ s : Server String ℕ ℕ,
      Runs (Server.exec numbered fun _ => true) Runs.anyOp (initial 0 0) s → s.ServesCurrent := by
  intro h
  have hcurrent := h (served 0 0 [deploy "hello" 1 1, deploy "hello" 2 2])
    (Runs.of_ops .init (by decide))
  have hserved := hcurrent "hello" ⟨"hello", .fixed 1, none⟩ 2 (by decide) (by decide)
  exact absurd hserved (by decide)

end Server

end NoraFleet.HttpServer
