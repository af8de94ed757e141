import Mathlib.Data.List.Sort
import NoraFleet.Base.Dict
import NoraFleet.Base.Double

/-!
# The tables of the temporary-network storage

`ExpiringAgentNetworkStorage` keeps four tables by agent name: the networks,
their reservations, the latest access times and the sizes in bytes. This
module has the tables and what each `with self.lock` block does to them, as a
function of the tables alone. The calls that run these blocks, with their
unlocked reads and their notifications in between, are in `Calls`.

Names, specs, networks and times are parameters: the storage only compares
names and times, and only asks a network for its size.
-/

namespace NoraFleet.TempNetworks

open Base

/-- A reservation: an id procured for a specific amount of time. -/
structure Reservation (Name Time : Type*) where
  id : Name
  lifetimeInSeconds : Time
  expirationTimeInSeconds : Time
  deriving DecidableEq

/-- What the storage needs of networks: `AgentNetwork(agent_spec, agent_name)`,
with `none` when the constructor raises, and `get_size_in_bytes()`. -/
structure NetworkKind (Name Spec Network : Type*) where
  agentNetwork : Spec → Name → Option Network
  getSizeInBytes : Network → Nat

/-- The attributes of `ExpiringAgentNetworkStorage` that change. -/
structure Storage (Name Network Time : Type*) where
  agentsTable : Dict Name Network
  reservationsTable : Dict Name (Reservation Name Time)
  accessTimes : Dict Name Time
  sizes : Dict Name Nat
  maxItems : Int
  itemsOverflowThreshold : Nat

namespace Storage

variable {Name Spec Network Time : Type*} [DecidableEq Name]

instance [DecidableEq Network] [DecidableEq Time] : DecidableEq (Storage Name Network Time) :=
  fun s t => decidable_of_iff
    (s.agentsTable = t.agentsTable ∧ s.reservationsTable = t.reservationsTable ∧
      s.accessTimes = t.accessTimes ∧ s.sizes = t.sizes ∧ s.maxItems = t.maxItems ∧
      s.itemsOverflowThreshold = t.itemsOverflowThreshold)
    (by cases s; cases t; simp)

/-- The storage as constructed: nothing stored, no limit. -/
def empty : Storage Name Network Time where
  agentsTable := .empty
  reservationsTable := .empty
  accessTimes := .empty
  sizes := .empty
  maxItems := 0
  itemsOverflowThreshold := 0

/-- `is_expired(reservation)`, at the time `time.time()` gives. -/
def isExpired [LinearOrder Time] (now : Time) (reservation : Reservation Name Time) : Bool :=
  decide (now > reservation.expirationTimeInSeconds)

/-- The four assignments that store a network with its reservation. -/
def store (s : Storage Name Network Time) (agentName : Name)
    (reservation : Reservation Name Time) (agentNetwork : Network)
    (agentSizeInBytes : Nat) (now : Time) : Storage Name Network Time :=
  { s with
    agentsTable := s.agentsTable.set agentName agentNetwork
    reservationsTable := s.reservationsTable.set agentName reservation
    accessTimes := s.accessTimes.set agentName now
    sizes := s.sizes.set agentName agentSizeInBytes }

/-- `self.access_times[agent_name] = time.time()`, alone in its locked block. -/
def touch (s : Storage Name Network Time) (agentName : Name) (now : Time) :
    Storage Name Network Time :=
  { s with accessTimes := s.accessTimes.set agentName now }

/-- `remove_agent_network(agent_name)`. -/
def removeAgentNetwork (s : Storage Name Network Time) (agentName : Name) :
    Storage Name Network Time :=
  { s with
    reservationsTable := s.reservationsTable.pop agentName
    agentsTable := s.agentsTable.pop agentName
    accessTimes := s.accessTimes.pop agentName
    sizes := s.sizes.pop agentName }

/-- `remove_agent_network` over a list of names. -/
def removeAll (s : Storage Name Network Time) (names : List Name) :
    Storage Name Network Time :=
  names.foldl removeAgentNetwork s

/-- Where the locked block of `add_reservations` ends: the tables, the names
that were new and those that were not, and whether a constructor raised. -/
structure AddResult (Name Network Time : Type*) where
  storage : Storage Name Network Time
  added : List Name
  replaced : List Name
  raised : Bool

/-- The locked loop of `add_reservations`. A raising `AgentNetwork(...)` leaves
the loop with the entries before it stored. -/
def addLoop (kind : NetworkKind Name Spec Network) (now : Time) :
    List (Reservation Name Time × Spec) → Storage Name Network Time →
      List Name → List Name → AddResult Name Network Time
  | [], s, added, replaced => ⟨s, added, replaced, false⟩
  | (reservation, agentSpec) :: rest, s, added, replaced =>
      let agentName := reservation.id
      let isNew := (s.agentsTable.get? agentName).isNone
      match kind.agentNetwork agentSpec agentName with
      | none => ⟨s, added, replaced, true⟩
      | some agentNetwork =>
          let s' := s.store agentName reservation agentNetwork
            (kind.getSizeInBytes agentNetwork) now
          if isNew then addLoop kind now rest s' (added ++ [agentName]) replaced
          else addLoop kind now rest s' added (replaced ++ [agentName])

/-- The locked block of `add_reservations`. -/
def addReservationsLocked (kind : NetworkKind Name Spec Network) (now : Time)
    (reservationsDict : List (Reservation Name Time × Spec))
    (s : Storage Name Network Time) : AddResult Name Network Time :=
  addLoop kind now reservationsDict s [] []

/-- The names `evict_lru_agent_networks` evicts: the least recently accessed
ones that exceed the limit, as soon as they exceed it by more than the
threshold. `sorted` is stable, so equal access times keep the table's order. -/
def lruOverflow [LinearOrder Time] (s : Storage Name Network Time) : List Name :=
  let overflow : Int := s.agentsTable.length - s.maxItems
  if overflow ≤ s.itemsOverflowThreshold then []
  else
    let sortedAgents := s.accessTimes.items.insertionSort fun a b => a.2 ≤ b.2
    (sortedAgents.take overflow.toNat).map Prod.fst

/-- `max(1, round(max_items * 0.05))`; `none` is the `OverflowError` of a limit
no double can hold. -/
def overflowThreshold (maxItems : Int) : Option Nat :=
  match Double.ofInt maxItems with
  | none => none
  | some items => (items.mul (.ofRat (1 / 20))).toInt.map fun n => (max 1 n).toNat

example : overflowThreshold 100 = some 5 := by decide +kernel

example : overflowThreshold 5 = some 1 := by decide +kernel

/-! ## What the blocks do to the tables -/

/-- Removing names one by one pops them from every table. -/
theorem removeAll_eq (s : Storage Name Network Time) (names : List Name) :
    s.removeAll names =
      { s with
        reservationsTable := s.reservationsTable.popAll names
        agentsTable := s.agentsTable.popAll names
        accessTimes := s.accessTimes.popAll names
        sizes := s.sizes.popAll names } := by
  induction names generalizing s with
  | nil => rfl
  | cons name rest ih => exact ih (s.removeAgentNetwork name)

/-- A network that is evicted was not accessed later than one that stays. -/
theorem accessTimes_le_of_evicted [LinearOrder Time] {s : Storage Name Network Time}
    {evicted kept : Name} (hevicted : evicted ∈ s.lruOverflow) (hkept : kept ∉ s.lruOverflow)
    {time : Time} (htime : s.accessTimes.get? kept = some time) :
    ∃ earlier, s.accessTimes.get? evicted = some earlier ∧ earlier ≤ time := by
  unfold lruOverflow at hevicted hkept
  dsimp only at hevicted hkept
  split at hevicted
  · cases hevicted
  · rename_i hoverflow
    rw [if_neg hoverflow] at hkept
    generalize (s.agentsTable.length - s.maxItems : Int).toNat = count at hevicted hkept
    have hsorted := List.pairwise_insertionSort
      (fun a b : Name × Time => a.2 ≤ b.2) s.accessTimes.items
    have hmem : (kept, time) ∈ s.accessTimes.items.insertionSort fun a b => a.2 ≤ b.2 :=
      (List.mem_insertionSort _).mpr (Dict.get?_eq_some_iff.mp htime)
    rw [← List.take_append_drop count (s.accessTimes.items.insertionSort _)] at hsorted hmem
    obtain ⟨⟨name, earlier⟩, hearlier, rfl⟩ := List.mem_map.mp hevicted
    have hdrop := (List.mem_append.mp hmem).resolve_left fun htake =>
      hkept (List.mem_map.mpr ⟨(kept, time), htake, rfl⟩)
    refine ⟨earlier, Dict.get?_eq_some_iff.mpr ?_, ?_⟩
    · exact (List.mem_insertionSort _).mp (List.mem_of_mem_take hearlier)
    · exact (List.pairwise_append.mp hsorted).2.2 _ hearlier _ hdrop

section AddLoop

variable (kind : NetworkKind Name Spec Network) (now : Time)

/-- The loop past an entry whose `AgentNetwork(...)` raises. -/
theorem addLoop_raise {reservation : Reservation Name Time} {agentSpec : Spec}
    (h : kind.agentNetwork agentSpec reservation.id = none)
    (rest : List (Reservation Name Time × Spec)) (s : Storage Name Network Time)
    (added replaced : List Name) :
    addLoop kind now ((reservation, agentSpec) :: rest) s added replaced =
      ⟨s, added, replaced, true⟩ := by
  simp only [addLoop, h]

/-- The loop past an entry that is stored. -/
theorem addLoop_store {reservation : Reservation Name Time} {agentSpec : Spec}
    {agentNetwork : Network} (h : kind.agentNetwork agentSpec reservation.id = some agentNetwork)
    (rest : List (Reservation Name Time × Spec)) (s : Storage Name Network Time)
    (added replaced : List Name) :
    addLoop kind now ((reservation, agentSpec) :: rest) s added replaced =
      addLoop kind now rest
        (s.store reservation.id reservation agentNetwork (kind.getSizeInBytes agentNetwork) now)
        (if (s.agentsTable.get? reservation.id).isNone then added ++ [reservation.id] else added)
        (if (s.agentsTable.get? reservation.id).isNone then replaced
          else replaced ++ [reservation.id]) := by
  simp only [addLoop, h]
  split <;> rfl

/-- The loop of `add_reservations` only ever stores: what every `store` keeps,
it keeps. -/
theorem addLoop_invariant {I : Storage Name Network Time → Prop}
    (hstore : ∀ s agentName reservation agentNetwork size, I s →
      I (s.store agentName reservation agentNetwork size now))
    (batch : List (Reservation Name Time × Spec)) (s : Storage Name Network Time)
    (added replaced : List Name) (h : I s) :
    I (addLoop kind now batch s added replaced).storage := by
  induction batch generalizing s added replaced with
  | nil => exact h
  | cons entry rest ih =>
      obtain ⟨reservation, agentSpec⟩ := entry
      cases hnet : kind.agentNetwork agentSpec reservation.id with
      | none =>
          rw [addLoop_raise kind now hnet]
          exact h
      | some agentNetwork =>
          rw [addLoop_store kind now hnet]
          exact ih _ _ _ (hstore _ _ _ _ _ h)

omit [DecidableEq Name] in
/-- One more name is reported, in one of the two lists. -/
theorem mem_report {added replaced : List Name} {isNew : Bool} {name x : Name} :
    x ∈ (if isNew then added ++ [name] else added) ++
        (if isNew then replaced else replaced ++ [name]) ↔
      x = name ∨ x ∈ added ++ replaced := by
  cases isNew <;> simp <;> tauto

/-- What was reported stays reported. -/
theorem mem_reported_addLoop (batch : List (Reservation Name Time × Spec))
    (s : Storage Name Network Time) (added replaced : List Name) {x : Name}
    (hx : x ∈ added ++ replaced) :
    x ∈ (addLoop kind now batch s added replaced).added ++
      (addLoop kind now batch s added replaced).replaced := by
  induction batch generalizing s added replaced with
  | nil => exact hx
  | cons entry rest ih =>
      obtain ⟨reservation, agentSpec⟩ := entry
      cases hnet : kind.agentNetwork agentSpec reservation.id with
      | none =>
          rw [addLoop_raise kind now hnet]
          exact hx
      | some agentNetwork =>
          rw [addLoop_store kind now hnet]
          exact ih _ _ _ (mem_report.mpr (.inr hx))

/-- The names in the table after the loop of `add_reservations` are those
before it and those it reports. -/
theorem mem_agentsTable_addLoop (batch : List (Reservation Name Time × Spec))
    (s : Storage Name Network Time) (added replaced : List Name)
    (hacc : ∀ x, x ∈ added ++ replaced → x ∈ s.agentsTable) (x : Name) :
    x ∈ (addLoop kind now batch s added replaced).storage.agentsTable ↔
      x ∈ s.agentsTable ∨ x ∈ (addLoop kind now batch s added replaced).added ++
        (addLoop kind now batch s added replaced).replaced := by
  induction batch generalizing s added replaced with
  | nil => exact ⟨Or.inl, fun h => h.elim id (hacc x)⟩
  | cons entry rest ih =>
      obtain ⟨reservation, agentSpec⟩ := entry
      cases hnet : kind.agentNetwork agentSpec reservation.id with
      | none =>
          rw [addLoop_raise kind now hnet]
          exact ⟨Or.inl, fun h => h.elim id (hacc x)⟩
      | some agentNetwork =>
          rw [addLoop_store kind now hnet]
          have hacc' : ∀ y, y ∈ (if (s.agentsTable.get? reservation.id).isNone
                then added ++ [reservation.id] else added) ++
              (if (s.agentsTable.get? reservation.id).isNone then replaced
                else replaced ++ [reservation.id]) →
              y ∈ (s.store reservation.id reservation agentNetwork
                (kind.getSizeInBytes agentNetwork) now).agentsTable := fun y hy =>
            Dict.mem_set.mpr ((mem_report.mp hy).imp id (hacc y))
          rw [ih _ _ _ hacc']
          refine ⟨fun h => ?_, fun h => h.imp (fun h => Dict.mem_set.mpr (.inr h)) id⟩
          rcases h with h | h
          · rcases Dict.mem_set.mp h with rfl | h
            · exact .inr (mem_reported_addLoop kind now rest _ _ _ (mem_report.mpr (.inl rfl)))
            · exact .inl h
          · exact .inr h

end AddLoop

end Storage

end NoraFleet.TempNetworks
