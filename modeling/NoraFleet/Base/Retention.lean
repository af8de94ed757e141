import Mathlib

/-!
# Logs of which a part is kept

Entries come in batches, and after each batch only a part of the log is kept, with which the
next one begins. What is lost on the way does not matter where keeping forgets nothing that
it would need later.

* `Retains.foldl` — batch after batch is kept what is kept of all of them at once;
* `retains_headAndNewest` — the first entry and the newest of the others can be kept so.
-/

namespace Base

variable {α β : Type*}

/-- What is kept of a log is enough to know what is kept of a longer one. -/
def Retains (keep : List α → List α) : Prop :=
  ∀ old new, keep (keep old ++ new) = keep (old ++ new)

/-- One batch. -/
def keepBatch (keep : List α → List α) (log batch : List α) : List α := keep (log ++ batch)

/-- Batch after batch, as much is kept as of all of them at once. -/
theorem Retains.foldl {keep : List α → List α} (h : Retains keep) (old : List α)
    (batches : List (List α)) :
    batches.foldl (keepBatch keep) (keep old) = keep (old ++ batches.flatten) := by
  induction batches generalizing old with
  | nil => rw [List.foldl_nil, List.flatten_nil, List.append_nil]
  | cons batch batches ih =>
      have hstep : keepBatch keep (keep old) batch = keep (old ++ batch) := h old batch
      rw [List.foldl_cons, hstep, ih, List.flatten_cons, List.append_assoc]

theorem retains_id : Retains (id : List α → List α) := fun _ _ => rfl

/-- The entries can be changed on the way, where changing them again makes no difference and
where they are no less kept for it. -/
theorem Retains.map {keep : List α → List α} (h : Retains keep) {change : α → α}
    (hagain : ∀ entry, change (change entry) = change entry)
    (hkeep : ∀ log, (keep log).map change = keep (log.map change)) :
    Retains fun log => keep (log.map change) := by
  intro old new
  have hold : (keep (old.map change)).map change = keep (old.map change) := by
    rw [hkeep, List.map_map]
    congr 1
    apply List.map_congr_left
    intro entry _
    exact hagain entry
  show keep ((keep (old.map change) ++ new).map change) = keep ((old ++ new).map change)
  rw [List.map_append, hold, h, List.map_append]

/-! ## The first entry, and the newest of the others -/

/-- The first entry of a log, and the newest `n` of the others. -/
def headAndNewest (n : Nat) : List α → List α
  | [] => []
  | first :: rest => first :: rest.rtake n

theorem rtake_rtake_append (n : Nat) (old new : List α) :
    (old.rtake n ++ new).rtake n = (old ++ new).rtake n := by
  have htake : ∀ newer older : List α,
      (newer ++ older.take n).take n = (newer ++ older).take n := by
    intro newer older
    rw [List.take_append, List.take_append, List.take_take, Nat.min_eq_left (Nat.sub_le _ _)]
  simp only [List.rtake_eq_reverse_take_reverse, List.reverse_append, List.reverse_reverse, htake]

theorem retains_headAndNewest (n : Nat) : Retains (headAndNewest n : List α → List α) := by
  intro old new
  cases old with
  | nil => rfl
  | cons first rest =>
      show first :: (rest.rtake n ++ new).rtake n = first :: (rest ++ new).rtake n
      rw [rtake_rtake_append]

theorem map_headAndNewest (n : Nat) (change : α → β) (log : List α) :
    (headAndNewest n log).map change = headAndNewest n (log.map change) := by
  cases log with
  | nil => rfl
  | cons first rest =>
      show change first :: (rest.rtake n).map change = change first :: (rest.map change).rtake n
      unfold List.rtake
      rw [List.map_drop, List.length_map]

theorem length_headAndNewest_le (n : Nat) (log : List α) :
    (headAndNewest n log).length ≤ n + 1 := by
  cases log with
  | nil => exact Nat.zero_le _
  | cons first rest =>
      show (rest.rtake n).length + 1 ≤ n + 1
      unfold List.rtake
      rw [List.length_drop]
      omega

end Base
