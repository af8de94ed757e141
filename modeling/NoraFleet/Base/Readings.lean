import Mathlib

/-!
# Programs that read a store

A reading looks at one place of a store after the other, and what it finds decides where it looks
next. The store may change between two looks.

* `Reading.run_congr` — a reading gives the same on stores that agree where it looks;
* `Reading.run_bind` — one reading after the other.
-/

namespace Base

/-- Looks at a store, one after the other, and a result. -/
inductive Reading (Place Content Result : Type*) where
  | done (result : Result)
  | look (place : Place) (next : Content → Reading Place Content Result)

namespace Reading

variable {Place Content Result : Type*}

/-- All of a reading, of a store that stays as it is. -/
def run (store : Place → Content) : Reading Place Content Result → Result
  | done result => result
  | look place next => (next (store place)).run store

/-- A reading looks at such places only, whatever it finds there. -/
def Within (places : Set Place) : Reading Place Content Result → Prop
  | done _ => True
  | look place next => place ∈ places ∧ ∀ content, (next content).Within places

variable {places : Set Place}

theorem Within.next {place : Place} {next : Content → Reading Place Content Result}
    (h : (look place next).Within places) (content : Content) : (next content).Within places :=
  h.2 content

/-- A place outside does not matter. -/
theorem run_congr {reading : Reading Place Content Result} (h : reading.Within places)
    {store store' : Place → Content} (hsame : ∀ place ∈ places, store' place = store place) :
    reading.run store' = reading.run store := by
  induction reading with
  | done result => rfl
  | look place next ih =>
      show (next (store' place)).run store' = (next (store place)).run store
      rw [hsame place h.1]
      exact ih _ (h.next _)

/-! ## One after the other -/

variable {Other : Type*}

/-- What the first one gives decides how it goes on. -/
def bind : Reading Place Content Result → (Result → Reading Place Content Other) →
    Reading Place Content Other
  | done result, next => next result
  | look place rest, next => look place fun content => (rest content).bind next

theorem run_bind (store : Place → Content) (reading : Reading Place Content Result)
    (next : Result → Reading Place Content Other) :
    (reading.bind next).run store = (next (reading.run store)).run store := by
  induction reading with
  | done result => rfl
  | look place rest ih => exact ih (store place)

/-- Whatever a reading finds, its result is such. -/
def All (p : Result → Prop) : Reading Place Content Result → Prop
  | done result => p result
  | look _ next => ∀ content, (next content).All p

theorem all_of_forall {p : Result → Prop} (h : ∀ result, p result)
    (reading : Reading Place Content Result) : reading.All p := by
  induction reading with
  | done result => exact h result
  | look place next ih => exact ih

theorem Within.bind_of_all {reading : Reading Place Content Result} {p : Result → Prop}
    {next : Result → Reading Place Content Other} (h : reading.Within places) (hall : reading.All p)
    (hnext : ∀ result, p result → (next result).Within places) :
    (reading.bind next).Within places := by
  induction reading with
  | done result => exact hnext result hall
  | look place rest ih => exact ⟨h.1, fun content => ih content (h.next content) (hall content)⟩

theorem Within.bind {reading : Reading Place Content Result}
    {next : Result → Reading Place Content Other} (h : reading.Within places)
    (hnext : ∀ result, (next result).Within places) : (reading.bind next).Within places :=
  h.bind_of_all (all_of_forall (p := fun _ => True) (fun _ => trivial) reading)
    fun result _ => hnext result

end Reading

end Base
