import Mathlib.Tactic.Common

/-!
# Runs of one operation after the other

A state and what each operation makes of it. `Runs exec ok init` is every state
that a sequence of operations leads to from `init`, when each operation meets
`ok` in the state it starts in; with the trivial condition `anyOp` these are all
runs.

* `Runs.invariant` — what holds at first, and is kept by every operation that
  meets the condition, holds in every state;
* `Runs.allOk_congr` — conditions that agree under an invariant hold of the same lists of
  operations;
* `Runs.of_ops` — a list of operations that all meet the condition is a run.
-/

namespace Base

/-- The states that sequences of operations reach from `init`, when every
operation meets `ok`. -/
inductive Runs {State Op : Type*} (exec : Op → State → State) (ok : Op → State → Prop)
    (init : State) : State → Prop
  | init : Runs exec ok init init
  | step {s} (op : Op) : Runs exec ok init s → ok op s → Runs exec ok init (exec op s)

namespace Runs

variable {State Op : Type*} {exec : Op → State → State} {ok : Op → State → Prop} {init : State}

/-- The condition that holds of every operation. -/
def anyOp : Op → State → Prop := fun _ _ => True

instance (op : Op) (s : State) : Decidable (anyOp op s) := inferInstanceAs (Decidable True)

/-- The rule for invariants. -/
theorem invariant {I : State → Prop} (hinit : I init)
    (hstep : ∀ op s, I s → ok op s → I (exec op s)) {s : State} (hr : Runs exec ok init s) :
    I s := by
  induction hr with
  | init => exact hinit
  | step op _ hok ih => exact hstep op _ ih hok

/-- Every operation of a list meets the condition where it is carried out. -/
def AllOk (exec : Op → State → State) (ok : Op → State → Prop) : State → List Op → Prop
  | _, [] => True
  | s, op :: rest => ok op s ∧ AllOk exec ok (exec op s) rest

instance decidableAllOk [∀ op s, Decidable (ok op s)] :
    (s : State) → (ops : List Op) → Decidable (AllOk exec ok s ops)
  | _, [] => isTrue trivial
  | s, op :: rest =>
      have : Decidable (AllOk exec ok (exec op s) rest) := decidableAllOk (exec op s) rest
      inferInstanceAs (Decidable (ok op s ∧ AllOk exec ok (exec op s) rest))

/-- Two conditions that agree in the states of an invariant hold of the same lists of
operations. -/
theorem allOk_congr {I : State → Prop} {ok ok' : Op → State → Prop} {s : State} (hinit : I s)
    (hstep : ∀ op s, I s → ok op s → I (exec op s)) (h : ∀ op s, I s → (ok op s ↔ ok' op s))
    (ops : List Op) : AllOk exec ok s ops ↔ AllOk exec ok' s ops := by
  induction ops generalizing s with
  | nil => exact Iff.rfl
  | cons op rest ih =>
      show (ok op s ∧ _) ↔ (ok' op s ∧ _)
      rw [← h op s hinit]
      exact and_congr_right fun hok => ih (hstep op s hinit hok)

/-- The operations of a list meet two conditions when they meet each. -/
theorem allOk_and {ok ok' : Op → State → Prop} (s : State) (ops : List Op) :
    AllOk exec (fun op s => ok op s ∧ ok' op s) s ops ↔
      AllOk exec ok s ops ∧ AllOk exec ok' s ops := by
  induction ops generalizing s with
  | nil => exact ⟨fun _ => ⟨trivial, trivial⟩, fun _ => trivial⟩
  | cons op rest ih =>
      show (_ ∧ _) ∧ _ ↔ (_ ∧ _) ∧ (_ ∧ _)
      rw [ih (exec op s)]
      exact and_and_and_comm

/-- A list of operations that all meet the condition is a run. -/
theorem of_ops {s : State} (hr : Runs exec ok init s) {ops : List Op}
    (h : AllOk exec ok s ops) :
    Runs exec ok init (ops.foldl (fun s op => exec op s) s) := by
  induction ops generalizing s with
  | nil => exact hr
  | cons op rest ih => exact ih (.step op hr h.1) h.2

end Runs

end Base
