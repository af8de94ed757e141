import Mathlib.Data.List.Basic

/-!
# Programs that raise

A piece of a program that logs events, sets local variables, and returns or
raises. What the calls it makes do is part of its input, so a piece is a function
from the variables before it to how it ends.

* `events_tryFinally` — a `finally` block runs after its body, however that ends;
* `Silent` — pieces that log nothing, closed under the ways to combine them;
* `Logs` — the same of pieces that log only some events, where an invariant holds;
* `Establishes` — from a condition on the variables and the log to another, for
  pieces that return.
-/

namespace Base

/-- The exceptions that programs tell apart. -/
inductive PyError where
  | jsonDecodeError
  | valueError
  | typeError
  | attributeError
  | overflowError
  | recursionError
  | timeoutError
  | streamClosedError
  | otherException
  | cancelledError
  | otherBaseException
  deriving DecidableEq

namespace PyError

/-- `isinstance(exc, Exception)`. -/
def isException : PyError → Bool
  | .cancelledError | .otherBaseException => false
  | _ => true

/-- `isinstance(exc, ValueError)`. -/
def isValueError : PyError → Bool
  | .jsonDecodeError | .valueError => true
  | _ => false

end PyError

/-! ## Loops that raise -/

theorem exists_of_map_eq_ok {α β : Type*} {f : α → β} {outcome : Except PyError α} {b : β}
    (h : outcome.map f = .ok b) : ∃ a, outcome = .ok a ∧ f a = b := by
  cases outcome with
  | error e => cases h
  | ok a => exact ⟨a, rfl, Except.ok.inj h⟩

theorem exists_of_bind_ok {α β : Type} {outcome : Except PyError α} {f : α → Except PyError β}
    {b : β} (h : (outcome >>= f) = .ok b) : ∃ a, outcome = .ok a ∧ f a = .ok b := by
  cases outcome with
  | error e => cases h
  | ok a => exact ⟨a, rfl, h⟩

theorem exists_map_ok_iff {α β : Type*} {f : α → β} {outcome : Except PyError α} :
    (∃ b, outcome.map f = .ok b) ↔ ∃ a, outcome = .ok a := by
  cases outcome with
  | error e => simp [Except.map]
  | ok a => simp [Except.map]

/-- A loop over a list returns what the property holds of, if every entry gives
something it holds of. -/
theorem mapM_ok_iff {α β : Type} (f : α → Except PyError β) (P : β → Prop) (l : List α) :
    (∃ r, l.mapM f = .ok r ∧ ∀ b ∈ r, P b) ↔ ∀ a ∈ l, ∃ b, f a = .ok b ∧ P b := by
  induction l with
  | nil => simp [pure, Except.pure]
  | cons a rest ih =>
      rw [List.mapM_cons, List.forall_mem_cons, ← ih]
      cases hf : f a with
      | error e => simp [bind, Except.bind]
      | ok b =>
          cases hrest : rest.mapM f with
          | error e => simp [bind, Except.bind]
          | ok bs => simp [bind, Except.bind, pure, Except.pure]

theorem exists_mapM_ok_iff {α β : Type} (f : α → Except PyError β) (l : List α) :
    (∃ r, l.mapM f = .ok r) ↔ ∀ a ∈ l, ∃ b, f a = .ok b := by
  have h := mapM_ok_iff f (fun _ => True) l
  simpa using h

theorem mapM_eq_ok_map {α β : Type} {f : α → Except PyError β} {g : α → β} {l : List α}
    (h : ∀ a ∈ l, f a = .ok (g a)) : l.mapM f = .ok (l.map g) := by
  induction l with
  | nil => rfl
  | cons a rest ih =>
      rw [List.forall_mem_cons] at h
      rw [List.mapM_cons, h.1, ih h.2]
      rfl

/-- What a loop keeps of every entry it keeps of the list. -/
theorem map_eq_of_mapM_eq_ok {α β γ : Type} {f : α → Except PyError β} {g : β → γ} {g' : α → γ}
    (hf : ∀ a b, f a = .ok b → g b = g' a) {l : List α} {r : List β} (h : l.mapM f = .ok r) :
    r.map g = l.map g' := by
  induction l generalizing r with
  | nil =>
      obtain rfl : [] = r := Except.ok.inj h
      rfl
  | cons a rest ih =>
      rw [List.mapM_cons] at h
      cases hfirst : f a with
      | error e => simp [hfirst, bind, Except.bind] at h
      | ok b =>
          cases hrest : rest.mapM f with
          | error e => simp [hfirst, hrest, bind, Except.bind] at h
          | ok others =>
              obtain rfl : b :: others = r := by
                simpa [hfirst, hrest, bind, Except.bind, pure, Except.pure] using h
              rw [List.map_cons, List.map_cons, hf a b hfirst, ih hrest]

theorem mem_iff_of_mapM_eq_ok {α β : Type} {f : α → Except PyError β} {l : List α} {r : List β}
    (h : l.mapM f = .ok r) (b : β) : b ∈ r ↔ ∃ a ∈ l, f a = .ok b := by
  induction l generalizing r with
  | nil =>
      obtain rfl : [] = r := Except.ok.inj h
      simp
  | cons a rest ih =>
      rw [List.mapM_cons] at h
      cases hf : f a with
      | error e => simp [hf, bind, Except.bind] at h
      | ok first =>
          cases hrest : rest.mapM f with
          | error e => simp [hf, hrest, bind, Except.bind] at h
          | ok others =>
              obtain rfl : first :: others = r := by
                simpa [hf, hrest, bind, Except.bind, pure, Except.pure] using h
              rw [List.mem_cons, ih hrest]
              simp [hf, eq_comm]

/-- A loop gives something for each entry. -/
theorem forall₂_of_mapM_eq_ok {α β : Type} {f : α → Except PyError β} {l : List α} {r : List β}
    (h : l.mapM f = .ok r) : List.Forall₂ (fun a b => f a = .ok b) l r := by
  induction l generalizing r with
  | nil =>
      obtain rfl : [] = r := Except.ok.inj h
      exact .nil
  | cons a rest ih =>
      rw [List.mapM_cons] at h
      obtain ⟨b, hb, h⟩ := exists_of_bind_ok h
      obtain ⟨others, hothers, h⟩ := exists_of_bind_ok h
      obtain rfl : b :: others = r := Except.ok.inj h
      exact .cons hb (ih hothers)

/-- What is in the lists that a loop puts together. -/
theorem mem_of_flatten_mapM {α β : Type} {f : α → Except PyError (List β)} {l : List α}
    {r : List β} (h : (l.mapM f).map List.flatten = .ok r) (b : β) :
    b ∈ r ↔ ∃ a ∈ l, ∃ part, f a = .ok part ∧ b ∈ part := by
  obtain ⟨parts, hparts, rfl⟩ := exists_of_map_eq_ok h
  rw [List.mem_flatten]
  simp only [mem_iff_of_mapM_eq_ok hparts]
  constructor
  · rintro ⟨part, ⟨a, ha, hpart⟩, hb⟩
    exact ⟨a, ha, part, hpart, hb⟩
  · rintro ⟨a, ha, part, hpart, hb⟩
    exact ⟨part, ⟨a, ha, hpart⟩, hb⟩

/-- A loop whose steps succeed on what they are about is a fold of values. -/
theorem foldlM_eq_ok {σ τ α : Type} {step : σ → α → Except PyError σ} {next : τ → α → τ}
    {state : τ → σ} (items : List α)
    (h : ∀ a ∈ items, ∀ t, step (state t) a = .ok (state (next t a))) (t : τ) :
    items.foldlM step (state t) = .ok (state (items.foldl next t)) := by
  induction items generalizing t with
  | nil => rfl
  | cons a rest ih =>
      rw [List.forall_mem_cons] at h
      rw [List.foldlM_cons, h.1]
      exact ih h.2 (next t a)

/-- A loop that takes something from every entry first takes it from all, and then goes on. -/
theorem foldlM_map_eq {α β σ : Type} (f : α → Except PyError β) (next : σ → β → σ) (l : List α)
    (s : σ) :
    l.foldlM (fun s a => (f a).map (next s)) s = (l.mapM f).map fun bs => bs.foldl next s := by
  induction l generalizing s with
  | nil => rfl
  | cons a rest ih =>
      rw [List.foldlM_cons, List.mapM_cons]
      cases hf : f a with
      | error e => rfl
      | ok b =>
          show rest.foldlM (fun s a => (f a).map (next s)) (next s b) = _
          rw [ih]
          cases rest.mapM f with
          | error e => rfl
          | ok bs => rfl

/-- A loop whose steps return or not whatever came before. -/
theorem exists_foldlM_ok_iff {α σ : Type} {step : σ → α → Except PyError σ} {P : α → Prop}
    (h : ∀ s a, (∃ s', step s a = .ok s') ↔ P a) (l : List α) (s : σ) :
    (∃ r, l.foldlM step s = .ok r) ↔ ∀ a ∈ l, P a := by
  induction l generalizing s with
  | nil => simp [pure, Except.pure]
  | cons a rest ih =>
      rw [List.foldlM_cons, List.forall_mem_cons, ← h s a]
      cases hstep : step s a with
      | error e => simp [bind, Except.bind]
      | ok s' =>
          rw [← ih s']
          simp [bind, Except.bind]

/-- What every step of a loop keeps, the loop keeps. -/
theorem rel_of_foldlM_eq_ok {α σ : Type} {step : σ → α → Except PyError σ} {R : σ → σ → Prop}
    (hrefl : ∀ s, R s s) (htrans : ∀ {s t u}, R s t → R t u → R s u) {l : List α}
    (h : ∀ a ∈ l, ∀ s s', step s a = .ok s' → R s s') {s r : σ}
    (hloop : l.foldlM step s = .ok r) : R s r := by
  induction l generalizing s with
  | nil =>
      obtain rfl := Except.ok.inj hloop
      exact hrefl s
  | cons a rest ih =>
      rw [List.forall_mem_cons] at h
      obtain ⟨s', hstep, hrest⟩ := exists_of_bind_ok hloop
      exact htrans (h.1 s s' hstep) (ih h.2 hrest)

/-! ## Pieces -/

/-- How a piece of a program ends: the events it logged, the variables, and the
value or the exception. -/
structure Ending (Event Locals α : Type*) where
  events : List Event
  locals : Locals
  outcome : Except PyError α

/-- A piece of a program. -/
structure Flow (Event Locals α : Type*) where
  run : Locals → Ending Event Locals α

namespace Flow

variable {Event Locals α β : Type}

instance : Monad (Flow Event Locals) where
  pure a := ⟨fun locals => ⟨[], locals, .ok a⟩⟩
  bind first next := ⟨fun locals =>
    match first.run locals with
    | ⟨events, locals, .error e⟩ => ⟨events, locals, .error e⟩
    | ⟨events, locals, .ok a⟩ =>
        let rest := (next a).run locals
        ⟨events ++ rest.events, rest.locals, rest.outcome⟩⟩

/-- Log an event. -/
def emit (event : Event) : Flow Event Locals Unit := ⟨fun locals => ⟨[event], locals, .ok ()⟩⟩

/-- A call that ends as given. -/
def call (outcome : Except PyError α) : Flow Event Locals α := ⟨fun locals => ⟨[], locals, outcome⟩⟩

/-- A call that returns nothing, or raises. -/
def perform (raised : Option PyError) : Flow Event Locals Unit :=
  call (match raised with | none => .ok () | some e => .error e)

/-- Set variables. -/
def assign (f : Locals → Locals) : Flow Event Locals Unit :=
  ⟨fun locals => ⟨[], f locals, .ok ()⟩⟩

/-- The variables as they are. -/
def readLocals : Flow Event Locals Locals := ⟨fun locals => ⟨[], locals, .ok locals⟩⟩

/-- `raise`. -/
def raise (e : PyError) : Flow Event Locals α := call (.error e)

/-- `try` with its `except` clauses; one that does not apply raises again. -/
def tryExcept (body : Flow Event Locals α) (handler : PyError → Flow Event Locals α) :
    Flow Event Locals α := ⟨fun locals =>
  match body.run locals with
  | ⟨events, locals, .ok a⟩ => ⟨events, locals, .ok a⟩
  | ⟨events, locals, .error e⟩ =>
      let handled := (handler e).run locals
      ⟨events ++ handled.events, handled.locals, handled.outcome⟩⟩

/-- `try` with its `finally` block. What that raises replaces what was raised. -/
def tryFinally (body : Flow Event Locals α) (cleanup : Flow Event Locals Unit) :
    Flow Event Locals α := ⟨fun locals =>
  let ended := body.run locals
  let cleaned := cleanup.run ended.locals
  ⟨ended.events ++ cleaned.events, cleaned.locals,
    match cleaned.outcome with
    | .error e => .error e
    | .ok () => ended.outcome⟩⟩

/-- `contextlib.suppress`. -/
def suppress (p : PyError → Bool) (body : Flow Event Locals Unit) : Flow Event Locals Unit :=
  tryExcept body fun e => if p e then pure () else raise e

/-! ## Events -/

theorem run_bind (first : Flow Event Locals α) (next : α → Flow Event Locals β)
    (locals : Locals) :
    (first >>= next).run locals =
      match first.run locals with
      | ⟨events, locals, .error e⟩ => ⟨events, locals, .error e⟩
      | ⟨events, locals, .ok a⟩ =>
          ⟨events ++ ((next a).run locals).events, ((next a).run locals).locals,
            ((next a).run locals).outcome⟩ :=
  rfl

@[simp] theorem events_emit_bind (event : Event) (next : Unit → Flow Event Locals β)
    (locals : Locals) :
    ((emit event >>= next).run locals).events = event :: ((next ()).run locals).events := rfl

@[simp] theorem run_readLocals_bind (next : Locals → Flow Event Locals β) (locals : Locals) :
    (readLocals >>= next).run locals = (next locals).run locals := rfl

@[simp] theorem run_assign_bind (f : Locals → Locals) (next : Unit → Flow Event Locals β)
    (locals : Locals) : (assign f >>= next).run locals = (next ()).run (f locals) := rfl

/-- An event is the first of those of what follows. -/
theorem run_emit_bind (event : Event) (next : Unit → Flow Event Locals β) (locals : Locals) :
    (emit event >>= next).run locals =
      ⟨event :: ((next ()).run locals).events, ((next ()).run locals).locals,
        ((next ()).run locals).outcome⟩ := rfl

/-- How a call that returns nothing ends, by what it raises. -/
def ofRaised : Option PyError → Except PyError Unit
  | none => .ok ()
  | some e => .error e

theorem run_perform (raised : Option PyError) (locals : Locals) :
    (perform raised : Flow Event Locals Unit).run locals = ⟨[], locals, ofRaised raised⟩ := by
  cases raised with
  | none => rfl
  | some e => rfl

theorem run_perform_none_bind (next : Unit → Flow Event Locals β) (locals : Locals) :
    (perform none >>= next).run locals = (next ()).run locals := rfl

theorem run_perform_some_bind (e : PyError) (next : Unit → Flow Event Locals β)
    (locals : Locals) : (perform (some e) >>= next).run locals = ⟨[], locals, .error e⟩ := rfl

/-- A piece that returns is followed by the next one. -/
theorem run_bind_ok {first : Flow Event Locals α} {next : α → Flow Event Locals β}
    {locals locals' : Locals} {events : List Event} {a : α}
    (h : first.run locals = ⟨events, locals', .ok a⟩) :
    (first >>= next).run locals =
      ⟨events ++ ((next a).run locals').events, ((next a).run locals').locals,
        ((next a).run locals').outcome⟩ := by
  rw [run_bind, h]

/-- A piece that raises is the end of what it is part of. -/
theorem run_bind_error {first : Flow Event Locals α} {next : α → Flow Event Locals β}
    {locals locals' : Locals} {events : List Event} {e : PyError}
    (h : first.run locals = ⟨events, locals', .error e⟩) :
    (first >>= next).run locals = ⟨events, locals', .error e⟩ := by
  rw [run_bind, h]

/-- A piece that logs nothing and returns is followed by the next one. -/
theorem bind_of_ok {first : Flow Event Locals α} {next : α → Flow Event Locals β}
    {locals locals' : Locals} {a : α} (h : first.run locals = ⟨[], locals', .ok a⟩) :
    (first >>= next).run locals = (next a).run locals' := by
  rw [run_bind, h]
  rfl

/-- A piece that logs nothing and raises is the end of what it is part of. -/
theorem bind_of_error {first : Flow Event Locals α} {next : α → Flow Event Locals β}
    {locals locals' : Locals} {e : PyError} (h : first.run locals = ⟨[], locals', .error e⟩) :
    (first >>= next).run locals = ⟨[], locals', .error e⟩ := by
  rw [run_bind, h]

/-- A body that returns is all there is of a `try`. -/
theorem run_tryExcept_of_ok {body : Flow Event Locals α} {handler : PyError → Flow Event Locals α}
    {locals locals' : Locals} {events : List Event} {a : α}
    (h : body.run locals = ⟨events, locals', .ok a⟩) :
    (tryExcept body handler).run locals = ⟨events, locals', .ok a⟩ := by
  simp only [tryExcept, h]

/-- A body that raises is followed by the handler. -/
theorem run_tryExcept_of_error {body : Flow Event Locals α}
    {handler : PyError → Flow Event Locals α} {locals locals' : Locals} {events : List Event}
    {e : PyError} (h : body.run locals = ⟨events, locals', .error e⟩) :
    (tryExcept body handler).run locals =
      ⟨events ++ ((handler e).run locals').events, ((handler e).run locals').locals,
        ((handler e).run locals').outcome⟩ := by
  simp only [tryExcept, h]

/-- A `finally` block that returns leaves the outcome of its body. -/
theorem run_tryFinally_of_ok {body : Flow Event Locals α} {cleanup : Flow Event Locals Unit}
    {locals locals' locals'' : Locals} {events events' : List Event} {outcome : Except PyError α}
    (hbody : body.run locals = ⟨events, locals', outcome⟩)
    (hcleanup : cleanup.run locals' = ⟨events', locals'', .ok ()⟩) :
    (tryFinally body cleanup).run locals = ⟨events ++ events', locals'', outcome⟩ := by
  simp only [tryFinally, hbody, hcleanup]

/-- What returns in two parts returned in both. -/
theorem exists_of_bind_eq_ok {first : Flow Event Locals α} {next : α → Flow Event Locals β}
    {locals : Locals} {b : β} (h : ((first >>= next).run locals).outcome = .ok b) :
    ∃ a, (first.run locals).outcome = .ok a ∧
      ((next a).run (first.run locals).locals).outcome = .ok b ∧
      ((first >>= next).run locals).locals = ((next a).run (first.run locals).locals).locals := by
  rw [run_bind] at h ⊢
  generalize first.run locals = ended at h ⊢
  obtain ⟨events, locals', e | a⟩ := ended
  · cases h
  · exact ⟨a, rfl, h, rfl⟩

/-- Two conditions one after the other. -/
theorem events_of_and (first second : Bool) (events : List Event) :
    (if first && second then events else []) =
      if first then (if second then events else []) else [] := by
  cases first with
  | true => rfl
  | false => rfl

/-- The call returns. -/
def returned : Except PyError α → Bool
  | .ok _ => true
  | .error _ => false

/-- What follows a call follows it if it returns. -/
theorem events_call_bind (outcome : Except PyError α) {next : α → Flow Event Locals β}
    {locals : Locals} {events : List Event} (h : ∀ a, ((next a).run locals).events = events) :
    ((call outcome >>= next).run locals).events = if returned outcome then events else [] := by
  cases outcome with
  | ok a => exact h a
  | error e => rfl

/-- The same of a call that returns nothing. -/
theorem events_perform_bind (raised : Option PyError) (next : Unit → Flow Event Locals β)
    (locals : Locals) :
    ((perform raised >>= next).run locals).events =
      if raised.isNone then ((next ()).run locals).events else [] := by
  cases raised with
  | none => rfl
  | some e => rfl

/-- The call returns, or what it raises is suppressed. -/
def suppressed (p : PyError → Bool) : Option PyError → Bool
  | none => true
  | some e => p e

theorem isNone_suppressed (p : PyError → Bool) (raised : Option PyError) :
    (if suppressed p raised then none else raised).isNone = suppressed p raised := by
  cases raised with
  | none => rfl
  | some e => cases h : p e <;> simp [suppressed, h]

/-- How a piece with suppressed exceptions ends. -/
theorem run_suppress_of_raised {p : PyError → Bool} {body : Flow Event Locals Unit}
    {locals locals' : Locals} {events : List Event} {raised : Option PyError}
    (h : body.run locals = ⟨events, locals', ofRaised raised⟩) :
    (suppress p body).run locals =
      ⟨events, locals', ofRaised (if suppressed p raised then none else raised)⟩ := by
  simp only [suppress, tryExcept, h]
  cases raised with
  | none => rfl
  | some e =>
      cases he : p e with
      | true => simp [ofRaised, suppressed, he, pure]
      | false => simp [ofRaised, suppressed, he, raise, call]

/-- What follows a call with suppressed exceptions follows it unless it raises
another one. -/
theorem events_suppress_bind (p : PyError → Bool) (raised : Option PyError)
    (next : Unit → Flow Event Locals β) (locals : Locals) :
    ((suppress p (perform raised) >>= next).run locals).events =
      if suppressed p raised then ((next ()).run locals).events else [] := by
  cases raised with
  | none => rfl
  | some e =>
      cases h : p e with
      | true =>
          have hreturns : (suppress p (perform (some e))).run locals =
              (⟨[], locals, .ok ()⟩ : Ending Event Locals Unit) := by
            simp only [suppress, tryExcept, perform, call, h]
            rfl
          rw [bind_of_ok hreturns]
          simp [suppressed, h]
      | false =>
          have hraises : (suppress p (perform (some e))).run locals =
              (⟨[], locals, .error e⟩ : Ending Event Locals Unit) := by
            simp only [suppress, tryExcept, perform, call, h]
            rfl
          rw [bind_of_error hraises]
          simp [suppressed, h]

/-- A `finally` block runs after its body, however that ends. -/
@[simp] theorem events_tryFinally (body : Flow Event Locals α) (cleanup : Flow Event Locals Unit)
    (locals : Locals) :
    ((tryFinally body cleanup).run locals).events =
      (body.run locals).events ++ (cleanup.run (body.run locals).locals).events := rfl

/-- How a body with its `finally` block ends, by what each raises. -/
theorem run_tryFinally_of_raised {body cleanup : Flow Event Locals Unit}
    {locals locals' locals'' : Locals} {events events' : List Event}
    {raised raised' : Option PyError} (hbody : body.run locals = ⟨events, locals', ofRaised raised⟩)
    (hcleanup : cleanup.run locals' = ⟨events', locals'', ofRaised raised'⟩) :
    (tryFinally body cleanup).run locals =
      ⟨events ++ events', locals'', ofRaised (raised' <|> raised)⟩ := by
  simp only [tryFinally, hbody, hcleanup]
  cases raised' with
  | none => rfl
  | some e => rfl

theorem ext {first second : Flow Event Locals α}
    (h : ∀ locals, first.run locals = second.run locals) : first = second := by
  obtain ⟨run⟩ := first
  obtain ⟨run'⟩ := second
  exact congrArg Flow.mk (funext h)

/-- Pieces one after the other, however they are put together. -/
instance : LawfulMonad.{0} (Flow Event Locals) := by
  refine LawfulMonad.mk' _ (fun piece => ext fun locals => ?_) (fun a next => ext fun locals => rfl)
    (fun first second third => ext fun locals => ?_)
  · show (piece >>= pure).run locals = piece.run locals
    rw [run_bind]
    generalize piece.run locals = ended
    obtain ⟨events, locals', e | a⟩ := ended
    · rfl
    · exact congrArg (fun events => Ending.mk events locals' (.ok a)) (List.append_nil events)
  · rw [run_bind, run_bind, run_bind]
    generalize first.run locals = ended
    obtain ⟨events, locals', e | a⟩ := ended
    · rfl
    · dsimp only
      rw [run_bind]
      generalize (second a).run locals' = ended
      obtain ⟨events', locals'', e | b⟩ := ended
      · rfl
      · simp only [List.append_assoc]

/-- A piece returns if its first part does and then the rest. -/
theorem returned_bind {first : Flow Event Locals α} {next : α → Flow Event Locals β}
    {locals : Locals} {firstReturns restReturns : Bool}
    (hfirst : returned (first.run locals).outcome = firstReturns)
    (hrest : ∀ a, (first.run locals).outcome = .ok a →
      returned ((next a).run (first.run locals).locals).outcome = restReturns) :
    returned ((first >>= next).run locals).outcome = (firstReturns && restReturns) := by
  rw [run_bind]
  generalize first.run locals = ended at hfirst hrest ⊢
  obtain ⟨events, locals', e | a⟩ := ended
  · obtain rfl : false = firstReturns := hfirst
    rfl
  · obtain rfl : true = firstReturns := hfirst
    rw [Bool.true_and]
    exact hrest a rfl

theorem returned_perform (raised : Option PyError) (locals : Locals) :
    returned ((perform raised).run locals : Ending Event Locals Unit).outcome = raised.isNone := by
  cases raised with
  | none => rfl
  | some e => rfl

/-- A body that raises does so whatever its `finally` block does. -/
theorem returned_tryFinally_of_error {body : Flow Event Locals α}
    {cleanup : Flow Event Locals Unit} {locals : Locals}
    (h : returned (body.run locals).outcome = false) :
    returned ((tryFinally body cleanup).run locals).outcome = false := by
  simp only [tryFinally]
  cases (cleanup.run (body.run locals).locals).outcome with
  | error e => rfl
  | ok u => exact h

/-- A piece returns if `returns`, and then ends as given. -/
structure EndsIf (returns : Bool) (piece : Flow Event Locals α) (locals : Locals)
    (ending : Ending Event Locals α) : Prop where
  returned : returned (piece.run locals).outcome = returns
  ending : returns = true → piece.run locals = ending

namespace EndsIf

variable {returns : Bool} {locals : Locals} {ending : Ending Event Locals β}

theorem call_bind (outcome : Except PyError α) {next : α → Flow Event Locals β}
    (hnext : ∀ a, outcome = .ok a → EndsIf returns (next a) locals ending) :
    EndsIf (Flow.returned outcome && returns) (call outcome >>= next) locals ending := by
  cases outcome with
  | error e => exact ⟨rfl, fun h => absurd h Bool.false_ne_true⟩
  | ok a => exact ⟨(hnext a rfl).returned, (hnext a rfl).ending⟩

theorem perform_bind (raised : Option PyError) {next : Unit → Flow Event Locals β}
    (hnext : EndsIf returns (next ()) locals ending) :
    EndsIf (raised.isNone && returns) (perform raised >>= next) locals ending := by
  cases raised with
  | none => exact ⟨hnext.returned, hnext.ending⟩
  | some e => exact ⟨rfl, fun h => absurd h Bool.false_ne_true⟩

/-- A piece that returns whatever happens, in front of another. -/
theorem bind_of_ok {first : Flow Event Locals α} {next : α → Flow Event Locals β}
    {locals' : Locals} {events events' : List Event} {locals'' : Locals}
    {outcome : Except PyError β} {a : α} (h : first.run locals = ⟨events, locals', .ok a⟩)
    (hnext : EndsIf returns (next a) locals' ⟨events', locals'', outcome⟩) :
    EndsIf returns (first >>= next) locals ⟨events ++ events', locals'', outcome⟩ := by
  have hrun : (first >>= next).run locals = ⟨events ++ ((next a).run locals').events,
      ((next a).run locals').locals, ((next a).run locals').outcome⟩ := run_bind_ok h
  refine ⟨?_, fun hreturns => ?_⟩
  · rw [hrun]
    exact hnext.returned
  · rw [hrun, hnext.ending hreturns]

/-- A piece that is known to raise or to return. -/
theorem of_run {piece : Flow Event Locals Unit} {locals' : Locals} {events : List Event}
    {raised : Option PyError} (h : piece.run locals = ⟨events, locals', ofRaised raised⟩) :
    EndsIf raised.isNone piece locals ⟨events, locals', .ok ()⟩ := by
  cases raised with
  | none => exact ⟨by rw [h]; rfl, fun _ => h⟩
  | some e => exact ⟨by rw [h]; rfl, fun hreturns => absurd hreturns Bool.false_ne_true⟩

/-- Variables are set first. -/
theorem assign_bind {f : Locals → Locals} {next : Unit → Flow Event Locals β}
    (hnext : EndsIf returns (next ()) (f locals) ending) :
    EndsIf returns (assign f >>= next) locals ending := ⟨hnext.returned, hnext.ending⟩

/-- One piece after the other. -/
theorem bind {firstReturns : Bool} {first : Flow Event Locals α} {next : α → Flow Event Locals β}
    {locals' locals'' : Locals} {events events' : List Event} {outcome : Except PyError β} {a : α}
    (hfirst : EndsIf firstReturns first locals ⟨events, locals', .ok a⟩)
    (hnext : EndsIf returns (next a) locals' ⟨events', locals'', outcome⟩) :
    EndsIf (firstReturns && returns) (first >>= next) locals
      ⟨events ++ events', locals'', outcome⟩ := by
  cases firstReturns with
  | true => exact bind_of_ok (hfirst.ending rfl) hnext
  | false =>
      refine ⟨?_, fun hreturns => absurd hreturns Bool.false_ne_true⟩
      have hraises := hfirst.returned
      rw [run_bind]
      generalize first.run locals = ended at hraises
      obtain ⟨events, locals', e | a⟩ := ended
      · rfl
      · cases hraises

/-- A body with its `finally` block. -/
theorem tryFinally {body cleanup : Flow Event Locals Unit} {locals' locals'' : Locals}
    {events events' : List Event} {raised : Option PyError}
    (hbody : EndsIf returns body locals ⟨events, locals', .ok ()⟩)
    (hcleanup : cleanup.run locals' = ⟨events', locals'', ofRaised raised⟩) :
    EndsIf (returns && raised.isNone) (Flow.tryFinally body cleanup) locals
      ⟨events ++ events', locals'', .ok ()⟩ := by
  cases returns with
  | true =>
      have hbody' : body.run locals = ⟨events, locals', ofRaised none⟩ := hbody.ending rfl
      have hrun := run_tryFinally_of_raised hbody' hcleanup
      cases raised with
      | none => exact of_run hrun
      | some e => exact of_run hrun
  | false =>
      exact ⟨returned_tryFinally_of_error hbody.returned, fun h => absurd h Bool.false_ne_true⟩

/-- A call in a body with its `finally` block. -/
theorem tryFinally_call_bind (outcome : Except PyError α) {next : α → Flow Event Locals β}
    {cleanup : Flow Event Locals Unit}
    (hnext : ∀ a, outcome = .ok a →
      EndsIf returns (Flow.tryFinally (next a) cleanup) locals ending) :
    EndsIf (Flow.returned outcome && returns) (Flow.tryFinally (call outcome >>= next) cleanup)
      locals ending := by
  cases outcome with
  | error e =>
      exact ⟨returned_tryFinally_of_error rfl, fun h => absurd h Bool.false_ne_true⟩
  | ok a => exact ⟨(hnext a rfl).returned, (hnext a rfl).ending⟩

theorem tryFinally_perform_bind (raised : Option PyError) {next : Unit → Flow Event Locals β}
    {cleanup : Flow Event Locals Unit}
    (hnext : EndsIf returns (Flow.tryFinally (next ()) cleanup) locals ending) :
    EndsIf (raised.isNone && returns) (Flow.tryFinally (perform raised >>= next) cleanup) locals
      ending := by
  cases raised with
  | none => exact ⟨hnext.returned, hnext.ending⟩
  | some e => exact ⟨returned_tryFinally_of_error rfl, fun h => absurd h Bool.false_ne_true⟩

end EndsIf

/-- A piece that logs nothing and leaves what `kept` reads of the variables as it
was, whether it returns or raises. -/
structure Silent {γ : Type} (kept : Locals → γ) (piece : Flow Event Locals α) : Prop where
  events : ∀ locals, (piece.run locals).events = []
  locals : ∀ locals, kept (piece.run locals).locals = kept locals

namespace Silent

variable {γ : Type} {kept : Locals → γ}

theorem pure (a : α) : Silent kept (pure a : Flow Event Locals α) :=
  ⟨fun _ => rfl, fun _ => rfl⟩

theorem call (outcome : Except PyError α) :
    Silent kept (call outcome : Flow Event Locals α) :=
  ⟨fun _ => rfl, fun _ => rfl⟩

theorem perform (raised : Option PyError) :
    Silent kept (perform raised : Flow Event Locals Unit) := call _

theorem raise (e : PyError) : Silent kept (raise e : Flow Event Locals α) := call _

theorem readLocals : Silent kept (readLocals : Flow Event Locals Locals) :=
  ⟨fun _ => rfl, fun _ => rfl⟩

theorem assign {f : Locals → Locals} (h : ∀ locals, kept (f locals) = kept locals) :
    Silent kept (assign f : Flow Event Locals Unit) :=
  ⟨fun _ => rfl, h⟩

theorem bind {first : Flow Event Locals α} {next : α → Flow Event Locals β}
    (hfirst : Silent kept first) (hnext : ∀ a, Silent kept (next a)) :
    Silent kept (first >>= next) := by
  constructor
  · intro locals
    have hevents := hfirst.events locals
    rw [run_bind]
    generalize first.run locals = ended at hevents ⊢
    obtain ⟨events, locals', e | a⟩ := ended
    · exact hevents
    · obtain rfl : events = [] := hevents
      exact (hnext a).events locals'
  · intro locals
    have hlocals := hfirst.locals locals
    rw [run_bind]
    generalize first.run locals = ended at hlocals ⊢
    obtain ⟨events, locals', e | a⟩ := ended
    · exact hlocals
    · exact ((hnext a).locals locals').trans hlocals

/-- What a body leaves stays when the `except` clauses leave it. -/
theorem leaves_tryExcept {body : Flow Event Locals α} {handler : PyError → Flow Event Locals α}
    (hhandler : ∀ e, Silent kept (handler e)) {locals : Locals} {v : γ}
    (hbody : (body.run locals).events = [] ∧ kept (body.run locals).locals = v) :
    ((Flow.tryExcept body handler).run locals).events = [] ∧
      kept ((Flow.tryExcept body handler).run locals).locals = v := by
  obtain ⟨hevents, hlocals⟩ := hbody
  simp only [Flow.tryExcept]
  generalize body.run locals = ended at hevents hlocals ⊢
  obtain ⟨events, locals', e | a⟩ := ended
  · obtain rfl : events = [] := hevents
    exact ⟨(hhandler e).events locals', ((hhandler e).locals locals').trans hlocals⟩
  · exact ⟨hevents, hlocals⟩

theorem tryExcept {body : Flow Event Locals α} {handler : PyError → Flow Event Locals α}
    (hbody : Silent kept body) (hhandler : ∀ e, Silent kept (handler e)) :
    Silent kept (tryExcept body handler) :=
  ⟨fun locals => (leaves_tryExcept hhandler ⟨hbody.events locals, hbody.locals locals⟩).1,
    fun locals => (leaves_tryExcept hhandler ⟨hbody.events locals, hbody.locals locals⟩).2⟩

theorem suppress {p : PyError → Bool} {body : Flow Event Locals Unit}
    (hbody : Silent kept body) : Silent kept (suppress p body) := by
  refine hbody.tryExcept fun e => ?_
  split
  · exact pure ()
  · exact raise e

end Silent

/-- A piece that, where `I` holds of the variables, logs only events that `P` holds
of, and leaves `I` holding, whether it returns or raises. -/
structure Logs (P : Event → Prop) (I : Locals → Prop) (piece : Flow Event Locals α) : Prop where
  events : ∀ locals, I locals → ∀ event ∈ (piece.run locals).events, P event
  keeps : ∀ locals, I locals → I (piece.run locals).locals

namespace Logs

variable {P : Event → Prop} {I : Locals → Prop}

theorem call (outcome : Except PyError α) : Logs P I (call outcome : Flow Event Locals α) :=
  ⟨fun _ _ _ h => absurd h List.not_mem_nil, fun _ h => h⟩

theorem pure (a : α) : Logs P I (pure a : Flow Event Locals α) := call (.ok a)

theorem perform (raised : Option PyError) : Logs P I (perform raised : Flow Event Locals Unit) :=
  call _

theorem raise (e : PyError) : Logs P I (raise e : Flow Event Locals α) := call _

theorem emit {event : Event} (h : P event) : Logs P I (emit event : Flow Event Locals Unit) := by
  refine ⟨fun _ _ event' hevent => ?_, fun _ h => h⟩
  rw [List.mem_singleton.mp hevent]
  exact h

theorem assign {f : Locals → Locals} (h : ∀ locals, I locals → I (f locals)) :
    Logs P I (assign f : Flow Event Locals Unit) :=
  ⟨fun _ _ _ h => absurd h List.not_mem_nil, h⟩

theorem bind {first : Flow Event Locals α} {next : α → Flow Event Locals β}
    (hfirst : Logs P I first) (hnext : ∀ a, Logs P I (next a)) : Logs P I (first >>= next) := by
  constructor
  · intro locals hI event hevent
    have hevents := hfirst.events locals hI
    have hkeeps := hfirst.keeps locals hI
    rw [run_bind] at hevent
    generalize first.run locals = ended at hevents hkeeps hevent
    obtain ⟨events, locals', e | a⟩ := ended
    · exact hevents event hevent
    · rcases List.mem_append.mp hevent with hevent | hevent
      · exact hevents event hevent
      · exact (hnext a).events locals' hkeeps event hevent
  · intro locals hI
    have hkeeps := hfirst.keeps locals hI
    rw [run_bind]
    generalize first.run locals = ended at hkeeps ⊢
    obtain ⟨events, locals', e | a⟩ := ended
    · exact hkeeps
    · exact (hnext a).keeps locals' hkeeps

/-- The variables are read where `I` holds of them. -/
theorem readLocals_bind {next : Locals → Flow Event Locals β}
    (hnext : ∀ locals, I locals → Logs P I (next locals)) : Logs P I (readLocals >>= next) :=
  ⟨fun locals hI => (hnext locals hI).events locals hI,
    fun locals hI => (hnext locals hI).keeps locals hI⟩

theorem tryExcept {body : Flow Event Locals α} {handler : PyError → Flow Event Locals α}
    (hbody : Logs P I body) (hhandler : ∀ e, Logs P I (handler e)) :
    Logs P I (tryExcept body handler) := by
  constructor
  · intro locals hI event hevent
    have hevents := hbody.events locals hI
    have hkeeps := hbody.keeps locals hI
    simp only [Flow.tryExcept] at hevent
    generalize body.run locals = ended at hevents hkeeps hevent
    obtain ⟨events, locals', e | a⟩ := ended
    · rcases List.mem_append.mp hevent with hevent | hevent
      · exact hevents event hevent
      · exact (hhandler e).events locals' hkeeps event hevent
    · exact hevents event hevent
  · intro locals hI
    have hkeeps := hbody.keeps locals hI
    simp only [Flow.tryExcept]
    generalize body.run locals = ended at hkeeps ⊢
    obtain ⟨events, locals', e | a⟩ := ended
    · exact (hhandler e).keeps locals' hkeeps
    · exact hkeeps

theorem tryFinally {body : Flow Event Locals α} {cleanup : Flow Event Locals Unit}
    (hbody : Logs P I body) (hcleanup : Logs P I cleanup) :
    Logs P I (tryFinally body cleanup) := by
  constructor
  · intro locals hI event hevent
    rw [events_tryFinally] at hevent
    rcases List.mem_append.mp hevent with hevent | hevent
    · exact hbody.events locals hI event hevent
    · exact hcleanup.events _ (hbody.keeps locals hI) event hevent
  · intro locals hI
    exact hcleanup.keeps _ (hbody.keeps locals hI)

theorem suppress {p : PyError → Bool} {body : Flow Event Locals Unit} (hbody : Logs P I body) :
    Logs P I (suppress p body) := by
  refine hbody.tryExcept fun e => ?_
  split
  · exact pure ()
  · exact raise e

theorem mono {Q : Event → Prop} {piece : Flow Event Locals α} (h : Logs P I piece)
    (hPQ : ∀ event, P event → Q event) : Logs Q I piece :=
  ⟨fun locals hI event hevent => hPQ event (h.events locals hI event hevent), h.keeps⟩

theorem events_eq_nil {piece : Flow Event Locals α} (h : Logs (fun _ => False) I piece)
    {locals : Locals} (hI : I locals) : (piece.run locals).events = [] :=
  List.eq_nil_iff_forall_not_mem.mpr (h.events locals hI)

end Logs

/-- Where `P` holds of the variables and of what was logged so far, a piece returns,
and `Q` holds of what it returns, of the variables and of the log. -/
def Establishes (P : Locals → List Event → Prop) (piece : Flow Event Locals α)
    (Q : α → Locals → List Event → Prop) : Prop :=
  ∀ locals log, P locals log → ∃ a, (piece.run locals).outcome = .ok a ∧
    Q a (piece.run locals).locals (log ++ (piece.run locals).events)

namespace Establishes

variable {P : Locals → List Event → Prop} {Q : α → Locals → List Event → Prop}

theorem of_run {piece : Flow Event Locals α}
    (h : ∀ locals log, P locals log → ∃ a events locals',
      piece.run locals = ⟨events, locals', .ok a⟩ ∧ Q a locals' (log ++ events)) :
    Establishes P piece Q := by
  intro locals log hP
  obtain ⟨a, events, locals', hrun, hQ⟩ := h locals log hP
  rw [hrun]
  exact ⟨a, rfl, hQ⟩

theorem pure {a : α} (h : ∀ locals log, P locals log → Q a locals log) :
    Establishes P (pure a : Flow Event Locals α) Q := by
  refine of_run fun locals log hP => ⟨a, [], locals, rfl, ?_⟩
  rw [List.append_nil]
  exact h locals log hP

theorem assign {f : Locals → Locals} {Q : Unit → Locals → List Event → Prop}
    (h : ∀ locals log, P locals log → Q () (f locals) log) :
    Establishes P (assign f : Flow Event Locals Unit) Q := by
  refine of_run fun locals log hP => ⟨(), [], f locals, rfl, ?_⟩
  rw [List.append_nil]
  exact h locals log hP

theorem emit {event : Event} {Q : Unit → Locals → List Event → Prop}
    (h : ∀ locals log, P locals log → Q () locals (log ++ [event])) :
    Establishes P (emit event : Flow Event Locals Unit) Q :=
  of_run fun locals log hP => ⟨(), [event], locals, rfl, h locals log hP⟩

/-- One piece after the other. -/
theorem bind {R : β → Locals → List Event → Prop} {first : Flow Event Locals α}
    {next : α → Flow Event Locals β} (hfirst : Establishes P first Q)
    (hnext : ∀ a, Establishes (Q a) (next a) R) : Establishes P (first >>= next) R := by
  intro locals log hP
  obtain ⟨a, houtcome, hQ⟩ := hfirst locals log hP
  have hrun : first.run locals =
      ⟨(first.run locals).events, (first.run locals).locals, .ok a⟩ := by rw [← houtcome]
  obtain ⟨b, houtcome', hR⟩ := hnext a _ _ hQ
  rw [run_bind_ok hrun]
  rw [List.append_assoc] at hR
  exact ⟨b, houtcome', hR⟩

/-- The variables are read where `P` holds of them. -/
theorem readLocals_bind {next : Locals → Flow Event Locals α}
    (hnext : ∀ locals log, P locals log →
      ∃ a, ((next locals).run locals).outcome = .ok a ∧
        Q a ((next locals).run locals).locals (log ++ ((next locals).run locals).events)) :
    Establishes P (readLocals >>= next) Q := hnext

/-- A body with its `finally` block. -/
theorem tryFinally {body cleanup : Flow Event Locals Unit} {Q R : Unit → Locals → List Event → Prop}
    (hbody : Establishes P body Q) (hcleanup : Establishes (Q ()) cleanup R) :
    Establishes P (tryFinally body cleanup) R := by
  intro locals log hP
  obtain ⟨a, hbody', hQ⟩ := hbody locals log hP
  obtain ⟨b, hcleanup', hR⟩ := hcleanup _ _ hQ
  have houtcome : (Flow.tryFinally body cleanup).run locals =
      ⟨(body.run locals).events ++ (cleanup.run (body.run locals).locals).events,
        (cleanup.run (body.run locals).locals).locals, .ok a⟩ := by
    simp only [Flow.tryFinally, hcleanup', hbody']
  rw [houtcome]
  rw [List.append_assoc] at hR
  exact ⟨a, rfl, hR⟩

/-- What a piece leaves as it was holds behind it. -/
theorem and_keeps {I : Locals → Prop} {piece : Flow Event Locals α} (h : Establishes P piece Q)
    (hkeeps : ∀ locals, I locals → I (piece.run locals).locals) :
    Establishes (fun locals log => P locals log ∧ I locals) piece
      fun a locals log => Q a locals log ∧ I locals := by
  intro locals log hP
  obtain ⟨a, houtcome, hQ⟩ := h locals log hP.1
  exact ⟨a, houtcome, hQ, hkeeps locals hP.2⟩

/-- A stronger condition in front, and a weaker one behind. -/
theorem mono {P' : Locals → List Event → Prop} {Q' : α → Locals → List Event → Prop}
    {piece : Flow Event Locals α} (h : Establishes P piece Q)
    (hpre : ∀ locals log, P' locals log → P locals log)
    (hpost : ∀ a locals log, Q a locals log → Q' a locals log) : Establishes P' piece Q' := by
  intro locals log hP
  obtain ⟨a, houtcome, hQ⟩ := h locals log (hpre locals log hP)
  exact ⟨a, houtcome, hpost _ _ _ hQ⟩

end Establishes

end Flow

end Base
