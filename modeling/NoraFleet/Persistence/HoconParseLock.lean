import Mathlib
import NoraFleet.Base.Forks

/-!
# One parse at a time

The grammar library keeps its default white space in a variable of the whole process, and
a parse changes it while it builds its grammar. `HoconParseLock` keeps parses apart: a
parse runs inside `with HoconParseLock():`, and hooks take the lock before a fork and give
it back in the parent, while the child makes it anew. The parser is a parameter, one
atomic step at a time; other threads and other processes run in between.

* `parse_isolated` — every parse gives what it gives when nothing else runs;
* `no_lock_orphaned` — a lock that is held is held by a call of the same process, and all calls of
  all processes come to an end.
-/

namespace NoraFleet.Persistence

open Base Base.Program

/-- A parser that works on a variable of the process, one atomic step after the other. What it gives
may be an error. -/
structure Parser (Global PState Input Result : Type*) where
  begin : Input → PState
  step : Global → PState → Global × (PState ⊕ Result)

section Parsing

variable {Global PState Input Result : Type*} (parser : Parser Global PState Input Result)

/-- So many steps with nothing else running. -/
def Parser.alone : Nat → Global → PState ⊕ Result → Global × (PState ⊕ Result)
  | _, g, .inr result => (g, .inr result)
  | 0, g, .inl p => (g, .inl p)
  | n + 1, g, .inl p => Parser.alone n (parser.step g p).1 (parser.step g p).2

/-- What a parse gives when nothing else runs; the variable is as it was. -/
def Parser.GivesAlone (default : Global) (input : Input) (result : Result) : Prop :=
  ∃ n, parser.alone n default (.inl (parser.begin input)) = (default, .inr result)

/-- A parser that comes to an end and puts the variable back, whatever it is given. -/
def Parser.Tidy (default : Global) : Prop :=
  ∀ input, ∃ result, parser.GivesAlone default input result

/-! ## Processes -/

/-- A process: whether `HoconParseLock.lock` is held, and the variable. -/
structure ParseProcess (Global : Type*) where
  locked : Bool
  global : Global

/-- What is called: a restoration of a file, or a fork. -/
inductive ParseOp (Input : Type*) where
  | parse (input : Input)
  | fork

/-- Where a call stands. -/
inductive ParseCall (PState Input Result : Type*) where
  -- `__enter__`: `lock.acquire()`
  | enter (input : Input)
  -- `serialization.to_object(bytes_file)`
  | parse (input : Input) (p : PState)
  -- `__exit__`: `lock.release()`
  | leave (input : Input) (result : Result)
  | parsed (input : Input) (result : Result)
  -- `register_at_fork(before=lock.acquire, after_in_parent=lock.release,
  -- after_in_child=lock._at_fork_reinit)`
  | before
  | fork
  | afterInParent
  | afterInChild
  | forked

namespace ParseCall

/-- The call has the lock. -/
def holds : ParseCall PState Input Result → Bool
  | .parse .. | .leave .. | .fork | .afterInParent | .afterInChild => true
  | .enter _ | .parsed .. | .before | .forked => false

/-- The call is at its end. -/
def Ended : ParseCall PState Input Result → Prop
  | .parsed .. | .forked => True
  | _ => False

end ParseCall

/-- Where a call starts. -/
def startCall : ParseOp Input → ParseCall PState Input Result
  | .parse input => .enter input
  | .fork => .before

/-- One atomic step of a call. -/
def stepCall (s : ParseProcess Global) :
    ParseCall PState Input Result → Option (ParseProcess Global × ParseCall PState Input Result)
  | .enter input =>
      if s.locked then none else some ({ s with locked := true }, .parse input (parser.begin input))
  | .parse input p =>
      match parser.step s.global p with
      | (global, .inl p) => some ({ s with global := global }, .parse input p)
      | (global, .inr result) => some ({ s with global := global }, .leave input result)
  | .leave input result => some ({ s with locked := false }, .parsed input result)
  | .before => if s.locked then none else some ({ s with locked := true }, .fork)
  | .afterInParent => some ({ s with locked := false }, .forked)
  | .afterInChild => some ({ s with locked := false }, .forked)
  | .parsed .. | .fork | .forked => none

/-- Parses and forks. -/
def parseProgram :
    Program (ParseProcess Global) (ParseOp Input) (ParseCall PState Input Result) Unit Empty where
  start := startCall
  step _ := stepCall parser
  env _ _ := none

/-- `os.fork()`. -/
def forkCall : Fork (ParseCall PState Input Result)
  | .fork => some (.afterInParent, .afterInChild)
  | _ => none

/-- A process at its start. -/
def freshProcess (default : Global) : ParseProcess Global := ⟨false, default⟩

/-! ## What a parse gives -/

variable {parser} {default : Global}

/-- A parse that has ended gives the same after more steps. -/
theorem Parser.alone_add {n : Nat} {g g' : Global} {x : PState ⊕ Result} {result : Result}
    (h : parser.alone n g x = (g', .inr result)) (more : Nat) :
    parser.alone (n + more) g x = (g', .inr result) := by
  induction n generalizing g x with
  | zero =>
      cases x with
      | inl p => cases h
      | inr given =>
          cases more <;> exact h
  | succ n ih =>
      cases x with
      | inl p =>
          rw [Nat.succ_add]
          exact ih h
      | inr given =>
          rw [Nat.succ_add]
          exact h

/-- A parse gives one result. -/
theorem Parser.GivesAlone.unique {input : Input} {result other : Result}
    (h : parser.GivesAlone default input result) (h' : parser.GivesAlone default input other) :
    result = other := by
  obtain ⟨n, hn⟩ := h
  obtain ⟨m, hm⟩ := h'
  have hfirst := Parser.alone_add hn m
  rw [Nat.add_comm, Parser.alone_add hm n] at hfirst
  exact (Sum.inr.inj (Prod.mk.inj hfirst).2).symm

/-- One step on, of a parse that is not at its end. -/
theorem Parser.alone_step {n : Nat} {g : Global} {p : PState} {result : Result}
    (h : parser.alone n g (.inl p) = (default, .inr result)) :
    ∃ m, n = m + 1 ∧
      parser.alone m (parser.step g p).1 (parser.step g p).2 = (default, .inr result) := by
  cases n with
  | zero => cases h
  | succ m => exact ⟨m, rfl, h⟩

/-- How many steps a parse has left. -/
noncomputable def remaining (parser : Parser Global PState Input Result) (default g : Global)
    (p : PState) : Nat :=
  sInf { n | ∃ result, parser.alone n g (.inl p) = (default, .inr result) }

theorem remaining_lt {n : Nat} {g g' : Global} {p p' : PState} {result : Result}
    (h : parser.alone n g (.inl p) = (default, .inr result))
    (hstep : parser.step g p = (g', .inl p')) :
    remaining parser default g' p' < remaining parser default g p := by
  unfold remaining
  obtain ⟨found, hfound⟩ := Nat.sInf_mem (s := { n | ∃ result,
    parser.alone n g (.inl p) = (default, .inr result) }) ⟨n, result, h⟩
  obtain ⟨m, hm, hrest⟩ := Parser.alone_step hfound
  rw [hstep] at hrest
  have hle : sInf { n | ∃ result, parser.alone n g' (.inl p') = (default, .inr result) } ≤ m :=
    Nat.sInf_le ⟨found, hrest⟩
  omega

/-! ## The outline -/

/-- While nobody has the lock, the variable is as it was at first. -/
def Default (default : Global) (s : ParseProcess Global) : Prop :=
  s.locked = false → s.global = default

/-- What holds where a call stands. A parse that goes on alone from here puts the variable back. -/
def Stands (parser : Parser Global PState Input Result) (default : Global)
    (s : ParseProcess Global) : ParseCall PState Input Result → Prop
  | .parse input p => s.locked = true ∧ ∃ n result,
      parser.alone n s.global (.inl p) = (default, .inr result) ∧
        parser.GivesAlone default input result
  | .leave input result => s.global = default ∧ parser.GivesAlone default input result
  | .parsed input result => parser.GivesAlone default input result
  | .fork | .afterInParent | .afterInChild => s.global = default
  | .enter _ | .before | .forked => True

theorem Stands.of_not_holds {s s' : ParseProcess Global} {k : ParseCall PState Input Result}
    (h : Stands parser default s k) (hholds : k.holds = false) : Stands parser default s' k := by
  cases k with
  | parse input p => cases hholds
  | leave input result => cases hholds
  | fork => cases hholds
  | afterInParent => cases hholds
  | afterInChild => cases hholds
  | _ => exact h

/-- What one step can do. -/
theorem stepCall_cases {s s' : ParseProcess Global}
    {l l' : ParseCall PState Input Result} (h : stepCall parser s l = some (s', l')) :
    (s.locked = false ∧ s' = ⟨true, s.global⟩ ∧ ((∃ input, l = .enter input ∧
        l' = .parse input (parser.begin input)) ∨ (l = .before ∧ l' = .fork))) ∨
      (∃ input p, l = .parse input p ∧ s' = ⟨s.locked, (parser.step s.global p).1⟩ ∧
        ((∃ p', (parser.step s.global p).2 = .inl p' ∧ l' = .parse input p') ∨
          ∃ result, (parser.step s.global p).2 = .inr result ∧ l' = .leave input result)) ∨
      (s' = ⟨false, s.global⟩ ∧ ((∃ input result, l = .leave input result ∧
        l' = .parsed input result) ∨
          ((l = .afterInParent ∨ l = .afterInChild) ∧ l' = .forked))) := by
  unfold stepCall at h
  cases l with
  | enter input =>
      rcases hlocked : s.locked with _ | _
      · dsimp only at h
        rw [hlocked, if_neg (by simp)] at h
        obtain ⟨rfl, rfl⟩ := Prod.mk.inj (Option.some.inj h)
        exact .inl ⟨rfl, rfl, .inl ⟨input, rfl, rfl⟩⟩
      · dsimp only at h
        rw [hlocked, if_pos rfl] at h
        cases h
  | parse input p =>
      refine .inr (.inl ⟨input, p, rfl, ?_⟩)
      dsimp only at h
      rcases hstep : parser.step s.global p with ⟨global, p' | result⟩
      · rw [hstep] at h
        obtain ⟨rfl, rfl⟩ := Prod.mk.inj (Option.some.inj h)
        exact ⟨rfl, .inl ⟨p', rfl, rfl⟩⟩
      · rw [hstep] at h
        obtain ⟨rfl, rfl⟩ := Prod.mk.inj (Option.some.inj h)
        exact ⟨rfl, .inr ⟨result, rfl, rfl⟩⟩
  | leave input result =>
      obtain ⟨rfl, rfl⟩ := Prod.mk.inj (Option.some.inj h)
      exact .inr (.inr ⟨rfl, .inl ⟨input, result, rfl, rfl⟩⟩)
  | before =>
      rcases hlocked : s.locked with _ | _
      · dsimp only at h
        rw [hlocked, if_neg (by simp)] at h
        obtain ⟨rfl, rfl⟩ := Prod.mk.inj (Option.some.inj h)
        exact .inl ⟨rfl, rfl, .inr ⟨rfl, rfl⟩⟩
      · dsimp only at h
        rw [hlocked, if_pos rfl] at h
        cases h
  | afterInParent =>
      obtain ⟨rfl, rfl⟩ := Prod.mk.inj (Option.some.inj h)
      exact .inr (.inr ⟨rfl, .inr ⟨.inl rfl, rfl⟩⟩)
  | afterInChild =>
      obtain ⟨rfl, rfl⟩ := Prod.mk.inj (Option.some.inj h)
      exact .inr (.inr ⟨rfl, .inr ⟨.inr rfl, rfl⟩⟩)
  | parsed input result => cases h
  | fork => cases h
  | forked => cases h

/-- A step takes the lock while it is free, keeps it, or gives it back. -/
theorem stepCall_lockStep {s s' : ParseProcess Global}
    {l l' : ParseCall PState Input Result} (h : stepCall parser s l = some (s', l')) :
    LockStep ParseProcess.locked ParseCall.holds s l s' l' := by
  rcases stepCall_cases h with ⟨hfree, rfl, hcall⟩ | ⟨input, p, rfl, rfl, hcall⟩ | ⟨rfl, hcall⟩
  · rcases hcall with ⟨input, rfl, rfl⟩ | ⟨rfl, rfl⟩
    · exact .take hfree rfl rfl rfl
    · exact .take hfree rfl rfl rfl
  · rcases hcall with ⟨p', -, rfl⟩ | ⟨result, -, rfl⟩
    · exact .keep rfl rfl
    · exact .keep rfl rfl
  · rcases hcall with ⟨input, result, rfl, rfl⟩ | ⟨rfl | rfl, rfl⟩
    · exact .giveBack rfl rfl rfl
    · exact .giveBack rfl rfl rfl
    · exact .giveBack rfl rfl rfl

/-- What a step leaves behind. -/
theorem stands_step (htidy : parser.Tidy default) {s s' : ParseProcess Global}
    {l l' : ParseCall PState Input Result} (hs : Default default s)
    (hl : Stands parser default s l) (h : stepCall parser s l = some (s', l')) :
    Default default s' ∧ Stands parser default s' l' := by
  rcases stepCall_cases h with ⟨hfree, rfl, hcall⟩ | ⟨input, p, rfl, rfl, hcall⟩ | ⟨rfl, hcall⟩
  · have hglobal := hs hfree
    refine ⟨fun hfree' => ?_, ?_⟩
    · cases hfree'
    · rcases hcall with ⟨input, rfl, rfl⟩ | ⟨rfl, rfl⟩
      · obtain ⟨result, n, hn⟩ := htidy input
        refine ⟨rfl, n, result, ?_, n, hn⟩
        dsimp only
        rwa [hglobal]
      · exact hglobal
  · obtain ⟨hlocked, n, result, hn, hgives⟩ := hl
    obtain ⟨m, -, hrest⟩ := Parser.alone_step hn
    refine ⟨fun hfree => ?_, ?_⟩
    · dsimp only at hfree
      rw [hlocked] at hfree
      cases hfree
    · rcases hcall with ⟨p', hp', rfl⟩ | ⟨given, hgiven, rfl⟩
      · rw [hp'] at hrest
        exact ⟨hlocked, m, result, hrest, hgives⟩
      · -- the parse is at its end
        rw [hgiven] at hrest
        have hend : parser.alone m (parser.step s.global p).1 (.inr given) =
            ((parser.step s.global p).1, .inr given) := by
          cases m <;> rfl
        rw [hend] at hrest
        obtain ⟨hglobal, hresult⟩ := Prod.mk.inj hrest
        obtain rfl := Sum.inr.inj hresult
        exact ⟨hglobal, hgives⟩
  · rcases hcall with ⟨input, result, rfl, rfl⟩ | ⟨rfl | rfl, rfl⟩
    · exact ⟨fun _ => hl.1, hl.2⟩
    · exact ⟨fun _ => hl, trivial⟩
    · exact ⟨fun _ => hl, trivial⟩

theorem holds_of_step {s s' : ParseProcess Global} {l l' : ParseCall PState Input Result}
    (hlocked : s.locked = true) (h : stepCall parser s l = some (s', l')) : l.holds = true := by
  rcases stepCall_cases h with ⟨hfree, -, -⟩ | ⟨input, p, rfl, -, -⟩ | ⟨-, hcall⟩
  · rw [hlocked] at hfree
    cases hfree
  · rfl
  · rcases hcall with ⟨input, result, rfl, -⟩ | ⟨rfl | rfl, -⟩ <;> rfl

/-- The outline of parses and forks. -/
theorem parse_outline (htidy : parser.Tidy default) :
    ForkOutline (parseProgram parser) forkCall (freshProcess default) ParseProcess.locked
      ParseCall.holds (Default default) (Stands parser default) where
  free := rfl
  startsWithout op := by cases op <;> rfl
  lockStep := stepCall_lockStep
  lockEnv h := by cases h
  init _ := rfl
  start s op _ := by cases op <;> trivial
  step hs hl _ h := stands_step htidy hs hl h
  interfere := by
    intro ch s l s' l' k _ _ hk hother hlock _ h
    rcases hholds : k.holds with _ | _
    · exact hk.of_not_holds hholds
    · -- the call that steps would have the lock, too
      have hstep : stepCall parser s l = some (s', l') := h
      have hboth := hother (holds_of_step (hlock hholds) hstep)
      rw [hholds] at hboth
      cases hboth
  env _ h := by cases h
  envStable _ _ h := by cases h
  forkHeld := by
    intro l l' m h
    cases l with
    | fork =>
        obtain ⟨rfl, rfl⟩ := Prod.mk.inj (Option.some.inj h)
        exact ⟨rfl, rfl, rfl⟩
    | _ => cases h
  fork := by
    intro s l l' m _ hl h
    cases l with
    | fork =>
        obtain ⟨rfl, rfl⟩ := Prod.mk.inj (Option.some.inj h)
        exact ⟨hl, hl⟩
    | _ => cases h

/-- **Parses do not get in each other's way.** In every process of every family, one call
at most has the lock, and every parse that has ended gave what it gives when nothing else
runs. -/
theorem parse_isolated (htidy : parser.Tidy default)
    {processes : List (Config (ParseProcess Global) (ParseCall PState Input Result))}
    (hr : Family (parseProgram parser) forkCall (freshProcess default) processes) :
    ∀ process ∈ processes,
      (∀ (i j : Nat) (l k : ParseCall PState Input Result), process.calls[i]? = some l →
        process.calls[j]? = some k → l.holds = true → k.holds = true → i = j) ∧
      (process.shared.locked = false → process.shared.global = default) ∧
      ∀ input result, .parsed input result ∈ process.calls →
        parser.GivesAlone default input result := by
  intro process hprocess
  obtain ⟨hdefault, hstands, hexclusive⟩ := (parse_outline htidy).sound hr process hprocess
  exact ⟨hexclusive.alone, hdefault, fun input result hmem => hstands _ hmem⟩

/-! ## Everything ends -/

/-- What a call has left to do. -/
noncomputable def weight (parser : Parser Global PState Input Result) (default : Global)
    (s : ParseProcess Global) : ParseCall PState Input Result → Nat
  | .enter input => remaining parser default default (parser.begin input) + 3
  | .parse _ p => remaining parser default s.global p + 2
  | .before => 4
  | .fork => 3
  | .leave .. | .afterInParent | .afterInChild => 1
  | .parsed .. | .forked => 0

/-- Every step leaves its call less to do. -/
theorem parse_measured : Measured (parseProgram parser) forkCall ParseCall.holds (Default default)
    (Stands parser default) (weight parser default) where
  step := by
    intro ch s l s' l' hs hl h
    rcases stepCall_cases h with ⟨hfree, rfl, hcall⟩ | ⟨input, p, rfl, rfl, hcall⟩ | ⟨rfl, hcall⟩
    · have hglobal := hs hfree
      rcases hcall with ⟨input, rfl, rfl⟩ | ⟨rfl, rfl⟩
      · show remaining parser default s.global _ + 2 < remaining parser default default _ + 3
        rw [hglobal]
        omega
      · show 3 < 4
        omega
    · obtain ⟨-, n, result, hn, -⟩ := hl
      rcases hcall with ⟨p', hp', rfl⟩ | ⟨given, -, rfl⟩
      · have hstep : parser.step s.global p = ((parser.step s.global p).1, .inl p') :=
          Prod.ext rfl hp'
        have hless := remaining_lt hn hstep
        show remaining parser default (parser.step s.global p).1 p' + 2 <
          remaining parser default s.global p + 2
        omega
      · show 1 < remaining parser default s.global p + 2
        omega
    · rcases hcall with ⟨input, result, rfl, rfl⟩ | ⟨rfl | rfl, rfl⟩ <;> exact Nat.one_pos
  others := by
    intro ch s l s' l' k _ _ hk hother h
    cases k with
    | parse input p =>
        -- it has the lock, so nobody else takes a step
        have hstep : stepCall parser s l = some (s', l') := h
        have hboth := hother (holds_of_step hk.1 hstep)
        cases hboth
    | _ => exact Nat.le_refl _
  fork := by
    intro s l l' m _ _ h
    cases l with
    | fork =>
        obtain ⟨rfl, rfl⟩ := Prod.mk.inj (Option.some.inj h)
        show 1 + 1 < 3
        omega
    | _ => cases h

/-- A call that is not at its end can go on, or waits for the lock. -/
theorem exists_step (s : ParseProcess Global) (l : ParseCall PState Input Result) (h : ¬l.Ended) :
    (∃ ch s' l', (parseProgram parser).step ch s l = some (s', l')) ∨
      (∃ l' m, forkCall l = some (l', m)) ∨ (s.locked = true ∧ l.holds = false) := by
  cases l with
  | enter input =>
      rcases hlocked : s.locked with _ | _
      · refine .inl ⟨(), ⟨true, s.global⟩, .parse input (parser.begin input), ?_⟩
        unfold parseProgram stepCall
        dsimp only
        rw [hlocked, if_neg (by simp)]
      · exact .inr (.inr ⟨rfl, rfl⟩)
  | parse input p =>
      refine .inl ⟨(), ?_⟩
      unfold parseProgram stepCall
      dsimp only
      rcases parser.step s.global p with ⟨global, p' | result⟩
      · exact ⟨_, _, rfl⟩
      · exact ⟨_, _, rfl⟩
  | before =>
      rcases hlocked : s.locked with _ | _
      · refine .inl ⟨(), ⟨true, s.global⟩, .fork, ?_⟩
        unfold parseProgram stepCall
        dsimp only
        rw [hlocked, if_neg (by simp)]
      · exact .inr (.inr ⟨rfl, rfl⟩)
  | leave input result => exact .inl ⟨(), _, _, rfl⟩
  | afterInParent => exact .inl ⟨(), _, _, rfl⟩
  | afterInChild => exact .inl ⟨(), _, _, rfl⟩
  | fork => exact .inr (.inl ⟨_, _, rfl⟩)
  | parsed input result => exact absurd trivial h
  | forked => exact absurd trivial h

/-- **No lock is orphaned.** In every process of every family, a lock that is held is held by a call
of that process; while a call is not at its end, some call of its process can go on; and without new
calls, the family takes no more than so many steps. -/
theorem no_lock_orphaned (htidy : parser.Tidy default)
    {processes : List (Config (ParseProcess Global) (ParseCall PState Input Result))}
    (hr : Family (parseProgram parser) forkCall (freshProcess default) processes) :
    (∀ process ∈ processes,
      (process.shared.locked = true → ∃ l ∈ process.calls, l.holds = true) ∧
      ∀ l ∈ process.calls, ¬l.Ended → ∃ m ∈ process.calls,
        (∃ ch s' m', (parseProgram parser).step ch process.shared m = some (s', m')) ∨
          ∃ m' child, forkCall m = some (m', child)) ∧
    ∃ bound, ∀ n later, FamilySteps (parseProgram parser) forkCall n processes later →
      n ≤ bound := by
  refine ⟨fun process hprocess => ?_, _, fun n later hsteps =>
    parse_measured.le_total (parse_outline htidy) hr hsteps⟩
  obtain ⟨-, -, hexclusive⟩ := (parse_outline htidy).sound hr process hprocess
  refine ⟨hexclusive.held, fun l hl hended => ?_⟩
  refine hexclusive.exists_next (fun k hk hended' => ?_)
    (fun k _ hk => exists_step process.shared k hk) hl hended
  cases k with
  | parsed input result => cases hk
  | forked => cases hk
  | _ => exact hended'

end Parsing

/-! ## A parser of that kind -/

/-- Where a parse stands that sets the variable, makes its grammar, and puts the variable back. -/
inductive GrammarState where
  | start
  | building (saved : Nat)
  | restoring (saved captured : Nat)

/-- What it gives is the white space that its grammar has. -/
def grammarParser : Parser Nat GrammarState Unit Nat where
  begin _ := .start
  step
    | g, .start => (1, .inl (.building g))
    | g, .building saved => (g, .inl (.restoring saved g))
    | _, .restoring saved captured => (saved, .inr captured)

theorem grammarParser_tidy : grammarParser.Tidy 0 := fun _ => ⟨1, 3, rfl⟩

/-- A process that forks after a parse, and its child. -/
def twoProcesses : List (Config (ParseProcess Nat) (ParseCall GrammarState Unit Nat)) :=
  [⟨⟨true, 0⟩, [.parsed () 1, .afterInParent]⟩, ⟨⟨true, 0⟩, [.afterInChild]⟩]

theorem family_twoProcesses :
    Family (parseProgram grammarParser) forkCall (freshProcess 0) twoProcesses := by
  have hrun : Reach (parseProgram grammarParser) anyStep (freshProcess 0)
      ⟨⟨true, 0⟩, [.parsed () 1, .fork]⟩ := by
    have hschedule : runSchedule (parseProgram grammarParser) anyStep ⟨freshProcess 0, []⟩
        [.call (.parse ()), .call .fork, .run 0 (), .run 0 (), .run 0 (), .run 0 (), .run 0 (),
          .run 1 ()] = some ⟨⟨true, 0⟩, [.parsed () 1, .fork]⟩ := rfl
    exact reach_of_run .init hschedule
  have hc : [(⟨⟨true, 0⟩, [.parsed () 1, .fork]⟩ :
      Config (ParseProcess Nat) (ParseCall GrammarState Unit Nat))][0]? = some _ := rfl
  have hl : [(.parsed () 1 : ParseCall GrammarState Unit Nat), .fork][1]? = some .fork := rfl
  exact .step (.of_reach (fun _ _ => rfl) hrun) (.fork hc hl rfl)

theorem parse_isolated_twoProcesses : grammarParser.GivesAlone 0 () 1 :=
  (parse_isolated grammarParser_tidy family_twoProcesses _ List.mem_cons_self).2.2 () 1
    List.mem_cons_self

theorem no_lock_orphaned_twoProcesses :
    ∃ bound, ∀ n later, FamilySteps (parseProgram grammarParser) forkCall n twoProcesses later →
      n ≤ bound :=
  (no_lock_orphaned grammarParser_tidy family_twoProcesses).2

end NoraFleet.Persistence
