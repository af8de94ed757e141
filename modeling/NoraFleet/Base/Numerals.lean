import Mathlib
import NoraFleet.Base.Json
import NoraFleet.Base.Shortest

/-!
# Numerals

How integers and doubles are written, `repr` of either, and that `json.loads`
reads them back.

* `run_numeralText` — a numeral is read digit by digit;
* `readsIn_reprInt`, `readsIn_reprFloat` — what is written for a number is read
  as that number.
-/

namespace Base

/-! ## Writing -/

/-- Digits as characters. -/
def digitsText (digits : List Nat) : PyStr := digits.map (48 + ·)

/-- The digits of an exponent: two of them at least. -/
def exponentDigits (n : Nat) : List Nat := if n < 10 then [0, n] else digitsOf n

/-- A numeral of these digits before and after the point, and this exponent. -/
def numeralText (negative : Bool) (ints fracs : List Nat) (exponent : Option ℤ) : PyStr :=
  (if negative then [45] else []) ++ digitsText ints ++
    (if fracs = [] then [] else 46 :: digitsText fracs) ++
    (match exponent with
      | none => []
      | some e => 101 :: (if e < 0 then 45 else 43) :: digitsText (exponentDigits e.natAbs))

/-- `int.__repr__(n)`; `none` is the `ValueError` of too many digits. -/
def reprInt (n : ℤ) : Option PyStr :=
  if Json.maxStrDigits < (digitsOf n.natAbs).length then none
  else some (numeralText (n < 0) (digitsOf n.natAbs) [] none)

/-- Drop the zeros at the end. -/
def dropZeros (digits : List Nat) : List Nat := digits.rdropWhile (· = 0)

/-- A decimal of these digits, with the point after `point` of them. -/
def decimalText (negative : Bool) (digits : List Nat) (point : ℤ) : PyStr :=
  if point ≤ -4 ∨ 16 < point then
    numeralText negative (digits.take 1) (digits.drop 1) (some (point - 1))
  else if point ≤ 0 then
    numeralText negative [0] (List.replicate (-point).toNat 0 ++ digits) none
  else if digits.length ≤ point.toNat then
    numeralText negative (digits ++ List.replicate (point.toNat - digits.length) 0) [0] none
  else numeralText negative (digits.take point.toNat) (digits.drop point.toNat) none

/-- `float.__repr__(x)` of a finite double. -/
def reprFloat (q : ℚ) : PyStr :=
  if q = 0 then numeralText false [0] [0] none
  else
    let d := shortestDecimal q
    let digits := digitsOf d.units
    decimalText d.negative (dropZeros digits) (digits.length + d.exponent)

example : reprFloat (5 / 2) = str "2.5" := by decide +kernel

namespace Json

/-! ## Reading on -/

/-- One character, and what follows. -/
theorem run_cons {limit : Nat} {reader between : Reader} {c : Nat} (rest : PyStr)
    (h : step limit reader c = .ok between) :
    run limit reader (c :: rest) = run limit between rest := by
  simp only [run, h]

/-- The characters of a text, one part after the other. -/
theorem run_append {limit : Nat} {reader between : Reader} {first : PyStr} (rest : PyStr)
    (h : run limit reader first = .ok between) :
    run limit reader (first ++ rest) = run limit between rest := by
  induction first generalizing reader with
  | nil =>
      obtain rfl := Except.ok.inj h
      rfl
  | cons c first ih =>
      cases hstep : step limit reader c with
      | error e =>
          unfold run at h
          rw [hstep] at h
          cases h
      | ok reader' =>
          rw [run_cons first hstep] at h
          rw [List.cons_append, run_cons _ hstep]
          exact ih h

/-- A numeral can end here. -/
def Numeral.Ends (n : Numeral) : Prop :=
  n.phase = .zero ∨ n.phase = .int ∨ n.phase = .frac ∨ n.phase = .exp

/-- The reader is at the end of a value: back in the container around it, or in
a numeral that can end. -/
inductive HasRead (stack : List Frame) (v : Json) : Reader → Prop
  | finished : HasRead stack v (finish v stack)
  | numeral (n : Numeral) : n.Ends → n.value = .ok v → HasRead stack v ⟨.numeral n, stack⟩

/-- A character that no numeral goes on with. -/
def isDelimiter (c : Nat) : Bool := (asciiDigit c).isNone && c ≠ 46 && c ≠ 101 && c ≠ 69

theorem step_finish (limit c : Nat) (v : Json) (stack : List Frame) :
    step limit (finish v stack) c = stepAfter c (finish v stack) := by
  cases stack with
  | nil => rfl
  | cons frame stack => cases frame <;> rfl

/-- A character that no numeral goes on with ends the value. -/
theorem HasRead.step_delimiter {stack : List Frame} {v : Json} {reader : Reader}
    (h : HasRead stack v reader) (limit : Nat) {c : Nat} (hc : isDelimiter c = true) :
    step limit reader c = stepAfter c (finish v stack) := by
  cases h with
  | finished => exact step_finish limit c v stack
  | numeral n hends hvalue =>
      simp only [isDelimiter, Bool.and_eq_true, Option.isNone_iff_eq_none, ne_eq, decide_not,
        Bool.not_eq_true', decide_eq_false_iff_not] at hc
      obtain ⟨⟨⟨hdigit, hpoint⟩, hmark⟩, hMark⟩ := hc
      have hend : endNumeral n c stack = stepAfter c (finish v stack) := by
        unfold endNumeral
        rw [hvalue]
      show stepNumeral n c stack = _
      rw [← hend]
      unfold stepNumeral
      rcases hends with hphase | hphase | hphase | hphase <;>
      · simp [hphase, hdigit, hpoint, hmark, hMark]

theorem HasRead.close_eq {v : Json} {reader : Reader} (h : HasRead [] v reader) :
    close reader = .ok v := by
  cases h with
  | finished => rfl
  | numeral n hends hvalue =>
      unfold close
      rcases hends with hphase | hphase | hphase | hphase <;>
      · simp only [hphase, hvalue]

/-- The text begins a value: it has no blank in front, and closes no list. -/
def BeginsValue (text : PyStr) : Prop :=
  ∃ c rest, text = c :: rest ∧ isWs c = false ∧ c ≠ 93 ∧ c < 128

/-- In these containers, the text is read as the value. -/
structure ReadsIn (limit : Nat) (stack : List Frame) (v : Json) (text : PyStr) : Prop where
  begins : BeginsValue text
  read : ∃ reader, run limit ⟨.value, stack⟩ text = .ok reader ∧ HasRead stack v reader

/-! ## Reading digits -/

/-- One more digit of a numeral that has one, or may have one. -/
def Numeral.push (n : Numeral) (d : Nat) : Numeral :=
  match n.phase with
  | .minus => n
  | .zero => n
  | .int => { n with ints := n.ints ++ [d] }
  | .point | .frac => { n with phase := .frac, fracs := n.fracs ++ [d] }
  | .e | .esign | .exp => { n with phase := .exp, exps := n.exps ++ [d] }

theorem asciiDigit_digit {d : Nat} (hd : d < 10) : asciiDigit (48 + d) = some d := by
  unfold asciiDigit
  rw [if_pos ⟨by omega, by omega⟩, Nat.add_sub_cancel_left]

theorem push_phase {n : Numeral} (d : Nat) (hminus : n.phase ≠ .minus) (hzero : n.phase ≠ .zero) :
    (n.push d).phase ≠ .minus ∧ (n.push d).phase ≠ .zero := by
  unfold Numeral.push
  cases hphase : n.phase <;> simp_all

theorem stepNumeral_digit {n : Numeral} {d : Nat} (hd : d < 10) (stack : List Frame)
    (hminus : n.phase ≠ .minus) (hzero : n.phase ≠ .zero) :
    stepNumeral n (48 + d) stack = .ok ⟨.numeral (n.push d), stack⟩ := by
  unfold stepNumeral Numeral.push
  rw [asciiDigit_digit hd]
  cases hphase : n.phase with
  | minus => exact absurd hphase hminus
  | zero => exact absurd hphase hzero
  | _ => rfl

theorem run_digits {limit : Nat} {stack : List Frame} {digits : List Nat}
    (hdigits : ∀ d ∈ digits, d < 10) {n : Numeral} (hminus : n.phase ≠ .minus)
    (hzero : n.phase ≠ .zero) :
    run limit ⟨.numeral n, stack⟩ (digitsText digits) =
      .ok ⟨.numeral (digits.foldl Numeral.push n), stack⟩ := by
  induction digits generalizing n with
  | nil => rfl
  | cons d rest ih =>
      obtain ⟨hminus', hzero'⟩ := push_phase d hminus hzero
      have hstep : step limit ⟨.numeral n, stack⟩ (48 + d) = .ok ⟨.numeral (n.push d), stack⟩ :=
        stepNumeral_digit (hdigits d List.mem_cons_self) stack hminus hzero
      exact (run_cons _ hstep).trans
        (ih (fun e he => hdigits e (List.mem_cons_of_mem _ he)) hminus' hzero')

theorem foldl_push_int {n : Numeral} (hphase : n.phase = .int) (digits : List Nat) :
    digits.foldl Numeral.push n = { n with ints := n.ints ++ digits } := by
  induction digits generalizing n with
  | nil => rw [List.append_nil, List.foldl_nil]
  | cons d rest ih =>
      have hpush : n.push d = { n with ints := n.ints ++ [d] } := by
        unfold Numeral.push
        rw [hphase]
      rw [List.foldl_cons, hpush, ih (by exact hphase), List.append_assoc]
      rfl

theorem foldl_push_frac {n : Numeral} (hphase : n.phase = .frac) (digits : List Nat) :
    digits.foldl Numeral.push n = { n with fracs := n.fracs ++ digits } := by
  induction digits generalizing n with
  | nil => rw [List.append_nil, List.foldl_nil]
  | cons d rest ih =>
      have hpush : n.push d = { n with fracs := n.fracs ++ [d] } := by
        unfold Numeral.push
        rw [hphase]
      rw [List.foldl_cons, hpush, ih (by exact hphase), List.append_assoc]
      rfl

theorem foldl_push_exp {n : Numeral} (hphase : n.phase = .exp) (digits : List Nat) :
    digits.foldl Numeral.push n = { n with exps := n.exps ++ digits } := by
  induction digits generalizing n with
  | nil => rw [List.append_nil, List.foldl_nil]
  | cons d rest ih =>
      have hpush : n.push d = { n with exps := n.exps ++ [d] } := by
        unfold Numeral.push
        rw [hphase]
      rw [List.foldl_cons, hpush, ih (by exact hphase), List.append_assoc]
      rfl

/-! ## Reading a numeral -/

/-- The digits before a point: a single zero, or digits that begin with none. -/
def IsIntegerPart (ints : List Nat) : Prop :=
  (∀ d ∈ ints, d < 10) ∧ (ints = [0] ∨ ∃ d rest, ints = (d + 1) :: rest)

/-- A numeral begins a value. -/
theorem beginsValue_numeralText (negative : Bool) {ints : List Nat} (h : IsIntegerPart ints)
    (fracs : List Nat) (exponent : Option ℤ) :
    BeginsValue (numeralText negative ints fracs exponent) := by
  obtain ⟨hdigits, hfirst⟩ := h
  have hcons : ∃ d rest, ints = d :: rest ∧ d < 10 := by
    rcases hfirst with rfl | ⟨d, rest, rfl⟩
    · exact ⟨0, [], rfl, by omega⟩
    · exact ⟨d + 1, rest, rfl, hdigits _ List.mem_cons_self⟩
  obtain ⟨d, rest, rfl, hd⟩ := hcons
  unfold numeralText
  cases negative with
  | true => exact ⟨45, _, rfl, rfl, by omega, by omega⟩
  | false =>
      refine ⟨48 + d, _, rfl, ?_, by omega, by omega⟩
      unfold isWs
      simp only [Bool.or_eq_false_iff, decide_eq_false_iff_not]
      omega

/-- The sign and the first digit. -/
theorem run_firstDigit (limit : Nat) (stack : List Frame) (negative : Bool) {d : Nat}
    (hd : d < 10) :
    run limit ⟨.value, stack⟩ ((if negative then [45] else []) ++ [48 + d]) =
      .ok ⟨.numeral ⟨if d = 0 then .zero else .int, negative, [d], [], false, []⟩, stack⟩ := by
  have hcases : d = 0 ∨ d = 1 ∨ d = 2 ∨ d = 3 ∨ d = 4 ∨ d = 5 ∨ d = 6 ∨ d = 7 ∨ d = 8 ∨
      d = 9 := by omega
  rcases hcases with rfl | rfl | rfl | rfl | rfl | rfl | rfl | rfl | rfl | rfl <;>
  · cases negative <;> rfl

/-- The digits before the point. -/
theorem run_ints (limit : Nat) (stack : List Frame) (negative : Bool) {ints : List Nat}
    (h : IsIntegerPart ints) :
    ∃ phase, (phase = .zero ∨ phase = .int) ∧
      run limit ⟨.value, stack⟩ ((if negative then [45] else []) ++ digitsText ints) =
        .ok ⟨.numeral ⟨phase, negative, ints, [], false, []⟩, stack⟩ := by
  obtain ⟨hdigits, rfl | ⟨d, rest, rfl⟩⟩ := h
  · exact ⟨.zero, .inl rfl, run_firstDigit limit stack negative (by omega)⟩
  · refine ⟨.int, .inr rfl, ?_⟩
    have hfirst := run_firstDigit limit stack negative (hdigits (d + 1) List.mem_cons_self)
    rw [if_neg (Nat.succ_ne_zero d)] at hfirst
    have htext : digitsText ((d + 1) :: rest) = [48 + (d + 1)] ++ digitsText rest := rfl
    rw [htext, ← List.append_assoc, run_append _ hfirst,
      run_digits (fun e he => hdigits e (List.mem_cons_of_mem _ he)) (by simp) (by simp),
      foldl_push_int rfl]
    rfl

/-- The point, and digits after it. -/
theorem run_fracs (limit : Nat) (stack : List Frame) {phase : Phase}
    (hphase : phase = .zero ∨ phase = .int) (negative : Bool) (ints : List Nat)
    {fracs : List Nat} (hfracs : fracs ≠ []) (hdigits : ∀ d ∈ fracs, d < 10) :
    run limit ⟨.numeral ⟨phase, negative, ints, [], false, []⟩, stack⟩ (46 :: digitsText fracs) =
      .ok ⟨.numeral ⟨.frac, negative, ints, fracs, false, []⟩, stack⟩ := by
  have hpoint : step limit ⟨.numeral ⟨phase, negative, ints, [], false, []⟩, stack⟩ 46 =
      .ok ⟨.numeral ⟨.point, negative, ints, [], false, []⟩, stack⟩ := by
    rcases hphase with rfl | rfl <;> rfl
  rw [run_cons _ hpoint, run_digits hdigits (by simp) (by simp)]
  cases fracs with
  | nil => exact absurd rfl hfracs
  | cons d rest =>
      have hpush : Numeral.push ⟨.point, negative, ints, [], false, []⟩ d =
          ⟨.frac, negative, ints, [d], false, []⟩ := rfl
      rw [List.foldl_cons, hpush, foldl_push_frac rfl]
      rfl

theorem exponentDigits_spec (n : Nat) :
    exponentDigits n ≠ [] ∧ (∀ d ∈ exponentDigits n, d < 10) ∧
      ofDigits (exponentDigits n) = n := by
  unfold exponentDigits
  by_cases hn : n < 10
  · rw [if_pos hn]
    refine ⟨List.cons_ne_nil _ _, ?_, ?_⟩
    · intro d hd
      rcases List.mem_cons.mp hd with rfl | hd
      · omega
      · rw [List.mem_singleton.mp hd]
        exact hn
    · simp [ofDigits]
  · rw [if_neg hn]
    refine ⟨?_, fun d hd => digitsOf_lt hd, ofDigits_digitsOf n⟩
    obtain ⟨d, rest, heq⟩ := digitsOf_pos (n := n) (by omega)
    rw [heq]
    exact List.cons_ne_nil _ _

/-- The mark, the sign and the digits of an exponent. -/
theorem run_exponent (limit : Nat) (stack : List Frame) {phase : Phase}
    (hphase : phase = .zero ∨ phase = .int ∨ phase = .frac) (negative : Bool)
    (ints fracs : List Nat) (e : ℤ) :
    run limit ⟨.numeral ⟨phase, negative, ints, fracs, false, []⟩, stack⟩
        (101 :: (if e < 0 then 45 else 43) :: digitsText (exponentDigits e.natAbs)) =
      .ok ⟨.numeral ⟨.exp, negative, ints, fracs, decide (e < 0),
        exponentDigits e.natAbs⟩, stack⟩ := by
  have hmark : step limit ⟨.numeral ⟨phase, negative, ints, fracs, false, []⟩, stack⟩ 101 =
      .ok ⟨.numeral ⟨.e, negative, ints, fracs, false, []⟩, stack⟩ := by
    rcases hphase with rfl | rfl | rfl <;> rfl
  have hsign : step limit ⟨.numeral ⟨.e, negative, ints, fracs, false, []⟩, stack⟩
      (if e < 0 then 45 else 43) =
      .ok ⟨.numeral ⟨.esign, negative, ints, fracs, decide (e < 0), []⟩, stack⟩ := by
    by_cases he : e < 0
    · rw [if_pos he, decide_eq_true he]
      rfl
    · rw [if_neg he, decide_eq_false he]
      rfl
  obtain ⟨hne, hdigits, -⟩ := exponentDigits_spec e.natAbs
  rw [run_cons _ hmark, run_cons _ hsign, run_digits hdigits (by simp) (by simp)]
  cases hlist : exponentDigits e.natAbs with
  | nil => exact absurd hlist hne
  | cons d rest =>
      have hpush : Numeral.push ⟨.esign, negative, ints, fracs, decide (e < 0), []⟩ d =
          ⟨.exp, negative, ints, fracs, decide (e < 0), [d]⟩ := rfl
      rw [List.foldl_cons, hpush, foldl_push_exp rfl]
      rfl

/-- A numeral is read digit by digit. -/
theorem run_numeralText (limit : Nat) (stack : List Frame) (negative : Bool)
    {ints fracs : List Nat} (hints : IsIntegerPart ints) (hfracs : ∀ d ∈ fracs, d < 10)
    (exponent : Option ℤ) :
    ∃ n : Numeral, n.Ends ∧
      run limit ⟨.value, stack⟩ (numeralText negative ints fracs exponent) =
        .ok ⟨.numeral n, stack⟩ ∧
      n.negative = negative ∧ n.ints = ints ∧
      ((n.phase = .zero ∨ n.phase = .int) ↔ fracs = [] ∧ exponent = none) ∧
      n.fracs = fracs ∧
      (if n.expNegative then -(ofDigits n.exps : ℤ) else ofDigits n.exps) = exponent.getD 0 := by
  obtain ⟨phase, hphase, hrun⟩ := run_ints limit stack negative hints
  have hpoint : ∃ phase', (phase' = .zero ∨ phase' = .int ∨ phase' = .frac) ∧
      ((phase' = .zero ∨ phase' = .int) ↔ fracs = []) ∧
      run limit ⟨.value, stack⟩ ((if negative then [45] else []) ++ digitsText ints ++
          (if fracs = [] then [] else 46 :: digitsText fracs)) =
        .ok ⟨.numeral ⟨phase', negative, ints, fracs, false, []⟩, stack⟩ := by
    by_cases hempty : fracs = []
    · rw [if_pos hempty, List.append_nil, hempty]
      refine ⟨phase, ?_, iff_of_true hphase rfl, hrun⟩
      rcases hphase with h | h
      · exact .inl h
      · exact .inr (.inl h)
    · rw [if_neg hempty, run_append _ hrun]
      exact ⟨.frac, .inr (.inr rfl), iff_of_false (by simp) hempty,
        run_fracs limit stack hphase negative ints hempty hfracs⟩
  obtain ⟨phase', hphase', hiff, hrun'⟩ := hpoint
  unfold numeralText
  cases exponent with
  | none =>
      rw [List.append_nil]
      refine ⟨_, ?_, hrun', rfl, rfl, ?_, rfl, rfl⟩
      · rcases hphase' with h | h | h
        · exact .inl h
        · exact .inr (.inl h)
        · exact .inr (.inr (.inl h))
      · rw [hiff]
        exact (and_iff_left rfl).symm
  | some e =>
      rw [run_append _ hrun', run_exponent limit stack hphase']
      refine ⟨_, .inr (.inr (.inr rfl)), rfl, rfl, rfl, ?_, rfl, ?_⟩
      · exact iff_of_false (by simp) (by simp)
      · obtain ⟨-, -, hvalue⟩ := exponentDigits_spec e.natAbs
        dsimp only
        rw [hvalue]
        by_cases he : e < 0
        · rw [if_pos (decide_eq_true he)]
          simp only [Option.getD_some]
          omega
        · have hfalse : ¬ decide (e < 0) = true := by simpa using he
          rw [if_neg hfalse]
          simp only [Option.getD_some]
          omega

theorem isIntegerPart_digitsOf (n : Nat) : IsIntegerPart (digitsOf n) := by
  refine ⟨fun d hd => digitsOf_lt hd, ?_⟩
  by_cases hn : n = 0
  · rw [hn]
    exact .inl (by decide)
  · exact .inr (digitsOf_pos hn)

/-- An integer that is written is read back. -/
theorem readsIn_reprInt (limit : Nat) (stack : List Frame) {n : ℤ} {text : PyStr}
    (h : reprInt n = some text) : ReadsIn limit stack (.int n) text := by
  unfold reprInt at h
  split at h
  · cases h
  · rename_i hdigits
    obtain rfl := Option.some.inj h
    obtain ⟨numeral, hends, hrun, hnegative, hints, hphase, -, -⟩ :=
      run_numeralText limit stack (decide (n < 0)) (isIntegerPart_digitsOf n.natAbs)
        (fun d hd => absurd hd List.not_mem_nil) none
    refine ⟨beginsValue_numeralText _ (isIntegerPart_digitsOf _) _ _, _, hrun,
      .numeral numeral hends ?_⟩
    unfold Numeral.value
    rw [if_pos (hphase.mpr ⟨rfl, rfl⟩), hints, if_neg hdigits, hnegative, ofDigits_digitsOf]
    dsimp only
    by_cases hn : n < 0
    · rw [if_pos (decide_eq_true hn)]
      congr 2
      omega
    · have hfalse : ¬ decide (n < 0) = true := by simpa using hn
      rw [if_neg hfalse]
      congr 2
      omega

/-- A numeral with a point or an exponent is read as the double nearest to what
it denotes. -/
theorem readsIn_float (limit : Nat) (stack : List Frame) (negative : Bool)
    {ints fracs : List Nat} (hints : IsIntegerPart ints) (hfracs : ∀ d ∈ fracs, d < 10)
    {exponent : Option ℤ} (hfloat : fracs ≠ [] ∨ exponent ≠ none) :
    ReadsIn limit stack (.float (decimalValue negative ints fracs (exponent.getD 0)))
      (numeralText negative ints fracs exponent) := by
  obtain ⟨numeral, hends, hrun, hnegative, hints', hphase, hfracs', hexponent⟩ :=
    run_numeralText limit stack negative hints hfracs exponent
  refine ⟨beginsValue_numeralText _ hints _ _, _, hrun, .numeral numeral hends ?_⟩
  have hnot : ¬ (numeral.phase = .zero ∨ numeral.phase = .int) := by
    rw [hphase]
    rintro ⟨h, h'⟩
    rcases hfloat with hne | hne
    · exact hne h
    · exact hne h'
  unfold Numeral.value
  rw [if_neg hnot]
  dsimp only
  rw [hexponent, hnegative, hints', hfracs']

/-! ## Reading a double -/

theorem dropZeros_spec (digits : List Nat) :
    ∃ k, digits = dropZeros digits ++ List.replicate k 0 := by
  induction digits using List.reverseRecOn with
  | nil => exact ⟨0, rfl⟩
  | append_singleton digits d ih =>
      unfold dropZeros at ih ⊢
      by_cases hd : d = 0
      · obtain ⟨k, hk⟩ := ih
        refine ⟨k + 1, ?_⟩
        rw [List.rdropWhile_concat_pos _ _ _ (by simpa using hd), List.replicate_succ',
          ← List.append_assoc, ← hk, hd]
      · refine ⟨0, ?_⟩
        rw [List.rdropWhile_concat_neg _ _ _ (by simpa using hd)]
        simp

/-- A decimal in digits is read as the double nearest to it. -/
theorem readsIn_decimalText (limit : Nat) (stack : List Frame) (negative : Bool) {d : Nat}
    {rest : List Nat} (hdigits : ∀ e ∈ (d + 1) :: rest, e < 10) (point : ℤ) :
    ReadsIn limit stack (.float (Double.ofRat (Decimal.value
        ⟨negative, ofDigits ((d + 1) :: rest), point - ((d + 1) :: rest).length⟩)))
      (decimalText negative ((d + 1) :: rest) point) := by
  have hread : ∀ {ints fracs : List Nat} {exponent : Option ℤ}, IsIntegerPart ints →
      (∀ e ∈ fracs, e < 10) → (fracs ≠ [] ∨ exponent ≠ none) →
      (ofDigits (ints ++ fracs) : ℚ) * 10 ^ (exponent.getD 0 - fracs.length) =
        ofDigits ((d + 1) :: rest) * 10 ^ (point - ((d + 1) :: rest).length) →
      ReadsIn limit stack (.float (Double.ofRat (Decimal.value
          ⟨negative, ofDigits ((d + 1) :: rest), point - ((d + 1) :: rest).length⟩)))
        (numeralText negative ints fracs exponent) := by
    intro ints fracs exponent hints hfracs hfloat hvalue
    have hreads := readsIn_float limit stack negative hints hfracs hfloat
    unfold decimalValue at hreads
    dsimp only at hreads
    rw [hvalue] at hreads
    exact hreads
  have hten : (10 : ℚ) ≠ 0 := by norm_num
  have hpart : ∀ more : List Nat, (∀ e ∈ more, e < 10) → IsIntegerPart ((d + 1) :: more) := by
    intro more hmore
    refine ⟨fun e he => ?_, .inr ⟨d, more, rfl⟩⟩
    rcases List.mem_cons.mp he with rfl | he
    · exact hdigits _ List.mem_cons_self
    · exact hmore e he
  unfold decimalText
  split
  · -- one digit before the point, and an exponent
    refine hread (hpart [] fun e he => absurd he List.not_mem_nil)
      (fun e he => hdigits e (List.mem_cons_of_mem _ he)) (.inr (by simp)) ?_
    rw [List.take_append_drop]
    congr 2
    simp only [Option.getD_some, List.drop_succ_cons, List.drop_zero, List.length_cons]
    push_cast
    ring
  · split
    · -- zeros after the point
      rename_i hpoint
      refine hread ⟨by simp, .inl rfl⟩ ?_ (.inl (by simp)) ?_
      · intro e he
        rcases List.mem_append.mp he with he | he
        · rw [List.eq_of_mem_replicate he]
          omega
        · exact hdigits e he
      · rw [ofDigits_append, ofDigits_append, ofDigits_zeros, ofDigits_singleton]
        simp only [zero_mul, zero_add, Option.getD_none, List.length_append,
          List.length_replicate]
        congr 2
        push_cast
        rw [Int.toNat_of_nonneg (by omega)]
        ring
    · rename_i hpoint
      split
      · -- zeros before the point
        rename_i hlength
        refine hread (hpart _ ?_) (by simp) (.inl (by simp)) ?_
        · intro e he
          rcases List.mem_append.mp he with he | he
          · exact hdigits e (List.mem_cons_of_mem _ he)
          · rw [List.eq_of_mem_replicate he]
            omega
        · rw [List.append_assoc, ofDigits_append, ofDigits_append, ofDigits_zeros,
            ofDigits_singleton]
          simp only [zero_mul, add_zero, Option.getD_none, List.length_append,
            List.length_replicate, List.length_singleton]
          push_cast
          rw [mul_assoc, ← zpow_natCast, ← zpow_add₀ hten]
          congr 2
          push_cast
          omega
      · -- the point among the digits
        rename_i hlength
        obtain ⟨k, hk⟩ : ∃ k, point.toNat = k + 1 := ⟨point.toNat - 1, by omega⟩
        rw [hk, List.take_succ_cons, List.drop_succ_cons]
        rw [hk, List.length_cons] at hlength
        refine hread (hpart _ fun e he =>
          hdigits e (List.mem_cons_of_mem _ (List.mem_of_mem_take he)))
          (fun e he => hdigits e (List.mem_cons_of_mem _ (List.mem_of_mem_drop he))) (.inl ?_) ?_
        · intro hnil
          have hlen := congrArg List.length hnil
          rw [List.length_drop, List.length_nil] at hlen
          omega
        · rw [List.cons_append, List.take_append_drop]
          congr 2
          simp only [Option.getD_none, List.length_drop, List.length_cons]
          omega

/-- A double that is written is read back. -/
theorem readsIn_reprFloat (limit : Nat) (stack : List Frame) {q : ℚ}
    (hdouble : Double.IsDouble q) : ReadsIn limit stack (.float (.fin q)) (reprFloat q) := by
  unfold reprFloat
  by_cases hq : q = 0
  · rw [if_pos hq]
    have hpart : IsIntegerPart [0] := ⟨by simp, .inl rfl⟩
    have hfloat : [0] ≠ [] ∨ (none : Option ℤ) ≠ none := .inl (List.cons_ne_nil 0 [])
    have hreads := readsIn_float limit stack false hpart (by simp) hfloat
    have hzero : decimalValue false [0] [0] ((none : Option ℤ).getD 0) = .fin 0 := by
      decide +kernel
    rw [hzero] at hreads
    rw [hq]
    exact hreads
  · rw [if_neg hq]
    dsimp only
    obtain ⟨hread, hunits⟩ := ofRat_shortestDecimal hdouble hq
    generalize shortestDecimal q = decimal at hread hunits ⊢
    obtain ⟨k, hk⟩ := dropZeros_spec (digitsOf decimal.units)
    obtain ⟨d, rest, hfirst⟩ := digitsOf_pos hunits
    -- the first digit is not zero, so it is not dropped
    have hdropped : ∃ more, dropZeros (digitsOf decimal.units) = (d + 1) :: more := by
      cases hlist : dropZeros (digitsOf decimal.units) with
      | nil =>
          rw [hlist, List.nil_append, hfirst] at hk
          have hmem : d + 1 ∈ List.replicate k 0 := hk ▸ List.mem_cons_self
          exact absurd (List.eq_of_mem_replicate hmem) (Nat.succ_ne_zero d)
      | cons e more =>
          rw [hlist, hfirst, List.cons_append] at hk
          exact ⟨more, by rw [(List.cons.inj hk).1]⟩
    obtain ⟨more, hmore⟩ := hdropped
    rw [hmore] at hk ⊢
    have hdigits : ∀ e ∈ (d + 1) :: more, e < 10 := fun e he =>
      digitsOf_lt (n := decimal.units) (hk ▸ List.mem_append_left _ he)
    have hreads := readsIn_decimalText limit stack decimal.negative hdigits
      ((digitsOf decimal.units).length + decimal.exponent)
    have hvalue : Decimal.value ⟨decimal.negative, ofDigits ((d + 1) :: more),
        ((digitsOf decimal.units).length : ℤ) + decimal.exponent -
          (((d + 1) :: more).length : ℤ)⟩ = decimal.value := by
      have hunits' : (decimal.units : ℚ) * 10 ^ decimal.exponent =
          ofDigits ((d + 1) :: more) * 10 ^ (((digitsOf decimal.units).length : ℤ) +
            decimal.exponent - (((d + 1) :: more).length : ℤ)) := by
        have hlength : ((digitsOf decimal.units).length : ℤ) =
            ((d + 1) :: more).length + k := by
          rw [hk, List.length_append, List.length_replicate]
          push_cast
          rfl
        conv_lhs => rw [← ofDigits_digitsOf decimal.units]
        rw [hlength, hk, ofDigits_append, ofDigits_zeros, add_zero, List.length_replicate]
        push_cast
        rw [mul_assoc, ← zpow_natCast, ← zpow_add₀ (by norm_num)]
        congr 2
        ring
      unfold Decimal.value
      dsimp only
      rw [hunits']
    rw [hvalue, hread] at hreads
    exact hreads

end Json

end Base
