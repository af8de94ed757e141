import Mathlib
import NoraFleet.Base.Dumps
import NoraFleet.Base.Replace

/-!
# Braces in texts that become templates

A text whose braces are doubled is a template without fields, and substituting into it
gives the text back. A text without braces is its own template. The text that is written
for a JSON value has the braces of the strings in it, and those of the dictionaries.

* `Text.substitute_doubleBraces` — what substitution makes of doubled braces;
* `Text.doubleBraces_eq_self_iff` — the texts that are their own template;
* `Json.all_notBrace_of_dumps` — the values that are written without braces.
-/

namespace Base

namespace Text

/-- Not a brace. -/
def notBrace (c : Nat) : Bool := !isBrace c

/-- `s.replace("{", "{{").replace("}", "}}")`. -/
def doubleBraces (s : PyStr) : PyStr :=
  replace (str "\x7d") (str "\x7d\x7d") (replace (str "\x7b") (str "\x7b\x7b") s)

/-- Substitution into a template that has no fields; `none` where a brace is not one of
two. -/
def substitute : PyStr → Option PyStr
  | [] => some []
  | [c] => if isBrace c then none else some [c]
  | c :: d :: rest =>
      if isBrace c then if d = c then (substitute rest).map (c :: ·) else none
      else (substitute (d :: rest)).map (c :: ·)

theorem doubleBraces_eq (s : PyStr) : doubleBraces s = double 125 (double 123 s) := by
  show replace [125] [125, 125] (replace [123] [123, 123] s) = _
  rw [replace_single, replace_single]

theorem doubleBraces_cons (c : Nat) (s : PyStr) :
    doubleBraces (c :: s) = (if isBrace c then [c, c] else [c]) ++ doubleBraces s := by
  rw [doubleBraces_eq, doubleBraces_eq]
  by_cases hopen : c = 123
  · subst hopen
    rw [double_cons_self, double_cons_of_ne (by omega), double_cons_of_ne (by omega)]
    rfl
  · rw [double_cons_of_ne hopen]
    by_cases hclose : c = 125
    · subst hclose
      rw [double_cons_self]
      rfl
    · rw [double_cons_of_ne hclose, if_neg (by simp [isBrace, hopen, hclose])]
      rfl

theorem substitute_cons_of_not {c : Nat} (h : isBrace c = false) (s : PyStr) :
    substitute (c :: s) = (substitute s).map (c :: ·) := by
  cases s with
  | nil => simp [substitute, h]
  | cons d rest => simp [substitute, h]

/-- Substitution makes one brace of two. -/
theorem substitute_doubleBraces (s : PyStr) : substitute (doubleBraces s) = some s := by
  induction s with
  | nil => rfl
  | cons c rest ih =>
      rw [doubleBraces_cons]
      cases hc : isBrace c with
      | true =>
          show substitute (c :: c :: doubleBraces rest) = _
          rw [substitute, if_pos hc, if_pos rfl, ih]
          rfl
      | false =>
          show substitute (c :: doubleBraces rest) = _
          rw [substitute_cons_of_not hc, ih]
          rfl

theorem length_doubleBraces (s : PyStr) :
    (doubleBraces s).length = s.length + (s.filter isBrace).length := by
  induction s with
  | nil => rfl
  | cons c rest ih =>
      rw [doubleBraces_cons, List.length_append, ih, List.length_cons, List.filter_cons]
      cases isBrace c with
      | true =>
          show 2 + _ = _ + 1 + ((_ :: _ : PyStr)).length
          rw [List.length_cons]
          omega
      | false =>
          show 1 + _ = _
          rw [if_neg Bool.false_ne_true]
          omega

/-- A text is its own template when it has no braces. -/
theorem doubleBraces_eq_self_iff (s : PyStr) : doubleBraces s = s ↔ s.all notBrace = true := by
  constructor
  · intro h
    have hlength := length_doubleBraces s
    rw [h] at hlength
    have hnone : s.filter isBrace = [] := List.eq_nil_of_length_eq_zero (by omega)
    rw [List.all_eq_true]
    intro c hc
    rw [List.filter_eq_nil_iff] at hnone
    simp [notBrace, hnone c hc]
  · intro h
    induction s with
    | nil => rfl
    | cons c rest ih =>
        rw [List.all_cons, Bool.and_eq_true] at h
        have hc : isBrace c = false := by simpa [notBrace] using h.1
        rw [doubleBraces_cons, hc, if_neg Bool.false_ne_true, ih h.2]
        rfl

end Text

namespace Json

open Text

/-! ## Braces in documents -/

mutual

/-- No dictionary is in a value, and no brace in a string of it. -/
def noBraces : Json → Bool
  | .str s => s.all notBrace
  | .arr items => noBracesItems items
  | .obj _ => false
  | _ => true

/-- The same, of items. -/
def noBracesItems : List Json → Bool
  | [] => true
  | v :: rest => v.noBraces && noBracesItems rest

end

/-- The same, of members. -/
def noBracesMembers : List (PyStr × Json) → Bool
  | [] => true
  | (key, v) :: rest => key.all notBrace && v.noBraces && noBracesMembers rest

theorem all_notBrace_of_numeral {text : PyStr} (h : text.all isNumeral = true) :
    text.all notBrace = true := by
  rw [List.all_eq_true] at h ⊢
  intro c hc
  have hnumeral := h c hc
  unfold isNumeral at hnumeral
  unfold notBrace isBrace
  simp only [Bool.or_eq_true, Bool.and_eq_true, decide_eq_true_eq, Bool.not_eq_true',
    Bool.or_eq_false_iff, decide_eq_false_iff_not] at hnumeral ⊢
  omega

theorem all_notBrace_hexEscape (c : Nat) : (hexEscape c).all notBrace = true := by
  have hchar : ∀ d, notBrace (hexChar (d % 16)) = true := by
    intro d
    have hall : ∀ d < 16, notBrace (hexChar d) = true := by decide
    exact hall _ (Nat.mod_lt d (by omega))
  unfold hexEscape
  simp only [List.all_cons, hchar]
  rfl

theorem all_notBrace_escapeChar (c : Nat) : (escapeChar c).all notBrace = notBrace c := by
  have hbrace : c ≠ 123 → c ≠ 125 → notBrace c = true := by
    intro hopen hclose
    simp [notBrace, isBrace, hopen, hclose]
  unfold escapeChar
  split_ifs with h34 h92 h10 h13 h9 h12 h8 hplain hsmall
  · rw [h34]; rfl
  · rw [h92]; rfl
  · rw [h10]; rfl
  · rw [h13]; rfl
  · rw [h9]; rfl
  · rw [h12]; rfl
  · rw [h8]; rfl
  · rw [List.all_cons, List.all_nil, Bool.and_true]
  · rw [all_notBrace_hexEscape, hbrace (by omega) (by omega)]
  · rw [List.all_append, all_notBrace_hexEscape, all_notBrace_hexEscape,
      hbrace (by omega) (by omega)]
    rfl

theorem all_notBrace_stringText (s : PyStr) :
    (stringText s).all notBrace = s.all notBrace := by
  have hflat : (s.flatMap escapeChar).all notBrace = s.all notBrace := by
    rw [List.all_flatMap]
    exact congrArg s.all (funext all_notBrace_escapeChar)
  unfold stringText
  rw [List.all_cons, List.all_append, hflat]
  show (true && (s.all notBrace && true)) = _
  rw [Bool.true_and, Bool.and_true]

theorem all_notBrace_newline (layout : Layout) (level : Nat) :
    (layout.newline level).all notBrace = true := by
  unfold Layout.newline
  cases layout.indent with
  | none => rfl
  | some width =>
      dsimp only
      rw [List.all_cons, List.all_replicate]
      split <;> rfl

/-- A container has the braces of what is in it, and its own. -/
theorem all_notBrace_container {layout : Layout} {opening closing room level : Nat}
    {texts : List PyStr} {text : PyStr}
    (h : dumpContainer layout opening closing (room + 1) level (fun _ => .ok texts) = .ok text) :
    ∃ inner, text = opening :: (inner ++ [closing]) ∧
      inner.all notBrace = texts.all fun text => text.all notBrace := by
  have hbetween : (layout.between (level + 1)).all notBrace = true := by
    unfold Layout.between
    rw [List.all_append, all_notBrace_newline, List.all_replicate]
    split <;> rfl
  unfold dumpContainer at h
  dsimp only at h
  cases texts with
  | nil =>
      obtain rfl := Except.ok.inj h
      exact ⟨[], rfl, rfl⟩
  | cons first others =>
      obtain rfl := Except.ok.inj h
      have hothers : (others.flatMap fun text =>
          44 :: (layout.between (level + 1) ++ text)).all notBrace =
            others.all fun text => text.all notBrace := by
        rw [List.all_flatMap]
        apply congrArg others.all
        funext text
        rw [List.all_cons, List.all_append, hbetween]
        rfl
      refine ⟨layout.newline (level + 1) ++
        (first ++ others.flatMap (fun text => 44 :: (layout.between (level + 1) ++ text))) ++
        layout.newline level, by simp, ?_⟩
      rw [List.all_append, List.all_append, List.all_append, all_notBrace_newline,
        all_notBrace_newline, hothers, List.all_cons, Bool.true_and, Bool.and_true]

mutual

/-- The braces in the text of a value. -/
theorem all_notBrace_dumpValue (layout : Layout) :
    ∀ (v : Json) {room level : Nat} {text : PyStr},
      dumpValue layout v room level = .ok text → text.all notBrace = v.noBraces
  | .null, _, _, _, h => by
      obtain rfl := Except.ok.inj h
      rfl
  | .bool b, _, _, _, h => by
      obtain rfl := Except.ok.inj h
      cases b <;> rfl
  | .int n, _, _, _, h => by
      unfold dumpValue at h
      split at h
      · rename_i text hrepr
        obtain rfl := Except.ok.inj h
        exact all_notBrace_of_numeral (numeral_reprInt hrepr)
      · cases h
  | .float .nan, _, _, _, h => by
      obtain rfl := Except.ok.inj h
      rfl
  | .float (.inf negative), _, _, _, h => by
      obtain rfl := Except.ok.inj h
      cases negative <;> rfl
  | .float (.fin q), _, _, _, h => by
      obtain rfl := Except.ok.inj h
      exact all_notBrace_of_numeral (numeral_reprFloat q)
  | .str s, _, _, _, h => by
      obtain rfl := Except.ok.inj h
      exact all_notBrace_stringText s
  | .arr items, _, _, _, h => by
      unfold dumpValue at h
      obtain ⟨room', texts, -, hcontents, htext⟩ := dumpContainer_ok h
      obtain ⟨inner, rfl, hinner⟩ := all_notBrace_container htext
      rw [List.all_cons, List.all_append, hinner, all_notBrace_dumpItems layout items hcontents]
      show (true && (noBracesItems items && true)) = _
      rw [Bool.true_and, Bool.and_true, noBraces]
  | .obj members, _, _, _, h => by
      unfold dumpValue at h
      obtain ⟨room', texts, -, hcontents, htext⟩ := dumpContainer_ok h
      obtain ⟨inner, rfl, -⟩ := all_notBrace_container htext
      rfl

/-- The same, of items. -/
theorem all_notBrace_dumpItems (layout : Layout) :
    ∀ (items : List Json) {room level : Nat} {texts : List PyStr},
      dumpItems layout items room level = .ok texts →
      (texts.all fun text => text.all notBrace) = noBracesItems items
  | [], _, _, _, h => by
      obtain rfl := Except.ok.inj h
      rfl
  | v :: rest, _, _, _, h => by
      unfold dumpItems at h
      split at h
      · cases h
      · rename_i first hfirst
        split at h
        · cases h
        · rename_i others hothers
          obtain rfl := Except.ok.inj h
          rw [List.all_cons, all_notBrace_dumpValue layout v hfirst,
            all_notBrace_dumpItems layout rest hothers, noBracesItems]

end

/-- The braces in the texts of members. -/
theorem all_notBrace_dumpMembers (layout : Layout) :
    ∀ (members : List (PyStr × Json)) {room level : Nat} {texts : List PyStr},
      dumpMembers layout members room level = .ok texts →
      (texts.all fun text => text.all notBrace) = noBracesMembers members
  | [], _, _, _, h => by
      obtain rfl := Except.ok.inj h
      rfl
  | (key, v) :: rest, _, _, _, h => by
      unfold dumpMembers at h
      split at h
      · cases h
      · rename_i first hfirst
        split at h
        · cases h
        · rename_i others hothers
          obtain rfl := Except.ok.inj h
          have hspace : (List.replicate layout.afterColon 32).all notBrace = true := by
            rw [List.all_replicate]
            split <;> rfl
          rw [List.all_cons, all_notBrace_dumpMembers layout rest hothers, List.all_append,
            List.all_cons, List.all_append, all_notBrace_stringText, hspace,
            all_notBrace_dumpValue layout v hfirst, noBracesMembers]
          show (key.all notBrace && (true && (true && v.noBraces)) && _) = _
          rw [Bool.true_and, Bool.true_and]

/-- The braces in a document. -/
theorem all_notBrace_of_dumps {layout : Layout} {room : Nat} {v : Json} {text : PyStr}
    (h : dumps layout room v = .ok text) : text.all notBrace = v.noBraces :=
  all_notBrace_dumpValue layout v h

/-- The braces between those of a dictionary that is written. -/
theorem all_notBrace_of_dumps_obj {layout : Layout} {room : Nat} {members : List (PyStr × Json)}
    {text : PyStr} (h : dumps layout room (.obj members) = .ok text) :
    (text.drop 1).dropLast.all notBrace = noBracesMembers members := by
  unfold dumps dumpValue at h
  obtain ⟨room', texts, -, hcontents, htext⟩ := dumpContainer_ok h
  obtain ⟨inner, rfl, hinner⟩ := all_notBrace_container htext
  rw [List.drop_one, List.tail_cons, List.dropLast_concat, hinner,
    all_notBrace_dumpMembers layout members hcontents]

end Json

end Base
