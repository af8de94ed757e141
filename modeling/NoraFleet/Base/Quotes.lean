import Mathlib
import NoraFleet.Base.Dumps
import NoraFleet.Base.Replace

/-!
# Quotes that lose their escapes

A text from which the backslash before a quote is dropped where it stands alone. In a JSON
document that is one whose strings have a quote without a backslash before it: other
documents stay as they are, and no such quote is in a string of the document that is left.

* `Text.replace_replace_eq` — two replacements that drop these backslashes;
* `Json.dropEscapes_of_dumps` — the documents that stay as they are;
* `Json.guarded_of_loads` — the strings of the document that is left.
-/

namespace Base

namespace Text

/-- A text without the backslashes that stand alone before a quote. `behind` tells that
there is a backslash before the text. -/
def dropEscapes (behind : Bool) : PyStr → PyStr
  | [] => []
  | c :: rest =>
      if c = 92 ∧ behind = false ∧ rest.head? = some 34 then dropEscapes false rest
      else c :: dropEscapes (c = 92) rest

/-- Every quote has a backslash before it. -/
def guarded (behind : Bool) : PyStr → Bool
  | [] => true
  | c :: rest => (c ≠ 34 || behind) && guarded (c = 92) rest

/-- A backslash at the end of a text. -/
def endsBehind (behind : Bool) (s : PyStr) : Bool :=
  match s.getLast? with
  | none => behind
  | some c => c = 92

section Drop

variable {behind : Bool}

theorem dropEscapes_cons {c : Nat} (hc : c ≠ 92) (rest : PyStr) :
    dropEscapes behind (c :: rest) = c :: dropEscapes false rest := by
  rw [dropEscapes, if_neg fun h => hc h.1, decide_eq_false hc]

theorem dropEscapes_escape (rest : PyStr) :
    dropEscapes false (92 :: 34 :: rest) = 34 :: dropEscapes false rest := by
  rw [dropEscapes, if_pos ⟨rfl, rfl, rfl⟩, dropEscapes_cons (by omega)]

theorem dropEscapes_behind (rest : PyStr) :
    dropEscapes true (92 :: rest) = 92 :: dropEscapes true rest := by
  rw [dropEscapes, if_neg fun h => Bool.noConfusion h.2.1]
  rfl

theorem dropEscapes_backslash {rest : PyStr} (h : rest.head? ≠ some 34) :
    dropEscapes behind (92 :: rest) = 92 :: dropEscapes true rest := by
  rw [dropEscapes, if_neg fun all => h all.2.2]
  rfl

/-- A text without backslashes stays. -/
theorem dropEscapes_append {first : PyStr} (hne : first ≠ []) (h : ∀ c ∈ first, c ≠ 92)
    (second : PyStr) :
    dropEscapes behind (first ++ second) = first ++ dropEscapes false second := by
  induction first generalizing behind with
  | nil => exact absurd rfl hne
  | cons c rest ih =>
      rw [List.cons_append, dropEscapes_cons (h c List.mem_cons_self), List.cons_append]
      cases rest with
      | nil => rfl
      | cons d others =>
          rw [ih (List.cons_ne_nil d others) fun e he => h e (List.mem_cons_of_mem c he)]

/-! ## The replacements -/

private theorem replace_escape (new rest : PyStr) :
    replace [92, 34] new (92 :: 34 :: rest) = new ++ replace [92, 34] new rest := by
  show (if [92, 34].isPrefixOf (92 :: 34 :: rest) then
    new ++ replaceFrom [92, 34] new 1 (34 :: rest) else 92 :: replace [92, 34] new (34 :: rest)) = _
  rw [if_pos (by simp [List.isPrefixOf])]
  rfl

private theorem replace_cons (new : PyStr) {c : Nat} {rest : PyStr}
    (h : c = 92 → rest.head? ≠ some 34) :
    replace [92, 34] new (c :: rest) = c :: replace [92, 34] new rest := by
  show (if [92, 34].isPrefixOf (c :: rest) then new ++ replaceFrom [92, 34] new 1 rest
    else c :: replace [92, 34] new rest) = _
  rw [if_neg]
  intro hstarts
  cases rest with
  | nil => simp [List.isPrefixOf] at hstarts
  | cons d others =>
      simp only [List.isPrefixOf, Bool.and_eq_true, beq_iff_eq, and_true] at hstarts
      exact h hstarts.1.symm (congrArg some hstarts.2.symm)

private theorem replace_cons_of_ne (new : PyStr) {c : Nat} (hc : c ≠ 92) (rest : PyStr) :
    replace [92, 34] new (c :: rest) = c :: replace [92, 34] new rest :=
  replace_cons new fun h => absurd h hc

/-- Both replacements, of a text and of a text behind a backslash that the first leaves. -/
private theorem replaced (s : PyStr) :
    replace [92, 34] [92, 92, 34] (replace [92, 34] [34] s) = dropEscapes false s ∧
      (s.head? ≠ some 34 → replace [92, 34] [92, 92, 34] (92 :: replace [92, 34] [34] s) =
        92 :: dropEscapes true s) := by
  induction s with
  | nil => exact ⟨rfl, fun _ => rfl⟩
  | cons c rest ih =>
      by_cases hc : c = 92
      · subst hc
        by_cases hquote : rest.head? = some 34
        · -- the first replacement drops the backslash; behind another it comes back
          obtain ⟨others, rfl⟩ : ∃ others, rest = 34 :: others := List.head?_eq_some_iff.mp hquote
          have hrest : replace [92, 34] [92, 92, 34] (replace [92, 34] [34] others) =
              dropEscapes false others := by
            have hcons := ih.1
            rw [replace_cons_of_ne _ (by omega), replace_cons_of_ne _ (by omega),
              dropEscapes_cons (by omega)] at hcons
            exact (List.cons.inj hcons).2
          constructor
          · rw [replace_escape, dropEscapes_escape, List.singleton_append,
              replace_cons_of_ne _ (by omega), hrest]
          · intro _
            rw [replace_escape, List.singleton_append, replace_escape, hrest, dropEscapes_behind,
              dropEscapes_cons (by omega)]
            rfl
        · have hbehind := ih.2 hquote
          constructor
          · rw [replace_cons _ fun _ => hquote, hbehind, dropEscapes_backslash hquote]
          · intro _
            rw [replace_cons _ fun _ => hquote, replace_cons _ (by simp), hbehind,
              dropEscapes_behind]
      · have hstay : replace [92, 34] [92, 92, 34] (replace [92, 34] [34] (c :: rest)) =
            c :: dropEscapes false rest := by
          rw [replace_cons_of_ne _ hc, replace_cons_of_ne _ hc, ih.1]
        constructor
        · rw [hstay, dropEscapes_cons hc]
        · intro hhead
          have hfirst : replace [92, 34] [34] (c :: rest) = c :: replace [92, 34] [34] rest :=
            replace_cons_of_ne _ hc rest
          have hne : (replace [92, 34] [34] (c :: rest)).head? ≠ some 34 := by
            rw [hfirst]
            exact hhead
          rw [replace_cons _ fun _ => hne, hstay, dropEscapes_cons hc]

/-- `s.replace('\\"', '"').replace('\\"', '\\\\"')`. -/
theorem replace_replace_eq (s : PyStr) :
    replace [92, 34] [92, 92, 34] (replace [92, 34] [34] s) = dropEscapes false s :=
  (replaced s).1

end Drop

/-! ## Guarded quotes -/

theorem guarded_append {behind : Bool} (first second : PyStr) :
    guarded behind (first ++ second) =
      (guarded behind first && guarded (endsBehind behind first) second) := by
  induction first generalizing behind with
  | nil => rfl
  | cons c rest ih =>
      rw [List.cons_append, guarded, guarded, ih, Bool.and_assoc]
      cases rest with
      | nil => rfl
      | cons d others => simp [endsBehind, List.getLast?_cons]

theorem guarded_concat {s : PyStr} (h : guarded false s = true) {c : Nat}
    (hc : c = 34 → s.getLast? = some 92) : guarded false (s ++ [c]) = true := by
  rw [guarded_append, h, Bool.true_and, guarded, guarded, Bool.and_true, Bool.or_eq_true,
    decide_eq_true_eq]
  by_cases hquote : c = 34
  · right
    rw [endsBehind, hc hquote]
    rfl
  · exact .inl hquote

theorem guarded_concat_of_ne (s : PyStr) (c : Nat) (h : guarded false s = true) (hc : c ≠ 34) :
    guarded false (s ++ [c]) = true :=
  guarded_concat h fun hquote => absurd hquote hc

theorem guarded_dropLast {s : PyStr} (h : guarded false s = true) :
    guarded false s.dropLast = true := by
  rcases List.eq_nil_or_concat s with rfl | ⟨rest, c, rfl⟩
  · rfl
  · rw [List.concat_eq_append] at h ⊢
    rw [List.dropLast_concat]
    rw [guarded_append, Bool.and_eq_true] at h
    exact h.1

end Text

namespace Json

open Text

/-! ## Documents that are written -/

theorem dropEscapes_hexEscape {behind : Bool} (c : Nat) (rest : PyStr) :
    dropEscapes behind (hexEscape c ++ rest) = hexEscape c ++ dropEscapes false rest := by
  have hchar : ∀ d, hexChar (d % 16) ≠ 92 := by
    intro d
    have hall : ∀ d < 16, hexChar d ≠ 92 := by decide
    exact hall _ (Nat.mod_lt d (by omega))
  unfold hexEscape
  simp only [List.cons_append, List.nil_append]
  rw [dropEscapes_backslash (by simp), dropEscapes_cons (by omega), dropEscapes_cons (hchar _),
    dropEscapes_cons (hchar _), dropEscapes_cons (hchar _), dropEscapes_cons (hchar _)]

theorem dropEscapes_escapeChar {behind : Bool} {c : Nat} (hquote : c ≠ 34) (hbackslash : c ≠ 92)
    (rest : PyStr) :
    dropEscapes behind (escapeChar c ++ rest) = escapeChar c ++ dropEscapes false rest := by
  have hescape : ∀ {d : Nat}, d ≠ 34 → d ≠ 92 → dropEscapes behind ([92, d] ++ rest) =
      [92, d] ++ dropEscapes false rest := by
    intro d hd hd'
    show dropEscapes behind (92 :: d :: rest) = _
    rw [dropEscapes_backslash (by simpa using hd), dropEscapes_cons hd']
    rfl
  unfold escapeChar
  rw [if_neg hquote, if_neg hbackslash]
  split_ifs with h10 h13 h9 h12 h8 hplain hsmall
  · exact hescape (by omega) (by omega)
  · exact hescape (by omega) (by omega)
  · exact hescape (by omega) (by omega)
  · exact hescape (by omega) (by omega)
  · exact hescape (by omega) (by omega)
  · exact dropEscapes_cons hbackslash rest
  · exact dropEscapes_hexEscape c rest
  · rw [List.append_assoc, dropEscapes_hexEscape, dropEscapes_hexEscape, List.append_assoc]

/-- A string as it is written, with bare quotes where no backslash is before them. -/
def bareText (behind : Bool) : PyStr → PyStr
  | [] => []
  | c :: rest =>
      (if c = 34 ∧ behind = false then [34] else escapeChar c) ++ bareText (c = 92) rest

/-- The quotes that lose their escapes are bare. -/
theorem dropEscapes_eq_bareText (s : PyStr) (behind : Bool) (rest : PyStr) :
    dropEscapes behind (s.flatMap escapeChar ++ 34 :: rest) =
      bareText behind s ++ 34 :: dropEscapes false rest := by
  induction s generalizing behind with
  | nil => exact dropEscapes_cons (by omega) rest
  | cons c others ih =>
      rw [List.flatMap_cons, List.append_assoc, bareText, List.append_assoc]
      by_cases hquote : c = 34
      · subst hquote
        cases behind with
        | false =>
            show dropEscapes false (92 :: 34 :: _) = 34 :: _
            rw [dropEscapes_escape]
            exact congrArg (fun text => 34 :: text) (ih false)
        | true =>
            show dropEscapes true (92 :: 34 :: _) = 92 :: 34 :: _
            rw [dropEscapes_behind, dropEscapes_cons (by omega)]
            exact congrArg (fun text => 92 :: 34 :: text) (ih false)
      · rw [if_neg fun h => hquote h.1]
        by_cases hbackslash : c = 92
        · subst hbackslash
          show dropEscapes behind (92 :: 92 :: _) = 92 :: 92 :: _
          rw [dropEscapes_backslash (by simp), dropEscapes_behind]
          exact congrArg (fun text => 92 :: 92 :: text) (ih true)
        · rw [dropEscapes_escapeChar hquote hbackslash, ih, decide_eq_false hbackslash]

theorem bareText_of_guarded {s : PyStr} {behind : Bool} (h : guarded behind s = true) :
    bareText behind s = s.flatMap escapeChar := by
  induction s generalizing behind with
  | nil => rfl
  | cons c rest ih =>
      rw [guarded, Bool.and_eq_true] at h
      rw [bareText, ih h.2, List.flatMap_cons, if_neg]
      rintro ⟨rfl, rfl⟩
      simp at h

/-- Texts that stay, whatever comes after them, put together. -/
theorem closed_stays (layout : Layout) :
    layout.Closed fun text => ∀ rest, dropEscapes false (text ++ rest) =
      text ++ dropEscapes false rest where
  outside text h rest := by
    cases text with
    | nil => rfl
    | cons c others =>
        apply dropEscapes_append (List.cons_ne_nil c others)
        intro d hd hbackslash
        have houtside := List.all_eq_true.mp h d hd
        subst hbackslash
        simp [Layout.outside] at houtside
  append first second hfirst hsecond rest := by
    rw [List.append_assoc, hfirst, hsecond, List.append_assoc]

/-- A document stays when the quotes in its strings are behind backslashes. -/
theorem dropEscapes_of_dumps {layout : Layout} {room : Nat} {v : Json} {text : PyStr}
    (hall : v.allStrings (guarded false) = true) (h : dumps layout room v = .ok text) :
    dropEscapes false text = text := by
  have hstays := (closed_stays layout).dumpValue (p := guarded false) (fun s hs rest => by
    show dropEscapes false (34 :: (s.flatMap escapeChar ++ [34]) ++ rest) = _
    rw [List.cons_append, dropEscapes_cons (by omega), List.append_assoc]
    show 34 :: dropEscapes false (s.flatMap escapeChar ++ 34 :: rest) = _
    rw [dropEscapes_eq_bareText, bareText_of_guarded hs, stringText, List.cons_append,
      List.append_assoc]
    rfl) v hall h []
  rw [List.append_nil] at hstays
  simpa [dropEscapes] using hstays

/-! ## Strings that are read -/

/-- The strings in what stands around a value. -/
def Frame.allStrings (p : PyStr → Bool) : Frame → Bool
  | .item done => allStringsItems p done
  | .member done key => p key && allStringsMembers p done

/-- The strings that have been read, and the one that is being read as far as it goes,
between its characters. In a literal there are no backslashes. -/
def Mode.allStrings (p : PyStr → Bool) : Mode → Bool
  | .value | .firstItem | .firstKey | .numeral _ => true
  | .afterItem items => allStringsItems p items
  | .nextKey members | .afterMember members => allStringsMembers p members
  | .colon members key => p key && allStringsMembers p members
  | .string acc _ .none .value => p acc
  | .string acc _ .none (.key members) => p acc && allStringsMembers p members
  | .string _ _ _ _ => false
  | .literal text v => text.all (fun c => c ≠ 92) && v.allStrings p
  | .done v => v.allStrings p

/-- All the strings that a reader has read are so. -/
def Reader.AllStrings (p : PyStr → Bool) (reader : Reader) : Prop :=
  reader.mode.allStrings p = true ∧ reader.stack.all (Frame.allStrings p) = true

section Reading

variable {p : PyStr → Bool}

theorem allStringsItems_concat {items : List Json} {v : Json}
    (hitems : allStringsItems p items = true) (hv : v.allStrings p = true) :
    allStringsItems p (items ++ [v]) = true := by
  induction items with
  | nil =>
      rw [List.nil_append, allStringsItems, hv]
      rfl
  | cons first rest ih =>
      rw [allStringsItems, Bool.and_eq_true] at hitems
      rw [List.cons_append, allStringsItems, hitems.1, ih hitems.2]
      rfl

theorem allStringsMembers_iff {members : List (PyStr × Json)} :
    allStringsMembers p members = true ↔
      ∀ member ∈ members, p member.1 = true ∧ member.2.allStrings p = true := by
  induction members with
  | nil => simp [allStringsMembers]
  | cons member rest ih =>
      unfold allStringsMembers
      rw [Bool.and_eq_true, Bool.and_eq_true, ih, List.forall_mem_cons]

theorem allStringsItems_iff {items : List Json} :
    allStringsItems p items = true ↔ ∀ v ∈ items, v.allStrings p = true := by
  induction items with
  | nil => simp [allStringsItems]
  | cons v rest ih =>
      unfold allStringsItems
      rw [Bool.and_eq_true, ih, List.forall_mem_cons]

theorem allStringsMembers_setItems {members : List (PyStr × Json)} {key : PyStr} {v : Json}
    (hmembers : allStringsMembers p members = true) (hkey : p key = true)
    (hv : v.allStrings p = true) : allStringsMembers p (Dict.setItems members key v) = true := by
  rw [allStringsMembers_iff] at hmembers ⊢
  intro member hmember
  unfold Dict.setItems at hmember
  split at hmember
  case isTrue =>
      obtain ⟨old, hold, rfl⟩ := List.mem_map.mp hmember
      split
      · exact ⟨hkey, hv⟩
      · exact hmembers old hold
  case isFalse =>
      rcases List.mem_append.mp hmember with hold | hnew
      · exact hmembers member hold
      · obtain rfl := List.mem_singleton.mp hnew
        exact ⟨hkey, hv⟩

/-- The strings in a member. -/
theorem allStrings_of_lookup {members : List (PyStr × Json)} {key : PyStr} {v : Json}
    (h : allStringsMembers p members = true) (hlookup : lookup members key = some v) :
    v.allStrings p = true := by
  obtain ⟨member, hfind, rfl⟩ := Option.map_eq_some_iff.mp hlookup
  exact (allStringsMembers_iff.mp h member (List.mem_of_find?_eq_some hfind)).2

theorem finish_allStrings {v : Json} {stack : List Frame} (hv : v.allStrings p = true)
    (hstack : stack.all (Frame.allStrings p) = true) : (finish v stack).AllStrings p := by
  cases stack with
  | nil => exact ⟨hv, rfl⟩
  | cons frame stack =>
      rw [List.all_cons, Bool.and_eq_true] at hstack
      cases frame with
      | item done => exact ⟨allStringsItems_concat hstack.1 hv, hstack.2⟩
      | member done key =>
          have hmember := hstack.1
          rw [Frame.allStrings, Bool.and_eq_true] at hmember
          exact ⟨allStringsMembers_setItems hmember.2 hmember.1 hv, hstack.2⟩

/-- If it reads on, a reader has read only such strings. -/
def ReadsOn (p : PyStr → Bool) (outcome : Except LoadError Reader) : Prop :=
  ∀ next, outcome = .ok next → next.AllStrings p

theorem readsOn_ok {reader : Reader} (h : reader.AllStrings p) : ReadsOn p (.ok reader) := by
  intro next hnext
  obtain rfl := Except.ok.inj hnext
  exact h

theorem readsOn_error (e : LoadError) : ReadsOn p (.error e) := by
  intro next hnext
  cases hnext

theorem readsOn_ite {q : Prop} [Decidable q] {first second : Except LoadError Reader}
    (hfirst : q → ReadsOn p first) (hsecond : ¬q → ReadsOn p second) :
    ReadsOn p (if q then first else second) := by
  by_cases hq : q
  · rw [if_pos hq]
    exact hfirst hq
  · rw [if_neg hq]
    exact hsecond hq

theorem readsOn_stepAfter (c : Nat) {reader : Reader} (h : reader.AllStrings p) :
    ReadsOn p (stepAfter c reader) := by
  obtain ⟨mode, stack⟩ := reader
  unfold stepAfter
  split
  case h_1 items hmode =>
      obtain rfl : mode = .afterItem items := hmode
      apply readsOn_ite (fun _ => readsOn_ok h)
      intro _
      apply readsOn_ite
      · intro _
        apply readsOn_ok
        refine ⟨rfl, ?_⟩
        rw [List.all_cons, h.2, Bool.and_true]
        exact h.1
      · intro _
        apply readsOn_ite
        · intro _
          apply readsOn_ok
          apply finish_allStrings _ h.2
          rw [allStrings]
          exact h.1
        · exact fun _ => readsOn_error _
  case h_2 members hmode =>
      obtain rfl : mode = .afterMember members := hmode
      apply readsOn_ite (fun _ => readsOn_ok h)
      intro _
      apply readsOn_ite
      · exact fun _ => readsOn_ok ⟨h.1, h.2⟩
      intro _
      apply readsOn_ite
      · intro _
        apply readsOn_ok
        apply finish_allStrings _ h.2
        rw [allStrings]
        exact h.1
      · exact fun _ => readsOn_error _
  case h_3 => exact readsOn_ite (fun _ => readsOn_ok h) fun _ => readsOn_error _

theorem allStrings_of_numeral {n : Numeral} {v : Json} (h : n.value = .ok v) :
    v.allStrings p = true := by
  unfold Numeral.value at h
  split at h
  · split at h
    · cases h
    · obtain rfl := Except.ok.inj h
      rfl
  · obtain rfl := Except.ok.inj h
    rfl

theorem readsOn_endNumeral (n : Numeral) (c : Nat) {stack : List Frame}
    (hstack : stack.all (Frame.allStrings p) = true) : ReadsOn p (endNumeral n c stack) := by
  unfold endNumeral
  cases hvalue : n.value with
  | error e => exact readsOn_error e
  | ok v => exact readsOn_stepAfter c (finish_allStrings (allStrings_of_numeral hvalue) hstack)

theorem readsOn_stepNumeral (n : Numeral) (c : Nat) {stack : List Frame}
    (hstack : stack.all (Frame.allStrings p) = true) : ReadsOn p (stepNumeral n c stack) := by
  have hnumeral : ∀ m : Numeral, ReadsOn p (.ok ⟨.numeral m, stack⟩) :=
    fun m => readsOn_ok ⟨rfl, hstack⟩
  have hend := readsOn_endNumeral n c hstack
  unfold stepNumeral
  dsimp only
  split
  case h_1 | h_2 | h_4 | h_8 | h_9 | h_12 | h_13 | h_14 => exact hnumeral _
  case h_3 => exact readsOn_ite (fun _ => readsOn_ok ⟨rfl, hstack⟩) fun _ => readsOn_error _
  case h_5 | h_17 => exact hend
  case h_10 | h_16 => exact readsOn_error _
  case h_6 | h_7 =>
      exact readsOn_ite (fun _ => hnumeral _) fun _ =>
        readsOn_ite (fun _ => hnumeral _) fun _ => hend
  case h_11 => exact readsOn_ite (fun _ => hnumeral _) fun _ => hend
  case h_15 =>
      exact readsOn_ite (fun _ => hnumeral _) fun _ =>
        readsOn_ite (fun _ => hnumeral _) fun _ => readsOn_error _

theorem readsOn_startValue (hempty : p [] = true) (limit c : Nat) {stack : List Frame}
    (hstack : stack.all (Frame.allStrings p) = true) : ReadsOn p (startValue limit c stack) := by
  have hplain : ∀ mode : Mode, mode.allStrings p = true → ReadsOn p (.ok ⟨mode, stack⟩) :=
    fun mode hmode => readsOn_ok ⟨hmode, hstack⟩
  unfold startValue
  apply readsOn_ite
  · exact fun _ => readsOn_ok ⟨hempty, hstack⟩
  intro _
  apply readsOn_ite (fun _ => readsOn_ite (fun _ => readsOn_error _) fun _ => hplain _ rfl)
  intro _
  apply readsOn_ite (fun _ => readsOn_ite (fun _ => readsOn_error _) fun _ => hplain _ rfl)
  intro _
  repeat' apply readsOn_ite (fun _ => hplain _ rfl); intro _
  split
  · exact hplain _ rfl
  · exact hplain _ rfl
  · exact readsOn_error _

/-- A character that is no backslash. -/
theorem readsOn_step (hempty : p [] = true)
    (hadd : ∀ acc c, p acc = true → c ≠ 34 → p (acc ++ [c]) = true) (limit : Nat) {c : Nat}
    (hc : c ≠ 92) {reader : Reader} (h : reader.AllStrings p) :
    ReadsOn p (step limit reader c) := by
  obtain ⟨mode, stack⟩ := reader
  have hstack : stack.all (Frame.allStrings p) = true := h.2
  have hplain : ∀ mode : Mode, mode.allStrings p = true → ReadsOn p (.ok ⟨mode, stack⟩) :=
    fun mode hmode => readsOn_ok ⟨hmode, hstack⟩
  cases mode with
  | value =>
      exact readsOn_ite (fun _ => readsOn_ok h) fun _ => readsOn_startValue hempty limit c hstack
  | firstItem =>
      apply readsOn_ite (fun _ => readsOn_ok h)
      intro _
      apply readsOn_ite (fun _ => readsOn_ok (finish_allStrings rfl hstack))
      exact fun _ => readsOn_startValue hempty limit c hstack
  | firstKey =>
      apply readsOn_ite (fun _ => readsOn_ok h)
      intro _
      apply readsOn_ite (fun _ => readsOn_ok (finish_allStrings rfl hstack))
      intro _
      apply readsOn_ite
      · intro _
        apply hplain
        rw [Mode.allStrings, hempty]
        rfl
      · exact fun _ => readsOn_error _
  | nextKey members =>
      apply readsOn_ite (fun _ => readsOn_ok h)
      intro _
      apply readsOn_ite
      · intro _
        apply hplain
        rw [Mode.allStrings, hempty]
        exact h.1
      · exact fun _ => readsOn_error _
  | colon members key =>
      apply readsOn_ite (fun _ => readsOn_ok h)
      intro _
      apply readsOn_ite
      · intro _
        apply readsOn_ok
        refine ⟨rfl, ?_⟩
        rw [List.all_cons, hstack, Bool.and_true]
        exact h.1
      · exact fun _ => readsOn_error _
  | string acc high escape purpose =>
      cases escape with
      | backslash => exact absurd h.1 (by simp [Mode.allStrings])
      | hex digits value => exact absurd h.1 (by simp [Mode.allStrings])
      | none =>
          -- a character of a string is added to it, unless it ends it
          cases purpose with
          | value =>
              have hacc : p acc = true := h.1
              have hstr : (str acc).allStrings p = true := h.1
              apply readsOn_ite (fun _ => readsOn_ok (finish_allStrings hstr hstack))
              intro hquote
              apply readsOn_ite (fun hbackslash => absurd hbackslash hc)
              intro _
              exact readsOn_ite (fun _ => readsOn_error _) fun _ =>
                hplain _ (hadd acc c hacc hquote)
          | key members =>
              have hboth := h.1
              rw [Mode.allStrings, Bool.and_eq_true] at hboth
              apply readsOn_ite
              · intro _
                apply hplain
                rw [Mode.allStrings, hboth.1, hboth.2]
                rfl
              intro hquote
              apply readsOn_ite (fun hbackslash => absurd hbackslash hc)
              intro _
              apply readsOn_ite (fun _ => readsOn_error _)
              intro _
              apply hplain
              rw [Mode.allStrings, hadd acc c hboth.1 hquote, hboth.2]
              rfl
  | literal text v =>
      have hboth := h.1
      rw [Mode.allStrings, Bool.and_eq_true] at hboth
      -- literals are no strings: what is around them stays
      rcases text with _ | ⟨expected, _ | ⟨next, rest⟩⟩
      · exact readsOn_stepAfter c (finish_allStrings hboth.2 hstack)
      · exact readsOn_ite (fun _ => readsOn_ok (finish_allStrings hboth.2 hstack)) fun _ =>
          readsOn_error _
      · apply readsOn_ite
        · intro _
          apply hplain
          rw [List.all_cons, Bool.and_eq_true] at hboth
          rw [Mode.allStrings, hboth.1.2, hboth.2]
          rfl
        · exact fun _ => readsOn_error _
  | numeral n => exact readsOn_stepNumeral n c hstack
  | afterItem items => exact readsOn_stepAfter c h
  | afterMember members => exact readsOn_stepAfter c h
  | done v => exact readsOn_stepAfter c h

/-- A text that is read on. -/
def Kept (p : PyStr → Bool) (limit : Nat) (text : PyStr) : Prop :=
  ∀ reader : Reader, reader.AllStrings p → ReadsOn p (run limit reader text)

/-- A text is read on character by character. -/
theorem readsOn_run_cons {limit c : Nat} {reader : Reader} {rest : PyStr}
    (hstep : ReadsOn p (step limit reader c)) (hrest : Kept p limit rest) :
    ReadsOn p (run limit reader (c :: rest)) := by
  intro next hnext
  cases hbetween : step limit reader c with
  | error e =>
      rw [run, hbetween] at hnext
      cases hnext
  | ok between =>
      rw [run_cons _ hbetween] at hnext
      exact hrest between (hstep between hbetween) next hnext

/-- Texts that are read on, one after the other. -/
theorem Kept.append {limit : Nat} {first second : PyStr} (hfirst : Kept p limit first)
    (hsecond : Kept p limit second) : Kept p limit (first ++ second) := by
  intro reader hreader next hnext
  cases hrun : run limit reader first with
  | ok between =>
      rw [run_append _ hrun] at hnext
      exact hsecond between (hfirst reader hreader between hrun) next hnext
  | error e =>
      have herror : ∀ (first : PyStr) {reader : Reader}, run limit reader first = .error e →
          run limit reader (first ++ second) = .error e := by
        intro first
        induction first with
        | nil => exact fun h => by cases h
        | cons c rest ih =>
            intro reader h
            rw [List.cons_append, run]
            rw [run] at h
            cases hstep : step limit reader c with
            | error e' =>
                rw [hstep] at h
                exact h
            | ok between =>
                rw [hstep] at h
                exact ih h
      rw [herror first hrun] at hnext
      cases hnext

theorem allStrings_of_loads {limit : Nat} {text : PyStr} {v : Json} (hkept : Kept p limit text)
    (h : loads limit text = .ok v) : v.allStrings p = true := by
  unfold loads at h
  split at h
  · cases h
  · cases hrun : run limit ⟨.value, []⟩ text with
    | error e =>
        rw [hrun] at h
        cases h
    | ok reader =>
        rw [hrun] at h
        have hreader := hkept ⟨.value, []⟩ ⟨rfl, rfl⟩ reader hrun
        obtain ⟨mode, stack⟩ := reader
        cases mode with
        | done w =>
            obtain rfl := Except.ok.inj h
            exact hreader.1
        | numeral n =>
            unfold close at h
            dsimp only at h
            split at h
            · cases h
            · cases h
            · cases h
            · cases h
            · split at h
              · cases h
              · rename_i w hvalue
                obtain rfl := Except.ok.inj h
                exact allStrings_of_numeral hvalue
              · cases h
        | string acc high escape purpose => cases h
        | _ => cases h

end Reading

/-! ## Code points -/

theorem codePoints_of_wellFormedText {s : PyStr} {high : Bool} (h : wellFormedText high s = true) :
    s.all (· < 0x110000) = true := by
  induction s generalizing high with
  | nil => rfl
  | cons c rest ih =>
      rw [wellFormedText, Bool.and_eq_true, Bool.and_eq_true] at h
      rw [List.all_cons, h.1.1, ih h.2]
      rfl

mutual

/-- The strings of a well-formed value are of code points. -/
theorem codePoints_of_wellFormed :
    ∀ v : Json, v.wellFormed = true → v.allStrings (fun s => s.all (· < 0x110000)) = true
  | .null, _ | .bool _, _ | .int _, _ | .float _, _ => rfl
  | .str s, h => codePoints_of_wellFormedText h
  | .arr items, h => by
      rw [wellFormed] at h
      rw [allStrings]
      exact codePoints_of_wellFormedItems items h
  | .obj members, h => by
      rw [wellFormed, Bool.and_eq_true] at h
      rw [allStrings]
      exact codePoints_of_wellFormedMembers members h.2

/-- The same, of items. -/
theorem codePoints_of_wellFormedItems : ∀ items : List Json, wellFormedItems items = true →
    allStringsItems (fun s => s.all (· < 0x110000)) items = true
  | [], _ => rfl
  | v :: rest, h => by
      rw [wellFormedItems, Bool.and_eq_true] at h
      rw [allStringsItems, codePoints_of_wellFormed v h.1, codePoints_of_wellFormedItems rest h.2]
      rfl

/-- The same, of members. -/
theorem codePoints_of_wellFormedMembers : ∀ members : List (PyStr × Json),
    wellFormedMembers members = true →
    allStringsMembers (fun s => s.all (· < 0x110000)) members = true
  | [], _ => rfl
  | (key, v) :: rest, h => by
      rw [wellFormedMembers, Bool.and_eq_true, Bool.and_eq_true] at h
      rw [allStringsMembers, codePoints_of_wellFormedText h.1.1, codePoints_of_wellFormed v h.1.2,
        codePoints_of_wellFormedMembers rest h.2]
      rfl

end

/-! ## Documents that are read without the escapes -/

theorem stepAfter_backslash (reader : Reader) : ∃ e, stepAfter 92 reader = .error e := by
  obtain ⟨mode, stack⟩ := reader
  cases mode with
  | afterItem items => exact ⟨_, rfl⟩
  | afterMember members => exact ⟨_, rfl⟩
  | _ => exact ⟨_, rfl⟩

theorem endNumeral_backslash (n : Numeral) (stack : List Frame) :
    ∃ e, endNumeral n 92 stack = .error e := by
  unfold endNumeral
  cases n.value with
  | error e => exact ⟨e, rfl⟩
  | ok v => exact stepAfter_backslash (finish v stack)

/-- Outside of strings there are no backslashes. -/
theorem step_backslash {p : PyStr → Bool} (limit : Nat) {reader : Reader}
    (h : reader.AllStrings p) :
    (∃ e, step limit reader 92 = .error e) ∨
      ∃ acc high purpose stack, reader = ⟨.string acc high .none purpose, stack⟩ := by
  obtain ⟨mode, stack⟩ := reader
  cases mode with
  | string acc high escape purpose =>
      cases escape with
      | none => exact .inr ⟨acc, high, purpose, stack, rfl⟩
      | backslash => exact absurd h.1 (by simp [Mode.allStrings])
      | hex digits value => exact absurd h.1 (by simp [Mode.allStrings])
  | literal text v =>
      have hboth := h.1
      rw [Mode.allStrings, Bool.and_eq_true, List.all_eq_true] at hboth
      rcases text with _ | ⟨expected, rest⟩
      · exact .inl (stepAfter_backslash (finish v stack))
      · -- no literal has a backslash
        have hne : ¬92 = expected := by
          rintro rfl
          exact absurd (hboth.1 92 List.mem_cons_self) (by decide)
        left
        cases rest with
        | nil => exact ⟨_, if_neg hne⟩
        | cons next others => exact ⟨_, if_neg hne⟩
  | numeral n =>
      left
      obtain ⟨phase, negative, ints, fracs, expNegative, exps⟩ := n
      have hend := endNumeral_backslash ⟨phase, negative, ints, fracs, expNegative, exps⟩ stack
      cases phase with
      | minus => exact ⟨_, rfl⟩
      | point => exact ⟨_, rfl⟩
      | e => exact ⟨_, rfl⟩
      | esign => exact ⟨_, rfl⟩
      | zero => exact hend
      | int => exact hend
      | frac => exact hend
      | exp => exact hend
  | value => exact .inl ⟨_, rfl⟩
  | firstItem => exact .inl ⟨_, rfl⟩
  | firstKey => exact .inl ⟨_, rfl⟩
  | nextKey members => exact .inl ⟨_, rfl⟩
  | colon members key => exact .inl ⟨_, rfl⟩
  | afterItem items => exact .inl ⟨_, rfl⟩
  | afterMember members => exact .inl ⟨_, rfl⟩
  | done v => exact .inl ⟨_, rfl⟩

/-- A code point that is read in a string: it is put at the end, and a low surrogate may be
joined with what is there. -/
theorem run_escapeChar_cases (limit : Nat) (stack : List Frame) (acc : PyStr) (high : Bool)
    (purpose : Purpose) {c : Nat} (hc : c < 0x110000) :
    ∃ acc' high', run limit ⟨.string acc high .none purpose, stack⟩ (escapeChar c) =
        .ok ⟨.string acc' high' .none purpose, stack⟩ ∧
      (acc' = acc ++ [c] ∨ c ≠ 92 ∧ ∃ joined, joined ≠ 34 ∧ acc' = acc.dropLast ++ [joined]) := by
  cases hsplit : high && isLowSurrogate c with
  | false => exact ⟨_, _, run_escapeChar limit stack acc purpose hc hsplit, .inl rfl⟩
  | true =>
      have hlow : isLowSurrogate c = true := (Bool.and_eq_true _ _ ▸ hsplit).2
      unfold isLowSurrogate at hlow
      rw [Bool.and_eq_true, decide_eq_true_eq, decide_eq_true_eq] at hlow
      have hhex : escapeChar c = hexEscape c := by
        unfold escapeChar
        rw [if_neg (by omega), if_neg (by omega), if_neg (by omega), if_neg (by omega),
          if_neg (by omega), if_neg (by omega), if_neg (by omega), if_neg (by omega),
          if_pos (by omega)]
      have hrun := run_hexEscape limit stack acc high purpose (c := c) (by omega)
      rw [hsplit, if_pos rfl] at hrun
      refine ⟨_, _, hhex ▸ hrun, .inr ⟨by omega, _, ?_, rfl⟩⟩
      unfold joinSurrogates
      omega

theorem escapeChar_cases (c : Nat) :
    (escapeChar c = [c] ∧ c ≠ 92) ∨ ∃ rest, escapeChar c = 92 :: rest := by
  by_cases h92 : c = 92
  · exact .inr ⟨[92], by rw [h92]; rfl⟩
  · unfold escapeChar
    split_ifs
    all_goals first
      | exact .inl ⟨rfl, h92⟩
      | exact .inr ⟨_, rfl⟩

/-- The string that is being read can be replaced. -/
theorem allStrings_string {p : PyStr → Bool} {acc : PyStr} {high : Bool} {purpose : Purpose}
    {stack : List Frame} (h : Reader.AllStrings p ⟨.string acc high .none purpose, stack⟩) :
    p acc = true ∧ ∀ acc' high', p acc' = true →
      Reader.AllStrings p ⟨.string acc' high' .none purpose, stack⟩ := by
  cases purpose with
  | value => exact ⟨h.1, fun acc' high' hacc' => ⟨hacc', h.2⟩⟩
  | key members =>
      have hboth := h.1
      rw [Mode.allStrings, Bool.and_eq_true] at hboth
      refine ⟨hboth.1, fun acc' high' hacc' => ⟨?_, h.2⟩⟩
      rw [Mode.allStrings, hacc', hboth.2]
      rfl

/-- Where a string is read, its quotes stay behind backslashes. -/
theorem readsOn_bareText (limit : Nat) {s : PyStr} (hs : s.all (· < 0x110000) = true)
    {behind : Bool} {reader : Reader} (hreader : reader.AllStrings (guarded false))
    (hbehind : behind = true → ∃ acc high purpose stack,
      reader = ⟨.string acc high .none purpose, stack⟩ ∧ acc.getLast? = some 92) :
    ReadsOn (guarded false) (run limit reader (bareText behind s)) := by
  induction s generalizing behind reader with
  | nil => exact readsOn_ok hreader
  | cons c rest ih =>
      rw [List.all_cons, Bool.and_eq_true, decide_eq_true_eq] at hs
      have hplain : ∀ {d : Nat}, d ≠ 92 → c ≠ 92 →
          ReadsOn (guarded false) (run limit reader (d :: bareText (c = 92) rest)) := by
        intro d hd hc
        rw [decide_eq_false hc]
        apply readsOn_run_cons (readsOn_step rfl guarded_concat_of_ne limit hd hreader)
        exact fun between hbetween => ih hs.2 hbetween (by simp)
      rw [bareText]
      by_cases hbare : c = 34 ∧ behind = false
      · rw [if_pos hbare]
        exact hplain (by omega) (by omega)
      rw [if_neg hbare]
      rcases step_backslash limit hreader with ⟨e, herror⟩ | ⟨acc, high, purpose, stack, rfl⟩
      · -- outside of a string: what is written as it is, or an escape that is not read on
        rcases escapeChar_cases c with ⟨htext, hc⟩ | ⟨others, htext⟩
        · rw [htext]
          exact hplain hc hc
        · rw [htext, List.cons_append, run, herror]
          exact readsOn_error e
      · obtain ⟨hacc, hreplace⟩ := allStrings_string hreader
        obtain ⟨acc', high', hrun, hcases⟩ := run_escapeChar_cases limit stack acc high purpose hs.1
        rw [run_append _ hrun]
        have hacc' : guarded false acc' = true := by
          rcases hcases with rfl | ⟨-, joined, hjoined, rfl⟩
          · apply guarded_concat hacc
            intro hquote
            have htrue : behind = true := by simpa [hquote] using hbare
            obtain ⟨acc'', high'', purpose'', stack'', heq, hlast⟩ := hbehind htrue
            rw [Reader.mk.injEq, Mode.string.injEq] at heq
            rw [heq.1.1]
            exact hlast
          · exact guarded_concat_of_ne _ _ (guarded_dropLast hacc) hjoined
        apply ih hs.2 (hreplace acc' high' hacc')
        intro hbackslash
        rcases hcases with rfl | ⟨hne, -⟩
        · refine ⟨_, _, _, _, rfl, ?_⟩
          rw [of_decide_eq_true hbackslash, List.getLast?_concat]
        · exact absurd (of_decide_eq_true hbackslash) hne

/-- Texts whose strings are guarded where they are read without the escapes, put together. -/
theorem closed_kept (layout : Layout) (limit : Nat) :
    layout.Closed fun text => ∃ left, Kept (guarded false) limit left ∧
      ∀ rest, dropEscapes false (text ++ rest) = left ++ dropEscapes false rest where
  outside text h := by
    refine ⟨text, ?_, (closed_stays layout).outside text h⟩
    induction text with
    | nil => exact fun reader hreader => readsOn_ok hreader
    | cons c others ih =>
        rw [List.all_cons, Bool.and_eq_true] at h
        have hc : c ≠ 92 := by
          rintro rfl
          simp [Layout.outside] at h
        exact fun reader hreader => readsOn_run_cons
          (readsOn_step rfl guarded_concat_of_ne limit hc hreader) (ih h.2)
  append first second hfirst hsecond := by
    obtain ⟨left, hleft, hdrop⟩ := hfirst
    obtain ⟨left', hleft', hdrop'⟩ := hsecond
    refine ⟨left ++ left', hleft.append hleft', fun rest => ?_⟩
    rw [List.append_assoc, hdrop, hdrop', List.append_assoc]

/-- A string of code points, between its quotes. -/
theorem kept_stringText (limit : Nat) {s : PyStr} (hs : s.all (· < 0x110000) = true) :
    ∃ left, Kept (guarded false) limit left ∧
      ∀ rest, dropEscapes false (stringText s ++ rest) = left ++ dropEscapes false rest := by
  have hquote : Kept (guarded false) limit [34] := fun reader hreader =>
    readsOn_run_cons (readsOn_step rfl guarded_concat_of_ne limit (by omega) hreader)
      fun between hbetween => readsOn_ok hbetween
  have htext : Kept (guarded false) limit (bareText false s) := fun reader hreader =>
    readsOn_bareText limit hs hreader (by simp)
  refine ⟨[34] ++ (bareText false s ++ [34]), hquote.append (htext.append hquote), fun rest => ?_⟩
  show dropEscapes false (34 :: (s.flatMap escapeChar ++ [34]) ++ rest) = _
  rw [List.cons_append, dropEscapes_cons (by omega), List.append_assoc]
  show 34 :: dropEscapes false (s.flatMap escapeChar ++ 34 :: rest) = _
  rw [dropEscapes_eq_bareText]
  simp

/-- Where a document is read without the escapes, the quotes in its strings are behind
backslashes. -/
theorem guarded_of_loads {layout : Layout} {room limit : Nat} {v w : Json} {text : PyStr}
    (hwell : v.wellFormed = true)
    (h : dumps layout room v = .ok text) (hloads : loads limit (dropEscapes false text) = .ok w) :
    w.allStrings (guarded false) = true := by
  obtain ⟨left, hkept, hdrop⟩ := (closed_kept layout limit).dumpValue
    (p := fun s => s.all (· < 0x110000)) (fun s hs => kept_stringText limit hs) v
    (codePoints_of_wellFormed v hwell) h
  have hleft := hdrop []
  rw [List.append_nil, dropEscapes, List.append_nil] at hleft
  rw [hleft] at hloads
  exact allStrings_of_loads hkept hloads

end Json

end Base
