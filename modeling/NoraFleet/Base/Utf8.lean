import Mathlib
import NoraFleet.Base.Text

/-!
# UTF-8, there and back

* `utf8Decode_utf8EncodeText` — text that can be encoded is decoded to what it
  was;
* `fsencode_injective` — text without surrogates has file names of its own.
-/

namespace Base

/-- `text.encode("utf-8")`; `none` is the `UnicodeEncodeError`. -/
def utf8EncodeText : PyStr → Option (List UInt8)
  | [] => some []
  | c :: rest =>
      match utf8Encode c, utf8EncodeText rest with
      | some bytes, some others => some (bytes ++ others)
      | _, _ => none

/-! ## One code point -/

theorem toNat_toUInt8 {n : Nat} (hn : n < 256) : n.toUInt8.toNat = n := by
  show (UInt8.ofNat n).toNat = n
  rw [UInt8.toNat_ofNat']
  exact Nat.mod_eq_of_lt hn

theorem utf8Run_ascii {c : Nat} (hc : c < 0x80) (rest : List UInt8) :
    utf8Run ⟨0, 0, 0, 0⟩ (c.toUInt8 :: rest) = (utf8Run ⟨0, 0, 0, 0⟩ rest).map (c :: ·) := by
  have hstep : utf8Step ⟨0, 0, 0, 0⟩ c.toUInt8 = some (some c, ⟨0, 0, 0, 0⟩) := by
    unfold utf8Step
    rw [toNat_toUInt8 (by omega)]
    dsimp only
    rw [if_pos rfl, if_pos hc]
  rw [utf8Run, hstep]

theorem utf8Step_two {a : Nat} (hlow : 2 ≤ a) (hhigh : a < 32) :
    utf8Step ⟨0, 0, 0, 0⟩ (0xC0 + a).toUInt8 = some (none, ⟨1, a, 0x80, 0xBF⟩) := by
  interval_cases a <;> rfl

/-- The first of three bytes. -/
theorem utf8Step_three {a : Nat} (ha : a < 16) :
    utf8Step ⟨0, 0, 0, 0⟩ (0xE0 + a).toUInt8 =
      some (none, ⟨2, a, if a = 0 then 0xA0 else 0x80, if a = 13 then 0x9F else 0xBF⟩) := by
  interval_cases a <;> rfl

/-- The first of four bytes. -/
theorem utf8Step_four {a : Nat} (ha : a < 5) :
    utf8Step ⟨0, 0, 0, 0⟩ (0xF0 + a).toUInt8 =
      some (none, ⟨3, a, if a = 0 then 0x90 else 0x80, if a = 4 then 0x8F else 0xBF⟩) := by
  interval_cases a <;> rfl

/-- A byte that continues a character. -/
theorem utf8Step_more {need value low high n : Nat} (hlow : low ≤ 0x80 + n)
    (hhigh : 0x80 + n ≤ high) (hn : n < 64) :
    utf8Step ⟨need + 2, value, low, high⟩ (0x80 + n).toUInt8 =
      some (none, ⟨need + 1, value * 64 + n, 0x80, 0xBF⟩) := by
  unfold utf8Step
  rw [toNat_toUInt8 (by omega)]
  dsimp only
  rw [if_neg (by omega), if_pos ⟨hlow, hhigh⟩, if_neg (by omega), Nat.add_sub_cancel_left]
  rfl

/-- The last byte of a character. -/
theorem utf8Step_last {value low high n : Nat} (hlow : low ≤ 0x80 + n)
    (hhigh : 0x80 + n ≤ high) (hn : n < 64) :
    utf8Step ⟨1, value, low, high⟩ (0x80 + n).toUInt8 =
      some (some (value * 64 + n), ⟨0, 0, 0, 0⟩) := by
  unfold utf8Step
  rw [toNat_toUInt8 (by omega)]
  dsimp only
  rw [if_neg (by omega), if_pos ⟨hlow, hhigh⟩, if_pos rfl, Nat.add_sub_cancel_left]

/-- The bytes of a code point are decoded to it. -/
theorem utf8Run_utf8Encode {c : Nat} {bytes : List UInt8} (h : utf8Encode c = some bytes)
    (rest : List UInt8) :
    utf8Run ⟨0, 0, 0, 0⟩ (bytes ++ rest) = (utf8Run ⟨0, 0, 0, 0⟩ rest).map (c :: ·) := by
  unfold utf8Encode at h
  split_ifs at h with h1 h2 hsurrogate h3 h4
  · obtain rfl := Option.some.inj h
    exact utf8Run_ascii h1 rest
  · obtain rfl := Option.some.inj h
    have hlead := utf8Step_two (a := c / 64) (by omega) (by omega)
    have hlast : utf8Step ⟨1, c / 64, 0x80, 0xBF⟩ (0x80 + c % 64).toUInt8 =
        some (some (c / 64 * 64 + c % 64), ⟨0, 0, 0, 0⟩) :=
      utf8Step_last (by omega) (by omega) (by omega)
    have hvalue : c / 64 * 64 + c % 64 = c := by omega
    rw [hvalue] at hlast
    simp only [List.cons_append, List.nil_append, utf8Run, hlead, hlast]
  · obtain rfl := Option.some.inj h
    have hlead := utf8Step_three (a := c / 4096) (by omega)
    unfold isHighSurrogate isLowSurrogate at hsurrogate
    simp only [Bool.or_eq_true, Bool.and_eq_true, decide_eq_true_eq] at hsurrogate
    -- the ranges of the second byte leave out surrogates and what is written shorter
    have hmore : utf8Step ⟨2, c / 4096, if c / 4096 = 0 then 0xA0 else 0x80,
        if c / 4096 = 13 then 0x9F else 0xBF⟩ (0x80 + c / 64 % 64).toUInt8 =
        some (none, ⟨1, c / 4096 * 64 + c / 64 % 64, 0x80, 0xBF⟩) := by
      apply utf8Step_more
      · split <;> omega
      · split <;> omega
      · omega
    have hlast : utf8Step ⟨1, c / 4096 * 64 + c / 64 % 64, 0x80, 0xBF⟩ (0x80 + c % 64).toUInt8 =
        some (some ((c / 4096 * 64 + c / 64 % 64) * 64 + c % 64), ⟨0, 0, 0, 0⟩) :=
      utf8Step_last (by omega) (by omega) (by omega)
    have hvalue : (c / 4096 * 64 + c / 64 % 64) * 64 + c % 64 = c := by omega
    rw [hvalue] at hlast
    simp only [List.cons_append, List.nil_append, utf8Run, hlead, hmore, hlast]
  · obtain rfl := Option.some.inj h
    have hlead := utf8Step_four (a := c / 262144) (by omega)
    have hmore : utf8Step ⟨3, c / 262144, if c / 262144 = 0 then 0x90 else 0x80,
        if c / 262144 = 4 then 0x8F else 0xBF⟩ (0x80 + c / 4096 % 64).toUInt8 =
        some (none, ⟨2, c / 262144 * 64 + c / 4096 % 64, 0x80, 0xBF⟩) := by
      apply utf8Step_more
      · split <;> omega
      · split <;> omega
      · omega
    have hmore' : utf8Step ⟨2, c / 262144 * 64 + c / 4096 % 64, 0x80, 0xBF⟩
        (0x80 + c / 64 % 64).toUInt8 =
        some (none, ⟨1, (c / 262144 * 64 + c / 4096 % 64) * 64 + c / 64 % 64, 0x80, 0xBF⟩) :=
      utf8Step_more (by omega) (by omega) (by omega)
    have hlast : utf8Step ⟨1, (c / 262144 * 64 + c / 4096 % 64) * 64 + c / 64 % 64, 0x80, 0xBF⟩
        (0x80 + c % 64).toUInt8 =
        some (some (((c / 262144 * 64 + c / 4096 % 64) * 64 + c / 64 % 64) * 64 + c % 64),
          ⟨0, 0, 0, 0⟩) :=
      utf8Step_last (by omega) (by omega) (by omega)
    have hvalue : ((c / 262144 * 64 + c / 4096 % 64) * 64 + c / 64 % 64) * 64 + c % 64 = c := by
      omega
    rw [hvalue] at hlast
    simp only [List.cons_append, List.nil_append, utf8Run, hlead, hmore, hmore', hlast]

/-! ## Texts -/

/-- Text that can be encoded is decoded to what it was. -/
theorem utf8Decode_utf8EncodeText {text : PyStr} {bytes : List UInt8}
    (h : utf8EncodeText text = some bytes) : utf8Decode bytes = some text := by
  unfold utf8Decode
  induction text generalizing bytes with
  | nil =>
      obtain rfl := Option.some.inj h
      rfl
  | cons c rest ih =>
      unfold utf8EncodeText at h
      split at h
      · rename_i first others hfirst hothers
        obtain rfl := Option.some.inj h
        rw [utf8Run_utf8Encode hfirst, ih hothers]
        rfl
      · cases h

/-- Whether a code point is half of a surrogate pair. -/
def isSurrogate (c : Nat) : Bool := isHighSurrogate c || isLowSurrogate c

theorem utf8EncodeText_of_fsencode {text : PyStr} (hplain : ∀ c ∈ text, isSurrogate c = false)
    {bytes : List UInt8} (h : fsencode text = some bytes) : utf8EncodeText text = some bytes := by
  induction text generalizing bytes with
  | nil => exact h
  | cons c rest ih =>
      have hc : ¬ (0xDC80 ≤ c ∧ c ≤ 0xDCFF) := by
        intro hrange
        have hnot := hplain c List.mem_cons_self
        unfold isSurrogate isLowSurrogate at hnot
        simp only [Bool.or_eq_false_iff, Bool.and_eq_false_iff, decide_eq_false_iff_not] at hnot
        omega
      unfold fsencode at h
      split at h
      · cases h
      · split at h
        · rename_i first others hfirst hothers
          obtain rfl := Option.some.inj h
          unfold fsencodeChar at hfirst
          rw [if_neg hc] at hfirst
          unfold utf8EncodeText
          rw [hfirst, ih (fun d hd => hplain d (List.mem_cons_of_mem _ hd)) hothers]
        · cases h

/-- Texts without surrogates that have the same file name are the same. -/
theorem fsencode_injective {first second : PyStr} (hfirst : ∀ c ∈ first, isSurrogate c = false)
    (hsecond : ∀ c ∈ second, isSurrogate c = false) {bytes : List UInt8}
    (h : fsencode first = some bytes) (h' : fsencode second = some bytes) : first = second := by
  have hdecode := utf8Decode_utf8EncodeText (utf8EncodeText_of_fsencode hfirst h)
  have hdecode' := utf8Decode_utf8EncodeText (utf8EncodeText_of_fsencode hsecond h')
  exact Option.some.inj (hdecode.symm.trans hdecode')

/-! ## Plain text -/

/-- A printable ASCII character. -/
def isPrintable (c : Nat) : Bool := 32 ≤ c && c < 127

/-- A printable ASCII character, or a newline. -/
def isPlain (c : Nat) : Bool := c = 10 || (32 ≤ c && c < 127)

theorem utf8EncodeText_of_plain {text : PyStr} (h : text.all isPlain = true) :
    ∃ bytes, utf8EncodeText text = some bytes := by
  induction text with
  | nil => exact ⟨[], rfl⟩
  | cons c rest ih =>
      rw [List.all_cons, Bool.and_eq_true] at h
      obtain ⟨hplain, hrest⟩ := h
      obtain ⟨bytes, hbytes⟩ := ih hrest
      have hc : c < 0x80 := by
        unfold isPlain at hplain
        simp only [Bool.or_eq_true, Bool.and_eq_true, decide_eq_true_eq] at hplain
        omega
      have hencode : utf8Encode c = some [c.toUInt8] := by
        unfold utf8Encode
        rw [if_pos hc]
      refine ⟨c.toUInt8 :: bytes, ?_⟩
      unfold utf8EncodeText
      rw [hencode, hbytes]
      rfl

theorem utf8EncodeText_of_ascii {text : PyStr} (h : ∀ c ∈ text, c < 0x80) :
    utf8EncodeText text = some (text.map Nat.toUInt8) := by
  induction text with
  | nil => rfl
  | cons c rest ih =>
      have hencode : utf8Encode c = some [c.toUInt8] := by
        unfold utf8Encode
        rw [if_pos (h c List.mem_cons_self)]
      unfold utf8EncodeText
      rw [hencode, ih fun d hd => h d (List.mem_cons_of_mem _ hd)]
      rfl

theorem universalNewlines_of_plain {text : PyStr} (h : text.all isPlain = true) :
    universalNewlines text = text := by
  induction text with
  | nil => rfl
  | cons c rest ih =>
      rw [List.all_cons, Bool.and_eq_true] at h
      have hc : c ≠ 13 := by
        rintro rfl
        exact absurd h.1 (by decide)
      rw [universalNewlines.eq_def]
      split
      · rename_i heq
        cases heq
      · rename_i heq
        exact absurd (List.cons.inj heq).1 hc
      · rename_i heq
        exact absurd (List.cons.inj heq).1 hc
      · rename_i heq
        obtain ⟨rfl, rfl⟩ := List.cons.inj heq
        rw [ih h.2]

end Base
