import Mathlib.Data.List.Basic
import NoraFleet.Base.Double

/-!
# Text

The `str` of the Python data model: a sequence of code points, lone surrogates
included, with the parts of its library that programs reading untrusted text
rely on: UTF-8, file-system encoding, stripping and the reading of a float.
-/

namespace Base

/-- A string: its code points. -/
abbrev PyStr := List Nat

/-- A literal. -/
def str (text : String) : PyStr := text.toList.map Char.toNat

def isHighSurrogate (c : Nat) : Bool := 0xD800 ≤ c && c < 0xDC00

def isLowSurrogate (c : Nat) : Bool := 0xDC00 ≤ c && c < 0xE000

/-- The code point a pair of surrogates stands for. -/
def joinSurrogates (high low : Nat) : Nat := 0x10000 + (high - 0xD800) * 1024 + (low - 0xDC00)

/-! ## UTF-8 -/

/-- The UTF-8 form of a code point; surrogates have none. -/
def utf8Encode (c : Nat) : Option (List UInt8) :=
  if c < 0x80 then some [c.toUInt8]
  else if c < 0x800 then some [(0xC0 + c / 64).toUInt8, (0x80 + c % 64).toUInt8]
  else if isHighSurrogate c || isLowSurrogate c then none
  else if c < 0x10000 then
    some [(0xE0 + c / 4096).toUInt8, (0x80 + c / 64 % 64).toUInt8, (0x80 + c % 64).toUInt8]
  else if c < 0x110000 then
    some [(0xF0 + c / 262144).toUInt8, (0x80 + c / 4096 % 64).toUInt8,
      (0x80 + c / 64 % 64).toUInt8, (0x80 + c % 64).toUInt8]
  else none

/-- Where a decoder is between two bytes: the continuation bytes still needed,
the value so far, and the range the next one has to be in. -/
structure Utf8State where
  need : Nat
  value : Nat
  low : Nat
  high : Nat

/-- One byte of strict UTF-8: the code point completed, if any, and the state.
The ranges of the second byte rule out overlong forms, surrogates and values
beyond the last code point. -/
def utf8Step (state : Utf8State) (byte : UInt8) : Option (Option Nat × Utf8State) :=
  let b := byte.toNat
  if state.need = 0 then
    if b < 0x80 then some (some b, ⟨0, 0, 0, 0⟩)
    else if 0xC2 ≤ b ∧ b ≤ 0xDF then some (none, ⟨1, b - 0xC0, 0x80, 0xBF⟩)
    else if b = 0xE0 then some (none, ⟨2, 0, 0xA0, 0xBF⟩)
    else if b = 0xED then some (none, ⟨2, 0xD, 0x80, 0x9F⟩)
    else if 0xE1 ≤ b ∧ b ≤ 0xEF then some (none, ⟨2, b - 0xE0, 0x80, 0xBF⟩)
    else if b = 0xF0 then some (none, ⟨3, 0, 0x90, 0xBF⟩)
    else if 0xF1 ≤ b ∧ b ≤ 0xF3 then some (none, ⟨3, b - 0xF0, 0x80, 0xBF⟩)
    else if b = 0xF4 then some (none, ⟨3, 4, 0x80, 0x8F⟩)
    else none
  else if state.low ≤ b ∧ b ≤ state.high then
    let value := state.value * 64 + (b - 0x80)
    if state.need = 1 then some (some value, ⟨0, 0, 0, 0⟩)
    else some (none, ⟨state.need - 1, value, 0x80, 0xBF⟩)
  else none

/-- Decode from a state on. -/
def utf8Run (state : Utf8State) : List UInt8 → Option PyStr
  | [] => if state.need = 0 then some [] else none
  | byte :: rest =>
      match utf8Step state byte with
      | none => none
      | some (none, state') => utf8Run state' rest
      | some (some c, state') => (utf8Run state' rest).map (c :: ·)

/-- `bytes.decode("utf-8")`; `none` is the `UnicodeDecodeError`. -/
def utf8Decode (bytes : List UInt8) : Option PyStr := utf8Run ⟨0, 0, 0, 0⟩ bytes

/-- One byte of UTF-8 that lets surrogates pass. -/
def utf8StepPass (state : Utf8State) (byte : UInt8) : Option (Option Nat × Utf8State) :=
  if state.need = 0 ∧ byte = 0xED then some (none, ⟨2, 0xD, 0x80, 0xBF⟩) else utf8Step state byte

/-- Decode from a state on, and let surrogates pass. -/
def utf8RunPass (state : Utf8State) : List UInt8 → Option PyStr
  | [] => if state.need = 0 then some [] else none
  | byte :: rest =>
      match utf8StepPass state byte with
      | none => none
      | some (none, state') => utf8RunPass state' rest
      | some (some c, state') => (utf8RunPass state' rest).map (c :: ·)

/-- `bytes.decode("utf-8", "surrogatepass")`. -/
def utf8DecodePass (bytes : List UInt8) : Option PyStr := utf8RunPass ⟨0, 0, 0, 0⟩ bytes

/-! ## UTF-16 and UTF-32 -/

/-- The code units of two bytes each; `none` when a byte is left. -/
def codeUnits16 (bigEndian : Bool) : List UInt8 → Option (List Nat)
  | [] => some []
  | [_] => none
  | a :: b :: rest =>
      let unit := if bigEndian then 256 * a.toNat + b.toNat else a.toNat + 256 * b.toNat
      (codeUnits16 bigEndian rest).map (unit :: ·)

/-- Pairs of surrogates become one code point, others pass. -/
def joinCodeUnits : List Nat → PyStr
  | [] => []
  | [c] => [c]
  | high :: low :: rest =>
      if isHighSurrogate high && isLowSurrogate low then
        joinSurrogates high low :: joinCodeUnits rest
      else high :: joinCodeUnits (low :: rest)

/-- `bytes.decode("utf-16-be", "surrogatepass")`, or `"utf-16-le"`. -/
def utf16Decode (bigEndian : Bool) (bytes : List UInt8) : Option PyStr :=
  (codeUnits16 bigEndian bytes).map joinCodeUnits

/-- `bytes.decode("utf-32-be", "surrogatepass")`, or `"utf-32-le"`. -/
def utf32Decode (bigEndian : Bool) : List UInt8 → Option PyStr
  | [] => some []
  | a :: b :: c :: d :: rest =>
      let unit :=
        if bigEndian then
          16777216 * a.toNat + 65536 * b.toNat + 256 * c.toNat + d.toNat
        else a.toNat + 256 * b.toNat + 65536 * c.toNat + 16777216 * d.toNat
      if unit < 0x110000 then (utf32Decode bigEndian rest).map (unit :: ·) else none
  | _ => none

/-! ## Text files -/

/-- The text a file opened in text mode gives: every kind of line end becomes a
newline. -/
def universalNewlines : PyStr → PyStr
  | [] => []
  | 13 :: 10 :: rest => 10 :: universalNewlines rest
  | 13 :: rest => 10 :: universalNewlines rest
  | c :: rest => c :: universalNewlines rest

/-! ## File names -/

/-- The bytes one code point of a file name stands for: UTF-8, with the
surrogates that stand for undecodable bytes turned back into these. -/
def fsencodeChar (c : Nat) : Option (List UInt8) :=
  if 0xDC80 ≤ c ∧ c ≤ 0xDCFF then some [(c - 0xDC00).toUInt8] else utf8Encode c

/-- The bytes of a file name, as the system call gets them; `none` is the
`ValueError` of a name with a null character or one that cannot be encoded. -/
def fsencode : PyStr → Option (List UInt8)
  | [] => some []
  | c :: rest =>
      if c = 0 then none
      else
        match fsencodeChar c, fsencode rest with
        | some bytes, some others => some (bytes ++ others)
        | _, _ => none

/-! ## Whitespace and digits -/

/-- `c.isspace()`. -/
def isSpace (c : Nat) : Bool :=
  (9 ≤ c && c ≤ 13) || (28 ≤ c && c ≤ 32) || c = 0x85 || c = 0xA0 || c = 0x1680 ||
    (0x2000 ≤ c && c ≤ 0x200A) || c = 0x2028 || c = 0x2029 || c = 0x202F || c = 0x205F ||
    c = 0x3000

/-- Remove what satisfies `p` from both ends. -/
def stripWith (p : Nat → Bool) (s : PyStr) : PyStr :=
  ((s.dropWhile p).reverse.dropWhile p).reverse

/-- `s.strip()`. -/
def strip (s : PyStr) : PyStr := stripWith isSpace s

/-- The zeros of the scripts that have decimal digits. -/
def decimalZeros : List Nat :=
  [0x30, 0x660, 0x6F0, 0x7C0, 0x966, 0x9E6, 0xA66, 0xAE6, 0xB66, 0xBE6, 0xC66, 0xCE6, 0xD66,
    0xDE6, 0xE50, 0xED0, 0xF20, 0x1040, 0x1090, 0x17E0, 0x1810, 0x1946, 0x19D0, 0x1A80, 0x1A90,
    0x1B50, 0x1BB0, 0x1C40, 0x1C50, 0xA620, 0xA8D0, 0xA900, 0xA9D0, 0xA9F0, 0xAA50, 0xABF0,
    0xFF10, 0x104A0, 0x10D30, 0x11066, 0x110F0, 0x11136, 0x111D0, 0x112F0, 0x11450, 0x114D0,
    0x11650, 0x116C0, 0x11730, 0x118E0, 0x11950, 0x11C50, 0x11D50, 0x11DA0, 0x11F50, 0x16A60,
    0x16AC0, 0x16B50, 0x1D7CE, 0x1D7D8, 0x1D7E2, 0x1D7EC, 0x1D7F6, 0x1E140, 0x1E2F0, 0x1E4F0,
    0x1E950, 0x1FBF0]

/-- The value of a decimal digit of any script. -/
def decimalDigit (c : Nat) : Option Nat :=
  (decimalZeros.find? fun first => first ≤ c && c < first + 10).map (c - ·)

/-- The value of an ASCII digit. -/
def asciiDigit (c : Nat) : Option Nat := if 48 ≤ c ∧ c ≤ 57 then some (c - 48) else none

/-- The number a list of digits denotes. -/
def ofDigits (digits : List Nat) : Nat := digits.foldl (fun n d => 10 * n + d) 0

/-! ## `float(s)` -/

/-- A decimal numeral, rounded to a double: the digits before and after the
point, and the exponent. -/
def decimalValue (negative : Bool) (ints fracs : List Nat) (exponent : Int) : Double :=
  let magnitude : ℚ := ofDigits (ints ++ fracs) * 10 ^ (exponent - fracs.length)
  Double.ofRat (if negative then -magnitude else magnitude)

/-- Other scripts' digits and spaces become ASCII, anything else that is not
ASCII a question mark. -/
def toAscii (c : Nat) : Nat :=
  if c < 127 then c
  else if isSpace c then 32
  else match decimalDigit c with
    | some d => 48 + d
    | none => 63

/-- Drop underscores, which are only allowed between two digits. -/
def dropUnderscores (previous : Option Nat) : PyStr → Option PyStr
  | [] => if previous = some 95 then none else some []
  | c :: rest =>
      let afterDigit := (previous.bind asciiDigit).isSome
      if c = 95 then if afterDigit then dropUnderscores (some c) rest else none
      else if previous = some 95 ∧ (asciiDigit c).isNone then none
      else (dropUnderscores (some c) rest).map (c :: ·)

/-- The leading digits, and what follows. -/
def spanDigits : PyStr → List Nat × PyStr
  | [] => ([], [])
  | c :: rest =>
      match asciiDigit c with
      | some d => (d :: (spanDigits rest).1, (spanDigits rest).2)
      | none => ([], c :: rest)

/-- The sign, and what follows. -/
def spanSign : PyStr → Bool × PyStr
  | 43 :: rest => (false, rest)
  | 45 :: rest => (true, rest)
  | s => (false, s)

/-- A decimal numeral with nothing after it. -/
def readDecimal (negative : Bool) (s : PyStr) : Option Double :=
  let ints := spanDigits s
  let fracs := match ints.2 with
    | 46 :: rest => spanDigits rest
    | rest => ([], rest)
  if ints.1 = [] ∧ fracs.1 = [] then none
  else match fracs.2 with
    | [] => some (decimalValue negative ints.1 fracs.1 0)
    | e :: rest =>
        if e = 101 ∨ e = 69 then
          let sign := spanSign rest
          let exponent := spanDigits sign.2
          if exponent.1 = [] ∨ exponent.2 ≠ [] then none
          else
            let magnitude : Int := ofDigits exponent.1
            some (decimalValue negative ints.1 fracs.1 (if sign.1 then -magnitude else magnitude))
        else none

/-- `float(s)` of a string; `none` is the `ValueError`. -/
def floatOfStr (s : PyStr) : Option Double :=
  let isBlank := fun c => (9 ≤ c && c ≤ 13) || c = 32
  match dropUnderscores none (stripWith isBlank (s.map toAscii)) with
  | none => none
  | some text =>
      let sign := spanSign text
      let word := sign.2.map fun c => if 65 ≤ c ∧ c ≤ 90 then c + 32 else c
      if word = str "inf" ∨ word = str "infinity" then some (.inf sign.1)
      else if word = str "nan" then some .nan
      else readDecimal sign.1 sign.2

/-! ## Splitting -/

theorem not_mem_of_mem_splitOn {separator : Nat} {text part : PyStr}
    (h : part ∈ text.splitOn separator) : separator ∉ part := by
  induction text generalizing part with
  | nil =>
      rw [List.splitOn_nil, List.mem_singleton] at h
      rw [h]
      exact List.not_mem_nil
  | cons c rest ih =>
      rw [List.splitOn_cons_eq_if_modifyHead] at h
      obtain ⟨first, others, hsplit⟩ :=
        List.exists_cons_of_ne_nil (List.splitOn_ne_nil separator rest)
      split at h
      · rcases List.mem_cons.mp h with rfl | h
        · exact List.not_mem_nil
        · exact ih h
      · rename_i hc
        rw [hsplit, List.modifyHead_cons] at h
        rcases List.mem_cons.mp h with rfl | h
        · rw [List.mem_cons, not_or]
          refine ⟨fun heq => hc (beq_iff_eq.mpr heq.symm), ih ?_⟩
          rw [hsplit]
          exact List.mem_cons_self
        · apply ih
          rw [hsplit]
          exact List.mem_cons_of_mem _ h

end Base
