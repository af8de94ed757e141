import NoraFleet.Base.Dict
import NoraFleet.Base.Text

/-!
# JSON

JSON values and `json.loads`, as a machine that takes one character at a time.
What is open around the current position is a stack of frames, so a document of
any size is read by a fold over its characters.

`loads` fails in three ways that programs tell apart: a `JSONDecodeError`, the
`ValueError` of an integer with too many digits, and the `RecursionError` of
containers nested deeper than the interpreter allows.
-/

namespace Base

/-- A JSON value. The members of an object are in the order of their first
occurrence, no key twice. -/
inductive Json where
  | null
  | bool (b : Bool)
  | int (n : Int)
  | float (x : Double)
  | str (s : PyStr)
  | arr (items : List Json)
  | obj (members : List (PyStr × Json))

/-- How `json.loads` fails. -/
inductive LoadError where
  | jsonDecodeError
  | valueError
  | recursionError
  deriving DecidableEq, Repr

namespace Json

/-- `members.get(key)`. -/
def lookup (members : List (PyStr × Json)) (key : PyStr) : Option Json :=
  (members.find? fun member => member.1 = key).map Prod.snd

theorem lookup_cons (member : PyStr × Json) (rest : List (PyStr × Json)) (key : PyStr) :
    lookup (member :: rest) key = if member.1 = key then some member.2 else lookup rest key := by
  unfold lookup
  rw [List.find?_cons]
  by_cases hkey : member.1 = key <;> simp [hkey]

theorem lookup_of_not_mem {members : List (PyStr × Json)} {key : PyStr}
    (h : key ∉ members.map Prod.fst) : lookup members key = none := by
  induction members with
  | nil => rfl
  | cons member rest ih =>
      rw [List.map_cons, List.mem_cons, not_or] at h
      rw [lookup_cons, if_neg (Ne.symm h.1), ih h.2]

/-- Replacing the value of a key touches no other. -/
theorem lookup_replace (members : List (PyStr × Json)) {key other : PyStr} (v : Json)
    (hother : other ≠ key) :
    lookup (members.map fun e => if e.1 = key then (key, v) else e) other =
      lookup members other := by
  induction members with
  | nil => rfl
  | cons member rest ih =>
      rw [List.map_cons, lookup_cons, lookup_cons, ih]
      by_cases hkey : member.1 = key
      · rw [if_pos hkey, if_neg (Ne.symm hother), if_neg fun h => hother (h.symm.trans hkey)]
      · rw [if_neg hkey]

/-- A member that is set is found, and no other is touched. -/
theorem lookup_setItems (members : List (PyStr × Json)) (key other : PyStr) (v : Json) :
    lookup (Dict.setItems members key v) other =
      if other = key then some v else lookup members other := by
  induction members with
  | nil =>
      show lookup [(key, v)] other = _
      rw [lookup_cons]
      simp only [eq_comm]
  | cons member rest ih =>
      by_cases hkey : member.1 = key
      · have hset : Dict.setItems (member :: rest) key v =
            (key, v) :: rest.map fun e => if e.1 = key then (key, v) else e := by
          unfold Dict.setItems
          rw [if_pos (by simp [hkey]), List.map_cons, if_pos hkey]
        rw [hset, lookup_cons]
        by_cases hother : other = key
        · rw [if_pos hother.symm, if_pos hother]
        · rw [if_neg (Ne.symm hother), if_neg hother, lookup_replace rest v hother, lookup_cons,
            if_neg fun h => hother (h.symm.trans hkey)]
      · have hset : Dict.setItems (member :: rest) key v = member :: Dict.setItems rest key v := by
          unfold Dict.setItems
          rw [List.map_cons]
          by_cases hmem : key ∈ rest.map Prod.fst
          · rw [if_pos hmem, if_pos (List.mem_cons_of_mem _ hmem), List.map_cons, if_neg hkey]
          · rw [if_neg hmem, if_neg fun h => (List.mem_cons.mp h).elim (Ne.symm hkey) hmem]
            rfl
        rw [hset, lookup_cons, lookup_cons, ih]
        by_cases hother : other = key
        · rw [if_pos hother, if_neg fun h => hkey (h.trans hother), if_pos hother]
        · rw [if_neg hother, if_neg hother]

theorem setItems_ne_nil (members : List (PyStr × Json)) (key : PyStr) (v : Json) :
    Dict.setItems members key v ≠ [] := by
  intro h
  have hfound := lookup_setItems members key key v
  rw [h, if_pos rfl] at hfound
  cases hfound

/-- Setting a member changes nothing exactly if it is there with that value. -/
theorem setItems_eq_self_iff {members : List (PyStr × Json)}
    (nodup : (members.map Prod.fst).Nodup) {key : PyStr} {v : Json} :
    Dict.setItems members key v = members ↔ lookup members key = some v := by
  constructor
  · intro h
    have hset := lookup_setItems members key key v
    rw [h, if_pos rfl] at hset
    exact hset
  · intro h
    exact Dict.setItems_of_mem nodup ((Dict.find?_map_snd_eq_some nodup).mp h)

theorem setItems_setItems (members : List (PyStr × Json)) (key : PyStr) (v w : Json) :
    Dict.setItems (Dict.setItems members key v) key w = Dict.setItems members key w := by
  by_cases hmem : key ∈ members.map Prod.fst
  · have hmem' : key ∈ (Dict.setItems members key v).map Prod.fst := by
      rwa [Dict.setItems_keys, if_pos hmem]
    rw [Dict.setItems, if_pos hmem', Dict.setItems, if_pos hmem, List.map_map, Dict.setItems,
      if_pos hmem]
    refine List.map_congr_left fun member _ => ?_
    show (if (if member.1 = key then (key, v) else member).1 = key then (key, w)
      else if member.1 = key then (key, v) else member) = _
    by_cases heq : member.1 = key
    · rw [if_pos heq, if_pos rfl, if_pos heq]
    · rw [if_neg heq, if_neg heq]
  · have hnone : ∀ u : Json, Dict.setItems members key u = members ++ [(key, u)] :=
      fun _ => if_neg hmem
    have hmem' : key ∈ (members ++ [(key, v)]).map Prod.fst := by
      rw [List.map_append]
      exact List.mem_append_right _ (List.mem_singleton.mpr rfl)
    rw [hnone, hnone, Dict.setItems, if_pos hmem', List.map_append, List.map_singleton, if_pos rfl]
    refine congrArg (· ++ _) ((List.map_congr_left fun member hmember => ?_).trans (List.map_id _))
    refine if_neg fun heq : member.1 = key => hmem ?_
    rw [← heq]
    exact List.mem_map_of_mem hmember

/-- `bool(value)`. -/
def truthy : Json → Bool
  | .null => false
  | .bool b => b
  | .int n => n ≠ 0
  | .float x => x ≠ .fin 0
  | .str s => s ≠ []
  | .arr items => !items.isEmpty
  | .obj members => !members.isEmpty

theorem truthy_obj {members : List (PyStr × Json)} (h : members ≠ []) :
    (Json.obj members).truthy = true := by
  cases members with
  | nil => exact absurd rfl h
  | cons member rest => rfl

/-- The place of a number on the extended line. Booleans are not numbers. -/
def place : Json → Option (WithBot (WithTop ℚ))
  | .int n => some ((n : ℚ) : WithTop ℚ)
  | .float x => x.place
  | _ => none

/-- The value at a path of keys through objects. -/
def atPath : Json → List PyStr → Option Json
  | v, [] => some v
  | .obj members, key :: rest =>
      match lookup members key with
      | some v => v.atPath rest
      | none => none
  | _, _ :: _ => none

/-- A path through an object goes on from the member it names. -/
theorem atPath_obj (members : List (PyStr × Json)) (key : PyStr) (rest : List PyStr) :
    (Json.obj members).atPath (key :: rest) =
      (lookup members key).bind fun v => v.atPath rest := by
  show (match lookup members key with
    | some v => v.atPath rest
    | none => none) = _
  cases lookup members key with
  | none => rfl
  | some v => rfl

theorem atPath_of_ne_obj {v : Json} (h : ∀ members, v ≠ .obj members) (key : PyStr)
    (rest : List PyStr) : v.atPath (key :: rest) = none := by
  cases v with
  | obj members => exact absurd rfl (h members)
  | _ => rfl

theorem atPath_append (v : Json) (first rest : List PyStr) :
    v.atPath (first ++ rest) = (v.atPath first).bind fun w => w.atPath rest := by
  induction first generalizing v with
  | nil =>
      show v.atPath rest = (v.atPath []).bind _
      cases v <;> rfl
  | cons key keys ih =>
      cases v with
      | obj members =>
          rw [List.cons_append, atPath_obj, atPath_obj, Option.bind_assoc]
          exact Option.bind_congr fun w _ => ih w
      | _ => rfl

/-- What a `for` loop over a value goes through; `none` is the `TypeError` of a
value that is not iterable. -/
def iterate : Json → Option (List Json)
  | .arr items => some items
  | .obj members => some (members.map fun member => .str member.1)
  | .str s => some (s.map fun c => .str [c])
  | _ => none

/-- What dictionaries come from is a list. -/
theorem eq_arr_of_iterate {v : Json} {items : List Json} (hv : v.iterate = some items)
    (hne : items ≠ []) (hitems : ∀ item ∈ items, ∃ members, item = .obj members) :
    v = .arr items := by
  obtain ⟨first, hfirst⟩ := List.exists_mem_of_ne_nil items hne
  obtain ⟨members, rfl⟩ := hitems first hfirst
  cases v with
  | arr others => rw [Option.some.inj hv]
  | str s =>
      obtain rfl := Option.some.inj hv
      obtain ⟨c, -, hc⟩ := List.mem_map.mp hfirst
      cases hc
  | obj entries =>
      obtain rfl := Option.some.inj hv
      obtain ⟨entry, -, hentry⟩ := List.mem_map.mp hfirst
      cases hentry
  | null => cases hv
  | bool b => cases hv
  | int n => cases hv
  | float x => cases hv

/-- The value is a number below `t`. -/
def Below (t : ℚ) (v : Json) : Prop :=
  ∃ p, v.place = some p ∧ p < ((t : WithTop ℚ) : WithBot (WithTop ℚ))

/-- Where a container that is being read stands when a value in it is read. -/
inductive Frame where
  | item (done : List Json)
  | member (done : List (PyStr × Json)) (key : PyStr)

/-- Where a string being read stands in an escape. -/
inductive Escape where
  | none
  | backslash
  | hex (digits value : Nat)

/-- What a string is read for: a value, or a key after the given members. -/
inductive Purpose where
  | value
  | key (done : List (PyStr × Json))

/-- How far a numeral has been read. -/
inductive Phase where
  | minus
  | zero
  | int
  | point
  | frac
  | e
  | esign
  | exp
  deriving DecidableEq

/-- A numeral that is being read: the digits of its parts. -/
structure Numeral where
  phase : Phase
  negative : Bool
  ints : List Nat
  fracs : List Nat
  expNegative : Bool
  exps : List Nat

/-- What is expected at the current position. -/
inductive Mode where
  | value
  | firstItem
  | afterItem (done : List Json)
  | firstKey
  | nextKey (done : List (PyStr × Json))
  | colon (done : List (PyStr × Json)) (key : PyStr)
  | afterMember (done : List (PyStr × Json))
  -- `high`: the last code point is a high surrogate from an escape
  | string (acc : PyStr) (high : Bool) (escape : Escape) (purpose : Purpose)
  | literal (rest : PyStr) (v : Json)
  | numeral (n : Numeral)
  | done (v : Json)

/-- The state of the reader. -/
structure Reader where
  mode : Mode
  stack : List Frame

/-- The characters between tokens. -/
def isWs (c : Nat) : Bool := c = 32 || c = 9 || c = 10 || c = 13

/-- A value is complete: back to the container around it. -/
def finish (v : Json) : List Frame → Reader
  | [] => ⟨.done v, []⟩
  | .item done :: stack => ⟨.afterItem (done ++ [v]), stack⟩
  | .member done key :: stack => ⟨.afterMember (Dict.setItems done key v), stack⟩

def expectingValue : Except LoadError Reader := .error .jsonDecodeError

/-- The first character of a value. `limit` containers may be open at a time. -/
def startValue (limit c : Nat) (stack : List Frame) : Except LoadError Reader :=
  if c = 34 then .ok ⟨.string [] false .none .value, stack⟩
  else if c = 123 then
    if stack.length ≥ limit then .error .recursionError else .ok ⟨.firstKey, stack⟩
  else if c = 91 then
    if stack.length ≥ limit then .error .recursionError else .ok ⟨.firstItem, stack⟩
  else if c = 110 then .ok ⟨.literal (Base.str "ull") .null, stack⟩
  else if c = 116 then .ok ⟨.literal (Base.str "rue") (.bool true), stack⟩
  else if c = 102 then .ok ⟨.literal (Base.str "alse") (.bool false), stack⟩
  else if c = 78 then .ok ⟨.literal (Base.str "aN") (.float .nan), stack⟩
  else if c = 73 then .ok ⟨.literal (Base.str "nfinity") (.float (.inf false)), stack⟩
  else if c = 45 then .ok ⟨.numeral ⟨.minus, false, [], [], false, []⟩, stack⟩
  else match asciiDigit c with
    | some 0 => .ok ⟨.numeral ⟨.zero, false, [0], [], false, []⟩, stack⟩
    | some d => .ok ⟨.numeral ⟨.int, false, [d], [], false, []⟩, stack⟩
    | none => expectingValue

/-- A character after a value. -/
def stepAfter (c : Nat) (reader : Reader) : Except LoadError Reader :=
  match reader.mode with
  | .afterItem done =>
      if isWs c then .ok reader
      else if c = 44 then .ok ⟨.value, .item done :: reader.stack⟩
      else if c = 93 then .ok (finish (.arr done) reader.stack)
      else .error .jsonDecodeError
  | .afterMember done =>
      if isWs c then .ok reader
      else if c = 44 then .ok ⟨.nextKey done, reader.stack⟩
      else if c = 125 then .ok (finish (.obj done) reader.stack)
      else .error .jsonDecodeError
  | _ => if isWs c then .ok reader else .error .jsonDecodeError

/-- The most digits an integer may have. -/
def maxStrDigits : Nat := 4300

/-- The value of a complete numeral. -/
def Numeral.value (n : Numeral) : Except LoadError Json :=
  if n.phase = .zero ∨ n.phase = .int then
    if n.ints.length > maxStrDigits then
      .error .valueError
    else
      let magnitude : Int := ofDigits n.ints
      .ok (.int (if n.negative then -magnitude else magnitude))
  else
    let exponent : Int := ofDigits n.exps
    .ok (.float (decimalValue n.negative n.ints n.fracs
      (if n.expNegative then -exponent else exponent)))

/-- The numeral ends before `c`, which has to continue the document. -/
def endNumeral (n : Numeral) (c : Nat) (stack : List Frame) : Except LoadError Reader :=
  match n.value with
  | .error e => .error e
  | .ok v => stepAfter c (finish v stack)

/-- The longest numeral ended before a point or an exponent mark that nothing
follows: what is left is no JSON, whatever comes. -/
def failNumeral (n : Numeral) : LoadError :=
  match ({ n with phase := if n.fracs = [] then .int else .frac } : Numeral).value with
  | .error e => e
  | .ok _ => .jsonDecodeError

/-- One character of a numeral. -/
def stepNumeral (n : Numeral) (c : Nat) (stack : List Frame) : Except LoadError Reader :=
  let isMark := c = 101 ∨ c = 69
  match n.phase, asciiDigit c with
  | .minus, some 0 => .ok ⟨.numeral { n with phase := .zero, negative := true, ints := [0] }, stack⟩
  | .minus, some d => .ok ⟨.numeral { n with phase := .int, negative := true, ints := [d] }, stack⟩
  | .minus, none =>
      if c = 73 then .ok ⟨.literal (Base.str "nfinity") (.float (.inf true)), stack⟩
      else expectingValue
  | .int, some d => .ok ⟨.numeral { n with ints := n.ints ++ [d] }, stack⟩
  | .zero, some _ => endNumeral n c stack
  | .zero, none | .int, none =>
      if c = 46 then .ok ⟨.numeral { n with phase := .point }, stack⟩
      else if isMark then .ok ⟨.numeral { n with phase := .e }, stack⟩
      else endNumeral n c stack
  | .point, some d | .frac, some d =>
      .ok ⟨.numeral { n with phase := .frac, fracs := n.fracs ++ [d] }, stack⟩
  | .point, none => .error (failNumeral n)
  | .frac, none =>
      if isMark then .ok ⟨.numeral { n with phase := .e }, stack⟩ else endNumeral n c stack
  | .e, some d | .esign, some d | .exp, some d =>
      .ok ⟨.numeral { n with phase := .exp, exps := n.exps ++ [d] }, stack⟩
  | .e, none =>
      if c = 43 then .ok ⟨.numeral { n with phase := .esign }, stack⟩
      else if c = 45 then .ok ⟨.numeral { n with phase := .esign, expNegative := true }, stack⟩
      else .error (failNumeral n)
  | .esign, none => .error (failNumeral n)
  | .exp, none => endNumeral n c stack

/-- The value of a hexadecimal digit. -/
def hexDigit (c : Nat) : Option Nat :=
  if 48 ≤ c ∧ c ≤ 57 then some (c - 48)
  else if 97 ≤ c ∧ c ≤ 102 then some (c - 87)
  else if 65 ≤ c ∧ c ≤ 70 then some (c - 55)
  else none

/-- The code point after a backslash. -/
def escaped (c : Nat) : Option Nat :=
  if c = 34 ∨ c = 92 ∨ c = 47 then some c
  else if c = 98 then some 8
  else if c = 102 then some 12
  else if c = 110 then some 10
  else if c = 114 then some 13
  else if c = 116 then some 9
  else none

/-- A string is complete. -/
def endString (acc : PyStr) (purpose : Purpose) (stack : List Frame) : Reader :=
  match purpose with
  | .value => finish (.str acc) stack
  | .key done => ⟨.colon done acc, stack⟩

/-- One character of a string. A low surrogate right after a high one, both
escaped, is joined with it. -/
def stepString (acc : PyStr) (high : Bool) (escape : Escape) (purpose : Purpose) (c : Nat)
    (stack : List Frame) : Except LoadError Reader :=
  match escape with
  | .none =>
      if c = 34 then .ok (endString acc purpose stack)
      else if c = 92 then .ok ⟨.string acc high .backslash purpose, stack⟩
      else if c < 32 then .error .jsonDecodeError
      else .ok ⟨.string (acc ++ [c]) false .none purpose, stack⟩
  | .backslash =>
      if c = 117 then .ok ⟨.string acc high (.hex 0 0) purpose, stack⟩
      else match escaped c with
        | some d => .ok ⟨.string (acc ++ [d]) false .none purpose, stack⟩
        | none => .error .jsonDecodeError
  | .hex digits value =>
      match hexDigit c with
      | none => .error .jsonDecodeError
      | some d =>
          let value := 16 * value + d
          if digits < 3 then .ok ⟨.string acc high (.hex (digits + 1) value) purpose, stack⟩
          else if high ∧ isLowSurrogate value then
            let joined := joinSurrogates (acc.getLastD 0) value
            .ok ⟨.string (acc.dropLast ++ [joined]) false .none purpose, stack⟩
          else .ok ⟨.string (acc ++ [value]) (isHighSurrogate value) .none purpose, stack⟩

/-- One character of a document. -/
def step (limit : Nat) (reader : Reader) (c : Nat) : Except LoadError Reader :=
  let stack := reader.stack
  match reader.mode with
  | .value => if isWs c then .ok reader else startValue limit c stack
  | .firstItem =>
      if isWs c then .ok reader
      else if c = 93 then .ok (finish (.arr []) stack)
      else startValue limit c (.item [] :: stack)
  | .firstKey =>
      if isWs c then .ok reader
      else if c = 125 then .ok (finish (.obj []) stack)
      else if c = 34 then .ok ⟨.string [] false .none (.key []), stack⟩
      else .error .jsonDecodeError
  | .nextKey done =>
      if isWs c then .ok reader
      else if c = 34 then .ok ⟨.string [] false .none (.key done), stack⟩
      else .error .jsonDecodeError
  | .colon done key =>
      if isWs c then .ok reader
      else if c = 58 then .ok ⟨.value, .member done key :: stack⟩
      else .error .jsonDecodeError
  | .string acc high escape purpose => stepString acc high escape purpose c stack
  | .literal [] v => stepAfter c (finish v stack)
  | .literal (expected :: []) v => if c = expected then .ok (finish v stack) else expectingValue
  | .literal (expected :: rest) v =>
      if c = expected then .ok ⟨.literal rest v, stack⟩ else expectingValue
  | .numeral n => stepNumeral n c stack
  | .afterItem _ => stepAfter c reader
  | .afterMember _ => stepAfter c reader
  | .done _ => stepAfter c reader

/-- The characters of a document, one after the other. -/
def run (limit : Nat) (reader : Reader) : PyStr → Except LoadError Reader
  | [] => .ok reader
  | c :: rest =>
      match step limit reader c with
      | .error e => .error e
      | .ok reader' => run limit reader' rest

/-- The end of a document: only a numeral may still be open. -/
def close (reader : Reader) : Except LoadError Json :=
  match reader.mode, reader.stack with
  | .done v, _ => .ok v
  | .numeral n, stack =>
      match n.phase with
      | .minus => .error .jsonDecodeError
      | .point | .e | .esign => .error (failNumeral n)
      | _ =>
          match n.value, stack with
          | .error e, _ => .error e
          | .ok v, [] => .ok v
          | .ok _, _ => .error .jsonDecodeError
  | .string _ _ _ _, _ => .error .jsonDecodeError
  | _, _ => .error .jsonDecodeError

/-- `json.loads(s)`, with room for `limit` nested containers. -/
def loads (limit : Nat) (s : PyStr) : Except LoadError Json :=
  if s.head? = some 0xFEFF then
    .error .jsonDecodeError
  else
    match run limit ⟨.value, []⟩ s with
    | .error e => .error e
    | .ok reader => close reader

/-- The text of a document in bytes, in the encoding that `json.detect_encoding`
takes it to be in: a byte order mark tells, or where the first bytes are null. -/
def decodeDetected (bytes : List UInt8) : Option PyStr :=
  match bytes with
  | 0x00 :: 0x00 :: 0xFE :: 0xFF :: rest => utf32Decode true rest
  | 0xFF :: 0xFE :: 0x00 :: 0x00 :: rest => utf32Decode false rest
  | 0xFE :: 0xFF :: rest => utf16Decode true rest
  | 0xFF :: 0xFE :: rest => utf16Decode false rest
  | 0xEF :: 0xBB :: 0xBF :: rest => utf8DecodePass rest
  | a :: b :: c :: d :: _ =>
      if a = 0 then if b = 0 then utf32Decode true bytes else utf16Decode true bytes
      else if b = 0 then
        if c = 0 ∧ d = 0 then utf32Decode false bytes else utf16Decode false bytes
      else utf8DecodePass bytes
  | [a, b] =>
      if a = 0 then utf16Decode true bytes
      else if b = 0 then utf16Decode false bytes
      else utf8DecodePass bytes
  | _ => utf8DecodePass bytes

/-- `json.loads(body)` of bytes. A `UnicodeDecodeError` is a `ValueError`. -/
def loadsBytes (limit : Nat) (body : List UInt8) : Except LoadError Json :=
  match decodeDetected body with
  | none => .error .valueError
  | some s => loads limit s

end Json

end Base
