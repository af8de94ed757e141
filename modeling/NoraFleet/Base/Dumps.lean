import Mathlib
import NoraFleet.Base.Numerals
import NoraFleet.Base.Utf8

/-!
# Writing JSON

`json.dumps`, compact or indented, and that `json.loads` gives back what it
wrote.

* `readsAs_dumpValue` — the text of a value is read as that value, inside any
  containers;
* `exists_dumpValue_ok_iff` — what can be written;
* `loads_dumps` — a document that is written is read back;
* `Layout.Closed.dumpValue` — what holds of the strings of a document and outside of them;
* `plain_of_dumps` — the text is ASCII, without carriage returns.
-/

namespace Base

namespace Json

/-! ## Texts -/

/-- A hexadecimal digit. -/
def hexChar (d : Nat) : Nat := if d < 10 then 48 + d else 87 + d

/-- `\uXXXX`. -/
def hexEscape (c : Nat) : PyStr :=
  [92, 117, hexChar (c / 4096 % 16), hexChar (c / 256 % 16), hexChar (c / 16 % 16),
    hexChar (c % 16)]

/-- A code point of a text, in ASCII. -/
def escapeChar (c : Nat) : PyStr :=
  if c = 34 then [92, 34]
  else if c = 92 then [92, 92]
  else if c = 10 then [92, 110]
  else if c = 13 then [92, 114]
  else if c = 9 then [92, 116]
  else if c = 12 then [92, 102]
  else if c = 8 then [92, 98]
  else if 32 ≤ c ∧ c ≤ 126 then [c]
  else if c < 0x10000 then hexEscape c
  else hexEscape (0xD800 + (c - 0x10000) / 1024) ++ hexEscape (0xDC00 + (c - 0x10000) % 1024)

/-- A text between quotes. -/
def stringText (s : PyStr) : PyStr := 34 :: (s.flatMap escapeChar ++ [34])

/-! ## Documents -/

/-- How a document is laid out: the blanks after a comma and after a colon, and
by how much every level is indented on lines of its own, if it is. -/
structure Layout where
  afterComma : Nat
  afterColon : Nat
  indent : Option Nat

/-- `separators=(",", ":")`. -/
def Layout.compact : Layout := ⟨0, 0, none⟩

/-- `indent=width`. -/
def Layout.indented (width : Nat) : Layout := ⟨0, 1, some width⟩

/-- The start of a line at a level. -/
def Layout.newline (layout : Layout) (level : Nat) : PyStr :=
  match layout.indent with
  | none => []
  | some width => 10 :: List.replicate (width * level) 32

/-- What stands between two items. -/
def Layout.between (layout : Layout) (level : Nat) : PyStr :=
  List.replicate layout.afterComma 32 ++ layout.newline level

/-- How `json.dumps` fails. -/
inductive DumpError where
  | valueError
  | recursionError
  deriving DecidableEq, Repr

/-- A container, around the texts of its contents. It takes some of the room for
nested containers. -/
def dumpContainer (layout : Layout) (opening closing room level : Nat)
    (contents : Nat → Except DumpError (List PyStr)) : Except DumpError PyStr :=
  match room with
  | 0 => .error .recursionError
  | room + 1 =>
      match contents room with
      | .error e => .error e
      | .ok [] => .ok [opening, closing]
      | .ok (first :: others) =>
          .ok (opening :: (layout.newline (level + 1) ++
            (first ++ others.flatMap (fun text => 44 :: (layout.between (level + 1) ++ text))) ++
            (layout.newline level ++ [closing])))

mutual

/-- The text of a value at a level, with room for so many nested containers. -/
def dumpValue (layout : Layout) : Json → Nat → Nat → Except DumpError PyStr
  | .null, _, _ => .ok (Base.str "null")
  | .bool b, _, _ => .ok (if b then Base.str "true" else Base.str "false")
  | .int n, _, _ =>
      match reprInt n with
      | some text => .ok text
      | none => .error .valueError
  | .float .nan, _, _ => .ok (Base.str "NaN")
  | .float (.inf negative), _, _ =>
      .ok (if negative then Base.str "-Infinity" else Base.str "Infinity")
  | .float (.fin q), _, _ => .ok (reprFloat q)
  | .str s, _, _ => .ok (stringText s)
  | .arr items, room, level =>
      dumpContainer layout 91 93 room level fun room => dumpItems layout items room (level + 1)
  | .obj members, room, level =>
      dumpContainer layout 123 125 room level fun room =>
        dumpMembers layout members room (level + 1)

/-- The texts of items. -/
def dumpItems (layout : Layout) : List Json → Nat → Nat → Except DumpError (List PyStr)
  | [], _, _ => .ok []
  | v :: rest, room, level =>
      match dumpValue layout v room level with
      | .error e => .error e
      | .ok text =>
          match dumpItems layout rest room level with
          | .error e => .error e
          | .ok texts => .ok (text :: texts)

/-- The texts of members. -/
def dumpMembers (layout : Layout) :
    List (PyStr × Json) → Nat → Nat → Except DumpError (List PyStr)
  | [], _, _ => .ok []
  | (key, v) :: rest, room, level =>
      match dumpValue layout v room level with
      | .error e => .error e
      | .ok text =>
          match dumpMembers layout rest room level with
          | .error e => .error e
          | .ok texts =>
              .ok ((stringText key ++ 58 :: (List.replicate layout.afterColon 32 ++ text)) :: texts)

end

/-- `json.dumps(v)`. -/
def dumps (layout : Layout) (room : Nat) (v : Json) : Except DumpError PyStr :=
  dumpValue layout v room 0

/-- A text that comes first, code point by code point. -/
def textLe : PyStr → PyStr → Bool
  | [], _ => true
  | _ :: _, [] => false
  | c :: rest, d :: other => c < d || (c = d && textLe rest other)

/-- A member put before the first one whose key does not come before its own. -/
def insertMember (member : PyStr × Json) : List (PyStr × Json) → List (PyStr × Json)
  | [] => [member]
  | other :: rest =>
      if textLe member.1 other.1 then member :: other :: rest
      else other :: insertMember member rest

mutual

/-- `sort_keys=True`: the members of every object in the order of their keys. -/
def sortKeys : Json → Json
  | .arr items => .arr (sortKeysItems items)
  | .obj members => .obj (sortKeysMembers members)
  | v => v

/-- The same, of items. -/
def sortKeysItems : List Json → List Json
  | [] => []
  | v :: rest => v.sortKeys :: sortKeysItems rest

/-- The same, of members. -/
def sortKeysMembers : List (PyStr × Json) → List (PyStr × Json)
  | [] => []
  | (key, v) :: rest => insertMember (key, v.sortKeys) (sortKeysMembers rest)

end

mutual

/-- How deep containers are nested in a value. -/
def depth : Json → Nat
  | .arr items => depthItems items + 1
  | .obj members => depthMembers members + 1
  | _ => 0

/-- The same, of items. -/
def depthItems : List Json → Nat
  | [] => 0
  | v :: rest => max v.depth (depthItems rest)

/-- The same, of members. -/
def depthMembers : List (PyStr × Json) → Nat
  | [] => 0
  | (_, v) :: rest => max v.depth (depthMembers rest)

end

mutual

/-- Whether all integers in a value have few enough digits to be written. -/
def intsFit : Json → Bool
  | .int n => decide ((digitsOf n.natAbs).length ≤ maxStrDigits)
  | .arr items => intsFitItems items
  | .obj members => intsFitMembers members
  | _ => true

/-- The same, of items. -/
def intsFitItems : List Json → Bool
  | [] => true
  | v :: rest => v.intsFit && intsFitItems rest

/-- The same, of members. -/
def intsFitMembers : List (PyStr × Json) → Bool
  | [] => true
  | (_, v) :: rest => v.intsFit && intsFitMembers rest

end

/-- A text of code points where no high surrogate is followed by a low one. -/
def wellFormedText (high : Bool) : PyStr → Bool
  | [] => true
  | c :: rest =>
      c < 0x110000 && !(high && isLowSurrogate c) && wellFormedText (isHighSurrogate c) rest

mutual

/-- Values as programs have them: finite numbers are doubles, texts are well
formed, no key is there twice. -/
def wellFormed : Json → Bool
  | .float (.fin q) => decide (Double.IsDouble q)
  | .str s => wellFormedText false s
  | .arr items => wellFormedItems items
  | .obj members => decide (members.map Prod.fst).Nodup && wellFormedMembers members
  | _ => true

/-- The same, of items. -/
def wellFormedItems : List Json → Bool
  | [] => true
  | v :: rest => v.wellFormed && wellFormedItems rest

/-- The same, of members. -/
def wellFormedMembers : List (PyStr × Json) → Bool
  | [] => true
  | (key, v) :: rest => wellFormedText false key && v.wellFormed && wellFormedMembers rest

end

/-! ## Well-formed values -/

theorem wellFormedMembers_iff {members : List (PyStr × Json)} :
    wellFormedMembers members = true ↔
      ∀ member ∈ members, wellFormedText false member.1 = true ∧
        member.2.wellFormed = true := by
  induction members with
  | nil => simp [wellFormedMembers]
  | cons member rest ih =>
      unfold wellFormedMembers
      rw [Bool.and_eq_true, Bool.and_eq_true, ih, List.forall_mem_cons]

/-- A dictionary is well formed when its members are. -/
theorem wellFormed_obj_iff {members : List (PyStr × Json)} :
    (obj members).wellFormed = true ↔ (members.map Prod.fst).Nodup ∧
      ∀ member ∈ members, wellFormedText false member.1 = true ∧
        member.2.wellFormed = true := by
  show (decide (members.map Prod.fst).Nodup && wellFormedMembers members) = true ↔ _
  rw [Bool.and_eq_true, decide_eq_true_eq, wellFormedMembers_iff]

/-- Setting a member keeps a dictionary well formed. -/
theorem wellFormed_setItems {members : List (PyStr × Json)} {key : PyStr} {v : Json}
    (h : (obj members).wellFormed = true) (hkey : wellFormedText false key = true)
    (hv : v.wellFormed = true) : (obj (Dict.setItems members key v)).wellFormed = true := by
  rw [wellFormed_obj_iff] at h ⊢
  have hdict := ((⟨members, h.1⟩ : Dict PyStr Json).set key v).nodup
  refine ⟨hdict, fun member hmember => ?_⟩
  have hitem : (member.1, member.2) ∈ ((⟨members, h.1⟩ : Dict PyStr Json).set key v).items :=
    hmember
  rcases Dict.mem_items_set.mp hitem with ⟨hfst, hsnd⟩ | ⟨-, hmem⟩
  · rw [hfst, hsnd]
    exact ⟨hkey, hv⟩
  · exact h.2 member hmem

theorem wellFormed_of_lookup {members : List (PyStr × Json)}
    (h : (obj members).wellFormed = true) {key : PyStr} {v : Json}
    (hlookup : lookup members key = some v) : v.wellFormed = true := by
  rw [wellFormed_obj_iff] at h
  exact (h.2 (key, v) ((Dict.find?_map_snd_eq_some h.1).mp hlookup)).2

/-! ## What can be written -/

/-- A container is written when what is in it is. -/
theorem dumpContainer_ok {layout : Layout} {opening closing room level : Nat}
    {contents : Nat → Except DumpError (List PyStr)} {text : PyStr}
    (h : dumpContainer layout opening closing room level contents = .ok text) :
    ∃ room' texts, room = room' + 1 ∧ contents room' = .ok texts ∧
      dumpContainer layout opening closing (room' + 1) level (fun _ => .ok texts) = .ok text := by
  cases room with
  | zero => cases h
  | succ room =>
      unfold dumpContainer at h
      dsimp only at h
      cases hcontents : contents room with
      | error e =>
          rw [hcontents] at h
          cases h
      | ok texts =>
          rw [hcontents] at h
          exact ⟨room, texts, rfl, hcontents, h⟩

/-- And only then. -/
theorem exists_dumpContainer_ok_iff {layout : Layout} {opening closing room level : Nat}
    {contents : Nat → Except DumpError (List PyStr)} :
    (∃ text, dumpContainer layout opening closing room level contents = .ok text) ↔
      ∃ room' texts, room = room' + 1 ∧ contents room' = .ok texts := by
  constructor
  · rintro ⟨text, h⟩
    obtain ⟨room', texts, hroom, hcontents, -⟩ := dumpContainer_ok h
    exact ⟨room', texts, hroom, hcontents⟩
  · rintro ⟨room', texts, rfl, hcontents⟩
    unfold dumpContainer
    dsimp only
    rw [hcontents]
    cases texts with
    | nil => exact ⟨_, rfl⟩
    | cons first others => exact ⟨_, rfl⟩

mutual

/-- A value is written when it is nested no deeper than there is room for, and its
integers fit. -/
theorem exists_dumpValue_ok_iff (layout : Layout) :
    ∀ (v : Json) (room level : Nat),
      (∃ text, dumpValue layout v room level = .ok text) ↔
        v.depth ≤ room ∧ v.intsFit = true
  | .null, _, _ => iff_of_true ⟨_, rfl⟩ ⟨Nat.zero_le _, rfl⟩
  | .bool _, _, _ => iff_of_true ⟨_, rfl⟩ ⟨Nat.zero_le _, rfl⟩
  | .int n, room, level => by
      have hfits : (Json.int n).intsFit = true ↔
          ¬ maxStrDigits < (digitsOf n.natAbs).length := by
        show decide _ = true ↔ _
        rw [decide_eq_true_eq, not_lt]
      rw [hfits]
      unfold dumpValue reprInt
      split
      · rename_i text h
        split at h
        · cases h
        · rename_i hdigits
          exact iff_of_true ⟨_, rfl⟩ ⟨Nat.zero_le _, hdigits⟩
      · rename_i h
        split at h
        · rename_i hdigits
          exact iff_of_false (fun ⟨_, h⟩ => nomatch h) fun h => h.2 hdigits
        · cases h
  | .float .nan, _, _ => iff_of_true ⟨_, rfl⟩ ⟨Nat.zero_le _, rfl⟩
  | .float (.inf _), _, _ => iff_of_true ⟨_, rfl⟩ ⟨Nat.zero_le _, rfl⟩
  | .float (.fin _), _, _ => iff_of_true ⟨_, rfl⟩ ⟨Nat.zero_le _, rfl⟩
  | .str _, _, _ => iff_of_true ⟨_, rfl⟩ ⟨Nat.zero_le _, rfl⟩
  | .arr items, room, level => by
      have hdepth : (Json.arr items).depth = depthItems items + 1 := rfl
      have hfits : (Json.arr items).intsFit = intsFitItems items := rfl
      unfold dumpValue
      rw [exists_dumpContainer_ok_iff, hdepth, hfits]
      constructor
      · rintro ⟨room', texts, rfl, htexts⟩
        obtain ⟨h, h'⟩ := (exists_dumpItems_ok_iff layout items room' (level + 1)).mp
          ⟨texts, htexts⟩
        exact ⟨by omega, h'⟩
      · rintro ⟨h, h'⟩
        obtain ⟨texts, htexts⟩ :=
          (exists_dumpItems_ok_iff layout items (room - 1) (level + 1)).mpr ⟨by omega, h'⟩
        exact ⟨room - 1, texts, by omega, htexts⟩
  | .obj members, room, level => by
      have hdepth : (Json.obj members).depth = depthMembers members + 1 := rfl
      have hfits : (Json.obj members).intsFit = intsFitMembers members := rfl
      unfold dumpValue
      rw [exists_dumpContainer_ok_iff, hdepth, hfits]
      constructor
      · rintro ⟨room', texts, rfl, htexts⟩
        obtain ⟨h, h'⟩ :=
          (exists_dumpMembers_ok_iff layout members room' (level + 1)).mp ⟨texts, htexts⟩
        exact ⟨by omega, h'⟩
      · rintro ⟨h, h'⟩
        obtain ⟨texts, htexts⟩ :=
          (exists_dumpMembers_ok_iff layout members (room - 1) (level + 1)).mpr ⟨by omega, h'⟩
        exact ⟨room - 1, texts, by omega, htexts⟩

/-- The same, of items. -/
theorem exists_dumpItems_ok_iff (layout : Layout) :
    ∀ (items : List Json) (room level : Nat),
      (∃ texts, dumpItems layout items room level = .ok texts) ↔
        depthItems items ≤ room ∧ intsFitItems items = true
  | [], _, _ => iff_of_true ⟨_, rfl⟩ ⟨Nat.zero_le _, rfl⟩
  | v :: rest, room, level => by
      have hfirst := exists_dumpValue_ok_iff layout v room level
      have hrest := exists_dumpItems_ok_iff layout rest room level
      unfold dumpItems depthItems intsFitItems
      rw [Nat.max_le, Bool.and_eq_true, and_and_and_comm, ← hfirst, ← hrest]
      constructor
      · rintro ⟨texts, h⟩
        split at h
        · cases h
        · rename_i text htext
          split at h
          · cases h
          · rename_i others hothers
            exact ⟨⟨text, htext⟩, others, hothers⟩
      · rintro ⟨⟨text, htext⟩, others, hothers⟩
        rw [htext, hothers]
        exact ⟨_, rfl⟩

/-- The same, of members. -/
theorem exists_dumpMembers_ok_iff (layout : Layout) :
    ∀ (members : List (PyStr × Json)) (room level : Nat),
      (∃ texts, dumpMembers layout members room level = .ok texts) ↔
        depthMembers members ≤ room ∧ intsFitMembers members = true
  | [], _, _ => iff_of_true ⟨_, rfl⟩ ⟨Nat.zero_le _, rfl⟩
  | (key, v) :: rest, room, level => by
      have hfirst := exists_dumpValue_ok_iff layout v room level
      have hrest := exists_dumpMembers_ok_iff layout rest room level
      unfold dumpMembers depthMembers intsFitMembers
      rw [Nat.max_le, Bool.and_eq_true, and_and_and_comm, ← hfirst, ← hrest]
      constructor
      · rintro ⟨texts, h⟩
        split at h
        · cases h
        · rename_i text htext
          split at h
          · cases h
          · rename_i others hothers
            exact ⟨⟨text, htext⟩, others, hothers⟩
      · rintro ⟨⟨text, htext⟩, others, hothers⟩
        rw [htext, hothers]
        exact ⟨_, rfl⟩

end

/-! ## Reading a text -/

theorem hexDigit_hexChar {d : Nat} (hd : d < 16) : hexDigit (hexChar d) = some d := by
  have hall : ∀ d < 16, hexDigit (hexChar d) = some d := by decide
  exact hall d hd

/-- The four digits of an escape. -/
theorem run_hexEscape (limit : Nat) (stack : List Frame) (acc : PyStr) (high : Bool)
    (purpose : Purpose) {c : Nat} (hc : c < 0x10000) :
    run limit ⟨.string acc high .none purpose, stack⟩ (hexEscape c) =
      .ok ⟨if high && isLowSurrogate c then
          .string (acc.dropLast ++ [joinSurrogates (acc.getLastD 0) c]) false .none purpose
        else .string (acc ++ [c]) (isHighSurrogate c) .none purpose, stack⟩ := by
  have hvalue : 16 * (16 * (16 * (16 * 0 + c / 4096 % 16) + c / 256 % 16) + c / 16 % 16) +
      c % 16 = c := by omega
  have hstep : ∀ {digits value d : Nat}, d < 16 → digits < 3 →
      step limit ⟨.string acc high (.hex digits value) purpose, stack⟩ (hexChar d) =
        .ok ⟨.string acc high (.hex (digits + 1) (16 * value + d)) purpose, stack⟩ := by
    intro digits value d hd hdigits
    show stepString acc high (.hex digits value) purpose (hexChar d) stack = _
    unfold stepString
    rw [hexDigit_hexChar hd]
    dsimp only
    rw [if_pos hdigits]
  have hlast : ∀ {value d : Nat}, d < 16 →
      step limit ⟨.string acc high (.hex 3 value) purpose, stack⟩ (hexChar d) =
        .ok ⟨if high && isLowSurrogate (16 * value + d) then
            .string (acc.dropLast ++ [joinSurrogates (acc.getLastD 0) (16 * value + d)]) false
              .none purpose
          else .string (acc ++ [16 * value + d]) (isHighSurrogate (16 * value + d)) .none purpose,
          stack⟩ := by
    intro value d hd
    show stepString acc high (.hex 3 value) purpose (hexChar d) stack = _
    unfold stepString
    rw [hexDigit_hexChar hd]
    dsimp only
    rw [if_neg (Nat.lt_irrefl 3)]
    cases high <;> cases isLowSurrogate (16 * value + d) <;> rfl
  have hmod : ∀ n : Nat, n % 16 < 16 := fun n => Nat.mod_lt n (by omega)
  have hbackslash : step limit ⟨.string acc high .none purpose, stack⟩ 92 =
      .ok ⟨.string acc high .backslash purpose, stack⟩ := rfl
  have hu : step limit ⟨.string acc high .backslash purpose, stack⟩ 117 =
      .ok ⟨.string acc high (.hex 0 0) purpose, stack⟩ := rfl
  unfold hexEscape
  rw [run_cons _ hbackslash, run_cons _ hu, run_cons _ (hstep (hmod _) (by omega)),
    run_cons _ (hstep (hmod _) (by omega)), run_cons _ (hstep (hmod _) (by omega)),
    run_cons _ (hlast (hmod _)), hvalue]
  rfl

/-- A pair of surrogates is joined. -/
theorem run_surrogates (limit : Nat) (stack : List Frame) (acc : PyStr) (high : Bool)
    (purpose : Purpose) {c : Nat} (hlow : 0x10000 ≤ c) (hc : c < 0x110000) :
    run limit ⟨.string acc high .none purpose, stack⟩
        (hexEscape (0xD800 + (c - 0x10000) / 1024) ++
          hexEscape (0xDC00 + (c - 0x10000) % 1024)) =
      .ok ⟨.string (acc ++ [c]) false .none purpose, stack⟩ := by
  obtain ⟨d, rfl⟩ := Nat.exists_eq_add_of_le hlow
  rw [Nat.add_sub_cancel_left]
  have hdiv : d / 1024 < 1024 := by omega
  have hmod : d % 1024 < 1024 := by omega
  have hvalue : d / 1024 * 1024 + d % 1024 = d := by omega
  generalize d / 1024 = a at hdiv hvalue ⊢
  generalize d % 1024 = b at hmod hvalue ⊢
  have hfirst : isLowSurrogate (0xD800 + a) = false := by
    unfold isLowSurrogate
    simp only [Bool.and_eq_false_iff, decide_eq_false_iff_not]
    omega
  have hfirst' : isHighSurrogate (0xD800 + a) = true := by
    unfold isHighSurrogate
    simp only [Bool.and_eq_true, decide_eq_true_eq]
    omega
  have hsecond : isLowSurrogate (0xDC00 + b) = true := by
    unfold isLowSurrogate
    simp only [Bool.and_eq_true, decide_eq_true_eq]
    omega
  have hjoin : joinSurrogates (0xD800 + a) (0xDC00 + b) = 0x10000 + d := by
    unfold joinSurrogates
    omega
  have hrun := run_hexEscape limit stack acc high purpose (c := 0xD800 + a) (by omega)
  rw [hfirst, Bool.and_false, if_neg Bool.false_ne_true, hfirst'] at hrun
  rw [run_append _ hrun, run_hexEscape limit stack _ _ purpose (by omega), hsecond]
  simp [hjoin]

/-- A code point of a text. -/
theorem run_escapeChar (limit : Nat) (stack : List Frame) (acc : PyStr) {high : Bool}
    (purpose : Purpose) {c : Nat} (hc : c < 0x110000)
    (hsplit : (high && isLowSurrogate c) = false) :
    run limit ⟨.string acc high .none purpose, stack⟩ (escapeChar c) =
      .ok ⟨.string (acc ++ [c]) (isHighSurrogate c) .none purpose, stack⟩ := by
  unfold escapeChar
  split_ifs with h34 h92 h10 h13 h9 h12 h8 hplain hsmall
  · subst h34; rfl
  · subst h92; rfl
  · subst h10; rfl
  · subst h13; rfl
  · subst h9; rfl
  · subst h12; rfl
  · subst h8; rfl
  · have hhigh : isHighSurrogate c = false := by
      unfold isHighSurrogate
      simp only [Bool.and_eq_false_iff, decide_eq_false_iff_not]
      omega
    have hstep : step limit ⟨.string acc high .none purpose, stack⟩ c =
        .ok ⟨.string (acc ++ [c]) false .none purpose, stack⟩ := by
      show stepString acc high .none purpose c stack = _
      unfold stepString
      dsimp only
      rw [if_neg h34, if_neg h92, if_neg (by omega)]
    rw [run_cons _ hstep, hhigh]
    rfl
  · rw [run_hexEscape limit stack acc high purpose hsmall, hsplit]
    rfl
  · have hhigh : isHighSurrogate c = false := by
      unfold isHighSurrogate
      simp only [Bool.and_eq_false_iff, decide_eq_false_iff_not]
      omega
    rw [run_surrogates limit stack acc high purpose (by omega) hc, hhigh]

/-- A text, up to the closing quote. -/
theorem run_string (limit : Nat) (stack : List Frame) (purpose : Purpose) {s : PyStr}
    {high : Bool} (hs : wellFormedText high s = true) (acc : PyStr) :
    run limit ⟨.string acc high .none purpose, stack⟩ (s.flatMap escapeChar ++ [34]) =
      .ok (endString (acc ++ s) purpose stack) := by
  induction s generalizing high acc with
  | nil =>
      rw [List.append_nil]
      rfl
  | cons c rest ih =>
      unfold wellFormedText at hs
      rw [Bool.and_eq_true, Bool.and_eq_true, Bool.not_eq_true', decide_eq_true_eq] at hs
      obtain ⟨⟨hc, hsplit⟩, hrest⟩ := hs
      rw [List.flatMap_cons, List.append_assoc,
        run_append _ (run_escapeChar limit stack acc purpose hc hsplit), ih hrest,
        List.append_assoc]
      rfl

/-! ## Reading a value -/

/-- Blanks between tokens. -/
theorem run_blanks {limit : Nat} {reader : Reader}
    (h : ∀ c, isWs c = true → step limit reader c = .ok reader) {blanks : PyStr}
    (hblanks : ∀ c ∈ blanks, isWs c = true) : run limit reader blanks = .ok reader := by
  induction blanks with
  | nil => rfl
  | cons c rest ih =>
      rw [run_cons _ (h c (hblanks c List.mem_cons_self))]
      exact ih fun d hd => hblanks d (List.mem_cons_of_mem _ hd)

theorem isWs_newline (layout : Layout) (level : Nat) :
    ∀ c ∈ layout.newline level, isWs c = true := by
  intro c hc
  unfold Layout.newline at hc
  split at hc
  · exact absurd hc List.not_mem_nil
  · rcases List.mem_cons.mp hc with rfl | hc
    · rfl
    · rw [List.eq_of_mem_replicate hc]
      rfl

theorem isWs_between (layout : Layout) (level : Nat) :
    ∀ c ∈ layout.between level, isWs c = true := by
  intro c hc
  rcases List.mem_append.mp hc with hc | hc
  · rw [List.eq_of_mem_replicate hc]
    rfl
  · exact isWs_newline layout level c hc

theorem isDelimiter_of_isWs {c : Nat} (h : isWs c = true) : isDelimiter c = true := by
  unfold isWs at h
  simp only [Bool.or_eq_true, decide_eq_true_eq] at h
  rcases h with ((rfl | rfl) | rfl) | rfl <;> rfl

theorem stepAfter_of_isWs {c : Nat} (h : isWs c = true) (v : Json) (stack : List Frame) :
    stepAfter c (finish v stack) = .ok (finish v stack) := by
  cases stack with
  | nil =>
      show (if isWs c then Except.ok (finish v []) else _) = _
      rw [if_pos h]
  | cons frame stack =>
      cases frame with
      | item done =>
          show (if isWs c then Except.ok (finish v (.item done :: stack)) else _) = _
          rw [if_pos h]
      | member done key =>
          show (if isWs c then Except.ok (finish v (.member done key :: stack)) else _) = _
          rw [if_pos h]

/-- After a value, blanks and a character that ends it. -/
theorem HasRead.run_end {limit : Nat} {stack : List Frame} {v : Json} {reader next : Reader}
    (h : HasRead stack v reader) {blanks : PyStr} (hblanks : ∀ c ∈ blanks, isWs c = true)
    {c : Nat} (hc : isDelimiter c = true) (hnext : stepAfter c (finish v stack) = .ok next) :
    run limit reader (blanks ++ [c]) = .ok next := by
  have hend : ∀ {reader : Reader}, HasRead stack v reader →
      run limit reader [c] = .ok next := by
    intro reader hread
    rw [run_cons _ ((hread.step_delimiter limit hc).trans hnext)]
    rfl
  cases blanks with
  | nil => exact hend h
  | cons d rest =>
      have hd : isWs d = true := hblanks d List.mem_cons_self
      have hstep := (h.step_delimiter limit (isDelimiter_of_isWs hd)).trans
        (stepAfter_of_isWs hd v stack)
      have hrest : run limit (finish v stack) rest = .ok (finish v stack) :=
        run_blanks (fun e he => (step_finish limit e v stack).trans (stepAfter_of_isWs he v stack))
          fun e he => hblanks e (List.mem_cons_of_mem _ he)
      rw [List.cons_append, run_cons _ hstep, run_append _ hrest]
      exact hend .finished

/-- Where a value or a key is expected, blanks are passed over. -/
theorem run_expecting {limit : Nat} {mode : Mode} {stack : List Frame}
    (hmode : mode = .value ∨ mode = .firstItem ∨ mode = .firstKey ∨ ∃ done, mode = .nextKey done)
    {blanks : PyStr} (hblanks : ∀ c ∈ blanks, isWs c = true) :
    run limit ⟨mode, stack⟩ blanks = .ok ⟨mode, stack⟩ := by
  apply run_blanks _ hblanks
  intro c hc
  rcases hmode with rfl | rfl | rfl | ⟨done, rfl⟩
  · show (if isWs c then Except.ok (⟨.value, stack⟩ : Reader) else _) = _
    rw [if_pos hc]
  · show (if isWs c then Except.ok (⟨.firstItem, stack⟩ : Reader) else _) = _
    rw [if_pos hc]
  · show (if isWs c then Except.ok (⟨.firstKey, stack⟩ : Reader) else _) = _
    rw [if_pos hc]
  · show (if isWs c then Except.ok (⟨.nextKey done, stack⟩ : Reader) else _) = _
    rw [if_pos hc]

theorem run_firstItem {limit : Nat} {stack : List Frame} {text : PyStr} (h : BeginsValue text) :
    run limit ⟨.firstItem, stack⟩ text = run limit ⟨.value, .item [] :: stack⟩ text := by
  obtain ⟨c, rest, rfl, hws, hclose, -⟩ := h
  have hfirst : step limit ⟨.firstItem, stack⟩ c = step limit ⟨.value, .item [] :: stack⟩ c := by
    show (if isWs c then Except.ok (⟨.firstItem, stack⟩ : Reader)
      else if c = 93 then Except.ok (finish (.arr []) stack)
      else startValue limit c (.item [] :: stack)) =
      if isWs c then Except.ok (⟨.value, .item [] :: stack⟩ : Reader)
      else startValue limit c (.item [] :: stack)
    rw [hws, if_neg Bool.false_ne_true, if_neg hclose, if_neg Bool.false_ne_true]
  unfold run
  rw [hfirst]

/-- The text is read as the value, in any containers that leave room for it. -/
def ReadsAs (limit : Nat) (v : Json) (text : PyStr) : Prop :=
  ∀ stack : List Frame, v.depth + stack.length ≤ limit → ReadsIn limit stack v text

theorem readsAs_stringText (limit : Nat) {s : PyStr} (hs : wellFormedText false s = true) :
    ReadsAs limit (.str s) (stringText s) := by
  intro stack _
  refine ⟨⟨34, _, rfl, rfl, by omega, by omega⟩, finish (.str s) stack, ?_, .finished⟩
  have hquote : step limit ⟨.value, stack⟩ 34 = .ok ⟨.string [] false .none .value, stack⟩ := rfl
  unfold stringText
  rw [run_cons _ hquote, run_string limit stack .value hs]
  rfl

/-- A literal is read character by character. -/
theorem readsAs_literal (limit : Nat) {v : Json} {text : PyStr} (hbegins : BeginsValue text)
    (hrun : ∀ stack, run limit ⟨.value, stack⟩ text = .ok (finish v stack)) :
    ReadsAs limit v text :=
  fun stack _ => ⟨hbegins, finish v stack, hrun stack, .finished⟩

/-! ## Reading a list -/

/-- A container fits when what is in it fits inside. -/
theorem step_opening {limit c : Nat} {stack : List Frame} (hroom : stack.length < limit)
    (hc : c = 91 ∨ c = 123) :
    step limit ⟨.value, stack⟩ c =
      .ok ⟨if c = 91 then .firstItem else .firstKey, stack⟩ := by
  have hnot : ¬ stack.length ≥ limit := Nat.not_le_of_gt hroom
  rcases hc with rfl | rfl
  · show (if stack.length ≥ limit then Except.error LoadError.recursionError
      else Except.ok (⟨.firstItem, stack⟩ : Reader)) = _
    rw [if_neg hnot]
    rfl
  · show (if stack.length ≥ limit then Except.error LoadError.recursionError
      else Except.ok (⟨.firstKey, stack⟩ : Reader)) = _
    rw [if_neg hnot]
    rfl

/-- What follows the first item of a list. -/
theorem run_items {limit : Nat} {stack : List Frame} {items : List Json} {texts : List PyStr}
    (h : List.Forall₂ (ReadsAs limit) items texts)
    (hdepth : depthItems items + (stack.length + 1) ≤ limit) {blanks closing : PyStr}
    (hblanks : ∀ c ∈ blanks, isWs c = true) (hclosing : ∀ c ∈ closing, isWs c = true)
    {done : List Json} {v : Json} {reader : Reader}
    (hread : HasRead (.item done :: stack) v reader) :
    run limit reader (texts.flatMap (fun text => 44 :: (blanks ++ text)) ++ (closing ++ [93])) =
      .ok (finish (.arr (done ++ v :: items)) stack) := by
  induction h generalizing done v reader with
  | nil =>
      rw [List.flatMap_nil, List.nil_append]
      exact hread.run_end hclosing rfl rfl
  | @cons item text items texts hitem _ ih =>
      unfold depthItems at hdepth
      rw [← Nat.add_max_add_right, Nat.max_le] at hdepth
      have hcomma : run limit reader ([] ++ [44]) =
          .ok ⟨.value, .item (done ++ [v]) :: stack⟩ :=
        hread.run_end (fun c hc => absurd hc List.not_mem_nil) rfl rfl
      rw [List.nil_append] at hcomma
      have hws : run limit ⟨.value, .item (done ++ [v]) :: stack⟩ blanks =
          .ok ⟨.value, .item (done ++ [v]) :: stack⟩ := run_expecting (.inl rfl) hblanks
      obtain ⟨reader', hrun, hread'⟩ := (hitem (.item (done ++ [v]) :: stack) hdepth.1).read
      have hlist : done ++ v :: item :: items = (done ++ [v]) ++ item :: items := by simp
      rw [List.flatMap_cons, List.append_assoc, List.cons_append, ← List.singleton_append,
        run_append _ hcomma, List.append_assoc, run_append _ hws, run_append _ hrun, hlist]
      exact ih hdepth.2 hread'

/-- A list is read item by item. -/
theorem readsAs_arr {limit : Nat} {layout : Layout} {room level : Nat} {items : List Json}
    {texts : List PyStr} (h : List.Forall₂ (ReadsAs limit) items texts) {text : PyStr}
    (htext : dumpContainer layout 91 93 (room + 1) level (fun _ => .ok texts) = .ok text) :
    ReadsAs limit (.arr items) text := by
  unfold dumpContainer at htext
  dsimp only at htext
  cases h with
  | nil =>
      obtain rfl := Except.ok.inj htext
      intro stack hdepth
      have hroom : stack.length < limit := by
        unfold depth depthItems at hdepth
        omega
      refine ⟨⟨91, [93], rfl, rfl, by omega, by omega⟩, finish (.arr []) stack, ?_, .finished⟩
      rw [run_cons _ (step_opening hroom (.inl rfl))]
      rfl
  | @cons item first items others hitem hitems =>
      obtain rfl := Except.ok.inj htext
      intro stack hdepth
      unfold depth depthItems at hdepth
      have hroom : stack.length < limit := by omega
      obtain ⟨hbegins, reader, hrun, hread⟩ := hitem (.item [] :: stack)
        (by rw [List.length_cons]; omega)
      have hws : run limit ⟨.firstItem, stack⟩ (layout.newline (level + 1)) =
          .ok ⟨.firstItem, stack⟩ :=
        run_expecting (.inr (.inl rfl)) (isWs_newline layout (level + 1))
      refine ⟨⟨91, _, rfl, rfl, by omega, by omega⟩, finish (.arr (item :: items)) stack, ?_,
        .finished⟩
      rw [← run_firstItem hbegins] at hrun
      rw [run_cons _ (step_opening hroom (.inl rfl)), if_pos rfl, List.append_assoc,
        run_append _ hws, List.append_assoc, run_append _ hrun]
      exact run_items hitems (by omega) (isWs_between layout (level + 1))
        (isWs_newline layout level) hread

/-! ## Reading an object -/

/-- The text of a member. -/
def MemberReadsAs (limit : Nat) (member : PyStr × Json) (text : PyStr) : Prop :=
  wellFormedText false member.1 = true ∧ ∃ blanks inner, (∀ c ∈ blanks, isWs c = true) ∧
    text = stringText member.1 ++ 58 :: (blanks ++ inner) ∧ ReadsAs limit member.2 inner

/-- A member is read where a key is expected. -/
theorem MemberReadsAs.run_eq {limit : Nat} {member : PyStr × Json} {text : PyStr}
    (h : MemberReadsAs limit member text) {stack : List Frame} {done : List (PyStr × Json)}
    {reader : Reader}
    (hkey : step limit reader 34 = .ok ⟨.string [] false .none (.key done), stack⟩)
    (hdepth : member.2.depth + (stack.length + 1) ≤ limit) :
    ∃ reader', run limit reader text = .ok reader' ∧
      HasRead (.member done member.1 :: stack) member.2 reader' := by
  obtain ⟨hwell, blanks, inner, hblanks, rfl, hinner⟩ := h
  obtain ⟨reader', hrun, hread⟩ := (hinner (.member done member.1 :: stack) hdepth).read
  refine ⟨reader', ?_, hread⟩
  have hcolon : step limit ⟨.colon done member.1, stack⟩ 58 =
      .ok ⟨.value, .member done member.1 :: stack⟩ := rfl
  have hws : run limit ⟨.value, .member done member.1 :: stack⟩ blanks =
      .ok ⟨.value, .member done member.1 :: stack⟩ := run_expecting (.inl rfl) hblanks
  have hname : run limit reader (stringText member.1) = .ok ⟨.colon done member.1, stack⟩ := by
    unfold stringText
    rw [run_cons _ hkey, run_string limit stack (.key done) hwell]
    rfl
  rw [run_append _ hname, run_cons _ hcolon, run_append _ hws, hrun]

/-- A new key goes to the end. -/
theorem finish_member {done : List (PyStr × Json)} {key : PyStr} (hkey : key ∉ done.map Prod.fst)
    (v : Json) (stack : List Frame) :
    finish v (.member done key :: stack) = ⟨.afterMember (done ++ [(key, v)]), stack⟩ := by
  unfold finish Dict.setItems
  dsimp only
  rw [if_neg hkey]

/-- What follows the first member of an object. -/
theorem run_members {limit : Nat} {stack : List Frame} {members : List (PyStr × Json)}
    {texts : List PyStr} (h : List.Forall₂ (MemberReadsAs limit) members texts)
    (hdepth : depthMembers members + (stack.length + 1) ≤ limit) {blanks closing : PyStr}
    (hblanks : ∀ c ∈ blanks, isWs c = true) (hclosing : ∀ c ∈ closing, isWs c = true)
    {done : List (PyStr × Json)} {key : PyStr} {v : Json} {reader : Reader}
    (hkeys : ((done ++ (key, v) :: members).map Prod.fst).Nodup)
    (hread : HasRead (.member done key :: stack) v reader) :
    run limit reader (texts.flatMap (fun text => 44 :: (blanks ++ text)) ++ (closing ++ [125])) =
      .ok (finish (.obj (done ++ (key, v) :: members)) stack) := by
  induction h generalizing done key v reader with
  | nil =>
      have hkey : key ∉ done.map Prod.fst := by
        rw [List.map_append, List.nodup_append] at hkeys
        exact fun hmem => hkeys.2.2 key hmem key (by simp) rfl
      rw [List.flatMap_nil, List.nil_append]
      apply hread.run_end hclosing rfl
      rw [finish_member hkey]
      rfl
  | @cons member text members texts hmember _ ih =>
      unfold depthMembers at hdepth
      rw [← Nat.add_max_add_right, Nat.max_le] at hdepth
      have hkey : key ∉ done.map Prod.fst := by
        rw [List.map_append, List.nodup_append] at hkeys
        exact fun hmem => hkeys.2.2 key hmem key (by simp) rfl
      have hcomma : run limit reader ([] ++ [44]) = .ok ⟨.nextKey (done ++ [(key, v)]), stack⟩ := by
        apply hread.run_end (fun c hc => absurd hc List.not_mem_nil) rfl
        rw [finish_member hkey]
        rfl
      rw [List.nil_append] at hcomma
      have hws : run limit ⟨.nextKey (done ++ [(key, v)]), stack⟩ blanks =
          .ok ⟨.nextKey (done ++ [(key, v)]), stack⟩ :=
        run_expecting (.inr (.inr (.inr ⟨_, rfl⟩))) hblanks
      have hquote : step limit ⟨.nextKey (done ++ [(key, v)]), stack⟩ 34 =
          .ok ⟨.string [] false .none (.key (done ++ [(key, v)])), stack⟩ := rfl
      obtain ⟨reader', hrun, hread'⟩ := hmember.run_eq hquote hdepth.1
      have hlist : done ++ (key, v) :: member :: members =
          (done ++ [(key, v)]) ++ (member.1, member.2) :: members := by simp
      rw [List.flatMap_cons, List.append_assoc, List.cons_append, ← List.singleton_append,
        run_append _ hcomma, List.append_assoc, run_append _ hws, run_append _ hrun, hlist]
      exact ih hdepth.2 (hlist ▸ hkeys) hread'

/-- An object is read member by member. -/
theorem readsAs_obj {limit : Nat} {layout : Layout} {room level : Nat}
    {members : List (PyStr × Json)} {texts : List PyStr}
    (h : List.Forall₂ (MemberReadsAs limit) members texts)
    (hkeys : (members.map Prod.fst).Nodup) {text : PyStr}
    (htext : dumpContainer layout 123 125 (room + 1) level (fun _ => .ok texts) = .ok text) :
    ReadsAs limit (.obj members) text := by
  unfold dumpContainer at htext
  dsimp only at htext
  cases h with
  | nil =>
      obtain rfl := Except.ok.inj htext
      intro stack hdepth
      have hroom : stack.length < limit := by
        unfold depth depthMembers at hdepth
        omega
      refine ⟨⟨123, [125], rfl, rfl, by omega, by omega⟩, finish (.obj []) stack, ?_, .finished⟩
      rw [run_cons _ (step_opening hroom (.inr rfl))]
      rfl
  | @cons member first members others hmember hmembers =>
      obtain rfl := Except.ok.inj htext
      intro stack hdepth
      unfold depth depthMembers at hdepth
      have hroom : stack.length < limit := by omega
      have hquote : step limit ⟨.firstKey, stack⟩ 34 =
          .ok ⟨.string [] false .none (.key []), stack⟩ := rfl
      obtain ⟨reader, hrun, hread⟩ := hmember.run_eq hquote (by omega)
      have hws : run limit ⟨.firstKey, stack⟩ (layout.newline (level + 1)) =
          .ok ⟨.firstKey, stack⟩ :=
        run_expecting (.inr (.inr (.inl rfl))) (isWs_newline layout (level + 1))
      have hopen : step limit ⟨.value, stack⟩ 123 = .ok ⟨.firstKey, stack⟩ :=
        step_opening hroom (.inr rfl)
      refine ⟨⟨123, _, rfl, rfl, by omega, by omega⟩, finish (.obj (member :: members)) stack, ?_,
        .finished⟩
      rw [run_cons _ hopen, List.append_assoc, run_append _ hws, List.append_assoc,
        run_append _ hrun]
      exact run_members hmembers (by omega) (isWs_between layout (level + 1))
        (isWs_newline layout level) hkeys hread

/-! ## Reading back what was written -/

mutual

/-- The text of a value is read as that value. -/
theorem readsAs_dumpValue (layout : Layout) (limit : Nat) :
    ∀ (v : Json) {room level : Nat} {text : PyStr}, v.wellFormed = true →
      dumpValue layout v room level = .ok text → ReadsAs limit v text
  | .null, _, _, _, _, h => by
      obtain rfl := Except.ok.inj h
      exact readsAs_literal limit ⟨110, _, rfl, rfl, by omega, by omega⟩ fun stack => rfl
  | .bool b, _, _, _, _, h => by
      obtain rfl := Except.ok.inj h
      cases b with
      | true => exact readsAs_literal limit ⟨116, _, rfl, rfl, by omega, by omega⟩ fun stack => rfl
      | false =>
          exact readsAs_literal limit ⟨102, _, rfl, rfl, by omega, by omega⟩ fun stack => rfl
  | .int n, _, _, _, _, h => by
      unfold dumpValue at h
      split at h
      · rename_i text hrepr
        obtain rfl := Except.ok.inj h
        exact fun stack _ => readsIn_reprInt limit stack hrepr
      · cases h
  | .float .nan, _, _, _, _, h => by
      obtain rfl := Except.ok.inj h
      exact readsAs_literal limit ⟨78, _, rfl, rfl, by omega, by omega⟩ fun stack => rfl
  | .float (.inf negative), _, _, _, _, h => by
      obtain rfl := Except.ok.inj h
      cases negative with
      | true => exact readsAs_literal limit ⟨45, _, rfl, rfl, by omega, by omega⟩ fun stack => rfl
      | false => exact readsAs_literal limit ⟨73, _, rfl, rfl, by omega, by omega⟩ fun stack => rfl
  | .float (.fin q), _, _, _, hwell, h => by
      obtain rfl := Except.ok.inj h
      unfold wellFormed at hwell
      exact fun stack _ => readsIn_reprFloat limit stack (of_decide_eq_true hwell)
  | .str s, _, _, _, hwell, h => by
      obtain rfl := Except.ok.inj h
      unfold wellFormed at hwell
      exact readsAs_stringText limit hwell
  | .arr items, room, level, text, hwell, h => by
      unfold wellFormed at hwell
      unfold dumpValue at h
      obtain ⟨room', texts, -, hcontents, htext⟩ := dumpContainer_ok h
      exact readsAs_arr (readsAs_dumpItems layout limit items hwell hcontents) htext
  | .obj members, room, level, text, hwell, h => by
      unfold wellFormed at hwell
      rw [Bool.and_eq_true, decide_eq_true_eq] at hwell
      unfold dumpValue at h
      obtain ⟨room', texts, -, hcontents, htext⟩ := dumpContainer_ok h
      exact readsAs_obj (readsAs_dumpMembers layout limit members hwell.2 hcontents) hwell.1 htext

/-- The same, of items. -/
theorem readsAs_dumpItems (layout : Layout) (limit : Nat) :
    ∀ (items : List Json) {room level : Nat} {texts : List PyStr},
      wellFormedItems items = true → dumpItems layout items room level = .ok texts →
      List.Forall₂ (ReadsAs limit) items texts
  | [], _, _, _, _, h => by
      obtain rfl := Except.ok.inj h
      exact .nil
  | v :: rest, room, level, texts, hwell, h => by
      unfold wellFormedItems at hwell
      rw [Bool.and_eq_true] at hwell
      unfold dumpItems at h
      split at h
      · cases h
      · rename_i text htext
        split at h
        · cases h
        · rename_i others hothers
          obtain rfl := Except.ok.inj h
          exact .cons (readsAs_dumpValue layout limit v hwell.1 htext)
            (readsAs_dumpItems layout limit rest hwell.2 hothers)

/-- The same, of members. -/
theorem readsAs_dumpMembers (layout : Layout) (limit : Nat) :
    ∀ (members : List (PyStr × Json)) {room level : Nat} {texts : List PyStr},
      wellFormedMembers members = true → dumpMembers layout members room level = .ok texts →
      List.Forall₂ (MemberReadsAs limit) members texts
  | [], _, _, _, _, h => by
      obtain rfl := Except.ok.inj h
      exact .nil
  | (key, v) :: rest, room, level, texts, hwell, h => by
      unfold wellFormedMembers at hwell
      rw [Bool.and_eq_true, Bool.and_eq_true] at hwell
      unfold dumpMembers at h
      split at h
      · cases h
      · rename_i text htext
        split at h
        · cases h
        · rename_i others hothers
          obtain rfl := Except.ok.inj h
          refine .cons ⟨hwell.1.1, _, text, fun c hc => ?_, rfl, ?_⟩ ?_
          · rw [List.eq_of_mem_replicate hc]
            rfl
          · exact readsAs_dumpValue layout limit v hwell.1.2 htext
          · exact readsAs_dumpMembers layout limit rest hwell.2 hothers

end

/-- A document that is written is read back. -/
theorem loads_dumps {layout : Layout} {room limit : Nat} {v : Json} {text : PyStr}
    (hwell : v.wellFormed = true) (hdepth : v.depth ≤ limit)
    (h : dumps layout room v = .ok text) : loads limit text = .ok v := by
  obtain ⟨⟨c, rest, hcons, -, -, hascii⟩, reader, hrun, hread⟩ :=
    readsAs_dumpValue layout limit v hwell h [] hdepth
  have hmark : ¬ text.head? = some 0xFEFF := by
    rw [hcons, List.head?_cons, Option.some.injEq]
    omega
  unfold loads
  rw [if_neg hmark, hrun]
  exact hread.close_eq

/-! ## Characters of documents -/

/-- The characters that are written in a layout. -/
def Layout.writes (layout : Layout) (c : Nat) : Bool :=
  isPrintable c || (layout.indent.isSome && c = 10)

theorem Layout.writes_of_printable (layout : Layout) {text : PyStr}
    (h : text.all isPrintable = true) : text.all layout.writes = true := by
  rw [List.all_eq_true] at h ⊢
  intro c hc
  unfold Layout.writes
  rw [h c hc]
  rfl

/-- The characters of a numeral: digits, signs, the point and the mark of an exponent. -/
def isNumeral (c : Nat) : Bool := (48 ≤ c && c ≤ 57) || c = 43 || c = 45 || c = 46 || c = 101

theorem numeral_digitsText {digits : List Nat} (h : ∀ d ∈ digits, d < 10) :
    (digitsText digits).all isNumeral = true := by
  rw [List.all_eq_true]
  intro c hc
  obtain ⟨d, hd, rfl⟩ := List.mem_map.mp hc
  have hlt := h d hd
  unfold isNumeral
  simp only [Bool.or_eq_true, Bool.and_eq_true, decide_eq_true_eq]
  omega

theorem numeral_numeralText (negative : Bool) {ints fracs : List Nat} (hints : ∀ d ∈ ints, d < 10)
    (hfracs : ∀ d ∈ fracs, d < 10) (exponent : Option ℤ) :
    (numeralText negative ints fracs exponent).all isNumeral = true := by
  have hsign : (if negative then [45] else []).all isNumeral = true := by
    cases negative <;> rfl
  have hpoint : (if fracs = [] then [] else 46 :: digitsText fracs).all isNumeral = true := by
    split
    · rfl
    · rw [List.all_cons, numeral_digitsText hfracs]
      rfl
  unfold numeralText
  rw [List.all_append, List.all_append, List.all_append, hsign, numeral_digitsText hints, hpoint]
  cases exponent with
  | none => rfl
  | some e =>
      obtain ⟨-, hdigits, -⟩ := exponentDigits_spec e.natAbs
      dsimp only
      rw [List.all_cons, List.all_cons, numeral_digitsText hdigits]
      split <;> rfl

theorem numeral_reprInt {n : ℤ} {text : PyStr} (h : reprInt n = some text) :
    text.all isNumeral = true := by
  unfold reprInt at h
  split at h
  · cases h
  · obtain rfl := Option.some.inj h
    exact numeral_numeralText _ (fun d hd => digitsOf_lt hd) (by simp) _

theorem numeral_reprFloat (q : ℚ) : (reprFloat q).all isNumeral = true := by
  have hdropped : ∀ n, ∀ d ∈ dropZeros (digitsOf n), d < 10 := by
    intro n d hd
    obtain ⟨k, hk⟩ := dropZeros_spec (digitsOf n)
    exact digitsOf_lt (n := n) (hk ▸ List.mem_append_left _ hd)
  have hzeros : ∀ k, ∀ d ∈ List.replicate k 0, d < 10 := by
    intro k d hd
    rw [List.eq_of_mem_replicate hd]
    omega
  unfold reprFloat
  split
  · exact numeral_numeralText _ (by simp) (by simp) _
  · dsimp only
    have hdigits := hdropped (shortestDecimal q).units
    unfold decimalText
    split
    · exact numeral_numeralText _ (fun d hd => hdigits d (List.mem_of_mem_take hd))
        (fun d hd => hdigits d (List.mem_of_mem_drop hd)) _
    · split
      · refine numeral_numeralText _ (by simp) (fun d hd => ?_) _
        rcases List.mem_append.mp hd with hd | hd
        · exact hzeros _ d hd
        · exact hdigits d hd
      · split
        · refine numeral_numeralText _ (fun d hd => ?_) (by simp) _
          rcases List.mem_append.mp hd with hd | hd
          · exact hdigits d hd
          · exact hzeros _ d hd
        · exact numeral_numeralText _ (fun d hd => hdigits d (List.mem_of_mem_take hd))
            (fun d hd => hdigits d (List.mem_of_mem_drop hd)) _

theorem printable_of_numeral {text : PyStr} (h : text.all isNumeral = true) :
    text.all isPrintable = true := by
  rw [List.all_eq_true] at h ⊢
  intro c hc
  have hnumeral := h c hc
  unfold isNumeral at hnumeral
  unfold isPrintable
  simp only [Bool.or_eq_true, Bool.and_eq_true, decide_eq_true_eq] at hnumeral ⊢
  omega

theorem printable_hexEscape (c : Nat) : (hexEscape c).all isPrintable = true := by
  have hchar : ∀ d, isPrintable (hexChar (d % 16)) = true := by
    intro d
    have hall : ∀ d < 16, isPrintable (hexChar d) = true := by decide
    exact hall _ (Nat.mod_lt d (by omega))
  unfold hexEscape
  simp only [List.all_cons, hchar]
  rfl

theorem printable_escapeChar (c : Nat) : (escapeChar c).all isPrintable = true := by
  unfold escapeChar
  split_ifs with h34 h92 h10 h13 h9 h12 h8 hplain hsmall
  all_goals try rfl
  · unfold isPrintable
    simp only [List.all_cons, List.all_nil, Bool.and_true, Bool.and_eq_true, decide_eq_true_eq]
    omega
  · exact printable_hexEscape c
  · rw [List.all_append, printable_hexEscape, printable_hexEscape]
    rfl

theorem printable_stringText (s : PyStr) : (stringText s).all isPrintable = true := by
  unfold stringText
  rw [List.all_cons, List.all_append, List.all_flatMap]
  have hall : (s.all fun c => (escapeChar c).all isPrintable) = true := by
    rw [List.all_eq_true]
    exact fun c _ => printable_escapeChar c
  rw [hall]
  rfl

/-! ## What documents are put together from -/

mutual

/-- All the strings in a value, keys among them, are so. -/
def allStrings (p : PyStr → Bool) : Json → Bool
  | .str s => p s
  | .arr items => allStringsItems p items
  | .obj members => allStringsMembers p members
  | _ => true

/-- The same, of items. -/
def allStringsItems (p : PyStr → Bool) : List Json → Bool
  | [] => true
  | v :: rest => v.allStrings p && allStringsItems p rest

/-- The same, of members. -/
def allStringsMembers (p : PyStr → Bool) : List (PyStr × Json) → Bool
  | [] => true
  | (key, v) :: rest => p key && v.allStrings p && allStringsMembers p rest

end

/-- The characters that are written outside of strings in a layout. -/
def Layout.outside (layout : Layout) (c : Nat) : Bool :=
  layout.writes c && !(c = 34 || c = 92)

/-- A property of what is written outside of strings that puts together. -/
structure Layout.Closed (layout : Layout) (P : PyStr → Prop) : Prop where
  outside : ∀ text, text.all layout.outside = true → P text
  append : ∀ first second, P first → P second → P (first ++ second)

theorem outside_of_numeral (layout : Layout) {text : PyStr} (h : text.all isNumeral = true) :
    text.all layout.outside = true := by
  have hwrites := layout.writes_of_printable (printable_of_numeral h)
  rw [List.all_eq_true] at h hwrites ⊢
  intro c hc
  have hnumeral := h c hc
  unfold Layout.outside
  rw [hwrites c hc]
  unfold isNumeral at hnumeral
  simp only [Bool.or_eq_true, Bool.and_eq_true, decide_eq_true_eq] at hnumeral
  have hquote : c ≠ 34 := by omega
  have hbackslash : c ≠ 92 := by omega
  simp [hquote, hbackslash]

theorem outside_newline (layout : Layout) (level : Nat) :
    (layout.newline level).all layout.outside = true := by
  unfold Layout.newline
  cases hindent : layout.indent with
  | none => rfl
  | some width =>
      have hline : layout.outside 10 = true := by
        unfold Layout.outside Layout.writes
        rw [hindent]
        rfl
      dsimp only
      rw [List.all_cons, List.all_replicate, hline]
      split <;> rfl

theorem outside_between (layout : Layout) (level : Nat) :
    (layout.between level).all layout.outside = true := by
  unfold Layout.between
  rw [List.all_append, outside_newline, List.all_replicate]
  split <;> rfl

section Closed

variable {layout : Layout} {P : PyStr → Prop}

/-- A container is put together from what is in it. -/
theorem Layout.Closed.container (hP : layout.Closed P) {opening closing room level : Nat}
    (hopening : layout.outside opening = true) (hclosing : layout.outside closing = true)
    {texts : List PyStr} (htexts : ∀ text ∈ texts, P text) {text : PyStr}
    (h : dumpContainer layout opening closing (room + 1) level (fun _ => .ok texts) = .ok text) :
    P text := by
  have hone : ∀ {c : Nat}, layout.outside c = true → P [c] := by
    intro c hc
    apply hP.outside
    rw [List.all_cons, hc]
    rfl
  unfold dumpContainer at h
  dsimp only at h
  cases texts with
  | nil =>
      obtain rfl := Except.ok.inj h
      exact hP.append [opening] [closing] (hone hopening) (hone hclosing)
  | cons first others =>
      obtain rfl := Except.ok.inj h
      have hothers : P (others.flatMap fun text => 44 :: (layout.between (level + 1) ++ text)) := by
        have hmem : ∀ text ∈ others, P text :=
          fun text ht => htexts text (List.mem_cons_of_mem _ ht)
        clear h htexts
        induction others with
        | nil => exact hP.outside [] rfl
        | cons second rest ih =>
            rw [List.flatMap_cons]
            apply hP.append
            · apply hP.append [44] _ (hone rfl)
              exact hP.append _ _ (hP.outside _ (outside_between layout _))
                (hmem second List.mem_cons_self)
            · exact ih fun text ht => hmem text (List.mem_cons_of_mem _ ht)
      apply hP.append [opening] _ (hone hopening)
      apply hP.append
      · apply hP.append _ _ (hP.outside _ (outside_newline layout _))
        exact hP.append _ _ (htexts first List.mem_cons_self) hothers
      · exact hP.append _ _ (hP.outside _ (outside_newline layout _)) (hone hclosing)

variable {p : PyStr → Bool}

mutual

/-- The text of a value is put together from its strings and what is outside of them. -/
theorem Layout.Closed.dumpValue (hP : layout.Closed P) (hp : ∀ s, p s = true → P (stringText s)) :
    ∀ (v : Json) {room level : Nat} {text : PyStr}, v.allStrings p = true →
      Json.dumpValue layout v room level = .ok text → P text
  | .null, _, _, _, _, h => by
      obtain rfl := Except.ok.inj h
      exact hP.outside _ rfl
  | .bool b, _, _, _, _, h => by
      obtain rfl := Except.ok.inj h
      cases b with
      | true => exact hP.outside _ rfl
      | false => exact hP.outside _ rfl
  | .int n, _, _, _, _, h => by
      unfold Json.dumpValue at h
      split at h
      · rename_i text hrepr
        obtain rfl := Except.ok.inj h
        exact hP.outside _ (outside_of_numeral layout (numeral_reprInt hrepr))
      · cases h
  | .float .nan, _, _, _, _, h => by
      obtain rfl := Except.ok.inj h
      exact hP.outside _ rfl
  | .float (.inf negative), _, _, _, _, h => by
      obtain rfl := Except.ok.inj h
      cases negative with
      | true => exact hP.outside _ rfl
      | false => exact hP.outside _ rfl
  | .float (.fin q), _, _, _, _, h => by
      obtain rfl := Except.ok.inj h
      exact hP.outside _ (outside_of_numeral layout (numeral_reprFloat q))
  | .str s, _, _, _, hs, h => by
      obtain rfl := Except.ok.inj h
      exact hp s hs
  | .arr items, _, _, _, hall, h => by
      unfold Json.dumpValue at h
      obtain ⟨room', texts, -, hcontents, htext⟩ := dumpContainer_ok h
      rw [allStrings] at hall
      exact hP.container rfl rfl (Layout.Closed.dumpItems hP hp items hall hcontents) htext
  | .obj members, _, _, _, hall, h => by
      unfold Json.dumpValue at h
      obtain ⟨room', texts, -, hcontents, htext⟩ := dumpContainer_ok h
      rw [allStrings] at hall
      exact hP.container rfl rfl (Layout.Closed.dumpMembers hP hp members hall hcontents) htext

/-- The same, of items. -/
theorem Layout.Closed.dumpItems (hP : layout.Closed P) (hp : ∀ s, p s = true → P (stringText s)) :
    ∀ (items : List Json) {room level : Nat} {texts : List PyStr},
      allStringsItems p items = true → Json.dumpItems layout items room level = .ok texts →
      ∀ text ∈ texts, P text
  | [], _, _, _, _, h => by
      obtain rfl := Except.ok.inj h
      exact fun text hmem => absurd hmem List.not_mem_nil
  | v :: rest, _, _, _, hall, h => by
      rw [allStringsItems, Bool.and_eq_true] at hall
      unfold Json.dumpItems at h
      split at h
      · cases h
      · rename_i first hfirst
        split at h
        · cases h
        · rename_i others hothers
          obtain rfl := Except.ok.inj h
          intro text hmem
          rcases List.mem_cons.mp hmem with rfl | hmem
          · exact Layout.Closed.dumpValue hP hp v hall.1 hfirst
          · exact Layout.Closed.dumpItems hP hp rest hall.2 hothers text hmem

/-- The same, of members. -/
theorem Layout.Closed.dumpMembers (hP : layout.Closed P)
    (hp : ∀ s, p s = true → P (stringText s)) :
    ∀ (members : List (PyStr × Json)) {room level : Nat} {texts : List PyStr},
      allStringsMembers p members = true →
      Json.dumpMembers layout members room level = .ok texts → ∀ text ∈ texts, P text
  | [], _, _, _, _, h => by
      obtain rfl := Except.ok.inj h
      exact fun text hmem => absurd hmem List.not_mem_nil
  | (key, v) :: rest, _, _, _, hall, h => by
      rw [allStringsMembers, Bool.and_eq_true, Bool.and_eq_true] at hall
      unfold Json.dumpMembers at h
      split at h
      · cases h
      · rename_i first hfirst
        split at h
        · cases h
        · rename_i others hothers
          obtain rfl := Except.ok.inj h
          intro text hmem
          rcases List.mem_cons.mp hmem with rfl | hmem
          · apply hP.append _ _ (hp key hall.1.1)
            apply hP.append (58 :: List.replicate layout.afterColon 32) first
            · apply hP.outside
              rw [List.all_cons, List.all_replicate]
              split <;> rfl
            · exact Layout.Closed.dumpValue hP hp v hall.1.2 hfirst
          · exact Layout.Closed.dumpMembers hP hp rest hall.2 hothers text hmem

end

end Closed

mutual

/-- What every string is, all strings in a value are. -/
theorem allStrings_of_forall {p : PyStr → Bool} (hp : ∀ s, p s = true) :
    ∀ v : Json, v.allStrings p = true
  | .null | .bool _ | .int _ | .float _ => rfl
  | .str s => hp s
  | .arr items => by
      rw [allStrings]
      exact allStringsItems_of_forall hp items
  | .obj members => by
      rw [allStrings]
      exact allStringsMembers_of_forall hp members

/-- The same, of items. -/
theorem allStringsItems_of_forall {p : PyStr → Bool} (hp : ∀ s, p s = true) :
    ∀ items : List Json, allStringsItems p items = true
  | [] => rfl
  | v :: rest => by
      rw [allStringsItems, allStrings_of_forall hp v, allStringsItems_of_forall hp rest]
      rfl

/-- The same, of members. -/
theorem allStringsMembers_of_forall {p : PyStr → Bool} (hp : ∀ s, p s = true) :
    ∀ members : List (PyStr × Json), allStringsMembers p members = true
  | [] => rfl
  | (key, v) :: rest => by
      rw [allStringsMembers, hp key, allStrings_of_forall hp v, allStringsMembers_of_forall hp rest]
      rfl

end

/-! ## What is written is plain -/

/-- What is written, in and outside of strings, puts together. -/
theorem closed_writes (layout : Layout) :
    layout.Closed fun text => text.all layout.writes = true where
  outside text h := by
    rw [List.all_eq_true] at h ⊢
    intro c hc
    have houtside := h c hc
    rw [Layout.outside, Bool.and_eq_true] at houtside
    exact houtside.1
  append first second hfirst hsecond := by
    rw [List.all_append, hfirst, hsecond]
    rfl

theorem plain_dumpValue (layout : Layout) (v : Json) {room level : Nat} {text : PyStr}
    (h : dumpValue layout v room level = .ok text) : text.all layout.writes = true :=
  @Layout.Closed.dumpValue layout _ (fun _ => true) (closed_writes layout)
    (fun s _ => layout.writes_of_printable (printable_stringText s)) v room level text
    (allStrings_of_forall (fun _ => rfl) v) h

/-- A document is written in ASCII, without carriage returns. -/
theorem plain_of_dumps {layout : Layout} {room : Nat} {v : Json} {text : PyStr}
    (h : dumps layout room v = .ok text) : text.all isPlain = true := by
  have hall := plain_dumpValue layout v h
  rw [List.all_eq_true] at hall ⊢
  intro c hc
  have hwrites := hall c hc
  unfold Layout.writes isPrintable at hwrites
  unfold isPlain
  simp only [Bool.or_eq_true, Bool.and_eq_true, decide_eq_true_eq] at hwrites ⊢
  omega

theorem printable_of_dumps {layout : Layout} (hline : layout.indent = none) {room : Nat} {v : Json}
    {text : PyStr} (h : dumps layout room v = .ok text) : text.all isPrintable = true := by
  have hall := plain_dumpValue layout v h
  rw [List.all_eq_true] at hall ⊢
  intro c hc
  have hwrites := hall c hc
  unfold Layout.writes at hwrites
  rw [hline] at hwrites
  simpa using hwrites

end Json

end Base
