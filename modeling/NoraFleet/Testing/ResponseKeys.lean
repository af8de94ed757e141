import Mathlib
import NoraFleet.Base.Dumps

/-!
# The expectations of a test interaction

The `response` of a test interaction is a tree of dictionaries whose leaves say what
is expected: the last key of a leaf names an evaluator, the keys above it say which
part of the answer is evaluated. `test_response_keys` walks the tree level by level.
It knows a node by the keys above it, joined by dots, and splits them again wherever
it looks a node up.

* `visitedKeys_eq` — the nodes it looks up are the first ones and those below nodes it
  looks up;
* `visits_eq_one_iff` — when it looks a node up once;
* `eachOnce_iff` — when every expectation is evaluated exactly once.
-/

namespace NoraFleet.Testing

open Base

/-! ## Evaluators -/

/-- The classes of evaluators. -/
inductive EvaluatorClass where
  | gist
  | greater
  | keywords
  | less
  | value
  deriving DecidableEq

/-- An evaluator, and whether it negates. -/
structure AgentEvaluator where
  evalClass : EvaluatorClass
  negate : Bool
  deriving DecidableEq

/-- `NAME_TO_AGENT_EVALUATOR`. -/
def nameToAgentEvaluator : List (PyStr × AgentEvaluator) :=
  [(str "gist", ⟨.gist, false⟩), (str "not_gist", ⟨.gist, true⟩),
    (str "greater", ⟨.greater, false⟩), (str "not_greater", ⟨.greater, true⟩),
    (str "keywords", ⟨.keywords, false⟩), (str "not_keywords", ⟨.keywords, true⟩),
    (str "less", ⟨.less, false⟩), (str "not_less", ⟨.less, true⟩),
    (str "value", ⟨.value, false⟩), (str "not_value", ⟨.value, true⟩)]

/-- `s.lower()`, as far as it can be told by comparing with ASCII text. Beside the
capital letters only the Kelvin sign becomes an ASCII letter. -/
def lower (s : PyStr) : PyStr :=
  s.map fun c => if 65 ≤ c ∧ c ≤ 90 then c + 32 else if c = 0x212A then 107 else c

/-- `AgentEvaluatorFactory.create_evaluator(asserts, evaluation_type)`. -/
def createEvaluator (evaluationType : PyStr) : Option AgentEvaluator :=
  (nameToAgentEvaluator.find? fun entry => entry.1 = lower evaluationType).map Prod.snd

/-! ## The walk -/

/-- `test_key.split(".")`. -/
def parts (testKey : PyStr) : List PyStr := testKey.splitOn 46

/-- `".".join(keys)`. -/
def joined (keys : List PyStr) : PyStr := [46].intercalate keys

/-- `response_extractor.get(test_key)`. -/
def look (response : Json) (testKey : PyStr) : Json :=
  (response.atPath (parts testKey)).getD .null

/-- The keys that a node adds to `deeper_test_keys`. -/
def deeperKeys (response : Json) (testKey : PyStr) : List PyStr :=
  match look response testKey with
  | .obj members => members.map fun member => testKey ++ 46 :: member.1
  | _ => []

/-- A call of an evaluator: for which test key, which evaluator, and what it is given. -/
structure Evaluation where
  testKey : PyStr
  evaluator : AgentEvaluator
  verifyKey : PyStr
  testValue : Json

/-- The calls of evaluators that a node makes. -/
def evaluate (response : Json) (testKey : PyStr) : List Evaluation :=
  match look response testKey with
  | .null => []
  | .obj _ => []
  | testValue =>
      let split := parts testKey
      match createEvaluator (split.getLast?.getD []) with
      | some evaluator => [⟨testKey, evaluator, joined split.dropLast, testValue⟩]
      | none => []

theorem parts_append (testKey key : PyStr) :
    parts (testKey ++ 46 :: key) = parts testKey ++ parts key :=
  List.splitOn_append_cons_of_beq testKey key (by simp)

theorem parts_ne_nil (testKey : PyStr) : parts testKey ≠ [] := List.splitOn_ne_nil 46 testKey

theorem joined_parts (testKey : PyStr) : joined (parts testKey) = testKey :=
  List.intercalate_splitOn 46

theorem parts_joined {keys : List PyStr} (h : ∀ key ∈ keys, 46 ∉ key) (hne : keys ≠ []) :
    parts (joined keys) = keys :=
  List.splitOn_intercalate 46 h hne

theorem not_mem_of_mem_parts {testKey part : PyStr} (h : part ∈ parts testKey) : 46 ∉ part :=
  not_mem_of_mem_splitOn h

/-! ## Levels -/

theorem depth_le_of_lookup {members : List (PyStr × Json)} {key : PyStr} {v : Json}
    (h : Json.lookup members key = some v) : v.depth ≤ Json.depthMembers members := by
  induction members with
  | nil => cases h
  | cons member rest ih =>
      rw [Json.lookup_cons] at h
      unfold Json.depthMembers
      split at h
      · obtain rfl := Option.some.inj h
        exact Nat.le_max_left _ _
      · exact (ih h).trans (Nat.le_max_right _ _)

theorem length_add_depth_le {v w : Json} {path : List PyStr} (h : v.atPath path = some w) :
    path.length + w.depth ≤ v.depth := by
  induction path generalizing v with
  | nil =>
      obtain rfl := Option.some.inj h
      simp
  | cons key rest ih =>
      cases v with
      | obj members =>
          rw [Json.atPath_obj] at h
          obtain ⟨child, hchild, hrest⟩ := Option.bind_eq_some_iff.mp h
          have hdepth := depth_le_of_lookup hchild
          have hbelow := ih hrest
          have hobj : (Json.obj members).depth = Json.depthMembers members + 1 := rfl
          rw [List.length_cons]
          omega
      | _ => cases h

/-- A node that adds deeper keys is a dictionary. -/
theorem exists_atPath_of_mem_deeperKeys {response : Json} {testKey deeperKey : PyStr}
    (h : deeperKey ∈ deeperKeys response testKey) :
    ∃ members, response.atPath (parts testKey) = some (.obj members) ∧
      ∃ member ∈ members, deeperKey = testKey ++ 46 :: member.1 := by
  unfold deeperKeys at h
  split at h
  · rename_i members hlook
    obtain ⟨member, hmember, rfl⟩ := List.mem_map.mp h
    refine ⟨members, ?_, member, hmember, rfl⟩
    unfold look at hlook
    cases hpath : response.atPath (parts testKey) with
    | none =>
        rw [hpath] at hlook
        cases hlook
    | some v =>
        rw [hpath] at hlook
        exact congrArg some hlook
  · exact absurd h List.not_mem_nil

/-- The keys of the next level. -/
def deeperTestKeys (response : Json) (keys : List PyStr) : List PyStr :=
  keys.flatMap (deeperKeys response)

/-- How many levels there can be below the keys. -/
def levelsLeft (response : Json) (keys : List PyStr) : Nat :=
  keys.toFinset.sup fun testKey => response.depth + 1 - (parts testKey).length

/-- The keys of the next level leave fewer levels below them. -/
theorem levelsLeft_lt {response : Json} {keys : List PyStr}
    (h : deeperTestKeys response keys ≠ []) :
    levelsLeft response (deeperTestKeys response keys) < levelsLeft response keys := by
  have hless : ∀ deeperKey ∈ deeperTestKeys response keys,
      response.depth + 1 - (parts deeperKey).length < levelsLeft response keys := by
    intro deeperKey hmem
    obtain ⟨testKey, hkey, hdeeper⟩ := List.mem_flatMap.mp hmem
    obtain ⟨members, hpath, member, -, rfl⟩ := exists_atPath_of_mem_deeperKeys hdeeper
    have hle : response.depth + 1 - (parts testKey).length ≤ levelsLeft response keys :=
      Finset.le_sup (f := fun testKey => response.depth + 1 - (parts testKey).length)
        (List.mem_toFinset.mpr hkey)
    have hdepth := length_add_depth_le hpath
    have hnext := List.length_pos_of_ne_nil (parts_ne_nil member.1)
    rw [parts_append, List.length_append]
    omega
  obtain ⟨first, hfirst⟩ := List.exists_mem_of_ne_nil _ h
  refine (Finset.sup_lt_iff (Nat.zero_lt_of_lt (hless first hfirst))).mpr ?_
  intro deeperKey hmem
  exact hless deeperKey (List.mem_toFinset.mp hmem)

/-- The calls of evaluators of one level. -/
def levelEvaluations (response : Json) (keys : List PyStr) : List Evaluation :=
  keys.flatMap (evaluate response)

/-- `test_response_keys(...)`: the calls of evaluators. It calls itself with the keys of
the next level, if there are any. -/
def testResponseKeys (response : Json) (keys : List PyStr) : List Evaluation :=
  levelEvaluations response keys ++
    if _ : deeperTestKeys response keys ≠ [] then
      testResponseKeys response (deeperTestKeys response keys)
    else []
termination_by levelsLeft response keys
decreasing_by exact levelsLeft_lt ‹_›

/-- `TEST_KEYS`. -/
def testKeys : List PyStr := [str "text", str "structure", str "sly_data"]

/-- The keys of all levels. -/
def visitedKeys (response : Json) (keys : List PyStr) : List PyStr :=
  keys ++
    if _ : deeperTestKeys response keys ≠ [] then
      visitedKeys response (deeperTestKeys response keys)
    else []
termination_by levelsLeft response keys
decreasing_by exact levelsLeft_lt ‹_›

/-- Every key of every level is evaluated. -/
theorem testResponseKeys_eq (response : Json) (keys : List PyStr) :
    testResponseKeys response keys =
      (visitedKeys response keys).flatMap (evaluate response) := by
  induction keys using visitedKeys.induct response with
  | _ keys ih =>
      rw [testResponseKeys, visitedKeys, List.flatMap_append]
      by_cases hmore : deeperTestKeys response keys ≠ []
      · rw [dif_pos hmore, dif_pos hmore, ih hmore]
        rfl
      · rw [dif_neg hmore, dif_neg hmore, List.flatMap_nil]
        rfl

/-- The nodes that are looked up are the first ones and those below nodes that are
looked up. -/
theorem visitedKeys_eq (response : Json) (keys : List PyStr) :
    visitedKeys response keys =
      keys ++ (visitedKeys response keys).flatMap (deeperKeys response) := by
  induction keys using visitedKeys.induct response with
  | _ keys ih =>
      by_cases hmore : deeperTestKeys response keys ≠ []
      · have hrest := ih hmore
        rw [visitedKeys, dif_pos hmore, List.flatMap_append]
        exact congrArg (keys ++ ·) hrest
      · have hnone : keys.flatMap (deeperKeys response) = [] := not_ne_iff.mp hmore
        rw [visitedKeys, dif_neg hmore, List.append_nil, hnone, List.append_nil]

/-! ## How often a node is looked up -/

/-- No dictionary in a value has a key twice. -/
def KeysDistinct (response : Json) : Prop :=
  ∀ path members, response.atPath path = some (.obj members) → (members.map Prod.fst).Nodup

/-- A key of a dictionary on the path spells, with dots, two or more steps of the
path from there. -/
def Spelled (response : Json) (path : List PyStr) : Prop :=
  ∃ before steps after members, path = before ++ steps ++ after ∧ before ≠ [] ∧
    2 ≤ steps.length ∧ response.atPath before = some (.obj members) ∧
    joined steps ∈ members.map Prod.fst

/-- How often the node at a path is looked up. -/
def visits (response : Json) (path : List PyStr) : Nat :=
  (visitedKeys response testKeys).countP fun testKey => decide (parts testKey = path)

/-- How often a node adds the node at a path to the keys of the next level. -/
def adds (response : Json) (path : List PyStr) (testKey : PyStr) : Nat :=
  (deeperKeys response testKey).countP fun deeperKey => decide (parts deeperKey = path)

/-- A node is looked up as a first one, and as often as others add it. -/
theorem visits_eq (response : Json) (path : List PyStr) :
    visits response path =
      testKeys.countP (fun testKey => decide (parts testKey = path)) +
        ((visitedKeys response testKeys).map (adds response path)).sum := by
  unfold visits
  rw [visitedKeys_eq, List.countP_append, List.countP_flatMap, ← visitedKeys_eq]
  rfl

theorem parts_of_mem_testKeys {first : PyStr} (h : first ∈ testKeys) : parts first = [first] := by
  have hall : ∀ first ∈ testKeys, parts first = [first] := by decide
  exact hall first h

/-- A sum is at least the number of entries that count for something. -/
theorem countP_add_countP_le_sum {α : Type} {l : List α} {p q : α → Bool} {f : α → Nat}
    (h : ∀ a ∈ l, (p a).toNat + (q a).toNat ≤ f a) :
    l.countP p + l.countP q ≤ (l.map f).sum := by
  induction l with
  | nil => simp
  | cons a rest ih =>
      have hfirst := h a List.mem_cons_self
      have hrest := ih fun b hb => h b (List.mem_cons_of_mem _ hb)
      rw [List.map_cons, List.sum_cons, List.countP_cons, List.countP_cons]
      cases hp : p a <;> cases hq : q a <;> simp [hp, hq] at hfirst ⊢ <;> omega

theorem sum_le_countP {α : Type} {l : List α} {p : α → Bool} {f : α → Nat}
    (h : ∀ a ∈ l, f a ≤ (p a).toNat) : (l.map f).sum ≤ l.countP p := by
  induction l with
  | nil => simp
  | cons a rest ih =>
      have hfirst := h a List.mem_cons_self
      have hrest := ih fun b hb => h b (List.mem_cons_of_mem _ hb)
      rw [List.map_cons, List.sum_cons, List.countP_cons]
      cases hp : p a <;> simp [hp] at hfirst ⊢ <;> omega

section

variable {response : Json} {path before steps : List PyStr} {testKey : PyStr}

/-- A dictionary adds what its keys spell. -/
theorem adds_pos {members : List (PyStr × Json)}
    (hnode : response.atPath (parts testKey) = some (.obj members))
    (hdots : ∀ step ∈ steps, 46 ∉ step) (hsteps : steps ≠ [])
    (hspelled : joined steps ∈ members.map Prod.fst) :
    1 ≤ adds response (parts testKey ++ steps) testKey := by
  obtain ⟨member, hmember, hkey⟩ := List.mem_map.mp hspelled
  refine List.countP_pos_iff.mpr ⟨testKey ++ 46 :: member.1, ?_, ?_⟩
  · unfold deeperKeys look
    rw [hnode]
    exact List.mem_map.mpr ⟨member, hmember, rfl⟩
  · rw [decide_eq_true_iff, parts_append, hkey, parts_joined hdots hsteps]

/-- It adds nothing else. -/
theorem exists_steps_of_adds (h : adds response path testKey ≠ 0) :
    ∃ members steps, response.atPath (parts testKey) = some (.obj members) ∧
      path = parts testKey ++ steps ∧ steps ≠ [] ∧ joined steps ∈ members.map Prod.fst := by
  obtain ⟨deeperKey, hmem, hparts⟩ := List.countP_pos_iff.mp (Nat.pos_of_ne_zero h)
  obtain ⟨members, hnode, member, hmember, rfl⟩ := exists_atPath_of_mem_deeperKeys hmem
  rw [decide_eq_true_iff, parts_append] at hparts
  refine ⟨members, parts member.1, hnode, hparts.symm, parts_ne_nil _, ?_⟩
  rw [joined_parts]
  exact List.mem_map_of_mem hmember

theorem adds_le_one (hkeys : KeysDistinct response) : adds response path testKey ≤ 1 := by
  unfold adds deeperKeys
  split
  · rename_i members hlook
    have hnode : response.atPath (parts testKey) = some (.obj members) := by
      unfold look at hlook
      cases hfound : response.atPath (parts testKey) with
      | none =>
          rw [hfound] at hlook
          cases hlook
      | some v =>
          rw [hfound] at hlook
          exact congrArg some hlook
    have hnodup : (members.map fun member => testKey ++ 46 :: member.1).Nodup := by
      have hmapped := (hkeys _ _ hnode).map (f := fun key => testKey ++ 46 :: key)
        fun a b heq => List.tail_eq_of_cons_eq (List.append_cancel_left heq)
      rwa [List.map_map] at hmapped
    calc (members.map fun member => testKey ++ 46 :: member.1).countP
          (fun deeperKey => decide (parts deeperKey = path))
        ≤ (members.map fun member => testKey ++ 46 :: member.1).count (joined path) := by
          refine List.countP_mono_left fun deeperKey _ hparts => ?_
          rw [decide_eq_true_iff] at hparts
          rw [beq_iff_eq, ← hparts, joined_parts]
      _ ≤ 1 := List.nodup_iff_count_le_one.mp hnodup _
  · exact Nat.zero_le _

/-- A node is looked up at least as often as two dictionaries above it that spell the
way to it, together. -/
theorem visits_add_visits_le {before before' : List PyStr} (steps steps' : List PyStr)
    {members members' : List (PyStr × Json)}
    (hnode : response.atPath before = some (.obj members))
    (hnode' : response.atPath before' = some (.obj members'))
    (hdots : ∀ step ∈ steps, 46 ∉ step) (hdots' : ∀ step ∈ steps', 46 ∉ step)
    (hsteps : steps ≠ []) (hsteps' : steps' ≠ [])
    (hspelled : joined steps ∈ members.map Prod.fst)
    (hspelled' : joined steps' ∈ members'.map Prod.fst)
    (hpath : before ++ steps = path) (hpath' : before' ++ steps' = path)
    (hne : before ≠ before') :
    visits response before + visits response before' ≤ visits response path := by
  rw [visits_eq response path]
  refine le_trans ?_ (Nat.le_add_left _ _)
  refine countP_add_countP_le_sum fun testKey _ => ?_
  by_cases hparts : parts testKey = before
  · have hpos : 1 ≤ adds response path testKey := by
      rw [← hpath, ← hparts]
      exact adds_pos (hparts ▸ hnode) hdots hsteps hspelled
    have hother : parts testKey ≠ before' := fun heq => hne (hparts.symm.trans heq)
    simpa [hparts, hne] using hpos
  · by_cases hparts' : parts testKey = before'
    · have hpos : 1 ≤ adds response path testKey := by
        rw [← hpath', ← hparts']
        exact adds_pos (hparts' ▸ hnode') hdots' hsteps' hspelled'
      simpa [hparts', hne.symm] using hpos
    · simp [hparts, hparts']

/-- A node is looked up at least as often as a dictionary above it that spells the way
to it. -/
theorem visits_le (steps : List PyStr) {members : List (PyStr × Json)}
    (hnode : response.atPath before = some (.obj members))
    (hdots : ∀ step ∈ steps, 46 ∉ step) (hsteps : steps ≠ [])
    (hspelled : joined steps ∈ members.map Prod.fst) :
    visits response before ≤ visits response (before ++ steps) := by
  rw [visits_eq response (before ++ steps)]
  refine le_trans ?_ (Nat.le_add_left _ _)
  have hsum := countP_add_countP_le_sum (l := visitedKeys response testKeys)
    (p := fun testKey => decide (parts testKey = before)) (q := fun _ => false)
    (f := adds response (before ++ steps)) ?_
  · rw [List.countP_false] at hsum
    exact hsum
  · intro testKey _
    by_cases hparts : parts testKey = before
    · subst hparts
      have hpos := adds_pos hnode hdots hsteps hspelled
      simpa using hpos
    · simp [hparts]

/-- The parent of a node is a dictionary with its key. -/
theorem exists_parent (path : List PyStr) {last : PyStr} {v : Json}
    (hv : response.atPath (path ++ [last]) = some v) :
    ∃ members, response.atPath path = some (.obj members) ∧ last ∈ members.map Prod.fst := by
  rw [Json.atPath_append] at hv
  obtain ⟨parent, hparent, hlast⟩ := Option.bind_eq_some_iff.mp hv
  cases parent with
  | obj members =>
      refine ⟨members, hparent, ?_⟩
      by_contra hmem
      rw [Json.atPath_obj, Json.lookup_of_not_mem hmem] at hlast
      cases hlast
  | _ => cases hlast

theorem joined_singleton (key : PyStr) : joined [key] = key := by
  simp [joined]

theorem dot_mem_joined (h : 2 ≤ steps.length) : 46 ∈ joined steps := by
  obtain ⟨first, rest, rfl⟩ := List.exists_cons_of_length_pos (by omega : 0 < steps.length)
  have hrest : rest ≠ [] := by
    rintro rfl
    simp at h
  unfold joined
  rw [List.intercalate_cons_of_ne_nil hrest]
  simp

/-- Every node whose keys have no dots is looked up. -/
theorem visits_pos {first : PyStr} (hfirst : first ∈ testKeys) {v : Json}
    (hv : response.atPath (first :: path) = some v) (hdots : ∀ key ∈ path, 46 ∉ key) :
    1 ≤ visits response (first :: path) := by
  induction path using List.reverseRecOn generalizing v with
  | nil =>
      rw [visits_eq]
      refine le_trans ?_ (Nat.le_add_right _ _)
      refine List.countP_pos_iff.mpr ⟨first, hfirst, ?_⟩
      rw [decide_eq_true_iff]
      exact parts_of_mem_testKeys hfirst
  | append_singleton init last ih =>
      obtain ⟨members, hparent, hlast⟩ := exists_parent (first :: init) hv
      have hinit := ih hparent fun key hkey => hdots key (List.mem_append_left _ hkey)
      refine hinit.trans (visits_le [last] hparent ?_ (by simp) ?_)
      · intro step hstep
        rw [List.mem_singleton.mp hstep]
        exact hdots last (by simp)
      · rwa [joined_singleton]

theorem visits_first_le_one {first : PyStr} : visits response [first] ≤ 1 := by
  have hnone : ∀ testKey ∈ visitedKeys response testKeys, adds response [first] testKey ≤ 0 := by
    intro testKey _
    by_contra hadds
    have hsomething : adds response [first] testKey ≠ 0 := by omega
    obtain ⟨members, steps, -, hpath, hsteps, -⟩ := exists_steps_of_adds hsomething
    have hlength := congrArg List.length hpath
    have hparts := List.length_pos_of_ne_nil (parts_ne_nil testKey)
    have hsome := List.length_pos_of_ne_nil hsteps
    rw [List.length_append, List.length_singleton] at hlength
    omega
  have hsum : ((visitedKeys response testKeys).map (adds response [first])).sum ≤ 0 := by
    have h := sum_le_countP (p := fun _ => false) hnone
    rwa [List.countP_false] at h
  have hbase : testKeys.countP (fun testKey => decide (parts testKey = [first])) ≤ 1 := by
    calc testKeys.countP (fun testKey => decide (parts testKey = [first]))
        ≤ testKeys.count (joined [first]) := by
          refine List.countP_mono_left fun testKey _ hparts => ?_
          rw [decide_eq_true_iff] at hparts
          rw [beq_iff_eq, ← hparts, joined_parts]
      _ ≤ 1 := List.nodup_iff_count_le_one.mp (by decide) _
  rw [visits_eq]
  omega

/-- Where nothing spells the way to a node, only its parent adds it. -/
theorem visits_le_parent (hkeys : KeysDistinct response) (last : PyStr) (hpath : path ≠ [])
    (hspelled : ¬ Spelled response (path ++ [last])) :
    visits response (path ++ [last]) ≤ visits response path := by
  have hbase : testKeys.countP (fun testKey => decide (parts testKey = path ++ [last])) = 0 := by
    refine List.countP_eq_zero.mpr fun testKey hmem hparts => ?_
    rw [decide_eq_true_iff, parts_of_mem_testKeys hmem] at hparts
    have hlength := congrArg List.length hparts
    have hsome := List.length_pos_of_ne_nil hpath
    rw [List.length_append, List.length_singleton, List.length_singleton] at hlength
    omega
  rw [visits_eq, hbase, Nat.zero_add]
  refine sum_le_countP fun testKey _ => ?_
  by_cases hparts : parts testKey = path
  · simpa [hparts] using adds_le_one hkeys
  · -- any other dictionary would spell two steps or more
    have hnone : adds response (path ++ [last]) testKey = 0 := by
      by_contra hadds
      obtain ⟨members, steps, hnode, heq, hsteps, hmem⟩ := exists_steps_of_adds hadds
      refine hspelled ⟨parts testKey, steps, [], members, by rw [List.append_nil]; exact heq,
        parts_ne_nil testKey, ?_, hnode, hmem⟩
      by_contra hshort
      obtain ⟨step, rfl⟩ := List.length_eq_one_iff.mp
        (Nat.le_antisymm (by omega) (List.length_pos_of_ne_nil hsteps))
      exact hparts (List.append_inj' heq rfl).1.symm
    rw [hnone]
    exact Nat.zero_le _

/-- A node is looked up exactly once if and only if no dictionary above it spells a part
of the way to it with a dotted key. -/
theorem visits_eq_one_iff (hkeys : KeysDistinct response) {first : PyStr}
    (hfirst : first ∈ testKeys) {v : Json} (hv : response.atPath (first :: path) = some v)
    (hdots : ∀ key ∈ path, 46 ∉ key) :
    visits response (first :: path) = 1 ↔ ¬ Spelled response (first :: path) := by
  -- the induction is on the path from its end: a node is visited from its parent
  induction path using List.reverseRecOn generalizing v with
  | nil =>
      have hpos := visits_pos hfirst hv hdots
      have hle : visits response [first] ≤ 1 := visits_first_le_one
      refine iff_of_true (by omega) ?_
      rintro ⟨before, steps, after, members, heq, hbefore, hsteps, -⟩
      have hlength := congrArg List.length heq
      have hsome := List.length_pos_of_ne_nil hbefore
      simp only [List.length_append, List.length_singleton] at hlength
      omega
  | append_singleton init last ih =>
      obtain ⟨members, hparent, hlast⟩ := exists_parent (first :: init) hv
      have hdotsInit : ∀ key ∈ init, 46 ∉ key := fun key hkey =>
        hdots key (List.mem_append_left _ hkey)
      have hinit := ih hparent hdotsInit
      have hposInit := visits_pos hfirst hparent hdotsInit
      have hpos := visits_pos hfirst hv hdots
      have hdotsLast : ∀ step ∈ [last], 46 ∉ step := by
        intro step hstep
        rw [List.mem_singleton.mp hstep]
        exact hdots last (by simp)
      have hlastSpelled : joined [last] ∈ members.map Prod.fst := by rwa [joined_singleton]
      have hle : visits response (first :: init) ≤ visits response (first :: (init ++ [last])) :=
        visits_le [last] hparent hdotsLast (by simp) hlastSpelled
      constructor
      · rintro hone ⟨before, steps, after, above, heq, hbefore, hsteps, hnode, hmem⟩
        rcases List.eq_nil_or_concat after with rfl | ⟨rest, final, rfl⟩
        · -- a dictionary above the parent adds the node as well
          rw [List.append_nil] at heq
          have hdotsSteps : ∀ step ∈ steps, 46 ∉ step := by
            intro step hstep
            obtain ⟨head, tail, rfl⟩ := List.exists_cons_of_ne_nil hbefore
            have htail : init ++ [last] = tail ++ steps := (List.cons.inj heq).2
            exact hdots step (htail ▸ List.mem_append_right tail hstep)
          have hne : first :: init ≠ before := by
            rintro rfl
            have hlength := congrArg List.length heq
            simp only [List.length_append, List.length_cons, List.length_nil] at hlength
            omega
          have hposBefore : 1 ≤ visits response before := by
            obtain ⟨head, tail, rfl⟩ := List.exists_cons_of_ne_nil hbefore
            obtain ⟨rfl, htail⟩ := List.cons.inj heq
            exact visits_pos hfirst hnode fun key hkey =>
              hdots key (htail ▸ List.mem_append_left steps hkey)
          have hsum := visits_add_visits_le [last] steps hparent hnode hdotsLast hdotsSteps
            (by simp)
            (List.ne_nil_of_length_pos (by omega)) hlastSpelled hmem rfl heq.symm hne
          have hsame : first :: init ++ [last] = first :: (init ++ [last]) := rfl
          rw [hsame] at hsum
          omega
        · -- the parent is spelled already
          have hinitSpelled : Spelled response (first :: init) := by
            refine ⟨before, steps, rest, above, ?_, hbefore, hsteps, hnode, hmem⟩
            rw [List.concat_eq_append, ← List.append_assoc, ← List.cons_append] at heq
            exact (List.append_inj' heq rfl).1
          have hmore : visits response (first :: init) ≠ 1 := fun h => hinit.mp h hinitSpelled
          omega
      · intro hspelled
        have hspelledInit : ¬ Spelled response (first :: init) := by
          rintro ⟨before, steps, after, above, heq, hrest⟩
          refine hspelled ⟨before, steps, after ++ [last], above, ?_, hrest⟩
          rw [← List.append_assoc, ← heq]
          rfl
        have hone := hinit.mpr hspelledInit
        have hle' := visits_le_parent hkeys last (List.cons_ne_nil first init)
          hspelled
        have hsame : first :: (init ++ [last]) = first :: init ++ [last] := rfl
        rw [hsame] at hpos ⊢
        omega

end

theorem keysDistinct_of_wellFormed {v : Json} (h : v.wellFormed = true) : KeysDistinct v := by
  intro path members hnode
  have hwellFormed : (Json.obj members).wellFormed = true := by
    induction path generalizing v with
    | nil =>
        obtain rfl := Option.some.inj hnode
        exact h
    | cons key rest ih =>
        cases v with
        | obj above =>
            rw [Json.atPath_obj] at hnode
            obtain ⟨child, hchild, hrest⟩ := Option.bind_eq_some_iff.mp hnode
            exact ih (Json.wellFormed_of_lookup h hchild) hrest
        | _ => cases hnode
  exact (Json.wellFormed_obj_iff.mp hwellFormed).1

/-! ## Expectations -/

/-- What a leaf expects: the keys above it, of which the first is a key of the
response, its own key, which names an evaluator, and its value. -/
structure Expectation (response : Json) where
  first : PyStr
  enclosing : List PyStr
  key : PyStr
  value : Json
  evaluator : AgentEvaluator
  first_mem : first ∈ testKeys
  found : response.atPath (first :: (enclosing ++ [key])) = some value
  not_dict : ∀ members, value ≠ .obj members
  not_null : value ≠ .null
  known : createEvaluator key = some evaluator

namespace Expectation

variable {response : Json} (expectation : Expectation response)

/-- All keys from the response to the leaf. -/
def path : List PyStr :=
  expectation.first :: (expectation.enclosing ++ [expectation.key])

/-- The call that evaluates the leaf: the evaluator of its key, with the path of the
keys above it and its value. -/
def call : Evaluation :=
  ⟨joined expectation.path, expectation.evaluator,
    joined (expectation.first :: expectation.enclosing), expectation.value⟩

end Expectation

/-- Whether a call evaluates the leaf at a path: whether the extractor followed the path
for its test key. -/
def Evaluation.evaluates (evaluation : Evaluation) (path : List PyStr) : Bool :=
  decide (parts evaluation.testKey = path)

/-- Of every leaf that expects something, exactly one call is made, and it is the right
one. -/
def EachOnce (response : Json) : Prop :=
  ∀ expectation : Expectation response,
    (testResponseKeys response testKeys).filter (fun evaluation =>
      evaluation.evaluates expectation.path) = [expectation.call]

theorem testKey_of_mem_evaluate {response : Json} {testKey : PyStr} {evaluation : Evaluation}
    (h : evaluation ∈ evaluate response testKey) : evaluation.testKey = testKey := by
  unfold evaluate at h
  dsimp only at h
  split at h
  · cases h
  · cases h
  · split at h
    · rw [List.mem_singleton.mp h]
    · cases h

/-- A leaf that is looked up is evaluated. -/
theorem evaluate_leaf {response : Json} (expectation : Expectation response)
    (hdots : ∀ key ∈ expectation.path, 46 ∉ key) :
    evaluate response (joined expectation.path) = [expectation.call] := by
  have hparts : parts (joined expectation.path) = expectation.path :=
    parts_joined hdots (List.cons_ne_nil _ _)
  have hlook : look response (joined expectation.path) = expectation.value := by
    unfold look
    rw [hparts]
    exact congrArg (Option.getD · Json.null) expectation.found
  have hlast : expectation.path.getLast? = some expectation.key :=
    List.getLast?_concat (l := expectation.first :: expectation.enclosing)
  have hinit : expectation.path.dropLast = expectation.first :: expectation.enclosing := by
    show (expectation.first :: expectation.enclosing ++ [expectation.key]).dropLast = _
    exact List.dropLast_concat
  unfold evaluate
  dsimp only
  rw [hlook, hparts, hlast, hinit]
  have hknown := expectation.known
  have hdict := expectation.not_dict
  have hnull := expectation.not_null
  unfold Expectation.call
  cases hvalue : expectation.value with
  | obj members => exact absurd hvalue (hdict members)
  | null => exact absurd hvalue hnull
  | _ =>
      dsimp only [Option.getD]
      rw [hknown]

/-- The calls that evaluate a leaf are as many as the times it is looked up. -/
theorem filter_evaluates {response : Json} (expectation : Expectation response)
    (hdots : ∀ key ∈ expectation.path, 46 ∉ key) :
    (testResponseKeys response testKeys).filter (fun evaluation =>
        evaluation.evaluates expectation.path) =
      List.replicate (visits response expectation.path) expectation.call := by
  rw [testResponseKeys_eq, visits]
  induction visitedKeys response testKeys with
  | nil => rfl
  | cons testKey rest ih =>
      rw [List.flatMap_cons, List.filter_append, ih, List.countP_cons]
      by_cases hparts : parts testKey = expectation.path
      · obtain rfl : joined expectation.path = testKey := by rw [← hparts, joined_parts]
        rw [evaluate_leaf expectation hdots, if_pos (decide_eq_true hparts), Nat.add_comm,
          List.replicate_add]
        refine congrArg (· ++ _) (List.filter_eq_self.mpr fun evaluation hmem => ?_)
        rw [List.mem_singleton.mp hmem]
        exact decide_eq_true hparts
      · rw [if_neg (by simpa using hparts), Nat.add_zero]
        have hnone : (evaluate response testKey).filter (fun evaluation =>
            evaluation.evaluates expectation.path) = [] := by
          refine List.filter_eq_nil_iff.mpr fun evaluation hmem heval => ?_
          have hkey := testKey_of_mem_evaluate hmem
          exact hparts (hkey ▸ of_decide_eq_true heval)
        rw [hnone, List.nil_append]

/-- A leaf below a key with a dot is never evaluated. -/
theorem dots_of_evaluated {response : Json} {expectation : Expectation response}
    (h : (testResponseKeys response testKeys).filter (fun evaluation =>
      evaluation.evaluates expectation.path) ≠ []) :
    ∀ key ∈ expectation.path, 46 ∉ key := by
  obtain ⟨evaluation, hmem⟩ := List.exists_mem_of_ne_nil _ h
  have hparts : parts evaluation.testKey = expectation.path :=
    of_decide_eq_true (List.mem_filter.mp hmem).2
  intro key hkey
  exact not_mem_of_mem_parts (hparts ▸ hkey)

/-- Every expectation is evaluated exactly once, with its value and the path of its
enclosing keys, if and only if no key on the way to one has a dot and no dictionary on
that way has a dotted key that spells a part of it. -/
theorem eachOnce_iff {response : Json} (hkeys : KeysDistinct response) :
    EachOnce response ↔
      ∀ expectation : Expectation response,
        (∀ key ∈ expectation.path, 46 ∉ key) ∧ ¬ Spelled response expectation.path := by
  refine forall_congr' fun expectation => ?_
  have honce : (∀ key ∈ expectation.path, 46 ∉ key) →
      (visits response expectation.path = 1 ↔ ¬ Spelled response expectation.path) := by
    intro hdots
    exact visits_eq_one_iff hkeys expectation.first_mem expectation.found fun key hkey =>
      hdots key (List.mem_cons_of_mem _ hkey)
  constructor
  · intro h
    have hdots : ∀ key ∈ expectation.path, 46 ∉ key :=
      dots_of_evaluated (by rw [h]; exact List.cons_ne_nil _ _)
    refine ⟨hdots, (honce hdots).mp ?_⟩
    rw [filter_evaluates expectation hdots] at h
    have hlength := congrArg List.length h
    rwa [List.length_replicate] at hlength
  · rintro ⟨hdots, hspelled⟩
    rw [filter_evaluates expectation hdots, (honce hdots).mpr hspelled]
    rfl

/-! ## Two responses -/

/-- The text is to have a word. -/
def plainResponse : Json := .obj [(str "text", .obj [(str "Keywords", .str (str "hello"))])]

/-- The only ways into `plainResponse`. -/
theorem plainResponse_atPath {path : List PyStr} {v : Json}
    (h : plainResponse.atPath path = some v) : path <+: [str "text", str "Keywords"] := by
  have hstep : ∀ (key : PyStr) (child : Json) (path : List PyStr),
      (Json.obj [(key, child)]).atPath path = some v →
        path = [] ∨ ∃ rest, path = key :: rest ∧ child.atPath rest = some v := by
    intro key child path hpath
    cases path with
    | nil => exact .inl rfl
    | cons first rest =>
        rw [Json.atPath_obj, Json.lookup_cons] at hpath
        split at hpath
        · rename_i hkey
          exact .inr ⟨rest, by rw [← hkey], hpath⟩
        · cases hpath
  rcases hstep _ _ _ h with rfl | ⟨below, rfl, hbelow⟩
  · exact List.nil_prefix
  rcases hstep _ _ _ hbelow with rfl | ⟨leaf, rfl, hleaf⟩
  · exact List.prefix_append [_] _
  cases leaf with
  | nil => exact List.prefix_rfl
  | cons key rest => cases hleaf

theorem eachOnce_iff_plain : EachOnce plainResponse := by
  have hkeys : plainResponse.wellFormed = true := by decide
  have hplain : ∀ path v, plainResponse.atPath path = some v → ∀ key ∈ path, 46 ∉ key := by
    intro path v hpath key hkey
    have hdots : ∀ key ∈ [str "text", str "Keywords"], 46 ∉ key := by decide
    exact hdots key ((plainResponse_atPath hpath).subset hkey)
  refine (eachOnce_iff (keysDistinct_of_wellFormed hkeys)).mpr fun expectation => ?_
  refine ⟨hplain _ _ expectation.found, ?_⟩
  rintro ⟨before, steps, after, members, -, -, hsteps, hnode, hmem⟩
  obtain ⟨w, hw⟩ : ∃ w, Json.lookup members (joined steps) = some w := by
    obtain ⟨member, hmember, hkey⟩ := List.mem_map.mp hmem
    cases hfound : Json.lookup members (joined steps) with
    | some w => exact ⟨w, rfl⟩
    | none =>
        have hnone := List.find?_eq_none.mp (Option.map_eq_none_iff.mp hfound) member hmember
        exact absurd hkey (by simpa using hnone)
  have hpath : plainResponse.atPath (before ++ [joined steps]) = some w := by
    rw [Json.atPath_append, hnode]
    show Json.atPath (.obj members) [joined steps] = some w
    rw [Json.atPath_obj, hw]
    rfl
  exact hplain _ _ hpath (joined steps) (by simp) (dot_mem_joined hsteps)

/-- It is to be 7 at a key that is spelled with a dot. -/
def dottedResponse : Json :=
  .obj [(str "structure", .obj [(str "total.net", .obj [(str "value", .int 7)])])]

theorem dottedResponse_skipped : ¬ EachOnce dottedResponse := by
  intro h
  have hcall := h ⟨str "structure", [str "total.net"], str "value", .int 7, ⟨.value, false⟩,
    by decide, rfl, by simp, by simp, by decide⟩
  have hdots := dots_of_evaluated (by rw [hcall]; exact List.cons_ne_nil _ _)
  exact hdots (str "total.net") (by decide) (by decide)

end NoraFleet.Testing
