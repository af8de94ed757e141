import Mathlib
import NoraFleet.Base.Dict
import NoraFleet.Base.Labels
import NoraFleet.Base.Runs
import NoraFleet.Messages.ChatHistories
import NoraFleet.Validation.NetworkValidators

/-!
# Origins

`Origination` counts for a session how often each agent was called, and an origin is the
path of the calls that led to one: the name of the agent and the number of the call, for
each. Chat histories and token counts are looked up by the full name of an origin, in which
a call is the safe name of its agent, with the number behind it from the second call on.

Different calls have different origins, but not different full names.

* `not_mem_returned` — a call is given an origin that no call before it was given;
* `unique_iff` — which runs of calls give different full names to different origins.
-/

namespace NoraFleet.Messages.Origination

open Base Networks Validation

/-- `{"tool": agent_name, "instantiation_index": instantiation_index}`. -/
def originDict (agentName : PyStr) (instantiationIndex : Nat) : Json :=
  .obj [(str "tool", .str agentName), (str "instantiation_index", .int instantiationIndex)]

/-- `INSTANTIATION_START`. -/
def instantiationStart : Nat := 1

/-- `self.tool_to_index_map.get(agent_name, INSTANTIATION_START)`. -/
def nextIndex (toolToIndexMap : Dict PyStr Nat) (agentName : PyStr) : Nat :=
  (toolToIndexMap.get? agentName).getD instantiationStart

/-- `add_spec_name_to_origin(origin, agent_name)`: the map after it, and the new origin. -/
def addSpecNameToOrigin (toolToIndexMap : Dict PyStr Nat) :
    Option (List Json) → Option PyStr → Dict PyStr Nat × List Json
  | some origin, some agentName =>
      let instantiationIndex := nextIndex toolToIndexMap agentName
      (toolToIndexMap.set agentName (instantiationIndex + 1),
        origin ++ [originDict agentName instantiationIndex])
  | _, _ => (toolToIndexMap, [])

/-! ## Sessions -/

/-- The origination of a session, and the origins that it has returned. -/
structure Session where
  toolToIndexMap : Dict PyStr Nat
  returned : List (List Json)

/-- A new session. -/
def Session.start : Session := ⟨.empty, []⟩

/-- The arguments of a call. -/
structure Call where
  origin : Option (List Json)
  agentName : Option PyStr

/-- Add to an origin. -/
def exec (call : Call) (session : Session) : Session :=
  let added := addSpecNameToOrigin session.toolToIndexMap call.origin call.agentName
  ⟨added.1, added.2 :: session.returned⟩

/-- The session after calls. -/
def after (calls : List Call) : Session :=
  calls.foldl (fun session call => exec call session) .start

variable (check : Urls.NetlocCheck)

/-- A name that the validator accepts, or a reference to an external agent. -/
def IsAgentName (agentName : PyStr) : Prop :=
  ToolNameNetworkValidator.matchesPattern agentName = true ∨
    ∃ name, ExternalAgentParsing.parseExternalAgent check agentName = .ok (some name)

/-- The call continues an origin of the session, or begins one, for a certain agent. -/
def Admitted (IsName : PyStr → Prop) (call : Call) (session : Session) : Prop :=
  (∀ origin, call.origin = some origin → origin = [] ∨ origin ∈ session.returned) ∧
    ∀ agentName, call.agentName = some agentName → IsName agentName

/-- Different origins of the session have different full names. -/
def Unique (session : Session) : Prop :=
  ∀ first ∈ session.returned, ∀ second ∈ session.returned, first ≠ second →
    ∀ name, getFullNameFromOrigin check (.arr first) = .ok name →
      getFullNameFromOrigin check (.arr second) ≠ .ok name

/-- The call is so written that it is related to how the earlier calls are written that
continued the same origin. -/
def Siblings (R : PyStr → PyStr → Prop) (call : Call) (session : Session) : Prop :=
  ∀ origin agentName entry labels, call.origin = some origin → call.agentName = some agentName →
    origin ++ [entry] ∈ session.returned → origin.mapM (originStr check) = .ok labels →
    ∀ earlier label, originStr check entry = .ok earlier →
      originStr check (originDict agentName (nextIndex session.toolToIndexMap agentName)) =
        .ok label → R earlier label

section Labels

variable {check}

/-- How a call is written: the safe name of the agent, and an index. -/
theorem originStr_originDict (agentName : PyStr) (index : Nat) :
    originStr check (originDict agentName index) = (indexStr (.int index)).bind fun behind =>
      (ExternalAgentParsing.getSafeAgentName check agentName).map (· ++ behind) := by
  have htool : Json.lookup [(str "tool", .str agentName),
      (str "instantiation_index", .int (index : ℤ))] (str "tool") = some (.str agentName) := by
    rw [Json.lookup_cons, if_pos rfl]
  have hindex : Json.lookup [(str "tool", .str agentName),
      (str "instantiation_index", .int (index : ℤ))] (str "instantiation_index") =
        some (.int index) := by
    have hne : ¬str "tool" = str "instantiation_index" := by decide
    rw [Json.lookup_cons, if_neg hne, Json.lookup_cons, if_pos rfl]
  unfold originStr originDict
  dsimp only
  rw [htool, hindex, Option.getD_some, Option.getD_some]
  cases indexStr (.int index) with
  | error e => simp [Except.bind]
  | ok behind => simp [Except.bind, safeTool]

theorem originStr_eq_ok {agentName : PyStr} {index : Nat} {label : PyStr}
    (h : originStr check (originDict agentName index) = .ok label) :
    ∃ safe behind, ExternalAgentParsing.getSafeAgentName check agentName = .ok safe ∧
      indexStr (.int index) = .ok behind ∧ label = safe ++ behind := by
  rw [originStr_originDict] at h
  cases hindex : indexStr (.int index) with
  | error e =>
      rw [hindex] at h
      cases h
  | ok behind =>
      rw [hindex] at h
      obtain ⟨safe, hsafe, hlabel⟩ := exists_of_map_eq_ok h
      exact ⟨safe, behind, hsafe, rfl, hlabel.symm⟩

theorem digits_of_reprInt {n : Nat} {text : PyStr} (h : reprInt n = some text) {c : Nat}
    (hc : c ∈ text) : 48 ≤ c ∧ c ≤ 57 := by
  unfold reprInt at h
  split at h
  · cases h
  · obtain rfl := Option.some.inj h
    have hsign : decide ((n : ℤ) < 0) = false := decide_eq_false (by omega)
    unfold numeralText at hc
    rw [hsign, if_neg Bool.false_ne_true, if_pos rfl, List.nil_append, List.append_nil] at hc
    obtain ⟨d, hd, rfl⟩ := List.mem_map.mp (List.append_nil _ ▸ hc)
    have hlt := digitsOf_lt hd
    omega

/-- An index has nothing but a dash and digits. -/
theorem digits_of_indexStr {index : Nat} {behind : PyStr}
    (h : indexStr (.int index) = .ok behind) {c : Nat} (hc : c ∈ behind) :
    c = 45 ∨ (48 ≤ c ∧ c ≤ 57) := by
  unfold indexStr isLaterIndex indexText at h
  dsimp only at h
  split at h
  · cases h
  · obtain rfl := Except.ok.inj h
    exact absurd hc List.not_mem_nil
  · obtain ⟨text, htext, rfl⟩ := exists_of_map_eq_ok h
    split at htext
    · cases htext
    · rename_i digits hrepr
      obtain rfl := Except.ok.inj htext
      rcases List.mem_cons.mp hc with rfl | hc
      · exact .inl rfl
      · right
        unfold zfill at hc
        rcases List.mem_append.mp hc with hc | hc
        · rw [List.eq_of_mem_replicate hc]
          omega
        · exact digits_of_reprInt hrepr hc

theorem mem_replaceSlashes {s : PyStr} {c : Nat} (h : c ∈ Text.replaceSlashes (str "__") s) :
    c = 95 ∨ c ∈ s ∧ c ≠ 47 := by
  obtain ⟨d, hd, hc⟩ := List.mem_flatMap.mp h
  by_cases hslash : d = 47
  · rw [if_pos hslash] at hc
    left
    simpa [str] using hc
  · rw [if_neg hslash] at hc
    obtain rfl := List.mem_singleton.mp hc
    exact .inr ⟨hd, hslash⟩

/-- What is in the name of an external agent is in its URL. -/
theorem mem_of_parseExternalAgent {agentUrl name : PyStr}
    (h : ExternalAgentParsing.parseExternalAgent check agentUrl = .ok (some name)) {c : Nat}
    (hc : c ∈ name) : c ∈ agentUrl := by
  unfold ExternalAgentParsing.parseExternalAgent at h
  split at h
  · cases h
  · split at h
    · cases h
    · rename_i parseResult hparse
      split at h
      · cases h
      · split at h
        · cases h
        · obtain rfl := Option.some.inj (Except.ok.inj h)
          exact Urls.mem_of_mem_path hparse ((List.dropWhile_suffix _).subset hc)

/-- No safe name has slashes. -/
theorem not_slash_of_getSafeAgentName {agentName safe : PyStr} (hname : IsAgentName check agentName)
    (h : ExternalAgentParsing.getSafeAgentName check agentName = .ok safe) :
    47 ∉ safe ∧ safe ≠ [] := by
  unfold ExternalAgentParsing.getSafeAgentName at h
  split at h
  · cases h
  · rename_i hparse
    obtain rfl := Except.ok.inj h
    rcases hname with hmatches | ⟨name, hname⟩
    · exact ⟨ToolNameNetworkValidator.not_mem_of_matchesPattern hmatches (.inr rfl),
        ToolNameNetworkValidator.ne_nil_of_matchesPattern hmatches⟩
    · rw [hparse] at hname
      cases hname
  · rename_i name hparse
    obtain rfl := Except.ok.inj h
    constructor
    · intro hmem
      rcases List.mem_append.mp hmem with hmem | hmem
      · exact absurd hmem (by decide)
      · rcases mem_replaceSlashes hmem with hmem | hmem
        · cases hmem
        · exact hmem.2 rfl
    · exact fun hnil => by cases hnil

theorem dropDotsBeforeSlashes_of_not_mem {s : PyStr} (h : 47 ∉ s) :
    Text.dropDotsBeforeSlashes s = s := by
  induction s using Text.dropDotsBeforeSlashes.induct with
  | case1 => rfl
  | case2 rest ih => exact absurd (by simp) h
  | case3 c rest hne ih =>
      rw [Text.dropDotsBeforeSlashes, ih fun hmem => h (List.mem_cons_of_mem _ hmem)]
      exact hne

/-- A call is written without slashes, and not as nothing. -/
theorem label_of_isAgentName {agentName : PyStr} (hname : IsAgentName check agentName) {index : Nat}
    {label : PyStr} (h : originStr check (originDict agentName index) = .ok label) :
    47 ∉ label ∧ label ≠ [] := by
  obtain ⟨safe, behind, hsafe, hbehind, rfl⟩ := originStr_eq_ok h
  obtain ⟨hslash, hne⟩ := not_slash_of_getSafeAgentName hname hsafe
  constructor
  · intro hmem
    rcases List.mem_append.mp hmem with hmem | hmem
    · exact hslash hmem
    · have hdigit := digits_of_indexStr hbehind hmem
      omega
  · exact fun hnil => hne (List.append_eq_nil_iff.mp hnil).1

/-- The full name of an origin is put together from how its calls are written. -/
theorem getFullNameFromOrigin_eq_ok {origin : List Json} {name : Option PyStr}
    (h : getFullNameFromOrigin check (.arr origin) = .ok name) :
    ∃ labels, origin.mapM (originStr check) = .ok labels ∧
      name = some (Text.dropDotsBeforeSlashes ([46].intercalate labels)) := by
  obtain ⟨labels, hlabels, hname⟩ := exists_of_map_eq_ok h
  exact ⟨labels, hlabels, hname.symm⟩

end Labels

/-! ## What a call does -/

section Calls

variable {check} {IsName : PyStr → Prop} {session : Session} {call : Call}

/-- A call returns no origin, or continues the one it is given. -/
theorem exec_cases (call : Call) (session : Session) :
    ((call.origin = none ∨ call.agentName = none) ∧
      exec call session = ⟨session.toolToIndexMap, [] :: session.returned⟩) ∨
    ∃ origin agentName, call.origin = some origin ∧ call.agentName = some agentName ∧
      exec call session =
        ⟨session.toolToIndexMap.set agentName (nextIndex session.toolToIndexMap agentName + 1),
          (origin ++ [originDict agentName (nextIndex session.toolToIndexMap agentName)]) ::
            session.returned⟩ := by
  obtain ⟨origin, agentName⟩ := call
  cases origin with
  | none => exact .inl ⟨.inl rfl, rfl⟩
  | some origin =>
      cases agentName with
      | none => exact .inl ⟨.inr rfl, rfl⟩
      | some agentName => exact .inr ⟨origin, agentName, rfl, rfl, rfl⟩

theorem nextIndex_set (toolToIndexMap : Dict PyStr Nat) (agentName other : PyStr) (index : Nat) :
    nextIndex (toolToIndexMap.set agentName index) other =
      if other = agentName then index else nextIndex toolToIndexMap other := by
  unfold nextIndex
  rw [Dict.get?_set]
  split <;> rfl

theorem originDict_inj {agentName other : PyStr} {index index' : Nat}
    (h : originDict agentName index = originDict other index') :
    agentName = other ∧ index = index' := by
  simpa [originDict] using h

/-- The origins of a session are those of calls that continue each other, and their indexes
were counted. -/
structure Grown (IsName : PyStr → Prop) (session : Session) : Prop where
  continued : ∀ origin entry, origin ++ [entry] ∈ session.returned →
    origin = [] ∨ origin ∈ session.returned
  counted : ∀ origin ∈ session.returned, ∀ entry ∈ origin, ∃ agentName index,
    entry = originDict agentName index ∧ IsName agentName ∧
      index < nextIndex session.toolToIndexMap agentName

theorem grown_start : Grown IsName .start where
  continued := fun _ _ h => absurd h List.not_mem_nil
  counted := fun _ h => absurd h List.not_mem_nil

theorem grown_exec (hgrown : Grown IsName session) (hadmitted : Admitted IsName call session) :
    Grown IsName (exec call session) := by
  rcases exec_cases call session with ⟨-, hexec⟩ | ⟨origin, agentName, horigin, hname, hexec⟩
  · rw [hexec]
    constructor
    · intro origin entry hmem
      rcases List.mem_cons.mp hmem with hnil | hmem
      · simp at hnil
      · exact (hgrown.continued origin entry hmem).imp_right (List.mem_cons_of_mem _)
    · intro origin hmem
      rcases List.mem_cons.mp hmem with rfl | hmem
      · exact fun entry hentry => absurd hentry List.not_mem_nil
      · exact hgrown.counted origin hmem
  · rw [hexec]
    -- indexes that were below the counter still are
    have hold : ∀ origin ∈ session.returned, ∀ entry ∈ origin, ∃ other index,
        entry = originDict other index ∧ IsName other ∧ index < nextIndex
          (session.toolToIndexMap.set agentName (nextIndex session.toolToIndexMap agentName + 1))
          other := by
      intro origin hmem entry hentry
      obtain ⟨other, index, hdict, hother, hlt⟩ := hgrown.counted origin hmem entry hentry
      refine ⟨other, index, hdict, hother, ?_⟩
      rw [nextIndex_set]
      split
      · rename_i heq
        subst heq
        omega
      · exact hlt
    constructor
    · intro path entry hmem
      rcases List.mem_cons.mp hmem with heq | hmem
      · obtain ⟨rfl, -⟩ := List.append_inj' heq rfl
        exact (hadmitted.1 path horigin).imp_right (List.mem_cons_of_mem _)
      · exact (hgrown.continued path entry hmem).imp_right (List.mem_cons_of_mem _)
    · intro path hmem entry hentry
      rcases List.mem_cons.mp hmem with rfl | hmem
      · rcases List.mem_append.mp hentry with hentry | hentry
        · rcases hadmitted.1 origin horigin with rfl | hparent
          · exact absurd hentry List.not_mem_nil
          · exact hold origin hparent entry hentry
        · obtain rfl := List.mem_singleton.mp hentry
          refine ⟨agentName, _, rfl, hadmitted.2 agentName hname, ?_⟩
          rw [nextIndex_set, if_pos rfl]
          omega
      · exact hold path hmem entry hentry

/-- A call is given an origin that no call before it was given. -/
theorem not_mem_returned (hgrown : Grown IsName session) (origin : List Json)
    (agentName : PyStr) :
    origin ++ [originDict agentName (nextIndex session.toolToIndexMap agentName)] ∉
      session.returned := by
  intro hmem
  obtain ⟨other, index, hdict, -, hlt⟩ := hgrown.counted _ hmem
    (originDict agentName (nextIndex session.toolToIndexMap agentName)) (by simp)
  obtain ⟨rfl, rfl⟩ := originDict_inj hdict
  exact Nat.lt_irrefl _ hlt

/-- What an origin begins with is an origin of the session. -/
theorem Grown.mem_of_continued (hgrown : Grown IsName session) {path rest : List Json}
    {entry : Json}
    (h : path ++ [entry] ++ rest ∈ session.returned) : path ++ [entry] ∈ session.returned := by
  induction rest using List.reverseRecOn with
  | nil => rwa [List.append_nil] at h
  | append_singleton rest last ih =>
      rw [← List.append_assoc] at h
      rcases hgrown.continued _ _ h with hnil | hmem
      · simp at hnil
      · exact ih hmem

/-- Where two origins part, the calls are written apart. -/
def Parted (check : Urls.NetlocCheck) (session : Session) : Prop :=
  ∀ origin first second labels, origin ++ [first] ∈ session.returned →
    origin ++ [second] ∈ session.returned → first ≠ second →
    origin.mapM (originStr check) = .ok labels →
    ∀ label label', originStr check first = .ok label → originStr check second = .ok label' →
      Labels.Apart 46 label label'

theorem parted_start : Parted check .start := fun _ _ _ _ h => absurd h List.not_mem_nil

/-- A call that is written apart from its siblings keeps the origins parted. -/
theorem parted_exec (hparted : Parted check session)
    (hsiblings : Siblings check (Labels.Apart 46) call session) :
    Parted check (exec call session) := by
  rcases exec_cases call session with ⟨-, hexec⟩ | ⟨origin, agentName, horigin, hname, hexec⟩
  · rw [hexec]
    intro path first second labels hfirst hsecond
    rcases List.mem_cons.mp hfirst with hnil | hfirst
    · simp at hnil
    · rcases List.mem_cons.mp hsecond with hnil | hsecond
      · simp at hnil
      · exact hparted path first second labels hfirst hsecond
  · rw [hexec]
    intro path first second labels hfirst hsecond hne hlabels label label' hlabel hlabel'
    rcases List.mem_cons.mp hfirst with heq | hold
    · obtain ⟨rfl, hlast⟩ := List.append_inj' heq rfl
      obtain rfl := List.singleton_inj.mp hlast
      rcases List.mem_cons.mp hsecond with heq' | hold'
      · obtain ⟨-, hlast'⟩ := List.append_inj' heq' rfl
        exact absurd (List.singleton_inj.mp hlast').symm hne
      · exact (hsiblings path agentName second labels horigin hname hold' hlabels label' label
          hlabel' hlabel).symm
    · rcases List.mem_cons.mp hsecond with heq | hold'
      · obtain ⟨rfl, hlast⟩ := List.append_inj' heq rfl
        obtain rfl := List.singleton_inj.mp hlast
        exact hsiblings path agentName first labels horigin hname hold hlabels label label'
          hlabel hlabel'
      · exact hparted path first second labels hold hold' hne hlabels label label' hlabel hlabel'

/-- How an entry is written, where it is. -/
def labelOf (check : Urls.NetlocCheck) (entry : Json) : PyStr :=
  match originStr check entry with
  | .ok label => label
  | .error _ => []

theorem mapM_originStr {origin : List Json} {labels : List PyStr}
    (h : origin.mapM (originStr check) = .ok labels) :
    labels = origin.map (labelOf check) ∧
      ∀ entry ∈ origin, originStr check entry = .ok (labelOf check entry) := by
  induction origin generalizing labels with
  | nil =>
      obtain rfl : [] = labels := Except.ok.inj h
      exact ⟨rfl, fun entry hentry => absurd hentry List.not_mem_nil⟩
  | cons entry rest ih =>
      rw [List.mapM_cons] at h
      cases hentry : originStr check entry with
      | error e => simp [hentry, bind, Except.bind] at h
      | ok label =>
          cases hrest : rest.mapM (originStr check) with
          | error e => simp [hentry, hrest, bind, Except.bind] at h
          | ok others =>
              obtain ⟨rfl, hall⟩ := ih hrest
              have hlabel : labelOf check entry = label := by
                unfold labelOf
                rw [hentry]
              simp only [hentry, hrest, bind, Except.bind, pure, Except.pure] at h
              obtain rfl := Except.ok.inj h
              refine ⟨by rw [List.map_cons, hlabel], ?_⟩
              rw [List.forall_mem_cons, hlabel]
              exact ⟨hentry, hall⟩

theorem unique_of_parted (hnames : ∀ agentName, IsName agentName → IsAgentName check agentName)
    (hgrown : Grown IsName session) (hparted : Parted check session) : Unique check session := by
  intro first hfirst second hsecond hne name hname hname'
  obtain ⟨labels, hlabels, rfl⟩ := getFullNameFromOrigin_eq_ok hname
  obtain ⟨labels', hlabels', hsame⟩ := getFullNameFromOrigin_eq_ok hname'
  obtain ⟨rfl, hall⟩ := mapM_originStr hlabels
  obtain ⟨rfl, hall'⟩ := mapM_originStr hlabels'
  have hwritten : ∀ origin ∈ session.returned, (∀ entry ∈ origin,
      originStr check entry = .ok (labelOf check entry)) →
      ∀ entry ∈ origin, 47 ∉ labelOf check entry ∧ labelOf check entry ≠ [] := by
    intro origin horigin hok entry hentry
    obtain ⟨agentName, index, rfl, hagent, -⟩ := hgrown.counted origin horigin entry hentry
    exact label_of_isAgentName (hnames agentName hagent) (hok _ hentry)
  have hplain : ∀ origin ∈ session.returned, (∀ entry ∈ origin,
      originStr check entry = .ok (labelOf check entry)) →
      47 ∉ [46].intercalate (origin.map (labelOf check)) := by
    intro origin horigin hok hmem
    rcases Labels.mem_intercalate hmem with hdot | ⟨label, hlabel, hmem⟩
    · cases hdot
    · obtain ⟨entry, hentry, rfl⟩ := List.mem_map.mp hlabel
      exact (hwritten origin horigin hok entry hentry).1 hmem
  rw [Option.some.injEq, dropDotsBeforeSlashes_of_not_mem (hplain first hfirst hall),
    dropDotsBeforeSlashes_of_not_mem (hplain second hsecond hall')] at hsame
  apply hne
  apply Labels.eq_of_intercalate_eq (fun e he => (hwritten first hfirst hall e he).2)
    (fun e he => (hwritten second hsecond hall' e he).2) _ hsame
  intro path a b ha hb hab
  obtain ⟨rest, rfl⟩ := ha
  obtain ⟨rest', rfl⟩ := hb
  have hpath : path.mapM (originStr check) = .ok (path.map (labelOf check)) :=
    mapM_eq_ok_map fun entry hentry => hall entry (by simp [hentry])
  exact hparted path a b _ (hgrown.mem_of_continued hfirst) (hgrown.mem_of_continued hsecond) hab
    hpath _ _ (hall a (by simp)) (hall' b (by simp))

/-- The full name of an origin that is continued. -/
theorem getFullNameFromOrigin_concat {origin : List Json} {labels : List PyStr}
    (h : origin.mapM (originStr check) = .ok labels) {entry : Json} {label : PyStr}
    (hlabel : originStr check entry = .ok label) :
    getFullNameFromOrigin check (.arr (origin ++ [entry])) =
      .ok (some (Text.dropDotsBeforeSlashes ([46].intercalate (labels ++ [label])))) := by
  have hmapM : (origin ++ [entry]).mapM (originStr check) = .ok (labels ++ [label]) := by
    rw [List.mapM_append, h, List.mapM_cons, hlabel]
    rfl
  show ((origin ++ [entry]).mapM (originStr check)).map _ = _
  rw [hmapM]
  rfl

/-- Siblings that are written the same have the same full name. -/
theorem siblings_ne_of_unique (hgrown : Grown IsName session)
    (hunique : Unique check (exec call session)) :
    Siblings check (fun earlier label => earlier ≠ label) call session := by
  intro origin agentName entry labels horigin hname hmem hlabels earlier label hearlier hlabel heq
  subst heq
  rcases exec_cases call session with ⟨hnone, -⟩ | ⟨origin', agentName', horigin', hname', hexec⟩
  · rcases hnone with hnone | hnone
    · rw [horigin] at hnone
      cases hnone
    · rw [hname] at hnone
      cases hnone
  · obtain rfl := Option.some.inj (horigin.symm.trans horigin')
    obtain rfl := Option.some.inj (hname.symm.trans hname')
    rw [hexec] at hunique
    have hnew := not_mem_returned hgrown origin agentName
    apply hunique _ (List.mem_cons_of_mem _ hmem) _ List.mem_cons_self
    · exact fun heq => hnew (heq ▸ hmem)
    · exact getFullNameFromOrigin_concat hlabels hearlier
    · exact getFullNameFromOrigin_concat hlabels hlabel

theorem Unique.of_exec (h : Unique check (exec call session)) : Unique check session := by
  have hmem : ∀ origin ∈ session.returned, origin ∈ (exec call session).returned :=
    fun origin horigin => List.mem_cons_of_mem _ horigin
  exact fun first hfirst second hsecond => h first (hmem first hfirst) second (hmem second hsecond)

theorem Unique.of_run {calls : List Call}
    (h : Unique check (calls.foldl (fun session call => exec call session) session)) :
    Unique check session := by
  induction calls generalizing session with
  | nil => exact h
  | cons call rest ih => exact (ih h).of_exec

/-- Where the full names are different, every call is written differently from its
siblings. -/
theorem allOk_ne_of_unique {calls : List Call} (hgrown : Grown IsName session)
    (hadmitted : Runs.AllOk exec (Admitted IsName) session calls)
    (hunique : Unique check (calls.foldl (fun session call => exec call session) session)) :
    Runs.AllOk exec (Siblings check fun earlier label => earlier ≠ label) session calls := by
  induction calls generalizing session with
  | nil => trivial
  | cons call rest ih =>
      exact ⟨siblings_ne_of_unique hgrown (@Unique.of_run check _ rest hunique),
        ih (grown_exec hgrown hadmitted.1) hadmitted.2 hunique⟩

/-- Where every call is written apart from its siblings, the full names are different. -/
theorem unique_of_allOk (hnames : ∀ agentName, IsName agentName → IsAgentName check agentName)
    {calls : List Call} (hadmitted : Runs.AllOk exec (Admitted IsName) .start calls)
    (hsiblings : Runs.AllOk exec (Siblings check (Labels.Apart 46)) .start calls) :
    Unique check (after calls) := by
  have hrun := Runs.of_ops .init ((Runs.allOk_and _ calls).mpr ⟨hadmitted, hsiblings⟩)
  obtain ⟨hgrown, hparted⟩ := Runs.invariant
    (I := fun session => Grown IsName session ∧ Parted check session)
    ⟨grown_start, parted_start⟩
    (fun call session hinv hok => ⟨grown_exec hinv.1 hok.1, parted_exec hinv.2 hok.2⟩) hrun
  exact unique_of_parted hnames hgrown hparted

/-- The safe name of an agent has no dots. -/
def NoDots (check : Urls.NetlocCheck) (agentName : PyStr) : Prop :=
  ∀ safe, ExternalAgentParsing.getSafeAgentName check agentName = .ok safe → 46 ∉ safe

theorem noDots_of_matchesPattern {agentName : PyStr}
    (h : ToolNameNetworkValidator.matchesPattern agentName = true) : NoDots check agentName := by
  intro safe hsafe hmem
  have hname : 46 ∉ agentName := ToolNameNetworkValidator.not_mem_of_matchesPattern h (.inl rfl)
  unfold ExternalAgentParsing.getSafeAgentName at hsafe
  split at hsafe
  · cases hsafe
  · obtain rfl := Except.ok.inj hsafe
    exact hname hmem
  · rename_i name hparse
    obtain rfl := Except.ok.inj hsafe
    rcases List.mem_append.mp hmem with hmem | hmem
    · exact absurd hmem (by decide)
    · rcases mem_replaceSlashes hmem with hmem | hmem
      · cases hmem
      · exact hname (mem_of_parseExternalAgent hparse hmem.1)

theorem not_dot_of_noDots {agentName : PyStr} (hname : NoDots check agentName) {index : Nat}
    {label : PyStr} (h : originStr check (originDict agentName index) = .ok label) :
    46 ∉ label := by
  obtain ⟨safe, behind, hsafe, hbehind, rfl⟩ := originStr_eq_ok h
  intro hmem
  rcases List.mem_append.mp hmem with hmem | hmem
  · exact hname safe hsafe hmem
  · have hdigit := digits_of_indexStr hbehind hmem
    omega

/-- Without dots, siblings are written apart when they are written differently. -/
theorem siblings_apart_iff_ne (hnames : ∀ agentName, IsName agentName → NoDots check agentName)
    (hgrown : Grown IsName session) (hadmitted : Admitted IsName call session) :
    Siblings check (Labels.Apart 46) call session ↔
      Siblings check (fun earlier label => earlier ≠ label) call session := by
  have hiff : ∀ {origin agentName entry earlier label}, call.agentName = some agentName →
      origin ++ [entry] ∈ session.returned → originStr check entry = .ok earlier →
      originStr check (originDict agentName (nextIndex session.toolToIndexMap agentName)) =
        .ok label → (Labels.Apart 46 earlier label ↔ earlier ≠ label) := by
    intro origin agentName entry earlier label hname hmem hearlier hlabel
    obtain ⟨other, index, rfl, hother, -⟩ := hgrown.counted _ hmem entry (by simp)
    exact Labels.apart_iff_ne (not_dot_of_noDots (hnames other hother) hearlier)
      (not_dot_of_noDots (hnames agentName (hadmitted.2 agentName hname)) hlabel)
  constructor
  · intro h origin agentName entry labels horigin hname hmem hlabels earlier label hearlier hlabel
    exact (hiff hname hmem hearlier hlabel).mp
      (h origin agentName entry labels horigin hname hmem hlabels earlier label hearlier hlabel)
  · intro h origin agentName entry labels horigin hname hmem hlabels earlier label hearlier hlabel
    exact (hiff hname hmem hearlier hlabel).mpr
      (h origin agentName entry labels horigin hname hmem hlabels earlier label hearlier hlabel)

/-- A call is written differently from its siblings where it is written apart from them. -/
theorem allOk_apart_iff_ne (hnames : ∀ agentName, IsName agentName → NoDots check agentName)
    {calls : List Call} (hadmitted : Runs.AllOk exec (Admitted IsName) .start calls) :
    Runs.AllOk exec (Siblings check (Labels.Apart 46)) .start calls ↔
      Runs.AllOk exec (Siblings check fun earlier label => earlier ≠ label) .start calls := by
  have hcongr := @Runs.allOk_congr Session Call exec (Grown IsName)
    (fun call session => Admitted IsName call session ∧
      Siblings check (Labels.Apart 46) call session)
    (fun call session => Admitted IsName call session ∧
      Siblings check (fun earlier label => earlier ≠ label) call session) .start grown_start
    (fun call session hgrown hok => grown_exec hgrown hok.1)
    (fun call session hgrown => and_congr_right fun hok => siblings_apart_iff_ne hnames hgrown hok)
    calls
  rw [Runs.allOk_and, Runs.allOk_and] at hcongr
  constructor
  · exact fun h => (hcongr.mp ⟨hadmitted, h⟩).2
  · exact fun h => (hcongr.mpr ⟨hadmitted, h⟩).2

end Calls

/-- **Full names of origins.** In a run of calls of agents, different origins have different
full names where every call is written apart from the calls that continued the same origin
before; where they have, every call is written differently from these. Without dots in the
safe names of the agents, that is the same. -/
theorem unique_iff (check : Urls.NetlocCheck) (calls : List Call)
    (hadmitted : Runs.AllOk exec (Admitted (IsAgentName check)) .start calls) :
    (Runs.AllOk exec (Siblings check (Labels.Apart 46)) .start calls → Unique check (after calls)) ∧
    (Unique check (after calls) →
      Runs.AllOk exec (Siblings check fun earlier label => earlier ≠ label) .start calls) ∧
    (Runs.AllOk exec (Admitted (NoDots check)) .start calls →
      (Unique check (after calls) ↔
        Runs.AllOk exec (Siblings check fun earlier label => earlier ≠ label) .start calls)) := by
  have hapart := @unique_of_allOk check (IsAgentName check) (fun _ h => h) calls hadmitted
  have hdiffer := @allOk_ne_of_unique check (IsAgentName check) .start calls grown_start hadmitted
  refine ⟨hapart, hdiffer, fun hdots => ⟨hdiffer, fun h => hapart ?_⟩⟩
  exact (allOk_apart_iff_ne (fun _ hname => hname) hdots).mpr h

/-- The calls of a session: a front man calls an agent twice, and another one. -/
def callsTo (other : PyStr) : List Call :=
  let frontMan := [originDict (str "main") 1]
  [⟨some [], some (str "main")⟩, ⟨some frontMan, some (str "foo")⟩,
    ⟨some frontMan, some (str "foo")⟩, ⟨some frontMan, some other⟩]

theorem admitted_callsTo {IsName : PyStr → Prop} {other : PyStr} (hmain : IsName (str "main"))
    (hfoo : IsName (str "foo")) (hother : IsName other) :
    Runs.AllOk exec (Admitted IsName) .start (callsTo other) := by
  have hadmitted : ∀ {origin : List Json} {agentName : PyStr} {session : Session},
      IsName agentName → (origin = [] ∨ origin ∈ session.returned) →
      Admitted IsName ⟨some origin, some agentName⟩ session := by
    intro origin agentName session hname horigin
    refine ⟨fun origin' heq => ?_, fun agentName' heq => ?_⟩
    · rwa [← Option.some.inj heq]
    · rwa [← Option.some.inj heq]
  refine ⟨hadmitted hmain (.inl rfl), hadmitted hfoo (.inr ?_), hadmitted hfoo (.inr ?_),
    hadmitted hother (.inr ?_), trivial⟩
  · exact List.mem_cons_self
  · exact List.mem_cons_of_mem _ List.mem_cons_self
  · exact List.mem_cons_of_mem _ (List.mem_cons_of_mem _ List.mem_cons_self)

/-- How a call is written, and the siblings that there are. -/
theorem siblings_of_written {check : Urls.NetlocCheck} {R : PyStr → PyStr → Prop}
    {origin : List Json} {agentName label : PyStr} {session : Session}
    (hlabel : originStr check
      (originDict agentName (nextIndex session.toolToIndexMap agentName)) = .ok label)
    (h : ∀ entry, origin ++ [entry] ∈ session.returned →
      ∃ earlier, originStr check entry = .ok earlier ∧ R earlier label) :
    Siblings check R ⟨some origin, some agentName⟩ session := by
  intro origin' agentName' entry labels horigin hname hmem _ earlier label' hearlier hlabel'
  obtain rfl := Option.some.inj horigin
  obtain rfl := Option.some.inj hname
  obtain ⟨earlier', hearlier', hR⟩ := h entry hmem
  rw [hearlier] at hearlier'
  rw [hlabel] at hlabel'
  obtain rfl := Except.ok.inj hearlier'
  obtain rfl := Except.ok.inj hlabel'
  exact hR

/-- With an agent of another name, all full names are different. -/
theorem unique_callsTo_bar : Unique (fun _ => false) (after (callsTo (str "bar"))) := by
  apply (unique_iff (fun _ => false) (callsTo (str "bar"))
    (admitted_callsTo (.inl (by decide)) (.inl (by decide)) (.inl (by decide)))).1
  have hmain : originStr (fun _ => false) (originDict (str "main") 1) = .ok (str "main") := rfl
  have hbar : originStr (fun _ => false) (originDict (str "bar") 1) = .ok (str "bar") := rfl
  have hfoo : originStr (fun _ => false) (originDict (str "foo") 1) = .ok (str "foo") := rfl
  have hagain : originStr (fun _ => false) (originDict (str "foo") 2) = .ok (str "foo-02") := rfl
  have happart : ∀ {first second : PyStr}, first ≠ second → first.contains 46 = false →
      second.contains 46 = false → Labels.Apart 46 first second := by
    intro first second hne hfirst hsecond
    exact (Labels.apart_iff_ne (by simpa using hfirst) (by simpa using hsecond)).mpr hne
  refine ⟨siblings_of_written hmain ?_, siblings_of_written hfoo ?_, siblings_of_written hagain ?_,
    siblings_of_written hbar ?_, trivial⟩
  · exact fun entry hmem => absurd hmem List.not_mem_nil
  · intro entry hmem
    have hmem' : [originDict (str "main") 1, entry] ∈ [[originDict (str "main") 1]] := hmem
    simp at hmem'
  · intro entry hmem
    have hmem' : [originDict (str "main") 1, entry] ∈
        [[originDict (str "main") 1, originDict (str "foo") 1], [originDict (str "main") 1]] := hmem
    obtain rfl : entry = originDict (str "foo") 1 := by simpa using hmem'
    exact ⟨_, hfoo, happart (by decide) (by decide) (by decide)⟩
  · intro entry hmem
    have hmem' : [originDict (str "main") 1, entry] ∈
        [[originDict (str "main") 1, originDict (str "foo") 2],
          [originDict (str "main") 1, originDict (str "foo") 1],
          [originDict (str "main") 1]] := hmem
    have hentry : entry = originDict (str "foo") 2 ∨ entry = originDict (str "foo") 1 := by
      simpa using hmem'
    rcases hentry with rfl | rfl
    · exact ⟨_, hagain, happart (by decide) (by decide) (by decide)⟩
    · exact ⟨_, hfoo, happart (by decide) (by decide) (by decide)⟩

/-- The second call of `foo` and the call of `foo-02` have one full name. -/
theorem callsTo_foo02_same : ¬ ∀ (check : Urls.NetlocCheck) (calls : List Call),
    Runs.AllOk exec (Admitted (IsAgentName check)) .start calls → Unique check (after calls) := by
  intro h
  have hunique := h (fun _ => false) (callsTo (str "foo-02"))
    (admitted_callsTo (.inl (by decide)) (.inl (by decide)) (.inl (by decide)))
  have hmem : [originDict (str "main") 1, originDict (str "foo-02") 1] ∈
      (after (callsTo (str "foo-02"))).returned := List.mem_cons_self
  have hmem' : [originDict (str "main") 1, originDict (str "foo") 2] ∈
      (after (callsTo (str "foo-02"))).returned := List.mem_cons_of_mem _ List.mem_cons_self
  have hne : [originDict (str "main") 1, originDict (str "foo-02") 1] ≠
      [originDict (str "main") 1, originDict (str "foo") 2] := by
    intro heq
    have hindex := (originDict_inj (List.cons.inj (List.cons.inj heq).2).1).2
    omega
  exact hunique _ hmem _ hmem' hne (some (str "main.foo-02")) rfl rfl

end NoraFleet.Messages.Origination
