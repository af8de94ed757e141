import Mathlib
import NoraFleet.Base.Flow
import NoraFleet.Base.Layers
import NoraFleet.Base.Urls

/-!
# The full configuration of a model

`DefaultLlmFactory.create_full_llm_config` fills in what an `llm_config` leaves out:
from the default configuration, and from the arguments of the model's class and of the
classes it extends. A class is meant to override what it inherits, but the arguments it
inherits are laid over its own.

* `getChatClassArgs_chain` — the arguments of a class, however long the chain of
  classes it extends;
* `followsInheritance_iff` — when every key has the value of the most specific source
  that defines it.
-/

namespace NoraFleet.Llms

open Base Base.Json

/-! ## Dictionaries -/

/-- `members.get(key)`. -/
def get (members : Members) (key : PyStr) : Json := (Json.lookup members key).getD .null

/-- `members.get(key)` of any key. -/
def getKey (members : Members) : Json → Except PyError Json
  | .str key => .ok (get members key)
  | .arr _ | .obj _ => .error .typeError
  | _ => .ok .null

/-- `value is None`. -/
def isNone : Json → Bool
  | .null => true
  | _ => false

/-- What can be merged: a dictionary, or `None` for an empty one. -/
def asLayer : Json → Except PyError Members
  | .null => .ok []
  | .obj members => .ok members
  | _ => .error .attributeError

section

/-! `DictionaryOverlay` is not part of the program, and neither is Python's arithmetic:
what `int(a * b)` gives is a parameter, but for dictionaries, which have no product. -/

variable (overlay : Members → Members → Members)
  (intOfProduct : Json → Json → Except PyError Json) (llmInfos : Members)

/-- `self.overlayer.overlay(basis, other)`. -/
def overlayer (basis other : Json) : Except PyError Members := do
  return overlay (← asLayer basis) (← asLayer other)

/-! ## The factory -/

/-- `get_chat_class_args(chat_class_name, use_model_name)`, with so much room for
recursion. -/
def getChatClassArgs (useModelName : Json) : Nat → Json → Except PyError Json
  | 0, _ => .error .recursionError
  | room + 1, chatClassName =>
      match get llmInfos (str "classes") with
      | .obj chatClasses =>
          match getKey chatClasses chatClassName with
          | .error e => .error e
          | .ok .null =>
              match useModelName with
              | .null => .ok (.obj [])
              | _ => .error .valueError
          | .ok (.obj chatClass) =>
              let args := get chatClass (str "args")
              match get chatClass (str "extends") with
              | .null => .ok args
              | extends' =>
                  match getChatClassArgs useModelName room extends' with
                  | .error e => .error e
                  | .ok extendsArgs => (overlayer overlay args extendsArgs).map .obj
          | .ok _ => .error .attributeError
      | _ => .error .attributeError

/-- The outcome of `create_full_llm_config`: a configuration, or the set of the keys
that are required and missing. -/
inductive FullConfig where
  | config (members : Members)
  | missing (required : List PyStr)

/-- `str(value).lower() == "sly_data"`. -/
def isPlaceholder : Json → Bool
  | .str s => Text.lowerAscii s = str "sly_data"
  | _ => false

/-- `use_api_keys`. -/
def useApiKeys : Json → Json
  | .obj slyData => (Json.lookup slyData (str "llm_config")).getD (.obj [])
  | _ => .obj []

/-- One turn of the loop over the items of a configuration: the configuration, and the
keys that are missing. -/
def replaceOne (apiKeys : Json) (found : Members × List PyStr) (item : PyStr × Json) :
    Except PyError (Members × List PyStr) :=
  if isPlaceholder item.2 then
    match apiKeys with
    | .obj keys =>
        match get keys item.1 with
        | .null => .ok (found.1, found.2 ++ [item.1])
        | .str s => .ok (Dict.setItems found.1 item.1 (.str (strip s)), found.2)
        | newValue => .ok (Dict.setItems found.1 item.1 newValue, found.2)
    | _ => .error .attributeError
  else .ok found

/-- `replace_any_required_api_keys(config, sly_data)`. -/
def replaceAnyRequiredApiKeys (config : Members) (slyData : Json) : Except PyError FullConfig :=
  match config.foldlM (replaceOne (useApiKeys slyData)) (config, []) with
  | .error e => .error e
  | .ok (config, []) => .ok (.config config)
  | .ok (_, required) => .ok (.missing required)

/-- `self.llm_infos.get(name)`, which has to be there and to be a dictionary. -/
def getEntry (name : Json) : Except PyError Members := do
  match ← getKey llmInfos name with
  | .null => .error .valueError
  | .obj entry => return entry
  | _ => .error .attributeError

/-- The entry of the model that a configuration names, directly or through an alias, and
the name of that entry. -/
def resolveEntry (config : Members) : Except PyError (Members × Json) := do
  let useConfig ← overlayer overlay (get llmInfos (str "default_config")) (.obj config)
  let modelName := get useConfig (str "model_name")
  let llmEntry ← getEntry llmInfos modelName
  let useModelName := (Json.lookup llmEntry (str "use_model_name")).getD modelName
  if llmEntry.length ≤ 2 && !isNone useModelName then
    return (← getEntry llmInfos useModelName, useModelName)
  else return (llmEntry, useModelName)

/-- The `max_output_tokens` that `get_max_prompt_tokens` finds for a model. -/
def entryMaxTokens (modelName : Json) : Except PyError Json := do
  let llmEntry ← getEntry llmInfos modelName
  let useModelName := (Json.lookup llmEntry (str "use_model_name")).getD modelName
  if llmEntry.length ≤ 2 && !isNone useModelName then
    match ← getKey llmInfos useModelName with
    | .obj aliased => return get aliased (str "max_output_tokens")
    | _ => .error .attributeError
  else return get llmEntry (str "max_output_tokens")

/-- `int(entry_max_tokens * prompt_token_fraction)`, where both are given. -/
def useMaxTokens : Json → Json → Except PyError Json
  | .null, _ => .ok .null
  | _, .null => .ok .null
  | .obj _, _ => .error .typeError
  | _, .obj _ => .error .typeError
  | entryMaxTokens, promptTokenFraction => intOfProduct entryMaxTokens promptTokenFraction

/-- `get_max_prompt_tokens(config)`. -/
def getMaxPromptTokens (config : Members) : Except PyError Json := do
  let entryMax ← entryMaxTokens llmInfos (get config (str "model_name"))
  let useMax ← useMaxTokens intOfProduct entryMax (get config (str "prompt_token_fraction"))
  match (Json.lookup config (str "max_tokens")).getD useMax with
  | .null => return useMax
  | maxPromptTokens => return maxPromptTokens

/-- `create_full_llm_config(config, sly_data)`. -/
def createFullLlmConfig (room : Nat) (config : Members) (slyData : Json) :
    Except PyError FullConfig :=
  let classFromLlmConfig := get config (str "class")
  if classFromLlmConfig.truthy then
    match classFromLlmConfig with
    | .str _ => do
        let args ← getChatClassArgs overlay llmInfos .null room classFromLlmConfig
        let fullConfig ← overlayer overlay args (.obj config)
        replaceAnyRequiredApiKeys fullConfig slyData
    | _ => .error .valueError
  else do
    let (llmEntry, useModelName) ← resolveEntry overlay llmInfos config
    match get llmEntry (str "class") with
    | .null => .error .valueError
    | chatClassName => do
        let chatArgs ← getChatClassArgs overlay llmInfos useModelName room chatClassName
        let defaultConfig ← overlayer overlay chatArgs (get llmInfos (str "default_config"))
        let fullConfig ← overlayer overlay (.obj defaultConfig) (.obj config)
        let fullConfig := Dict.setItems fullConfig (str "class") chatClassName
        let fullConfig := Dict.setItems fullConfig (str "model_name")
          ((Json.lookup llmEntry (str "use_model_name")).getD useModelName)
        match ← replaceAnyRequiredApiKeys fullConfig slyData with
        | .missing required => return .missing required
        | .config fullConfig => do
            let maxTokens ← getMaxPromptTokens intOfProduct llmInfos fullConfig
            return .config (Dict.setItems fullConfig (str "max_tokens") maxTokens)

end

/-! ## Chains of classes -/

/-- The arguments of a class and of the classes it extends, up to one that extends none
or that is not in the table. Whether it is, is told last. -/
inductive ClassChain (chatClasses : Members) : PyStr → List Members → Bool → Prop where
  | missing {name : PyStr} (hclass : get chatClasses name = .null) :
      ClassChain chatClasses name [] false
  | last {name : PyStr} {chatClass args : Members} (hclass : get chatClasses name = .obj chatClass)
      (hargs : asLayer (get chatClass (str "args")) = .ok args)
      (hextends : get chatClass (str "extends") = .null) :
      ClassChain chatClasses name [args] true
  | link {name parent : PyStr} {chatClass args : Members} {chain : List Members} {complete : Bool}
      (hclass : get chatClasses name = .obj chatClass)
      (hargs : asLayer (get chatClass (str "args")) = .ok args)
      (hextends : get chatClass (str "extends") = .str parent)
      (hrest : ClassChain chatClasses parent chain complete) :
      ClassChain chatClasses name (args :: chain) complete

/-- No value is a placeholder. -/
def Plain (members : Members) : Prop := ∀ entry ∈ members, isPlaceholder entry.2 = false

theorem Plain.overlay {overlay : Members → Members → Members} (hoverlay : DeepMerge overlay)
    {basis other : Members} (hbasis : Plain basis) (hother : Plain other) :
    Plain (overlay basis other) := by
  intro entry hmem
  rcases hoverlay.entries basis other entry hmem with h | h | ⟨members, h⟩
  · exact hbasis entry h
  · exact hother entry h
  · rw [h]
    rfl

theorem Plain.setItems {members : Members} (h : Plain members) (key : PyStr) {v : Json}
    (hv : isPlaceholder v = false) : Plain (Dict.setItems members key v) := by
  intro entry hmem
  unfold Dict.setItems at hmem
  split at hmem
  · obtain ⟨old, hold, rfl⟩ := List.mem_map.mp hmem
    split
    · exact hv
    · exact h old hold
  · rcases List.mem_append.mp hmem with hold | hnew
    · exact h entry hold
    · rw [List.mem_singleton.mp hnew]
      exact hv

theorem replaceAnyRequiredApiKeys_of_plain {config : Members} (h : Plain config)
    (slyData : Json) : replaceAnyRequiredApiKeys config slyData = .ok (.config config) := by
  have hfold : ∀ (items : Members), Plain items → ∀ found,
      items.foldlM (replaceOne (useApiKeys slyData)) found = .ok found := by
    intro items hitems
    induction items with
    | nil => intro found; rfl
    | cons item rest ih =>
        intro found
        have hstep : replaceOne (useApiKeys slyData) found item = .ok found := by
          unfold replaceOne
          rw [hitems item List.mem_cons_self]
          rfl
        rw [List.foldlM_cons, hstep]
        exact ih (fun entry hentry => hitems entry (List.mem_cons_of_mem _ hentry)) found
  unfold replaceAnyRequiredApiKeys
  rw [hfold config h]

section

variable {overlay : Members → Members → Members} {intOfProduct : Json → Json → Except PyError Json}
  {llmInfos chatClasses : Members} {useModelName : Json}

/-- The arguments of a class that is not in the table. -/
theorem getChatClassArgs_missing {room : Nat} {name : PyStr}
    (hclasses : get llmInfos (str "classes") = .obj chatClasses)
    (hclass : get chatClasses name = .null) :
    getChatClassArgs overlay llmInfos useModelName (room + 1) (.str name) =
      if isNone useModelName then .ok (.obj []) else .error .valueError := by
  unfold getChatClassArgs
  rw [hclasses]
  dsimp only [getKey]
  rw [hclass]
  cases useModelName <;> rfl

/-- The arguments of a class of the table. -/
theorem getChatClassArgs_found {room : Nat} {name : PyStr} {chatClass : Members}
    (hclasses : get llmInfos (str "classes") = .obj chatClasses)
    (hclass : get chatClasses name = .obj chatClass) :
    (get chatClass (str "extends") = .null →
        getChatClassArgs overlay llmInfos useModelName (room + 1) (.str name) =
          .ok (get chatClass (str "args"))) ∧
      ∀ parent, get chatClass (str "extends") = .str parent →
        getChatClassArgs overlay llmInfos useModelName (room + 1) (.str name) =
          (getChatClassArgs overlay llmInfos useModelName room (.str parent)).bind
            fun extendsArgs =>
              (overlayer overlay (get chatClass (str "args")) extendsArgs).map .obj := by
  constructor
  · intro hextends
    unfold getChatClassArgs
    rw [hclasses]
    dsimp only [getKey]
    rw [hclass]
    dsimp only
    rw [hextends]
  · intro parent hextends
    conv_lhs => unfold getChatClassArgs
    rw [hclasses]
    dsimp only [getKey]
    rw [hclass]
    dsimp only
    rw [hextends]
    dsimp only
    cases getChatClassArgs overlay llmInfos useModelName room (.str parent) <;> rfl

theorem overlayer_eq {basis other : Json} {below above : Members}
    (hbasis : asLayer basis = .ok below) (hother : asLayer other = .ok above) :
    overlayer overlay basis other = .ok (overlay below above) := by
  unfold overlayer
  rw [hbasis, hother]
  rfl

/-- The arguments of a class are merged up the chain of classes it extends, if all of
them are in the table. The induction is on the chain. -/
theorem getChatClassArgs_chain (useModelName : Json) (hoverlay : DeepMerge overlay)
    (hclasses : get llmInfos (str "classes") = .obj chatClasses) {name : PyStr}
    {chain : List Members} {complete : Bool}
    (hchain : ClassChain chatClasses name chain complete) {room : Nat}
    (hroom : chain.length < room) :
    (complete = true ∨ isNone useModelName = true →
        ∃ args merged, getChatClassArgs overlay llmInfos useModelName room (.str name) = .ok args ∧
          asLayer args = .ok merged ∧ Climbs merged chain ∧
          ((∀ layer ∈ chain, Plain layer) → Plain merged)) ∧
      (¬ (complete = true ∨ isNone useModelName = true) →
        getChatClassArgs overlay llmInfos useModelName room (.str name) = .error .valueError) := by
  -- the induction is on the chain of classes, for any room that it fits in
  induction hchain generalizing room with
  | missing hclass =>
      obtain ⟨room, rfl⟩ := Nat.exists_eq_succ_of_ne_zero (Nat.ne_zero_of_lt hroom)
      rw [getChatClassArgs_missing hclasses hclass]
      constructor
      · rintro (h | h)
        · cases h
        · rw [if_pos h]
          exact ⟨_, [], rfl, rfl, climbs_nil, fun _ entry hmem => absurd hmem List.not_mem_nil⟩
      · intro h
        rw [if_neg fun hnone => h (.inr hnone)]
  | last hclass hargs hextends =>
      rename_i name chatClass args
      obtain ⟨room, rfl⟩ := Nat.exists_eq_succ_of_ne_zero (Nat.ne_zero_of_lt hroom)
      rw [(getChatClassArgs_found hclasses hclass).1 hextends]
      refine ⟨fun _ => ⟨_, args, rfl, hargs, climbs_singleton args, ?_⟩, fun h => ?_⟩
      · intro hplain
        exact hplain args List.mem_cons_self
      · exact absurd (.inl rfl) h
  | link hclass hargs hextends hrest ih =>
      rename_i name parent chatClass args chain complete
      rw [List.length_cons] at hroom
      obtain ⟨room, rfl⟩ := Nat.exists_eq_succ_of_ne_zero (Nat.ne_zero_of_lt hroom)
      rw [(getChatClassArgs_found hclasses hclass).2 parent hextends]
      obtain ⟨hreturns, hraises⟩ := ih (Nat.lt_of_succ_lt_succ hroom)
      constructor
      · intro h
        obtain ⟨extendsArgs, merged, hparent, hmerged, hclimbs, hplain⟩ := hreturns h
        rw [hparent]
        refine ⟨.obj (overlay args merged), overlay args merged, ?_, rfl,
          hclimbs.overlay hoverlay args, fun hall => ?_⟩
        · show (overlayer overlay _ extendsArgs).map Json.obj = _
          rw [overlayer_eq hargs hmerged]
          rfl
        · refine Plain.overlay hoverlay (hall args List.mem_cons_self)
            (hplain fun layer hlayer => ?_)
          exact hall layer (List.mem_cons_of_mem _ hlayer)
      · intro h
        rw [hraises h]
        rfl

end

/-! ## What a key is given -/

/-- An `llm_config` without a class of its own, whose model declares one, with the chain
of classes that class extends. No value is a placeholder for an API key. -/
structure ModelChoice (overlay : Members → Members → Members) (llmInfos config : Members) where
  chatClasses : Members
  defaultConfig : Members
  llmEntry : Members
  useModelName : Json
  className : PyStr
  chain : List Members
  complete : Bool
  withoutClass : (get config (str "class")).truthy = false
  classes_eq : get llmInfos (str "classes") = .obj chatClasses
  default_eq : asLayer (get llmInfos (str "default_config")) = .ok defaultConfig
  resolves : resolveEntry overlay llmInfos config = .ok (llmEntry, useModelName)
  declares : get llmEntry (str "class") = .str className
  declared : get chatClasses className ≠ .null
  classChain : ClassChain chatClasses className chain complete
  plainConfig : Plain config
  plainDefault : Plain defaultConfig
  plainChain : ∀ layer ∈ chain, Plain layer
  plainClass : isPlaceholder (.str className) = false
  plainModel : isPlaceholder
    ((Json.lookup llmEntry (str "use_model_name")).getD useModelName) = false

/-- A path that starts with a key other than `class`, `model_name` and `max_tokens`. -/
def governed : List PyStr → Bool
  | [] => false
  | key :: _ => key ≠ str "class" && key ≠ str "model_name" && key ≠ str "max_tokens"

namespace ModelChoice

variable {overlay : Members → Members → Members} {llmInfos config : Members}
  (choice : ModelChoice overlay llmInfos config)

/-- What the model is called in the end. -/
def modelName : Json :=
  (Json.lookup choice.llmEntry (str "use_model_name")).getD choice.useModelName

/-- The sources of values, the most specific first: the user's configuration, the
default one, and the arguments of the class and of the classes it extends. -/
def sources : List Members := config :: choice.defaultConfig :: choice.chain

/-- `create_full_llm_config` gives every key the value of the most specific source that
says something about it. -/
def FollowsInheritance (intOfProduct : Json → Json → Except PyError Json) (room : Nat)
    (slyData : Json) : Prop :=
  ∃ fullConfig,
    createFullLlmConfig overlay intOfProduct llmInfos room config slyData =
      .ok (.config fullConfig) ∧
    ∀ path, governed path = true →
      (Json.obj fullConfig).valueAt path = mostSpecific choice.sources path

/-- Every class that is extended is in the table. (The model's name is `None` only if its
entry says so.) -/
def ClassesFound : Prop := choice.complete = true ∨ isNone choice.useModelName = true

/-- The number of tokens can be computed: the model has an entry, and its number of
tokens can be multiplied by the fraction that the sources ask for. -/
def TokensComputed (intOfProduct : Json → Json → Except PyError Json) : Prop :=
  ∃ entryMax useMax, entryMaxTokens llmInfos choice.modelName = .ok entryMax ∧
    useMaxTokens intOfProduct entryMax
      ((mostSpecific choice.sources [str "prompt_token_fraction"]).getD .null) = .ok useMax

/-- About a path, the most specific class of the chain that says something and the class
nearest the end of the chain that has a value, below dictionaries of such classes, say
the same. -/
def EndsAgree (path : List PyStr) : Prop :=
  ∀ x, mostSpecific choice.chain path = some x ↔
    DictsAbove choice.chain path ∧ nearestEnd choice.chain path = some x

end ModelChoice

section

variable {overlay : Members → Members → Members} {intOfProduct : Json → Json → Except PyError Json}
  {llmInfos config : Members} (choice : ModelChoice overlay llmInfos config)

/-- The merged arguments and configurations, with the names of class and model. -/
def named (merged : Members) : Members :=
  Dict.setItems
    (Dict.setItems (overlay (overlay merged choice.defaultConfig) config) (str "class")
      (.str choice.className))
    (str "model_name") choice.modelName

/-- What becomes of the arguments of the class. -/
theorem createFullLlmConfig_eq (hoverlay : DeepMerge overlay)
    (intOfProduct : Json → Json → Except PyError Json) (slyData : Json) {room : Nat} {args : Json}
    {merged : Members}
    (hargs : getChatClassArgs overlay llmInfos choice.useModelName room (.str choice.className) =
      .ok args)
    (hmerged : asLayer args = .ok merged) (hplain : Plain merged) :
    createFullLlmConfig overlay intOfProduct llmInfos room config slyData =
      (getMaxPromptTokens intOfProduct llmInfos (named choice merged)).map fun maxTokens =>
        .config (Dict.setItems (named choice merged) (str "max_tokens") maxTokens) := by
  have hnamed : Plain (named choice merged) := by
    refine Plain.setItems (Plain.setItems ?_ _ choice.plainClass) _ choice.plainModel
    exact ((hplain.overlay hoverlay choice.plainDefault).overlay hoverlay choice.plainConfig)
  unfold createFullLlmConfig
  dsimp only
  rw [if_neg (by rw [choice.withoutClass]; decide), choice.resolves]
  dsimp only [bind, Except.bind]
  rw [choice.declares]
  dsimp only
  rw [hargs]
  dsimp only
  rw [overlayer_eq hmerged choice.default_eq]
  dsimp only
  have hlayers : overlayer overlay (.obj (overlay merged choice.defaultConfig)) (.obj config) =
      .ok (overlay (overlay merged choice.defaultConfig) config) := overlayer_eq rfl rfl
  rw [hlayers]
  dsimp only
  have hreplaced := replaceAnyRequiredApiKeys_of_plain hnamed slyData
  unfold named ModelChoice.modelName at hreplaced
  rw [hreplaced]
  dsimp only
  unfold named ModelChoice.modelName
  cases getMaxPromptTokens intOfProduct llmInfos _ <;> rfl

/-- An argument that cannot be had is an error. -/
theorem createFullLlmConfig_error {room : Nat} {slyData : Json} {e : PyError}
    (hargs : getChatClassArgs overlay llmInfos choice.useModelName room (.str choice.className) =
      .error e) :
    createFullLlmConfig overlay intOfProduct llmInfos room config slyData = .error e := by
  unfold createFullLlmConfig
  dsimp only
  rw [if_neg (by rw [choice.withoutClass]; decide), choice.resolves]
  dsimp only [bind, Except.bind]
  rw [choice.declares]
  dsimp only
  rw [hargs]

/-- Setting another key changes nothing that is found. -/
theorem valueAt_setItems (members : Members) {key first : PyStr} (v : Json) (rest : List PyStr)
    (hkey : first ≠ key) :
    (Json.obj (Dict.setItems members key v)).valueAt (first :: rest) =
      (Json.obj members).valueAt (first :: rest) := by
  unfold Json.valueAt
  rw [atPath_obj, atPath_obj, lookup_setItems, if_neg hkey]

/-- What is found at a governed path: what the configurations say, and where they say
nothing, what is in the arguments. -/
theorem valueAt_named (hoverlay : DeepMerge overlay) (merged : Members) (maxTokens : Json)
    {path : List PyStr} (hpath : governed path = true) :
    (Json.obj (Dict.setItems (named choice merged) (str "max_tokens") maxTokens)).valueAt path =
      ((Json.obj config).speaks path).getD
        (((Json.obj choice.defaultConfig).speaks path).getD
          ((Json.obj merged).valueAt path)) := by
  cases path with
  | nil => cases hpath
  | cons first rest =>
      obtain ⟨⟨hclass, hmodel⟩, htokens⟩ : (first ≠ str "class" ∧ first ≠ str "model_name") ∧
          first ≠ str "max_tokens" := by
        simpa [governed] using hpath
      unfold named
      rw [valueAt_setItems _ _ _ htokens, valueAt_setItems _ _ _ hmodel,
        valueAt_setItems _ _ _ hclass, valueAt_overlay hoverlay _ _ (by simp)]
      cases (Json.obj config).speaks (first :: rest) with
      | some said => rfl
      | none =>
          rw [Option.none_or, ← valueAt_eq, valueAt_overlay hoverlay _ _ (by simp)]
          cases (Json.obj choice.defaultConfig).speaks (first :: rest) with
          | some said => rfl
          | none =>
              rw [Option.none_or, ← valueAt_eq]
              rfl

theorem useMaxTokens_outline (entryMax fraction : Json) :
    useMaxTokens intOfProduct entryMax fraction.outline =
      useMaxTokens intOfProduct entryMax fraction := by
  cases fraction <;> cases entryMax <;> rfl

/-- The number of tokens is computed if the entry and the product are there. -/
theorem getMaxPromptTokens_returns_iff (intOfProduct : Json → Json → Except PyError Json)
    (llmInfos members : Members) :
    (∃ maxTokens, getMaxPromptTokens intOfProduct llmInfos members = .ok maxTokens) ↔
      ∃ entryMax useMax, entryMaxTokens llmInfos (get members (str "model_name")) = .ok entryMax ∧
        useMaxTokens intOfProduct entryMax
          (((Json.obj members).valueAt [str "prompt_token_fraction"]).getD .null) =
            .ok useMax := by
  have hfraction : ∀ entryMax, useMaxTokens intOfProduct entryMax
      (((Json.obj members).valueAt [str "prompt_token_fraction"]).getD .null) =
        useMaxTokens intOfProduct entryMax (get members (str "prompt_token_fraction")) := by
    intro entryMax
    unfold Json.valueAt get
    rw [atPath_obj]
    cases Json.lookup members (str "prompt_token_fraction") with
    | none => rfl
    | some fraction =>
        rw [← useMaxTokens_outline entryMax ((some fraction).getD _)]
        cases fraction <;> rfl
  simp only [hfraction]
  unfold getMaxPromptTokens
  cases entryMaxTokens llmInfos (get members (str "model_name")) with
  | error e => simp [bind, Except.bind]
  | ok entryMax =>
      cases hproduct : useMaxTokens intOfProduct entryMax
          (get members (str "prompt_token_fraction")) with
      | error e => simp [bind, Except.bind, hproduct]
      | ok useMax =>
          refine iff_of_true ?_ ⟨entryMax, useMax, rfl, hproduct⟩
          dsimp only [bind, Except.bind]
          rw [hproduct]
          dsimp only
          split
          · exact ⟨_, rfl⟩
          · exact ⟨_, rfl⟩

theorem get_modelName_named (merged : Members) :
    get (named choice merged) (str "model_name") = choice.modelName := by
  unfold get named
  rw [lookup_setItems, if_pos rfl]
  rfl

/-- Every key has the value of the most specific source that says something about it if
and only if all classes are found, the number of tokens can be computed, and wherever
the two configurations say nothing, the two ends of the chain of classes agree. -/
theorem followsInheritance_iff (hoverlay : DeepMerge overlay) {room : Nat}
    (hroom : choice.chain.length < room) (slyData : Json) :
    choice.FollowsInheritance intOfProduct room slyData ↔
      choice.ClassesFound ∧ choice.TokensComputed intOfProduct ∧
        ∀ path, governed path = true → (Json.obj config).speaks path = none →
          (Json.obj choice.defaultConfig).speaks path = none → choice.EndsAgree path := by
  obtain ⟨hreturns, hraises⟩ := getChatClassArgs_chain choice.useModelName hoverlay
    choice.classes_eq choice.classChain hroom
  by_cases hfound : choice.ClassesFound
  · obtain ⟨args, merged, hargs, hmerged, hclimbs, hplain⟩ := hreturns hfound
    have heq := createFullLlmConfig_eq choice hoverlay intOfProduct slyData hargs hmerged
      (hplain choice.plainChain)
    -- what is found agrees with the sources where the ends of the chain do
    have hagrees : ∀ maxTokens path, governed path = true →
        ((Json.obj (Dict.setItems (named choice merged) (str "max_tokens") maxTokens)).valueAt
            path = mostSpecific choice.sources path ↔
          ((Json.obj config).speaks path = none →
            (Json.obj choice.defaultConfig).speaks path = none → choice.EndsAgree path)) := by
      intro maxTokens path hpath
      have hne : path ≠ [] := by
        rintro rfl
        cases hpath
      rw [valueAt_named choice hoverlay merged maxTokens hpath, ModelChoice.sources,
        mostSpecific_cons, mostSpecific_cons]
      cases (Json.obj config).speaks path with
      | some said => simp
      | none =>
          cases (Json.obj choice.defaultConfig).speaks path with
          | some said => simp
          | none =>
              simp only [Option.getD_none, true_implies]
              unfold ModelChoice.EndsAgree
              constructor
              · intro hsame x
                rw [← hsame, hclimbs path hne x]
              · intro hends
                apply Option.ext
                intro x
                rw [hclimbs path hne x, hends x]
    have hfraction : governed [str "prompt_token_fraction"] = true := by decide
    have htokens : ∀ maxTokens,
        (Json.obj (Dict.setItems (named choice merged) (str "max_tokens") maxTokens)).valueAt
          [str "prompt_token_fraction"] =
        (Json.obj (named choice merged)).valueAt [str "prompt_token_fraction"] := fun maxTokens =>
      valueAt_setItems _ _ _ (by decide)
    constructor
    · rintro ⟨fullConfig, hfull, hvalues⟩
      rw [heq] at hfull
      obtain ⟨maxTokens, hmax, hconfig⟩ := exists_of_map_eq_ok hfull
      obtain rfl := FullConfig.config.inj hconfig
      obtain ⟨entryMax, useMax, hentry, hproduct⟩ :=
        (getMaxPromptTokens_returns_iff intOfProduct llmInfos _).mp ⟨maxTokens, hmax⟩
      rw [get_modelName_named] at hentry
      rw [← htokens maxTokens, hvalues _ hfraction] at hproduct
      refine ⟨hfound, ⟨entryMax, useMax, hentry, hproduct⟩, fun path hpath => ?_⟩
      exact (hagrees maxTokens path hpath).mp (hvalues path hpath)
    · rintro ⟨-, ⟨entryMax, useMax, hentry, hproduct⟩, hends⟩
      have hvalues : ∀ maxTokens path, governed path = true →
          (Json.obj (Dict.setItems (named choice merged) (str "max_tokens") maxTokens)).valueAt
            path = mostSpecific choice.sources path := fun maxTokens path hpath =>
        (hagrees maxTokens path hpath).mpr (hends path hpath)
      rw [← hvalues .null _ hfraction, htokens .null] at hproduct
      rw [← get_modelName_named choice merged] at hentry
      obtain ⟨maxTokens, hmax⟩ := (getMaxPromptTokens_returns_iff intOfProduct llmInfos
        (named choice merged)).mpr ⟨entryMax, useMax, hentry, hproduct⟩
      refine ⟨_, ?_, hvalues maxTokens⟩
      rw [heq, hmax]
      rfl
  · refine iff_of_false ?_ fun h => hfound h.1
    rintro ⟨fullConfig, hfull, -⟩
    rw [createFullLlmConfig_error choice (hraises hfound)] at hfull
    cases hfull

end

/-! ## Two tables of classes -/

/-- The product of integers. -/
def intProduct : Json → Json → Except PyError Json
  | .int a, .int b => .ok (.int (a * b))
  | _, _ => .error .typeError

/-- A table of two classes, of which the first extends the second, and a model of the
first. -/
def twoClasses (args inherited : Members) : Members :=
  [(str "classes", .obj
      [(str "mine", .obj [(str "extends", .str (str "base")), (str "args", .obj args)]),
        (str "base", .obj [(str "args", .obj inherited)])]),
    (str "default_config", .obj
      [(str "model_name", .str (str "small")), (str "prompt_token_fraction", .int 1)]),
    (str "small", .obj
      [(str "class", .str (str "mine")), (str "max_output_tokens", .int 4096),
        (str "model_info_url", .null)])]

/-- The choice of the default model, without a configuration of the user's. -/
def twoClassesChoice (args inherited : Members)
    (hplain : ∀ layer ∈ [args, inherited], Plain layer) :
    ModelChoice deepOverlay (twoClasses args inherited) [] where
  chatClasses := _
  defaultConfig := _
  llmEntry := _
  useModelName := _
  className := str "mine"
  chain := [args, inherited]
  complete := true
  withoutClass := rfl
  classes_eq := rfl
  default_eq := rfl
  resolves := rfl
  declares := rfl
  declared := by simp [get, Json.lookup]
  classChain := .link rfl rfl rfl (.last rfl rfl rfl)
  plainConfig := fun _ hmem => absurd hmem List.not_mem_nil
  plainDefault := by
    intro entry hmem
    rcases List.mem_cons.mp hmem with rfl | hmem
    · rfl
    · rw [List.mem_singleton.mp hmem]
      rfl
  plainChain := hplain
  plainClass := by decide
  plainModel := by decide

theorem plain_ints {args : Members} (h : ∀ entry ∈ args, ∃ n, entry.2 = .int n) : Plain args := by
  intro entry hmem
  obtain ⟨n, hn⟩ := h entry hmem
  rw [hn]
  rfl

/-- Where only one of two classes has a key, both ends of the chain are that class. -/
theorem ends_agree_of_sole {first last : Members} {key : PyStr} (rest : List PyStr)
    (h : Json.lookup first key = none ∨ Json.lookup last key = none) (x : Json) :
    mostSpecific [first, last] (key :: rest) = some x ↔
      DictsAbove [first, last] (key :: rest) ∧
        nearestEnd [first, last] (key :: rest) = some x := by
  have hsilent : ∀ {layer : Members} (path : List PyStr), Json.lookup layer key = none →
      (Json.obj layer).speaks (key :: path) = none := by
    intro layer path hnone
    rw [speaks_obj, hnone]
    rfl
  obtain ⟨layer, hmost, hend⟩ : ∃ layer : Members,
      mostSpecific [first, last] (key :: rest) = (Json.obj layer).valueAt (key :: rest) ∧
        ∀ path, nearestEnd [first, last] (key :: path) =
          (Json.obj layer).valueAt (key :: path) := by
    rcases h with hfirst | hlast
    · refine ⟨last, ?_, fun path => ?_⟩
      · rw [mostSpecific_cons, mostSpecific_cons, hsilent rest hfirst, valueAt_eq]
        rfl
      · have hnone : (Json.obj first).valueAt (key :: path) = none := by
          rw [valueAt_eq, hsilent path hfirst]
          rfl
        simp [nearestEnd, hnone]
    · refine ⟨first, ?_, fun path => ?_⟩
      · rw [mostSpecific_cons, mostSpecific_cons, hsilent rest hlast, valueAt_eq]
        rfl
      · have hnone : (Json.obj last).valueAt (key :: path) = none := by
          rw [valueAt_eq, hsilent path hlast]
          rfl
        simp [nearestEnd, hnone]
  rw [hmost, hend]
  refine ⟨fun hx => ⟨?_, hx⟩, fun hx => hx.2⟩
  intro above below hsplit habove hbelow
  obtain ⟨first', tail, rfl⟩ := List.exists_cons_of_ne_nil habove
  obtain ⟨rfl, -⟩ := List.cons.inj hsplit
  rw [hend]
  exact valueAt_above (hsplit ▸ hx) hbelow

/-- The class adds a key to what it inherits. -/
def addsKey : ModelChoice deepOverlay
    (twoClasses [(str "top_k", .int 5)] [(str "temperature", .int 1)]) [] :=
  twoClassesChoice [(str "top_k", .int 5)] [(str "temperature", .int 1)] (by
    intro layer hlayer
    refine plain_ints fun entry hentry => ?_
    simp only [List.mem_cons, List.not_mem_nil, or_false] at hlayer
    rcases hlayer with rfl | rfl
    · exact ⟨5, by rw [List.mem_singleton.mp hentry]⟩
    · exact ⟨1, by rw [List.mem_singleton.mp hentry]⟩)

theorem followsInheritance_addsKey : addsKey.FollowsInheritance intProduct 3 .null := by
  refine (followsInheritance_iff addsKey deepMerge_deepOverlay (by decide) .null).mpr
    ⟨.inl rfl, ⟨.int 4096, .int 4096, rfl, rfl⟩, fun path hpath _ _ => ?_⟩
  cases path with
  | nil => cases hpath
  | cons key rest =>
      refine ends_agree_of_sole rest ?_
      by_cases hkey : str "top_k" = key
      · right
        subst hkey
        rfl
      · left
        rw [lookup_cons, if_neg hkey]
        rfl

/-- The class is to override what it inherits. -/
def overridesKey : ModelChoice deepOverlay
    (twoClasses [(str "temperature", .int 0)] [(str "temperature", .int 1)]) [] :=
  twoClassesChoice [(str "temperature", .int 0)] [(str "temperature", .int 1)] (by
    intro layer hlayer
    refine plain_ints fun entry hentry => ?_
    simp only [List.mem_cons, List.not_mem_nil, or_false] at hlayer
    rcases hlayer with rfl | rfl
    · exact ⟨0, by rw [List.mem_singleton.mp hentry]⟩
    · exact ⟨1, by rw [List.mem_singleton.mp hentry]⟩)

theorem overridesKey_inherits : ¬ overridesKey.FollowsInheritance intProduct 3 .null := by
  rintro ⟨fullConfig, hfull, hvalues⟩
  have hconfig : createFullLlmConfig deepOverlay intProduct
      (twoClasses [(str "temperature", .int 0)] [(str "temperature", .int 1)]) 3 [] .null =
        .ok (.config [(str "temperature", .int 1), (str "model_name", .str (str "small")),
          (str "prompt_token_fraction", .int 1), (str "class", .str (str "mine")),
          (str "max_tokens", .int 4096)]) := rfl
  rw [hconfig] at hfull
  obtain rfl := FullConfig.config.inj (Except.ok.inj hfull)
  have hvalue := hvalues [str "temperature"] (by decide)
  have hone : some (Json.int 1) = some (Json.int 0) := hvalue
  cases hone

end NoraFleet.Llms
