import Mathlib
import NoraFleet.Base.Dumps
import NoraFleet.Llms.FullConfig

/-!
# Fallbacks of a model

`DefaultLlmFactory.create_llm_with_fallbacks` builds a model for every entry of a list of
fallbacks, and makes a chain of those that can be built. A list within the list is a group
of peers, which are shuffled. The keys that an entry lacks come from the `sly_data` of the
client.

* `createFullLlmConfig_readsKeys` — where `sly_data` is read;
* `ArrangedAll.perm` — an order in which models can come has each of them once;
* `keepsUsable_iff` — when the chain has the models of all usable entries, in order, or
  the errors of all entries are returned.
-/

namespace NoraFleet.Llms

open Base Base.Json

/-! ## Where keys are read -/

section

variable (overlay : Members → Members → Members)
  (intOfProduct : Json → Json → Except PyError Json) (llmInfos : Members)

/-- The configuration that `create_full_llm_config` makes before it looks for keys. -/
def completeConfig (room : Nat) (config : Members) : Except PyError Members :=
  let classFromLlmConfig := get config (str "class")
  if classFromLlmConfig.truthy then
    match classFromLlmConfig with
    | .str _ => do
        let args ← getChatClassArgs overlay llmInfos .null room classFromLlmConfig
        overlayer overlay args (.obj config)
    | _ => .error .valueError
  else do
    let (llmEntry, useModelName) ← resolveEntry overlay llmInfos config
    match get llmEntry (str "class") with
    | .null => .error .valueError
    | chatClassName => do
        let chatArgs ← getChatClassArgs overlay llmInfos useModelName room chatClassName
        let defaultConfig ← overlayer overlay chatArgs (get llmInfos (str "default_config"))
        let fullConfig ← overlayer overlay (.obj defaultConfig) (.obj config)
        let fullConfig := Dict.setItems fullConfig (str "class") chatClassName
        return Dict.setItems fullConfig (str "model_name")
          ((Json.lookup llmEntry (str "use_model_name")).getD useModelName)

/-- What it does with one that has its keys. -/
def withMaxTokens (config fullConfig : Members) : Except PyError FullConfig :=
  if (get config (str "class")).truthy then .ok (.config fullConfig)
  else do
    let maxTokens ← getMaxPromptTokens intOfProduct llmInfos fullConfig
    return .config (Dict.setItems fullConfig (str "max_tokens") maxTokens)

/-- A step that keys can be missing for. -/
def FullConfig.andThen (next : Members → Except PyError FullConfig) :
    FullConfig → Except PyError FullConfig
  | .missing required => .ok (.missing required)
  | .config fullConfig => next fullConfig

/-- The keys of the client are read between two steps that do not depend on them. -/
theorem createFullLlmConfig_readsKeys (room : Nat) (config : Members) (slyData : Json) :
    createFullLlmConfig overlay intOfProduct llmInfos room config slyData =
      (completeConfig overlay llmInfos room config).bind fun fullConfig =>
        (replaceAnyRequiredApiKeys fullConfig slyData).bind
          (FullConfig.andThen (withMaxTokens intOfProduct llmInfos config)) := by
  unfold createFullLlmConfig completeConfig withMaxTokens
  dsimp only [bind, Except.bind]
  by_cases hclass : (get config (str "class")).truthy = true
  · simp only [hclass, if_true]
    cases get config (str "class") with
    | str name =>
        dsimp only
        cases getChatClassArgs overlay llmInfos .null room (.str name) with
        | error e => rfl
        | ok args =>
            dsimp only
            cases overlayer overlay args (.obj config) with
            | error e => rfl
            | ok fullConfig =>
                dsimp only
                cases replaceAnyRequiredApiKeys fullConfig slyData with
                | error e => rfl
                | ok replaced => cases replaced <;> rfl
    | _ => rfl
  · simp only [hclass, Bool.false_eq_true, if_false]
    cases resolveEntry overlay llmInfos config with
    | error e => rfl
    | ok entry =>
        obtain ⟨llmEntry, useModelName⟩ := entry
        dsimp only
        cases get llmEntry (str "class") with
        | null => rfl
        | _ =>
            dsimp only
            generalize getChatClassArgs overlay llmInfos useModelName room _ = chatArgs
            cases chatArgs with
            | error e => rfl
            | ok chatArgs =>
                dsimp only
                cases overlayer overlay chatArgs (get llmInfos (str "default_config")) with
                | error e => rfl
                | ok defaultConfig =>
                    dsimp only
                    cases overlayer overlay (.obj defaultConfig) (.obj config) with
                    | error e => rfl
                    | ok fullConfig =>
                        dsimp only [pure, Except.pure]
                        generalize replaceAnyRequiredApiKeys _ slyData = replaced
                        cases replaced with
                        | error e => rfl
                        | ok replaced => cases replaced <;> rfl

end

/-! ## Errors about keys -/

/-- One error of a validation. -/
structure ErrorDetail where
  loc : List PyStr
  msg : PyStr
  errType : PyStr

/-- An exception: its text, and its errors if it is a `ValidationError`. -/
structure PyException where
  text : PyStr
  errors : Option (List ErrorDetail)

/-- `API_KEY_EXCEPTIONS`. -/
def apiKeyExceptions : List (String × List String) :=
  [("OPENAI_API_KEY", ["OPENAI_API_KEY", "Incorrect API key provided"]),
    ("ANTHROPIC_API_KEY",
      ["ANTHROPIC_API_KEY", "anthropic_api_key", "invalid x-api-key", "credit balance"]),
    ("GOOGLE_API_KEY",
      ["Application Default Credentials", "default credentials",
        "Gemini: 400 API key not valid"]),
    ("OPENROUTER_API_KEY",
      ["OPENROUTER_API_KEY", "openrouter_api_key", "Missing Authentication header",
        "No auth credentials found", "Insufficient credits", "openrouter.ai/settings/credits"]),
    ("AZURE_OPENAI_API_KEY", ["invalid subscription key", "wrong API endpoint"]),
    ("AZURE_OPENAI_ENDPOINT", ["base_url", "azure_endpoint", "AZURE_OPENAI_ENDPOINT"]),
    ("OPENAI_API_VERSION", ["api_version", "OPENAI_API_VERSION"]),
    ("AZURE_OPENAI_DEPLOYMENT_NAME", ["API deployment for this resource does not exist"])]

namespace ApiKeyErrorCheck

/-- The keys that the text of an exception is about. -/
def matchedKeys (exceptionMessage : PyStr) : List String :=
  (apiKeyExceptions.filter fun entry =>
    entry.2.any fun findString => decide (str findString <:+: exceptionMessage)).map Prod.fst

/-- Whether `check_for_api_key_exception(exception)` gives a message. What the message is
makes no difference to its callers here. -/
def isApiKeyException (exception : PyException) : Bool :=
  !(matchedKeys exception.text).isEmpty || exception.errors.isSome

/-- `_format_redacted_pydantic_error`. -/
def formatRedacted (errors : List ErrorDetail) : PyStr :=
  digitsText (digitsOf errors.length) ++ str " validation error(s): " ++
    (str ";\n").intercalate (errors.map fun err =>
      [46].intercalate err.loc ++ str ": " ++ err.msg ++ str " [type=" ++ err.errType ++
        str ", input=<redacted>]")

/-- `get_safe_log_message(exception)`. -/
def getSafeLogMessage (exception : PyException) : PyStr :=
  match exception.errors with
  | some errors => formatRedacted errors
  | none => exception.text

end ApiKeyErrorCheck

/-- A `ValueError`, with the exception it was raised from, if any. -/
structure ValueError where
  exception : PyException
  cause : Option PyException

/-- What is reported apart. -/
inductive ErrorKind where
  | apiKeyErrors
  | constructionErrors
  | requiredSlyDataErrors
  deriving DecidableEq

/-- How a `ValueError` is reported. -/
def ValueError.report (error : ValueError) : ErrorKind × PyStr :=
  if error.cause.any ApiKeyErrorCheck.isApiKeyException then
    (.apiKeyErrors, ApiKeyErrorCheck.getSafeLogMessage error.exception)
  else (.constructionErrors, error.exception.text)

/-! ## Models -/

/-- A model, or one with models that step in for it. -/
inductive Runnable (M : Type) where
  | model (model : M)
  | withFallbacks (runnable : Runnable M) (fallbacks : List (Runnable M))

variable {M : Type}

mutual

/-- All models, in the order in which they are tried. -/
def Runnable.models : Runnable M → List M
  | .model model => [model]
  | .withFallbacks runnable fallbacks => runnable.models ++ modelsOf fallbacks

/-- All models of several chains. -/
def modelsOf : List (Runnable M) → List M
  | [] => []
  | runnable :: runnables => runnable.models ++ modelsOf runnables

end

/-- `LangChainLlmResources`: a model, and what is closed with it. -/
inductive LangChainLlmResources (M : Type) where
  | mk (model : Runnable M) (childResources : List (LangChainLlmResources M))

namespace LangChainLlmResources

/-- `get_model()`. -/
def getModel : LangChainLlmResources M → Runnable M
  | .mk model _ => model

/-- `self.child_resources`. -/
def childResources : LangChainLlmResources M → List (LangChainLlmResources M)
  | .mk _ childResources => childResources

/-- `add_fallback_resources(llm_resources)`. -/
def addFallbackResources (resources : LangChainLlmResources M)
    (llmResources : List (LangChainLlmResources M)) : LangChainLlmResources M :=
  if llmResources.length = 0 then resources
  else .mk (.withFallbacks resources.getModel (llmResources.map getModel))
    (resources.childResources ++ llmResources)

end LangChainLlmResources

/-! ## The factory -/

/-- What `shuffle` does to a list. -/
structure Shuffle (α : Type) where
  shuffled : List α → List α
  perm : ∀ randomized, (shuffled randomized).Perm randomized

/-- The place of an entry in a configuration: its index, after those of the lists it is
in. -/
abbrev Place := List Nat

/-- What is decided elsewhere, at every place: the configuration that
`create_full_llm_config` makes before it looks for keys (`completeConfig` is its part of
that), what becomes of one that has its keys, and how a group is shuffled. -/
structure Decisions (M : Type) where
  fullConfig : Place → Members → Except ValueError Members
  createLlmResources : Place → Members → Except ValueError (Option (LangChainLlmResources M))
  shuffle : Place → Shuffle (LangChainLlmResources M)

/-- What is raised. -/
inductive Raised where
  | valueError (e : ValueError)
  | other (e : PyError)

/-- What `create_llm` returns. -/
inductive Built (M : Type) where
  | resources (resources : LangChainLlmResources M)
  | nothing
  | missing (required : List PyStr)

/-- Errors, by kind. -/
abbrev Errors := ErrorKind → List PyStr

/-- Errors of one kind. -/
def errorsOf (kind : ErrorKind) (texts : List PyStr) : Errors :=
  fun other => if other = kind then texts else []

/-- What `create_llm_with_fallbacks` returns. -/
inductive Outcome (M : Type) where
  | resources (resources : LangChainLlmResources M)
  | errors (errors : Errors)

/-- What the loop has found: the main model, the others, and the errors. There are others
only after a main one. -/
structure Found (M : Type) where
  main : Option (LangChainLlmResources M)
  fallbacks : List (LangChainLlmResources M)
  errors : Errors
  main_first : main = none → fallbacks = []

/-- Nothing yet. -/
def Found.start : Found M := ⟨none, [], fun _ => [], fun _ => rfl⟩

/-- The first resources are the main ones. -/
def Found.use (found : Found M) (resources : LangChainLlmResources M) : Found M :=
  match found.main with
  | none => ⟨some resources, found.fallbacks, found.errors, fun h => by cases h⟩
  | some main => ⟨some main, found.fallbacks ++ [resources], found.errors, fun h => by cases h⟩

/-- More errors. -/
def Found.update (found : Found M) (errors : Errors) : Found M :=
  { found with errors := fun kind => found.errors kind ++ errors kind }

/-- What one turn of the loop adds. -/
def Found.take (found : Found M) : Outcome M → Found M
  | .resources resources => found.use resources
  | .errors errors => found.update errors

/-- `sorted(set)`, of the texts that were added to a set. -/
def sortedSet (texts : List PyStr) : List PyStr :=
  texts.dedup.insertionSort fun first second => textLe first second = true

/-- The members of a group, in another order; the last of them is the main one. -/
def randomizePeers (shuffle : Shuffle (LangChainLlmResources M)) (main : LangChainLlmResources M)
    (fallbacks : List (LangChainLlmResources M)) :
    LangChainLlmResources M × List (LangChainLlmResources M) :=
  let randomized := shuffle.shuffled (fallbacks ++ [main])
  (randomized.getLastD main, randomized.dropLast)

/-- What follows the loop. -/
def Found.finish (shuffle : Shuffle (LangChainLlmResources M)) (randomize : Bool)
    (found : Found M) : Outcome M :=
  match found.main with
  | none => .errors fun kind => sortedSet (found.errors kind)
  | some main =>
      if 0 < found.fallbacks.length then
        let group := if randomize then randomizePeers shuffle main found.fallbacks
          else (main, found.fallbacks)
        .resources (group.1.addFallbackResources group.2)
      else .resources main

section

variable (decisions : Decisions M) (slyData : Json)

/-- `create_llm(config, sly_data)`, at a place. -/
def createLlm (place : Place) : Json → Except Raised (Built M)
  | .obj config =>
      match decisions.fullConfig place config with
      | .error e => .error (.valueError e)
      | .ok fullConfig =>
          match replaceAnyRequiredApiKeys fullConfig slyData with
          | .error e => .error (.other e)
          | .ok (.missing required) => .ok (.missing required)
          | .ok (.config fullConfig) =>
              match decisions.createLlmResources place fullConfig with
              | .error e => .error (.valueError e)
              | .ok (some resources) => .ok (.resources resources)
              | .ok none => .ok .nothing
  | _ => .error (.other .attributeError)

/-- A `ValueError` of `create_llm` is reported later, and so are keys that are missing. -/
def outcomeOf : Except Raised (Built M) → Except Raised (Outcome M)
  | .ok (.resources resources) => .ok (.resources resources)
  | .ok .nothing => .ok (.errors fun _ => [])
  | .ok (.missing required) => .ok (.errors (errorsOf .requiredSlyDataErrors required))
  | .error (.valueError e) => .ok (.errors (errorsOf e.report.1 [e.report.2]))
  | .error (.other e) => .error (.other e)

mutual

/-- One turn of the loop: a list is a group of peers. -/
def oneLlmResources (place : Place) : Json → Except Raised (Outcome M)
  | .arr peers =>
      (tryFallbacks place 0 peers .start).map (Found.finish (decisions.shuffle place) true)
  | fallback => outcomeOf (createLlm decisions slyData place fallback)

/-- The loop over the fallbacks. -/
def tryFallbacks (place : Place) (index : Nat) : List Json → Found M → Except Raised (Found M)
  | [], found => .ok found
  | fallback :: fallbacks, found =>
      match oneLlmResources (place ++ [index]) fallback with
      | .error e => .error e
      | .ok one => tryFallbacks place (index + 1) fallbacks (found.take one)

end

/-- The fallbacks that are tried. -/
def trim (numFallbacks : Option Int) (fallbacks : List Json) : List Json :=
  match numFallbacks with
  | none => fallbacks
  | some num =>
      if num < 0 then fallbacks.drop (fallbacks.length - num.natAbs) else fallbacks.take num.natAbs

/-- What the loop goes over: `config.get("fallbacks", [config])`, trimmed. A dictionary
cannot be sliced. -/
def fallbacksOf (config : Members) (numFallbacks : Option Int) : Except Raised (List Json) :=
  match (lookup config (str "fallbacks")).getD (.arr [.obj config]) with
  | .arr fallbacks => .ok (trim numFallbacks fallbacks)
  | .str s => .ok (trim numFallbacks (s.map fun c => .str [c]))
  | .obj members =>
      if numFallbacks.isSome then .error (.other .otherException)
      else .ok (members.map fun member => .str member.1)
  | _ => .error (.other .typeError)

/-- `create_llm_with_fallbacks(config, sly_data, num_fallbacks, randomize_peers)`, at a
place. -/
def createLlmWithFallbacks (place : Place) (config : Members) (numFallbacks : Option Int)
    (randomize : Bool) : Except Raised (Outcome M) :=
  match fallbacksOf config numFallbacks with
  | .error e => .error e
  | .ok fallbacks =>
      (tryFallbacks decisions slyData place 0 fallbacks .start).map
        (Found.finish (decisions.shuffle place) randomize)

/-! ## What is to be kept -/

mutual

/-- Dictionaries, and lists of peers nested to any depth. -/
def isFallback : Json → Bool
  | .obj _ => true
  | .arr peers => areFallbacks peers
  | _ => false

/-- The same, of a list. -/
def areFallbacks : List Json → Bool
  | [] => true
  | fallback :: fallbacks => isFallback fallback && areFallbacks fallbacks

end

mutual

/-- The entries of a fallback, with their places. -/
def entriesOf (place : Place) : Json → List (Place × Members)
  | .obj config => [(place, config)]
  | .arr peers => entriesIn place 0 peers
  | _ => []

/-- The entries of a list of fallbacks. -/
def entriesIn (place : Place) (index : Nat) : List Json → List (Place × Members)
  | [] => []
  | fallback :: fallbacks =>
      entriesOf (place ++ [index]) fallback ++ entriesIn place (index + 1) fallbacks

end

/-- An entry that can be used. -/
def Usable (entry : Place × Members) : Prop :=
  ∃ resources, createLlm decisions slyData entry.1 (.obj entry.2) = .ok (.resources resources)

/-- The errors of an entry. -/
def errorsOfEntry (entry : Place × Members) : Errors :=
  match outcomeOf (createLlm decisions slyData entry.1 (.obj entry.2)) with
  | .ok (.errors errors) => errors
  | _ => fun _ => []

mutual

/-- The models of a fallback, in an order in which they can come: those of a group stay
together, its members in any order. -/
inductive Arranged : Place → Json → List M → Prop where
  | entry {place : Place} {config : Members} {resources : LangChainLlmResources M}
      (hbuilt : createLlm decisions slyData place (.obj config) = .ok (.resources resources)) :
      Arranged place (.obj config) resources.getModel.models
  | group {place : Place} {peers : List Json} {lists shuffled : List (List M)}
      (hpeers : ArrangedAll place 0 peers lists) (hsome : lists ≠ [])
      (hperm : shuffled.Perm lists) : Arranged place (.arr peers) shuffled.flatten

/-- The models of each fallback of a list that has any, in the order of the list. -/
inductive ArrangedAll : Place → Nat → List Json → List (List M) → Prop where
  | nil {place : Place} {index : Nat} : ArrangedAll place index [] []
  | usable {place : Place} {index : Nat} {fallback : Json} {fallbacks : List Json}
      {models : List M} {lists : List (List M)}
      (hfirst : Arranged (place ++ [index]) fallback models)
      (hrest : ArrangedAll place (index + 1) fallbacks lists) :
      ArrangedAll place index (fallback :: fallbacks) (models :: lists)
  | unusable {place : Place} {index : Nat} {fallback : Json} {fallbacks : List Json}
      {lists : List (List M)}
      (hfirst : ∀ entry ∈ entriesOf (place ++ [index]) fallback, ¬ Usable decisions slyData entry)
      (hrest : ArrangedAll place (index + 1) fallbacks lists) :
      ArrangedAll place index (fallback :: fallbacks) lists

end

/-- The chain has the models of all usable entries, in order; or there are none, and the
errors of all entries are returned. -/
def KeepsUsable (config : Members) (fallbacks : List Json) : Prop :=
  match createLlmWithFallbacks decisions slyData [] config none false with
  | .ok (.resources resources) =>
      (∃ entry ∈ entriesIn [] 0 fallbacks, Usable decisions slyData entry) ∧
        ∃ lists, ArrangedAll decisions slyData [] 0 fallbacks lists ∧
          resources.getModel.models = lists.flatten
  | .ok (.errors errors) =>
      (∀ entry ∈ entriesIn [] 0 fallbacks, ¬ Usable decisions slyData entry) ∧
        ∀ kind, (errors kind).Nodup ∧ ∀ text, text ∈ errors kind ↔
          ∃ entry ∈ entriesIn [] 0 fallbacks, text ∈ errorsOfEntry decisions slyData entry kind
  | .error _ => False

end

/-! ## Keys of the client -/

/-- A configuration asks for keys, and there is no dictionary of them. -/
def Unreadable (slyData : Json) (config : Members) : Prop :=
  (∀ keys, useApiKeys slyData ≠ .obj keys) ∧ ∃ item ∈ config, isPlaceholder item.2 = true

/-- With a dictionary of keys nothing is raised. -/
theorem exists_foldlM_replaceOne (keys : Members) (items : Members)
    (found : Members × List PyStr) :
    ∃ found', items.foldlM (replaceOne (.obj keys)) found = .ok found' := by
  induction items generalizing found with
  | nil => exact ⟨found, rfl⟩
  | cons item items ih =>
      have hstep : ∃ next, replaceOne (.obj keys) found item = .ok next := by
        unfold replaceOne
        split
        · dsimp only
          split <;> exact ⟨_, rfl⟩
        · exact ⟨_, rfl⟩
      obtain ⟨next, hnext⟩ := hstep
      rw [List.foldlM_cons, hnext]
      exact ih next

/-- Without one, the first placeholder raises. -/
theorem foldlM_replaceOne_of_not_obj {apiKeys : Json} (h : ∀ keys, apiKeys ≠ .obj keys)
    (items : Members) (found : Members × List PyStr) :
    items.foldlM (replaceOne apiKeys) found =
      if items.any (fun item => isPlaceholder item.2) then .error .attributeError
      else .ok found := by
  induction items with
  | nil => rfl
  | cons item items ih =>
      rw [List.foldlM_cons, List.any_cons]
      cases hitem : isPlaceholder item.2 with
      | true =>
          have hstep : replaceOne apiKeys found item = .error .attributeError := by
            unfold replaceOne
            rw [hitem]
            cases apiKeys with
            | obj keys => exact absurd rfl (h keys)
            | _ => rfl
          rw [hstep]
          rfl
      | false =>
          have hstep : replaceOne apiKeys found item = .ok found := by
            unfold replaceOne
            rw [hitem]
            rfl
          rw [hstep, Bool.false_or]
          exact ih

theorem replaceAnyRequiredApiKeys_raises_iff (slyData : Json) (config : Members) :
    (∃ e, replaceAnyRequiredApiKeys config slyData = .error e) ↔ Unreadable slyData config := by
  unfold replaceAnyRequiredApiKeys
  by_cases hkeys : ∃ keys, useApiKeys slyData = .obj keys
  · obtain ⟨keys, hkeys⟩ := hkeys
    obtain ⟨found, hfound⟩ := exists_foldlM_replaceOne keys config (config, [])
    rw [hkeys, hfound]
    refine iff_of_false ?_ fun h => h.1 keys hkeys
    obtain ⟨config', required⟩ := found
    cases required with
    | nil =>
        rintro ⟨e, he⟩
        cases he
    | cons key required =>
        rintro ⟨e, he⟩
        cases he
  · have hnone : ∀ keys, useApiKeys slyData ≠ .obj keys := fun keys h => hkeys ⟨keys, h⟩
    rw [foldlM_replaceOne_of_not_obj hnone]
    unfold Unreadable
    rw [← @List.any_eq_true _ (fun item : PyStr × Json => isPlaceholder item.2)]
    cases config.any fun item => isPlaceholder item.2 with
    | true => exact iff_of_true ⟨_, rfl⟩ ⟨hnone, rfl⟩
    | false =>
        refine iff_of_false ?_ fun h => Bool.false_ne_true h.2
        rintro ⟨e, he⟩
        cases he

/-! ## Chains of models -/

theorem modelsOf_map (llmResources : List (LangChainLlmResources M)) :
    modelsOf (llmResources.map LangChainLlmResources.getModel) =
      (llmResources.map fun resources => resources.getModel.models).flatten := by
  induction llmResources with
  | nil => rfl
  | cons resources rest ih =>
      rw [List.map_cons, List.map_cons, List.flatten_cons, ← ih]
      rfl

theorem models_addFallbackResources (resources : LangChainLlmResources M)
    (llmResources : List (LangChainLlmResources M)) :
    (resources.addFallbackResources llmResources).getModel.models =
      resources.getModel.models ++
        (llmResources.map fun resources => resources.getModel.models).flatten := by
  unfold LangChainLlmResources.addFallbackResources
  split
  case isTrue hnone =>
      rw [List.length_eq_zero_iff.mp hnone, List.map_nil, List.flatten_nil, List.append_nil]
  case isFalse hsome =>
      show (Runnable.withFallbacks resources.getModel _).models = _
      rw [Runnable.models, modelsOf_map]

namespace Found

/-- The models that were found, those of the main one first. -/
def lists (found : Found M) : List (List M) :=
  (found.main.toList ++ found.fallbacks).map fun resources => resources.getModel.models

theorem lists_use (found : Found M) (resources : LangChainLlmResources M) :
    (found.use resources).lists = found.lists ++ [resources.getModel.models] := by
  obtain ⟨main, fallbacks, errors, hmain⟩ := found
  cases main with
  | none =>
      obtain rfl := hmain rfl
      rfl
  | some main =>
      show List.map _ ([main] ++ (fallbacks ++ [resources])) = _
      rw [← List.append_assoc, List.map_append]
      rfl

/-- Resources are returned if some were found, as a chain of all of them, in order or
shuffled. -/
theorem finish_resources {shuffle : Shuffle (LangChainLlmResources M)} {randomize : Bool}
    {found : Found M} {resources : LangChainLlmResources M}
    (h : found.finish shuffle randomize = .resources resources) :
    found.lists ≠ [] ∧ ∃ shuffled : List (List M), shuffled.Perm found.lists ∧
      (randomize = false → shuffled = found.lists) ∧
      resources.getModel.models = shuffled.flatten := by
  obtain ⟨main, fallbacks, errors, hmain⟩ := found
  cases main with
  | none => cases h
  | some main =>
      refine ⟨List.cons_ne_nil _ _, ?_⟩
      unfold finish at h
      dsimp only at h
      split at h
      case isFalse hnone =>
          obtain rfl := List.eq_nil_of_length_eq_zero (by omega : fallbacks.length = 0)
          obtain rfl := Outcome.resources.inj h
          exact ⟨_, List.Perm.refl _, fun _ => rfl, (List.append_nil _).symm⟩
      case isTrue hsome =>
          obtain rfl := Outcome.resources.inj h
          rw [models_addFallbackResources]
          cases randomize with
          | false => exact ⟨_, List.Perm.refl _, fun _ => rfl, rfl⟩
          | true =>
              -- the last of the shuffled ones comes first
              have hperm := shuffle.perm (fallbacks ++ [main])
              have hne : shuffle.shuffled (fallbacks ++ [main]) ≠ [] := by
                intro hnil
                rw [hnil] at hperm
                have hlength := hperm.length_eq
                rw [List.length_append] at hlength
                simp at hlength
              have hlast : (shuffle.shuffled (fallbacks ++ [main])).dropLast ++
                  [(shuffle.shuffled (fallbacks ++ [main])).getLastD main] =
                    shuffle.shuffled (fallbacks ++ [main]) := by
                rw [List.getLastD_eq_getLast?, List.getLast?_eq_getLast_of_ne_nil hne]
                exact List.dropLast_append_getLast hne
              have hfront := (List.perm_append_singleton
                ((shuffle.shuffled (fallbacks ++ [main])).getLastD main)
                (shuffle.shuffled (fallbacks ++ [main])).dropLast).symm
              rw [hlast] at hfront
              have hall := hfront.trans (hperm.trans (List.perm_append_singleton main fallbacks))
              exact ⟨_, hall.map fun resources => resources.getModel.models, by simp, rfl⟩

/-- Errors are returned if nothing was found. -/
theorem finish_errors {shuffle : Shuffle (LangChainLlmResources M)} {randomize : Bool}
    {found : Found M} {errors : Errors} (h : found.finish shuffle randomize = .errors errors) :
    found.lists = [] ∧ ∀ kind, errors kind = sortedSet (found.errors kind) := by
  obtain ⟨main, fallbacks, found, hmain⟩ := found
  cases main with
  | none =>
      obtain rfl := hmain rfl
      obtain rfl := Outcome.errors.inj h
      exact ⟨rfl, fun _ => rfl⟩
  | some main =>
      unfold finish at h
      dsimp only at h
      split at h <;> cases h

end Found

theorem mem_sortedSet {text : PyStr} {texts : List PyStr} :
    text ∈ sortedSet texts ↔ text ∈ texts := by
  unfold sortedSet
  rw [List.mem_insertionSort, List.mem_dedup]

theorem nodup_sortedSet (texts : List PyStr) : (sortedSet texts).Nodup :=
  (List.perm_insertionSort _ _).nodup_iff.mpr (List.nodup_dedup texts)

/-! ## One entry, and the loop -/

section

variable (decisions : Decisions M) (slyData : Json)

/-- An entry whose keys can be read, if it needs any. -/
def Readable (entry : Place × Members) : Prop :=
  ∀ fullConfig, decisions.fullConfig entry.1 entry.2 = .ok fullConfig →
    ¬ Unreadable slyData fullConfig

/-- What one turn of the loop gives stands for its fallback. -/
def Represents (place : Place) (fallback : Json) : Outcome M → Prop
  | .resources resources =>
      (∃ entry ∈ entriesOf place fallback, Usable decisions slyData entry) ∧
        Arranged decisions slyData place fallback resources.getModel.models
  | .errors errors =>
      (∀ entry ∈ entriesOf place fallback, ¬ Usable decisions slyData entry) ∧
        ∀ kind text, text ∈ errors kind ↔
          ∃ entry ∈ entriesOf place fallback, text ∈ errorsOfEntry decisions slyData entry kind

/-- What a loop adds to what was found before. -/
structure LoopFinds (place : Place) (index : Nat) (fallbacks : List Json)
    (found after : Found M) : Prop where
  lists : ∃ lists, ArrangedAll decisions slyData place index fallbacks lists ∧
    after.lists = found.lists ++ lists ∧
    (lists = [] ↔ ∀ entry ∈ entriesIn place index fallbacks, ¬ Usable decisions slyData entry)
  errors : (∀ entry ∈ entriesIn place index fallbacks, ¬ Usable decisions slyData entry) →
    ∀ kind text, text ∈ after.errors kind ↔ text ∈ found.errors kind ∨
      ∃ entry ∈ entriesIn place index fallbacks,
        text ∈ errorsOfEntry decisions slyData entry kind

variable {decisions slyData}

theorem outcomeOf_resources {built : Except Raised (Built M)} {resources : LangChainLlmResources M}
    (h : outcomeOf built = .ok (.resources resources)) : built = .ok (.resources resources) := by
  rcases built with e | built
  · cases e with
    | valueError e => cases h
    | other e => cases h
  · cases built with
    | resources built =>
        cases h
        rfl
    | nothing => cases h
    | missing required => cases h

/-- Building an entry raises only where its keys cannot be read. -/
theorem outcomeOf_createLlm_iff (place : Place) (config : Members) :
    (∃ one, outcomeOf (createLlm decisions slyData place (.obj config)) = .ok one) ↔
      Readable decisions slyData (place, config) := by
  rw [createLlm]
  unfold Readable
  cases decisions.fullConfig place config with
  | error e =>
      refine iff_of_true ⟨_, rfl⟩ fun fullConfig h => ?_
      cases h
  | ok fullConfig =>
      have hraises := replaceAnyRequiredApiKeys_raises_iff slyData fullConfig
      dsimp only
      cases hreplace : replaceAnyRequiredApiKeys fullConfig slyData with
      | error e =>
          refine iff_of_false ?_ fun h => h fullConfig rfl (hraises.mp ⟨e, hreplace⟩)
          rintro ⟨one, hone⟩
          cases hone
      | ok replaced =>
          refine iff_of_true ?_ fun full h => ?_
          · cases replaced with
            | missing required => exact ⟨_, rfl⟩
            | config complete =>
                dsimp only
                rcases decisions.createLlmResources place complete with e | _ | resources
                · exact ⟨_, rfl⟩
                · exact ⟨_, rfl⟩
                · exact ⟨_, rfl⟩
          · obtain rfl := Except.ok.inj h
            intro hunreadable
            obtain ⟨e, he⟩ := hraises.mpr hunreadable
            rw [hreplace] at he
            cases he

/-- An entry is represented by its resources or its errors. -/
theorem represents_entry {place : Place} {config : Members} {one : Outcome M}
    (h : outcomeOf (createLlm decisions slyData place (.obj config)) = .ok one) :
    Represents decisions slyData place (.obj config) one := by
  have hentries : entriesOf place (.obj config) = [(place, config)] := rfl
  cases one with
  | resources resources =>
      have hbuilt := outcomeOf_resources h
      exact ⟨⟨(place, config), hentries ▸ List.mem_singleton.mpr rfl, resources, hbuilt⟩,
        .entry hbuilt⟩
  | errors errors =>
      have herrors : errorsOfEntry decisions slyData (place, config) = errors := by
        unfold errorsOfEntry
        rw [h]
      unfold Represents
      rw [hentries]
      constructor
      · intro entry hmem husable
        obtain rfl := List.mem_singleton.mp hmem
        obtain ⟨resources, hbuilt⟩ := husable
        rw [hbuilt] at h
        cases h
      · intro kind text
        rw [← herrors]
        constructor
        · intro htext
          exact ⟨_, List.mem_singleton.mpr rfl, htext⟩
        · rintro ⟨entry, hmem, htext⟩
          rw [List.mem_singleton.mp hmem] at htext
          exact htext

theorem LoopFinds.nil (place : Place) (index : Nat) (found : Found M) :
    LoopFinds decisions slyData place index [] found found where
  lists := ⟨[], .nil, (List.append_nil _).symm, iff_of_true rfl fun _ h =>
    absurd h List.not_mem_nil⟩
  errors _ kind text := by
    rw [or_iff_left]
    rintro ⟨entry, hmem, -⟩
    exact List.not_mem_nil hmem

/-- One turn of the loop, and then the others. -/
theorem LoopFinds.cons {place : Place} {index : Nat} {fallback : Json} {fallbacks : List Json}
    {found after : Found M} {one : Outcome M}
    (hone : Represents decisions slyData (place ++ [index]) fallback one)
    (hrest : LoopFinds decisions slyData place (index + 1) fallbacks (found.take one) after) :
    LoopFinds decisions slyData place index (fallback :: fallbacks) found after := by
  have hentries : entriesIn place index (fallback :: fallbacks) =
      entriesOf (place ++ [index]) fallback ++ entriesIn place (index + 1) fallbacks := by
    rw [entriesIn]
  obtain ⟨lists, harranged, hlists, hnone⟩ := hrest.lists
  cases one with
  | resources resources =>
      obtain ⟨⟨entry, hentry, husable⟩, hmodels⟩ := hone
      -- one that is usable ends the search for errors
      have hsome : ¬ ∀ entry ∈ entriesIn place index (fallback :: fallbacks),
          ¬ Usable decisions slyData entry := by
        intro h
        rw [hentries] at h
        exact h entry (List.mem_append_left _ hentry) husable
      refine ⟨⟨_, .usable hmodels harranged, ?_, iff_of_false (List.cons_ne_nil _ _) hsome⟩,
        fun h => absurd h hsome⟩
      show after.lists = _
      have htake : (found.take (.resources resources)).lists = _ := found.lists_use resources
      rw [hlists, htake, List.append_assoc]
      rfl
  | errors errors =>
      obtain ⟨hunusable, herrors⟩ := hone
      -- one that is not leaves it to the others
      have hall : (∀ entry ∈ entriesIn place index (fallback :: fallbacks),
          ¬ Usable decisions slyData entry) ↔
            ∀ entry ∈ entriesIn place (index + 1) fallbacks, ¬ Usable decisions slyData entry := by
        rw [hentries]
        constructor
        · intro h entry hmem
          exact h entry (List.mem_append_right _ hmem)
        · intro h entry hmem
          rcases List.mem_append.mp hmem with hmem | hmem
          · exact hunusable entry hmem
          · exact h entry hmem
      refine ⟨⟨lists, .unusable hunusable harranged, hlists, hnone.trans hall.symm⟩, ?_⟩
      intro h kind text
      have htake : (found.take (.errors errors)).errors kind =
          found.errors kind ++ errors kind := rfl
      rw [hrest.errors (hall.mp h) kind text, htake, List.mem_append, herrors kind text, or_assoc,
        hentries]
      refine or_congr_right ?_
      constructor
      · rintro (⟨entry, hmem, htext⟩ | ⟨entry, hmem, htext⟩)
        · exact ⟨entry, List.mem_append_left _ hmem, htext⟩
        · exact ⟨entry, List.mem_append_right _ hmem, htext⟩
      · rintro ⟨entry, hmem, htext⟩
        rcases List.mem_append.mp hmem with hmem | hmem
        · exact .inl ⟨entry, hmem, htext⟩
        · exact .inr ⟨entry, hmem, htext⟩

/-- A loop from the start finds models if there are any to be found. -/
theorem LoopFinds.exists_usable {place : Place} {fallbacks : List Json} {after : Found M}
    (h : LoopFinds decisions slyData place 0 fallbacks .start after) (hsome : after.lists ≠ []) :
    (∃ entry ∈ entriesIn place 0 fallbacks, Usable decisions slyData entry) ∧
      ArrangedAll decisions slyData place 0 fallbacks after.lists := by
  obtain ⟨lists, harranged, hlists, hnone⟩ := h.lists
  have hstart : after.lists = lists := hlists
  rw [hstart] at hsome ⊢
  refine ⟨?_, harranged⟩
  by_contra hunusable
  apply hsome
  rw [hnone]
  intro entry hmem husable
  exact hunusable ⟨entry, hmem, husable⟩

/-- Otherwise it has the errors of all entries. -/
theorem LoopFinds.errors_of_nil {place : Place} {fallbacks : List Json} {after : Found M}
    (h : LoopFinds decisions slyData place 0 fallbacks .start after) (hnil : after.lists = []) :
    (∀ entry ∈ entriesIn place 0 fallbacks, ¬ Usable decisions slyData entry) ∧
      ∀ kind text, text ∈ after.errors kind ↔
        ∃ entry ∈ entriesIn place 0 fallbacks,
          text ∈ errorsOfEntry decisions slyData entry kind := by
  obtain ⟨lists, -, hlists, hnone⟩ := h.lists
  have hstart : after.lists = lists := hlists
  have hunusable := hnone.mp (hstart.symm.trans hnil)
  refine ⟨hunusable, fun kind text => ?_⟩
  rw [h.errors hunusable kind text]
  show text ∈ [] ∨ _ ↔ _
  rw [or_iff_right List.not_mem_nil]

/-- What follows the loop over a group stands for the group. -/
theorem LoopFinds.group {place : Place} {peers : List Json} {after : Found M}
    (h : LoopFinds decisions slyData place 0 peers .start after) :
    Represents decisions slyData place (.arr peers)
      (after.finish (decisions.shuffle place) true) := by
  have hentries : entriesOf place (.arr peers) = entriesIn place 0 peers := by
    rw [entriesOf]
  unfold Represents
  rw [hentries]
  cases hfinish : after.finish (decisions.shuffle place) true with
  | resources resources =>
      obtain ⟨hsome, shuffled, hperm, -, hmodels⟩ := Found.finish_resources hfinish
      obtain ⟨husable, harranged⟩ := h.exists_usable hsome
      refine ⟨husable, ?_⟩
      rw [hmodels]
      exact .group harranged hsome hperm
  | errors errors =>
      obtain ⟨hnil, hsorted⟩ := Found.finish_errors hfinish
      obtain ⟨hunusable, herrors⟩ := h.errors_of_nil hnil
      refine ⟨hunusable, fun kind text => ?_⟩
      rw [hsorted kind, mem_sortedSet, herrors kind text]

mutual

/-- One turn of the loop raises only where keys of its fallback cannot be read; what it
gives stands for the fallback. -/
theorem oneLlmResources_spec : ∀ (place : Place) (fallback : Json), isFallback fallback = true →
    ((∃ one, oneLlmResources decisions slyData place fallback = .ok one) ↔
        ∀ entry ∈ entriesOf place fallback, Readable decisions slyData entry) ∧
      ∀ one, oneLlmResources decisions slyData place fallback = .ok one →
        Represents decisions slyData place fallback one
  | place, .obj config, _ => by
      have hone : oneLlmResources decisions slyData place (.obj config) =
          outcomeOf (createLlm decisions slyData place (.obj config)) := by
        rw [oneLlmResources]
        exact fun peers h => by cases h
      have hentries : entriesOf place (.obj config) = [(place, config)] := rfl
      rw [hone, hentries, outcomeOf_createLlm_iff]
      constructor
      · constructor
        · intro h entry hmem
          rw [List.mem_singleton.mp hmem]
          exact h
        · intro h
          exact h _ (List.mem_singleton.mpr rfl)
      · exact fun one h => represents_entry h
  | place, .arr peers, hshape => by
      obtain ⟨hiff, hfinds⟩ := tryFallbacks_spec place 0 peers .start hshape
      have hentries : entriesOf place (.arr peers) = entriesIn place 0 peers := by
        rw [entriesOf]
      rw [oneLlmResources, hentries, ← hiff]
      cases hafter : tryFallbacks decisions slyData place 0 peers .start with
      | error e =>
          constructor
          · refine iff_of_false ?_ ?_
            · rintro ⟨one, hone⟩
              cases hone
            · rintro ⟨after, h⟩
              cases h
          · intro one hone
            cases hone
      | ok after =>
          constructor
          · exact iff_of_true ⟨_, rfl⟩ ⟨_, rfl⟩
          · intro one hone
            obtain rfl := Except.ok.inj hone
            exact (hfinds after hafter).group
  | _, .null, h => by cases h
  | _, .bool _, h => by cases h
  | _, .int _, h => by cases h
  | _, .float _, h => by cases h
  | _, .str _, h => by cases h

/-- The same, of the loop. -/
theorem tryFallbacks_spec : ∀ (place : Place) (index : Nat) (fallbacks : List Json)
    (found : Found M), areFallbacks fallbacks = true →
    ((∃ after, tryFallbacks decisions slyData place index fallbacks found = .ok after) ↔
        ∀ entry ∈ entriesIn place index fallbacks, Readable decisions slyData entry) ∧
      ∀ after, tryFallbacks decisions slyData place index fallbacks found = .ok after →
        LoopFinds decisions slyData place index fallbacks found after
  | place, index, [], found, _ => by
      rw [tryFallbacks, entriesIn]
      constructor
      · exact iff_of_true ⟨found, rfl⟩ fun entry h => absurd h List.not_mem_nil
      · intro after h
        obtain rfl := Except.ok.inj h
        exact .nil place index found
  | place, index, fallback :: fallbacks, found, hshape => by
      rw [areFallbacks, Bool.and_eq_true] at hshape
      obtain ⟨hiff, hrepresents⟩ := oneLlmResources_spec (place ++ [index]) fallback hshape.1
      rw [tryFallbacks, entriesIn]
      cases hone : oneLlmResources decisions slyData (place ++ [index]) fallback with
      | error e =>
          constructor
          · refine iff_of_false ?_ fun h => ?_
            · rintro ⟨after, hafter⟩
              cases hafter
            · obtain ⟨one, hone'⟩ := hiff.mpr fun entry hmem =>
                h entry (List.mem_append_left _ hmem)
              rw [hone] at hone'
              cases hone'
          · intro after hafter
            cases hafter
      | ok one =>
          obtain ⟨hiff', hfinds⟩ := tryFallbacks_spec place (index + 1) fallbacks (found.take one)
            hshape.2
          constructor
          · dsimp only
            rw [hiff']
            constructor
            · intro h entry hmem
              rcases List.mem_append.mp hmem with hmem | hmem
              · exact hiff.mp ⟨one, hone⟩ entry hmem
              · exact h entry hmem
            · intro h entry hmem
              exact h entry (List.mem_append_right _ hmem)
          · intro after hafter
            exact .cons (hrepresents one hone) (hfinds after hafter)

end

/-! ## All models, each once -/

variable (decisions slyData) in
/-- The models of an entry, if it can be used. -/
def modelsOfEntry (entry : Place × Members) : List M :=
  match createLlm decisions slyData entry.1 (.obj entry.2) with
  | .ok (.resources resources) => resources.getModel.models
  | _ => []

theorem modelsOfEntry_of_not_usable {entry : Place × Members}
    (h : ¬ Usable decisions slyData entry) : modelsOfEntry decisions slyData entry = [] := by
  unfold modelsOfEntry
  split
  · rename_i resources hbuilt
    exact absurd ⟨resources, hbuilt⟩ h
  · rfl

mutual

/-- In every order there are the models of the usable entries, each once. -/
theorem Arranged.perm : ∀ {place : Place} {fallback : Json} {models : List M},
    Arranged decisions slyData place fallback models →
      models.Perm ((entriesOf place fallback).flatMap (modelsOfEntry decisions slyData))
  | place, .obj config, _, @Arranged.entry _ _ _ _ _ resources hbuilt => by
      have hentry : modelsOfEntry decisions slyData (place, config) =
          resources.getModel.models := by
        unfold modelsOfEntry
        rw [hbuilt]
      rw [entriesOf, List.flatMap_cons, List.flatMap_nil, List.append_nil, hentry]
  | place, .arr peers, _, .group hpeers _ hperm => by
      rw [entriesOf]
      exact hperm.flatten.trans hpeers.perm

/-- The same, of a list of fallbacks. -/
theorem ArrangedAll.perm : ∀ {place : Place} {index : Nat} {fallbacks : List Json}
    {lists : List (List M)}, ArrangedAll decisions slyData place index fallbacks lists →
      lists.flatten.Perm
        ((entriesIn place index fallbacks).flatMap (modelsOfEntry decisions slyData))
  | _, _, _, _, .nil => by
      rw [entriesIn]
      exact List.Perm.refl []
  | _, _, _, _, .usable hfirst hrest => by
      rw [entriesIn, List.flatMap_append, List.flatten_cons]
      exact hfirst.perm.append hrest.perm
  | place, index, fallback :: fallbacks, _, .unusable hfirst hrest => by
      have hnone : (entriesOf (place ++ [index]) fallback).flatMap
          (modelsOfEntry decisions slyData) = [] := by
        rw [List.flatMap_eq_nil_iff]
        intro entry hmem
        exact modelsOfEntry_of_not_usable (hfirst entry hmem)
      rw [entriesIn, List.flatMap_append, hnone, List.nil_append]
      exact hrest.perm

end

end

/-! ## When all is kept -/

/-- The models of all usable entries are kept, each once and in order, or the errors of
all entries are returned, if the keys of the client are a dictionary, or if no entry asks
for any. -/
theorem keepsUsable_iff (decisions : Decisions M) (slyData : Json) (config : Members)
    (fallbacks : List Json) (hfallbacks : fallbacksOf config none = .ok fallbacks)
    (hshape : areFallbacks fallbacks = true) :
    KeepsUsable decisions slyData config fallbacks ↔
      (∃ keys, useApiKeys slyData = .obj keys) ∨
        ∀ entry ∈ entriesIn [] 0 fallbacks, ∀ fullConfig,
          decisions.fullConfig entry.1 entry.2 = .ok fullConfig →
            ∀ item ∈ fullConfig, isPlaceholder item.2 = false := by
  -- an entry raises only where keys are asked of what is no dictionary
  have hreadable : ((∃ keys, useApiKeys slyData = .obj keys) ∨
      ∀ entry ∈ entriesIn [] 0 fallbacks, ∀ fullConfig,
        decisions.fullConfig entry.1 entry.2 = .ok fullConfig →
          ∀ item ∈ fullConfig, isPlaceholder item.2 = false) ↔
      ∀ entry ∈ entriesIn [] 0 fallbacks, Readable decisions slyData entry := by
    constructor
    · rintro (⟨keys, hkeys⟩ | hplain) entry hmem fullConfig hfull hunreadable
      · exact hunreadable.1 keys hkeys
      · obtain ⟨-, item, hitem, hplaceholder⟩ := hunreadable
        rw [hplain entry hmem fullConfig hfull item hitem] at hplaceholder
        cases hplaceholder
    · intro h
      by_cases hkeys : ∃ keys, useApiKeys slyData = .obj keys
      · exact .inl hkeys
      · refine .inr fun entry hmem fullConfig hfull item hitem => ?_
        by_contra hplaceholder
        exact h entry hmem fullConfig hfull ⟨fun keys hobj => hkeys ⟨keys, hobj⟩, item, hitem,
          Bool.eq_true_of_not_eq_false hplaceholder⟩
  obtain ⟨hiff, hfinds⟩ := @tryFallbacks_spec M decisions slyData [] 0 fallbacks .start hshape
  -- what is created is what the loop over the fallbacks leaves
  have hcreate : createLlmWithFallbacks decisions slyData [] config none false =
      (tryFallbacks decisions slyData [] 0 fallbacks .start).map
        (Found.finish (decisions.shuffle []) false) := by
    unfold createLlmWithFallbacks
    rw [hfallbacks]
  rw [hreadable, ← hiff]
  unfold KeepsUsable
  rw [hcreate]
  cases hafter : tryFallbacks decisions slyData [] 0 fallbacks .start with
  | error e =>
      refine iff_of_false id ?_
      rintro ⟨after, h⟩
      cases h
  | ok after =>
      refine iff_of_true ?_ ⟨after, rfl⟩
      have hloop := hfinds after hafter
      have hmap : (Except.ok after : Except Raised (Found M)).map
          (Found.finish (decisions.shuffle []) false) =
            .ok (after.finish (decisions.shuffle []) false) := rfl
      rw [hmap]
      cases hfinish : after.finish (decisions.shuffle []) false with
      | resources resources =>
          obtain ⟨hsome, shuffled, -, hsame, hmodels⟩ := Found.finish_resources hfinish
          obtain ⟨husable, harranged⟩ := hloop.exists_usable hsome
          rw [hsame rfl] at hmodels
          exact ⟨husable, after.lists, harranged, hmodels⟩
      | errors errors =>
          obtain ⟨hnil, hsorted⟩ := Found.finish_errors hfinish
          obtain ⟨hunusable, herrors⟩ := hloop.errors_of_nil hnil
          refine ⟨hunusable, fun kind => ?_⟩
          rw [hsorted kind]
          refine ⟨nodup_sortedSet _, fun text => ?_⟩
          rw [mem_sortedSet, herrors kind text]

/-- Nothing is shuffled, every configuration is complete but for its keys, and every model
is its name. -/
def asNamed : Decisions Json where
  fullConfig _ config := .ok config
  createLlmResources _ config := .ok (some (.mk (.model (get config (str "model_name"))) []))
  shuffle _ := ⟨id, fun randomized => List.Perm.refl randomized⟩

/-- A client that says that it has no keys gets no answer: `None` is no dictionary. -/
theorem noKeys_raises :
    ¬ KeepsUsable asNamed (.obj [(str "llm_config", .null)])
      [(str "fallbacks", .arr [.obj [(str "model_name", .str (str "a")),
        (str "openai_api_key", .str (str "sly_data"))], .obj [(str "model_name", .str (str "b"))]])]
      [.obj [(str "model_name", .str (str "a")), (str "openai_api_key", .str (str "sly_data"))],
        .obj [(str "model_name", .str (str "b"))]] := by
  intro h
  exact h

/-- Fallbacks of which the first needs a key of the client, and the second is a group. -/
def keyThenGroup : List Json :=
  [.obj [(str "model_name", .str (str "a")), (str "openai_api_key", .str (str "sly_data"))],
    .arr [.obj [(str "model_name", .str (str "b"))], .obj [(str "model_name", .str (str "c"))]]]

/-- With keys of the client and without, the fallbacks that are usable are kept. -/
theorem keepsUsable_keyThenGroup :
    KeepsUsable asNamed
        (.obj [(str "llm_config", .obj [(str "openai_api_key", .str (str "key"))])])
        [(str "fallbacks", .arr keyThenGroup)] keyThenGroup ∧
      KeepsUsable asNamed (.obj []) [(str "fallbacks", .arr keyThenGroup)] keyThenGroup :=
  ⟨(keepsUsable_iff asNamed _ _ _ rfl rfl).mpr (.inl ⟨_, rfl⟩),
    (keepsUsable_iff asNamed (.obj []) _ _ rfl rfl).mpr (.inl ⟨[], rfl⟩)⟩

end NoraFleet.Llms
