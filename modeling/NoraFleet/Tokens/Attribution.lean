import Mathlib
import NoraFleet.Base.Flow
import NoraFleet.Base.Json

/-!
# Tokens by model

An `LlmTokenCallbackHandler` counts the tokens of the calls that an agent makes to its
language models, for each provider and model. It hears of the start of a call, with the
class of the model, and of the end of it, with the name of the model and what it used. The
provider is remembered in one place from one start to the next, so that the end of a call
is counted for the provider of the call that was started last.

Calls overlap in any way. Each of the two callbacks runs without a pause.

* `run_counts` — every end is counted, for the provider of the last start before it;
* `attributed_iff` — the overlaps in which whatever is used is counted for the right model.
-/

namespace NoraFleet.Tokens

open Base

/-! ## Prices -/

/-- A price, of a value in the information on a model. -/
def priceOf : Json → Except PyError (Option ℚ)
  | .null => .ok none
  | .bool b => .ok (some b.toInt)
  | .int n => .ok (some n)
  | .float (.fin q) => .ok (some q)
  | .float _ => .ok none
  | .str _ | .arr _ | .obj _ => .error .typeError

/-- `self.llm_infos.get(use_model_name, {}).get(price_key)`. -/
def aliasPrice (llmInfos : List (PyStr × Json)) (priceKey : PyStr) :
    Json → Except PyError Json
  | .str useModelName =>
      match (Json.lookup llmInfos useModelName).getD (.obj []) with
      | .obj llmInfo => .ok ((Json.lookup llmInfo priceKey).getD .null)
      | _ => .error .attributeError
  | .arr _ | .obj _ => .error .typeError
  | _ => .ok .null

/-- The price of a model, its own or that of the model it is an alias of. -/
def modelPrice (llmInfos : List (PyStr × Json)) (modelName priceKey : PyStr) :
    Except PyError (Option ℚ) :=
  match (Json.lookup llmInfos modelName).getD .null with
  | .null => .ok none
  | .obj llmInfo =>
      match (Json.lookup llmInfo priceKey).getD .null with
      | .null =>
          match aliasPrice llmInfos priceKey
              ((Json.lookup llmInfo (str "use_model_name")).getD .null) with
          | .error e => .error e
          | .ok price => priceOf price
      | price => priceOf price
  | _ => .error .attributeError

/-- `_get_cost_from_info(model_name, num_tokens, price_key)`. -/
def getCostFromInfo (llmInfos : List (PyStr × Json)) (modelName : PyStr) (numTokens : ℤ)
    (priceKey : PyStr) : Except PyError (Option ℚ) :=
  (modelPrice llmInfos modelName priceKey).map fun price => price.map (numTokens / 1000 * ·)

/-- `calculate_token_costs(model_name, completion_tokens, prompt_tokens)`. -/
def calculateTokenCosts (llmInfos : List (PyStr × Json)) (modelName : PyStr)
    (completionTokens promptTokens : ℤ) : Except PyError ℚ :=
  match getCostFromInfo llmInfos modelName completionTokens (str "price_per_1k_output_tokens") with
  | .error e => .error e
  | .ok completionTokenCost =>
      (getCostFromInfo llmInfos modelName promptTokens (str "price_per_1k_input_tokens")).map
        fun promptTokenCost => completionTokenCost.getD 0 + promptTokenCost.getD 0

/-- The prices of a model, where it has any, are numbers. -/
def PricesReadable (llmInfos : List (PyStr × Json)) (modelName : PyStr) : Prop :=
  (∃ price, modelPrice llmInfos modelName (str "price_per_1k_output_tokens") = .ok price) ∧
    ∃ price, modelPrice llmInfos modelName (str "price_per_1k_input_tokens") = .ok price

/-- Costs can be calculated where the prices can be read, for any number of tokens. -/
theorem exists_calculateTokenCosts_iff (llmInfos : List (PyStr × Json)) (modelName : PyStr)
    (completionTokens promptTokens : ℤ) :
    (∃ cost, calculateTokenCosts llmInfos modelName completionTokens promptTokens = .ok cost) ↔
      PricesReadable llmInfos modelName := by
  unfold calculateTokenCosts getCostFromInfo PricesReadable
  cases modelPrice llmInfos modelName (str "price_per_1k_output_tokens") <;>
    cases modelPrice llmInfos modelName (str "price_per_1k_input_tokens") <;> simp [Except.map]

/-! ## The handler -/

/-- What is counted for a model. -/
inductive TokenStat where
  | totalTokens
  | promptTokens
  | completionTokens
  | successfulRequests
  | emptyResponses
  deriving DecidableEq

/-- What a call used. -/
structure Usage where
  totalTokens : ℤ
  promptTokens : ℤ
  completionTokens : ℤ
  isEmptyResponse : Bool

/-- What a call adds to each number. -/
def Usage.stat (usage : Usage) : TokenStat → ℤ
  | .totalTokens => usage.totalTokens
  | .promptTokens => usage.promptTokens
  | .completionTokens => usage.completionTokens
  | .successfulRequests => 1
  | .emptyResponses => usage.isEmptyResponse.toInt

/-- The numbers of one model, and what its tokens cost. -/
structure ModelEntry where
  stats : TokenStat → ℤ
  totalCost : ℚ

/-- `_init_model_entry(model_name)`. -/
def ModelEntry.init : ModelEntry := ⟨fun _ => 0, 0⟩

/-- The numbers with those of one more call. -/
def ModelEntry.add (entry : ModelEntry) (usage : Usage) (totalCost : ℚ) : ModelEntry :=
  ⟨fun stat => entry.stats stat + usage.stat stat, entry.totalCost + totalCost⟩

/-- `CLASS_TABLE`. -/
def classTable : List (PyStr × PyStr) :=
  [(str "AzureChatOpenAI", str "azure-openai"), (str "ChatAnthropic", str "anthropic"),
    (str "ChatBedrock", str "bedrock"), (str "ChatGoogleGenerativeAI", str "gemini"),
    (str "ChatNVIDIA", str "nvidia"), (str "ChatOllama", str "ollama"),
    (str "ChatOpenAI", str "openai")]

/-- The provider of the models of a class: the class itself, if it is not in the table. -/
def providerOf (chatModelClass : PyStr) : PyStr :=
  ((classTable.find? fun entry => entry.1 = chatModelClass).map Prod.snd).getD chatModelClass

/-- `LlmTokenCallbackHandler`, of the calls of its own agent. -/
structure LlmTokenCallbackHandler where
  providerClass : Option PyStr
  modelsTokenDict : Dict PyStr (Dict PyStr ModelEntry)
  /-- The totals of the agent. -/
  totals : ModelEntry

namespace LlmTokenCallbackHandler

/-- `LlmTokenCallbackHandler(llm_infos)`. -/
def create : LlmTokenCallbackHandler := ⟨none, .empty, .init⟩

/-- `on_chat_model_start(serialized, messages)`, of the class of the model. -/
def onChatModelStart (handler : LlmTokenCallbackHandler) (chatModelClass : PyStr) :
    LlmTokenCallbackHandler :=
  let providerClass := providerOf chatModelClass
  { handler with
    providerClass := some providerClass
    modelsTokenDict :=
      if providerClass ∈ handler.modelsTokenDict then handler.modelsTokenDict
      else handler.modelsTokenDict.set providerClass .empty }

/-- `on_llm_end(response)`, of a response with the name of the model and its usage. Without
a start before it, it raises a `KeyError`. -/
def onLlmEnd (llmInfos : List (PyStr × Json)) (handler : LlmTokenCallbackHandler)
    (modelName : PyStr) (usage : Usage) : Except PyError LlmTokenCallbackHandler :=
  match calculateTokenCosts llmInfos modelName usage.completionTokens usage.promptTokens with
  | .error e => .error e
  | .ok totalCost =>
      match handler.providerClass with
      | none => .error .otherException
      | some providerClass =>
          match handler.modelsTokenDict.get? providerClass with
          | none => .error .otherException
          | some models =>
              let entry := (models.get? modelName).getD .init
              .ok { handler with
                modelsTokenDict := handler.modelsTokenDict.set providerClass
                  (models.set modelName (entry.add usage totalCost))
                totals := handler.totals.add usage totalCost }

/-- `models_token_dict[provider][model]`, or nothing counted. -/
def entry (handler : LlmTokenCallbackHandler) (provider model : PyStr) : ModelEntry :=
  ((handler.modelsTokenDict.get? provider).bind fun models => models.get? model).getD .init

/-- A start counts nothing, and its provider is there then. -/
theorem onChatModelStart_spec (handler : LlmTokenCallbackHandler) (chatModelClass : PyStr) :
    (handler.onChatModelStart chatModelClass).providerClass = some (providerOf chatModelClass) ∧
      providerOf chatModelClass ∈ (handler.onChatModelStart chatModelClass).modelsTokenDict ∧
      (handler.onChatModelStart chatModelClass).entry = handler.entry := by
  refine ⟨rfl, ?_, ?_⟩
  · show _ ∈ (if _ then _ else _ : Dict PyStr (Dict PyStr ModelEntry))
    split
    case isTrue hmem => exact hmem
    case isFalse hmem => exact Dict.mem_set.mpr (.inl rfl)
  · funext provider model
    unfold entry onChatModelStart
    dsimp only
    split
    · rfl
    · rename_i hmem
      rw [Dict.get?_set]
      by_cases hprovider : provider = providerOf chatModelClass
      · have hnone : handler.modelsTokenDict.get? provider = none := by
          rw [Option.eq_none_iff_forall_ne_some]
          intro models hmodels
          exact hmem (hprovider ▸ Dict.mem_of_get?_eq_some hmodels)
        rw [if_pos hprovider, hnone]
        rfl
      · rw [if_neg hprovider]

/-- An end is counted for the provider of the handler. -/
theorem onLlmEnd_spec {llmInfos : List (PyStr × Json)} {handler : LlmTokenCallbackHandler}
    {providerClass : PyStr} (hprovider : handler.providerClass = some providerClass)
    (hmem : providerClass ∈ handler.modelsTokenDict) (modelName : PyStr) (usage : Usage)
    (hprices : PricesReadable llmInfos modelName) :
    ∃ counted, handler.onLlmEnd llmInfos modelName usage = .ok counted ∧
      counted.providerClass = handler.providerClass ∧
      (∀ provider ∈ handler.modelsTokenDict, provider ∈ counted.modelsTokenDict) ∧
      ∀ provider model stat, (counted.entry provider model).stats stat =
        (handler.entry provider model).stats stat +
          if providerClass = provider ∧ modelName = model then usage.stat stat else 0 := by
  obtain ⟨cost, hcost⟩ := (exists_calculateTokenCosts_iff llmInfos modelName
    usage.completionTokens usage.promptTokens).mpr hprices
  obtain ⟨models, hmodels⟩ := Dict.exists_get?_of_mem hmem
  unfold onLlmEnd
  rw [hcost, hprovider]
  simp only [hmodels]
  refine ⟨_, rfl, rfl, fun provider h => Dict.mem_set.mpr (.inr h), ?_⟩
  intro provider model stat
  unfold entry
  dsimp only
  rw [Dict.get?_set]
  by_cases hp : provider = providerClass
  · subst hp
    rw [if_pos rfl, hmodels]
    simp only [Option.bind_some, Dict.get?_set]
    by_cases hm : model = modelName
    · subst hm
      simp [ModelEntry.add]
    · simp [hm, Ne.symm hm]
  · rw [if_neg hp, if_neg fun h => hp h.1.symm, add_zero]

/-! ## Overlapping calls -/

variable {n : Nat}

/-- The events of a call. -/
inductive Event (n : Nat) where
  | start (i : Fin n)
  | finish (i : Fin n)
  deriving DecidableEq

/-- An order of the events of calls: each of them starts once and ends once, later. -/
structure Interleaving (events : List (Event n)) : Prop where
  nodup : events.Nodup
  startsBefore : ∀ i, ∃ before between after,
    events = before ++ Event.start i :: (between ++ Event.finish i :: after)

/-- The call that was started last, after a call that was started before the events. -/
def lastStarted (last : Option (Fin n)) : List (Event n) → Option (Fin n)
  | [] => last
  | .start i :: rest => lastStarted (some i) rest
  | .finish _ :: rest => lastStarted last rest

/-- Whenever a call ends, the one that was started last has the same provider. -/
def Undisturbed (chatModelClasses : Fin n → PyStr) (events : List (Event n)) : Prop :=
  ∀ before i after, events = before ++ Event.finish i :: after →
    ∃ j, lastStarted none before = some j ∧
      providerOf (chatModelClasses j) = providerOf (chatModelClasses i)

section Runs

variable (llmInfos : List (PyStr × Json)) (chatModelClasses modelNames : Fin n → PyStr)
  (usages : Fin n → Usage)

/-- One event. -/
def step (handler : LlmTokenCallbackHandler) : Event n → Except PyError LlmTokenCallbackHandler
  | .start i => .ok (handler.onChatModelStart (chatModelClasses i))
  | .finish i => handler.onLlmEnd llmInfos (modelNames i) (usages i)

/-- The events, one after the other. -/
def run : LlmTokenCallbackHandler → List (Event n) → Except PyError LlmTokenCallbackHandler
  | handler, [] => .ok handler
  | handler, event :: rest =>
      match step llmInfos chatModelClasses modelNames usages handler event with
      | .error e => .error e
      | .ok next => run next rest

/-- No end raises, and after all events the numbers of every model are the sums of those of
the calls that used it. -/
def Attributed (events : List (Event n)) : Prop :=
  ∃ handler, run llmInfos chatModelClasses modelNames usages create events = .ok handler ∧
    ∀ provider model stat, (handler.entry provider model).stats stat =
      ∑ i, if providerOf (chatModelClasses i) = provider ∧ modelNames i = model then
        (usages i).stat stat else 0

end Runs

/-! ## Counts -/

section Counts

variable {llmInfos : List (PyStr × Json)} {chatModelClasses modelNames : Fin n → PyStr}
  {usages : Fin n → Usage}

/-- The ends among the events, each with the call that was started last before it. -/
def credits : Option (Fin n) → List (Event n) → List (Option (Fin n) × Fin n)
  | _, [] => []
  | _, .start i :: rest => credits (some i) rest
  | last, .finish i :: rest => (last, i) :: credits last rest

/-- Where the ends are among the events. -/
theorem mem_credits_iff {last : Option (Fin n)} {events : List (Event n)}
    {credit : Option (Fin n) × Fin n} :
    credit ∈ credits last events ↔ ∃ before after,
      events = before ++ Event.finish credit.2 :: after ∧ lastStarted last before = credit.1 := by
  induction events generalizing last with
  | nil =>
      constructor
      · exact fun h => absurd h List.not_mem_nil
      · rintro ⟨before, after, h, -⟩
        cases before <;> cases h
  | cons event rest ih =>
      cases event with
      | start i =>
          rw [credits, ih]
          constructor
          · rintro ⟨before, after, rfl, hlast⟩
            exact ⟨.start i :: before, after, rfl, hlast⟩
          · rintro ⟨before, after, hevents, hlast⟩
            cases before with
            | nil => cases hevents
            | cons first before =>
                obtain ⟨rfl, hrest⟩ := List.cons.inj hevents
                exact ⟨before, after, hrest, hlast⟩
      | finish i =>
          rw [credits, List.mem_cons, ih]
          constructor
          · rintro (rfl | ⟨before, after, rfl, hlast⟩)
            · exact ⟨[], rest, rfl, rfl⟩
            · exact ⟨.finish i :: before, after, rfl, hlast⟩
          · rintro ⟨before, after, hevents, hlast⟩
            cases before with
            | nil =>
                obtain ⟨hfinish, -⟩ := List.cons.inj hevents
                obtain rfl := Event.finish.inj hfinish
                exact .inl (Prod.ext hlast.symm rfl)
            | cons first before =>
                obtain ⟨rfl, hrest⟩ := List.cons.inj hevents
                exact .inr ⟨before, after, hrest, hlast⟩

theorem exists_lastStarted_of_mem {last : Option (Fin n)} {i : Fin n} {events : List (Event n)}
    (h : Event.start i ∈ events) : ∃ j, lastStarted last events = some j := by
  induction events generalizing last with
  | nil => cases h
  | cons event rest ih =>
      cases event with
      | finish k =>
          rw [lastStarted]
          exact ih ((List.mem_cons.mp h).resolve_left fun heq => by cases heq)
      | start k =>
          rw [lastStarted]
          by_cases hmem : Event.start i ∈ rest
          · exact ih hmem
          · have hstay : ∀ (events : List (Event n)) (last : Option (Fin n)),
                last ≠ none → ∃ j, lastStarted last events = some j := by
              intro events
              induction events with
              | nil => exact fun last hlast => Option.ne_none_iff_exists'.mp hlast
              | cons event rest ih =>
                  intro last hlast
                  cases event with
                  | start j => exact ih (some j) (Option.some_ne_none j)
                  | finish j => exact ih last hlast
            exact hstay rest (some k) (Option.some_ne_none k)

/-- The ends, in their order. -/
def finished : List (Event n) → List (Fin n)
  | [] => []
  | .start _ :: rest => finished rest
  | .finish i :: rest => i :: finished rest

theorem map_snd_credits (last : Option (Fin n)) (events : List (Event n)) :
    (credits last events).map Prod.snd = finished events := by
  induction events generalizing last with
  | nil => rfl
  | cons event rest ih =>
      cases event with
      | start i => exact ih (some i)
      | finish i => exact congrArg (i :: ·) (ih last)

theorem mem_finished_iff {i : Fin n} {events : List (Event n)} :
    i ∈ finished events ↔ Event.finish i ∈ events := by
  induction events with
  | nil => simp [finished]
  | cons event rest ih => cases event <;> simp [finished, ih]

theorem nodup_finished {events : List (Event n)} (h : events.Nodup) : (finished events).Nodup := by
  induction events with
  | nil => exact List.nodup_nil
  | cons event rest ih =>
      rw [List.nodup_cons] at h
      cases event with
      | start i => exact ih h.2
      | finish i => exact List.nodup_cons.mpr ⟨fun hi => h.1 (mem_finished_iff.mp hi), ih h.2⟩

theorem Interleaving.finished_perm {events : List (Event n)} (h : Interleaving events) :
    (finished events).Perm (List.finRange n) := by
  rw [List.perm_ext_iff_of_nodup (nodup_finished h.nodup) (List.nodup_finRange n)]
  intro i
  rw [mem_finished_iff]
  apply iff_of_true _ (List.mem_finRange i)
  obtain ⟨before, between, after, rfl⟩ := h.startsBefore i
  simp

/-- In an interleaving, a call was started before any end. -/
theorem Interleaving.credits_ne_none {events : List (Event n)} (h : Interleaving events)
    {credit : Option (Fin n) × Fin n} (hcredit : credit ∈ credits none events) :
    ∃ j, credit.1 = some j := by
  obtain ⟨before, after, hevents, hlast⟩ := mem_credits_iff.mp hcredit
  obtain ⟨before', between, after', hevents'⟩ := h.startsBefore credit.2
  have hnodup := h.nodup
  rw [hevents, List.nodup_middle, List.nodup_cons, List.mem_append, not_or] at hnodup
  have hbefore : before = before' ++ Event.start credit.2 :: between := by
    rw [← List.cons_append, ← List.append_assoc] at hevents'
    exact ((List.append_cons_inj_of_notMem hnodup.1.1 hnodup.1.2).mp
      (hevents'.symm.trans hevents).symm).1
  rw [← hlast, hbefore]
  exact exists_lastStarted_of_mem (List.mem_append_right _ List.mem_cons_self)

/-- A call that is counted for a provider and a model. -/
def creditOf (chatModelClasses modelNames : Fin n → PyStr) (usages : Fin n → Usage)
    (provider model : PyStr) (stat : TokenStat) (credit : Option (Fin n) × Fin n) : ℤ :=
  if credit.1.map (fun j => providerOf (chatModelClasses j)) = some provider ∧
      modelNames credit.2 = model then (usages credit.2).stat stat else 0

/-- Every end is counted for the provider of the call that was started last. -/
theorem run_counts (handler : LlmTokenCallbackHandler) (last : Option (Fin n))
    (events : List (Event n))
    (hprovider : handler.providerClass = last.map fun j => providerOf (chatModelClasses j))
    (hmem : ∀ provider, handler.providerClass = some provider →
      provider ∈ handler.modelsTokenDict)
    (hstarted : ∀ credit ∈ credits last events, ∃ j, credit.1 = some j)
    (hprices : ∀ i, Event.finish i ∈ events → PricesReadable llmInfos (modelNames i)) :
    ∃ counted, run llmInfos chatModelClasses modelNames usages handler events = .ok counted ∧
      ∀ provider model stat, (counted.entry provider model).stats stat =
        (handler.entry provider model).stats stat +
          ((credits last events).map
            (creditOf chatModelClasses modelNames usages provider model stat)).sum := by
  induction events generalizing handler last with
  | nil => exact ⟨handler, rfl, fun _ _ _ => by simp [credits]⟩
  | cons event rest ih =>
      have hrest : ∀ i, Event.finish i ∈ rest → PricesReadable llmInfos (modelNames i) :=
        fun i hi => hprices i (List.mem_cons_of_mem _ hi)
      cases event with
      | start i =>
          obtain ⟨hclass, hthere, hentry⟩ := handler.onChatModelStart_spec (chatModelClasses i)
          obtain ⟨counted, hrun, hcounts⟩ := ih (handler.onChatModelStart (chatModelClasses i))
            (some i) hclass (fun provider h => by
              rw [hclass] at h
              exact Option.some.inj h ▸ hthere) hstarted hrest
          refine ⟨counted, hrun, ?_⟩
          rw [hentry] at hcounts
          exact hcounts
      | finish i =>
          rw [credits, List.forall_mem_cons] at hstarted
          obtain ⟨⟨j, hj⟩, hothers⟩ := hstarted
          -- the credit goes to the call that was started last
          have hlast : last = some j := hj
          subst hlast
          obtain ⟨next, hnext, hclass, hkeeps, hadds⟩ := onLlmEnd_spec hprovider
            (hmem _ hprovider) (modelNames i) (usages i) (hprices i List.mem_cons_self)
          obtain ⟨counted, hrun, hcounts⟩ := ih next (some j) (hclass.trans hprovider)
            (fun provider h => hkeeps provider (hmem provider (hclass ▸ h))) hothers hrest
          refine ⟨counted, ?_, ?_⟩
          · have hstep : step llmInfos chatModelClasses modelNames usages handler (.finish i) =
                .ok next := hnext
            rw [run, hstep]
            exact hrun
          · intro provider model stat
            rw [hcounts, hadds, credits, List.map_cons, List.sum_cons, add_assoc]
            simp [creditOf]

/-- An end before which a call of another provider was started is counted for that. -/
theorem undisturbed_iff {events : List (Event n)} :
    Undisturbed chatModelClasses events ↔ ∀ credit ∈ credits none events, ∃ j,
      credit.1 = some j ∧
        providerOf (chatModelClasses j) = providerOf (chatModelClasses credit.2) := by
  constructor
  · intro h credit hcredit
    obtain ⟨before, after, hevents, hlast⟩ := mem_credits_iff.mp hcredit
    obtain ⟨j, hj, hsame⟩ := h before credit.2 after hevents
    exact ⟨j, hlast.symm.trans hj, hsame⟩
  · intro h before i after hevents
    exact h (lastStarted none before, i) (mem_credits_iff.mpr ⟨before, after, hevents, rfl⟩)

theorem Interleaving.sum_credits {events : List (Event n)} (h : Interleaving events)
    (f : Fin n → ℤ) : ((credits none events).map fun credit => f credit.2).sum = ∑ i, f i := by
  have hmap : (credits none events).map (fun credit => f credit.2) = (finished events).map f := by
    rw [← map_snd_credits none events, List.map_map]
    rfl
  rw [hmap, (h.finished_perm.map f).sum_eq, Fin.sum_univ_def]

/-- In a run that does not raise, the prices of the models can be read. -/
theorem prices_of_run {handler counted : LlmTokenCallbackHandler} {events : List (Event n)}
    (h : run llmInfos chatModelClasses modelNames usages handler events = .ok counted) {i : Fin n}
    (hi : Event.finish i ∈ events) : PricesReadable llmInfos (modelNames i) := by
  induction events generalizing handler with
  | nil => cases hi
  | cons event rest ih =>
      rw [run] at h
      cases hstep : step llmInfos chatModelClasses modelNames usages handler event with
      | error e =>
          rw [hstep] at h
          cases h
      | ok next =>
          rw [hstep] at h
          rcases List.mem_cons.mp hi with rfl | hi
          · have hend : handler.onLlmEnd llmInfos (modelNames i) (usages i) = .ok next := hstep
            rw [← exists_calculateTokenCosts_iff llmInfos (modelNames i)
              (usages i).completionTokens (usages i).promptTokens]
            unfold onLlmEnd at hend
            cases hcost : calculateTokenCosts llmInfos (modelNames i) (usages i).completionTokens
                (usages i).promptTokens with
            | error e =>
                rw [hcost] at hend
                cases hend
            | ok cost => exact ⟨cost, rfl⟩
          · exact ih h hi

/-- What is used by one call alone. -/
def usedBy (i : Fin n) (k : Fin n) : Usage := ⟨if k = i then 1 else 0, 0, 0, false⟩

/-- The numbers of a handler after all events of an interleaving. -/
theorem Interleaving.run_create {events : List (Event n)} (hevents : Interleaving events)
    (hprices : ∀ i, PricesReadable llmInfos (modelNames i)) :
    ∃ counted, run llmInfos chatModelClasses modelNames usages create events = .ok counted ∧
      ∀ provider model stat, (counted.entry provider model).stats stat =
        ((credits none events).map
          (creditOf chatModelClasses modelNames usages provider model stat)).sum := by
  obtain ⟨counted, hrun, hcounts⟩ := @run_counts _ llmInfos chatModelClasses modelNames usages
    create none events rfl (fun provider h => by cases h)
    (fun credit hcredit => hevents.credits_ne_none hcredit) (fun i _ => hprices i)
  refine ⟨counted, hrun, fun provider model stat => ?_⟩
  rw [hcounts]
  exact zero_add _

/-- The prices of all models can be read where all ends are counted. -/
theorem Interleaving.prices {events : List (Event n)} (hevents : Interleaving events)
    (h : Attributed llmInfos chatModelClasses modelNames usages events) (i : Fin n) :
    PricesReadable llmInfos (modelNames i) := by
  obtain ⟨handler, hok, -⟩ := h
  apply prices_of_run hok
  obtain ⟨before, between, after, rfl⟩ := hevents.startsBefore i
  simp

/-- What only one call used is lost to its model where that is counted for another. -/
theorem Interleaving.not_attributed {events : List (Event n)} (hevents : Interleaving events)
    {i j : Fin n} (hcredit : (some j, i) ∈ credits none events)
    (hother : providerOf (chatModelClasses j) ≠ providerOf (chatModelClasses i)) :
    ¬ Attributed llmInfos chatModelClasses modelNames (usedBy i) events := by
  intro h
  obtain ⟨counted, hrun, hcounts⟩ := @Interleaving.run_create _ llmInfos chatModelClasses
    modelNames (usedBy i) events hevents (hevents.prices h)
  obtain ⟨handler, hok, hsums⟩ := h
  obtain rfl := Except.ok.inj (hok.symm.trans hrun)
  have hsum := hsums (providerOf (chatModelClasses i)) (modelNames i) .totalTokens
  rw [hcounts] at hsum
  have hzero : ((credits none events).map (creditOf chatModelClasses modelNames (usedBy i)
      (providerOf (chatModelClasses i)) (modelNames i) .totalTokens)).sum = 0 := by
    apply List.sum_eq_zero
    intro value hvalue
    obtain ⟨other, hmem, rfl⟩ := List.mem_map.mp hvalue
    unfold creditOf
    by_cases hsame : other.2 = i
    · have hnodup : ((credits none events).map Prod.snd).Nodup := by
        rw [map_snd_credits]
        exact nodup_finished hevents.nodup
      obtain rfl := List.inj_on_of_nodup_map hnodup hmem hcredit hsame
      rw [if_neg]
      rintro ⟨hprovider, -⟩
      exact hother (Option.some.inj hprovider)
    · simp [usedBy, Usage.stat, hsame]
  have hone : (∑ k, if providerOf (chatModelClasses k) = providerOf (chatModelClasses i) ∧
      modelNames k = modelNames i then (usedBy i k).stat .totalTokens else 0) = (1 : ℤ) := by
    rw [Finset.sum_eq_single i]
    · simp [usedBy, Usage.stat]
    · intro k _ hk
      simp [usedBy, Usage.stat, hk]
    · exact fun hnot => absurd (Finset.mem_univ _) hnot
  rw [hzero, hone] at hsum
  cases hsum

end Counts

/-- **Attribution.** In an order of the starts and ends of calls, whatever they use is counted
for the models that used it exactly where the prices of these can be read and, whenever a
call ends, the call that was started last has the same provider. -/
theorem attributed_iff (llmInfos : List (PyStr × Json))
    (chatModelClasses modelNames : Fin n → PyStr)
    (events : List (Event n)) (hevents : Interleaving events) :
    (∀ usages, Attributed llmInfos chatModelClasses modelNames usages events) ↔
      Undisturbed chatModelClasses events ∧ ∀ i, PricesReadable llmInfos (modelNames i) := by
  constructor
  · intro h
    refine ⟨undisturbed_iff.mpr ?_, hevents.prices (h fun _ => ⟨0, 0, 0, false⟩)⟩
    rintro ⟨last, i⟩ hcredit
    obtain ⟨j, rfl⟩ : ∃ j, last = some j := hevents.credits_ne_none hcredit
    refine ⟨j, rfl, ?_⟩
    by_contra hother
    exact hevents.not_attributed hcredit hother (h (usedBy i))
  · rintro ⟨hundisturbed, hprices⟩ usages
    obtain ⟨counted, hok, hcounts⟩ := @Interleaving.run_create _ llmInfos chatModelClasses
      modelNames usages events hevents hprices
    refine ⟨counted, hok, fun provider model stat => ?_⟩
    rw [hcounts, ← hevents.sum_credits fun i =>
      if providerOf (chatModelClasses i) = provider ∧ modelNames i = model then
        (usages i).stat stat else 0]
    congr 1
    apply List.map_congr_left
    intro credit hcredit
    obtain ⟨j, hj, hsame⟩ := undisturbed_iff.mp hundisturbed credit hcredit
    unfold creditOf
    rw [hj, Option.map_some, hsame]
    simp

/-- Two calls at the same time. -/
def overlapping : List (Event 2) := [.start 0, .start 1, .finish 0, .finish 1]

theorem interleaving_overlapping : Interleaving overlapping where
  nodup := by decide
  startsBefore i := by
    fin_cases i
    · exact ⟨[], [.start 1], [.finish 1], rfl⟩
    · exact ⟨[.start 0], [.finish 0], [], rfl⟩

/-- Two calls of models of one provider. -/
theorem attributed_oneProvider :
    Attributed [] (fun _ : Fin 2 => str "ChatOpenAI") (fun _ => str "gpt-4o")
      (fun _ => ⟨3, 2, 1, false⟩) overlapping :=
  (attributed_iff [] (fun _ => str "ChatOpenAI") (fun _ => str "gpt-4o") overlapping
    interleaving_overlapping).mpr ⟨undisturbed_iff.mpr (by
      intro credit hcredit
      obtain ⟨j, hj⟩ := interleaving_overlapping.credits_ne_none hcredit
      exact ⟨j, hj, rfl⟩), fun _ => ⟨⟨none, rfl⟩, none, rfl⟩⟩ _

/-- Two calls of models of two providers: the first to end is counted for the other. -/
theorem twoProviders_misattributed :
    ¬ ∀ (n : Nat) (llmInfos : List (PyStr × Json)) (chatModelClasses modelNames : Fin n → PyStr)
      (usages : Fin n → Usage) (events : List (Event n)), Interleaving events →
      Attributed llmInfos chatModelClasses modelNames usages events := by
  intro h
  refine @Interleaving.not_attributed 2 [] ![str "ChatOpenAI", str "ChatAnthropic"]
    (fun _ => str "m") overlapping interleaving_overlapping 0 1 (by decide) ?_
    (h 2 [] _ _ _ overlapping interleaving_overlapping)
  decide +kernel

end LlmTokenCallbackHandler

end NoraFleet.Tokens
