import NoraFleet.Tokens.TokenCounter

/-!
# Every call is counted once

What an agent reports is well formed: dictionaries of providers, models and metrics
with numbers in them. Then the reporting of the request holds, for each metric of each
model, the sum over the agents that reported, and the totals beside it are the sums
over all models; the figures of the main network are the sums over its own agents.

* `counts_every_call_once` — the figures after any reports, in any order.
-/

namespace NoraFleet.Tokens

open Base

/-! ## Well-formed counts -/

/-- The name of a metric: the accounting has the other two names for itself. -/
abbrev Metric := { name : PyStr // name ≠ str "caveats" ∧ name ≠ str "models" }

/-- The metrics of a model. -/
abbrev Stats := Dict Metric ℚ

/-- Providers, their models, and the metrics of these. -/
abbrev ModelsTokenDict := Dict PyStr (Dict PyStr Stats)

namespace ModelsTokenDict

/-- The metrics of a model as they are reported. -/
def statsItems (stats : Stats) : Items := Nested.embed Subtype.val number stats

/-- The models of a provider as they are reported. -/
def modelItems (models : Dict PyStr Stats) : Items :=
  Nested.embed id (fun stats => .dict (statsItems stats)) models

/-- The dictionary as it is reported. -/
def toItems (models : ModelsTokenDict) : Items :=
  Nested.embed id (fun models => .dict (modelItems models)) models

/-- A metric of a model of a provider. -/
def metric? (models : ModelsTokenDict) (provider model : PyStr) (metric : Metric) : Option ℚ :=
  (models.get? provider).bind fun models =>
    (models.get? model).bind fun stats => stats.get? metric

/-- A metric summed over all models. -/
def total (models : ModelsTokenDict) (metric : Metric) : ℚ :=
  models.sumOf (Dict.sumOf fun stats => (stats.get? metric).getD 0)

/-- Whether a model has a metric. -/
def Has (models : ModelsTokenDict) (metric : Metric) : Prop :=
  ∃ provider model, (models.metric? provider model metric).isSome

/-- The counts of both. -/
def merge : ModelsTokenDict → ModelsTokenDict → ModelsTokenDict :=
  Dict.mergeWith (Dict.mergeWith (Dict.mergeWith (· + ·)))

theorem metric?_merge (a b : ModelsTokenDict) (provider model : PyStr) (metric : Metric) :
    (a.merge b).metric? provider model metric =
      Option.merge (· + ·) (a.metric? provider model metric) (b.metric? provider model metric) := by
  unfold metric? merge
  rw [Dict.get?_mergeWith]
  apply bind_merge
  intro models more
  rw [Dict.get?_mergeWith]
  apply bind_merge
  intro stats more
  exact Dict.get?_mergeWith stats more metric

theorem total_merge (a b : ModelsTokenDict) (metric : Metric) :
    (a.merge b).total metric = a.total metric + b.total metric := by
  refine Dict.sumOf_mergeWith (Dict.sumOf_mergeWith fun stats more => ?_) a b
  rw [Dict.get?_mergeWith, getD_merge_add]

theorem mergeDicts_toItems (a b : ModelsTokenDict) :
    mergeDicts a.toItems b.toItems = .ok (a.merge b).toItems := by
  refine Nested.mergeItems_embed Function.injective_id (fun models more => ?_) a b
  simp only [Nested.mergeValues]
  unfold modelItems
  rw [Nested.mergeItems_embed Function.injective_id fun stats more => ?_]
  · rfl
  simp only [Nested.mergeValues]
  unfold statsItems
  rw [Nested.mergeItems_embed Subtype.val_injective fun q more => ?_]
  · rfl
  · rfl

/-! ### The sum over all models -/

/-- The metrics of a model that are summed: all but the time. -/
def summable (stats : Stats) : Dict PyStr ℚ where
  items := (stats.items.map fun entry => (entry.1.val, entry.2)).filter
    fun entry => entry.1 ≠ timeTakenInSeconds
  nodup := by
    refine List.Nodup.sublist (List.filter_sublist.map Prod.fst) ?_
    rw [List.map_map]
    show (stats.items.map (Subtype.val ∘ Prod.fst)).Nodup
    rw [← List.map_map]
    exact stats.nodup.map Subtype.val_injective

theorem get?_summable (stats : Stats) {metric : Metric}
    (hmetric : metric.val ≠ timeTakenInSeconds) :
    (summable stats).get? metric.val = stats.get? metric := by
  apply Option.ext
  intro q
  rw [Dict.get?_eq_some_iff, Dict.get?_eq_some_iff]
  simp only [summable, List.mem_filter, List.mem_map, hmetric, ne_eq, not_false_eq_true,
    decide_true, and_true, Prod.mk.injEq]
  constructor
  · rintro ⟨entry, hmem, hname, rfl⟩
    rw [← Subtype.ext hname]
    exact hmem
  · intro hmem
    exact ⟨_, hmem, rfl, rfl⟩

/-- Nothing else is summed. -/
theorem get?_summable_eq_none (stats : Stats) {name : PyStr}
    (h : ∀ metric : Metric, metric.val ≠ timeTakenInSeconds → metric.val ≠ name) :
    (summable stats).get? name = none := by
  rw [Option.eq_none_iff_forall_ne_some]
  intro q hq
  rw [Dict.get?_eq_some_iff] at hq
  simp only [summable, List.mem_filter, List.mem_map, ne_eq, decide_eq_true_eq] at hq
  obtain ⟨⟨entry, -, hentry⟩, hname⟩ := hq
  cases hentry
  exact h entry.1 hname rfl

/-- The counts are added to what was summed so far. -/
def addAll (aggregated : Dict PyStr ℚ) (models : ModelsTokenDict) : Dict PyStr ℚ :=
  (models.items.flatMap fun entry => entry.2.items.map Prod.snd).foldl
    (fun aggregated stats => aggregated.mergeWith (· + ·) (summable stats)) aggregated

/-- The sums that the accounting starts from. -/
def zero : Dict PyStr ℚ := ⟨zeroTokenStats, by decide +kernel⟩

/-- What is summed, as it is reported. -/
def sumItems (sums : Dict PyStr ℚ) : Items := Nested.embed id number sums

theorem foldlM_addMetric (sums : Dict PyStr ℚ) (stats : Stats) :
    (statsItems stats).foldlM addMetric (sumItems sums) =
      .ok (sumItems (sums.mergeWith (· + ·) (summable stats))) := by
  have hfold : ∀ (entries : List (Metric × ℚ)) (sums : Dict PyStr ℚ),
      (entries.map fun entry => (entry.1.val, number entry.2)).foldlM addMetric (sumItems sums) =
        .ok (sumItems (((entries.map fun entry => (entry.1.val, entry.2)).filter
          fun entry => entry.1 ≠ timeTakenInSeconds).foldl (Dict.mergeEntry (· + ·)) sums)) := by
    intro entries
    induction entries with
    | nil =>
        intro sums
        rfl
    | cons entry rest ih =>
        intro sums
        rw [List.map_cons, List.map_cons, List.foldlM_cons, List.filter_cons]
        by_cases htime : entry.1.val = timeTakenInSeconds
        · simp only [addMetric, htime, ne_eq, not_true_eq_false, decide_false]
          exact ih sums
        · have hadd : addMetric (sumItems sums) (entry.1.val, number entry.2) =
              .ok (sumItems (Dict.mergeEntry (· + ·) sums (entry.1.val, entry.2))) := by
            have hlookup : Nested.lookup (sumItems sums) entry.1.val =
                (sums.get? entry.1.val).map number :=
              Nested.lookup_embed Function.injective_id sums entry.1.val
            unfold addMetric Dict.mergeEntry
            rw [if_neg htime, hlookup]
            cases sums.get? entry.1.val with
            | none =>
                show Except.ok _ = _
                rw [zero_add]
                exact congrArg _ (Nested.setItems_embed Function.injective_id sums _ _)
            | some held =>
                exact congrArg _ (Nested.setItems_embed Function.injective_id sums _ _)
          simp only [hadd, htime, ne_eq, not_false_eq_true, decide_true, if_true,
            List.foldl_cons]
          exact ih _
  exact hfold stats.items sums

theorem foldlM_addModels (sums : Dict PyStr ℚ) (models : ModelsTokenDict) :
    models.toItems.foldlM addModels (sumItems sums) = .ok (sumItems (addAll sums models)) := by
  have hadd : ∀ (sums : Dict PyStr ℚ) (entry : PyStr × Dict PyStr Stats),
      addModels (sumItems sums) (entry.1, .dict (modelItems entry.2)) =
        .ok (sumItems ((entry.2.items.map Prod.snd).foldl
          (fun sums stats => sums.mergeWith (· + ·) (summable stats)) sums)) := by
    intro sums entry
    rw [List.foldl_map]
    apply foldlM_map_eq_ok
    intro sums entry
    exact foldlM_addMetric sums entry.2
  unfold addAll
  rw [List.foldl_flatMap]
  exact foldlM_map_eq_ok hadd models.items sums

/-- The sums over all models, with the time. -/
theorem sumAllTokens_toItems (models : ModelsTokenDict) (timeValue : Value) :
    sumAllTokens models.toItems timeValue =
      .ok (Dict.setItems (sumItems (addAll zero models)) timeTakenInSeconds timeValue) := by
  have hfold : models.toItems.foldlM addModels (zeroTokenStats.map fun e => (e.1, number e.2)) =
      .ok (sumItems (addAll zero models)) := foldlM_addModels zero models
  unfold sumAllTokens
  rw [hfold]

theorem get?_foldl_summable (name : PyStr) (all : List Stats) (sums : Dict PyStr ℚ) :
    let result := all.foldl (fun sums stats => sums.mergeWith (· + ·) (summable stats)) sums
    ((result.get? name).isSome ↔
        (sums.get? name).isSome ∨ ∃ stats ∈ all, ((summable stats).get? name).isSome) ∧
      (result.get? name).getD 0 = (sums.get? name).getD 0 +
        (all.map fun stats => ((summable stats).get? name).getD 0).sum := by
  induction all generalizing sums with
  | nil => simp
  | cons stats rest ih =>
      obtain ⟨hisSome, hgetD⟩ := ih (sums.mergeWith (· + ·) (summable stats))
      simp only [Dict.get?_mergeWith, isSome_merge, Bool.or_eq_true] at hisSome
      simp only [Dict.get?_mergeWith, getD_merge_add] at hgetD
      constructor
      · simp only [List.foldl_cons, hisSome, List.mem_cons, exists_eq_or_imp, or_assoc]
      · simp only [List.foldl_cons, hgetD, List.map_cons, List.sum_cons, add_assoc]

/-- The models of all providers. -/
theorem mem_stats_iff (models : ModelsTokenDict) (stats : Stats) :
    (stats ∈ models.items.flatMap fun entry => entry.2.items.map Prod.snd) ↔
      ∃ provider model, (models.get? provider).bind (fun models => models.get? model) =
        some stats := by
  simp only [List.mem_flatMap, List.mem_map, Option.bind_eq_some_iff, Dict.get?_eq_some_iff]
  constructor
  · rintro ⟨entry, hentry, inner, hinner, rfl⟩
    exact ⟨entry.1, inner.1, entry.2, hentry, hinner⟩
  · rintro ⟨provider, model, inner, hentry, hinner⟩
    exact ⟨_, hentry, _, hinner, rfl⟩

theorem total_eq (models : ModelsTokenDict) (metric : Metric) :
    models.total metric =
      ((models.items.flatMap fun entry => entry.2.items.map Prod.snd).map fun stats =>
        (stats.get? metric).getD 0).sum := by
  show (models.items.map fun entry => (entry.2.items.map fun inner =>
    (inner.2.get? metric).getD 0).sum).sum = _
  rw [List.map_flatMap, List.flatMap_def, List.sum_flatten, List.map_map]
  congr 1
  refine List.map_congr_left fun entry _ => ?_
  simp only [Function.comp_apply, List.map_map]
  rfl

/-- A metric is summed over all models. -/
theorem get?_addAll (sums : Dict PyStr ℚ) (models : ModelsTokenDict) {metric : Metric}
    (hmetric : metric.val ≠ timeTakenInSeconds) :
    (((addAll sums models).get? metric.val).isSome ↔
        (sums.get? metric.val).isSome ∨ models.Has metric) ∧
      ((addAll sums models).get? metric.val).getD 0 =
        (sums.get? metric.val).getD 0 + models.total metric := by
  obtain ⟨hisSome, hgetD⟩ := get?_foldl_summable metric.val
    (models.items.flatMap fun entry => entry.2.items.map Prod.snd) sums
  constructor
  · refine hisSome.trans (or_congr_right ?_)
    simp only [get?_summable _ hmetric, mem_stats_iff, Has, metric?]
    constructor
    · rintro ⟨stats, ⟨provider, model, hstats⟩, hsome⟩
      refine ⟨provider, model, ?_⟩
      rw [← Option.bind_assoc, hstats]
      exact hsome
    · rintro ⟨provider, model, hsome⟩
      rw [← Option.bind_assoc] at hsome
      obtain ⟨q, hq⟩ := Option.isSome_iff_exists.mp hsome
      obtain ⟨stats, hstats, hget⟩ := Option.bind_eq_some_iff.mp hq
      exact ⟨stats, ⟨provider, model, hstats⟩, Option.isSome_iff_exists.mpr ⟨q, hget⟩⟩
  · refine hgetD.trans (congrArg _ ?_)
    simp only [get?_summable _ hmetric, total_eq]

/-- What is no metric that is summed keeps its value. -/
theorem get?_addAll_of_ne (sums : Dict PyStr ℚ) (models : ModelsTokenDict) {name : PyStr}
    (h : ∀ metric : Metric, metric.val ≠ timeTakenInSeconds → metric.val ≠ name) :
    (addAll sums models).get? name = sums.get? name := by
  obtain ⟨hisSome, hgetD⟩ := get?_foldl_summable name
    (models.items.flatMap fun entry => entry.2.items.map Prod.snd) sums
  apply option_eq_of_isSome_of_getD
  · unfold addAll
    simpa [get?_summable_eq_none _ h] using hisSome
  · unfold addAll
    simpa [get?_summable_eq_none _ h] using hgetD

theorem get?_zero (name : PyStr) :
    ((zero.get? name).isSome ↔ name ∈ zeroTokenStats.map Prod.fst) ∧
      (zero.get? name).getD 0 = 0 := by
  constructor
  · constructor
    · intro h
      obtain ⟨q, hq⟩ := Option.isSome_iff_exists.mp h
      exact Dict.mem_of_get?_eq_some hq
    · intro h
      obtain ⟨q, hq⟩ := Dict.exists_get?_of_mem (d := zero) h
      exact Option.isSome_iff_exists.mpr ⟨q, hq⟩
  · cases hget : zero.get? name with
    | none => rfl
    | some q =>
        have hmem : (name, q) ∈ zeroTokenStats := Dict.get?_eq_some_iff.mp hget
        simp only [zeroTokenStats, List.mem_cons, Prod.mk.injEq, List.not_mem_nil, or_false] at hmem
        rcases hmem with h | h | h | h | h | h <;> exact h.2

end ModelsTokenDict

/-! ## Runs -/

/-- The report of an agent of a request. -/
structure Scope (root : InvocationContext) where
  context : InvocationContext
  ofRequest : root.Of context
  origin : Option Nat
  models : ModelsTokenDict
  totalTokens : ℚ
  timeTaken : ℚ

variable {root : InvocationContext}

/-- The agent is one of the main network. -/
def Scope.isMain (scope : Scope root) : Bool := !scope.context.cloned

/-- The report of an agent changes the dictionary of its context. -/
def Scope.report (strOf : ℚ → PyStr) (heap : Nat → Items) (scope : Scope root) :
    Except PyError (Nat → Items) :=
  (LangChainTokenCounter.report strOf ⟨scope.context, scope.origin⟩
    ⟨scope.models.toItems, scope.totalTokens⟩ scope.timeTaken
    (heap scope.context.requestReporting)).map
    (Function.update heap scope.context.requestReporting)

/-- The reports one after the other, from an empty dictionary of the request. -/
def reportAll (strOf : ℚ → PyStr) (heap : Nat → Items) (scopes : List (Scope root)) :
    Except PyError (Nat → Items) :=
  scopes.foldlM (Scope.report strOf) (Function.update heap root.requestReporting [])

/-- The number under a key. -/
def figure? (items : Items) (name : PyStr) : Option ℚ :=
  match Nested.lookup items name with
  | some (.leaf (.number q)) => some q
  | _ => none

/-- Where the reporting has the figures: those of the request with its models, and those
of the main network. -/
structure Accounts (reporting total main : Items) (models : ModelsTokenDict) : Prop where
  hasTotal : Nested.lookup reporting (str "total_token_accounting") = some (.dict total)
  hasModels : Nested.lookup total (str "models") = some (.dict models.toItems)
  hasMain : Nested.lookup reporting (str "token_accounting") = some (.dict main)

/-- Each metric of a model is the sum over the reports, and so is its total. -/
structure CountsModels (models : ModelsTokenDict) (scopes : List (Scope root)) : Prop where
  isSome : ∀ provider model metric, ((models.metric? provider model metric).isSome ↔
    ∃ scope ∈ scopes, (scope.models.metric? provider model metric).isSome)
  sums : ∀ provider model metric, (models.metric? provider model metric).getD 0 =
    (scopes.map fun scope => (scope.models.metric? provider model metric).getD 0).sum
  totals : ∀ metric, models.total metric =
    (scopes.map fun scope => scope.models.total metric).sum

/-- Each total is the sum over the models; the standard metrics are there. -/
def CountsTotal (total : Items) (models : ModelsTokenDict) : Prop :=
  ∀ metric : Metric, metric.val ≠ timeTakenInSeconds →
    ((figure? total metric.val).isSome ↔
      metric.val ∈ zeroTokenStats.map Prod.fst ∨ models.Has metric) ∧
    (figure? total metric.val).getD 0 = models.total metric

/-- Each figure of the main network is the sum over the reports of its own agents; the
standard metrics are there. -/
def CountsMain (main : Items) (scopes : List (Scope root)) : Prop :=
  ∀ metric : Metric, metric.val ≠ timeTakenInSeconds →
    ((figure? main metric.val).isSome ↔
      metric.val ∈ zeroTokenStats.map Prod.fst ∨
        ∃ scope ∈ scopes, scope.isMain ∧ scope.models.Has metric) ∧
    (figure? main metric.val).getD 0 =
      ((scopes.filter Scope.isMain).map fun scope => scope.models.total metric).sum

/-! ### One report -/

theorem figure?_eq {items : Items} {name : PyStr} {q : Option ℚ}
    (h : Nested.lookup items name = q.map number) : figure? items name = q := by
  unfold figure?
  rw [h]
  cases q <;> rfl

theorem lookup_sumItems (sums : Dict PyStr ℚ) (name : PyStr) :
    Nested.lookup (ModelsTokenDict.sumItems sums) name = (sums.get? name).map number :=
  Nested.lookup_embed Function.injective_id sums name

theorem CountsModels.report {models : ModelsTokenDict} {scopes : List (Scope root)}
    (h : CountsModels models scopes) (scope : Scope root) :
    CountsModels (models.merge scope.models) (scopes ++ [scope]) := by
  constructor
  · intro provider model metric
    rw [ModelsTokenDict.metric?_merge]
    simp only [isSome_merge, Bool.or_eq_true, h.isSome, List.mem_append, List.mem_singleton,
      or_and_right, exists_or, exists_eq_left]
  · intro provider model metric
    rw [ModelsTokenDict.metric?_merge]
    simp [h.sums]
  · intro metric
    rw [ModelsTokenDict.total_merge]
    simp [h.totals]

/-- The figures of the request that are written for the models. -/
def networkItems (models : ModelsTokenDict) (totalTime : Value) : Items :=
  Dict.setItems
    (Dict.setItems
      (Dict.setItems
        (ModelsTokenDict.sumItems (ModelsTokenDict.addAll ModelsTokenDict.zero models))
        timeTakenInSeconds totalTime)
      (str "caveats") (texts (totalCaveat :: commonCaveats)))
    (str "models") (.dict models.toItems)

theorem accountTotal_eq (scope : Scope root) {total : Items} {models : ModelsTokenDict}
    (hmodels : getDict total (str "models") = .ok models.toItems) :
    ∃ totalTime, LangChainTokenCounter.accountTotal ⟨scope.context, scope.origin⟩
        ⟨scope.models.toItems, scope.totalTokens⟩ scope.timeTaken total =
      .ok (networkItems (models.merge scope.models) totalTime) := by
  unfold LangChainTokenCounter.accountTotal
  simp only [hmodels, ModelsTokenDict.mergeDicts_toItems, ModelsTokenDict.sumAllTokens_toItems]
  exact ⟨_, rfl⟩

theorem lookup_networkItems (models : ModelsTokenDict) (totalTime : Value) {metric : Metric}
    (hmetric : metric.val ≠ timeTakenInSeconds) :
    Nested.lookup (networkItems models totalTime) metric.val =
      ((ModelsTokenDict.addAll ModelsTokenDict.zero models).get? metric.val).map number := by
  unfold networkItems
  rw [Nested.lookup_setItems, if_neg metric.property.2, Nested.lookup_setItems,
    if_neg metric.property.1, Nested.lookup_setItems, if_neg hmetric, lookup_sumItems]

theorem networkItems_models (models : ModelsTokenDict) (totalTime : Value) :
    Nested.lookup (networkItems models totalTime) (str "models") = some (.dict models.toItems) := by
  unfold networkItems
  rw [Nested.lookup_setItems, if_pos rfl]

theorem networkItems_caveats (models : ModelsTokenDict) (totalTime : Value) :
    Nested.lookup (networkItems models totalTime) (str "caveats") =
      some (texts (totalCaveat :: commonCaveats)) := by
  have hne : str "caveats" ≠ str "models" := by decide +kernel
  unfold networkItems
  rw [Nested.lookup_setItems, if_neg hne, Nested.lookup_setItems, if_pos rfl]

/-- The standard metrics are there. -/
theorem networkItems_standard (models : ModelsTokenDict) (totalTime : Value) {metric : Metric}
    (hmetric : metric.val ≠ timeTakenInSeconds)
    (hstandard : metric.val ∈ zeroTokenStats.map Prod.fst) :
    ∃ q, Nested.lookup (networkItems models totalTime) metric.val = some (number q) := by
  obtain ⟨hisSome, -⟩ := ModelsTokenDict.get?_addAll ModelsTokenDict.zero models hmetric
  obtain ⟨q, hq⟩ := Option.isSome_iff_exists.mp
    (hisSome.mpr (.inl ((ModelsTokenDict.get?_zero _).1.mpr hstandard)))
  refine ⟨q, ?_⟩
  rw [lookup_networkItems models totalTime hmetric, hq]
  rfl

/-- Whatever the caveats say, the figures are the sums over the models. -/
theorem countsTotal_of_lookup {models : ModelsTokenDict} {totalTime : Value} {total : Items}
    (h : ∀ name, name ≠ str "caveats" →
      Nested.lookup total name = Nested.lookup (networkItems models totalTime) name) :
    CountsTotal total models := by
  intro metric hmetric
  have hfigure : figure? total metric.val =
      (ModelsTokenDict.addAll ModelsTokenDict.zero models).get? metric.val := by
    apply figure?_eq
    rw [h _ metric.property.1, lookup_networkItems models totalTime hmetric]
  obtain ⟨hisSome, hgetD⟩ := ModelsTokenDict.get?_addAll ModelsTokenDict.zero models hmetric
  rw [hfigure]
  constructor
  · rw [hisSome, (ModelsTokenDict.get?_zero _).1]
  · rw [hgetD, (ModelsTokenDict.get?_zero _).2, zero_add]

/-- The front man's note changes only the caveats. -/
theorem noteUnattributed_ok (strOf : ℚ → PyStr) (callback : Callback) {total : Items} {q : ℚ}
    {lines : List PyStr} (htokens : Nested.lookup total (str "total_tokens") = some (number q))
    (hcaveats : Nested.lookup total (str "caveats") = some (texts lines)) :
    ∃ noted, LangChainTokenCounter.noteUnattributed strOf callback total = .ok noted ∧
      ∀ name, name ≠ str "caveats" → Nested.lookup noted name = Nested.lookup total name := by
  unfold LangChainTokenCounter.noteUnattributed
  rw [htokens]
  show ∃ noted, (if 0 < callback.totalTokens - q then _ else _) = _ ∧ _
  by_cases hmore : 0 < callback.totalTokens - q
  · rw [if_pos hmore, hcaveats]
    refine ⟨_, rfl, fun name hname => ?_⟩
    rw [Nested.lookup_setItems, if_neg hname]
  · rw [if_neg hmore]
    exact ⟨total, rfl, fun name _ => rfl⟩

/-- The figures of the main network while the reports come in: nothing at first. -/
structure RunningMain (main : Items) (scopes : List (Scope root)) : Prop where
  numbers : ∀ name, name ≠ str "caveats" →
    Nested.lookup main name = (figure? main name).map number
  isSome : ∀ metric : Metric, metric.val ≠ timeTakenInSeconds →
    ((figure? main metric.val).isSome ↔
      (main ≠ [] ∧ metric.val ∈ zeroTokenStats.map Prod.fst) ∨
        ∃ scope ∈ scopes, scope.isMain ∧ scope.models.Has metric)
  sums : ∀ metric : Metric, metric.val ≠ timeTakenInSeconds →
    (figure? main metric.val).getD 0 =
      ((scopes.filter Scope.isMain).map fun scope => scope.models.total metric).sum

theorem RunningMain.counts {main : Items} {scopes : List (Scope root)}
    (h : RunningMain main scopes) (hmain : main ≠ []) : CountsMain main scopes := by
  intro metric hmetric
  constructor
  · rw [h.isSome metric hmetric]
    simp only [hmain, ne_eq, not_false_eq_true, true_and]
  · exact h.sums metric hmetric

theorem ne_nil_of_lookup {items : Items} {name : PyStr} {value : Value}
    (h : Nested.lookup items name = some value) : items ≠ [] := by
  rintro rfl
  cases h

/-- What is stamped on the figures of the main network, beside the metrics. -/
theorem stamped_figure? (items : Items) (timeTaken : ℚ) (lines : List PyStr) {metric : Metric}
    (hmetric : metric.val ≠ timeTakenInSeconds) :
    figure? (Dict.setItems (Dict.setItems items timeTakenInSeconds (number timeTaken))
      (str "caveats") (texts lines)) metric.val = figure? items metric.val := by
  unfold figure?
  rw [Nested.lookup_setItems, if_neg metric.property.1, Nested.lookup_setItems, if_neg hmetric]

theorem stamped_numbers {items : Items} (timeTaken : ℚ) (lines : List PyStr)
    (h : ∀ name, name ≠ str "caveats" →
      Nested.lookup items name = (figure? items name).map number) (name : PyStr)
    (hname : name ≠ str "caveats") :
    let stamped := Dict.setItems (Dict.setItems items timeTakenInSeconds (number timeTaken))
      (str "caveats") (texts lines)
    Nested.lookup stamped name = (figure? stamped name).map number := by
  intro stamped
  have hlookup : Nested.lookup stamped name =
      if name = timeTakenInSeconds then some (number timeTaken) else Nested.lookup items name := by
    show Nested.lookup (Dict.setItems _ _ _) name = _
    rw [Nested.lookup_setItems, if_neg hname, Nested.lookup_setItems]
  unfold figure?
  rw [hlookup]
  by_cases htime : name = timeTakenInSeconds
  · rw [if_pos htime]
    rfl
  · rw [if_neg htime]
    exact h name hname

theorem zero_caveats : ModelsTokenDict.zero.get? (str "caveats") = none := by decide +kernel

theorem time_ne_caveats : timeTakenInSeconds ≠ str "caveats" := by decide +kernel

/-- The figures of the main network after a report of one of its own agents: the sums
of what it used are added. -/
theorem accountMain_of_main (scope : Scope root) (hscope : scope.isMain = true) {main : Items}
    (hnumbers : ∀ name, name ≠ str "caveats" →
      Nested.lookup main name = (figure? main name).map number) :
    ∃ merged, LangChainTokenCounter.accountMain ⟨scope.context, scope.origin⟩
        ⟨scope.models.toItems, scope.totalTokens⟩ scope.timeTaken main =
      .ok (Dict.setItems (Dict.setItems merged timeTakenInSeconds (number scope.timeTaken))
        (str "caveats") (texts (mainNetworkCaveat :: commonCaveats))) ∧
      ∀ name, name ≠ str "caveats" → Nested.lookup merged name =
        (Option.merge (· + ·) (figure? main name)
          (((ModelsTokenDict.addAll ModelsTokenDict.zero scope.models).set timeTakenInSeconds
            scope.timeTaken).get? name)).map number := by
  generalize hsums : ModelsTokenDict.addAll ModelsTokenDict.zero scope.models = sums
  have hcaveats : sums.get? (str "caveats") = none := by
    rw [← hsums, ModelsTokenDict.get?_addAll_of_ne]
    · exact zero_caveats
    · intro metric _
      exact metric.property.1
  have habsent : ∀ name ∈ sums.set timeTakenInSeconds scope.timeTaken, name ≠ str "caveats" := by
    intro name hname heq
    obtain ⟨q, hq⟩ := Dict.exists_get?_of_mem hname
    rw [heq, Dict.get?_set, if_neg (Ne.symm time_ne_caveats), hcaveats] at hq
    cases hq
  have hadd : ∀ a b, Nested.mergeValues Entry.plus .typeError (number a) (number b) =
      .ok (number (a + b)) := fun a b => rfl
  obtain ⟨merged, hmerged, hlookup⟩ := Nested.mergeItems_onto hadd main (figure? main)
    (sums.set timeTakenInSeconds scope.timeTaken) fun name hname =>
      hnumbers name (habsent name hname)
  refine ⟨merged, ?_, fun name hname => ?_⟩
  · have hcontribution : Dict.setItems (ModelsTokenDict.sumItems sums) timeTakenInSeconds
        (number scope.timeTaken) =
          Nested.embed id number (sums.set timeTakenInSeconds scope.timeTaken) :=
      Nested.setItems_embed Function.injective_id sums timeTakenInSeconds scope.timeTaken
    have hcloned : (!scope.context.cloned) = true := hscope
    unfold LangChainTokenCounter.accountMain
    simp only [hcloned, if_true, ModelsTokenDict.sumAllTokens_toItems, hsums, hcontribution,
      mergeDicts, hmerged]
  · rw [hlookup]
    by_cases hmem : name ∈ sums.set timeTakenInSeconds scope.timeTaken
    · rw [if_pos hmem]
    · have hnone : (sums.set timeTakenInSeconds scope.timeTaken).get? name = none := by
        rw [Option.eq_none_iff_forall_ne_some]
        intro q hq
        exact hmem (Dict.mem_of_get?_eq_some hq)
      rw [if_neg hmem, hnone, hnumbers name hname]
      cases figure? main name <;> rfl

theorem RunningMain.report_main {main : Items} {scopes : List (Scope root)}
    (h : RunningMain main scopes) (scope : Scope root) (hscope : scope.isMain = true) :
    ∃ main', LangChainTokenCounter.accountMain ⟨scope.context, scope.origin⟩
        ⟨scope.models.toItems, scope.totalTokens⟩ scope.timeTaken main = .ok main' ∧
      RunningMain main' (scopes ++ [scope]) ∧ main' ≠ [] := by
  obtain ⟨merged, hmerged, hlookup⟩ := accountMain_of_main scope hscope h.numbers
  have hfigure : ∀ name, name ≠ str "caveats" → figure? merged name =
      Option.merge (· + ·) (figure? main name)
        (((ModelsTokenDict.addAll ModelsTokenDict.zero scope.models).set timeTakenInSeconds
          scope.timeTaken).get? name) := fun name hname => figure?_eq (hlookup name hname)
  have hstamped : ∀ metric : Metric, metric.val ≠ timeTakenInSeconds →
      figure? (Dict.setItems (Dict.setItems merged timeTakenInSeconds (number scope.timeTaken))
        (str "caveats") (texts (mainNetworkCaveat :: commonCaveats))) metric.val =
      Option.merge (· + ·) (figure? main metric.val)
        ((ModelsTokenDict.addAll ModelsTokenDict.zero scope.models).get? metric.val) := by
    intro metric hmetric
    rw [stamped_figure? _ _ _ hmetric, hfigure _ metric.property.1, Dict.get?_set,
      if_neg hmetric]
  have hne : Dict.setItems (Dict.setItems merged timeTakenInSeconds (number scope.timeTaken))
      (str "caveats") (texts (mainNetworkCaveat :: commonCaveats)) ≠ [] := by
    apply ne_nil_of_lookup
    rw [Nested.lookup_setItems, if_pos rfl]
  refine ⟨_, hmerged, ⟨stamped_numbers _ _ fun name hname => ?_, fun metric hmetric => ?_,
    fun metric hmetric => ?_⟩, hne⟩
  · rw [hfigure name hname]
    exact hlookup name hname
  · obtain ⟨hisSome, -⟩ := ModelsTokenDict.get?_addAll ModelsTokenDict.zero scope.models hmetric
    rw [hstamped metric hmetric, isSome_merge, Bool.or_eq_true, h.isSome metric hmetric, hisSome,
      (ModelsTokenDict.get?_zero _).1]
    simp only [hne, ne_eq, not_false_eq_true, true_and, List.mem_append, List.mem_singleton,
      or_and_right, exists_or, exists_eq_left, hscope]
    constructor
    · rintro ((⟨-, hstandard⟩ | hbefore) | hstandard | hhas)
      · exact .inl hstandard
      · exact .inr (.inl hbefore)
      · exact .inl hstandard
      · exact .inr (.inr hhas)
    · rintro (hstandard | hbefore | hhas)
      · exact .inr (.inl hstandard)
      · exact .inl (.inr hbefore)
      · exact .inr (.inr hhas)
  · obtain ⟨-, hgetD⟩ := ModelsTokenDict.get?_addAll ModelsTokenDict.zero scope.models hmetric
    rw [hstamped metric hmetric, getD_merge_add, h.sums metric hmetric, hgetD,
      (ModelsTokenDict.get?_zero _).2, zero_add, List.filter_append, List.map_append,
      List.sum_append]
    simp [hscope]

/-- A report of an agent of another network changes nothing, except that the first one
writes the zeros. -/
theorem RunningMain.report_cloned {main : Items} {scopes : List (Scope root)}
    (h : RunningMain main scopes) (scope : Scope root) (hscope : scope.isMain = false) :
    ∃ main', LangChainTokenCounter.accountMain ⟨scope.context, scope.origin⟩
        ⟨scope.models.toItems, scope.totalTokens⟩ scope.timeTaken main = .ok main' ∧
      RunningMain main' (scopes ++ [scope]) ∧ main' ≠ [] := by
  have hcloned : (!scope.context.cloned) = false := hscope
  have hother : ∀ metric : Metric,
      (∃ s ∈ scopes ++ [scope], s.isMain ∧ s.models.Has metric) ↔
        ∃ s ∈ scopes, s.isMain ∧ s.models.Has metric := by
    intro metric
    simp [or_and_right, exists_or, hscope]
  have hfilter : (scopes ++ [scope]).filter Scope.isMain = scopes.filter Scope.isMain := by
    simp [List.filter_append, hscope]
  unfold LangChainTokenCounter.accountMain
  simp only [hcloned, Bool.false_eq_true, if_false]
  cases main with
  | cons item rest =>
      refine ⟨item :: rest, rfl, ⟨h.numbers, fun metric hmetric => ?_, fun metric hmetric => ?_⟩,
        List.cons_ne_nil _ _⟩
      · rw [hother]
        exact h.isSome metric hmetric
      · rw [hfilter]
        exact h.sums metric hmetric
  | nil =>
      -- the first report of all: zeros are put in, and nothing of its own
      have hzero : sumAllTokens [] (number 0) = .ok (Dict.setItems
          (ModelsTokenDict.sumItems ModelsTokenDict.zero) timeTakenInSeconds (number 0)) := rfl
      have hfigure : ∀ name, figure? (ModelsTokenDict.sumItems ModelsTokenDict.zero) name =
          ModelsTokenDict.zero.get? name := fun name => figure?_eq (lookup_sumItems _ name)
      have hne : Dict.setItems (Dict.setItems
          (ModelsTokenDict.sumItems ModelsTokenDict.zero) timeTakenInSeconds (number 0))
            (str "caveats") (texts (mainNetworkCaveat :: commonCaveats)) ≠ [] := by
        apply ne_nil_of_lookup
        rw [Nested.lookup_setItems, if_pos rfl]
      rw [hzero]
      refine ⟨_, rfl, ⟨stamped_numbers _ _ fun name hname => ?_, fun metric hmetric => ?_,
        fun metric hmetric => ?_⟩, hne⟩
      · rw [hfigure]
        exact lookup_sumItems _ name
      · have hnone : ¬ ∃ s ∈ scopes, s.isMain ∧ s.models.Has metric := by
          intro hsome
          have habsurd := (h.isSome metric hmetric).mpr (.inr hsome)
          cases habsurd
        rw [hother, stamped_figure? _ _ _ hmetric, hfigure, (ModelsTokenDict.get?_zero _).1]
        simp only [hne, hnone, ne_eq, not_false_eq_true, true_and, or_false]
      · have hsum := h.sums metric hmetric
        rw [hfilter, stamped_figure? _ _ _ hmetric, hfigure, (ModelsTokenDict.get?_zero _).2]
        exact hsum

/-! ### All reports -/

/-- The reporting while the reports come in: nothing at first. -/
def Tally (reporting : Items) (scopes : List (Scope root)) : Prop :=
  ∃ total main models,
    getDict reporting (str "total_token_accounting") = .ok total ∧
    getDict total (str "models") = .ok models.toItems ∧
    getDict reporting (str "token_accounting") = .ok main ∧
    CountsModels models scopes ∧ RunningMain main scopes ∧
    (scopes ≠ [] → Accounts reporting total main models ∧ CountsTotal total models ∧ main ≠ [])

theorem tally_nil : Tally [] ([] : List (Scope root)) := by
  refine ⟨[], [], Dict.empty, rfl, rfl, rfl, ⟨?_, ?_, ?_⟩, ⟨?_, ?_, ?_⟩, ?_⟩
  · intro provider model metric
    have hnone : ModelsTokenDict.metric? Dict.empty provider model metric = none := rfl
    simp [hnone]
  · intro provider model metric
    rfl
  · intro metric
    rfl
  · intro name _
    rfl
  · intro metric _
    simp [figure?, Nested.lookup]
  · intro metric _
    simp [figure?, Nested.lookup]
  · intro hne
    exact absurd rfl hne

/-- The front man's note, or none. -/
theorem noted_ok (strOf : ℚ → PyStr) (scope : Scope root) (models : ModelsTokenDict)
    (totalTime : Value) :
    ∃ noted, LangChainTokenCounter.finishTotal ⟨scope.context, scope.origin⟩ strOf
        ⟨scope.models.toItems, scope.totalTokens⟩ (networkItems models totalTime) = .ok noted ∧
      ∀ name, name ≠ str "caveats" →
        Nested.lookup noted name = Nested.lookup (networkItems models totalTime) name := by
  have hmetric : str "total_tokens" ≠ str "caveats" ∧ str "total_tokens" ≠ str "models" := by
    decide +kernel
  let totalTokens : Metric := ⟨str "total_tokens", hmetric⟩
  have htime : totalTokens.val ≠ timeTakenInSeconds := by
    show str "total_tokens" ≠ timeTakenInSeconds
    decide +kernel
  have hstandard : totalTokens.val ∈ zeroTokenStats.map Prod.fst := by
    show str "total_tokens" ∈ zeroTokenStats.map Prod.fst
    decide +kernel
  obtain ⟨q, hq⟩ := networkItems_standard models totalTime htime hstandard
  unfold LangChainTokenCounter.finishTotal
  by_cases hfront : LangChainTokenCounter.isMainFrontMan ⟨scope.context, scope.origin⟩ = true
  · rw [if_pos hfront]
    exact noteUnattributed_ok strOf _ hq (networkItems_caveats models totalTime)
  · rw [if_neg hfront]
    exact ⟨_, rfl, fun name _ => rfl⟩

/-- A report keeps the tally, whoever reports. -/
theorem Tally.report {reporting : Items} {scopes : List (Scope root)}
    (h : Tally reporting scopes) (strOf : ℚ → PyStr) (scope : Scope root) :
    ∃ reporting', LangChainTokenCounter.report strOf ⟨scope.context, scope.origin⟩
        ⟨scope.models.toItems, scope.totalTokens⟩ scope.timeTaken reporting = .ok reporting' ∧
      Tally reporting' (scopes ++ [scope]) ∧ ∃ total main models,
        Accounts reporting' total main models ∧ CountsModels models (scopes ++ [scope]) ∧
        CountsTotal total models ∧ CountsMain main (scopes ++ [scope]) := by
  obtain ⟨total, main, models, htotal, hmodels, hmain, hcounts, hrunning, -⟩ := h
  obtain ⟨totalTime, hnetwork⟩ := accountTotal_eq scope hmodels
  obtain ⟨noted, hnoted, hlookup⟩ := noted_ok strOf scope (models.merge scope.models) totalTime
  obtain ⟨main', hmain', hrunning', hne⟩ : ∃ main',
      LangChainTokenCounter.accountMain ⟨scope.context, scope.origin⟩
        ⟨scope.models.toItems, scope.totalTokens⟩ scope.timeTaken main = .ok main' ∧
      RunningMain main' (scopes ++ [scope]) ∧ main' ≠ [] := by
    cases hscope : scope.isMain with
    | true => exact hrunning.report_main scope hscope
    | false => exact hrunning.report_cloned scope hscope
  have haccounts : Accounts (Dict.setItems
      (Dict.setItems reporting (str "token_accounting") (.dict main'))
      (str "total_token_accounting") (.dict noted)) noted main' (models.merge scope.models) := by
    constructor
    · rw [Nested.lookup_setItems, if_pos rfl]
    · rw [hlookup _ (by decide +kernel), networkItems_models]
    · rw [Nested.lookup_setItems, if_neg (by decide +kernel), Nested.lookup_setItems, if_pos rfl]
  have hcountsTotal := countsTotal_of_lookup hlookup
  have hcounts' := hcounts.report scope
  refine ⟨_, ?_, ⟨noted, main', _, ?_, ?_, ?_, hcounts', hrunning',
    fun _ => ⟨haccounts, hcountsTotal, hne⟩⟩, noted, main', _, haccounts, hcounts', hcountsTotal,
      hrunning'.counts hne⟩
  · unfold LangChainTokenCounter.report
    simp only [htotal, hmain, hnetwork, hmain', hnoted, bind, Except.bind]
    rfl
  · unfold getDict
    rw [haccounts.hasTotal]
    rfl
  · unfold getDict
    rw [haccounts.hasModels]
    rfl
  · unfold getDict
    rw [haccounts.hasMain]
    rfl

theorem InvocationContext.Of.requestReporting_eq {root context : InvocationContext}
    (h : root.Of context) : context.requestReporting = root.requestReporting := by
  induction h with
  | root => rfl
  | copy _ ih => exact ih

/-- The last report is made on what the others left. -/
theorem reportAll_concat (strOf : ℚ → PyStr) {heap reporting : Nat → Items}
    {scopes : List (Scope root)} (h : reportAll strOf heap scopes = .ok reporting)
    (last : Scope root) :
    reportAll strOf heap (scopes ++ [last]) = last.report strOf reporting := by
  have hsteps : List.foldlM (Scope.report strOf) (Function.update heap root.requestReporting [])
      scopes = .ok reporting := h
  unfold reportAll
  rw [List.foldlM_append, hsteps]
  show List.foldlM (Scope.report strOf) reporting [last] = _
  rw [List.foldlM_cons]
  cases last.report strOf reporting <;> rfl

/-- A report of a scope of the request is made on the dictionary of the request. -/
theorem Scope.report_ok (strOf : ℚ → PyStr) {reporting : Nat → Items} (scope : Scope root)
    {after : Items} (h : LangChainTokenCounter.report strOf ⟨scope.context, scope.origin⟩
      ⟨scope.models.toItems, scope.totalTokens⟩ scope.timeTaken
      (reporting root.requestReporting) = .ok after) :
    scope.report strOf reporting =
      .ok (Function.update reporting root.requestReporting after) := by
  unfold Scope.report
  rw [scope.ofRequest.requestReporting_eq, h]
  rfl

/-- Every sequence of reports is tallied: the induction is on the last report. -/
theorem reportAll_tally (strOf : ℚ → PyStr) (heap : Nat → Items) (scopes : List (Scope root)) :
    ∃ reporting, reportAll strOf heap scopes = .ok reporting ∧
      Tally (reporting root.requestReporting) scopes := by
  induction scopes using List.reverseRecOn with
  | nil =>
      refine ⟨_, rfl, ?_⟩
      rw [Function.update_self]
      exact tally_nil
  | append_singleton scopes last ih =>
      obtain ⟨reporting, hreporting, htally⟩ := ih
      obtain ⟨after, hafter, htally', -⟩ := htally.report strOf last
      rw [reportAll_concat strOf hreporting, last.report_ok strOf hafter]
      refine ⟨_, rfl, ?_⟩
      rw [Function.update_self]
      exact htally'

/-- After a report the figures are there, and counted. -/
theorem reportAll_counts (strOf : ℚ → PyStr) (heap : Nat → Items) {scopes : List (Scope root)}
    (h : scopes ≠ []) :
    ∃ reporting total main models, reportAll strOf heap scopes = .ok reporting ∧
      Accounts (reporting root.requestReporting) total main models ∧
      CountsModels models scopes ∧ CountsTotal total models ∧ CountsMain main scopes := by
  obtain ⟨reporting, hreporting, total, main, models, -, -, -, hcounts, hrunning, hwritten⟩ :=
    reportAll_tally strOf heap scopes
  obtain ⟨haccounts, htotal, hmain⟩ := hwritten h
  exact ⟨reporting, total, main, models, hreporting, haccounts, hcounts, htotal,
    hrunning.counts hmain⟩

/-! ### The order of the reports -/

theorem CountsModels.perm {models models' : ModelsTokenDict} {scopes others : List (Scope root)}
    (h : CountsModels models scopes) (h' : CountsModels models' others)
    (perm : others.Perm scopes) (provider model : PyStr) (metric : Metric) :
    models'.metric? provider model metric = models.metric? provider model metric := by
  apply option_eq_of_isSome_of_getD
  · rw [h.isSome, h'.isSome]
    simp only [perm.mem_iff]
  · rw [h.sums, h'.sums]
    exact (perm.map _).sum_eq

theorem CountsModels.has_iff {models : ModelsTokenDict} {scopes : List (Scope root)}
    (h : CountsModels models scopes) (metric : Metric) :
    models.Has metric ↔ ∃ scope ∈ scopes, scope.models.Has metric := by
  constructor
  · rintro ⟨provider, model, hsome⟩
    obtain ⟨scope, hmem, hscope⟩ := (h.isSome provider model metric).mp hsome
    exact ⟨scope, hmem, provider, model, hscope⟩
  · rintro ⟨scope, hmem, provider, model, hsome⟩
    exact ⟨provider, model, (h.isSome provider model metric).mpr ⟨scope, hmem, hsome⟩⟩

theorem CountsTotal.perm {total total' : Items} {models models' : ModelsTokenDict}
    {scopes others : List (Scope root)} (h : CountsTotal total models)
    (h' : CountsTotal total' models') (hmodels : CountsModels models scopes)
    (hmodels' : CountsModels models' others) (perm : others.Perm scopes) {metric : Metric}
    (hmetric : metric.val ≠ timeTakenInSeconds) :
    figure? total' metric.val = figure? total metric.val := by
  obtain ⟨hisSome, hgetD⟩ := h metric hmetric
  obtain ⟨hisSome', hgetD'⟩ := h' metric hmetric
  apply option_eq_of_isSome_of_getD
  · rw [hisSome, hisSome', hmodels.has_iff, hmodels'.has_iff]
    simp only [perm.mem_iff]
  · rw [hgetD, hgetD', hmodels.totals, hmodels'.totals]
    exact (perm.map _).sum_eq

theorem CountsMain.perm {main main' : Items} {scopes others : List (Scope root)}
    (h : CountsMain main scopes) (h' : CountsMain main' others) (perm : others.Perm scopes)
    {metric : Metric} (hmetric : metric.val ≠ timeTakenInSeconds) :
    figure? main' metric.val = figure? main metric.val := by
  obtain ⟨hisSome, hgetD⟩ := h metric hmetric
  obtain ⟨hisSome', hgetD'⟩ := h' metric hmetric
  apply option_eq_of_isSome_of_getD
  · rw [hisSome, hisSome']
    simp only [perm.mem_iff]
  · rw [hgetD, hgetD']
    exact ((perm.filter _).map _).sum_eq

/-- After any reports of agents of the main network and of others on the same server, in
any order: each metric of a model is the sum over the reports so far, each total is the
sum over the models, each figure of the main network is the sum over its own agents, and
the standard metrics are there. Another order of the reports leaves the same figures. -/
theorem counts_every_call_once (strOf : ℚ → PyStr) (root : InvocationContext)
    (heap : Nat → Items) (scopes : List (Scope root)) (last : Scope root) :
    ∃ reporting total main models, reportAll strOf heap (scopes ++ [last]) = .ok reporting ∧
      Accounts (reporting root.requestReporting) total main models ∧
      CountsModels models (scopes ++ [last]) ∧ CountsTotal total models ∧
      CountsMain main (scopes ++ [last]) ∧
      ∀ others, others.Perm (scopes ++ [last]) →
        ∃ reporting' total' main' models', reportAll strOf heap others = .ok reporting' ∧
          Accounts (reporting' root.requestReporting) total' main' models' ∧
          (∀ provider model metric,
            models'.metric? provider model metric = models.metric? provider model metric) ∧
          ∀ metric : Metric, metric.val ≠ timeTakenInSeconds →
            figure? total' metric.val = figure? total metric.val ∧
              figure? main' metric.val = figure? main metric.val := by
  obtain ⟨reporting, total, main, models, hreporting, haccounts, hmodels, htotal, hmain⟩ :=
    reportAll_counts strOf heap (show scopes ++ [last] ≠ [] by simp)
  refine ⟨reporting, total, main, models, hreporting, haccounts, hmodels, htotal, hmain, ?_⟩
  intro others perm
  have hothers : others ≠ [] := by
    rintro rfl
    have hlength := perm.length_eq
    simp at hlength
  obtain ⟨reporting', total', main', models', hreporting', haccounts', hmodels', htotal',
    hmain'⟩ := reportAll_counts strOf heap hothers
  refine ⟨reporting', total', main', models', hreporting', haccounts', ?_, ?_⟩
  · intro provider model metric
    exact hmodels.perm hmodels' perm provider model metric
  · intro metric hmetric
    exact ⟨htotal.perm htotal' hmodels hmodels' perm hmetric, hmain.perm hmain' perm hmetric⟩

end NoraFleet.Tokens
