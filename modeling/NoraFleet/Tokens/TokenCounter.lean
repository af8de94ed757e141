import NoraFleet.Base.Flow
import NoraFleet.Base.Merging
import NoraFleet.Base.Text

/-!
# Token accounting

When an agent is done, its `LangChainTokenCounter` reports what the agent used: the
numbers for each model are merged into those of the request, the totals are summed up
again from all of them, and the figures of the main network are kept beside them. The
request's dictionary is one for the main network and for the networks on the same
server, whose invocation contexts are copies.
-/

namespace NoraFleet.Tokens

open Base

/-! ## Values -/

/-- A number, or a list of texts. -/
inductive Entry where
  | number (q : ℚ)
  | texts (lines : List PyStr)
  deriving DecidableEq

/-- `left + right`. -/
def Entry.plus : Entry → Entry → Except PyError Entry
  | .number left, .number right => .ok (.number (left + right))
  | .texts left, .texts right => .ok (.texts (left ++ right))
  | _, _ => .error .typeError

/-- An entry of the reporting dictionary. -/
abbrev Value := Nested PyStr Entry

/-- A dictionary of the reporting. -/
abbrev Items := List (PyStr × Value)

def number (q : ℚ) : Value := .leaf (.number q)

def texts (lines : List PyStr) : Value := .leaf (.texts lines)

/-- `left + right`, of values. -/
def plus : Value → Value → Except PyError Value
  | .leaf left, .leaf right => (Entry.plus left right).map .leaf
  | _, _ => .error .typeError

/-- A value that has to be a dictionary. -/
def dictOf : Value → Except PyError Items
  | .dict items => .ok items
  | .leaf _ => .error .attributeError

/-- `items.get(key, \x7b\x7d)`. -/
def getDict (items : Items) (key : PyStr) : Except PyError Items :=
  match Nested.lookup items key with
  | none => .ok []
  | some value => dictOf value

/-! ## Invocation contexts -/

/-- What the accounting reads of a `SessionInvocationContext`: which dictionary its
`request_reporting` is, and whether it is a copy. -/
structure InvocationContext where
  requestReporting : Nat
  cloned : Bool

/-- `safe_shallow_copy(invocation)`: the copy shares the reporting. -/
def InvocationContext.safeShallowCopy (context : InvocationContext) : InvocationContext :=
  { context with cloned := true }

/-- The contexts of a request: its own, and copies. -/
inductive InvocationContext.Of (root : InvocationContext) : InvocationContext → Prop where
  | root : Of root root
  | copy {context : InvocationContext} (h : Of root context) : Of root context.safeShallowCopy

/-! ## Sums -/

/-- `ZERO_TOKEN_STATS`. -/
def zeroTokenStats : List (PyStr × ℚ) :=
  [(str "total_tokens", 0), (str "prompt_tokens", 0), (str "completion_tokens", 0),
    (str "successful_requests", 0), (str "empty_responses", 0), (str "total_cost", 0)]

def timeTakenInSeconds : PyStr := str "time_taken_in_seconds"

/-- `COMMON_CAVEATS`. -/
def commonCaveats : List PyStr :=
  [str "Token counts are approximate and estimated using tiktoken.",
    str "time_taken_in_seconds includes overhead from Langchain and Nora Fleet"]

/-- `MAIN_NETWORK_CAVEAT`. -/
def mainNetworkCaveat : PyStr :=
  str ("Token usage from agents of the main agent network only. " ++
    "Usage from external agents is not included.")

/-- `TOTAL_CAVEAT`. -/
def totalCaveat : PyStr :=
  str ("Request total: includes token usage from external agents invoked via direct " ++
    "sessions on this server. Usage from external agents reached over the network " ++
    "is not included.")

/-- `merge_dicts(dict_1, dict_2)`. -/
def mergeDicts : Items → Items → Except PyError Items := Nested.mergeItems Entry.plus .typeError

/-- One metric of a model is added; the time is not summed. -/
def addMetric (aggregated : Items) (metric : PyStr × Value) : Except PyError Items :=
  if metric.1 = timeTakenInSeconds then .ok aggregated
  else
    (plus ((Nested.lookup aggregated metric.1).getD (number 0)) metric.2).map fun sum =>
      Dict.setItems aggregated metric.1 sum

/-- The metrics of one model are added. -/
def addModelStats (aggregated : Items) (modelStats : PyStr × Value) : Except PyError Items :=
  match dictOf modelStats.2 with
  | .error e => .error e
  | .ok stats => stats.foldlM addMetric aggregated

/-- The metrics of the models of one provider are added. -/
def addModels (aggregated : Items) (models : PyStr × Value) : Except PyError Items :=
  match dictOf models.2 with
  | .error e => .error e
  | .ok stats => stats.foldlM addModelStats aggregated

/-- `sum_all_tokens(token_dict, time_value)`. -/
def sumAllTokens (tokenDict : Items) (timeValue : Value) : Except PyError Items :=
  match tokenDict.foldlM addModels (zeroTokenStats.map fun e => (e.1, number e.2)) with
  | .error e => .error e
  | .ok aggregated => .ok (Dict.setItems aggregated timeTakenInSeconds timeValue)

/-! ## Reports -/

/-- What an `LlmTokenCallbackHandler` counted. -/
structure Callback where
  modelsTokenDict : Items
  totalTokens : ℚ

/-- `LangChainTokenCounter`. -/
structure LangChainTokenCounter where
  invocationContext : InvocationContext
  /-- How many agents the origin names, if there is one. -/
  origin : Option Nat

namespace LangChainTokenCounter

/-- Whether the agent is the front man of the main network. -/
def isMainFrontMan (counter : LangChainTokenCounter) : Bool :=
  counter.origin = some 1 && !counter.invocationContext.cloned

/-- The figures of the main network, after a report. -/
def accountMain (counter : LangChainTokenCounter) (callback : Callback)
    (timeTaken : ℚ) (mainAccounting : Items) : Except PyError Items :=
  if !counter.invocationContext.cloned then
    match sumAllTokens callback.modelsTokenDict (number timeTaken) with
    | .error e => .error e
    | .ok contribution =>
        match mergeDicts mainAccounting contribution with
        | .error e => .error e
        | .ok merged =>
            .ok (Dict.setItems (Dict.setItems merged timeTakenInSeconds (number timeTaken))
              (str "caveats") (texts (mainNetworkCaveat :: commonCaveats)))
  else if mainAccounting.isEmpty then
    match sumAllTokens [] (number 0) with
    | .error e => .error e
    | .ok zero =>
        .ok (Dict.setItems zero (str "caveats") (texts (mainNetworkCaveat :: commonCaveats)))
  else .ok mainAccounting

/-- The figures of the request, after a report. -/
def accountTotal (counter : LangChainTokenCounter) (callback : Callback)
    (timeTaken : ℚ) (totalAccounting : Items) : Except PyError Items :=
  match getDict totalAccounting (str "models") with
  | .error e => .error e
  | .ok models =>
      match mergeDicts models callback.modelsTokenDict with
      | .error e => .error e
      | .ok modelsTokenDict =>
          let totalTime : Value :=
            if counter.invocationContext.cloned then
              (Nested.lookup totalAccounting timeTakenInSeconds).getD (number timeTaken)
            else number timeTaken
          match sumAllTokens modelsTokenDict totalTime with
          | .error e => .error e
          | .ok networkTokenDict =>
              .ok (Dict.setItems
                (Dict.setItems networkTokenDict (str "caveats")
                  (texts (totalCaveat :: commonCaveats)))
                (str "models") (.dict modelsTokenDict))

/-- The caveat about tokens that no completed agent reported. -/
def unattributedCaveat (strOf : ℚ → PyStr) (unattributedTokens : ℚ) : PyStr :=
  str "An additional " ++ strOf unattributedTokens ++
    str " tokens were used by agents that did not complete and are not included."

/-- The front man says how many tokens are not accounted for. -/
def noteUnattributed (strOf : ℚ → PyStr) (callback : Callback) (totalTokenDict : Items) :
    Except PyError Items :=
  match Nested.lookup totalTokenDict (str "total_tokens") with
  | some (.leaf (.number totalTokens)) =>
      if 0 < callback.totalTokens - totalTokens then
        match Nested.lookup totalTokenDict (str "caveats") with
        | some caveats =>
            (plus caveats
              (texts [unattributedCaveat strOf (callback.totalTokens - totalTokens)])).map
              (Dict.setItems totalTokenDict (str "caveats"))
        | none => .error .otherException
      else .ok totalTokenDict
  | some _ => .error .typeError
  | none => .error .otherException

/-- The figures of the request as they are left: the front man may note something. -/
def finishTotal (counter : LangChainTokenCounter) (strOf : ℚ → PyStr) (callback : Callback)
    (totalTokenDict : Items) : Except PyError Items :=
  if counter.isMainFrontMan then noteUnattributed strOf callback totalTokenDict
  else .ok totalTokenDict

/-- `report(callback, time_taken_in_seconds)`, as far as the reporting goes. -/
def report (strOf : ℚ → PyStr) (counter : LangChainTokenCounter) (callback : Callback)
    (timeTaken : ℚ) (requestReporting : Items) : Except PyError Items := do
  let totalAccounting ← getDict requestReporting (str "total_token_accounting")
  let networkTokenDict ← counter.accountTotal callback timeTaken totalAccounting
  let mainAccounting ← getDict requestReporting (str "token_accounting")
  let mainAccounting ← counter.accountMain callback timeTaken mainAccounting
  let totalTokenDict ← counter.finishTotal strOf callback networkTokenDict
  return Dict.setItems
    (Dict.setItems requestReporting (str "token_accounting") (.dict mainAccounting))
    (str "total_token_accounting") (.dict totalTokenDict)

end LangChainTokenCounter

end NoraFleet.Tokens
