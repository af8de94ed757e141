import Mathlib
import NoraFleet.Llms.Fallbacks
import NoraFleet.Messages.TextRoundTrip
import NoraFleet.RunContext.ChainResults

/-!
# Attempts to invoke a chain

`RunContextRunnable.invoke_agent_chain` invokes the chain of an agent until it has a result,
and again after an error, as often as there are attempts. Errors that are worth a retry are
told to the client, an error of an API key is answered with help, and any other exception
ends the attempts. What the result says, or the last exception, is written as the final
message.

A result that is `None` is neither an answer nor an attempt. What the chain does on each
call is a parameter; journals are taken to write what they are given.

* `ApiKeyErrorCheck.isSome_checkForApiKeyException` — which errors are answered with help;
* `attempt_passes` — what an attempt without a conclusion leaves;
* `answers_iff` — for which outcomes there is one final message in time.
-/

namespace NoraFleet.RunContext

open Base Messages Llms

/-- An exception: its class, its text and its backtrace, and the errors that pydantic
found. -/
structure Raised where
  moduleName : PyStr
  className : PyStr
  text : PyStr
  backtrace : PyStr
  errors : List ErrorDetail

namespace ApiKeyErrorCheck

/-- `AZURE_DOCUMENTATION`: its second line is a statement of its own. -/
def azureDocumentation : PyStr := str "https://learn.microsoft.com/en-us/azure/ai-services/openai/"

/-- `API_KEY_DOCUMENTATION.get(api_key, "")`. -/
def documentationOf (apiKey : String) : PyStr :=
  if apiKey = "AZURE_OPENAI_API_KEY" ∨ apiKey = "AZURE_OPENAI_ENDPOINT" ∨
      apiKey = "OPENAI_API_VERSION" ∨ apiKey = "AZURE_OPENAI_DEPLOYMENT_NAME" then
    azureDocumentation
  else []

/-- What is said about keys that are not set correctly. -/
def guidance (keys : List String) : PyStr :=
  let keysStr := (str ", ").intercalate (keys.map str)
  str "\nA value for the " ++ keysStr ++
    str " environment variable must be correctly set in the nora-fleet\n" ++
    str "server or run-time environment in order to use this agent network.\n\n" ++
    str "Some things to try:\n1) Double check that your value for " ++ keysStr ++
    str " is set correctly\n2) If you do not have a value for " ++ keysStr ++
    str ", visit the LLM provider's website to get one " ++
    documentationOf (keys.getLastD "") ++
    str "\n3) It's possible that your credit balance on your account with the LLM " ++
    str "provider is too low\n" ++
    str "   to make the request.  Check that.\n" ++
    str "4) Sometimes these errors happen because of firewall blockages to the site " ++
    str "that hosts the LLM.\n" ++
    str "   Try checking that you can reach the regular UI for the LLM from a web browser\n" ++
    str "   on the same machine making this request.\n"

/-- `_is_pydantic_validation_error(exception)`. -/
def isPydanticValidationError (error : Raised) : Bool :=
  error.className = str "ValidationError" && (str "pydantic").isPrefixOf error.moduleName

/-- `check_for_api_key_exception(exception)`. -/
def checkForApiKeyException (error : Raised) : Option PyStr :=
  match Llms.ApiKeyErrorCheck.matchedKeys error.text with
  | [] =>
      if isPydanticValidationError error then
        some (Llms.ApiKeyErrorCheck.formatRedacted error.errors)
      else none
  | keys => some (guidance keys)

/-- `check_for_internal_error(exception_traceback)`. -/
def checkForInternalError (exceptionTraceback : PyStr) : Bool :=
  str "bound to a different event loop" <:+: exceptionTraceback

/-- The message for an error of an API, unless it looks like an internal one. -/
def keyMessage (error : Raised) : Option PyStr :=
  if checkForInternalError error.backtrace then none else checkForApiKeyException error

/-- The exception as it is known where models are built. -/
def asPyException (error : Raised) : PyException :=
  ⟨error.text, if isPydanticValidationError error then some error.errors else none⟩

/-- The errors that are answered with help are those about keys. -/
theorem isSome_checkForApiKeyException (error : Raised) :
    (checkForApiKeyException error).isSome =
      Llms.ApiKeyErrorCheck.isApiKeyException (asPyException error) := by
  unfold checkForApiKeyException Llms.ApiKeyErrorCheck.isApiKeyException asPyException
  dsimp only
  cases Llms.ApiKeyErrorCheck.matchedKeys error.text with
  | nil => cases isPydanticValidationError error <;> rfl
  | cons key keys => rfl

end ApiKeyErrorCheck

/-! ## Attempts -/

/-- What a call of `agent_chain.ainvoke` does, with the exceptions as the handlers take
them. -/
inductive Outcome where
  | returned (result : ChainResult)
  | rateLimitError (error : Raised)
  | apiError (error : Raised)
  | keyError (error : Raised)
  | valueError (error : Raised)
  | exception (error : Raised)
  -- what is no `Exception`, as a cancellation
  | baseException (e : PyError)

/-- The local variables of `invoke_agent_chain`, and what it has written to the journal. -/
structure Invocation where
  chainResult : ChainResult
  attempts : Nat
  exception : Option Raised
  journal : List BaseMessage

namespace RunContextRunnable

/-- `{"output": output}`. -/
def outputResult (output : PyStr) : ChainResult := .value (.dict (.list []) (.str output))

/-- What the text of a parsing error begins with. -/
def findString : PyStr :=
  str "An output parsing error occurred. " ++
    str "In order to pass this error back to the agent and have it try again, " ++
    str "pass `handle_parsing_errors=True` to the AgentExecutor. " ++
    str "This is the error: Could not parse LLM output: `"

/-- `response.removeprefix(find_string).removesuffix("`")`. -/
def parsingOutput (response : PyStr) : PyStr :=
  let output := response.drop findString.length
  if output.getLast? = some 96 then output.dropLast else output

/-- `journal_retry_reason(error, reason)`. -/
def journalRetryReason (shouldLog : Bool) (error : Raised) (reason : String)
    (journal : List BaseMessage) : List BaseMessage :=
  if shouldLog then
    journal ++ [.agentFramework (.str (str "Retrying: " ++ str reason ++ str " (" ++
      error.className ++ str ") - " ++ error.text))]
  else journal

/-- An error that is worth a retry. -/
def retry (shouldLog : Bool) (error : Raised) (reason : String) (invocation : Invocation) :
    Invocation :=
  { invocation with
    attempts := invocation.attempts - 1
    exception := some error
    journal := journalRetryReason shouldLog error reason invocation.journal }

/-- One turn of the loop. -/
def attempt (shouldLog : Bool) (invocation : Invocation) : Outcome → Except PyError Invocation
  | .returned result => .ok { invocation with chainResult := result }
  | .rateLimitError error =>
      .ok (retry shouldLog error "the LLM provider rate-limited the request" invocation)
  | .apiError error =>
      match ApiKeyErrorCheck.keyMessage error with
      | some message =>
          .ok { invocation with chainResult := outputResult message, exception := none }
      | none => .ok (retry shouldLog error "the LLM API returned an error" invocation)
  | .keyError error =>
      .ok (retry shouldLog error "the response was missing an expected field" invocation)
  | .valueError error =>
      if findString.isPrefixOf error.text then
        .ok { invocation with chainResult := outputResult (parsingOutput error.text) }
      else .ok (retry shouldLog error "the model's output could not be parsed" invocation)
  | .exception error => .ok { invocation with attempts := 0, exception := some error }
  | .baseException e => .error e

/-- The loop, with how many calls there were. -/
def loop (shouldLog : Bool) (outcomes : Nat → Outcome) :
    Nat → Nat → Invocation → Option (Nat × Except PyError Invocation)
  | 0, _, _ => none
  | fuel + 1, calls, invocation =>
      if invocation.chainResult.isNone ∧ 0 < invocation.attempts then
        match attempt shouldLog invocation (outcomes calls) with
        | .error e => some (calls + 1, .error e)
        | .ok next => loop shouldLog outcomes fuel (calls + 1) next
      else some (calls, .ok invocation)

/-- Write the final message. -/
def finish (strOf : StrOf) (detector : ErrorDetector) (check : MessageCheck)
    (invocation : Invocation) : Except PyError (List BaseMessage) :=
  match parseChainResult strOf detector invocation.chainResult
      (invocation.exception.map Raised.text) with
  | .error e => .error e
  | .ok output =>
      match check (.ai output) with
      | some e => .error e
      | none => .ok (invocation.journal ++ [.ai output])

/-- The local variables before the loop. -/
def start (maxAttempts : Nat) : Invocation := ⟨.value .none, maxAttempts, none, []⟩

/-- `invoke_agent_chain(inputs, runnable_config, max_attempts)`: the number of calls, and
what is written to the journal. -/
def invokeAgentChain (strOf : StrOf) (detector : ErrorDetector) (check : MessageCheck)
    (shouldLog : Bool) (outcomes : Nat → Outcome) (maxAttempts fuel : Nat) :
    Option (Nat × Except PyError (List BaseMessage)) :=
  (loop shouldLog outcomes fuel 0 (start maxAttempts)).map fun ended =>
    (ended.1, ended.2.bind (finish strOf detector check))

end RunContextRunnable

/-! ## Outcomes -/

namespace Outcome

open RunContextRunnable ApiKeyErrorCheck

/-- The result that an outcome gives, where it is not `None`. -/
def result? : Outcome → Option ChainResult
  | .returned result => if result.isNone then none else some result
  | .apiError error => (keyMessage error).map outputResult
  | .valueError error =>
      if findString.isPrefixOf error.text then some (outputResult (parsingOutput error.text))
      else none
  | _ => none

/-- The exception that was raised. -/
def error? : Outcome → Option Raised
  | .rateLimitError error | .apiError error | .keyError error | .valueError error
  | .exception error => some error
  | .returned _ | .baseException _ => none

/-- An error that is worth a retry. -/
def retries : Outcome → Bool
  | .rateLimitError _ | .keyError _ => true
  | .apiError error => (keyMessage error).isNone
  | .valueError error => !findString.isPrefixOf error.text
  | _ => false

/-- The result is `None`. -/
def isNone : Outcome → Bool
  | .returned result => result.isNone
  | _ => false

/-- An exception that ends the attempts. -/
def isFatal : Outcome → Bool
  | .exception _ => true
  | _ => false

/-- The loop goes on. -/
def passes (outcome : Outcome) : Bool := outcome.retries || outcome.isNone

/-- What ends the loop has a result, or is an exception. -/
theorem cases_of_not_passes {outcome : Outcome} (h : outcome.passes = false) :
    (∃ result, outcome.result? = some result ∧ result.isNone = false) ∨
      outcome.isFatal = true ∨ ∃ e, outcome = .baseException e := by
  cases outcome with
  | returned result =>
      have hnone : result.isNone = false := by simpa [passes, retries, isNone] using h
      exact .inl ⟨result, by rw [result?, hnone]; rfl, hnone⟩
  | rateLimitError error => cases h
  | apiError error =>
      cases hmessage : keyMessage error with
      | none => simp [passes, retries, hmessage] at h
      | some message => exact .inl ⟨outputResult message, by simp [result?, hmessage], rfl⟩
  | keyError error => cases h
  | valueError error =>
      cases hstarts : findString.isPrefixOf error.text with
      | false => simp [passes, retries, hstarts] at h
      | true => exact .inl ⟨_, by rw [result?, hstarts]; rfl, rfl⟩
  | exception error => exact .inr (.inl rfl)
  | baseException e => exact .inr (.inr ⟨e, rfl⟩)

theorem retries_of_isNone {outcome : Outcome} (h : outcome.isNone = true) :
    outcome.retries = false := by
  cases outcome with
  | returned result => rfl
  | _ => cases h

theorem isNone_of_result? {outcome : Outcome} {result : ChainResult}
    (h : outcome.result? = some result) : result.isNone = false := by
  cases outcome with
  | returned returned =>
      rw [result?] at h
      split at h
      case isTrue => cases h
      case isFalse hnone =>
          obtain rfl := Option.some.inj h
          simpa using hnone
  | apiError error =>
      obtain ⟨message, -, rfl⟩ := Option.map_eq_some_iff.mp h
      rfl
  | valueError error =>
      rw [result?] at h
      split at h
      · obtain rfl := Option.some.inj h
        rfl
      · cases h
  | rateLimitError error => cases h
  | keyError error => cases h
  | exception error => cases h
  | baseException e => cases h

theorem result?_of_passes {outcome : Outcome} (h : outcome.passes = true) :
    outcome.result? = none := by
  cases outcome with
  | returned result =>
      have hnone : result.isNone = true := by simpa [passes, retries, isNone] using h
      rw [result?, hnone]
      rfl
  | apiError error =>
      have hnone : keyMessage error = none := by simpa [passes, retries, isNone] using h
      rw [result?, hnone]
      rfl
  | valueError error =>
      have hstarts : findString.isPrefixOf error.text = false := by
        simpa [passes, retries, isNone] using h
      rw [result?, hstarts]
      rfl
  | _ => rfl

end Outcome

namespace RunContextRunnable

section Attempts

variable {shouldLog : Bool} {invocation : Invocation} {outcome : Outcome}

/-- A result is kept, and nothing is written for it. -/
theorem attempt_result {result : ChainResult} (h : outcome.result? = some result) :
    ∃ next, attempt shouldLog invocation outcome = .ok next ∧ next.chainResult = result ∧
      next.journal = invocation.journal := by
  cases outcome with
  | returned returned =>
      rw [Outcome.result?] at h
      split at h
      · cases h
      · obtain rfl := Option.some.inj h
        exact ⟨_, rfl, rfl, rfl⟩
  | apiError error =>
      obtain ⟨message, hmessage, rfl⟩ := Option.map_eq_some_iff.mp h
      unfold attempt
      dsimp only
      rw [hmessage]
      exact ⟨_, rfl, rfl, rfl⟩
  | valueError error =>
      rw [Outcome.result?] at h
      split at h
      case isTrue hstarts =>
          obtain rfl := Option.some.inj h
          unfold attempt
          dsimp only
          rw [if_pos hstarts]
          exact ⟨_, rfl, rfl, rfl⟩
      case isFalse => cases h
  | rateLimitError error => cases h
  | keyError error => cases h
  | exception error => cases h
  | baseException e => cases h

/-- An error that is worth a retry takes one attempt. -/
theorem attempt_retries (h : outcome.retries = true) :
    ∃ error reason, outcome.error? = some error ∧
      attempt shouldLog invocation outcome = .ok (retry shouldLog error reason invocation) := by
  cases outcome with
  | rateLimitError error => exact ⟨error, _, rfl, rfl⟩
  | keyError error => exact ⟨error, _, rfl, rfl⟩
  | apiError error =>
      have hnone : ApiKeyErrorCheck.keyMessage error = none := by
        simpa [Outcome.retries] using h
      refine ⟨error, "the LLM API returned an error", rfl, ?_⟩
      unfold attempt
      dsimp only
      rw [hnone]
  | valueError error =>
      have hstarts : ¬findString.isPrefixOf error.text = true := by
        intro hstarts
        rw [Outcome.retries, hstarts] at h
        cases h
      refine ⟨error, "the model's output could not be parsed", rfl, ?_⟩
      unfold attempt
      dsimp only
      rw [if_neg hstarts]
  | returned result => cases h
  | exception error => cases h
  | baseException e => cases h

/-- Any other exception leaves no attempts. -/
theorem attempt_isFatal (h : outcome.isFatal = true) :
    ∃ error, outcome.error? = some error ∧ outcome.result? = none ∧
      attempt shouldLog invocation outcome =
        .ok { invocation with attempts := 0, exception := some error } := by
  cases outcome with
  | exception error => exact ⟨error, rfl, rfl, rfl⟩
  | _ => cases h

/-- A result that is `None` leaves all as it was. -/
theorem attempt_isNone (h : outcome.isNone = true) (hnone : invocation.chainResult = .value .none) :
    outcome.error? = none ∧ attempt shouldLog invocation outcome = .ok invocation := by
  cases outcome with
  | returned result =>
      have hresult : result = .value .none := by
        cases result with
        | value v =>
            cases v with
            | none => rfl
            | _ => cases h
        | agentFinish v => cases h
      refine ⟨rfl, ?_⟩
      show Except.ok { invocation with chainResult := result } = _
      rw [hresult, ← hnone]
  | _ => cases h

/-- Only messages of the framework are written for a retry. -/
theorem mem_journalRetryReason {error : Raised} {reason : String} {journal : List BaseMessage}
    {message : BaseMessage} (h : message ∈ journalRetryReason shouldLog error reason journal) :
    message ∈ journal ∨ message.isAIMessage = false := by
  unfold journalRetryReason at h
  split at h
  · rcases List.mem_append.mp h with h | h
    · exact .inl h
    · rw [List.mem_singleton.mp h]
      exact .inr rfl
  · exact .inl h

end Attempts

/-! ## Runs of the loop -/

section Loop

variable {strOf : StrOf} {detector : ErrorDetector} {check : MessageCheck} {shouldLog : Bool}
  {outcomes : Nat → Outcome} {maxAttempts calls fuel : Nat} {invocation : Invocation}

/-- The last exception of so many calls. -/
def LastError (outcomes : Nat → Outcome) (calls : Nat) (error : Raised) : Prop :=
  ∃ k < calls, (outcomes k).error? = some error ∧
    ∀ j < calls, k < j → (outcomes j).error? = none

/-- After calls that all let the loop go on: an attempt was taken for each, unless some had
the result `None`. -/
structure Passed (outcomes : Nat → Outcome) (maxAttempts calls : Nat) (invocation : Invocation) :
    Prop where
  chainResult : invocation.chainResult = .value .none
  passes : ∀ k < calls, (outcomes k).passes = true
  counted : (invocation.attempts + calls = maxAttempts ∧ ∀ k < calls, (outcomes k).retries = true) ∨
    (maxAttempts < invocation.attempts + calls ∧ ¬∀ k < calls, (outcomes k).retries = true)
  exception : (invocation.exception = none ∧ ∀ k < calls, (outcomes k).error? = none) ∨
    ∃ error, invocation.exception = some error ∧ LastError outcomes calls error
  journal : ∀ message ∈ invocation.journal, message.isAIMessage = false

theorem passed_start : Passed outcomes maxAttempts 0 (start maxAttempts) where
  chainResult := rfl
  passes := fun _ h => absurd h (Nat.not_lt_zero _)
  counted := .inl ⟨rfl, fun _ h => absurd h (Nat.not_lt_zero _)⟩
  exception := .inl ⟨rfl, fun _ h => absurd h (Nat.not_lt_zero _)⟩
  journal := fun _ h => absurd h List.not_mem_nil

theorem Passed.goesOn (hpassed : Passed outcomes maxAttempts calls invocation)
    (h : calls < maxAttempts) : invocation.chainResult.isNone = true ∧ 0 < invocation.attempts := by
  refine ⟨by rw [hpassed.chainResult]; rfl, ?_⟩
  rcases hpassed.counted with ⟨hcount, -⟩ | ⟨hlt, -⟩ <;> omega

theorem lastError_last {error : Raised} (h : (outcomes calls).error? = some error) :
    LastError outcomes (calls + 1) error :=
  ⟨calls, Nat.lt_succ_self calls, h, fun _ hj hlt => by omega⟩

/-- A call without an exception leaves the last one. -/
theorem LastError.succ {error : Raised} (hlast : LastError outcomes calls error)
    (h : (outcomes calls).error? = none) : LastError outcomes (calls + 1) error := by
  obtain ⟨k, hk, herror, hnone⟩ := hlast
  refine ⟨k, by omega, herror, fun j hj hkj => ?_⟩
  rcases Nat.lt_succ_iff_lt_or_eq.mp hj with hj | rfl
  · exact hnone j hj hkj
  · exact h

theorem forall_lt_succ {p : Nat → Prop} (h : ∀ k < calls, p k) (hlast : p calls) :
    ∀ k < calls + 1, p k := by
  intro k hk
  rcases Nat.lt_succ_iff_lt_or_eq.mp hk with hk | rfl
  · exact h k hk
  · exact hlast

/-- What an attempt without a conclusion leaves. -/
theorem attempt_passes (hpassed : Passed outcomes maxAttempts calls invocation)
    (hattempts : 0 < invocation.attempts) (h : (outcomes calls).passes = true) :
    ∃ next, attempt shouldLog invocation (outcomes calls) = .ok next ∧
      Passed outcomes maxAttempts (calls + 1) next := by
  rcases Bool.or_eq_true_iff.mp h with hretries | hnone
  · obtain ⟨error, reason, herror, hattempt⟩ :=
      @attempt_retries shouldLog invocation (outcomes calls) hretries
    refine ⟨_, hattempt, hpassed.chainResult, forall_lt_succ hpassed.passes h, ?_,
      .inr ⟨error, rfl, lastError_last herror⟩, ?_⟩
    · show (invocation.attempts - 1 + (calls + 1) = maxAttempts ∧ _) ∨
        (maxAttempts < invocation.attempts - 1 + (calls + 1) ∧ _)
      rcases hpassed.counted with ⟨hcount, hall⟩ | ⟨hlt, hnot⟩
      · exact .inl ⟨by omega, forall_lt_succ hall hretries⟩
      · exact .inr ⟨by omega, fun hall => hnot fun k hk => hall k (Nat.lt_succ_of_lt hk)⟩
    · intro message hmessage
      rcases mem_journalRetryReason hmessage with hold | hnew
      · exact hpassed.journal message hold
      · exact hnew
  · obtain ⟨herror, hattempt⟩ := @attempt_isNone shouldLog invocation (outcomes calls) hnone
      hpassed.chainResult
    refine ⟨_, hattempt, hpassed.chainResult, forall_lt_succ hpassed.passes h, ?_, ?_,
      hpassed.journal⟩
    · -- an attempt is left over
      right
      have hnot : ¬∀ k < calls + 1, (outcomes k).retries = true := by
        intro hall
        have hretries := hall calls (Nat.lt_succ_self calls)
        rw [Outcome.retries_of_isNone hnone] at hretries
        cases hretries
      rcases hpassed.counted with ⟨hcount, -⟩ | ⟨hlt, -⟩
      · exact ⟨by omega, hnot⟩
      · exact ⟨by omega, hnot⟩
    · rcases hpassed.exception with ⟨hexception, hall⟩ | ⟨error, hexception, hlast⟩
      · exact .inl ⟨hexception, forall_lt_succ hall herror⟩
      · exact .inr ⟨error, hexception, hlast.succ herror⟩

/-- While the loop goes on. -/
theorem loop_step {next : Invocation} (hnone : invocation.chainResult.isNone = true)
    (hattempts : 0 < invocation.attempts)
    (h : attempt shouldLog invocation (outcomes calls) = .ok next) :
    loop shouldLog outcomes (fuel + 1) calls invocation =
      loop shouldLog outcomes fuel (calls + 1) next := by
  rw [loop, if_pos ⟨hnone, hattempts⟩, h]

theorem loop_end (h : invocation.chainResult.isNone = false ∨ invocation.attempts = 0) :
    loop shouldLog outcomes (fuel + 1) calls invocation = some (calls, .ok invocation) := by
  rw [loop, if_neg]
  rintro ⟨hnone, hattempts⟩
  rcases h with h | h
  · rw [hnone] at h
    cases h
  · omega

/-- The loop gets as far as no outcome ends it and there are attempts. -/
theorem exists_passed (shouldLog : Bool) (hle : calls ≤ maxAttempts)
    (hpasses : ∀ k < calls, (outcomes k).passes = true) :
    ∃ invocation, Passed outcomes maxAttempts calls invocation ∧
      ∀ fuel, loop shouldLog outcomes (fuel + calls) 0 (start maxAttempts) =
        loop shouldLog outcomes fuel calls invocation := by
  induction calls with
  | zero => exact ⟨start maxAttempts, passed_start, fun fuel => rfl⟩
  | succ calls ih =>
      obtain ⟨invocation, hpassed, hloop⟩ := ih (by omega) fun k hk => hpasses k (by omega)
      obtain ⟨hnone, hattempts⟩ := hpassed.goesOn (by omega)
      obtain ⟨next, hattempt, hnext⟩ :=
        @attempt_passes shouldLog outcomes maxAttempts calls invocation hpassed hattempts
          (hpasses calls (Nat.lt_succ_self calls))
      refine ⟨next, hnext, fun fuel => ?_⟩
      rw [show fuel + (calls + 1) = fuel + 1 + calls by omega, hloop (fuel + 1)]
      exact loop_step hnone hattempts hattempt

/-- More fuel changes nothing. -/
theorem loop_mono {ended : Nat × Except PyError Invocation}
    (h : loop shouldLog outcomes fuel calls invocation = some ended) (more : Nat) :
    loop shouldLog outcomes (fuel + more) calls invocation = some ended := by
  induction fuel generalizing calls invocation with
  | zero => cases h
  | succ fuel ih =>
      rw [show fuel + 1 + more = fuel + more + 1 by omega, loop]
      rw [loop] at h
      split at h
      case isTrue hgoes =>
          rw [if_pos hgoes]
          cases hattempt : attempt shouldLog invocation (outcomes calls) with
          | error e =>
              rw [hattempt] at h
              exact h
          | ok next =>
              rw [hattempt] at h
              exact ih h
      case isFalse hends =>
          rw [if_neg hends]
          exact h

theorem calls_le_of_loop {ended : Nat × Except PyError Invocation}
    (h : loop shouldLog outcomes fuel calls invocation = some ended) : calls ≤ ended.1 := by
  induction fuel generalizing calls invocation with
  | zero => cases h
  | succ fuel ih =>
      rw [loop] at h
      split at h
      · split at h
        · obtain rfl := Option.some.inj h
          exact Nat.le_succ calls
        · exact Nat.le_of_succ_le (ih h)
      · obtain rfl := Option.some.inj h
        exact Nat.le_refl calls

/-- A loop that goes on makes one more call. -/
theorem lt_of_loop {ended : Nat × Except PyError Invocation}
    (h : loop shouldLog outcomes fuel calls invocation = some ended)
    (hnone : invocation.chainResult.isNone = true) (hattempts : 0 < invocation.attempts) :
    calls < ended.1 := by
  cases fuel with
  | zero => cases h
  | succ fuel =>
      rw [loop, if_pos ⟨hnone, hattempts⟩] at h
      cases hattempt : attempt shouldLog invocation (outcomes calls) with
      | error e =>
          rw [hattempt] at h
          obtain rfl := Option.some.inj h
          exact Nat.lt_succ_self calls
      | ok next =>
          rw [hattempt] at h
          exact calls_le_of_loop h

end Loop

/-! ## Answers -/

/-- The text is that of the first result, or without one mentions the last exception. -/
def AnswerText (strOf : StrOf) (detector : ErrorDetector) (outcomes : Nat → Outcome) (calls : Nat)
    (text : PyStr) : Prop :=
  (∃ k < calls, ∃ result, (outcomes k).result? = some result ∧
    (∀ j < k, (outcomes j).result? = none) ∧
      parseChainResult strOf detector result none = .ok (.str text)) ∨
  ((∀ k < calls, (outcomes k).result? = none) ∧
    ∃ error, LastError outcomes calls error ∧ Mentions text error.text)

/-- There are no more calls than attempts, and a final message with a text, which is the last
one and the only one of the model. -/
def Answers (strOf : StrOf) (detector : ErrorDetector) (check : MessageCheck) (shouldLog : Bool)
    (outcomes : Nat → Outcome) (maxAttempts : Nat) : Prop :=
  ∃ fuel calls journal,
    invokeAgentChain strOf detector check shouldLog outcomes maxAttempts fuel =
      some (calls, .ok journal) ∧ calls ≤ maxAttempts ∧
    ∃ before text, journal = before ++ [.ai (.str text)] ∧
      (∀ message ∈ before, message.isAIMessage = false) ∧
      AnswerText strOf detector outcomes calls text

/-- One of the first outcomes, as many as there are attempts, ends the attempts with a result
that has a text or with an exception, or all are errors that are worth a retry. -/
def Answerable (strOf : StrOf) (detector : ErrorDetector) (outcomes : Nat → Outcome)
    (maxAttempts : Nat) : Prop :=
  (∃ k < maxAttempts, (∀ j < k, (outcomes j).passes = true) ∧
    ((outcomes k).isFatal = true ∨
      ∃ result, (outcomes k).result? = some result ∧ HasText strOf detector result)) ∨
  ∀ k < maxAttempts, (outcomes k).retries = true

section Answers

variable {strOf : StrOf} {detector : ErrorDetector} {check : MessageCheck} {shouldLog : Bool}
  {outcomes : Nat → Outcome} {maxAttempts calls : Nat} {invocation : Invocation}

/-- Beside a result, an exception does not matter. -/
theorem parseChainResult_of_result {result : ChainResult} (h : result.isNone = false)
    (exception : Option PyStr) :
    parseChainResult strOf detector result exception =
      parseChainResult strOf detector result none := by
  unfold parseChainResult
  rw [h]

/-- The final message of an exception. -/
theorem finish_exception (hcheck : BaseMessageDictionaryConverter.AcceptsText check)
    (hnone : invocation.chainResult = .value .none) {error : Raised}
    (hexception : invocation.exception = some error) :
    ∃ text, finish strOf detector check invocation = .ok (invocation.journal ++ [.ai (.str text)]) ∧
      Mentions text error.text := by
  obtain ⟨text, hhandle, hmentions⟩ := detector.handleError_mentions strOf
    (str "Agent stopped due to exception ") error.text
  have hparse : parseChainResult strOf detector invocation.chainResult
      (invocation.exception.map Raised.text) = .ok (.str text) := by
    rw [hnone, hexception]
    exact hhandle
  refine ⟨text, ?_, hmentions⟩
  unfold finish
  rw [hparse]
  dsimp only
  rw [hcheck (.ai (.str text)) text rfl rfl]

/-- The final message of a result. -/
theorem finish_result (hcheck : BaseMessageDictionaryConverter.AcceptsText check)
    {result : ChainResult} (hresult : invocation.chainResult = result)
    (hnone : result.isNone = false) {text : PyStr}
    (hparse : parseChainResult strOf detector result none = .ok (.str text)) :
    finish strOf detector check invocation = .ok (invocation.journal ++ [.ai (.str text)]) := by
  unfold finish
  rw [hresult, parseChainResult_of_result hnone, hparse]
  dsimp only
  rw [hcheck (.ai (.str text)) text rfl rfl]

/-- A final message with a text is that of what was parsed. -/
theorem parse_of_finish {before : List BaseMessage} {text : PyStr}
    (h : finish strOf detector check invocation = .ok (before ++ [.ai (.str text)])) :
    parseChainResult strOf detector invocation.chainResult (invocation.exception.map Raised.text) =
      .ok (.str text) := by
  unfold finish at h
  split at h
  · cases h
  · rename_i output hparse
    split at h
    · cases h
    · obtain ⟨-, hlast⟩ := List.append_inj' (Except.ok.inj h) rfl
      obtain rfl := BaseMessage.ai.inj (List.singleton_inj.mp hlast)
      exact hparse

/-- What ends the loop ends the call. -/
theorem invokeAgentChain_of_loop {fuel : Nat}
    (h : loop shouldLog outcomes fuel 0 (start maxAttempts) = some (calls, .ok invocation)) :
    invokeAgentChain strOf detector check shouldLog outcomes maxAttempts fuel =
      some (calls, finish strOf detector check invocation) := by
  unfold invokeAgentChain
  rw [h]
  rfl

/-- An exception that ends the attempts is answered. -/
theorem answers_of_isFatal (hcheck : BaseMessageDictionaryConverter.AcceptsText check) {k : Nat}
    (hk : k < maxAttempts) (hpasses : ∀ j < k, (outcomes j).passes = true)
    (h : (outcomes k).isFatal = true) :
    Answers strOf detector check shouldLog outcomes maxAttempts := by
  obtain ⟨invocation, hpassed, hloop⟩ :=
    @exists_passed outcomes maxAttempts k shouldLog (Nat.le_of_lt hk) hpasses
  obtain ⟨hnone, hattempts⟩ := hpassed.goesOn hk
  obtain ⟨error, herror, hresult, hattempt⟩ :=
    @attempt_isFatal shouldLog invocation (outcomes k) h
  have hended := hloop 2
  rw [loop_step hnone hattempts hattempt, loop_end (.inr rfl)] at hended
  obtain ⟨text, hfinish, hmentions⟩ := @finish_exception strOf detector check
    { invocation with attempts := 0, exception := some error } hcheck hpassed.chainResult error rfl
  have hno : ∀ j < k + 1, (outcomes j).result? = none :=
    forall_lt_succ (fun j hj => Outcome.result?_of_passes (hpasses j hj)) hresult
  exact ⟨_, _, _, (invokeAgentChain_of_loop hended).trans (by rw [hfinish]), hk, _, text, rfl,
    hpassed.journal, .inr ⟨hno, error, lastError_last herror, hmentions⟩⟩

/-- A result that has a text is answered. -/
theorem answers_of_result (hcheck : BaseMessageDictionaryConverter.AcceptsText check) {k : Nat}
    (hk : k < maxAttempts) (hpasses : ∀ j < k, (outcomes j).passes = true) {result : ChainResult}
    (hresult : (outcomes k).result? = some result) (htext : HasText strOf detector result) :
    Answers strOf detector check shouldLog outcomes maxAttempts := by
  obtain ⟨invocation, hpassed, hloop⟩ :=
    @exists_passed outcomes maxAttempts k shouldLog (Nat.le_of_lt hk) hpasses
  obtain ⟨hnone, hattempts⟩ := hpassed.goesOn hk
  have hisNone := Outcome.isNone_of_result? hresult
  obtain ⟨next, hattempt, hnext, hjournal⟩ :=
    @attempt_result shouldLog invocation (outcomes k) result hresult
  have hended := hloop 2
  rw [loop_step hnone hattempts hattempt, loop_end (.inl (hnext ▸ hisNone))] at hended
  obtain ⟨text, hparse⟩ := (parseChainResult_text_iff hisNone none).mpr htext
  have hfinish := @finish_result strOf detector check next hcheck result hnext hisNone text hparse
  have hbefore : ∀ j < k, (outcomes j).result? = none :=
    fun j hj => Outcome.result?_of_passes (hpasses j hj)
  refine ⟨_, _, _, (invokeAgentChain_of_loop hended).trans (by rw [hfinish]), hk, _, text, rfl, ?_,
    .inl ⟨k, Nat.lt_succ_self k, result, hresult, hbefore, hparse⟩⟩
  rw [hjournal]
  exact hpassed.journal

/-- Errors that are all worth a retry are answered. -/
theorem answers_of_retries (hcheck : BaseMessageDictionaryConverter.AcceptsText check)
    (hmax : 1 ≤ maxAttempts) (h : ∀ k < maxAttempts, (outcomes k).retries = true) :
    Answers strOf detector check shouldLog outcomes maxAttempts := by
  have hpasses : ∀ k < maxAttempts, (outcomes k).passes = true := by
    intro k hk
    rw [Outcome.passes, h k hk]
    rfl
  obtain ⟨invocation, hpassed, hloop⟩ :=
    @exists_passed outcomes maxAttempts maxAttempts shouldLog (Nat.le_refl _) hpasses
  have hattempts : invocation.attempts = 0 := by
    rcases hpassed.counted with ⟨hcount, -⟩ | ⟨-, hnot⟩
    · omega
    · exact absurd h hnot
  have hended := hloop 1
  rw [loop_end (.inr hattempts)] at hended
  rcases hpassed.exception with ⟨-, hall⟩ | ⟨error, hexception, hlast⟩
  · obtain ⟨error, -, herror, -⟩ :=
      @attempt_retries shouldLog invocation (outcomes 0) (h 0 (by omega))
    rw [hall 0 (by omega)] at herror
    cases herror
  · obtain ⟨text, hfinish, hmentions⟩ :=
      @finish_exception strOf detector check invocation hcheck hpassed.chainResult error hexception
    exact ⟨_, _, _, (invokeAgentChain_of_loop hended).trans (by rw [hfinish]), Nat.le_refl _, _,
      text, rfl, hpassed.journal,
      .inr ⟨fun k hk => Outcome.result?_of_passes (hpasses k hk), error, hlast, hmentions⟩⟩

theorem exists_first_end (h : ¬∀ k < maxAttempts, (outcomes k).passes = true) :
    ∃ k < maxAttempts, (outcomes k).passes = false ∧ ∀ j < k, (outcomes j).passes = true := by
  have hexists : ∃ k, k < maxAttempts ∧ (outcomes k).passes = false := by
    by_contra hno
    apply h
    intro k hk
    cases hpasses : (outcomes k).passes with
    | true => rfl
    | false => exact absurd ⟨k, hk, hpasses⟩ hno
  obtain ⟨hk, hends⟩ := Nat.find_spec hexists
  refine ⟨Nat.find hexists, hk, hends, fun j hj => ?_⟩
  cases hpasses : (outcomes j).passes with
  | true => rfl
  | false => exact absurd ⟨by omega, hpasses⟩ (Nat.find_min hexists hj)

/-- The outcome that ended a loop with a final message is an exception that ends the attempts,
or has a result with a text. -/
theorem concludes_of_loop {fuel k : Nat} {before : List BaseMessage} {text : PyStr}
    {ended : Except PyError Invocation} (hk : k < maxAttempts)
    (hpasses : ∀ j < k, (outcomes j).passes = true) (hends : (outcomes k).passes = false)
    (hloop : loop shouldLog outcomes fuel 0 (start maxAttempts) = some (calls, ended))
    (hended : ended.bind (finish strOf detector check) = .ok (before ++ [.ai (.str text)])) :
    (outcomes k).isFatal = true ∨
      ∃ result, (outcomes k).result? = some result ∧ HasText strOf detector result := by
  obtain ⟨invocation, hpassed, hreach⟩ :=
    @exists_passed outcomes maxAttempts k shouldLog (Nat.le_of_lt hk) hpasses
  obtain ⟨hnone, hattempts⟩ := hpassed.goesOn hk
  have hmore := loop_mono hloop (2 + k)
  rw [show fuel + (2 + k) = fuel + 2 + k by omega, hreach (fuel + 2)] at hmore
  rcases Outcome.cases_of_not_passes hends with ⟨result, hresult, hisNone⟩ | hfatal | ⟨e, hbase⟩
  · right
    obtain ⟨next, hattempt, hnext, -⟩ :=
      @attempt_result shouldLog invocation (outcomes k) result hresult
    rw [loop_step hnone hattempts hattempt, loop_end (.inl (hnext ▸ hisNone))] at hmore
    obtain ⟨-, rfl⟩ := Prod.mk.inj (Option.some.inj hmore)
    have hparse := parse_of_finish hended
    rw [hnext] at hparse
    exact ⟨result, hresult, (parseChainResult_text_iff hisNone _).mp ⟨text, hparse⟩⟩
  · exact .inl hfatal
  · -- what is no `Exception` passes through, and nothing is written
    have hattempt : attempt shouldLog invocation (outcomes k) = .error e := by
      rw [hbase]
      rfl
    rw [loop, if_pos ⟨hnone, hattempts⟩, hattempt] at hmore
    obtain ⟨-, rfl⟩ := Prod.mk.inj (Option.some.inj hmore)
    cases hended

/-- What is answered in time is answerable. -/
theorem answerable_of_answers
    (h : Answers strOf detector check shouldLog outcomes maxAttempts) :
    Answerable strOf detector outcomes maxAttempts := by
  obtain ⟨fuel, calls, journal, hinvoke, hle, before, text, rfl, -, -⟩ := h
  obtain ⟨⟨calls', ended⟩, hloop, heq⟩ := Option.map_eq_some_iff.mp hinvoke
  obtain ⟨rfl, hended⟩ := Prod.mk.inj heq
  by_cases hall : ∀ k < maxAttempts, (outcomes k).passes = true
  · obtain ⟨invocation, hpassed, hreach⟩ :=
      @exists_passed outcomes maxAttempts maxAttempts shouldLog (Nat.le_refl _) hall
    rcases hpassed.counted with ⟨-, hretries⟩ | ⟨hlt, -⟩
    · exact .inr hretries
    · -- with an attempt left over there is one more call
      have hmore := loop_mono hloop maxAttempts
      rw [hreach fuel] at hmore
      have hcalls := lt_of_loop hmore (by rw [hpassed.chainResult]; rfl) (by omega)
      exact absurd hle (Nat.not_le_of_lt hcalls)
  · obtain ⟨k, hk, hends, hpasses⟩ := exists_first_end hall
    exact .inl ⟨k, hk, hpasses, concludes_of_loop hk hpasses hends hloop hended⟩

end Answers

/-- **Attempts of a chain.** There are no more calls than attempts and one final message with
a text, that of the first result or one that mentions the last exception, exactly for
outcomes that are answerable. -/
theorem answers_iff (strOf : StrOf) (detector : ErrorDetector) (check : MessageCheck)
    (hcheck : BaseMessageDictionaryConverter.AcceptsText check) (shouldLog : Bool)
    (outcomes : Nat → Outcome) (maxAttempts : Nat) (hmax : 1 ≤ maxAttempts) :
    Answers strOf detector check shouldLog outcomes maxAttempts ↔
      Answerable strOf detector outcomes maxAttempts := by
  constructor
  · exact answerable_of_answers
  · rintro (⟨k, hk, hpasses, hfatal | ⟨result, hresult, htext⟩⟩ | hretries)
    · exact answers_of_isFatal hcheck hk hpasses hfatal
    · exact answers_of_result hcheck hk hpasses hresult htext
    · exact answers_of_retries hcheck hmax hretries

/-- A chain that has no result, and then an answer. -/
def lateAnswer : Nat → Outcome
  | 0 => .returned (.value .none)
  | _ => .returned (.value (.dict (.list [.ai (.str (str "Hi"))]) .null))

/-- With three attempts the late answer is in time. -/
theorem answers_lateAnswer :
    Answers (fun _ => []) ⟨[], none, []⟩ (fun _ => none) true lateAnswer 3 :=
  (answers_iff (fun _ => []) ⟨[], none, []⟩ (fun _ => none) (fun _ _ _ _ => rfl) true lateAnswer 3
    (by decide)).mpr (.inl ⟨1, by decide, fun j hj => by
      obtain rfl : j = 0 := by omega
      rfl, .inr ⟨_, rfl, _, rfl, .inl ⟨_, rfl⟩⟩⟩)

/-- A chain that never has a result is called for ever. -/
theorem noResult_not_answered :
    ¬ ∀ (strOf : StrOf) (detector : ErrorDetector) (check : MessageCheck),
      BaseMessageDictionaryConverter.AcceptsText check →
      ∀ (shouldLog : Bool) (outcomes : Nat → Outcome) (maxAttempts : Nat), 1 ≤ maxAttempts →
        Answers strOf detector check shouldLog outcomes maxAttempts := by
  intro h
  have hanswers := h (fun _ => []) ⟨[], none, []⟩ (fun _ => none) (fun _ _ _ _ => rfl) true
    (fun _ => .returned (.value .none)) 1 (Nat.le_refl 1)
  rcases answerable_of_answers hanswers with ⟨k, -, -, hfatal | ⟨result, hresult, -⟩⟩ | hretries
  · cases hfatal
  · cases hresult
  · cases hretries 0 Nat.zero_lt_one

end RunContextRunnable

end NoraFleet.RunContext
