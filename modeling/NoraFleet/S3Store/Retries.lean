import Mathlib
import NoraFleet.S3Store.Credentials

/-!
# Two workers that retry alike

`AwsSyncClientWorker` and `AwsAsyncClientWorker` have each their own
`retry_with_new_client` and their own `do_with_retries`, written twice by hand.
A work function is a tree of S3 calls, every one of them wrapped in
`do_with_retries`; what the `n`-th S3 call does is the `n`-th of a sequence of
outcomes. A run logs its attempts, its S3 calls and the sessions it discards.

* `doWithRetries_eq` — the two wrappers do the same on every sequence of outcomes;
* `retryLoop_alike` — so do the loops around them, if the synchronous worker is
  coherent;
* `retry_alike` — the same log and the same end, within the calls the two limits
  allow.
-/

namespace NoraFleet.S3Store

open Base

/-! ## Exceptions -/

/-- What is found under `Error.Code`; a list or a dictionary has no hash. -/
inductive ResponseCode where
  | hashable (code : ErrorCode)
  | unhashable (text : PyStr)

/-- The code, as `get_error_code` reads it. -/
def ResponseCode.errorCode : ResponseCode → ErrorCode
  | .hashable code => code
  | .unhashable text => .other text

/-- The `response` of a `ClientError`: the code, and `HTTPStatusCode` if it is an
integer. -/
structure ErrorResponse where
  code : ResponseCode
  status : Option Int

/-- The exceptions, each with its identity. `TypeError` and `RuntimeError` are the
workers' own. -/
inductive WorkError (Id : Type*) where
  | clientError (id : Id) (response : ErrorResponse)
  | noCredentialsError (id : Id)
  | partialCredentialsError (id : Id)
  | botoCoreError (id : Id)
  | cancelledError (id : Id)
  | otherException (id : Id)
  | typeError
  | runtimeError

/-- What the classification of credential errors sees of an exception. -/
def WorkError.toAwsError {Id : Type*} : WorkError Id → AwsError
  | .clientError _ response => .clientError response.code.errorCode
  | .noCredentialsError _ => .noCredentialsError
  | .partialCredentialsError _ => .partialCredentialsError
  | _ => .otherError

/-- The codes of transient situations. -/
def retryableCodes : List PyStr :=
  [str "SlowDown", str "Throttling", str "ThrottlingException", str "RequestTimeout",
    str "RequestTimeoutException", str "InternalError", str "ServiceUnavailable", str "503"]

/-- `code in retryable_codes`, of a code that has a hash. -/
def ErrorCode.isRetryable : ErrorCode → Bool
  | .text code => retryableCodes.contains code
  | _ => false

/-- `is_retryable_client_error(err)`. A code without a hash cannot be looked up
in a set. -/
def isRetryableClientError {Id : Type*} (response : ErrorResponse) :
    Except (WorkError Id) Bool :=
  match response.code with
  | .unhashable _ => .error .typeError
  | .hashable code =>
      .ok (code.isRetryable ||
        match response.status with
        | some status => 500 ≤ status && status < 600
        | none => false)

/-! ## What a run does -/

/-- What is logged: an attempt of `retry_with_new_client`, an S3 call with its
attempt in `do_with_retries`, and the session discarded after an attempt. -/
inductive RetryEvent where
  | attempted (attempt : Nat)
  | called (attempt : Int)
  | discarded (attempt : Nat)
  deriving DecidableEq

def RetryEvent.isCall : RetryEvent → Bool
  | .called _ => true
  | _ => false

/-- How many S3 calls were made. -/
def callsMade (log : List RetryEvent) : Nat := log.countP RetryEvent.isCall

@[simp] theorem callsMade_append (log events : List RetryEvent) :
    callsMade (log ++ events) = callsMade log + callsMade events := List.countP_append

/-- What is logged of the session, from whether there was one before and is one
after. -/
def discardEvents (attempt : Nat) (before after : Option Nat) : List RetryEvent :=
  if before.isSome && after.isNone then [.discarded attempt] else []

variable {Id Value Result : Type}

/-- A work function: it ends, or makes an S3 call and goes on with what the
wrapper of the call returns or raises. -/
inductive Work (Id Value Result : Type) where
  | ends (outcome : Except (WorkError Id) Result)
  | s3Call (next : Except (WorkError Id) Value → Work Id Value Result)

/-- A wrapper of S3 calls, from the log before the call. -/
abbrev Wrapper (Id Value : Type) :=
  List RetryEvent → List RetryEvent × Except (WorkError Id) Value

/-- Run a work function with a wrapper. -/
def Work.run (wrapper : Wrapper Id Value) :
    Work Id Value Result → List RetryEvent → List RetryEvent × Except (WorkError Id) Result
  | .ends outcome, log => (log, outcome)
  | .s3Call next, log => (next (wrapper log).2).run wrapper (wrapper log).1

/-- A work function makes at most so many wrapped calls. -/
inductive Work.CallsAtMost : Nat → Work Id Value Result → Prop where
  | ends {n : Nat} (outcome : Except (WorkError Id) Result) : CallsAtMost n (.ends outcome)
  | s3Call {n : Nat} {next : Except (WorkError Id) Value → Work Id Value Result}
      (h : ∀ outcome, CallsAtMost n (next outcome)) : CallsAtMost (n + 1) (.s3Call next)

/-- How a run of `retry_with_new_client` ends: the worker, the log, and the value
or the exception. -/
structure RetryEnd (State Id Result : Type) where
  worker : State
  log : List RetryEvent
  outcome : Except (WorkError Id) Result

/-- After the last attempt: `last_err` is raised. -/
def exhausted (lastErr : Option (WorkError Id)) : Except (WorkError Id) Result :=
  match lastErr with
  | some err => .error err
  | none => .error .runtimeError

/-! ## The synchronous worker -/

namespace AwsSyncClientWorker

/-- `do_with_retries(source, fn, max_attempts=…)`, from an attempt on. -/
def doWithRetries (outcomes : Nat → Except (WorkError Id) Value) (maxAttempts attempt : Int)
    (log : List RetryEvent) : List RetryEvent × Except (WorkError Id) Value :=
  let called := log ++ [.called attempt]
  match outcomes (callsMade log) with
  | .ok value => (called, .ok value)
  | .error (.clientError id response) =>
      if attempt ≥ maxAttempts then (called, .error (.clientError id response))
      else
        match isRetryableClientError response with
        | .error err => (called, .error err)
        | .ok false => (called, .error (.clientError id response))
        | .ok true => doWithRetries outcomes maxAttempts (attempt + 1) called
  | .error (.noCredentialsError id) => (called, .error (.noCredentialsError id))
  | .error (.partialCredentialsError id) => (called, .error (.partialCredentialsError id))
  | .error (.botoCoreError id) =>
      if attempt ≥ maxAttempts then (called, .error (.botoCoreError id))
      else doWithRetries outcomes maxAttempts (attempt + 1) called
  -- `except Exception`, and what no clause catches
  | .error err => (called, .error err)
termination_by (maxAttempts - attempt).toNat

/-- `get_client()`, where creating a client succeeds. -/
def getClient (w : Worker) : Worker × Client :=
  match w.syncAwsClient with
  | some client => (w, client)
  | none =>
      let (w, session) := w.ensureSession
      let client : Client := ⟨w.created, session⟩
      ({ w with syncAwsClient := some client, created := w.created + 1 }, client)

/-- The loop of `retry_with_new_client` over the attempts that are left. -/
def retryLoop (outcomes : Nat → Except (WorkError Id) Value) (maxAttempts : Int)
    (workFunction : Nat → Work Id Value Result) :
    List Nat → Option (WorkError Id) → Worker → List RetryEvent → RetryEnd Worker Id Result
  | [], lastErr, worker, log => ⟨worker, log, exhausted lastErr⟩
  | attempt :: rest, _, worker, log =>
      let (worker, client) := getClient worker
      match (workFunction attempt).run (doWithRetries outcomes maxAttempts 1)
          (log ++ [.attempted attempt]) with
      | (log, .ok value) => ⟨worker, log, .ok value⟩
      | (log, .error err) =>
          if isCredentialRejectionError err.toAwsError then
            let worker' := worker.resetClient (some client)
            retryLoop outcomes maxAttempts workFunction rest (some err) worker'
              (log ++ discardEvents attempt worker.session worker'.session)
          else ⟨worker, log, .error err⟩

/-- `retry_with_new_client(work_function)`. -/
def retryWithNewClient (outcomes : Nat → Except (WorkError Id) Value) (maxAttempts : Int)
    (workFunction : Nat → Work Id Value Result) (worker : Worker) : RetryEnd Worker Id Result :=
  retryLoop outcomes maxAttempts workFunction (List.range' 1 credentialRetryMaxAttempts) none
    worker []

theorem getClientLocked_eq (w : Worker) :
    w.getClientLocked ⟨.ok true, none⟩ = ((getClient w).1, .ok (getClient w).2) := by
  unfold Worker.getClientLocked getClient
  cases w.syncAwsClient with
  | some client => rfl
  | none => rfl

end AwsSyncClientWorker

/-! ## The asynchronous worker -/

/-- The worker's session; `created` counts the sessions. -/
structure AsyncWorker where
  session : Option Nat
  created : Nat
  deriving DecidableEq

namespace AwsAsyncClientWorker

/-- `do_with_retries(source, fn, max_attempts=…)`, from an attempt on. -/
def doWithRetries (outcomes : Nat → Except (WorkError Id) Value) (maxAttempts attempt : Int)
    (log : List RetryEvent) : List RetryEvent × Except (WorkError Id) Value :=
  let called := log ++ [.called attempt]
  match outcomes (callsMade log) with
  | .ok value => (called, .ok value)
  | .error (.clientError id response) =>
      if attempt ≥ maxAttempts then (called, .error (.clientError id response))
      else
        match isRetryableClientError response with
        | .error err => (called, .error err)
        | .ok false => (called, .error (.clientError id response))
        | .ok true => doWithRetries outcomes maxAttempts (attempt + 1) called
  | .error (.noCredentialsError id) => (called, .error (.noCredentialsError id))
  | .error (.partialCredentialsError id) => (called, .error (.partialCredentialsError id))
  | .error (.botoCoreError id) =>
      if attempt ≥ maxAttempts then (called, .error (.botoCoreError id))
      else doWithRetries outcomes maxAttempts (attempt + 1) called
  -- `except CancelledError`, which the synchronous wrapper does not have
  | .error (.cancelledError id) => (called, .error (.cancelledError id))
  | .error err => (called, .error err)
termination_by (maxAttempts - attempt).toNat

/-- `get_or_create_session()`. -/
def getOrCreateSession (w : AsyncWorker) : AsyncWorker × Nat :=
  match w.session with
  | some session => (w, session)
  | none => (⟨some w.created, w.created + 1⟩, w.created)

/-- The loop of `retry_with_new_client` over the attempts that are left. Every
attempt has a client of its own, created from the session. -/
def retryLoop (outcomes : Nat → Except (WorkError Id) Value) (maxAttempts : Int)
    (workFunction : Nat → Work Id Value Result) :
    List Nat → Option (WorkError Id) → AsyncWorker → List RetryEvent →
      RetryEnd AsyncWorker Id Result
  | [], lastErr, worker, log => ⟨worker, log, exhausted lastErr⟩
  | attempt :: rest, _, worker, log =>
      let (worker, session) := getOrCreateSession worker
      match (workFunction attempt).run (doWithRetries outcomes maxAttempts 1)
          (log ++ [.attempted attempt]) with
      | (log, .ok value) => ⟨worker, log, .ok value⟩
      | (log, .error err) =>
          if isCredentialRejectionError err.toAwsError then
            let worker' :=
              if worker.session = some session then { worker with session := none } else worker
            retryLoop outcomes maxAttempts workFunction rest (some err) worker'
              (log ++ discardEvents attempt worker.session worker'.session)
          else ⟨worker, log, .error err⟩

/-- `retry_with_new_client(work_function)`. -/
def retryWithNewClient (outcomes : Nat → Except (WorkError Id) Value) (maxAttempts : Int)
    (workFunction : Nat → Work Id Value Result) (worker : AsyncWorker) :
    RetryEnd AsyncWorker Id Result :=
  retryLoop outcomes maxAttempts workFunction (List.range' 1 credentialRetryMaxAttempts) none
    worker []

end AwsAsyncClientWorker

/-! ## The wrappers -/

/-- What the retry policy says of the outcome of an attempt: how the call ends,
or nothing, which is another attempt. -/
def retryVerdict (maxAttempts attempt : Int) :
    Except (WorkError Id) Value → Option (Except (WorkError Id) Value)
  | .error (.clientError id response) =>
      if attempt ≥ maxAttempts then some (.error (.clientError id response))
      else
        match isRetryableClientError response with
        | .error err => some (.error err)
        | .ok retryable => if retryable then none else some (.error (.clientError id response))
  | .error (.botoCoreError id) =>
      if attempt ≥ maxAttempts then some (.error (.botoCoreError id)) else none
  | outcome => some outcome

/-- There is another attempt only below the limit. -/
theorem lt_of_retryVerdict_eq_none {maxAttempts attempt : Int}
    {outcome : Except (WorkError Id) Value}
    (h : retryVerdict maxAttempts attempt outcome = none) : attempt < maxAttempts := by
  cases outcome with
  | ok value => cases h
  | error err =>
      cases err with
      | clientError id response =>
          simp only [retryVerdict] at h
          by_cases hmax : attempt ≥ maxAttempts
          · rw [if_pos hmax] at h
            cases h
          · omega
      | botoCoreError id =>
          simp only [retryVerdict] at h
          by_cases hmax : attempt ≥ maxAttempts
          · rw [if_pos hmax] at h
            cases h
          · omega
      | _ => cases h

/-- The synchronous wrapper follows the policy. -/
theorem AwsSyncClientWorker.doWithRetries_step (outcomes : Nat → Except (WorkError Id) Value)
    (maxAttempts attempt : Int) (log : List RetryEvent) :
    doWithRetries outcomes maxAttempts attempt log =
      (retryVerdict maxAttempts attempt (outcomes (callsMade log))).elim
        (doWithRetries outcomes maxAttempts (attempt + 1) (log ++ [.called attempt]))
        fun outcome => (log ++ [.called attempt], outcome) := by
  rw [doWithRetries]
  cases outcomes (callsMade log) with
  | ok value => rfl
  | error err =>
      cases err with
      | clientError id response =>
          unfold retryVerdict
          dsimp only
          split
          · rfl
          · cases isRetryableClientError response with
            | error err => rfl
            | ok retryable => cases retryable <;> rfl
      | botoCoreError id =>
          unfold retryVerdict
          dsimp only
          split <;> rfl
      | _ => rfl

/-- The asynchronous wrapper follows the policy. -/
theorem AwsAsyncClientWorker.doWithRetries_step (outcomes : Nat → Except (WorkError Id) Value)
    (maxAttempts attempt : Int) (log : List RetryEvent) :
    doWithRetries outcomes maxAttempts attempt log =
      (retryVerdict maxAttempts attempt (outcomes (callsMade log))).elim
        (doWithRetries outcomes maxAttempts (attempt + 1) (log ++ [.called attempt]))
        fun outcome => (log ++ [.called attempt], outcome) := by
  rw [doWithRetries]
  cases outcomes (callsMade log) with
  | ok value => rfl
  | error err =>
      cases err with
      | clientError id response =>
          unfold retryVerdict
          dsimp only
          split
          · rfl
          · cases isRetryableClientError response with
            | error err => rfl
            | ok retryable => cases retryable <;> rfl
      | botoCoreError id =>
          unfold retryVerdict
          dsimp only
          split <;> rfl
      | _ => rfl

/-- The two wrappers do the same on every sequence of outcomes. The induction is
on the attempts left. -/
theorem doWithRetries_eq (outcomes : Nat → Except (WorkError Id) Value)
    (maxAttempts attempt : Int) (log : List RetryEvent) :
    AwsSyncClientWorker.doWithRetries outcomes maxAttempts attempt log =
      AwsAsyncClientWorker.doWithRetries outcomes maxAttempts attempt log := by
  induction hleft : (maxAttempts - attempt).toNat using Nat.strong_induction_on
    generalizing attempt log with
  | _ left ih =>
      rw [AwsSyncClientWorker.doWithRetries_step, AwsAsyncClientWorker.doWithRetries_step]
      cases hverdict : retryVerdict maxAttempts attempt (outcomes (callsMade log)) with
      | some outcome => rfl
      | none =>
          have hlt := lt_of_retryVerdict_eq_none hverdict
          exact ih _ (by omega) _ _ rfl

/-- A wrapped call makes one S3 call for every attempt that is left, and at least
one. -/
theorem callsMade_doWithRetries_le (outcomes : Nat → Except (WorkError Id) Value)
    (maxAttempts attempt : Int) (log : List RetryEvent) :
    callsMade (AwsSyncClientWorker.doWithRetries outcomes maxAttempts attempt log).1 ≤
      callsMade log + max 1 (maxAttempts - attempt + 1).toNat := by
  induction hleft : (maxAttempts - attempt).toNat using Nat.strong_induction_on
    generalizing attempt log with
  | _ left ih =>
      have hcalled : callsMade (log ++ [.called attempt]) = callsMade log + 1 := by
        rw [callsMade_append]
        rfl
      rw [AwsSyncClientWorker.doWithRetries_step]
      cases hverdict : retryVerdict maxAttempts attempt (outcomes (callsMade log)) with
      | some outcome =>
          show callsMade (log ++ [.called attempt]) ≤ _
          omega
      | none =>
          have hlt := lt_of_retryVerdict_eq_none hverdict
          have hrest := ih _ (by omega) (attempt + 1) (log ++ [.called attempt]) rfl
          rw [hcalled] at hrest
          exact hrest.trans (by omega)

/-- A run of a work function makes, for each of its calls, at most as many as a
wrapped call does. -/
theorem callsMade_run_le {wrapper : Wrapper Id Value} {most : Nat}
    (hwrapper : ∀ log, callsMade (wrapper log).1 ≤ callsMade log + most) {n : Nat}
    {work : Work Id Value Result} (hwork : work.CallsAtMost n) (log : List RetryEvent) :
    callsMade (work.run wrapper log).1 ≤ callsMade log + n * most := by
  induction hwork generalizing log with
  | ends outcome => exact Nat.le_add_right _ _
  | s3Call h ih =>
      rename_i n next
      have hrest := ih (wrapper log).2 (wrapper log).1
      have hfirst := hwrapper log
      show callsMade ((next (wrapper log).2).run wrapper (wrapper log).1).1 ≤ _
      rw [Nat.succ_mul]
      omega

/-! ## The loops -/

/-- A client that was got is cached, and its session is. -/
theorem getClient_spec {w : Worker} (h : ClientsRight w) :
    (AwsSyncClientWorker.getClient w).1.syncAwsClient =
        some (AwsSyncClientWorker.getClient w).2 ∧
      (AwsSyncClientWorker.getClient w).1.session =
        some (AwsSyncClientWorker.getClient w).2.session := by
  unfold AwsSyncClientWorker.getClient
  cases hclient : w.syncAwsClient with
  | some client => exact ⟨hclient, h.fromSession client hclient⟩
  | none => exact ⟨rfl, (ensureSession_spec w).1⟩

theorem getOrCreateSession_spec (w : AsyncWorker) :
    (AwsAsyncClientWorker.getOrCreateSession w).1.session =
      some (AwsAsyncClientWorker.getOrCreateSession w).2 := by
  unfold AwsAsyncClientWorker.getOrCreateSession
  cases hsession : w.session with
  | some session => exact hsession
  | none => rfl

theorem ClientsRight.getClient {w : Worker} (h : ClientsRight w) :
    ClientsRight (AwsSyncClientWorker.getClient w).1 := by
  have hlocked := h.getClientLocked ⟨.ok true, none⟩
  rw [AwsSyncClientWorker.getClientLocked_eq] at hlocked
  exact hlocked

/-- The worker without session and client is coherent. -/
theorem ClientsRight.resetClient {w : Worker} (h : ClientsRight w) {client : Client}
    (hclient : w.syncAwsClient = some client) :
    ClientsRight (w.resetClient (some client)) ∧
      (w.resetClient (some client)).session = none := by
  unfold Worker.resetClient
  rw [if_neg fun hother => hother.2 hclient]
  exact ⟨⟨fun _ heq => absurd heq (by simp), h.ownFailure⟩, rfl⟩

namespace AwsSyncClientWorker

variable {outcomes : Nat → Except (WorkError Id) Value} {maxAttempts : Int}
  {workFunction : Nat → Work Id Value Result} {attempt : Nat} {rest : List Nat}
  {lastErr : Option (WorkError Id)} {w : Worker} {log log' : List RetryEvent}

/-- An attempt that ends, with a value or with an error that is no rejection of the
credentials, ends the loop. -/
theorem retryLoop_end {outcome : Except (WorkError Id) Result}
    (hrun : (workFunction attempt).run (doWithRetries outcomes maxAttempts 1)
      (log ++ [.attempted attempt]) = (log', outcome))
    (hend : ∀ err, outcome = .error err → isCredentialRejectionError err.toAwsError = false) :
    retryLoop outcomes maxAttempts workFunction (attempt :: rest) lastErr w log =
      ⟨(getClient w).1, log', outcome⟩ := by
  unfold retryLoop
  dsimp only
  rw [hrun]
  cases outcome with
  | ok value => rfl
  | error err =>
      dsimp only
      rw [if_neg (by rw [hend err rfl]; decide)]

/-- A rejection resets the client, and the loop goes on. -/
theorem retryLoop_rejected {err : WorkError Id}
    (hrun : (workFunction attempt).run (doWithRetries outcomes maxAttempts 1)
      (log ++ [.attempted attempt]) = (log', .error err))
    (hrejection : isCredentialRejectionError err.toAwsError = true) :
    retryLoop outcomes maxAttempts workFunction (attempt :: rest) lastErr w log =
      retryLoop outcomes maxAttempts workFunction rest (some err)
        ((getClient w).1.resetClient (some (getClient w).2))
        (log' ++ discardEvents attempt (getClient w).1.session
          ((getClient w).1.resetClient (some (getClient w).2)).session) := by
  rw [retryLoop]
  dsimp only
  rw [hrun]
  dsimp only
  rw [if_pos hrejection]

end AwsSyncClientWorker

namespace AwsAsyncClientWorker

variable {outcomes : Nat → Except (WorkError Id) Value} {maxAttempts : Int}
  {workFunction : Nat → Work Id Value Result} {attempt : Nat} {rest : List Nat}
  {lastErr : Option (WorkError Id)} {w : AsyncWorker} {log log' : List RetryEvent}

/-- An attempt that ends, with a value or with an error that is no rejection of the
credentials, ends the loop. -/
theorem retryLoop_end {outcome : Except (WorkError Id) Result}
    (hrun : (workFunction attempt).run (doWithRetries outcomes maxAttempts 1)
      (log ++ [.attempted attempt]) = (log', outcome))
    (hend : ∀ err, outcome = .error err → isCredentialRejectionError err.toAwsError = false) :
    retryLoop outcomes maxAttempts workFunction (attempt :: rest) lastErr w log =
      ⟨(getOrCreateSession w).1, log', outcome⟩ := by
  unfold retryLoop
  dsimp only
  rw [hrun]
  cases outcome with
  | ok value => rfl
  | error err =>
      dsimp only
      rw [if_neg (by rw [hend err rfl]; decide)]

/-- A rejection discards the session, which is the worker's, and the loop goes on. -/
theorem retryLoop_rejected {err : WorkError Id}
    (hrun : (workFunction attempt).run (doWithRetries outcomes maxAttempts 1)
      (log ++ [.attempted attempt]) = (log', .error err))
    (hrejection : isCredentialRejectionError err.toAwsError = true) :
    retryLoop outcomes maxAttempts workFunction (attempt :: rest) lastErr w log =
      retryLoop outcomes maxAttempts workFunction rest (some err)
        ⟨none, (getOrCreateSession w).1.created⟩
        (log' ++ discardEvents attempt (getOrCreateSession w).1.session none) := by
  rw [retryLoop]
  dsimp only
  rw [hrun]
  dsimp only
  rw [if_pos hrejection, if_pos (getOrCreateSession_spec w)]

end AwsAsyncClientWorker

/-- From coherent workers, the two loops log the same and end the same. The
induction is on the attempts left; what carries it is that both workers have a
session when the work function runs, and none after a rejection. -/
theorem retryLoop_alike (outcomes : Nat → Except (WorkError Id) Value) (maxAttempts : Int)
    (workFunction : Nat → Work Id Value Result) (attempts : List Nat)
    (lastErr : Option (WorkError Id)) {w : Worker} (hw : ClientsRight w) (a : AsyncWorker)
    (log : List RetryEvent) :
    (AwsSyncClientWorker.retryLoop outcomes maxAttempts workFunction attempts lastErr w log).log =
        (AwsAsyncClientWorker.retryLoop outcomes maxAttempts workFunction attempts lastErr a
          log).log ∧
      (AwsSyncClientWorker.retryLoop outcomes maxAttempts workFunction attempts lastErr w
          log).outcome =
        (AwsAsyncClientWorker.retryLoop outcomes maxAttempts workFunction attempts lastErr a
          log).outcome := by
  have hwrapper : AwsSyncClientWorker.doWithRetries outcomes maxAttempts 1 =
      AwsAsyncClientWorker.doWithRetries outcomes maxAttempts 1 :=
    funext (doWithRetries_eq outcomes maxAttempts 1)
  induction attempts generalizing lastErr w a log with
  | nil => exact ⟨rfl, rfl⟩
  | cons attempt rest ih =>
      obtain ⟨log', outcome, hrun⟩ : ∃ log' outcome, (workFunction attempt).run
          (AwsSyncClientWorker.doWithRetries outcomes maxAttempts 1)
          (log ++ [.attempted attempt]) = (log', outcome) := ⟨_, _, rfl⟩
      have hrun' := hrun
      rw [hwrapper] at hrun'
      by_cases hend : ∀ err, outcome = .error err →
          isCredentialRejectionError err.toAwsError = false
      · rw [AwsSyncClientWorker.retryLoop_end hrun hend,
          AwsAsyncClientWorker.retryLoop_end hrun' hend]
        exact ⟨rfl, rfl⟩
      · push Not at hend
        obtain ⟨err, rfl, hrejection⟩ := hend
        have hrejection := Bool.eq_true_of_not_eq_false hrejection
        -- both sessions are there, and both are discarded
        obtain ⟨hclient, hsession⟩ := getClient_spec hw
        obtain ⟨hreset, hnone⟩ := hw.getClient.resetClient hclient
        rw [AwsSyncClientWorker.retryLoop_rejected hrun hrejection,
          AwsAsyncClientWorker.retryLoop_rejected hrun' hrejection, hsession, hnone,
          getOrCreateSession_spec]
        exact ih (some err) hreset _ _

theorem callsMade_discardEvents (attempt : Nat) (before after : Option Nat) :
    callsMade (discardEvents attempt before after) = 0 := by
  unfold discardEvents
  split <;> rfl

/-- Every attempt that is left makes at most as many S3 calls as the work
function's calls allow. -/
theorem callsMade_retryLoop_le (outcomes : Nat → Except (WorkError Id) Value)
    (maxAttempts : Int) {workFunction : Nat → Work Id Value Result} {n : Nat}
    (hwork : ∀ attempt, (workFunction attempt).CallsAtMost n) (attempts : List Nat)
    (lastErr : Option (WorkError Id)) (w : Worker) (log : List RetryEvent) :
    callsMade (AwsSyncClientWorker.retryLoop outcomes maxAttempts workFunction attempts lastErr w
        log).log ≤
      callsMade log + attempts.length * (n * max 1 maxAttempts.toNat) := by
  have hwrapper : ∀ log, callsMade
      (AwsSyncClientWorker.doWithRetries outcomes maxAttempts 1 log).1 ≤
        callsMade log + max 1 maxAttempts.toNat := by
    intro log
    have h := callsMade_doWithRetries_le outcomes maxAttempts 1 log
    rwa [sub_add_cancel] at h
  induction attempts generalizing lastErr w log with
  | nil => exact Nat.le_add_right _ _
  | cons attempt rest ih =>
      obtain ⟨log', outcome, hrun⟩ : ∃ log' outcome, (workFunction attempt).run
          (AwsSyncClientWorker.doWithRetries outcomes maxAttempts 1)
          (log ++ [.attempted attempt]) = (log', outcome) := ⟨_, _, rfl⟩
      have hcalls := callsMade_run_le hwrapper (hwork attempt) (log ++ [.attempted attempt])
      rw [hrun, callsMade_append, show callsMade [.attempted attempt] = 0 from rfl] at hcalls
      rw [List.length_cons, Nat.succ_mul]
      by_cases hend : ∀ err, outcome = .error err →
          isCredentialRejectionError err.toAwsError = false
      · rw [AwsSyncClientWorker.retryLoop_end hrun hend]
        show callsMade log' ≤ _
        dsimp only at hcalls
        omega
      · push Not at hend
        obtain ⟨err, rfl, hrejection⟩ := hend
        rw [AwsSyncClientWorker.retryLoop_rejected hrun
          (Bool.eq_true_of_not_eq_false hrejection)]
        refine (ih _ _ _).trans ?_
        rw [callsMade_append, callsMade_discardEvents]
        dsimp only at hcalls
        omega

/-- Whatever the S3 calls do, a coherent synchronous worker and an asynchronous one
make the same attempts on both levels, discard their sessions after the same
attempts, and return the same value or raise the same exception. A work function
of `n` wrapped calls makes at most `n` times the product of the two limits. -/
theorem retry_alike (outcomes : Nat → Except (WorkError Id) Value) (maxAttempts : Int)
    (workFunction : Nat → Work Id Value Result) {w : Worker} (hw : ClientsRight w)
    (a : AsyncWorker) :
    (AwsSyncClientWorker.retryWithNewClient outcomes maxAttempts workFunction w).log =
        (AwsAsyncClientWorker.retryWithNewClient outcomes maxAttempts workFunction a).log ∧
      (AwsSyncClientWorker.retryWithNewClient outcomes maxAttempts workFunction w).outcome =
        (AwsAsyncClientWorker.retryWithNewClient outcomes maxAttempts workFunction a).outcome ∧
      ∀ n, (∀ attempt, (workFunction attempt).CallsAtMost n) →
        callsMade
            (AwsSyncClientWorker.retryWithNewClient outcomes maxAttempts workFunction w).log ≤
          n * (credentialRetryMaxAttempts * max 1 maxAttempts.toNat) := by
  obtain ⟨hlog, houtcome⟩ := retryLoop_alike outcomes maxAttempts workFunction
    (List.range' 1 credentialRetryMaxAttempts) none hw a []
  refine ⟨hlog, houtcome, fun n hwork => ?_⟩
  have hcalls := callsMade_retryLoop_le outcomes maxAttempts hwork
    (List.range' 1 credentialRetryMaxAttempts) none w []
  rw [List.length_range'] at hcalls
  calc callsMade (AwsSyncClientWorker.retryWithNewClient outcomes maxAttempts workFunction w).log
      ≤ callsMade [] + credentialRetryMaxAttempts * (n * max 1 maxAttempts.toNat) := hcalls
    _ = n * (credentialRetryMaxAttempts * max 1 maxAttempts.toNat) := by
        rw [show callsMade [] = 0 from rfl]
        ring

/-! ## A run -/

theorem clientsRight_initial : ClientsRight Worker.initial where
  fromSession _ heq := absurd heq (by simp [Worker.initial])
  ownFailure _ hmem := absurd hmem List.not_mem_nil

/-- The first S3 call is throttled, the second finds the token expired, and the
third returns. -/
def throttledThenExpired : Nat → Except (WorkError Nat) Nat
  | 0 => .error (.clientError 0 ⟨.hashable (.text (str "SlowDown")), some 503⟩)
  | 1 => .error (.clientError 1 ⟨.hashable (.text (str "ExpiredToken")), some 400⟩)
  | _ => .ok 7

/-- A work function of one S3 call. -/
def oneCall (_attempt : Nat) : Work Nat Nat Nat := .s3Call .ends

theorem retry_alike_one_call :
    (AwsSyncClientWorker.retryWithNewClient throttledThenExpired 8 oneCall Worker.initial).log =
        [.attempted 1, .called 1, .called 2, .discarded 1, .attempted 2, .called 1] ∧
      (AwsSyncClientWorker.retryWithNewClient throttledThenExpired 8 oneCall
          Worker.initial).log =
        (AwsAsyncClientWorker.retryWithNewClient throttledThenExpired 8 oneCall ⟨none, 0⟩).log ∧
      callsMade
          (AwsSyncClientWorker.retryWithNewClient throttledThenExpired 8 oneCall
            Worker.initial).log ≤ 1 * (4 * 8) := by
  have h := retry_alike throttledThenExpired 8 oneCall
    clientsRight_initial ⟨none, 0⟩
  refine ⟨?_, h.1, h.2.2 1 fun _ => .s3Call fun outcome => .ends outcome⟩
  have hfirst : (oneCall 1).run (AwsSyncClientWorker.doWithRetries throttledThenExpired 8 1)
      [.attempted 1] = ([.attempted 1, .called 1, .called 2], throttledThenExpired 1) := by
    rw [oneCall, Work.run, Work.run, AwsSyncClientWorker.doWithRetries_step]
    show (AwsSyncClientWorker.doWithRetries throttledThenExpired 8 2
      [.attempted 1, .called 1]) = _
    rw [AwsSyncClientWorker.doWithRetries_step]
    rfl
  have hsecond : (oneCall 2).run (AwsSyncClientWorker.doWithRetries throttledThenExpired 8 1)
      [.attempted 1, .called 1, .called 2, .discarded 1, .attempted 2] =
        ([.attempted 1, .called 1, .called 2, .discarded 1, .attempted 2, .called 1], .ok 7) := by
    rw [oneCall, Work.run, Work.run, AwsSyncClientWorker.doWithRetries_step]
    rfl
  have hexpired : isCredentialRejectionError (WorkError.toAwsError (.clientError 1
      ⟨.hashable (.text (str "ExpiredToken")), some 400⟩)) = true := by decide
  rw [AwsSyncClientWorker.retryWithNewClient,
    show List.range' 1 credentialRetryMaxAttempts = [1, 2, 3, 4] from rfl,
    AwsSyncClientWorker.retryLoop_rejected hfirst hexpired]
  refine congrArg RetryEnd.log (AwsSyncClientWorker.retryLoop_end hsecond ?_)
  intro err herr
  cases herr

end NoraFleet.S3Store
