import Mathlib
import NoraFleet.Base.Interleaving
import NoraFleet.Base.Text

/-!
# The S3 client that threads share

`AwsSyncClientWorker` keeps one session and one client. Any number of threads
run `retry_with_new_client`: each reads the cached client without the lock, or
creates it under the lock, calls its work function with it, and on a rejection
of the credentials discards session and client under the lock, if the client is
still the one it failed with.

Every lock block, every unlocked read and every call of a work function is one
step. What a call has tried so far is recorded with it, and every client that
was discarded is recorded beside the worker.

* `CallRight.step` — a step keeps to the retry policy;
* `CallRight.stepSpec` — what a step makes of the attempt that it ends;
* `rank_lt_of_step` — every step brings its call nearer to its end;
* `ClientsRight.step` — a step keeps the cache coherent, and discards only the
  client its own call failed with;
* `retry_with_new_client_correct` — all of it, in every run.
-/

namespace NoraFleet.S3Store

open Base Base.Program

/-! ## Errors -/

/-- What is found under `Error.Code` in the response of a `ClientError`: a text,
or a value of another kind, of which only its text form is used. -/
inductive ErrorCode where
  | none
  | text (code : PyStr)
  | other (code : PyStr)
  deriving DecidableEq

/-- An exception of `get_client` or of a work function. -/
inductive AwsError where
  | clientError (code : ErrorCode)
  | noCredentialsError
  | partialCredentialsError
  | otherError
  deriving DecidableEq

/-- `get_error_code(err)`. -/
def getErrorCode : ErrorCode → PyStr
  | .none => []
  | .text code => code
  | .other code => code

/-- `is_expired_token_error(err)`, from the code. -/
def isExpiredTokenError (code : ErrorCode) : Bool :=
  decide (str "ExpiredToken" <:+: getErrorCode code)

/-- `is_credential_rejection_error(err)`. -/
def isCredentialRejectionError : AwsError → Bool
  | .noCredentialsError => true
  | .partialCredentialsError => true
  | .otherError => false
  | .clientError code =>
      isExpiredTokenError code ||
        getErrorCode code = str "InvalidToken" || getErrorCode code = str "TokenRefreshRequired"

/-! ## The worker -/

/-- A client, and the session that created it. -/
structure Client where
  id : Nat
  session : Nat
  deriving DecidableEq

/-- A client that was discarded, and the one the call that did it had failed
with. -/
structure Discard where
  discarded : Client
  failedWith : Option Client
  deriving DecidableEq

/-- The worker's session and client, and what was discarded so far. `created`
counts the sessions and clients, so that each has an identity of its own. -/
structure Worker where
  session : Option Nat
  syncAwsClient : Option Client
  created : Nat
  discards : List Discard
  deriving DecidableEq

/-- The worker as constructed. -/
def Worker.initial : Worker := ⟨none, none, 0, []⟩

/-- What the AWS library answers: whether the session resolves credentials,
and whether it can create a client. -/
structure ChainAnswer where
  getCredentials : Except AwsError Bool
  createClient : Option AwsError

namespace Worker

/-- The session, created if there is none. -/
def ensureSession (w : Worker) : Worker × Nat :=
  match w.session with
  | some session => (w, session)
  | none => ({ w with session := some w.created, created := w.created + 1 }, w.created)

/-- The lock block of `get_client()`. -/
def getClientLocked (answer : ChainAnswer) (w : Worker) : Worker × Except AwsError Client :=
  match w.syncAwsClient with
  | some client => (w, .ok client)
  | none =>
      let (w, session) := w.ensureSession
      match answer.getCredentials with
      | .error err => (w, .error err)
      | .ok false => (w, .error .noCredentialsError)
      | .ok true =>
          match answer.createClient with
          | some err => (w, .error err)
          | none =>
              let client : Client := ⟨w.created, session⟩
              ({ w with syncAwsClient := some client, created := w.created + 1 }, .ok client)

/-- `reset_client(failed_client)`. -/
def resetClient (failedClient : Option Client) (w : Worker) : Worker :=
  if failedClient ≠ none ∧ w.syncAwsClient ≠ failedClient then w
  else { w with syncAwsClient := none, session := none }

/-- The worker after a step of a call that had failed with `failedWith`: a
client that was cached before and is not any more was discarded. -/
def recordDiscard (before after : Worker) (failedWith : Option Client) : Worker :=
  match before.syncAwsClient, after.syncAwsClient with
  | some client, none => { after with discards := after.discards ++ [⟨client, failedWith⟩] }
  | _, _ => after

end Worker

/-! ## The calls -/

/-- `CREDENTIAL_RETRY_MAX_ATTEMPTS`. -/
def credentialRetryMaxAttempts : Nat := 4

/-- One attempt: the client, if `get_client` returned one, and how the attempt
ended. -/
structure Attempt (Value : Type*) where
  client : Option Client
  outcome : Except AwsError Value

/-- Where a call of `retry_with_new_client` stands, with what it has tried. -/
inductive RetryCall (Value : Type*) where
  | readClient (attempt : Nat) (tried : List (Attempt Value))
  | lockClient (attempt : Nat) (tried : List (Attempt Value))
  | work (attempt : Nat) (tried : List (Attempt Value)) (client : Client)
  | reset (attempt : Nat) (tried : List (Attempt Value)) (client : Client) (err : AwsError)
  | returned (tried : List (Attempt Value)) (value : Value)
  | raised (tried : List (Attempt Value)) (err : AwsError)

/-- What comes from outside in a step: the answers of the AWS library and how
the work function ends. -/
structure RetryAnswer (Value : Type*) where
  chain : ChainAnswer
  work : Except AwsError Value

variable {Value : Type*}

/-- The end of an attempt that failed: another one, if there is one left. -/
def nextAttempt (attempt : Nat) (tried : List (Attempt Value)) (err : AwsError) :
    RetryCall Value :=
  if attempt < credentialRetryMaxAttempts then .readClient (attempt + 1) tried
  else .raised tried err

/-- The handler of an attempt's exception. -/
def handleError (attempt : Nat) (tried : List (Attempt Value)) (client : Option Client)
    (err : AwsError) : RetryCall Value :=
  let tried := tried ++ [⟨client, .error err⟩]
  if isCredentialRejectionError err then
    match client with
    | some client => .reset attempt tried client err
    | none => nextAttempt attempt tried err
  else .raised tried err

/-- What the last attempt's client was. -/
def lastClient (tried : List (Attempt Value)) : Option Client :=
  tried.getLast?.bind Attempt.client

/-- One step of a call. -/
def retryStep (answer : RetryAnswer Value) (w : Worker) :
    RetryCall Value → Option (Worker × RetryCall Value)
  | .readClient attempt tried =>
      match w.syncAwsClient with
      | some localClient => some (w, .work attempt tried localClient)
      | none => some (w, .lockClient attempt tried)
  | .lockClient attempt tried =>
      match w.getClientLocked answer.chain with
      | (w', .ok client) => some (w', .work attempt tried client)
      | (w', .error err) => some (w', handleError attempt tried none err)
  | .work attempt tried client =>
      match answer.work with
      | .ok value => some (w, .returned (tried ++ [⟨some client, .ok value⟩]) value)
      | .error err => some (w, handleError attempt tried (some client) err)
  | .reset attempt tried client err =>
      some (w.recordDiscard (w.resetClient (some client)) (lastClient tried),
        nextAttempt attempt tried err)
  | .returned _ _ => none
  | .raised _ _ => none

/-- Any number of calls on one worker. -/
def retryProgram (Value : Type*) :
    Program Worker Unit (RetryCall Value) (RetryAnswer Value) Empty where
  start _ := .readClient 1 []
  step := retryStep
  env e _ := nomatch e

/-- What a step can do: read the cached client, or wait for the lock; get or
create a client, or fail to; return, or handle an error; reset. -/
theorem retryStep_cases {answer : RetryAnswer Value} {w w' : Worker} {l l' : RetryCall Value}
    (hs : retryStep answer w l = some (w', l')) :
    (∃ attempt tried, l = .readClient attempt tried ∧ w' = w ∧
      (l' = .lockClient attempt tried ∨ ∃ client, l' = .work attempt tried client)) ∨
    (∃ attempt tried, l = .lockClient attempt tried ∧
      w' = (w.getClientLocked answer.chain).1 ∧
      ((∃ client, l' = .work attempt tried client) ∨
        ∃ err, l' = handleError attempt tried none err)) ∨
    (∃ attempt tried client, l = .work attempt tried client ∧ w' = w ∧
      ((∃ value, l' = .returned (tried ++ [⟨some client, .ok value⟩]) value) ∨
        ∃ err, l' = handleError attempt tried (some client) err)) ∨
    (∃ attempt tried client err, l = .reset attempt tried client err ∧
      w' = w.recordDiscard (w.resetClient (some client)) (lastClient tried) ∧
      l' = nextAttempt attempt tried err) := by
  cases l with
  | readClient attempt tried =>
      left
      simp only [retryStep] at hs
      split at hs
      · rename_i client _
        obtain ⟨rfl, rfl⟩ := Prod.mk.inj (Option.some.inj hs)
        exact ⟨attempt, tried, rfl, rfl, .inr ⟨client, rfl⟩⟩
      · obtain ⟨rfl, rfl⟩ := Prod.mk.inj (Option.some.inj hs)
        exact ⟨attempt, tried, rfl, rfl, .inl rfl⟩
  | lockClient attempt tried =>
      right; left
      simp only [retryStep] at hs
      split at hs
      · rename_i client heq
        obtain ⟨rfl, rfl⟩ := Prod.mk.inj (Option.some.inj hs)
        exact ⟨attempt, tried, rfl, by rw [heq], .inl ⟨client, rfl⟩⟩
      · rename_i err heq
        obtain ⟨rfl, rfl⟩ := Prod.mk.inj (Option.some.inj hs)
        exact ⟨attempt, tried, rfl, by rw [heq], .inr ⟨err, rfl⟩⟩
  | work attempt tried client =>
      right; right; left
      simp only [retryStep] at hs
      split at hs
      · rename_i value _
        obtain ⟨rfl, rfl⟩ := Prod.mk.inj (Option.some.inj hs)
        exact ⟨attempt, tried, client, rfl, rfl, .inl ⟨value, rfl⟩⟩
      · rename_i err _
        obtain ⟨rfl, rfl⟩ := Prod.mk.inj (Option.some.inj hs)
        exact ⟨attempt, tried, client, rfl, rfl, .inr ⟨err, rfl⟩⟩
  | reset attempt tried client err =>
      right; right; right
      obtain ⟨rfl, rfl⟩ := Prod.mk.inj (Option.some.inj hs)
      exact ⟨attempt, tried, client, err, rfl, rfl, rfl⟩
  | returned tried value => cases hs
  | raised tried err => cases hs

/-! ## The retry policy -/

namespace RetryCall

/-- What a call has tried so far. -/
def tried : RetryCall Value → List (Attempt Value)
  | .readClient _ tried => tried
  | .lockClient _ tried => tried
  | .work _ tried _ => tried
  | .reset _ tried _ _ => tried
  | .returned tried _ => tried
  | .raised tried _ => tried

/-- How often a call has invoked its work function, the invocation that is going
on included. -/
def invocations (call : RetryCall Value) : Nat :=
  (call.tried.filter fun attempt => attempt.client.isSome).length +
    match call with
    | .work _ _ _ => 1
    | _ => 0

end RetryCall

/-- All attempts were rejections of the credentials. -/
def Rejected (tried : List (Attempt Value)) : Prop :=
  ∀ attempt ∈ tried, ∃ err, attempt.outcome = .error err ∧ isCredentialRejectionError err = true

/-- What the code keeps at each control point: rejections only, as many as there
were attempts, and at the end the attempt that ended the call. -/
def CallRight : RetryCall Value → Prop
  | .readClient attempt tried =>
      Rejected tried ∧ tried.length + 1 = attempt ∧ attempt ≤ credentialRetryMaxAttempts
  | .lockClient attempt tried =>
      Rejected tried ∧ tried.length + 1 = attempt ∧ attempt ≤ credentialRetryMaxAttempts
  | .work attempt tried _ =>
      Rejected tried ∧ tried.length + 1 = attempt ∧ attempt ≤ credentialRetryMaxAttempts
  | .reset attempt tried client err =>
      Rejected tried ∧ tried.length = attempt ∧ attempt ≤ credentialRetryMaxAttempts ∧
        tried.getLast? = some ⟨some client, .error err⟩
  | .returned tried value =>
      ∃ rejected client, Rejected rejected ∧ tried = rejected ++ [⟨some client, .ok value⟩] ∧
        tried.length ≤ credentialRetryMaxAttempts
  | .raised tried err =>
      ∃ rejected client, Rejected rejected ∧ tried = rejected ++ [⟨client, .error err⟩] ∧
        tried.length ≤ credentialRetryMaxAttempts ∧
        (isCredentialRejectionError err = true → tried.length = credentialRetryMaxAttempts)

theorem Rejected.concat {tried : List (Attempt Value)} (h : Rejected tried)
    (client : Option Client) {err : AwsError} (herr : isCredentialRejectionError err = true) :
    Rejected (tried ++ [⟨client, .error err⟩]) := by
  intro attempt hmem
  rcases List.mem_append.mp hmem with hmem | hmem
  · exact h attempt hmem
  · rw [List.mem_singleton.mp hmem]
    exact ⟨err, rfl, herr⟩

/-- After a rejected attempt. -/
theorem CallRight.next {attempt : Nat} {tried : List (Attempt Value)} {client : Option Client}
    {err : AwsError} (hrejected : Rejected tried) (hlength : tried.length = attempt)
    (hmax : attempt ≤ credentialRetryMaxAttempts)
    (hlast : tried.getLast? = some ⟨client, .error err⟩) :
    CallRight (nextAttempt attempt tried err) := by
  unfold nextAttempt
  split
  · rename_i hless
    exact ⟨hrejected, by rw [hlength], hless⟩
  · rename_i hleast
    obtain ⟨rejected, rfl⟩ := List.getLast?_eq_some_iff.mp hlast
    refine ⟨rejected, client, ?_, rfl, by omega, fun _ => by omega⟩
    intro attempt hmem
    exact hrejected attempt (List.mem_append_left _ hmem)

/-- After any failed attempt. -/
theorem CallRight.handle {attempt : Nat} {tried : List (Attempt Value)}
    (hrejected : Rejected tried) (hlength : tried.length + 1 = attempt)
    (hmax : attempt ≤ credentialRetryMaxAttempts) (client : Option Client) (err : AwsError) :
    CallRight (handleError attempt tried client err) := by
  have hlength' : (tried ++ [(⟨client, .error err⟩ : Attempt Value)]).length = attempt := by
    rw [List.length_append]
    exact hlength
  unfold handleError
  dsimp only
  split
  · rename_i hrejection
    have hrejected' := hrejected.concat client hrejection
    cases client with
    | some client => exact ⟨hrejected', hlength', hmax, List.getLast?_concat⟩
    | none => exact .next hrejected' hlength' hmax List.getLast?_concat
  · rename_i hother
    exact ⟨tried, client, hrejected, rfl, hlength'.trans_le hmax, fun h => absurd h hother⟩

/-- A step keeps to the retry policy. -/
theorem CallRight.step {answer : RetryAnswer Value} {w w' : Worker} {l l' : RetryCall Value}
    (h : CallRight l) (hs : retryStep answer w l = some (w', l')) : CallRight l' := by
  rcases retryStep_cases hs with ⟨attempt, tried, rfl, -, hnext⟩ |
    ⟨attempt, tried, rfl, -, hnext⟩ | ⟨attempt, tried, client, rfl, -, hnext⟩ |
    ⟨attempt, tried, client, err, rfl, -, rfl⟩
  · rcases hnext with rfl | ⟨client, rfl⟩
    · exact h
    · exact h
  · rcases hnext with ⟨client, rfl⟩ | ⟨err, rfl⟩
    · exact h
    · exact .handle h.1 h.2.1 h.2.2 none err
  · obtain ⟨hrejected, hlength, hmax⟩ := h
    rcases hnext with ⟨value, rfl⟩ | ⟨err, rfl⟩
    · refine ⟨tried, client, hrejected, rfl, ?_⟩
      rw [List.length_append]
      exact hlength.trans_le hmax
    · exact .handle hrejected hlength hmax (some client) err
  · obtain ⟨hrejected, hlength, hmax, hlast⟩ := h
    exact .next hrejected hlength hmax hlast

/-! ## The cache -/

/-- A cached client was created from the cached session, and every client that
was discarded is the one the call that did it had failed with. -/
structure ClientsRight (w : Worker) : Prop where
  fromSession : ∀ client, w.syncAwsClient = some client → w.session = some client.session
  ownFailure : ∀ discard ∈ w.discards, discard.failedWith = some discard.discarded

theorem ensureSession_spec (w : Worker) :
    w.ensureSession.1.session = some w.ensureSession.2 ∧
      w.ensureSession.1.syncAwsClient = w.syncAwsClient ∧
      w.ensureSession.1.discards = w.discards := by
  unfold Worker.ensureSession
  split
  · rename_i session hsession
    exact ⟨hsession, rfl, rfl⟩
  · exact ⟨rfl, rfl, rfl⟩

/-- The lock block of `get_client` creates a client from the session it
leaves. -/
theorem ClientsRight.getClientLocked {w : Worker} (h : ClientsRight w) (answer : ChainAnswer) :
    ClientsRight (w.getClientLocked answer).1 := by
  obtain ⟨hsession, hclient, hdiscards⟩ := ensureSession_spec w
  unfold Worker.getClientLocked
  split
  · exact h
  · rename_i hnone
    have hkept : ClientsRight w.ensureSession.1 := by
      refine ⟨fun client heq => ?_, fun discard hmem => h.ownFailure discard (hdiscards ▸ hmem)⟩
      rw [hclient, hnone] at heq
      cases heq
    dsimp only
    split
    · exact hkept
    · exact hkept
    · split
      · exact hkept
      · refine ⟨fun client heq => ?_, hkept.ownFailure⟩
        obtain rfl := Option.some.inj heq
        exact hsession

/-- A reset discards the client it is given, or nothing. -/
theorem ClientsRight.reset {w : Worker} (h : ClientsRight w) (client : Client) :
    ClientsRight (w.recordDiscard (w.resetClient (some client)) (some client)) := by
  unfold Worker.resetClient
  split
  · -- another client is cached, or none
    unfold Worker.recordDiscard
    split
    · rename_i hsome hnone
      rw [hsome] at hnone
      cases hnone
    · exact h
  · rename_i hsame
    have hcached : w.syncAwsClient = some client := by
      by_contra hne
      exact hsame ⟨Option.some_ne_none client, hne⟩
    unfold Worker.recordDiscard
    rw [hcached]
    refine ⟨fun _ heq => (nomatch heq), fun discard hmem => ?_⟩
    rcases List.mem_append.mp hmem with hmem | hmem
    · exact h.ownFailure discard hmem
    · rw [List.mem_singleton.mp hmem]

/-- A step keeps the cache coherent, and discards only the client its own call
failed with. -/
theorem ClientsRight.step {answer : RetryAnswer Value} {w w' : Worker} {l l' : RetryCall Value}
    (h : ClientsRight w) (hcall : CallRight l) (hs : retryStep answer w l = some (w', l')) :
    ClientsRight w' := by
  rcases retryStep_cases hs with ⟨attempt, tried, rfl, rfl, -⟩ |
    ⟨attempt, tried, rfl, rfl, -⟩ | ⟨attempt, tried, client, rfl, rfl, -⟩ |
    ⟨attempt, tried, client, err, rfl, rfl, -⟩
  · exact h
  · exact h.getClientLocked answer.chain
  · exact h
  · -- the client the call resets is the one its last attempt had
    have hlast : lastClient tried = some client := by
      unfold lastClient
      rw [hcall.2.2.2]
      rfl
    rw [hlast]
    exact h.reset client

theorem retry_outline :
    Outline (retryProgram Value) anyStep Worker.initial ClientsRight
      (fun _ l => CallRight l) where
  init := ⟨fun _ heq => (nomatch heq), fun _ hmem => absurd hmem List.not_mem_nil⟩
  start _ _ _ := ⟨fun _ hmem => absurd hmem List.not_mem_nil, rfl, by decide⟩
  step h hcall _ hs := ⟨h.step hcall hs, hcall.step hs⟩
  interfere _ _ hk _ _ := hk
  env := fun {e} => nomatch e
  envStable := fun {e} => nomatch e

/-! ## The policy as callers see it -/

/-- What callers of `retry_with_new_client` rely on: at most so many
invocations; a success is returned and an error that is no rejection raised at
once; what is returned is a success, and what is raised is the last error, a
rejection only after the last attempt. -/
structure CallSpec (call : RetryCall Value) : Prop where
  bounded : call.invocations ≤ credentialRetryMaxAttempts
  firstSuccess : ∀ (before after : List (Attempt Value)) client value,
    call.tried = before ++ ⟨client, .ok value⟩ :: after →
      after = [] ∧ call = .returned call.tried value
  otherAtOnce : ∀ (before after : List (Attempt Value)) client err,
    call.tried = before ++ ⟨client, .error err⟩ :: after →
      isCredentialRejectionError err = false → after = [] ∧ call = .raised call.tried err
  returnsSuccess : ∀ tried value, call = .returned tried value →
    ∃ client, tried.getLast? = some ⟨some client, .ok value⟩
  raisesLast : ∀ tried err, call = .raised tried err →
    (∃ client, tried.getLast? = some ⟨client, .error err⟩) ∧
      (isCredentialRejectionError err = true → tried.length = credentialRetryMaxAttempts)

/-- No attempt of a rejected list is a success or another error. -/
theorem Rejected.absurd {before after : List (Attempt Value)} {attempt : Attempt Value}
    (h : Rejected (before ++ attempt :: after))
    (hother : ∀ err, attempt.outcome = .error err → isCredentialRejectionError err = false) :
    False := by
  obtain ⟨err, herr, hrejection⟩ := h attempt (by simp)
  rw [hother err herr] at hrejection
  cases hrejection

/-- In a list of rejections with one more attempt, anything that is no rejection
is that attempt. -/
theorem Rejected.last {rejected before after : List (Attempt Value)}
    {last attempt : Attempt Value} (h : Rejected rejected)
    (heq : rejected ++ [last] = before ++ attempt :: after)
    (hother : ∀ err, attempt.outcome = .error err → isCredentialRejectionError err = false) :
    after = [] ∧ attempt = last := by
  rcases List.eq_nil_or_concat after with rfl | ⟨init, final, rfl⟩
  · have hlast := (List.append_inj' heq rfl).2
    exact ⟨rfl, (List.cons.inj hlast).1.symm⟩
  · -- then the attempt is among the rejections
    exfalso
    have hinit : rejected = before ++ attempt :: init := by
      rw [List.concat_eq_append, ← List.cons_append, ← List.append_assoc] at heq
      exact (List.append_inj' heq rfl).1
    exact (hinit ▸ h).absurd hother

/-- Before its end, a call has seen rejections only. -/
theorem CallSpec.of_rejected {call : RetryCall Value} (hrejected : Rejected call.tried)
    (hbound : call.invocations ≤ credentialRetryMaxAttempts)
    (hreturned : ∀ tried value, call ≠ .returned tried value)
    (hraised : ∀ tried err, call ≠ .raised tried err) : CallSpec call where
  bounded := hbound
  firstSuccess _ _ _ _ heq :=
    ((heq ▸ hrejected).absurd fun _ h => (nomatch h)).elim
  otherAtOnce _ _ _ _ heq hother :=
    ((heq ▸ hrejected).absurd fun _ h => Except.error.inj h ▸ hother).elim
  returnsSuccess tried value heq := absurd heq (hreturned tried value)
  raisesLast tried err heq := absurd heq (hraised tried err)

theorem RetryCall.invocations_le (call : RetryCall Value) :
    call.invocations ≤ call.tried.length + 1 := by
  have hfilter := List.length_filter_le (fun attempt => attempt.client.isSome) call.tried
  cases call with
  | work attempt tried client => exact Nat.succ_le_succ hfilter
  | _ => exact Nat.le_succ_of_le hfilter

/-- What holds at the control points is what callers rely on. -/
theorem CallRight.spec {call : RetryCall Value} (h : CallRight call) : CallSpec call := by
  have hfilter : ∀ tried : List (Attempt Value),
      (tried.filter fun attempt => attempt.client.isSome).length ≤ tried.length :=
    fun tried => List.length_filter_le _ tried
  cases call with
  | readClient attempt tried =>
      obtain ⟨hrejected, rfl, hmax⟩ := h
      exact .of_rejected hrejected ((RetryCall.invocations_le _).trans hmax)
        (fun _ _ h => (nomatch h)) fun _ _ h => (nomatch h)
  | lockClient attempt tried =>
      obtain ⟨hrejected, rfl, hmax⟩ := h
      exact .of_rejected hrejected ((RetryCall.invocations_le _).trans hmax)
        (fun _ _ h => (nomatch h)) fun _ _ h => (nomatch h)
  | work attempt tried client =>
      obtain ⟨hrejected, rfl, hmax⟩ := h
      exact .of_rejected hrejected ((RetryCall.invocations_le _).trans hmax)
        (fun _ _ h => (nomatch h)) fun _ _ h => (nomatch h)
  | reset attempt tried client err =>
      obtain ⟨hrejected, hlength, hmax, -⟩ := h
      refine .of_rejected hrejected ?_ (fun _ _ h => (nomatch h)) fun _ _ h => (nomatch h)
      have := hfilter tried
      simp only [RetryCall.invocations, RetryCall.tried]
      omega
  | returned tried value =>
      obtain ⟨rejected, client, hrejected, rfl, hmax⟩ := h
      refine ⟨(hfilter _).trans hmax, ?_, ?_, ?_, fun _ _ h => (nomatch h)⟩
      · intro before after client' value' heq
        obtain ⟨rfl, hlast⟩ := hrejected.last heq fun _ h => (nomatch h)
        cases hlast
        exact ⟨rfl, rfl⟩
      · intro before after client' err heq hother
        obtain ⟨-, hlast⟩ := hrejected.last heq fun e h => Except.error.inj h ▸ hother
        cases hlast
      · intro tried value' heq
        cases heq
        exact ⟨client, List.getLast?_concat⟩
  | raised tried err =>
      obtain ⟨rejected, client, hrejected, rfl, hmax, hexhausted⟩ := h
      refine ⟨(hfilter _).trans hmax, ?_, ?_, fun _ _ h => (nomatch h), ?_⟩
      · intro before after client' value heq
        obtain ⟨-, hlast⟩ := hrejected.last heq fun _ h => (nomatch h)
        cases hlast
      · intro before after client' err' heq hother
        obtain ⟨rfl, hlast⟩ := hrejected.last heq fun e h => Except.error.inj h ▸ hother
        cases hlast
        exact ⟨rfl, rfl⟩
      · intro tried err' heq
        cases heq
        exact ⟨⟨client, List.getLast?_concat⟩, hexhausted⟩

/-! ## How a call ends -/

/-- What a call that has ended returned or raised. -/
def RetryCall.result : RetryCall Value → Option (Except AwsError Value)
  | .readClient _ _ => none
  | .lockClient _ _ => none
  | .work _ _ _ => none
  | .reset _ _ _ _ => none
  | .returned _ value => some (.ok value)
  | .raised _ err => some (.error err)

/-- The attempt that a step ends: with the error of `get_client`, or with what
the work function did. -/
def endedAttempt (answer : RetryAnswer Value) (w : Worker) :
    RetryCall Value → Option (Attempt Value)
  | .readClient _ _ => none
  | .lockClient _ _ =>
      match (w.getClientLocked answer.chain).2 with
      | .ok _ => none
      | .error err => some ⟨none, .error err⟩
  | .work _ _ client => some ⟨some client, answer.work⟩
  | .reset _ _ _ _ => none
  | .returned _ _ => none
  | .raised _ _ => none

/-- A call stands at `l`, or comes to it with its next step, whatever is answered. -/
def ComesTo (call l : RetryCall Value) : Prop :=
  call = l ∨ ∀ answer w, ∃ w', retryStep answer w call = some (w', l)

/-- What a step from `call` to `next` does with the attempt that it ends, if it
ends one. -/
structure StepSpec (answer : RetryAnswer Value) (w : Worker) (call next : RetryCall Value) :
    Prop where
  recorded : next.tried = call.tried ++ (endedAttempt answer w call).toList
  success : ∀ client value, endedAttempt answer w call = some ⟨client, .ok value⟩ →
    next.result = some (.ok value)
  otherError : ∀ client err, endedAttempt answer w call = some ⟨client, .error err⟩ →
    isCredentialRejectionError err = false → next.result = some (.error err)
  rejection : ∀ client err, endedAttempt answer w call = some ⟨client, .error err⟩ →
    isCredentialRejectionError err = true →
    ComesTo next (if next.tried.length < credentialRetryMaxAttempts
      then .readClient (next.tried.length + 1) next.tried else .raised next.tried err)

/-- A step that ends no attempt. -/
theorem StepSpec.of_none {answer : RetryAnswer Value} {w : Worker} {call next : RetryCall Value}
    (hended : endedAttempt answer w call = none) (htried : next.tried = call.tried) :
    StepSpec answer w call next where
  recorded := by
    rw [hended, htried]
    exact (List.append_nil _).symm
  success _ _ h := by
    rw [hended] at h
    cases h
  otherError _ _ h := by
    rw [hended] at h
    cases h
  rejection _ _ h := by
    rw [hended] at h
    cases h

theorem nextAttempt_tried (attempt : Nat) (tried : List (Attempt Value)) (err : AwsError) :
    (nextAttempt attempt tried err).tried = tried := by
  unfold nextAttempt
  split
  · rfl
  · rfl

theorem handleError_tried (attempt : Nat) (tried : List (Attempt Value))
    (client : Option Client) (err : AwsError) :
    (handleError attempt tried client err).tried = tried ++ [⟨client, .error err⟩] := by
  unfold handleError
  dsimp only
  split
  · cases client with
    | some client => rfl
    | none => exact nextAttempt_tried _ _ _
  · rfl

/-- After a rejection comes another attempt, or its error is raised; a client is
reset before. -/
theorem comesTo_handleError {attempt : Nat} {tried : List (Attempt Value)}
    (client : Option Client) {err : AwsError} (hrejection : isCredentialRejectionError err = true) :
    ComesTo (handleError attempt tried client err)
      (nextAttempt attempt (tried ++ [⟨client, .error err⟩]) err) := by
  unfold handleError
  dsimp only
  rw [if_pos hrejection]
  cases client with
  | some client => exact .inr fun answer w => ⟨_, rfl⟩
  | none => exact .inl rfl

/-- A step that ends an attempt with an error goes to the handler. -/
theorem StepSpec.of_error {answer : RetryAnswer Value} {w : Worker} {call : RetryCall Value}
    {attempt : Nat} {client : Option Client} {err : AwsError}
    (hended : endedAttempt answer w call = some ⟨client, .error err⟩)
    (hlength : call.tried.length + 1 = attempt) :
    StepSpec answer w call (handleError attempt call.tried client err) where
  recorded := by
    rw [hended, handleError_tried]
    rfl
  success _ _ h := by
    rw [hended] at h
    cases h
  otherError client' err' h hother := by
    rw [hended] at h
    cases h
    unfold handleError
    dsimp only
    rw [if_neg (by rw [hother]; exact Bool.false_ne_true)]
    rfl
  rejection client' err' h hrejection := by
    rw [hended] at h
    cases h
    have hattempt : (call.tried ++ [(⟨client, .error err⟩ : Attempt Value)]).length = attempt := by
      rw [List.length_append]
      exact hlength
    rw [handleError_tried, hattempt]
    exact comesTo_handleError client hrejection

/-- What a step makes of the attempt that it ends: a success is returned,
another error raised, and after a rejection comes the next attempt, or the
error is raised after the last one. -/
theorem CallRight.stepSpec {answer : RetryAnswer Value} {w w' : Worker}
    {call next : RetryCall Value} (h : CallRight call)
    (hs : retryStep answer w call = some (w', next)) : StepSpec answer w call next := by
  cases call with
  | readClient attempt tried =>
      refine .of_none rfl ?_
      simp only [retryStep] at hs
      split at hs
      · obtain ⟨-, rfl⟩ := Prod.mk.inj (Option.some.inj hs)
        rfl
      · obtain ⟨-, rfl⟩ := Prod.mk.inj (Option.some.inj hs)
        rfl
  | lockClient attempt tried =>
      simp only [retryStep] at hs
      split at hs
      · rename_i client heq
        obtain ⟨-, rfl⟩ := Prod.mk.inj (Option.some.inj hs)
        refine .of_none ?_ rfl
        simp only [endedAttempt, heq]
      · rename_i err heq
        obtain ⟨-, rfl⟩ := Prod.mk.inj (Option.some.inj hs)
        -- no client was made: the attempt ends without one
        have hended : endedAttempt answer w (.lockClient attempt tried) =
            some ⟨none, .error err⟩ := by
          simp only [endedAttempt, heq]
        exact .of_error hended h.2.1
  | work attempt tried client =>
      simp only [retryStep] at hs
      split at hs
      · rename_i value heq
        obtain ⟨-, rfl⟩ := Prod.mk.inj (Option.some.inj hs)
        have hended : endedAttempt answer w (.work attempt tried client) =
            some ⟨some client, .ok value⟩ := by
          simp only [endedAttempt, heq]
        -- the attempt ends with a value, and an error is not at issue
        refine ⟨by rw [hended]; rfl, fun _ _ h => ?_, fun _ _ h => ?_, fun _ _ h => ?_⟩
        · rw [hended] at h
          cases h
          rfl
        · rw [hended] at h
          cases h
        · rw [hended] at h
          cases h
      · rename_i err heq
        obtain ⟨-, rfl⟩ := Prod.mk.inj (Option.some.inj hs)
        have hended : endedAttempt answer w (.work attempt tried client) =
            some ⟨some client, .error err⟩ := by
          simp only [endedAttempt, heq]
        exact .of_error hended h.2.1
  | reset attempt tried client err =>
      obtain ⟨-, rfl⟩ := Prod.mk.inj (Option.some.inj hs)
      exact .of_none rfl (nextAttempt_tried _ _ _)
  | returned tried value => cases hs
  | raised tried err => cases hs

theorem exists_step {call : RetryCall Value} (answer : RetryAnswer Value) (w : Worker)
    (h : call.result = none) : ∃ w' next, retryStep answer w call = some (w', next) := by
  cases call with
  | readClient attempt tried =>
      simp only [retryStep]
      split
      · exact ⟨_, _, rfl⟩
      · exact ⟨_, _, rfl⟩
  | lockClient attempt tried =>
      simp only [retryStep]
      split
      · exact ⟨_, _, rfl⟩
      · exact ⟨_, _, rfl⟩
  | work attempt tried client =>
      simp only [retryStep]
      split
      · exact ⟨_, _, rfl⟩
      · exact ⟨_, _, rfl⟩
  | reset attempt tried client err => exact ⟨_, _, rfl⟩
  | returned tried value => cases h
  | raised tried err => cases h

/-- The steps one attempt takes at most: the client is read, got under the lock,
used and reset. -/
def stepsOfAttempt : Nat := 4

/-- How many steps a call still has at most. -/
def RetryCall.rank : RetryCall Value → Nat
  | .readClient attempt _ => (credentialRetryMaxAttempts - attempt) * stepsOfAttempt + 4
  | .lockClient attempt _ => (credentialRetryMaxAttempts - attempt) * stepsOfAttempt + 3
  | .work attempt _ _ => (credentialRetryMaxAttempts - attempt) * stepsOfAttempt + 2
  | .reset attempt _ _ _ => (credentialRetryMaxAttempts - attempt) * stepsOfAttempt + 1
  | .returned _ _ => 0
  | .raised _ _ => 0

theorem rank_nextAttempt_le (attempt : Nat) (tried : List (Attempt Value)) (err : AwsError) :
    (nextAttempt attempt tried err).rank ≤
      (credentialRetryMaxAttempts - attempt) * stepsOfAttempt := by
  unfold nextAttempt
  split
  · simp only [RetryCall.rank, stepsOfAttempt]
    omega
  · exact Nat.zero_le _

theorem rank_handleError_le (attempt : Nat) (tried : List (Attempt Value))
    (client : Option Client) (err : AwsError) :
    (handleError attempt tried client err).rank ≤
      (credentialRetryMaxAttempts - attempt) * stepsOfAttempt + 1 := by
  unfold handleError
  dsimp only
  split
  · cases client with
    | some client => exact Nat.le_refl _
    | none => exact Nat.le_succ_of_le (rank_nextAttempt_le _ _ _)
  · exact Nat.zero_le _

/-- Every step brings its call nearer to its end. -/
theorem rank_lt_of_step {answer : RetryAnswer Value} {w w' : Worker} {l l' : RetryCall Value}
    (hs : retryStep answer w l = some (w', l')) : l'.rank < l.rank := by
  rcases retryStep_cases hs with ⟨attempt, tried, rfl, -, hnext⟩ |
    ⟨attempt, tried, rfl, -, hnext⟩ | ⟨attempt, tried, client, rfl, -, hnext⟩ |
    ⟨attempt, tried, client, err, rfl, -, rfl⟩
  · rcases hnext with rfl | ⟨client, rfl⟩
    · simp only [RetryCall.rank, Nat.add_lt_add_iff_left]
      decide
    · simp only [RetryCall.rank, Nat.add_lt_add_iff_left]
      decide
  · rcases hnext with ⟨client, rfl⟩ | ⟨err, rfl⟩
    · simp only [RetryCall.rank, Nat.add_lt_add_iff_left]
      decide
    · exact (rank_handleError_le _ _ _ _).trans_lt (Nat.add_lt_add_left (by decide) _)
  · rcases hnext with ⟨value, rfl⟩ | ⟨err, rfl⟩
    · exact Nat.zero_lt_succ _
    · exact (rank_handleError_le _ _ _ _).trans_lt (Nat.add_lt_add_left (by decide) _)
  · exact (rank_nextAttempt_le _ _ _).trans_lt (Nat.lt_succ_self _)

theorem RetryCall.rank_pos {call : RetryCall Value} (h : call.result = none) :
    0 < call.rank := by
  cases call with
  | returned tried value => cases h
  | raised tried err => cases h
  | _ => exact Nat.zero_lt_succ _

/-- A call takes so many steps of its own at most, and fewer as long as it has
not ended. -/
theorem ownSteps_le {acts : List (Action Unit (RetryAnswer Value) Empty)}
    {c : Config Worker (RetryCall Value)}
    (h : runSchedule (retryProgram Value) anyStep ⟨Worker.initial, []⟩ acts = some c) (i : Nat) :
    ownSteps i acts ≤ credentialRetryMaxAttempts * stepsOfAttempt ∧
      ∀ call, c.calls[i]? = some call → call.result = none →
        ownSteps i acts < credentialRetryMaxAttempts * stepsOfAttempt := by
  have hrank : rankAt RetryCall.rank (credentialRetryMaxAttempts * stepsOfAttempt) i c +
      ownSteps i acts ≤ credentialRetryMaxAttempts * stepsOfAttempt :=
    rankAt_add_ownSteps_le (fun _ => Nat.le_refl _) rank_lt_of_step h i
  refine ⟨(Nat.le_add_left _ _).trans hrank, fun call hcall hgoing => ?_⟩
  rw [rankAt_of_getElem? hcall] at hrank
  exact (Nat.lt_add_of_pos_left (RetryCall.rank_pos hgoing)).trans_le hrank

/-- However many calls there are and however their steps are interleaved: every
call keeps to the policy, a reset discards no client but the one its own attempt
failed with, and a cached client was created from the cached session. A call
that has not ended can always go on; its step returns a success of the work
function, raises another error, and goes on after a rejection with the next
attempt, after the last one by raising it; and after so many steps of its own a
call has ended. -/
theorem retry_with_new_client_correct {c : Config Worker (RetryCall Value)}
    (hr : Reach (retryProgram Value) anyStep Worker.initial c) :
    (∀ call ∈ c.calls, CallSpec call) ∧
      (∀ discard ∈ c.shared.discards, discard.failedWith = some discard.discarded) ∧
      (∀ client, c.shared.syncAwsClient = some client →
        c.shared.session = some client.session) ∧
      (∀ call ∈ c.calls, ∀ answer,
        (call.result = none → ∃ w next, retryStep answer c.shared call = some (w, next)) ∧
        ∀ w next, retryStep answer c.shared call = some (w, next) →
          StepSpec answer c.shared call next) ∧
      ∀ acts, runSchedule (retryProgram Value) anyStep ⟨Worker.initial, []⟩ acts = some c →
        ∀ i, ownSteps i acts ≤ credentialRetryMaxAttempts * stepsOfAttempt ∧
          ∀ call, c.calls[i]? = some call → call.result = none →
            ownSteps i acts < credentialRetryMaxAttempts * stepsOfAttempt := by
  obtain ⟨hclients, hcalls⟩ := retry_outline.sound hr
  refine ⟨fun call hmem => (hcalls call hmem).spec, hclients.ownFailure, hclients.fromSession,
    fun call hmem answer => ⟨exists_step answer c.shared, fun w next hs => ?_⟩,
    fun acts hacts => ownSteps_le hacts⟩
  exact (hcalls call hmem).stepSpec hs

/-! ## A run -/

/-- The session has credentials and creates clients; the work function ends
with `work`. -/
def chainServes (work : Except AwsError Nat) : RetryAnswer Nat := ⟨⟨.ok true, none⟩, work⟩

/-- The token has expired. -/
def tokenExpired : RetryAnswer Nat :=
  chainServes (.error (.clientError (.text (str "ExpiredTokenException"))))

/-- Two calls fail with one client. The first resets it and goes on with a new
one, which the reset of the second leaves alone. -/
def twoFailWithOneClient : List (Action Unit (RetryAnswer Nat) Empty) :=
  [.call (), .call (), .run 0 tokenExpired, .run 0 tokenExpired, .run 1 tokenExpired,
    .run 0 tokenExpired, .run 1 tokenExpired, .run 0 tokenExpired, .run 0 tokenExpired,
    .run 0 tokenExpired, .run 1 tokenExpired, .run 0 (chainServes (.ok 7))]

/-- The first call has returned after one rejection, and the second goes on with
its second attempt. -/
theorem retry_with_new_client_correct_two_calls :
    ∃ c, Reach (retryProgram Nat) anyStep Worker.initial c ∧
      c.shared.discards = [⟨⟨1, 0⟩, some ⟨1, 0⟩⟩] ∧ c.shared.syncAwsClient = some ⟨3, 2⟩ ∧
      c.calls.map RetryCall.result = [some (.ok 7), none] ∧
      ((∀ call ∈ c.calls, CallSpec call) ∧
        (∀ discard ∈ c.shared.discards, discard.failedWith = some discard.discarded) ∧
        (∀ client, c.shared.syncAwsClient = some client →
          c.shared.session = some client.session) ∧
        (∀ call ∈ c.calls, ∀ answer,
          (call.result = none → ∃ w next, retryStep answer c.shared call = some (w, next)) ∧
          ∀ w next, retryStep answer c.shared call = some (w, next) →
            StepSpec answer c.shared call next) ∧
        ∀ acts, runSchedule (retryProgram Nat) anyStep ⟨Worker.initial, []⟩ acts = some c →
          ∀ i, ownSteps i acts ≤ credentialRetryMaxAttempts * stepsOfAttempt ∧
            ∀ call, c.calls[i]? = some call → call.result = none →
              ownSteps i acts < credentialRetryMaxAttempts * stepsOfAttempt) := by
  have hrun := reach_get (retryProgram Nat) anyStep Worker.initial twoFailWithOneClient
    (by decide +kernel)
  exact ⟨_, hrun, by decide +kernel, by decide +kernel, by decide +kernel,
    retry_with_new_client_correct hrun⟩

end NoraFleet.S3Store
