import Mathlib
import NoraFleet.Base.Dict
import NoraFleet.Base.Runs
import NoraFleet.Base.Text

/-!
# Enforcing the selection of tools

A `LlmConfigToolSelectorMiddleware` records, for each tool call that the model makes,
which tools were advertised to it, and refuses calls of other tools. The records of all
agents of a request are in its sly data, under the origin of each; they are found by
the id of the call, which may be missing, and are dropped when the call has succeeded.

* `executes_iff` — when a call is executed exactly if its tool was advertised.
-/

namespace NoraFleet.Middleware

open Base

/-! ## Records -/

/-- A tool of a model request: a dictionary with its name, or a function with its name,
or an object. -/
inductive Tool where
  | spec (name : Option PyStr) (function : Option (Option PyStr))
  | object (name : PyStr)

/-- The name under which a tool is advertised. -/
def Tool.advertisedName : Tool → Option PyStr
  | .spec (some name) _ => some name
  | .spec none function => function.getD none
  | .object name => some name

structure ToolCall where
  name : Option PyStr
  id : Option PyStr
  deriving DecidableEq

/-- A message of a model response. -/
inductive Message where
  | ai (toolCalls : List ToolCall)
  | other

def Message.toolCalls : Message → List ToolCall
  | .ai toolCalls => toolCalls
  | .other => []

/-- `unadvertised_policy`. -/
inductive Policy where
  | allow
  | deny
  deriving DecidableEq

/-- The tools that were advertised, for the id of a tool call. -/
abbrev AdvertisedTools := Dict (Option PyStr) (List PyStr)

/-- The error `ToolMessage` of a call that is refused. -/
structure Denial where
  content : PyStr
  toolCallId : PyStr
  name : Option PyStr
  deriving DecidableEq

namespace LlmConfigToolSelectorMiddleware

/-- `_make_denial(tool_name, call_id, content)`. -/
def makeDenial (call : ToolCall) (content : PyStr) : Denial :=
  ⟨content, call.id.getD (str "unknown"), call.name⟩

/-- The names that a model call advertises. -/
def advertisedNames (tools : List Tool) : List PyStr := tools.filterMap Tool.advertisedName

/-- `_stamp_advertised_tools(narrowed_request, response)`. -/
def stampAdvertisedTools (tools : List Tool) (messages : List Message)
    (advertisedTools : AdvertisedTools) : AdvertisedTools :=
  (messages.flatMap Message.toolCalls).foldl
    (fun table toolCall => table.set toolCall.id (advertisedNames tools)) advertisedTools

/-- `_deny_unadvertised_tool_call(request)`. -/
def denyUnadvertisedToolCall (policy : Policy) (advertisedTools : AdvertisedTools)
    (call : ToolCall) : Option Denial :=
  let toolName := call.name.getD (str "None")
  match advertisedTools.get? call.id with
  | none =>
      match policy with
      | .allow => none
      | .deny => some (makeDenial call (str "Error: the tool call for '" ++ toolName ++
          str "' has no recorded tool selection and was not executed."))
  | some advertised =>
      if call.name.any advertised.contains then none
      else some (makeDenial call (str "Error: tool '" ++ toolName ++
        str "' was not among the tools selected for this request and was not executed. " ++
        str "Try one of [" ++ (str ", ").intercalate advertised ++ str "]."))

/-- What `awrap_tool_call` does with the record after the tool has succeeded. -/
def forget (call : ToolCall) (advertisedTools : AdvertisedTools) : AdvertisedTools :=
  match call.id with
  | none => advertisedTools
  | some id => advertisedTools.pop (some id)

end LlmConfigToolSelectorMiddleware

/-! ## Runs -/

/-- What became of a tool call. -/
inductive Status where
  | waiting
  | running
  | denied
  | failed
  | succeeded
  deriving DecidableEq

structure Attempt where
  toolCall : ToolCall
  status : Status
  deriving DecidableEq

/-- The last model call of an agent: what it advertised, and the tool calls of its
response. -/
structure Turn where
  advertised : List PyStr
  attempts : List Attempt

/-- A request: the records in its sly data, by namespace, and the turn of each agent. -/
structure Request where
  slyData : PyStr → AdvertisedTools
  turns : PyStr → Turn

/-- What the agents of a request do. The origins are not empty. -/
inductive Op where
  | modelCall (origin : PyStr) (tools : List Tool) (messages : List Message)
  | start (origin : PyStr) (i : Nat)
  | finish (origin : PyStr) (i : Nat) (succeeds : Bool)

namespace Request

open LlmConfigToolSelectorMiddleware

def initial : Request := ⟨fun _ => Dict.empty, fun _ => ⟨[], []⟩⟩

/-- The status of an attempt changes. -/
def setStatus (s : Request) (origin : PyStr) (i : Nat) (attempt : Attempt) (status : Status) :
    Request :=
  { s with
    turns := Function.update s.turns origin
      { s.turns origin with
        attempts := (s.turns origin).attempts.set i { attempt with status := status } } }

/-- What one operation of an agent does. -/
def exec (policyOf : PyStr → Policy) : Op → Request → Request
  | .modelCall origin tools messages, s =>
      { slyData := Function.update s.slyData origin
          (stampAdvertisedTools tools messages (s.slyData origin))
        turns := Function.update s.turns origin
          ⟨advertisedNames tools,
            (messages.flatMap Message.toolCalls).map fun toolCall => ⟨toolCall, .waiting⟩⟩ }
  | .start origin i, s =>
      match (s.turns origin).attempts[i]? with
      | none => s
      | some attempt =>
          match denyUnadvertisedToolCall (policyOf origin) (s.slyData origin)
              attempt.toolCall with
          | some _ => s.setStatus origin i attempt .denied
          | none => s.setStatus origin i attempt .running
  | .finish origin i succeeds, s =>
      match (s.turns origin).attempts[i]? with
      | none => s
      | some attempt =>
          if succeeds then
            { s.setStatus origin i attempt .succeeded with
              slyData := Function.update s.slyData origin
                (forget attempt.toolCall (s.slyData origin)) }
          else s.setStatus origin i attempt .failed

/-- An agent calls its model when no tool is running, and a tool is tried again only
after it failed. -/
def Disciplined : Op → Request → Prop
  | .modelCall origin _ _, s => ∀ attempt ∈ (s.turns origin).attempts, attempt.status ≠ .running
  | .start origin i, s => ∃ attempt, (s.turns origin).attempts[i]? = some attempt ∧
      (attempt.status = .waiting ∨ attempt.status = .failed)
  | .finish origin i _, s => ∃ attempt, (s.turns origin).attempts[i]? = some attempt ∧
      attempt.status = .running

/-- The tool of a call was advertised on the model call that produced it. -/
def Advertised (s : Request) (origin : PyStr) (call : ToolCall) : Prop :=
  call.name.any (s.turns origin).advertised.contains = true

/-- `awrap_tool_call` executes the call. -/
def Executes (policyOf : PyStr → Policy) (s : Request) (origin : PyStr) (call : ToolCall) :
    Prop :=
  denyUnadvertisedToolCall (policyOf origin) (s.slyData origin) call = none

/-! ## What the records hold -/

/-- Another call of the response with the same id has succeeded. -/
def Spent (s : Request) (origin : PyStr) (call : ToolCall) : Prop :=
  call.id ≠ none ∧ ∃ other ∈ (s.turns origin).attempts,
    other.status = .succeeded ∧ other.toolCall.id = call.id

/-- The calls of the last response are recorded until one of their id succeeds. -/
def Recorded (s : Request) : Prop :=
  ∀ origin, ∀ attempt ∈ (s.turns origin).attempts,
    (¬ s.Spent origin attempt.toolCall →
      (s.slyData origin).get? attempt.toolCall.id = some (s.turns origin).advertised) ∧
    (s.Spent origin attempt.toolCall → (s.slyData origin).get? attempt.toolCall.id = none)

/-- All calls of a response are recorded with what was advertised. -/
theorem get?_stamp {tools : List Tool} {messages : List Message}
    (table : AdvertisedTools) {call : ToolCall} (h : call ∈ messages.flatMap Message.toolCalls) :
    (stampAdvertisedTools tools messages table).get? call.id = some (advertisedNames tools) := by
  unfold stampAdvertisedTools
  have hkeep : ∀ (calls : List ToolCall) (table : AdvertisedTools),
      table.get? call.id = some (advertisedNames tools) →
      (calls.foldl (fun table toolCall => table.set toolCall.id (advertisedNames tools))
        table).get? call.id = some (advertisedNames tools) := by
    intro calls
    induction calls with
    | nil => exact fun _ htable => htable
    | cons first rest ih =>
        intro table htable
        apply ih
        rw [Dict.get?_set]
        split
        · rfl
        · exact htable
  obtain ⟨before, after, hsplit⟩ := List.append_of_mem h
  rw [hsplit, List.foldl_append, List.foldl_cons]
  apply hkeep
  rw [Dict.get?_set, if_pos rfl]

theorem recorded_initial : initial.Recorded := by
  intro origin attempt hmem
  cases hmem

section Steps

variable {s : Request} {origin : PyStr} {i : Nat} {attempt : Attempt}

theorem turns_setStatus_self (status : Status) :
    (s.setStatus origin i attempt status).turns origin =
      ⟨(s.turns origin).advertised,
        (s.turns origin).attempts.set i { attempt with status := status }⟩ := by
  exact Function.update_self ..

theorem turns_setStatus_of_ne (status : Status) {other : PyStr} (h : other ≠ origin) :
    (s.setStatus origin i attempt status).turns other = s.turns other := by
  exact Function.update_of_ne h ..

/-- The calls of the response stay what they are. -/
theorem exists_of_mem_set {status : Status} {attempts : List Attempt} {other : Attempt}
    (hattempt : attempts[i]? = some attempt)
    (h : other ∈ attempts.set i { attempt with status := status }) :
    ∃ old ∈ attempts, old.toolCall = other.toolCall ∧
      (other.status = old.status ∨ other.status = status) := by
  rcases List.mem_or_eq_of_mem_set h with hmem | heq
  · exact ⟨other, hmem, rfl, .inl rfl⟩
  · subst heq
    exact ⟨attempt, List.mem_of_getElem? hattempt, rfl, .inr rfl⟩

/-- A call that was there is there, with its status or the new one. -/
theorem mem_set_of_mem {status : Status} {attempts : List Attempt} {old : Attempt}
    (hattempt : attempts[i]? = some attempt) (h : old ∈ attempts)
    (hstatus : old.status ≠ attempt.status) :
    old ∈ attempts.set i { attempt with status := status } := by
  obtain ⟨j, hj⟩ := List.mem_iff_getElem?.mp h
  have hne : i ≠ j := by
    rintro rfl
    rw [hattempt] at hj
    exact hstatus (congrArg Attempt.status (Option.some.inj hj)).symm
  apply List.mem_iff_getElem?.mpr
  exact ⟨j, by rw [List.getElem?_set_ne hne]; exact hj⟩

/-- A change that is no success spends nothing. -/
theorem spent_setStatus_iff {status : Status}
    (hattempt : (s.turns origin).attempts[i]? = some attempt)
    (hbefore : attempt.status ≠ .succeeded) (hafter : status ≠ .succeeded)
    (other : PyStr) (call : ToolCall) :
    (s.setStatus origin i attempt status).Spent other call ↔ s.Spent other call := by
  by_cases hother : other = origin
  · subst hother
    unfold Spent
    rw [turns_setStatus_self]
    refine and_congr_right fun _ => ?_
    constructor
    · rintro ⟨done, hdone, hsucceeded, hid⟩
      obtain ⟨old, hold, hcall, hstatus⟩ := exists_of_mem_set hattempt hdone
      rcases hstatus with hsame | hnew
      · exact ⟨old, hold, hsame ▸ hsucceeded, by rw [hcall, hid]⟩
      · exact absurd (hnew.symm.trans hsucceeded) hafter
    · rintro ⟨done, hdone, hsucceeded, hid⟩
      exact ⟨done, mem_set_of_mem hattempt hdone fun heq => hbefore (heq ▸ hsucceeded),
        hsucceeded, hid⟩
  · unfold Spent
    rw [turns_setStatus_of_ne _ hother]

/-- A change that is no success keeps the records right. -/
theorem Recorded.setStatus (h : s.Recorded) {status : Status}
    (hattempt : (s.turns origin).attempts[i]? = some attempt)
    (hbefore : attempt.status ≠ .succeeded) (hafter : status ≠ .succeeded) :
    (s.setStatus origin i attempt status).Recorded := by
  intro other call hmem
  have hold : ∃ old ∈ (s.turns other).attempts, old.toolCall = call.toolCall := by
    by_cases hother : other = origin
    · subst hother
      rw [turns_setStatus_self] at hmem
      obtain ⟨old, hold, hcall, -⟩ := exists_of_mem_set hattempt hmem
      exact ⟨old, hold, hcall⟩
    · rw [turns_setStatus_of_ne _ hother] at hmem
      exact ⟨call, hmem, rfl⟩
  have hadvertised : ((s.setStatus origin i attempt status).turns other).advertised =
      (s.turns other).advertised := by
    by_cases hother : other = origin
    · rw [hother, turns_setStatus_self]
    · rw [turns_setStatus_of_ne _ hother]
  obtain ⟨old, hmem, hcall⟩ := hold
  rw [spent_setStatus_iff hattempt hbefore hafter, hadvertised, ← hcall]
  exact h other old hmem

/-- A success spends the id of the call, if it has one. -/
theorem spent_succeeded_iff {table : PyStr → AdvertisedTools}
    (hattempt : (s.turns origin).attempts[i]? = some attempt)
    (hbefore : attempt.status ≠ .succeeded) (call : ToolCall) :
    Spent { s.setStatus origin i attempt .succeeded with slyData := table } origin call ↔
      s.Spent origin call ∨ (call.id ≠ none ∧ attempt.toolCall.id = call.id) := by
  have hturn : (s.setStatus origin i attempt .succeeded).turns origin =
      ⟨(s.turns origin).advertised,
        (s.turns origin).attempts.set i { attempt with status := .succeeded }⟩ :=
    turns_setStatus_self .succeeded
  unfold Spent
  show call.id ≠ none ∧ (∃ other ∈ ((s.setStatus origin i attempt .succeeded).turns
    origin).attempts, _) ↔ _
  rw [hturn]
  obtain ⟨hlt, -⟩ := List.getElem?_eq_some_iff.mp hattempt
  constructor
  · rintro ⟨hne, done, hdone, hsucceeded, hid⟩
    rcases List.mem_or_eq_of_mem_set hdone with hold | hnew
    · exact .inl ⟨hne, done, hold, hsucceeded, hid⟩
    · subst hnew
      exact .inr ⟨hne, hid⟩
  · rintro (⟨hne, done, hdone, hsucceeded, hid⟩ | ⟨hne, hid⟩)
    · exact ⟨hne, done, mem_set_of_mem hattempt hdone fun heq => hbefore (heq ▸ hsucceeded),
        hsucceeded, hid⟩
    · refine ⟨hne, { attempt with status := .succeeded }, ?_, rfl, hid⟩
      apply List.mem_iff_getElem?.mpr
      exact ⟨i, List.getElem?_set_self hlt⟩

theorem get?_forget (call : ToolCall) (table : AdvertisedTools) (id : Option PyStr) :
    (forget call table).get? id =
      if call.id ≠ none ∧ call.id = id then none else table.get? id := by
  unfold forget
  cases hcall : call.id with
  | none => simp
  | some x =>
      show (table.pop (some x)).get? id = _
      rw [Dict.get?_pop]
      simp [eq_comm]

/-- A success keeps the records right. -/
theorem Recorded.succeed (h : s.Recorded)
    (hattempt : (s.turns origin).attempts[i]? = some attempt)
    (hbefore : attempt.status ≠ .succeeded) :
    Recorded { s.setStatus origin i attempt .succeeded with
      slyData := Function.update s.slyData origin
        (forget attempt.toolCall (s.slyData origin)) } := by
  intro other call hmem
  -- other agents keep their records
  by_cases hother : other = origin
  · subst hother
    have hturn : (s.setStatus other i attempt .succeeded).turns other =
        ⟨(s.turns other).advertised,
          (s.turns other).attempts.set i { attempt with status := .succeeded }⟩ :=
      turns_setStatus_self .succeeded
    obtain ⟨old, hold, hcall, -⟩ :
        ∃ old ∈ (s.turns other).attempts, old.toolCall = call.toolCall ∧
          (call.status = old.status ∨ call.status = .succeeded) := by
      apply exists_of_mem_set hattempt
      rw [hturn] at hmem
      exact hmem
    rw [spent_succeeded_iff hattempt hbefore]
    show (_ → (Function.update s.slyData other _ other).get? _ =
      some ((s.setStatus other i attempt .succeeded).turns other).advertised) ∧
        (_ → (Function.update s.slyData other _ other).get? _ = none)
    rw [hturn, Function.update_self, get?_forget, ← hcall]
    obtain ⟨hthere, hgone⟩ := h other old hold
    constructor
    · intro hspent
      rw [not_or, not_and] at hspent
      -- the record of another id stays
      have hkept : ¬ (attempt.toolCall.id ≠ none ∧ attempt.toolCall.id = old.toolCall.id) := by
        rintro ⟨hne, heq⟩
        exact hspent.2 (heq ▸ hne) heq
      rw [if_neg hkept]
      exact hthere hspent.1
    · rintro (hspent | hown)
      · split
        · rfl
        · exact hgone hspent
      · rw [if_pos ⟨hown.2 ▸ hown.1, hown.2⟩]
  · have hturn : (s.setStatus origin i attempt .succeeded).turns other = s.turns other :=
      turns_setStatus_of_ne .succeeded hother
    have hspent : Spent { s.setStatus origin i attempt .succeeded with
        slyData := Function.update s.slyData origin
          (forget attempt.toolCall (s.slyData origin)) } other call.toolCall ↔
          s.Spent other call.toolCall := by
      unfold Spent
      show _ ∧ (∃ done ∈ ((s.setStatus origin i attempt .succeeded).turns other).attempts, _) ↔ _
      rw [hturn]
    rw [hspent]
    show (_ → (Function.update s.slyData origin _ other).get? _ =
      some ((s.setStatus origin i attempt .succeeded).turns other).advertised) ∧
        (_ → (Function.update s.slyData origin _ other).get? _ = none)
    rw [hturn, Function.update_of_ne hother]
    apply h other call
    rw [← hturn]
    exact hmem

end Steps

/-- A model call records the calls of its response. -/
theorem Recorded.modelCall {s : Request} (h : s.Recorded) (policyOf : PyStr → Policy)
    (origin : PyStr) (tools : List Tool) (messages : List Message) :
    Recorded (exec policyOf (.modelCall origin tools messages) s) := by
  intro other attempt hmem
  simp only [exec, Spent] at hmem ⊢
  by_cases hother : other = origin
  · subst hother
    rw [Function.update_self] at hmem ⊢
    rw [Function.update_self]
    obtain ⟨toolCall, hcall, rfl⟩ := List.mem_map.mp hmem
    constructor
    · intro _
      exact get?_stamp _ hcall
    · rintro ⟨-, done, hdone, hsucceeded, -⟩
      obtain ⟨call, -, rfl⟩ := List.mem_map.mp hdone
      cases hsucceeded
  · rw [Function.update_of_ne hother] at hmem ⊢
    rw [Function.update_of_ne hother]
    exact h other attempt hmem

/-- Disciplined operations keep the records right. -/
theorem Recorded.exec {s : Request} (h : s.Recorded) (policyOf : PyStr → Policy) {op : Op}
    (hop : Disciplined op s) : (exec policyOf op s).Recorded := by
  cases op with
  | modelCall origin tools messages => exact h.modelCall policyOf origin tools messages
  | start origin i =>
      obtain ⟨attempt, hattempt, hstatus⟩ := hop
      have hbefore : attempt.status ≠ .succeeded := by
        rcases hstatus with hwaiting | hfailed
        · simp [hwaiting]
        · simp [hfailed]
      simp only [Request.exec, hattempt]
      split
      · exact h.setStatus hattempt hbefore (by simp)
      · exact h.setStatus hattempt hbefore (by simp)
  | finish origin i succeeds =>
      obtain ⟨attempt, hattempt, hrunning⟩ := hop
      have hbefore : attempt.status ≠ .succeeded := by simp [hrunning]
      simp only [Request.exec, hattempt]
      cases succeeds with
      | true => exact h.succeed hattempt hbefore
      | false => exact h.setStatus hattempt hbefore (by simp)

/-- In every run: a tool call that is to be tried is executed exactly if its tool was
advertised, unless another call of the response with the same id has succeeded and the
policy for unrecorded calls says otherwise. -/
theorem executes_iff (policyOf : PyStr → Policy) {s : Request}
    (hr : Runs (exec policyOf) Disciplined initial s) {origin : PyStr} {i : Nat}
    {attempt : Attempt} (hattempt : (s.turns origin).attempts[i]? = some attempt) :
    (s.Executes policyOf origin attempt.toolCall ↔ s.Advertised origin attempt.toolCall) ↔
      ¬ s.Spent origin attempt.toolCall ∨
        (policyOf origin = .allow ∧ s.Advertised origin attempt.toolCall) ∨
        (policyOf origin = .deny ∧ ¬ s.Advertised origin attempt.toolCall) := by
  have hrecorded : s.Recorded :=
    hr.invariant recorded_initial fun op s h hop => h.exec policyOf hop
  obtain ⟨hthere, hgone⟩ := hrecorded origin attempt (List.mem_of_getElem? hattempt)
  by_cases hspent : s.Spent origin attempt.toolCall
  · have hexecutes : s.Executes policyOf origin attempt.toolCall ↔ policyOf origin = .allow := by
      unfold Executes denyUnadvertisedToolCall
      rw [hgone hspent]
      cases policyOf origin <;> simp
    rw [hexecutes]
    cases policyOf origin <;> simp [hspent]
  · have hexecutes : s.Executes policyOf origin attempt.toolCall ↔
        s.Advertised origin attempt.toolCall := by
      unfold Executes Advertised denyUnadvertisedToolCall
      rw [hthere hspent]
      simp only
      split <;> simp_all
    simp [hexecutes, hspent]

/-- Of the calls that are to be tried, exactly those are executed whose tool was
advertised. -/
def OnlyAdvertised (policyOf : PyStr → Policy) (s : Request) : Prop :=
  ∀ (origin : PyStr) (i : ℕ) (attempt : Attempt), (s.turns origin).attempts[i]? = some attempt →
    attempt.status = .waiting ∨ attempt.status = .failed →
    (s.Executes policyOf origin attempt.toolCall ↔ s.Advertised origin attempt.toolCall)

/-- A response whose calls have one id, the second of a tool that was not advertised. -/
def repeatedId : List Message :=
  [.ai [⟨some (str "search"), some (str "1")⟩, ⟨some (str "erase"), some (str "1")⟩,
    ⟨some (str "search"), some (str "1")⟩]]

/-- Its first call is carried out. -/
def firstSucceeds (policyOf : PyStr → Policy) : Request :=
  [.modelCall (str "front") [.object (str "search")] repeatedId, .start (str "front") 0,
    .finish (str "front") 0 true].foldl (fun s op => exec policyOf op s) initial

theorem runs_firstSucceeds (policyOf : PyStr → Policy) :
    Runs (exec policyOf) Disciplined initial (firstSucceeds policyOf) := by
  apply Runs.of_ops .init
  refine ⟨?_, ⟨_, rfl, .inl rfl⟩, ⟨_, rfl, rfl⟩, trivial⟩
  intro attempt hmem
  cases hmem

theorem executes_iff_first :
    let s := exec (fun _ => .deny)
      (.modelCall (str "front") [.object (str "search")] repeatedId) initial
    (s.Executes (fun _ => .deny) (str "front") ⟨some (str "erase"), some (str "1")⟩ ↔
        s.Advertised (str "front") ⟨some (str "erase"), some (str "1")⟩) ↔
      ¬ s.Spent (str "front") ⟨some (str "erase"), some (str "1")⟩ ∨
        (Policy.deny = .allow ∧ s.Advertised (str "front") ⟨some (str "erase"), some (str "1")⟩) ∨
        (Policy.deny = .deny ∧
          ¬ s.Advertised (str "front") ⟨some (str "erase"), some (str "1")⟩) := by
  intro s
  have hrun : Runs (exec fun _ => .deny) Disciplined initial s := by
    apply Runs.step _ .init
    intro attempt hmem
    cases hmem
  have hattempt : (s.turns (str "front")).attempts[1]? =
      some ⟨⟨some (str "erase"), some (str "1")⟩, .waiting⟩ := rfl
  exact executes_iff (fun _ => .deny) hrun hattempt

/-- Then the record of the id is gone: one policy executes the tool that was not
advertised, the other refuses the one that was. -/
theorem repeatedId_unrecorded :
    (¬ ∀ s, Runs (exec fun _ => .allow) Disciplined initial s → s.OnlyAdvertised fun _ => .allow) ∧
      ¬ ∀ s, Runs (exec fun _ => .deny) Disciplined initial s →
        s.OnlyAdvertised fun _ => .deny := by
  constructor
  · intro h
    have herase := h _ (runs_firstSucceeds _) (str "front") 1
      ⟨⟨some (str "erase"), some (str "1")⟩, .waiting⟩ rfl (.inl rfl)
    have hadvertised := herase.mp rfl
    exact absurd hadvertised (by unfold Advertised; decide +kernel)
  · intro h
    have hsearch := h _ (runs_firstSucceeds _) (str "front") 2
      ⟨⟨some (str "search"), some (str "1")⟩, .waiting⟩ rfl (.inl rfl)
    have hexecutes := hsearch.mpr (by unfold Advertised; decide +kernel)
    cases hexecutes

end Request

end NoraFleet.Middleware
