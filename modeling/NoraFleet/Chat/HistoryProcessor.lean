import Mathlib
import NoraFleet.Base.Replace
import NoraFleet.Messages.Processors

/-!
# The chat history that is handed out

`ChatHistoryMessageProcessor` prepares the chat history of a front man for a client, that
sends it back with its next request. The first system message is redacted, the braces in
the other texts are escaped, and what is no text of a human, the system or the model is
left out. With a maximum, the first message of the history is taken for the instructions,
and kept beside the newest of the others.

* `escapeMessage_stable` — what the escaping of braces makes of a text, and that it is
  the same however often it is done;
* `processMessages_newest_iff` — when the history is the instructions and the newest of
  the other messages.
-/

namespace NoraFleet.Chat

open Base Messages

/-- `ChatHistoryMessageProcessor`. -/
structure ChatHistoryMessageProcessor where
  maxMessageHistory : Option ℤ
  messageHistory : List ChatMessage := []
  sawFirstSystem : Bool := false

namespace ChatHistoryMessageProcessor

/-- `int(max_message_history)` of a number. What is no number sets no maximum. -/
def maxOf : Json → Except PyError (Option ℤ)
  | .int n => .ok (some n)
  | .bool b => .ok (some b.toInt)
  | .float (.fin q) => .ok (some (if q < 0 then q.ceil else q.floor))
  | .float .nan => .error .valueError
  | .float _ => .error .overflowError
  | _ => .ok none

/-- `ChatHistoryMessageProcessor(max_message_history)`. -/
def create (maxMessageHistory : Json) : Except PyError ChatHistoryMessageProcessor :=
  (maxOf maxMessageHistory).map fun maximum => { maxMessageHistory := maximum }

/-- `redact_instructions(chat_message_dict)`. -/
def redactInstructions (m : ChatMessage) : ChatMessage := { m with text := some (str "<redacted>") }

/-- The text that `escape_message` uses: braces that are escaped become plain ones
first, so that none is escaped twice. -/
def escapeText (text : PyStr) : PyStr :=
  let removeEscapedCurlyOpen := Text.replace (str "\x7b\x7b") (str "\x7b") text
  let removeEscapedCurlyClose := Text.replace (str "\x7d\x7d") (str "\x7d") removeEscapedCurlyOpen
  let escapeCurlyOpen := Text.replace (str "\x7b") (str "\x7b\x7b") removeEscapedCurlyClose
  Text.replace (str "\x7d") (str "\x7d\x7d") escapeCurlyOpen

/-- `escape_message(chat_message_dict)`. -/
def escapeMessage (m : ChatMessage) : Option ChatMessage :=
  m.text.map fun text => { m with text := some (escapeText text) }

/-- The types of the messages that can be ingested again. -/
def reingested (type : ChatMessageType) : Bool :=
  type = .human || type = .system || type = .ai

/-- `process_message(chat_message_dict, message_type)`. -/
def processMessage (processor : ChatHistoryMessageProcessor) (m : ChatMessage) :
    ChatHistoryMessageProcessor :=
  if !reingested m.type then processor
  else if !processor.sawFirstSystem && m.type = .system then
    { processor with
      messageHistory := processor.messageHistory ++ [redactInstructions m]
      sawFirstSystem := true }
  else
    match escapeMessage m with
    | none => processor
    | some transformed =>
        { processor with messageHistory := processor.messageHistory ++ [transformed] }

/-- `messages[-n:]`, of an `n` that is positive. -/
def newest (n : ℤ) (messages : List ChatMessage) : List ChatMessage :=
  messages.drop (messages.length - n.toNat)

/-- The history with a maximum: `pop(0)` of an empty one raises an `IndexError`. -/
def curtail (n : ℤ) : List ChatMessage → Except PyError (List ChatMessage)
  | [] => .error .otherException
  | instructions :: rest => .ok (instructions :: newest n rest)

/-- `process_messages(chat_message_dicts)`. -/
def processMessages (processor : ChatHistoryMessageProcessor) (messages : List ChatMessage) :
    Except PyError ChatHistoryMessageProcessor :=
  let processed := messages.foldl processMessage processor
  match processed.maxMessageHistory with
  | none => .ok processed
  | some n =>
      if n ≤ 1 then .ok processed
      else (curtail n processed.messageHistory).map fun history =>
        { processed with messageHistory := history }

/-! ## Braces -/

theorem escapeText_eq (text : PyStr) :
    escapeText text = Text.double 125 (Text.double 123 (Text.halve 125 (Text.halve 123 text))) := by
  show Text.replace [125] [125, 125] (Text.replace [123] [123, 123]
    (Text.replace [125, 125] [125] (Text.replace [123, 123] [123] text))) = _
  rw [Text.replace_single, Text.replace_single, Text.replace_pair, Text.replace_pair]

theorem escapeText_escapeText (text : PyStr) : escapeText (escapeText text) = escapeText text := by
  have hopen : ∀ plain, Text.halve 123 (Text.double 125 (Text.double 123 plain)) =
      Text.double 125 plain := by
    intro plain
    rw [Text.halve_double_comm (by omega), Text.halve_double]
  rw [escapeText_eq, escapeText_eq text, hopen, Text.halve_double]

/-- The runs of a brace. -/
theorem even_run_escapeText {brace n : Nat} (hbrace : Text.isBrace brace = true)
    {text before after : PyStr}
    (hrun : escapeText text = before ++ (List.replicate n brace ++ after))
    (hbefore : before.getLast? ≠ some brace) (hafter : after.head? ≠ some brace) : Even n := by
  rw [escapeText_eq] at hrun
  have hcases : brace = 123 ∨ brace = 125 := by simpa [Text.isBrace] using hbrace
  rcases hcases with rfl | rfl
  · rw [Text.double_comm (by omega)] at hrun
    exact Text.even_run_double hrun hbefore hafter
  · exact Text.even_run_double hrun hbefore hafter

theorem filter_escapeText (text : PyStr) :
    (escapeText text).filter (fun c => !Text.isBrace c) = text.filter fun c => !Text.isBrace c := by
  rw [escapeText_eq, Text.filter_double (by decide), Text.filter_double (by decide),
    Text.filter_halve (by decide), Text.filter_halve (by decide)]

theorem escapeMessage_of_escapeMessage {m escaped : ChatMessage}
    (h : escapeMessage m = some escaped) : escapeMessage escaped = some escaped := by
  obtain ⟨text, -, rfl⟩ := Option.map_eq_some_iff.mp h
  show some { m with text := some (escapeText (escapeText text)) } = _
  rw [escapeText_escapeText]

/-- Escaping a message again makes no difference to it, at whichever exchange. All runs
of a brace in its text are of even length, and what is not a brace stays. -/
theorem escapeMessage_stable (m : ChatMessage) (text : PyStr) (htext : m.text = some text) :
    ∃ escaped useText, escapeMessage m = some escaped ∧ escaped.text = some useText ∧
      escapeMessage escaped = some escaped ∧
      (∀ exchanges, (fun history => history.bind escapeMessage)^[exchanges + 1] (some m) =
        some escaped) ∧
      (∀ brace n before after, Text.isBrace brace = true →
        useText = before ++ (List.replicate n brace ++ after) →
        before.getLast? ≠ some brace → after.head? ≠ some brace → Even n) ∧
      useText.filter (fun c => !Text.isBrace c) = text.filter fun c => !Text.isBrace c := by
  have hescaped : escapeMessage m = some { m with text := some (escapeText text) } := by
    rw [escapeMessage, htext]
    rfl
  have hagain := escapeMessage_of_escapeMessage hescaped
  refine ⟨_, _, hescaped, rfl, hagain, ?_, ?_, filter_escapeText text⟩
  · intro exchanges
    induction exchanges with
    | zero => exact hescaped
    | succ exchanges ih =>
        rw [Function.iterate_succ_apply', ih]
        exact hagain
  · intro brace n before after hbrace hrun hbefore hafter
    exact even_run_escapeText hbrace hrun hbefore hafter

/-- A text with runs of both parities. -/
theorem escapeMessage_stable_oddRuns :
    ∃ escaped useText,
      escapeMessage ⟨.human, none, some (str "\x7b\x7b\x7ba\x7d"), none, none, none, none⟩ =
        some escaped ∧
      escaped.text = some useText ∧ escapeMessage escaped = some escaped ∧
      useText.filter (fun c => !Text.isBrace c) = str "a" := by
  obtain ⟨escaped, useText, hfirst, htext, hagain, -, -, hfilter⟩ :=
    escapeMessage_stable
      ⟨.human, none, some (str "\x7b\x7b\x7ba\x7d"), none, none, none, none⟩ _ rfl
  exact ⟨escaped, useText, hfirst, htext, hagain, hfilter.trans (by decide)⟩

/-! ## Trimming -/

/-- A system message. -/
def isSystem (m : ChatMessage) : Bool := m.type = .system

/-- What a message adds to the history, other than the first system message. -/
def escapedOf (m : ChatMessage) : Option ChatMessage :=
  if reingested m.type then escapeMessage m else none

/-- The messages of a history that is not trimmed. -/
def kept : List ChatMessage → List ChatMessage
  | [] => []
  | m :: rest =>
      if isSystem m then redactInstructions m :: rest.filterMap escapedOf
      else (escapedOf m).toList ++ kept rest

/-- What the history is to be: the redacted instructions, where there are any, and the
newest of the other messages. -/
def trimmed (n : ℤ) (messages : List ChatMessage) : List ChatMessage :=
  ((messages.find? isSystem).map redactInstructions).toList ++
    newest n ((messages.eraseP isSystem).filterMap escapedOf)

/-- The first of the messages that are kept is a system message. -/
def InstructionsFirst (messages : List ChatMessage) : Prop :=
  ∃ m, messages.find? (fun m => isSystem m || (reingested m.type && m.text.isSome)) = some m ∧
    isSystem m = true

/-- No message is a system message, and some messages are kept, but not more than the
maximum. -/
def FewWithoutInstructions (n : ℤ) (messages : List ChatMessage) : Prop :=
  (∀ m ∈ messages, isSystem m = false) ∧
    0 < (messages.filter fun m => reingested m.type && m.text.isSome).length ∧
    ((messages.filter fun m => reingested m.type && m.text.isSome).length : ℤ) ≤ n

section Loop

variable (processor : ChatHistoryMessageProcessor)

/-- A message after the first system message. -/
theorem processMessage_of_sawFirstSystem (m : ChatMessage)
    (h : processor.sawFirstSystem = true) :
    processMessage processor m =
      { processor with messageHistory := processor.messageHistory ++ (escapedOf m).toList } := by
  have hfirst : (!processor.sawFirstSystem && m.type = .system) = false := by
    rw [h]
    rfl
  unfold processMessage escapedOf
  rw [hfirst]
  cases hre : reingested m.type with
  | false => simp
  | true =>
      cases hm : escapeMessage m with
      | none => simp
      | some transformed => simp

/-- A message that is not a system message. -/
theorem processMessage_of_not_isSystem (m : ChatMessage) (h : isSystem m = false) :
    processMessage processor m =
      { processor with messageHistory := processor.messageHistory ++ (escapedOf m).toList } := by
  have htype : decide (m.type = .system) = false := h
  unfold processMessage escapedOf
  cases hre : reingested m.type with
  | false => simp
  | true =>
      rw [htype, Bool.and_false]
      cases hm : escapeMessage m with
      | none => simp
      | some transformed => simp

/-- The first system message. -/
theorem processMessage_of_isSystem (m : ChatMessage) (hm : isSystem m = true)
    (h : processor.sawFirstSystem = false) :
    processMessage processor m =
      { processor with
        messageHistory := processor.messageHistory ++ [redactInstructions m]
        sawFirstSystem := true } := by
  have htype : m.type = .system := of_decide_eq_true hm
  unfold processMessage
  rw [h, htype]
  rfl

/-- The loop after the first system message. -/
theorem foldl_of_sawFirstSystem (messages : List ChatMessage)
    (h : processor.sawFirstSystem = true) :
    messages.foldl processMessage processor =
      { processor with
        messageHistory := processor.messageHistory ++ messages.filterMap escapedOf } := by
  induction messages generalizing processor with
  | nil => simp
  | cons m rest ih =>
      rw [List.foldl_cons, processMessage_of_sawFirstSystem processor m h, ih]
      · simp only [List.append_assoc]
        cases hm : escapedOf m <;> simp [hm]
      · exact h

/-- The loop from the start. -/
theorem foldl_processMessage (messages : List ChatMessage)
    (h : processor.sawFirstSystem = false) :
    (messages.foldl processMessage processor).messageHistory =
        processor.messageHistory ++ kept messages ∧
      (messages.foldl processMessage processor).maxMessageHistory =
        processor.maxMessageHistory := by
  induction messages generalizing processor with
  | nil => simp [kept]
  | cons m rest ih =>
      rw [List.foldl_cons, kept]
      cases hm : isSystem m with
      | true =>
          rw [processMessage_of_isSystem processor m hm h, foldl_of_sawFirstSystem _ _ rfl]
          simp
      | false =>
          rw [processMessage_of_not_isSystem processor m hm]
          obtain ⟨hhistory, hmax⟩ := ih { processor with
            messageHistory := processor.messageHistory ++ (escapedOf m).toList } h
          rw [hhistory, hmax]
          simp

end Loop

theorem processMessages_eq (n : ℤ) (hn : 1 < n) (messages : List ChatMessage) :
    (processMessages { maxMessageHistory := some n } messages).map
      ChatHistoryMessageProcessor.messageHistory = curtail n (kept messages) := by
  obtain ⟨hhistory, hmax⟩ :=
    foldl_processMessage { maxMessageHistory := some n } messages rfl
  unfold processMessages
  simp only [hmax, hhistory, List.nil_append]
  rw [if_neg (not_le.mpr hn)]
  cases curtail n (kept messages) <;> rfl

/-! ### What is kept -/

theorem type_of_escapedOf {m escaped : ChatMessage} (h : escapedOf m = some escaped) :
    escaped.type = m.type := by
  unfold escapedOf escapeMessage at h
  split at h
  · obtain ⟨text, -, rfl⟩ := Option.map_eq_some_iff.mp h
    rfl
  · cases h

theorem isSome_escapedOf (m : ChatMessage) :
    (escapedOf m).isSome = (reingested m.type && m.text.isSome) := by
  unfold escapedOf escapeMessage
  cases reingested m.type <;> simp

theorem kept_of_not_isSystem {messages : List ChatMessage}
    (h : ∀ m ∈ messages, isSystem m = false) : kept messages = messages.filterMap escapedOf := by
  induction messages with
  | nil => rfl
  | cons m rest ih =>
      rw [List.forall_mem_cons] at h
      rw [kept, h.1, ih h.2]
      cases hm : escapedOf m <;> simp [hm]

/-- The messages around the first system message. -/
theorem kept_append_cons {before after : List ChatMessage} {m : ChatMessage}
    (hbefore : ∀ m ∈ before, isSystem m = false) (hm : isSystem m = true) :
    kept (before ++ m :: after) =
      before.filterMap escapedOf ++ redactInstructions m :: after.filterMap escapedOf := by
  induction before with
  | nil => rw [List.nil_append, kept, hm]; rfl
  | cons first rest ih =>
      rw [List.forall_mem_cons] at hbefore
      rw [List.cons_append, kept, hbefore.1, ih hbefore.2]
      cases hfirst : escapedOf first <;> simp [hfirst]

theorem newest_of_length_le {n : ℤ} {messages : List ChatMessage}
    (h : (messages.length : ℤ) ≤ n) : newest n messages = messages := by
  have hzero : messages.length - n.toNat = 0 := by omega
  rw [newest, hzero, List.drop_zero]

theorem length_newest (n : ℤ) (messages : List ChatMessage) :
    (newest n messages).length = min n.toNat messages.length := by
  rw [newest, List.length_drop]
  omega

/-- The number of messages that are kept. -/
theorem length_filterMap_escapedOf (messages : List ChatMessage) :
    (messages.filterMap escapedOf).length =
      (messages.filter fun m => reingested m.type && m.text.isSome).length := by
  induction messages with
  | nil => rfl
  | cons m rest ih =>
      have hm := isSome_escapedOf m
      rw [List.filter_cons]
      cases hescaped : escapedOf m with
      | none =>
          rw [hescaped] at hm
          rw [List.filterMap_cons_none hescaped, ← hm, ih]
          rfl
      | some escaped =>
          rw [hescaped] at hm
          rw [List.filterMap_cons_some hescaped, ← hm, Option.isSome_some, if_pos rfl,
            List.length_cons, ih, List.length_cons]

/-- With no message kept before them, the instructions are first. -/
theorem instructionsFirst_append_cons {before after : List ChatMessage} {m : ChatMessage}
    (hbefore : ∀ m ∈ before, isSystem m = false) (hm : isSystem m = true) :
    InstructionsFirst (before ++ m :: after) ↔ before.filterMap escapedOf = [] := by
  unfold InstructionsFirst
  induction before with
  | nil =>
      rw [List.nil_append, List.find?_cons_of_pos (by rw [hm]; rfl)]
      simp [hm]
  | cons first rest ih =>
      rw [List.forall_mem_cons] at hbefore
      have hsome := isSome_escapedOf first
      rw [List.cons_append]
      cases hescaped : escapedOf first with
      | none =>
          rw [hescaped] at hsome
          rw [List.find?_cons_of_neg (by rw [hbefore.1, ← hsome]; decide),
            List.filterMap_cons_none hescaped]
          exact ih hbefore.2
      | some escaped =>
          rw [hescaped] at hsome
          rw [List.find?_cons_of_pos (by rw [← hsome]; simp), List.filterMap_cons_some hescaped]
          simp [hbefore.1]

/-- Where there is a system message, the history is right when that is the first message
that is kept. -/
theorem curtail_eq_trimmed_of_isSystem {n : ℤ} {before after : List ChatMessage} {m : ChatMessage}
    (hbefore : ∀ m ∈ before, isSystem m = false) (hm : isSystem m = true) :
    curtail n (kept (before ++ m :: after)) = .ok (trimmed n (before ++ m :: after)) ↔
      InstructionsFirst (before ++ m :: after) := by
  have hfind : (before ++ m :: after).find? isSystem = some m := by
    rw [List.find?_eq_some_iff_append]
    exact ⟨hm, before, after, rfl, fun a ha => by rw [hbefore a ha]; rfl⟩
  have herase : (before ++ m :: after).eraseP isSystem = before ++ after := by
    rw [List.eraseP_append_right _ fun b hb => by rw [hbefore b hb]; decide,
      List.eraseP_cons_of_pos hm]
  rw [instructionsFirst_append_cons hbefore hm, kept_append_cons hbefore hm, trimmed, hfind, herase,
    List.filterMap_append]
  cases hescaped : before.filterMap escapedOf with
  | nil => simp [curtail]
  | cons first rest =>
      -- the message taken for the instructions is none of the system
      have hfirst : first ∈ before.filterMap escapedOf := by
        rw [hescaped]
        exact List.mem_cons_self
      obtain ⟨source, hsource, hof⟩ := List.mem_filterMap.mp hfirst
      have htype : first.type ≠ .system := by
        rw [type_of_escapedOf hof]
        exact of_decide_eq_false (hbefore source hsource)
      have hsystem : (redactInstructions m).type = .system := of_decide_eq_true hm
      constructor
      · intro h
        have hlists := Except.ok.inj h
        rw [Option.map_some, Option.toList_some, List.singleton_append, List.cons.injEq] at hlists
        exact absurd (hlists.1 ▸ hsystem) htype
      · intro h
        cases h

/-- Without a system message, the history is right when there are some messages and not
more than the maximum. -/
theorem curtail_eq_trimmed_of_not_isSystem {n : ℤ} (hn : 1 < n) {messages : List ChatMessage}
    (h : ∀ m ∈ messages, isSystem m = false) :
    curtail n (kept messages) = .ok (trimmed n messages) ↔
      0 < (messages.filterMap escapedOf).length ∧
        ((messages.filterMap escapedOf).length : ℤ) ≤ n := by
  have hfind : messages.find? isSystem = none := by
    rw [List.find?_eq_none]
    intro m hm hsystem
    rw [h m hm] at hsystem
    cases hsystem
  have herase : messages.eraseP isSystem = messages :=
    List.eraseP_of_forall_not fun m hm => by rw [h m hm]; decide
  rw [kept_of_not_isSystem h, trimmed, hfind, herase]
  show curtail n _ = .ok (newest n _) ↔ _
  cases hescaped : messages.filterMap escapedOf with
  | nil => simp [curtail]
  | cons first rest =>
      constructor
      · intro heq
        have hlists := congrArg List.length (Except.ok.inj heq)
        rw [List.length_cons, length_newest, length_newest, List.length_cons] at hlists
        refine ⟨Nat.succ_pos _, ?_⟩
        rw [List.length_cons]
        omega
      · intro hlength
        have hrest : (rest.length : ℤ) ≤ n := by
          have hcons := hlength.2
          rw [List.length_cons] at hcons
          omega
        rw [newest_of_length_le hlength.2, curtail, newest_of_length_le hrest]

/-- With a maximum, the history is the redacted instructions and the newest of the other
messages where the first message that is kept is one of the system, and where there is no
system message and there are not more others than the maximum, but some. -/
theorem processMessages_newest_iff (n : ℤ) (hn : 1 < n) (messages : List ChatMessage) :
    (∃ processed, processMessages { maxMessageHistory := some n } messages = .ok processed ∧
        processed.messageHistory = trimmed n messages) ↔
      InstructionsFirst messages ∨ FewWithoutInstructions n messages := by
  have heq := processMessages_eq n hn messages
  have hcurtail : (∃ processed,
      processMessages { maxMessageHistory := some n } messages = .ok processed ∧
        processed.messageHistory = trimmed n messages) ↔
      curtail n (kept messages) = .ok (trimmed n messages) := by
    rw [← heq]
    cases processMessages { maxMessageHistory := some n } messages with
    | error e => simp [Except.map]
    | ok processed => simp [Except.map]
  rw [hcurtail]
  cases hfind : messages.find? isSystem with
  | none =>
      have hnone : ∀ m ∈ messages, isSystem m = false := fun m hm =>
        Bool.eq_false_iff.mpr (List.find?_eq_none.mp hfind m hm)
      have hnot : ¬ InstructionsFirst messages := by
        rintro ⟨m, hm, hsystem⟩
        rw [hnone m (List.mem_of_find?_eq_some hm)] at hsystem
        cases hsystem
      rw [curtail_eq_trimmed_of_not_isSystem hn hnone, or_iff_right hnot, FewWithoutInstructions,
        ← length_filterMap_escapedOf]
      exact ⟨fun h => ⟨hnone, h⟩, fun h => h.2⟩
  | some m =>
      obtain ⟨hm, before, after, rfl, hbefore⟩ := List.find?_eq_some_iff_append.mp hfind
      have hbefore' : ∀ m ∈ before, isSystem m = false := fun b hb => by simpa using hbefore b hb
      have hnot : ¬ FewWithoutInstructions n (before ++ m :: after) := by
        rintro ⟨hnone, -⟩
        rw [hnone m (List.mem_append_right _ List.mem_cons_self)] at hm
        cases hm
      rw [curtail_eq_trimmed_of_isSystem hbefore' hm, or_iff_left hnot]

/-- A message of a history. -/
def said (type : ChatMessageType) (text : String) : ChatMessage :=
  ⟨type, none, some (str text), none, none, none, none⟩

/-- Instructions and two exchanges, of which one is told about braces. -/
def twoExchanges : List ChatMessage :=
  [said .system "Be kind.", said .human "A", said .ai "B", said .human "C \x7b", said .ai "D"]

/-- Two messages are kept beside the instructions. -/
theorem processMessages_newest_twoExchanges :
    ∃ processed, processMessages { maxMessageHistory := some 2 } twoExchanges = .ok processed ∧
      processed.messageHistory = trimmed 2 twoExchanges ∧
      trimmed 2 twoExchanges =
        [redactInstructions (said .system "Be kind."), said .human "C \x7b\x7b", said .ai "D"] := by
  obtain ⟨processed, hprocessed, htrimmed⟩ :=
    (processMessages_newest_iff 2 (by decide) twoExchanges).mpr (.inl ⟨_, rfl, rfl⟩)
  exact ⟨processed, hprocessed, htrimmed, rfl⟩

/-- An empty history has no first message to take for the instructions. -/
theorem processMessages_nil_raises :
    ¬ ∀ (n : ℤ) (messages : List ChatMessage), 1 < n →
      ∃ processed, processMessages { maxMessageHistory := some n } messages = .ok processed ∧
        processed.messageHistory = trimmed n messages := by
  intro h
  obtain ⟨processed, hprocessed, -⟩ := h 2 [] (by omega)
  cases hprocessed

end ChatHistoryMessageProcessor

end NoraFleet.Chat
