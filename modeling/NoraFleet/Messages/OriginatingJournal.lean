import Mathlib
import NoraFleet.Base.Flow

/-!
# A journal that holds a message back

An `OriginatingJournal` writes messages to another journal, under its own origin where
none is given, and keeps a chat history of them. A message may be held until the next one:
it is dropped if that has the same content.

The slot of the held message is flushed in two ways. A message that is held next writes it
like any other message; one that is written next writes it under its own origin, and not
to the chat history.

* `foldl_step` — what every call adds, by the call after it;
* `glue_eq_iff` — two logs of such additions are equal where all additions are;
* `faithful_iff` — when the journal does what its calls ask for.
-/

namespace NoraFleet.Messages

open Base

/-- The classes of messages that a journal tells apart. -/
inductive MessageClass where
  | systemMessage
  | humanMessage
  | aiMessage
  | toolMessage
  | agentMessage
  | agentFrameworkMessage
  | agentToolResultMessage
  | agentProgressMessage
  deriving DecidableEq

/-- A message: its class, its content, and its other fields, if any. -/
structure JournalMessage (Content Fields : Type*) where
  messageClass : MessageClass
  content : Content
  fields : Option Fields

variable {Content Fields Origin : Type*}

namespace JournalMessage

/-- `is_relevant_to_chat_history(message)`. -/
def isRelevantToChatHistory (message : JournalMessage Content Fields) : Bool :=
  match message.messageClass with
  | .agentMessage | .agentFrameworkMessage | .toolMessage | .agentProgressMessage => false
  | _ => true

/-- What a chat history has of a message: the result of a tool as a message of the model,
and the instructions not at all. -/
def chatHistoryMessage (message : JournalMessage Content Fields) :
    Option (JournalMessage Content Fields) :=
  if !message.isRelevantToChatHistory then none
  else
    match message.messageClass with
    | .agentToolResultMessage => some ⟨.aiMessage, message.content, none⟩
    | .systemMessage => none
    | _ => some message

end JournalMessage

/-- `OriginatingJournal`, with what its wrapped journal has got. -/
structure OriginatingJournal (Content Fields Origin : Type*) where
  origin : Origin
  wrappedJournal : List (JournalMessage Content Fields × Origin)
  chatHistory : Option (List (JournalMessage Content Fields))
  pending : Option (JournalMessage Content Fields)

namespace OriginatingJournal

/-- `OriginatingJournal(wrapped_journal, origin, chat_history)`. -/
def create (origin : Origin) (chatHistory : Option (List (JournalMessage Content Fields))) :
    OriginatingJournal Content Fields Origin := ⟨origin, [], chatHistory, none⟩

/-- A call of one of the two methods. -/
inductive Call (Content Fields Origin : Type*) where
  | write (message : JournalMessage Content Fields) (origin : Option Origin)
  | hold (message : JournalMessage Content Fields)

/-- The message that is submitted. -/
def Call.message : Call Content Fields Origin → JournalMessage Content Fields
  | .write message _ => message
  | .hold message => message

/-! ## Logs of calls -/

/-- A message is held, and a call follows. -/
def FollowedBy (calls : List (Call Content Fields Origin)) (message : JournalMessage Content Fields)
    (next : Call Content Fields Origin) : Prop :=
  ∃ before after, calls = before ++ Call.hold message :: next :: after

theorem not_followedBy_nil (message : JournalMessage Content Fields)
    (next : Call Content Fields Origin) : ¬ FollowedBy [] message next := by
  rintro ⟨before, after, h⟩
  cases before <;> cases h

theorem not_followedBy_singleton (call : Call Content Fields Origin)
    (message : JournalMessage Content Fields) (next : Call Content Fields Origin) :
    ¬ FollowedBy [call] message next := by
  rintro ⟨before, after, h⟩
  rcases before with _ | ⟨first, _ | ⟨second, before⟩⟩ <;> cases h

/-- A message that is written is not held. -/
theorem followedBy_write_iff {written : JournalMessage Content Fields} {origin : Option Origin}
    {rest : List (Call Content Fields Origin)} {message : JournalMessage Content Fields}
    {next : Call Content Fields Origin} :
    FollowedBy (.write written origin :: rest) message next ↔ FollowedBy rest message next := by
  constructor
  · rintro ⟨before, after, h⟩
    cases before with
    | nil => cases h
    | cons first before => exact ⟨before, after, (List.cons.inj h).2⟩
  · rintro ⟨before, after, rfl⟩
    exact ⟨.write written origin :: before, after, rfl⟩

/-- What follows a message that is held first. -/
theorem followedBy_hold_iff {held : JournalMessage Content Fields}
    {second next : Call Content Fields Origin} {rest : List (Call Content Fields Origin)}
    {message : JournalMessage Content Fields} :
    FollowedBy (.hold held :: second :: rest) message next ↔
      (message = held ∧ next = second) ∨ FollowedBy (second :: rest) message next := by
  constructor
  · rintro ⟨before, after, h⟩
    cases before with
    | nil =>
        simp only [List.nil_append, List.cons.injEq, Call.hold.injEq] at h
        exact .inl ⟨h.1.symm, h.2.1.symm⟩
    | cons first before => exact .inr ⟨before, after, (List.cons.inj h).2⟩
  · rintro (⟨rfl, rfl⟩ | ⟨before, after, h⟩)
    · exact ⟨[], rest, rfl⟩
    · exact ⟨.hold held :: before, after, by rw [h]; rfl⟩

/-- What holds of the first held message and of all later ones. -/
theorem forall_followedBy_hold_iff {held : JournalMessage Content Fields}
    {second : Call Content Fields Origin} {rest : List (Call Content Fields Origin)}
    {P : JournalMessage Content Fields → Call Content Fields Origin → Prop} :
    (∀ message next, FollowedBy (.hold held :: second :: rest) message next → P message next) ↔
      P held second ∧
        ∀ message next, FollowedBy (second :: rest) message next → P message next := by
  constructor
  · intro h
    exact ⟨h held second (followedBy_hold_iff.mpr (.inl ⟨rfl, rfl⟩)),
      fun message next hnext => h message next (followedBy_hold_iff.mpr (.inr hnext))⟩
  · rintro ⟨hfirst, hrest⟩ message next hnext
    rcases followedBy_hold_iff.mp hnext with ⟨rfl, rfl⟩ | hnext
    · exact hfirst
    · exact hrest message next hnext

/-- What may come after a held message: one that is held has another content, and one that
is written has the same content, or is written under the journal's own origin where the
chat history, if there is one, has nothing of the held message. -/
def Passes (own : Origin) (keepsHistory : Bool) (message : JournalMessage Content Fields) :
    Call Content Fields Origin → Prop
  | .hold next => next.content ≠ message.content
  | .write next origin => next.content = message.content ∨
      origin.getD own = own ∧ (keepsHistory = true → message.chatHistoryMessage = none)

/-- Every held message is followed by a call that lets it pass. -/
def Orderly (own : Origin) (keepsHistory : Bool) (calls : List (Call Content Fields Origin)) :
    Prop :=
  ∀ message next, FollowedBy calls message next → Passes own keepsHistory message next

/-- What may pass with a chat history may pass without one. -/
theorem Passes.withoutHistory {own : Origin} {message : JournalMessage Content Fields}
    {next : Call Content Fields Origin} (h : Passes own true message next) :
    Passes own false message next := by
  cases next with
  | hold other => exact h
  | write other origin => exact h.imp_right fun h => ⟨h.1, fun hfalse => by cases hfalse⟩

/-- A log to which every call adds something: a written message by itself, a held one by
what is submitted next. -/
def glue {X : Type*} (base : JournalMessage Content Fields → Option Origin → List X)
    (additions : JournalMessage Content Fields → Call Content Fields Origin → List X) :
    List (Call Content Fields Origin) → List X
  | [] => []
  | .write message origin :: rest => base message origin ++ glue base additions rest
  | [.hold _] => []
  | .hold message :: next :: rest => additions message next ++ glue base additions (next :: rest)

section Logs

variable {X : Type*} {base : JournalMessage Content Fields → Option Origin → List X}
  {f g : JournalMessage Content Fields → Call Content Fields Origin → List X}

/-- A log to which no less is added is no shorter. -/
theorem length_glue_le (calls : List (Call Content Fields Origin))
    (hle : ∀ message next, FollowedBy calls message next →
      (g message next).length ≤ (f message next).length) :
    (glue base g calls).length ≤ (glue base f calls).length := by
  induction calls using glue.induct with
  | case1 => exact le_rfl
  | case2 message origin rest ih =>
      rw [glue, glue, List.length_append, List.length_append]
      exact Nat.add_le_add_left
        (ih fun held next hnext => hle held next (followedBy_write_iff.mpr hnext)) _
  | case3 message => exact le_rfl
  | case4 message next rest ih =>
      obtain ⟨hfirst, hrest⟩ := forall_followedBy_hold_iff.mp hle
      rw [glue, glue, List.length_append, List.length_append]
      exact Nat.add_le_add hfirst (ih hrest)

/-- Two logs, to one of which no less is added, are equal where the same is added. -/
theorem glue_eq_iff (calls : List (Call Content Fields Origin))
    (hle : ∀ message next, FollowedBy calls message next →
      (g message next).length ≤ (f message next).length) :
    glue base f calls = glue base g calls ↔
      ∀ message next, FollowedBy calls message next → f message next = g message next := by
  induction calls using glue.induct with
  | case1 => exact iff_of_true rfl fun message next h => absurd h (not_followedBy_nil message next)
  | case2 message origin rest ih =>
      simp only [followedBy_write_iff] at hle ⊢
      rw [glue, glue, List.append_cancel_left_eq, ih hle]
  | case3 message =>
      exact iff_of_true rfl fun held next h => absurd h (not_followedBy_singleton _ held next)
  | case4 message next rest ih =>
      obtain ⟨hfirst, hrest⟩ := forall_followedBy_hold_iff.mp hle
      rw [glue, glue, forall_followedBy_hold_iff, ← ih hrest]
      constructor
      · intro heq
        -- neither part of the longer log is shorter, so that both are as long
        have htail := @length_glue_le Content Fields Origin X base f g (next :: rest) hrest
        have hlengths := congrArg List.length heq
        rw [List.length_append, List.length_append] at hlengths
        exact List.append_inj heq (by omega)
      · rintro ⟨hsame, hothers⟩
        rw [hsame, hothers]

end Logs

section Methods

variable [DecidableEq Content]

/-- `write_message(message, origin)`. -/
def writeMessage (journal : OriginatingJournal Content Fields Origin)
    (message : JournalMessage Content Fields) (origin : Option Origin) :
    OriginatingJournal Content Fields Origin :=
  let useOrigin := origin.getD journal.origin
  let chatHistory := journal.chatHistory.map (· ++ message.chatHistoryMessage.toList)
  let flushed :=
    match journal.pending with
    | none => []
    | some pending => if pending.content ≠ message.content then [(pending, useOrigin)] else []
  { journal with
    wrappedJournal := journal.wrappedJournal ++ (flushed ++ [(message, useOrigin)])
    chatHistory := chatHistory
    pending := none }

/-- `write_message_if_next_not_dupe(message)`. -/
def writeMessageIfNextNotDupe (journal : OriginatingJournal Content Fields Origin)
    (message : JournalMessage Content Fields) : OriginatingJournal Content Fields Origin :=
  let flushed :=
    match journal.pending with
    | none => journal
    | some pending => journal.writeMessage pending none
  { flushed with pending := some message }

/-- One call. -/
def step (journal : OriginatingJournal Content Fields Origin) :
    Call Content Fields Origin → OriginatingJournal Content Fields Origin
  | .write message origin => journal.writeMessage message origin
  | .hold message => journal.writeMessageIfNextNotDupe message

/-! ## What the calls ask for -/

/-- What is owed for a held message, by what is submitted next. -/
def owed (own : Origin) (message : JournalMessage Content Fields)
    (next : Call Content Fields Origin) : List (JournalMessage Content Fields × Origin) :=
  if next.message.content ≠ message.content then [(message, own)] else []

/-- What the wrapped journal is to get. -/
def expected (own : Origin) :
    List (Call Content Fields Origin) → List (JournalMessage Content Fields × Origin)
  | [] => []
  | .write message origin :: rest => (message, origin.getD own) :: expected own rest
  | [.hold _] => []
  | .hold message :: next :: rest => owed own message next ++ expected own (next :: rest)

/-- From the first call on, the wrapped journal gets what it is to get, the chat history
what that has of it, and nothing is left to be written. -/
def Faithful (own : Origin) (chatHistory : Option (List (JournalMessage Content Fields)))
    (calls : List (Call Content Fields Origin)) : Prop :=
  (calls.foldl step (create own chatHistory)).wrappedJournal = expected own calls ∧
    (calls.foldl step (create own chatHistory)).chatHistory =
      chatHistory.map (· ++ ((expected own calls).map Prod.fst).filterMap
        JournalMessage.chatHistoryMessage) ∧
    (calls.foldl step (create own chatHistory)).pending = none

/-! ## What every call adds -/

/-- What the wrapped journal gets of a held message. -/
def flushed (own : Origin) (message : JournalMessage Content Fields) :
    Call Content Fields Origin → List (JournalMessage Content Fields × Origin)
  | .hold _ => [(message, own)]
  | .write next origin =>
      if message.content ≠ next.content then [(message, origin.getD own)] else []

/-- What the chat history gets of a held message. -/
def flushedHistory (message : JournalMessage Content Fields) :
    Call Content Fields Origin → List (JournalMessage Content Fields)
  | .hold _ => message.chatHistoryMessage.toList
  | .write _ _ => []

/-- What the chat history is to get of a held message. -/
def owedHistory (message : JournalMessage Content Fields) (next : Call Content Fields Origin) :
    List (JournalMessage Content Fields) :=
  if next.message.content ≠ message.content then message.chatHistoryMessage.toList else []

/-- What a written message adds to the wrapped journal. -/
def written (own : Origin) (message : JournalMessage Content Fields) (origin : Option Origin) :
    List (JournalMessage Content Fields × Origin) := [(message, origin.getD own)]

/-- What a written message adds to the chat history. -/
def writtenHistory (message : JournalMessage Content Fields) (_ : Option Origin) :
    List (JournalMessage Content Fields) := message.chatHistoryMessage.toList

section Runs

variable {own : Origin}

/-- The journal once a held message is flushed by the next call. -/
def flush (journal : OriginatingJournal Content Fields Origin)
    (message : JournalMessage Content Fields) (next : Call Content Fields Origin) :
    OriginatingJournal Content Fields Origin :=
  { journal with
    wrappedJournal := journal.wrappedJournal ++ flushed journal.origin message next
    chatHistory := journal.chatHistory.map (· ++ flushedHistory message next) }

/-- A message that is held is flushed by the call after it. -/
theorem step_step_hold (journal : OriginatingJournal Content Fields Origin)
    (message : JournalMessage Content Fields) (next : Call Content Fields Origin)
    (hpending : journal.pending = none) :
    step (step journal (.hold message)) next = step (flush journal message next) next := by
  have hheld : step journal (.hold message) = { journal with pending := some message } := by
    unfold step writeMessageIfNextNotDupe
    rw [hpending]
  rw [hheld]
  cases next with
  | hold other =>
      simp [step, writeMessageIfNextNotDupe, writeMessage, flush, flushed, flushedHistory, hpending]
  | write other origin =>
      simp [step, writeMessage, flush, flushed, flushedHistory, hpending]

/-- A message that is written with nothing held before it. -/
theorem step_write (journal : OriginatingJournal Content Fields Origin)
    (message : JournalMessage Content Fields) (origin : Option Origin)
    (hpending : journal.pending = none) :
    step journal (.write message origin) =
      { journal with
        wrappedJournal := journal.wrappedJournal ++ written journal.origin message origin
        chatHistory := journal.chatHistory.map (· ++ writtenHistory message origin) } := by
  unfold step writeMessage
  rw [hpending]
  simp [written, writtenHistory]

/-- From a journal that holds nothing, every call adds what it is to add. -/
theorem foldl_step (journal : OriginatingJournal Content Fields Origin)
    (calls : List (Call Content Fields Origin)) (hown : journal.origin = own)
    (hpending : journal.pending = none) :
    (calls.foldl step journal).wrappedJournal =
        journal.wrappedJournal ++ glue (written own) (flushed own) calls ∧
      (calls.foldl step journal).chatHistory =
        journal.chatHistory.map (· ++ glue writtenHistory flushedHistory calls) := by
  induction calls using glue.induct generalizing journal with
  | case1 => simp [glue]
  | case2 message origin rest ih =>
      obtain ⟨hwrapped, hhistory⟩ := ih (step journal (.write message origin)) hown rfl
      rw [List.foldl_cons, hwrapped, hhistory, step_write journal message origin hpending, hown]
      simp [glue, Function.comp_def]
  | case3 message =>
      rw [List.foldl_cons, List.foldl_nil]
      simp [glue, step, writeMessageIfNextNotDupe, hpending]
  | case4 message next rest ih =>
      obtain ⟨hwrapped, hhistory⟩ := ih (flush journal message next) hown hpending
      rw [List.foldl_cons, List.foldl_cons, step_step_hold journal message next hpending,
        ← List.foldl_cons, hwrapped, hhistory]
      simp [glue, flush, hown, Function.comp_def]

/-- After a message that is written, nothing is held. -/
theorem pending_foldl_write (journal : OriginatingJournal Content Fields Origin)
    (calls : List (Call Content Fields Origin)) (final : JournalMessage Content Fields)
    (origin : Option Origin) :
    ((calls ++ [Call.write final origin]).foldl step journal).pending = none := by
  rw [List.foldl_append]
  rfl

end Runs

theorem expected_eq_glue (own : Origin) (calls : List (Call Content Fields Origin)) :
    expected own calls = glue (written own) (owed own) calls := by
  induction calls using glue.induct with
  | case1 => rfl
  | case2 message origin rest ih =>
      rw [expected, glue, ih]
      rfl
  | case3 message => rfl
  | case4 message next rest ih => rw [expected, glue, ih]

/-- What the chat history is to get, call by call. -/
theorem expectedHistory_eq_glue (own : Origin) (calls : List (Call Content Fields Origin)) :
    ((expected own calls).map Prod.fst).filterMap JournalMessage.chatHistoryMessage =
      glue writtenHistory owedHistory calls := by
  induction calls using glue.induct with
  | case1 => rfl
  | case2 message origin rest ih =>
      rw [expected, glue, ← ih, List.map_cons, writtenHistory]
      cases hkept : message.chatHistoryMessage with
      | none => rw [List.filterMap_cons_none hkept]; rfl
      | some kept => rw [List.filterMap_cons_some hkept]; rfl
  | case3 message => rfl
  | case4 message next rest ih =>
      rw [expected, glue, ← ih, List.map_append, List.filterMap_append]
      congr 1
      unfold owed owedHistory
      split
      · cases hkept : message.chatHistoryMessage <;> simp [hkept]
      · rfl

/-- The wrapped journal gets of a held message what it is to get where that may pass. -/
theorem flushed_eq_owed_iff (own : Origin) (message : JournalMessage Content Fields)
    (next : Call Content Fields Origin) :
    flushed own message next = owed own message next ↔ Passes own false message next := by
  cases next with
  | hold other =>
      by_cases hcontent : other.content = message.content
      · simp [flushed, owed, Passes, Call.message, hcontent]
      · simp [flushed, owed, Passes, Call.message, hcontent]
  | write other origin =>
      by_cases hcontent : other.content = message.content
      · simp [flushed, owed, Passes, Call.message, hcontent]
      · simp [flushed, owed, Passes, Call.message, hcontent, Ne.symm hcontent]

/-- The same of the chat history, where the wrapped journal gets what it is to get. -/
theorem flushedHistory_eq_owedHistory_iff {own : Origin} {message : JournalMessage Content Fields}
    {next : Call Content Fields Origin} (hpasses : Passes own false message next) :
    flushedHistory message next = owedHistory message next ↔ Passes own true message next := by
  cases next with
  | hold other =>
      have hcontent : other.content ≠ message.content := hpasses
      simp [flushedHistory, owedHistory, Passes, Call.message, hcontent]
  | write other origin =>
      by_cases hcontent : other.content = message.content
      · simp [flushedHistory, owedHistory, Passes, Call.message, hcontent]
      · have horigin : origin.getD own = own := (hpasses.resolve_left hcontent).1
        cases hkept : message.chatHistoryMessage <;>
          simp [flushedHistory, owedHistory, Passes, Call.message, hcontent, horigin, hkept]

theorem sent_eq_expected_iff (own : Origin) (calls : List (Call Content Fields Origin)) :
    glue (written own) (flushed own) calls = expected own calls ↔ Orderly own false calls := by
  have hle : ∀ message next, FollowedBy calls message next →
      (owed own message next).length ≤ (flushed own message next).length := by
    intro message next _
    cases next with
    | hold other =>
        show (if _ then _ else _ : List _).length ≤ 1
        split <;> simp
    | write other origin =>
        by_cases hcontent : other.content = message.content
        · simp [flushed, owed, Call.message, hcontent]
        · simp [flushed, owed, Call.message, hcontent, Ne.symm hcontent]
  rw [expected_eq_glue, glue_eq_iff calls hle]
  simp only [flushed_eq_owed_iff, Orderly]

/-- The chat history gets what it is to get, where the wrapped journal does. -/
theorem gained_eq_expected_iff {own : Origin} {calls : List (Call Content Fields Origin)}
    (horderly : Orderly own false calls) :
    glue writtenHistory flushedHistory calls =
        ((expected own calls).map Prod.fst).filterMap JournalMessage.chatHistoryMessage ↔
      Orderly own true calls := by
  have hle : ∀ message next, FollowedBy calls message next →
      (flushedHistory message next).length ≤ (owedHistory message next).length := by
    intro message next hnext
    have hpasses := horderly message next hnext
    cases next with
    | hold other =>
        have hcontent : other.content ≠ message.content := hpasses
        simp [flushedHistory, owedHistory, Call.message, hcontent]
    | write other origin => exact Nat.zero_le _
  rw [expectedHistory_eq_glue, eq_comm, glue_eq_iff calls hle]
  apply forall_congr'
  intro message
  apply forall_congr'
  intro next
  constructor
  · exact fun h hnext =>
      (flushedHistory_eq_owedHistory_iff (horderly message next hnext)).mp (h hnext).symm
  · exact fun h hnext =>
      ((flushedHistory_eq_owedHistory_iff (horderly message next hnext)).mpr (h hnext)).symm

/-- **The journal.** Its calls, of which the last writes a message, have the effect that
they ask for exactly where every held message is followed by a call that lets it pass. -/
theorem faithful_iff (own : Origin) (chatHistory : Option (List (JournalMessage Content Fields)))
    (calls : List (Call Content Fields Origin)) (final : JournalMessage Content Fields)
    (finalOrigin : Option Origin) :
    Faithful own chatHistory (calls ++ [.write final finalOrigin]) ↔
      Orderly own chatHistory.isSome (calls ++ [.write final finalOrigin]) := by
  have hpending := pending_foldl_write (create own chatHistory) calls final finalOrigin
  generalize calls ++ [Call.write final finalOrigin] = all at hpending
  obtain ⟨hwrapped, hhistory⟩ := @foldl_step _ _ _ _ own (create own chatHistory) all rfl rfl
  have hlog : (all.foldl step (create own chatHistory)).wrappedJournal = expected own all ↔
      Orderly own false all := by
    rw [hwrapped]
    exact sent_eq_expected_iff own all
  rw [Faithful, hlog, hhistory]
  cases chatHistory with
  | none => exact ⟨fun h => h.1, fun h => ⟨h, rfl, hpending⟩⟩
  | some messages =>
      have hgained : (create own (some messages)).chatHistory.map
            (· ++ glue writtenHistory flushedHistory all) =
          (some messages).map (· ++ ((expected own all).map Prod.fst).filterMap
            JournalMessage.chatHistoryMessage) ↔
          glue writtenHistory flushedHistory all =
            ((expected own all).map Prod.fst).filterMap JournalMessage.chatHistoryMessage := by
        show some _ = some _ ↔ _
        rw [Option.some.injEq, List.append_cancel_left_eq]
      rw [hgained]
      constructor
      · exact fun h => (gained_eq_expected_iff h.1).mp h.2.1
      · intro h
        have hfalse : Orderly own false all := fun message next hnext =>
          (h message next hnext).withoutHistory
        exact ⟨hfalse, (gained_eq_expected_iff hfalse).mpr h, hpending⟩

end Methods

/-- A message that is held twice is forwarded twice. -/
theorem heldTwice_not_faithful :
    ¬ ∀ (own : Nat) (chatHistory : Option (List (JournalMessage Nat Nat)))
      (calls : List (Call Nat Nat Nat)) (final : JournalMessage Nat Nat) (finalOrigin : Option Nat),
      Faithful own chatHistory (calls ++ [.write final finalOrigin]) := by
  intro h
  have hlog := (h 0 none [.hold ⟨.agentMessage, 1, none⟩, .hold ⟨.agentMessage, 1, none⟩]
    ⟨.aiMessage, 1, none⟩ none).1
  cases congrArg List.length hlog

end OriginatingJournal

end NoraFleet.Messages
