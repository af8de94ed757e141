import NoraFleet.Chat.ChatSession

/-!
# The end of the stream of a chat

`finalize_request` is reached at the end of `run_it`, at its start for an event,
and where set-up raises a `ValueError`. On any other path the run terminates and
the queue never receives its final item: a consumer of the queue waits for it.

* `Concludes` — the items of a run are messages, then the final item or nothing;
* `Run.concludes` — which of the two it is, by the calls of the run;
* `Run.endsStream_iff` — the stream is ended exactly when these calls return.
-/

namespace NoraFleet.Chat

open Base Flow

theorem isFinalItem_endMessage : isFinalItem endMessage = true := by decide +kernel

theorem isFinalItem_outgoingDict (messageDict : Json) :
    isFinalItem (outgoingDict messageDict) = false := by
  have hkey : str "response" ≠ str "end" := by decide +kernel
  simp [isFinalItem, outgoingDict, Json.lookup, hkey]

theorem iterate_append_final {messages : List Json} (h : ∀ m ∈ messages, isFinalItem m = false) :
    iterate (messages ++ [endMessage]) = some messages := by
  induction messages with
  | nil => simp [iterate, isFinalItem_endMessage]
  | cons m rest ih =>
      rw [List.forall_mem_cons] at h
      simp [iterate, h.1, ih h.2]

/-- The stream is ended: one final item, after everything else, so that a consumer
stops. -/
structure EndsStream (items : List Json) : Prop where
  oneFinal : items.countP isFinalItem = 1
  finalLast : ∃ messages, items = messages ++ [endMessage]
  stops : (iterate items).isSome

/-- The items are messages, then the final item if `ends`. -/
def Concludes (ends : Bool) (items : List Json) : Prop :=
  ∃ messages : List Json, (∀ m ∈ messages, isFinalItem m = false) ∧
    items = messages ++ if ends then [endMessage] else []

/-- Messages before what concludes. -/
theorem Concludes.append {ends : Bool} {events rest : List Json} (h : Concludes ends rest)
    (hevents : ∀ m ∈ events, isFinalItem m = false) : Concludes ends (events ++ rest) := by
  obtain ⟨messages, hmessages, rfl⟩ := h
  exact ⟨events ++ messages, List.forall_mem_append.mpr ⟨hevents, hmessages⟩,
    (List.append_assoc _ _ _).symm⟩

theorem Concludes.ends_iff {ends : Bool} {items : List Json} (h : Concludes ends items) :
    EndsStream items ↔ ends = true := by
  obtain ⟨messages, hmessages, rfl⟩ := h
  have hcount : messages.countP isFinalItem = 0 :=
    List.countP_eq_zero.mpr fun m hm => by simp [hmessages m hm]
  cases ends with
  | true =>
      have hended : EndsStream (messages ++ [endMessage]) := by
        refine ⟨?_, ⟨messages, rfl⟩, ?_⟩
        · simp [List.countP_append, hcount, isFinalItem_endMessage]
        · rw [iterate_append_final hmessages]
          rfl
      exact iff_of_true hended rfl
  | false =>
      refine iff_of_false (fun hended => ?_) Bool.false_ne_true
      have hone : messages.countP isFinalItem = 1 := by simpa using hended.oneFinal
      omega

/-! ## What follows what -/

/-- The final item was not sent; the last message was, or was not. -/
abbrev Open (lastMessageSent : Bool) (locals : Locals) : Prop :=
  locals.lastMessageSent = lastMessageSent ∧ locals.lastItemSent = false

/-- The session has sent its last message and the final item. -/
abbrev Over (locals : Locals) : Prop :=
  locals.lastMessageSent = true ∧ locals.lastItemSent = true

/-- A piece that puts messages, and neither sends the last one nor the final item. -/
abbrev Converses {α : Type} (piece : Chatting α) : Prop :=
  ∀ sent, Logs (fun item => isFinalItem item = false) (Open sent) piece

/-- A piece that puts nothing once the final item is sent. -/
abbrev Drops {α : Type} (piece : Chatting α) : Prop := Logs (fun _ => False) Over piece

/-- What follows a piece that converses concludes if the piece returns. -/
theorem concludes_bind {α β : Type} {first : Chatting α} {next : α → Chatting β}
    {sent returns ends : Bool} {locals : Locals} (hopen : Open sent locals)
    (hfirst : Converses first) (hreturns : returned (first.run locals).outcome = returns)
    (hnext : ∀ a locals', Open sent locals' →
      (first.run locals).locals = locals' → (first.run locals).outcome = .ok a →
      Concludes ends ((next a).run locals').events) :
    Concludes (returns && ends) ((first >>= next).run locals).events := by
  have hevents := (hfirst sent).events locals hopen
  have hkeeps := (hfirst sent).keeps locals hopen
  rw [run_bind]
  generalize first.run locals = ended at hevents hkeeps hreturns hnext ⊢
  obtain ⟨events, locals', e | a⟩ := ended
  · obtain rfl : false = returns := hreturns
    exact ⟨events, hevents, by simp⟩
  · obtain rfl : true = returns := hreturns
    rw [Bool.true_and]
    exact (hnext a locals' hkeeps rfl rfl).append hevents

/-- What follows a call concludes if the call returns. -/
theorem concludes_perform_bind {β : Type} (raised : Option PyError) {next : Unit → Chatting β}
    {ends : Bool} {locals : Locals} (hnext : Concludes ends ((next ()).run locals).events) :
    Concludes (raised.isNone && ends) ((perform raised >>= next).run locals).events := by
  rw [events_perform_bind]
  cases raised with
  | none => exact hnext
  | some e => exact ⟨[], fun _ h => absurd h List.not_mem_nil, rfl⟩

/-- What follows a piece that concludes puts nothing more. -/
theorem concludes_bind_nil {α β : Type} {first : Chatting α} {next : α → Chatting β}
    {ends : Bool} {locals : Locals} (hfirst : Concludes ends (first.run locals).events)
    (hnext : ∀ a, (first.run locals).outcome = .ok a →
      ((next a).run (first.run locals).locals).events = []) :
    Concludes ends ((first >>= next).run locals).events := by
  rw [run_bind]
  generalize first.run locals = ended at hfirst hnext ⊢
  obtain ⟨events, locals', e | a⟩ := ended
  · exact hfirst
  · show Concludes ends (events ++ ((next a).run locals').events)
    rw [hnext a rfl, List.append_nil]
    exact hfirst

/-! ## Journals and activities -/

section Pieces

/- What holds of every put holds of the pieces that put messages. -/
variable {P : Json → Prop} {I : Locals → Prop}

theorem logs_journalAll (hput : ∀ m raised, Logs P I (put (outgoingDict m) raised))
    (messages : List Json) : Logs P I (journalAll messages) := by
  induction messages with
  | nil => exact Logs.pure ()
  | cons m rest ih => exact (hput m none).bind fun _ => ih

theorem logs_carryOut (hput : ∀ m raised, Logs P I (put (outgoingDict m) raised))
    (activity : Activity) : Logs P I activity.carryOut :=
  (logs_journalAll hput activity.messages).bind fun _ => Logs.perform activity.raised

theorem logs_writeMessage (hput : ∀ m raised, Logs P I (put (outgoingDict m) raised))
    (writing : Writing) : Logs P I (writeMessage writing) := by
  refine (Logs.call _).bind fun _ => (Logs.call _).bind fun allowed => ?_
  cases allowed with
  | true =>
      refine (Logs.call writing.processMessage).bind fun messageDict => ?_
      exact (hput messageDict writing.put).bind fun _ => Logs.perform writing.traceSource
  | false => exact (Logs.pure ()).bind fun _ => Logs.perform writing.traceSource

theorem logs_setUp (hput : ∀ m raised, Logs P I (put (outgoingDict m) raised))
    (hfrontMan : ∀ locals, I locals → I { locals with frontMan := true })
    (settingUp : SettingUp) : Logs P I settingUp.setUp :=
  (Logs.perform settingUp.updateSlyData).bind fun _ =>
    (Logs.perform settingUp.createRunContext).bind fun _ =>
      (Logs.perform settingUp.createFrontMan).bind fun _ =>
        (Logs.assign hfrontMan).bind fun _ => logs_carryOut hput settingUp.createAnyResources

theorem logs_submit (hput : ∀ m raised, Logs P I (put (outgoingDict m) raised)) (run : Run) :
    Logs P I (tryExcept run.submitMessage.carryOut fun e =>
      if run.isPatienceError then perform run.logPatienceError else raise e) := by
  refine (logs_carryOut hput run.submitMessage).tryExcept fun e => ?_
  split
  · exact Logs.perform run.logPatienceError
  · exact Logs.raise e

theorem logs_chat (hput : ∀ m raised, Logs P I (put (outgoingDict m) raised))
    (hfrontMan : ∀ locals, I locals → I { locals with frontMan := true }) (run : Run) :
    Logs P I run.chat := by
  have hsubmit := (logs_submit hput run).bind fun _ => Logs.perform run.convertMessages
  refine Logs.readLocals_bind fun locals _ => ?_
  cases locals.frontMan with
  | true => exact (Logs.perform run.updateInvocationContext).bind fun _ => hsubmit
  | false => exact (logs_setUp hput hfrontMan run.settingUpAgain).bind fun _ => hsubmit

end Pieces

theorem converses_put (m : Json) (raised : Option PyError) :
    Converses (put (outgoingDict m) raised) := by
  refine fun _ => Logs.readLocals_bind fun locals hopen => ?_
  rw [hopen.2]
  exact (Logs.perform raised).bind fun _ => Logs.emit (isFinalItem_outgoingDict m)

theorem drops_put (m : Json) (raised : Option PyError) : Drops (put (outgoingDict m) raised) := by
  refine Logs.readLocals_bind fun locals hover => ?_
  rw [hover.2]
  exact Logs.pure ()

theorem run_journalAll (messages : List Json) (locals : Locals) :
    ((journalAll messages).run locals).locals = locals ∧
      ((journalAll messages).run locals).outcome = .ok () := by
  induction messages with
  | nil => exact ⟨rfl, rfl⟩
  | cons m rest ih =>
      have hput : ((put (outgoingDict m) none).run locals).locals = locals ∧
          ((put (outgoingDict m) none).run locals).outcome = .ok () := by
        simp only [put, run_readLocals_bind]
        split
        · exact ⟨rfl, rfl⟩
        · exact ⟨rfl, rfl⟩
      simp only [journalAll, run_bind]
      generalize (put (outgoingDict m) none).run locals = ended at hput ⊢
      obtain ⟨events, locals', outcome⟩ := ended
      obtain ⟨rfl, rfl⟩ := hput
      exact ih

/-- An activity leaves the attributes alone, and ends as given. -/
theorem run_carryOut (activity : Activity) (locals : Locals) :
    (activity.carryOut.run locals).locals = locals ∧
      (activity.carryOut.run locals).outcome =
        (match activity.raised with | none => .ok () | some e => .error e) := by
  have hjournal := run_journalAll activity.messages locals
  simp only [Activity.carryOut, run_bind]
  generalize (journalAll activity.messages).run locals = ended at hjournal ⊢
  obtain ⟨events, locals', outcome⟩ := ended
  obtain ⟨rfl, rfl⟩ := hjournal
  exact ⟨rfl, rfl⟩

theorem returned_put {item : Json} {raised : Option PyError} {locals : Locals}
    (hopen : locals.lastItemSent = false) :
    returned ((put item raised).run locals).outcome = raised.isNone := by
  simp only [put, run_readLocals_bind, hopen]
  cases raised with
  | none => rfl
  | some e => rfl

/-! ## The last message -/

/-- The message gets through the journal, or is filtered out, and is kept for the
trace. -/
def Writing.returns (writing : Writing) : Bool :=
  returned writing.toDict &&
    (match writing.allowMessage with
      | .error _ => false
      | .ok false => true
      | .ok true => returned writing.processMessage && writing.put.isNone) &&
    writing.traceSource.isNone

/-- The message is built, written, and followed by the final item. -/
def LastMessage.sent (message : LastMessage) : Bool :=
  message.build.isNone && (message.writing.returns && message.putFinalItem.isNone)

theorem returned_writeMessage (writing : Writing) {locals : Locals}
    (hopen : locals.lastItemSent = false) :
    returned ((writeMessage writing).run locals).outcome = writing.returns := by
  have hput : ∀ messageDict, returned ((do
      put (outgoingDict messageDict) writing.put
      perform writing.traceSource : Chatting Unit).run locals).outcome =
        (writing.put.isNone && writing.traceSource.isNone) :=
    fun _ => returned_bind (returned_put hopen) fun _ _ => returned_perform _ _
  unfold Writing.returns
  rw [Bool.and_assoc]
  refine returned_bind rfl fun _ _ => ?_
  cases hallow : writing.allowMessage with
  | error e => rfl
  | ok allowed =>
      cases allowed with
      | false => exact returned_perform _ _
      | true =>
          show returned ((do
            let messageDict ← call writing.processMessage
            put (outgoingDict messageDict) writing.put
            perform writing.traceSource : Chatting Unit).run locals).outcome = _
          dsimp only
          rw [Bool.and_assoc]
          exact returned_bind rfl fun messageDict _ => hput messageDict

/-- The final item, where none was sent. -/
theorem concludes_putFinalItem (raised : Option PyError) {locals : Locals}
    (hopen : locals.lastItemSent = false) :
    Concludes raised.isNone ((putFinalItem raised).run locals).events := by
  simp only [putFinalItem, run_readLocals_bind, hopen, Bool.false_eq_true, if_false,
    run_assign_bind, events_perform_bind]
  cases raised with
  | none => exact ⟨[], fun _ h => absurd h List.not_mem_nil, rfl⟩
  | some e => exact ⟨[], fun _ h => absurd h List.not_mem_nil, rfl⟩

theorem locals_putFinalItem (raised : Option PyError) (locals : Locals) :
    ((putFinalItem raised).run locals).locals = { locals with lastItemSent := true } := by
  obtain ⟨frontMan, lastMessageSent, lastItemSent, workDone⟩ := locals
  cases lastItemSent with
  | true => rfl
  | false =>
      cases raised with
      | none => rfl
      | some e => rfl

theorem concludes_send (message : LastMessage) {locals : Locals} (hopen : Open false locals) :
    Concludes message.sent (message.send.run locals).events := by
  refine concludes_perform_bind message.build ?_
  simp only [finalizeRequest, run_readLocals_bind, hopen.1, Bool.false_eq_true, if_false,
    run_assign_bind]
  have hsent : Open true { locals with lastMessageSent := true } := ⟨rfl, hopen.2⟩
  refine concludes_bind hsent (fun sent => logs_writeMessage (converses_put · · sent) _)
    (returned_writeMessage _ hopen.2) fun _ locals' hopen' _ _ => ?_
  exact concludes_putFinalItem message.putFinalItem hopen'.2

theorem drops_send (message : LastMessage) : Drops message.send := by
  refine (Logs.perform message.build).bind fun _ => Logs.readLocals_bind fun locals hover => ?_
  rw [hover.1]
  exact Logs.pure ()

theorem over_of_send {message : LastMessage} {locals : Locals} (hopen : Open false locals)
    (h : (message.send.run locals).outcome = .ok ()) : Over (message.send.run locals).locals := by
  unfold LastMessage.send at h ⊢
  have hsent : Open true { locals with lastMessageSent := true } := ⟨rfl, hopen.2⟩
  have hwritten :=
    (logs_writeMessage (converses_put · · true) message.writing).keeps _ hsent
  obtain ⟨_, -, hfinalize, hlocals⟩ := exists_of_bind_eq_ok h
  rw [hlocals]
  change ((finalizeRequest message).run locals).outcome = .ok () at hfinalize
  show Over ((finalizeRequest message).run locals).locals
  simp only [finalizeRequest, run_readLocals_bind, hopen.1, Bool.false_eq_true, if_false,
    run_assign_bind] at hfinalize ⊢
  obtain ⟨_, -, -, hlocals'⟩ := exists_of_bind_eq_ok hfinalize
  rw [hlocals', locals_putFinalItem]
  exact ⟨hwritten.1, rfl⟩

/-! ## Set-up and chat -/

/-- What set-up raises, if anything. -/
def SettingUp.raised (settingUp : SettingUp) : Option PyError :=
  settingUp.updateSlyData <|> settingUp.createRunContext <|> settingUp.createFrontMan <|>
    settingUp.createAnyResources.raised

/-- Set-up ends as given, with a front man if it returns. -/
theorem run_setUp (settingUp : SettingUp) (locals : Locals) :
    (settingUp.setUp.run locals).outcome =
      (match settingUp.raised with | none => .ok () | some e => .error e) ∧
    (settingUp.raised = none → (settingUp.setUp.run locals).locals.frontMan = true) := by
  have hresources :=
    run_carryOut settingUp.createAnyResources { locals with frontMan := true }
  unfold SettingUp.setUp SettingUp.raised
  cases settingUp.updateSlyData with
  | some e => exact ⟨rfl, fun h => by cases h⟩
  | none =>
      cases settingUp.createRunContext with
      | some e => exact ⟨rfl, fun h => by cases h⟩
      | none =>
          cases settingUp.createFrontMan with
          | some e => exact ⟨rfl, fun h => by cases h⟩
          | none =>
              refine ⟨hresources.2, fun _ => ?_⟩
              show (settingUp.createAnyResources.carryOut.run
                { locals with frontMan := true }).locals.frontMan = true
              rw [hresources.1]

namespace Run

variable (run : Run)

/-- The chat with a front man that is set up returns. -/
def chatReturns : Bool :=
  run.updateInvocationContext.isNone &&
    ((run.submitMessage.raised.isNone || (run.isPatienceError && run.logPatienceError.isNone)) &&
      run.convertMessages.isNone)

theorem returned_submit (locals : Locals) :
    returned ((tryExcept run.submitMessage.carryOut fun e =>
      if run.isPatienceError then perform run.logPatienceError else raise e).run locals).outcome =
      (run.submitMessage.raised.isNone ||
        (run.isPatienceError && run.logPatienceError.isNone)) := by
  have hcarried := (run_carryOut run.submitMessage locals).2
  simp only [tryExcept]
  generalize run.submitMessage.carryOut.run locals = ended at hcarried ⊢
  obtain ⟨events, locals', outcome⟩ := ended
  dsimp only at hcarried
  subst hcarried
  cases run.submitMessage.raised with
  | none => rfl
  | some e =>
      cases run.isPatienceError with
      | true =>
          show returned ((perform run.logPatienceError : Chatting Unit).run locals').outcome = _
          exact returned_perform run.logPatienceError locals'
      | false => rfl

theorem returned_chat {locals : Locals} (hfrontMan : locals.frontMan = true) :
    returned (run.chat.run locals).outcome = run.chatReturns := by
  unfold chat
  rw [run_readLocals_bind, hfrontMan]
  refine returned_bind (returned_perform _ _) fun _ _ => ?_
  exact returned_bind (run.returned_submit locals) fun _ _ => returned_perform _ _

/-- The part of the run from the chat on ends the stream if all of it returns. -/
def responds : Bool :=
  run.chatReturns &&
    (run.prepareChatContext.isNone &&
      (run.processAnswer.isNone && (run.redactSlyData.isNone && run.answer.sent)))

theorem concludes_respond {locals : Locals} (hopen : Open false locals)
    (hfrontMan : locals.frontMan = true) :
    Concludes run.responds (run.respond.run locals).events := by
  refine concludes_bind hopen
    (fun sent => logs_chat (converses_put · · sent) (fun _ h => h) run)
    (run.returned_chat hfrontMan) fun _ locals' hopen' _ _ => ?_
  refine concludes_perform_bind _ (concludes_perform_bind _ (concludes_perform_bind _ ?_))
  exact concludes_send run.answer hopen'

theorem drops_respond : Drops run.respond :=
  (logs_chat drops_put (fun _ h => h) run).bind fun _ =>
    (Logs.perform run.prepareChatContext).bind fun _ =>
      (Logs.perform run.processAnswer).bind fun _ =>
        (Logs.perform run.redactSlyData).bind fun _ => drops_send run.answer

/-! ## The run -/

/-- What the run does from set-up on ends the stream, if it is no event. -/
def answers : Bool :=
  match run.settingUp.raised with
  | none => run.responds
  | some e => e.isValueError && run.setUpError.sent

/-- The calls on the way to the final item return. -/
def ends : Bool :=
  run.addResource.isNone && (run.findFrontMan.isNone && (run.inputMessage.isNone &&
    (run.inputMessageForShow.isNone && (run.createTracingContext.isNone &&
      (run.tracingStarts.isNone &&
        (if run.isEvent then run.eventAcknowledge.sent else run.answers))))))

theorem drops_setUpOnce : Drops run.setUpOnce := by
  refine Logs.readLocals_bind fun locals _ => ?_
  cases locals.frontMan with
  | true => exact Logs.pure true
  | false =>
      refine Logs.tryExcept ?_ fun e => ?_
      · exact (logs_setUp drops_put (fun _ h => h) run.settingUp).bind fun _ => Logs.pure true
      · cases e.isValueError with
        | true => exact (drops_send run.setUpError).bind fun _ => Logs.pure false
        | false => exact Logs.raise e

/-- An event is acknowledged first, and nothing is put after that. -/
theorem concludes_runIt_event (hevent : run.isEvent = true) {locals : Locals}
    (hopen : Open false locals) :
    Concludes run.eventAcknowledge.sent (run.runIt.run locals).events := by
  have hrest : Drops (do
      let goesOn ← run.setUpOnce
      if goesOn then run.respond else pure ()) := by
    refine run.drops_setUpOnce.bind fun goesOn => ?_
    cases goesOn with
    | true => exact run.drops_respond
    | false => exact Logs.pure ()
  unfold runIt acknowledgeEvent
  rw [hevent, if_pos rfl]
  refine concludes_bind_nil (concludes_send run.eventAcknowledge hopen) fun _ hsent => ?_
  exact hrest.events_eq_nil (over_of_send hopen hsent)

/-- A chat that is no event is set up, and then answered. -/
theorem concludes_runIt_chat (hevent : run.isEvent = false) {locals : Locals}
    (hopen : Open false locals) (hfrontMan : locals.frontMan = false) :
    Concludes run.answers (run.runIt.run locals).events := by
  obtain ⟨houtcome, hset⟩ := run_setUp run.settingUp locals
  have hconverses := logs_setUp (converses_put · · false) (fun _ h => h) run.settingUp
  have hmessages := hconverses.events locals hopen
  have hkeeps := hconverses.keeps locals hopen
  unfold runIt acknowledgeEvent setUpOnce answers
  rw [hevent, if_neg Bool.false_ne_true, bind_of_ok rfl, run_bind, run_readLocals_bind, hfrontMan]
  simp only [Bool.false_eq_true, if_false, tryExcept, run_bind]
  generalize run.settingUp.setUp.run locals = ended at houtcome hset hmessages hkeeps ⊢
  obtain ⟨events, locals', outcome⟩ := ended
  dsimp only at houtcome
  subst houtcome
  cases hraised : run.settingUp.raised with
  | none =>
      show Concludes run.responds ((events ++ []) ++ (run.respond.run locals').events)
      rw [List.append_nil]
      exact (run.concludes_respond hkeeps (hset hraised)).append hmessages
  | some e =>
      have hsend := concludes_send run.setUpError hkeeps
      dsimp only
      cases hvalue : e.isValueError with
      | false =>
          show Concludes false (events ++ [])
          rw [List.append_nil]
          exact ⟨events, hmessages, (List.append_nil _).symm⟩
      | true =>
          simp only [if_true, Bool.true_and, run_bind]
          generalize run.setUpError.send.run locals' = ended at hsend ⊢
          obtain ⟨sent, locals'', e' | _⟩ := ended
          · exact hsend.append hmessages
          · show Concludes run.setUpError.sent ((events ++ (sent ++ [])) ++ [])
            rw [List.append_nil, List.append_nil]
            exact hsend.append hmessages

/-- The items of a run are messages, then the final item if the calls on the way to
it return. -/
theorem concludes : Concludes run.ends run.received := by
  have hrun : Concludes (if run.isEvent then run.eventAcknowledge.sent else run.answers)
      (run.runIt.run .initial).events := by
    cases hevent : run.isEvent with
    | true => exact run.concludes_runIt_event hevent ⟨rfl, rfl⟩
    | false => exact run.concludes_runIt_chat hevent ⟨rfl, rfl⟩ rfl
  refine concludes_perform_bind _ (concludes_perform_bind _ (concludes_perform_bind _
    (concludes_perform_bind _ (concludes_perform_bind _ ?_))))
  rw [events_tryFinally]
  show Concludes _ (_ ++ [])
  rw [List.append_nil]
  refine concludes_perform_bind _ (concludes_bind_nil hrun fun _ _ => ?_)
  rfl

/-- The stream of a chat is ended exactly when the calls on the way to the final
item return. -/
theorem endsStream_iff : EndsStream run.received ↔ run.ends = true :=
  run.concludes.ends_iff

end Run

/-- A message that is written and followed by the final item. -/
def deliveredMessage : LastMessage :=
  ⟨none, ⟨.ok (.obj []), .ok true, .ok (.obj []), none, none⟩, none⟩

/-- The run of a request whose user message has a number as its text: that is no
content for the message that the session makes of it. -/
def numberAsText : Run where
  effectiveInvocation := str "chatbot"
  addResource := none
  findFrontMan := none
  inputMessage := some .valueError
  inputMessageForShow := none
  createTracingContext := none
  tracingStarts := none
  tracingEnds := none
  eventAcknowledge := deliveredMessage
  settingUp := ⟨none, none, none, ⟨[], none⟩⟩
  setUpError := deliveredMessage
  prepareChatContext := none
  processAnswer := none
  redactSlyData := none
  answer := deliveredMessage
  settingUpAgain := ⟨none, none, none, ⟨[], none⟩⟩
  updateInvocationContext := none
  submitMessage := ⟨[], none⟩
  isPatienceError := false
  logPatienceError := none
  convertMessages := none

/-- Its stream is never ended, and neither is the same of a front man that raises
what is no `PATIENCE_ERROR`. -/
theorem numberAsText_not_endsStream :
    ¬ EndsStream numberAsText.received ∧
      ¬ EndsStream (Run.received { numberAsText with
        inputMessage := none
        submitMessage := ⟨[.obj []], some .otherException⟩ }) := by
  constructor
  · intro hended
    have hends := (Run.concludes numberAsText).ends_iff.mp hended
    exact Bool.false_ne_true hends
  · intro hended
    have hends := (Run.concludes _).ends_iff.mp hended
    have hevent : (Run.ends { numberAsText with
        inputMessage := none
        submitMessage := ⟨[.obj []], some .otherException⟩ }) = false := by decide +kernel
    exact Bool.false_ne_true (hevent.symm.trans hends)

end NoraFleet.Chat
