import Mathlib
import NoraFleet.Base.Dumps
import NoraFleet.Base.Layers
import NoraFleet.Base.Lines
import NoraFleet.Base.Utf8

/-!
# Streams of chat responses

A server writes every result of a chat on a line of its own, and keep-alive frames in
between. A client gets the bytes in chunks that know nothing of lines, and puts them
together again. Only the last frame may be without its newline: an error is written as
it is.

* `readContent_eq` — a client reads the lines of the whole stream;
* `readStreamed` — the lines are the frames;
* `streamingChat_frames` — both kinds of sessions yield what was written.
-/

namespace NoraFleet.Streaming

open Base
open Base.Json (Members)

/-! ## The server -/

/-- `json.dumps(value)`, without arguments. -/
def oneLine : Json.Layout := ⟨1, 1, none⟩

/-- A dictionary, as it is written. -/
structure Frame (room : Nat) where
  dict : Members
  text : PyStr
  dumped : Json.dumps oneLine room (.obj dict) = .ok text

/-- The frame of a dictionary, if it can be written. -/
def frameOf (room : Nat) (dict : Members) : Option (Frame room) :=
  match h : Json.dumps oneLine room (.obj dict) with
  | .ok text => some ⟨dict, text, h⟩
  | .error _ => none

/-- What a handler has written: frames on lines of their own, and perhaps a last one
without a newline. -/
structure Streamed (room : Nat) where
  lines : List (Frame room)
  last : Option (Frame room)

/-- All frames. -/
def Streamed.frames {room : Nat} (streamed : Streamed room) : List (Frame room) :=
  streamed.lines ++ streamed.last.toList

/-- `utf8(chunk)`, of a text that can be encoded. -/
def encodeText (text : PyStr) : List UInt8 := (utf8EncodeText text).getD []

/-- The bytes that were written. -/
def Streamed.bytes {room : Nat} (streamed : Streamed room) : List UInt8 :=
  streamed.lines.flatMap (fun frame => encodeText (frame.text ++ [10])) ++
    (streamed.last.map fun frame => encodeText frame.text).getD []

namespace StreamingChatHandler

/-- The dictionary of `_build_heartbeat_frame()`. -/
def heartbeatDict : Members :=
  [(str "response", .obj [(str "type", .str (str "AGENT_PROGRESS")), (str "text", .str [])])]

/-- The document of an error. -/
def errorDict (error : String) : Members := [(str "error", .str (str error))]

/-- What is written while the lock is held: a result of the chat, or a keep-alive frame. -/
inductive Write where
  | result (resultDict : Members)
  | heartbeat

/-- The dictionary of what is written. -/
def Write.dict : Write → Members
  | .result resultDict => resultDict
  | .heartbeat => heartbeatDict

/-- How the loop of `post` ends: the chat is over, or something is raised. -/
inductive Ending where
  | done
  | timeoutError
  | jsonDecodeError
  | exception

/-- The error that is written at the end, if any: it has no newline. -/
def Ending.error : Ending → Option Members
  | .done => none
  | .timeoutError => some (errorDict "Request timeout")
  | .jsonDecodeError => some (errorDict "Invalid JSON format")
  | .exception => some (errorDict "Internal server error")

/-- What the loop of `post` and `run_heartbeat` write, one write after the other in the
order in which they hold the lock. A result that cannot be written ends the loop. -/
def post (room : Nat) (ending : Ending) : List Write → Streamed room
  | [] => ⟨[], ending.error.bind (frameOf room)⟩
  | write :: writes =>
      match frameOf room write.dict with
      | some frame => ⟨frame :: (post room ending writes).lines, (post room ending writes).last⟩
      | none => ⟨[], Ending.exception.error.bind (frameOf room)⟩

end StreamingChatHandler

/-! ## The sessions of a client -/

/-- What the transport raises. -/
inductive TransportError where
  | timeoutError
  | clientOSError
  | clientPayloadError
  | other

/-- What goes wrong while a response is read. -/
inductive ReadError where
  | unicodeDecodeError
  | load (e : LoadError)
  | transport (e : TransportError)

/-- What a generator does: the values that it yields, and what it raises after them, if
anything. -/
structure Yields (ε : Type) where
  values : List Json
  raised : Option ε

namespace Yields

variable {ε ε' : Type}

/-- Nothing is yielded. -/
def nothing : Yields ε := ⟨[], none⟩

/-- What comes next is done only if nothing was raised. -/
def andThen (first next : Yields ε) : Yields ε :=
  match first.raised with
  | none => ⟨first.values ++ next.values, next.raised⟩
  | some _ => first

/-- Another exception is raised in the place of one. -/
def mapRaised (f : ε → ε') (yields : Yields ε) : Yields ε' := ⟨yields.values, yields.raised.map f⟩

end Yields

/-- One line: blank ones are skipped, others are decoded and yielded. -/
def yieldLine (limit : Nat) (line : List UInt8) : Yields ReadError :=
  match utf8Decode line with
  | none => ⟨[], some .unicodeDecodeError⟩
  | some text =>
      if strip text = [] then .nothing
      else match Json.loads limit (strip text) with
        | .ok resultDict => ⟨[resultDict], none⟩
        | .error e => ⟨[], some (.load e)⟩

/-- The loop over the lines of the accumulator: what is yielded, and what is left. -/
def drain (limit : Nat) (accumulator : List UInt8) : Yields ReadError × List UInt8 :=
  match _h : Lines.firstLine 10 accumulator with
  | none => (.nothing, accumulator)
  | some parts =>
      match (yieldLine limit parts.1).raised with
      | some _ => (yieldLine limit parts.1, parts.2)
      | none =>
          ((yieldLine limit parts.1).andThen (drain limit parts.2).1, (drain limit parts.2).2)
termination_by accumulator.length
decreasing_by all_goals exact Lines.firstLine_length _h

/-- The content of a response: its chunks, and what the transport raises after them, if
anything. -/
structure Content where
  chunks : List (List UInt8)
  raised : Option TransportError

/-- What is yielded once there are no more chunks. -/
def flush (limit : Nat) (raised : Option TransportError) (accumulator : List UInt8) :
    Yields ReadError :=
  match raised with
  | some e => ⟨[], some (.transport e)⟩
  | none => if 0 < accumulator.length then yieldLine limit accumulator else .nothing

/-- The loop over the chunks, which both sessions have. -/
def readChunks (limit : Nat) (raised : Option TransportError) :
    List UInt8 → List (List UInt8) → Yields ReadError
  | accumulator, [] => flush limit raised accumulator
  | accumulator, data :: chunks =>
      (drain limit (accumulator ++ data)).1.andThen
        (readChunks limit raised (drain limit (accumulator ++ data)).2 chunks)

/-- What a session raises: what the transport raised, or a `ValueError` with help. -/
inductive SessionError where
  | reraised (e : TransportError)
  | valueError

/-- Timeouts and errors of the client are passed on, and all else becomes a
`ValueError`. -/
def passedOn : ReadError → SessionError
  | .transport .timeoutError => .reraised .timeoutError
  | .transport .clientOSError => .reraised .clientOSError
  | .transport .clientPayloadError => .reraised .clientPayloadError
  | _ => .valueError

/-- `AsyncHttpServiceAgentSession.streaming_chat`. -/
def AsyncHttpServiceAgentSession.streamingChat (limit : Nat) (content : Content) :
    Yields SessionError :=
  (readChunks limit content.raised [] content.chunks).mapRaised passedOn

/-- `HttpServiceAgentSession.streaming_chat`. -/
def HttpServiceAgentSession.streamingChat (limit : Nat) (content : Content) :
    Yields SessionError :=
  (readChunks limit content.raised [] content.chunks).mapRaised fun _ => .valueError

/-! ## What is to be yielded -/

/-- The frames, each read by itself, one after the other. -/
def readFrames {room : Nat} (limit : Nat) : List (Frame room) → Yields ReadError
  | [] => .nothing
  | frame :: frames =>
      match Json.loads limit frame.text with
      | .error e => ⟨[], some (.load e)⟩
      | .ok value => ⟨value :: (readFrames limit frames).values, (readFrames limit frames).raised⟩

/-! ## What a generator does -/

namespace Yields

variable {ε ε' : Type}

theorem andThen_assoc (first second third : Yields ε) :
    (first.andThen second).andThen third = first.andThen (second.andThen third) := by
  obtain ⟨values, raised⟩ := first
  cases raised with
  | some e => rfl
  | none =>
      obtain ⟨values', raised'⟩ := second
      cases raised' with
      | some e => rfl
      | none =>
          show (⟨values ++ values' ++ third.values, third.raised⟩ : Yields ε) =
            ⟨values ++ (values' ++ third.values), third.raised⟩
          rw [List.append_assoc]

theorem andThen_of_raised {first : Yields ε} {e : ε} (h : first.raised = some e)
    (next : Yields ε) : first.andThen next = first := by
  unfold andThen
  rw [h]

end Yields

/-! ## Lines in chunks -/

/-- Lines, one after the other. -/
def yieldLines (limit : Nat) : List (List UInt8) → Yields ReadError
  | [] => .nothing
  | line :: lines => (yieldLine limit line).andThen (yieldLines limit lines)

theorem yieldLines_append (limit : Nat) (lines more : List (List UInt8)) :
    yieldLines limit (lines ++ more) =
      (yieldLines limit lines).andThen (yieldLines limit more) := by
  induction lines with
  | nil => rfl
  | cons line lines ih =>
      show (yieldLine limit line).andThen (yieldLines limit (lines ++ more)) =
        ((yieldLine limit line).andThen (yieldLines limit lines)).andThen _
      rw [ih, Yields.andThen_assoc]

/-- The inner loop yields the complete lines, and leaves what follows them. -/
theorem drain_eq (limit : Nat) (accumulator : List UInt8) :
    (drain limit accumulator).1 = yieldLines limit (Lines.cut 10 accumulator).1 ∧
      ((drain limit accumulator).1.raised = none →
        (drain limit accumulator).2 = (Lines.cut 10 accumulator).2) := by
  induction hn : accumulator.length using Nat.strongRecOn generalizing accumulator with
  | _ n ih =>
      rw [drain]
      split
      case h_1 hfirst =>
          rw [Lines.cut_of_not_mem (Lines.firstLine_eq_none_iff.mp hfirst)]
          exact ⟨rfl, fun _ => rfl⟩
      case h_2 parts hfirst =>
          have hshorter : parts.2.length < n := hn ▸ Lines.firstLine_length hfirst
          obtain ⟨hlines, hrest⟩ := ih parts.2.length hshorter parts.2 rfl
          rw [Lines.cut_of_firstLine hfirst]
          show _ = (yieldLine limit parts.1).andThen _ ∧ _
          split
          case h_1 e hraised =>
              rw [Yields.andThen_of_raised hraised]
              refine ⟨rfl, fun hnone => ?_⟩
              rw [hraised] at hnone
              cases hnone
          case h_2 hraised =>
              refine ⟨by rw [hlines], fun hnone => hrest ?_⟩
              unfold Yields.andThen at hnone
              rw [hraised] at hnone
              exact hnone

/-- A client reads the lines of the whole content, however it is divided, and then what
follows the last newline. -/
theorem readContent_eq (limit : Nat) (raised : Option TransportError) {kept : List UInt8}
    (hkept : 10 ∉ kept) (chunks : List (List UInt8)) :
    readChunks limit raised kept chunks =
      (yieldLines limit (Lines.cut 10 (kept ++ chunks.flatten)).1).andThen
        (flush limit raised (Lines.cut 10 (kept ++ chunks.flatten)).2) := by
  induction chunks generalizing kept with
  | nil =>
      rw [List.flatten_nil, List.append_nil, Lines.cut_of_not_mem hkept]
      rfl
  | cons data chunks ih =>
      obtain ⟨hlines, hrest⟩ := drain_eq limit (kept ++ data)
      rw [List.flatten_cons, ← List.append_assoc, Lines.cut_append (kept ++ data)]
      unfold readChunks
      rw [yieldLines_append, Yields.andThen_assoc, ← hlines]
      cases hraised : (drain limit (kept ++ data)).1.raised with
      | some e => rw [Yields.andThen_of_raised hraised, Yields.andThen_of_raised hraised]
      | none =>
          have hnewline := @Lines.not_mem_cut UInt8 _ 10 (kept ++ data)
          rw [hrest hraised, ih hnewline]

/-! ## Frames -/

/-- A text with other ends is not stripped. -/
theorem strip_of_ends {c d : Nat} (hc : isSpace c = false) (hd : isSpace d = false)
    (inner : PyStr) :
    strip (c :: (inner ++ [d])) = c :: (inner ++ [d]) := by
  have hback : (c :: (inner ++ [d])).reverse = d :: (inner.reverse ++ [c]) := by simp
  unfold strip stripWith
  rw [List.dropWhile_cons_of_neg (by rw [hc]; exact Bool.false_ne_true), hback,
    List.dropWhile_cons_of_neg (by rw [hd]; exact Bool.false_ne_true), ← hback,
    List.reverse_reverse]

namespace Frame

variable {room : Nat}

theorem exists_braces (frame : Frame room) : ∃ inner, frame.text = 123 :: (inner ++ [125]) := by
  have hdumped := frame.dumped
  unfold Json.dumps Json.dumpValue at hdumped
  obtain ⟨room', texts, -, -, htext⟩ := Json.dumpContainer_ok hdumped
  cases texts with
  | nil =>
      exact ⟨[], (Except.ok.inj htext).symm⟩
  | cons first others =>
      rw [← Except.ok.inj htext]
      exact ⟨first ++ others.flatMap fun text => 44 :: (oneLine.between 1 ++ text), rfl⟩

theorem text_ne_nil (frame : Frame room) : frame.text ≠ [] := by
  obtain ⟨inner, hinner⟩ := frame.exists_braces
  rw [hinner]
  exact List.cons_ne_nil _ _

theorem strip_text (frame : Frame room) : strip frame.text = frame.text := by
  obtain ⟨inner, hinner⟩ := frame.exists_braces
  rw [hinner]
  exact strip_of_ends (by decide) (by decide) inner

/-- The characters of a frame are those of one line of ASCII. -/
theorem printable (frame : Frame room) {c : Nat} (hc : c ∈ frame.text) : 32 ≤ c ∧ c < 127 := by
  have hall := List.all_eq_true.mp (Json.printable_of_dumps rfl frame.dumped) c hc
  unfold isPrintable at hall
  simpa using hall

/-- The bytes of a frame, without a newline. -/
def encoded (frame : Frame room) : List UInt8 := encodeText frame.text

theorem utf8EncodeText_text (frame : Frame room) :
    utf8EncodeText frame.text = some frame.encoded := by
  have hascii := utf8EncodeText_of_ascii fun c hc => Nat.lt_succ_of_lt (frame.printable hc).2
  unfold encoded encodeText
  rw [hascii]
  rfl

theorem encodeText_line (frame : Frame room) :
    encodeText (frame.text ++ [10]) = frame.encoded ++ [10] := by
  have hascii : ∀ c ∈ frame.text ++ [10], c < 0x80 := by
    intro c hc
    rcases List.mem_append.mp hc with hc | hc
    · exact Nat.lt_succ_of_lt (frame.printable hc).2
    · rw [List.mem_singleton.mp hc]
      decide
  have htext := utf8EncodeText_of_ascii fun c hc => hascii c (List.mem_append_left _ hc)
  rw [utf8EncodeText_text] at htext
  unfold encodeText
  rw [utf8EncodeText_of_ascii hascii, Option.getD_some, List.map_append, Option.some.inj htext]
  rfl

theorem not_mem_encoded (frame : Frame room) : 10 ∉ frame.encoded := by
  have hascii := utf8EncodeText_of_ascii fun c hc => Nat.lt_succ_of_lt (frame.printable hc).2
  rw [utf8EncodeText_text] at hascii
  rw [Option.some.inj hascii]
  intro hmem
  obtain ⟨c, hc, hten⟩ := List.mem_map.mp hmem
  have hbounds := frame.printable hc
  have hvalue := congrArg UInt8.toNat hten
  rw [toNat_toUInt8 (by omega)] at hvalue
  have hnewline : (10 : UInt8).toNat = 10 := rfl
  omega

theorem yieldLine_encoded (limit : Nat) (frame : Frame room) :
    yieldLine limit frame.encoded = readFrames limit [frame] := by
  unfold yieldLine
  rw [utf8Decode_utf8EncodeText frame.utf8EncodeText_text]
  dsimp only
  rw [frame.strip_text, if_neg frame.text_ne_nil]
  unfold readFrames
  cases Json.loads limit frame.text with
  | error e => rfl
  | ok value => rfl

end Frame

section

variable {room : Nat} (limit : Nat)

theorem readFrames_cons (frame : Frame room) (frames : List (Frame room)) :
    readFrames limit (frame :: frames) =
      (readFrames limit [frame]).andThen (readFrames limit frames) := by
  rw [readFrames, readFrames]
  cases Json.loads limit frame.text with
  | error e => rfl
  | ok value => rfl

theorem readFrames_append (frames more : List (Frame room)) :
    readFrames limit (frames ++ more) =
      (readFrames limit frames).andThen (readFrames limit more) := by
  induction frames with
  | nil => rfl
  | cons frame frames ih =>
      rw [List.cons_append, readFrames_cons, ih, ← Yields.andThen_assoc, ← readFrames_cons]

theorem yieldLines_frames (frames : List (Frame room)) :
    yieldLines limit (frames.map Frame.encoded) = readFrames limit frames := by
  induction frames with
  | nil => rfl
  | cons frame frames ih =>
      rw [List.map_cons, yieldLines, frame.yieldLine_encoded, ih, ← readFrames_cons]

theorem flush_last (last : Option (Frame room)) :
    flush limit none ((last.map Frame.encoded).getD []) = readFrames limit last.toList := by
  cases last with
  | none => rfl
  | some frame =>
      have hsome : 0 < frame.encoded.length := by
        apply List.length_pos_of_ne_nil
        intro hnil
        have hdecode := utf8Decode_utf8EncodeText frame.utf8EncodeText_text
        rw [hnil] at hdecode
        exact frame.text_ne_nil (Option.some.inj hdecode).symm
      show (if 0 < frame.encoded.length then yieldLine limit frame.encoded else Yields.nothing) = _
      rw [if_pos hsome, frame.yieldLine_encoded]
      rfl

/-- A stream is cut into its frames. -/
theorem cut_bytes (streamed : Streamed room) :
    Lines.cut 10 streamed.bytes =
      (streamed.lines.map Frame.encoded, (streamed.last.map Frame.encoded).getD []) := by
  have hlines : ∀ line ∈ streamed.lines.map Frame.encoded, 10 ∉ line := by
    intro line hline
    obtain ⟨frame, -, rfl⟩ := List.mem_map.mp hline
    exact frame.not_mem_encoded
  have hlast : 10 ∉ (streamed.last.map Frame.encoded).getD [] := by
    cases streamed.last with
    | none => exact List.not_mem_nil
    | some frame => exact frame.not_mem_encoded
  have hjoined : streamed.bytes =
      (streamed.lines.map Frame.encoded).flatMap (fun line => line ++ [10]) ++
        (streamed.last.map Frame.encoded).getD [] := by
    rw [List.flatMap_map]
    unfold Streamed.bytes
    simp only [Frame.encodeText_line]
    rfl
  rw [hjoined, Lines.cut_joined hlines hlast]

/-- However a stream is divided, its frames are read. -/
theorem readStreamed (streamed : Streamed room) {chunks : List (List UInt8)}
    (hchunks : chunks.flatten = streamed.bytes) :
    readChunks limit none [] chunks = readFrames limit streamed.frames := by
  rw [readContent_eq limit none List.not_mem_nil, List.nil_append, hchunks, cut_bytes,
    yieldLines_frames, flush_last, ← readFrames_append]
  rfl

/-- Frames that are well formed, and not nested too deeply, are read as what they were. -/
theorem readFrames_of_wellFormed {frames : List (Frame room)}
    (hwell : ∀ frame ∈ frames, (Json.obj frame.dict).wellFormed = true)
    (hdepth : ∀ frame ∈ frames, (Json.obj frame.dict).depth ≤ limit) :
    readFrames limit frames = ⟨frames.map fun frame => .obj frame.dict, none⟩ := by
  induction frames with
  | nil => rfl
  | cons frame frames ih =>
      have hframe := Json.loads_dumps (hwell frame List.mem_cons_self)
        (hdepth frame List.mem_cons_self) frame.dumped
      rw [readFrames, hframe, ih (fun other hother => hwell other (List.mem_cons_of_mem _ hother))
        fun other hother => hdepth other (List.mem_cons_of_mem _ hother)]
      rfl

theorem load_of_readFrames {frames : List (Frame room)} {e : ReadError}
    (h : (readFrames limit frames).raised = some e) : ∃ cause, e = .load cause := by
  induction frames with
  | nil => cases h
  | cons frame frames ih =>
      unfold readFrames at h
      cases hloads : Json.loads limit frame.text with
      | error cause =>
          rw [hloads] at h
          exact ⟨cause, (Option.some.inj h).symm⟩
      | ok value =>
          rw [hloads] at h
          exact ih h

end

/-! ## What is written -/

theorem dict_of_frameOf {room : Nat} {dict : Members} {frame : Frame room}
    (h : frameOf room dict = some frame) : frame.dict = dict := by
  unfold frameOf at h
  split at h
  · rw [← Option.some.inj h]
  · cases h

theorem exists_frameOf {room : Nat} {dict : Members} {text : PyStr}
    (h : Json.dumps oneLine room (.obj dict) = .ok text) :
    ∃ frame, frameOf room dict = some frame := by
  unfold frameOf
  split
  · exact ⟨_, rfl⟩
  · rename_i e he
    rw [he] at h
    cases h

namespace StreamingChatHandler

theorem dicts_post (room : Nat) (ending : Ending) (writes : List Write) :
    (post room ending writes).lines.map Frame.dict <+: writes.map Write.dict := by
  induction writes with
  | nil => exact List.nil_prefix
  | cons write writes ih =>
      unfold post
      cases hframe : frameOf room write.dict with
      | none => exact List.nil_prefix
      | some frame =>
          show frame.dict :: (post room ending writes).lines.map Frame.dict <+: _
          rw [dict_of_frameOf hframe, List.map_cons]
          exact (List.prefix_cons_inj _).mpr ih

/-- If all can be written, all is. -/
theorem dicts_post_of_ok {room : Nat} {writes : List Write}
    (h : ∀ write ∈ writes, ∃ text, Json.dumps oneLine room (.obj write.dict) = .ok text)
    (ending : Ending) :
    (post room ending writes).lines.map Frame.dict = writes.map Write.dict ∧
      (post room ending writes).last = ending.error.bind (frameOf room) := by
  induction writes with
  | nil => exact ⟨rfl, rfl⟩
  | cons write writes ih =>
      obtain ⟨text, htext⟩ := h write List.mem_cons_self
      obtain ⟨frame, hframe⟩ := exists_frameOf htext
      obtain ⟨hlines, hlast⟩ := ih fun other hother => h other (List.mem_cons_of_mem _ hother)
      unfold post
      rw [hframe]
      refine ⟨?_, hlast⟩
      show frame.dict :: (post room ending writes).lines.map Frame.dict = _
      rw [dict_of_frameOf hframe, hlines]
      rfl

end StreamingChatHandler

/-! ## What is yielded -/

/-- However the stream of a handler is divided, both kinds of sessions yield its frames,
in order: each is read by itself, up to one that cannot be read. Frames that are well
formed, and not nested too deeply for the client, are the dictionaries that were
written, and all dictionaries that can be written are. -/
theorem streamingChat_frames (limit room : Nat) (ending : StreamingChatHandler.Ending)
    (writes : List StreamingChatHandler.Write) (chunks : List (List UInt8))
    (hchunks : chunks.flatten = (StreamingChatHandler.post room ending writes).bytes) :
    (AsyncHttpServiceAgentSession.streamingChat limit ⟨chunks, none⟩ =
        (readFrames limit (StreamingChatHandler.post room ending writes).frames).mapRaised
          (fun _ => .valueError) ∧
      HttpServiceAgentSession.streamingChat limit ⟨chunks, none⟩ =
        (readFrames limit (StreamingChatHandler.post room ending writes).frames).mapRaised
          (fun _ => .valueError)) ∧
    ((∀ frame ∈ (StreamingChatHandler.post room ending writes).frames,
        (Json.obj frame.dict).wellFormed = true ∧ (Json.obj frame.dict).depth ≤ limit) →
      readFrames limit (StreamingChatHandler.post room ending writes).frames =
        ⟨(StreamingChatHandler.post room ending writes).frames.map fun frame => .obj frame.dict,
          none⟩) ∧
    (StreamingChatHandler.post room ending writes).lines.map Frame.dict <+:
      writes.map StreamingChatHandler.Write.dict ∧
    ((∀ write ∈ writes, ∃ text, Json.dumps oneLine room (.obj write.dict) = .ok text) →
      (StreamingChatHandler.post room ending writes).lines.map Frame.dict =
        writes.map StreamingChatHandler.Write.dict) := by
  have hread := readStreamed limit (StreamingChatHandler.post room ending writes) hchunks
  refine ⟨⟨?_, ?_⟩, ?_, StreamingChatHandler.dicts_post room ending writes, ?_⟩
  · unfold AsyncHttpServiceAgentSession.streamingChat
    show (readChunks limit none [] chunks).mapRaised passedOn = _
    rw [hread]
    -- only a frame can fail to be read, which is no error of the transport
    cases hraised : (readFrames limit
        (StreamingChatHandler.post room ending writes).frames).raised with
    | none =>
        unfold Yields.mapRaised
        rw [hraised]
        rfl
    | some e =>
        obtain ⟨cause, rfl⟩ := load_of_readFrames limit hraised
        unfold Yields.mapRaised
        rw [hraised]
        rfl
  · unfold HttpServiceAgentSession.streamingChat
    show (readChunks limit none [] chunks).mapRaised _ = _
    rw [hread]
  · intro hframes
    exact readFrames_of_wellFormed limit (fun frame hframe => (hframes frame hframe).1)
      fun frame hframe => (hframes frame hframe).2
  · intro hdumped
    exact (StreamingChatHandler.dicts_post_of_ok hdumped ending).1

/-- A result, a keep-alive frame and the error of a timeout, byte by byte. -/
theorem streamingChat_bytewise :
    (AsyncHttpServiceAgentSession.streamingChat 9 ⟨(StreamingChatHandler.post 9 .timeoutError
        [.result [(str "é", .int 1)], .heartbeat]).bytes.map fun byte => [byte], none⟩).values =
      [.obj [(str "é", .int 1)], .obj StreamingChatHandler.heartbeatDict,
        .obj (StreamingChatHandler.errorDict "Request timeout")] := by
  obtain ⟨⟨hasync, -⟩, -, -, -⟩ := streamingChat_frames 9 9 .timeoutError
    [.result [(str "é", .int 1)], .heartbeat]
    ((StreamingChatHandler.post 9 .timeoutError
      [.result [(str "é", .int 1)], .heartbeat]).bytes.map fun byte => [byte])
    (by rfl)
  rw [hasync]
  rfl

end NoraFleet.Streaming
