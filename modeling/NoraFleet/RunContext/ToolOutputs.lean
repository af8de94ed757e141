import Mathlib
import NoraFleet.Base.Quotes
import NoraFleet.Messages.TextRoundTrip

/-!
# Answers of tools in texts

`LangChainRunContext.parse_tool_chat_list_string` reads the list of messages that a tool
has answered from a text: it takes off the quotes around it, drops the backslash before a
quote where it stands alone, and makes a message of the content of the last dictionary.
The backslashes that it drops are the encoder's own.

* `stripBracketing_eq_none_iff` — which texts are nothing but bracketing quotes;
* `stripBracketing_eq_some_iff` — what is left is what is inside all the quotes;
* `survives_iff` — which answers survive, and which texts are handled.
-/

namespace NoraFleet.RunContext.LangChainRunContext

open Base Messages BaseMessageDictionaryConverter

/-- What is raised for the output of a tool. -/
inductive ToolOutputError where
  | indexError
  | keyError
  | typeError
  | attributeError
  | load (e : LoadError)
  | message (e : PyError)

/-- The text without bracketing quotes; `none` is the `IndexError` where nothing is left. -/
def stripBracketing : PyStr → Option PyStr
  | [] => none
  | c :: rest =>
      if (c = 34 ∧ (c :: rest).getLast? = some 34) ∨ (c = 39 ∧ (c :: rest).getLast? = some 39) then
        stripBracketing rest.dropLast
      else some (c :: rest)
termination_by text => text.length

/-- Remove escaping, and put some back. -/
def changeEscaping (text : PyStr) : PyStr :=
  Text.replace (str "\\\"") (str "\\\\\"") (Text.replace (str "\\\"") (str "\"") text)

/-- `tool_chat_list[-1]`. -/
def lastItem : Json → Except ToolOutputError Json
  | .arr items =>
      match items.getLast? with
      | some last => .ok last
      | none => .error .indexError
  | .str text =>
      match text.getLast? with
      | some c => .ok (.str [c])
      | none => .error .indexError
  | .obj _ => .error .keyError
  | _ => .error .typeError

/-- `parse_tool_chat_list_string(tool_chat_list_string, origin)`, where `json.loads` has
room for `limit` nested containers. -/
def parseToolChatListString (check : MessageCheck) (limit : Nat) (origin : Json)
    (toolChatListString : PyStr) : Except ToolOutputError BaseMessage :=
  match stripBracketing toolChatListString with
  | none => .error .indexError
  | some inner =>
      match Json.loads limit (changeEscaping inner) with
      | .error e => .error (.load e)
      | .ok toolChatList =>
          match lastItem toolChatList with
          | .error e => .error e
          | .ok (.obj toolResultDict) =>
              let toolMessage := .agentToolResult (field toolResultDict "content") origin
              match check toolMessage with
              | none => .ok toolMessage
              | some e => .error (.message e)
          | .ok _ => .error .attributeError

/-! ## Answers -/

/-- A text between quotes, the outermost first. -/
def bracket (quotes : List Nat) (text : PyStr) : PyStr :=
  quotes.foldr (fun quote inner => quote :: (inner ++ [quote])) text

/-- A double or a single quote. -/
def isQuote (c : Nat) : Bool := c = 34 || c = 39

/-- The text is what `json.dumps` writes for a list of messages, the last of which has a
content that is a string. -/
structure Encodes (limit : Nat) (messages : List Json) (content text : PyStr) : Prop where
  wellFormed : (Json.arr messages).wellFormed = true
  fits : (Json.arr messages).depth ≤ limit
  written : ∃ layout room, Json.dumps layout room (.arr messages) = .ok text
  last : ∃ members, messages.getLast? = some (.obj members) ∧
    Json.lookup members (str "content") = some (.str content)

/-- A message with the content is returned. -/
def Answers (outcome : Except ToolOutputError BaseMessage) (content : PyStr) : Prop :=
  ∃ message, outcome = .ok message ∧ message.content = .str content

/-- A message is returned, or a `JSONDecodeError` is raised. -/
def Handled (outcome : Except ToolOutputError BaseMessage) : Prop :=
  (∃ message, outcome = .ok message) ∨ outcome = .error (.load .jsonDecodeError)

/-- A list whose last item is a dictionary with a content that a message can have. -/
def HasAnswer (check : MessageCheck) (origin v : Json) : Prop :=
  ∃ items members, v = .arr items ∧ items.getLast? = some (.obj members) ∧
    check (.agentToolResult (field members "content") origin) = none

/-- Nothing but quotes, the same in both directions. -/
def OnlyQuotes (text : PyStr) : Prop := text.all isQuote = true ∧ text.reverse = text

/-- A text that has no more quotes to take off. -/
def Bare (text : PyStr) : Prop :=
  text ≠ [] ∧ ∀ quote, isQuote quote = true →
    ¬(text.head? = some quote ∧ text.getLast? = some quote)

/-- A text that is not only quotes, and inside its quotes is no JSON, or a list that has an
answer, when no backslash is alone before a quote. -/
def Readable (check : MessageCheck) (limit : Nat) (origin : Json) (text : PyStr) : Prop :=
  ¬OnlyQuotes text ∧ ∀ quotes inner, quotes.all isQuote = true → text = bracket quotes inner →
    Bare inner →
    (∀ e, Json.loads limit (Text.dropEscapes false inner) = .error e → e = .jsonDecodeError) ∧
    ∀ v, Json.loads limit (Text.dropEscapes false inner) = .ok v → HasAnswer check origin v

theorem isQuote_iff (c : Nat) : isQuote c = true ↔ c = 34 ∨ c = 39 := by
  unfold isQuote
  rw [Bool.or_eq_true, decide_eq_true_eq, decide_eq_true_eq]

theorem bracketed_iff (c : Nat) (last : Option Nat) :
    (c = 34 ∧ last = some 34) ∨ (c = 39 ∧ last = some 39) ↔ isQuote c = true ∧ last = some c := by
  rw [isQuote_iff]
  constructor
  · rintro (⟨rfl, h⟩ | ⟨rfl, h⟩)
    · exact ⟨.inl rfl, h⟩
    · exact ⟨.inr rfl, h⟩
  · rintro ⟨rfl | rfl, h⟩
    · exact .inl ⟨rfl, h⟩
    · exact .inr ⟨rfl, h⟩

theorem stripBracketing_quoted {quote : Nat} (hquote : isQuote quote = true) (text : PyStr) :
    stripBracketing (quote :: (text ++ [quote])) = stripBracketing text := by
  rw [stripBracketing, if_pos, List.dropLast_concat]
  rw [bracketed_iff]
  refine ⟨hquote, ?_⟩
  rw [← List.cons_append, List.getLast?_concat]

theorem stripBracketing_bracket {quotes : List Nat} (h : quotes.all isQuote = true) (text : PyStr) :
    stripBracketing (bracket quotes text) = stripBracketing text := by
  induction quotes with
  | nil => rfl
  | cons quote rest ih =>
      rw [List.all_cons, Bool.and_eq_true] at h
      show stripBracketing (quote :: (bracket rest text ++ [quote])) = _
      rw [stripBracketing_quoted h.1, ih h.2]

theorem onlyQuotes_quoted {quote : Nat} (hquote : isQuote quote = true) (text : PyStr) :
    OnlyQuotes (quote :: (text ++ [quote])) ↔ OnlyQuotes text := by
  unfold OnlyQuotes
  simp [hquote]

/-- A text is no more than quotes when all of it is taken off. -/
theorem stripBracketing_eq_none_iff (text : PyStr) :
    stripBracketing text = none ↔ OnlyQuotes text := by
  induction text using stripBracketing.induct with
  | case1 => simp [stripBracketing, OnlyQuotes]
  | case2 c rest hquotes ih =>
      rw [bracketed_iff] at hquotes
      rcases List.eq_nil_or_concat rest with rfl | ⟨middle, d, rfl⟩
      · rw [stripBracketing, if_pos ((bracketed_iff c _).mpr hquotes)]
        simp [stripBracketing, OnlyQuotes, hquotes.1]
      · rw [List.concat_eq_append] at hquotes ih ⊢
        rw [← List.cons_append, List.getLast?_concat] at hquotes
        obtain rfl := Option.some.inj hquotes.2
        rw [List.dropLast_concat] at ih
        rw [stripBracketing_quoted hquotes.1, onlyQuotes_quoted hquotes.1, ih]
  | case3 c rest hnot =>
      rw [stripBracketing, if_neg hnot]
      rw [bracketed_iff] at hnot
      constructor
      · exact fun h => by cases h
      · rintro ⟨hall, hreverse⟩
        -- the last character is the first one of the text read backwards
        have hlast : (c :: rest).getLast? = some c := by
          rw [← List.head?_reverse, hreverse]
          rfl
        exact absurd ⟨(List.all_eq_true.mp hall) c List.mem_cons_self, hlast⟩ hnot

theorem stripBracketing_of_bare {text : PyStr} (h : Bare text) :
    stripBracketing text = some text := by
  obtain ⟨hne, hquotes⟩ := h
  cases text with
  | nil => exact absurd rfl hne
  | cons c rest =>
      rw [stripBracketing, if_neg]
      rw [bracketed_iff]
      rintro ⟨hquote, hlast⟩
      exact hquotes c hquote ⟨rfl, hlast⟩

theorem bare_of_strip {text inner : PyStr} (h : stripBracketing text = some inner) :
    Bare inner ∧ ∃ quotes : List Nat, quotes.all isQuote = true ∧ text = bracket quotes inner := by
  induction text using stripBracketing.induct with
  | case1 =>
      rw [stripBracketing] at h
      cases h
  | case2 c rest hquotes ih =>
      rw [stripBracketing, if_pos hquotes] at h
      obtain ⟨hbare, quotes, hall, hrest⟩ := ih h
      rw [bracketed_iff] at hquotes
      rcases List.eq_nil_or_concat rest with rfl | ⟨middle, d, rfl⟩
      · -- of one quote alone nothing is left
        rw [List.dropLast_nil, stripBracketing] at h
        cases h
      · rw [List.concat_eq_append] at hquotes hrest ⊢
        rw [← List.cons_append, List.getLast?_concat] at hquotes
        obtain rfl := Option.some.inj hquotes.2
        rw [List.dropLast_concat] at hrest
        refine ⟨hbare, d :: quotes, ?_, ?_⟩
        · rw [List.all_cons, hquotes.1, hall]
          rfl
        · rw [hrest]
          rfl
  | case3 c rest hnot =>
      rw [stripBracketing, if_neg hnot] at h
      obtain rfl := Option.some.inj h
      rw [bracketed_iff] at hnot
      refine ⟨⟨List.cons_ne_nil _ _, ?_⟩, [], rfl, rfl⟩
      rintro quote hquote ⟨hhead, hlast⟩
      obtain rfl := Option.some.inj hhead
      exact hnot ⟨hquote, hlast⟩

/-- What is left is what is inside all the quotes. -/
theorem stripBracketing_eq_some_iff {text inner : PyStr} :
    stripBracketing text = some inner ↔
      Bare inner ∧ ∃ quotes : List Nat, quotes.all isQuote = true ∧
        text = bracket quotes inner := by
  constructor
  · exact bare_of_strip
  · rintro ⟨hbare, quotes, hall, rfl⟩
    rw [stripBracketing_bracket hall, stripBracketing_of_bare hbare]

section Answers

variable {check : MessageCheck} {limit : Nat} {origin : Json}

/-- `changeEscaping` drops the backslash before a quote where it stands alone. -/
theorem changeEscaping_eq (text : PyStr) : changeEscaping text = Text.dropEscapes false text :=
  Text.replace_replace_eq text

/-- A document that is read has an answer, or something else than a `JSONDecodeError` is
raised for it. -/
theorem parse_of_loads {text inner : PyStr} {v : Json} (hstrip : stripBracketing text = some inner)
    (hloads : Json.loads limit (changeEscaping inner) = .ok v) :
    (∃ items members, v = .arr items ∧ items.getLast? = some (.obj members) ∧
      check (.agentToolResult (field members "content") origin) = none ∧
      parseToolChatListString check limit origin text =
        .ok (.agentToolResult (field members "content") origin)) ∨
    (¬HasAnswer check origin v ∧
      ∃ e, parseToolChatListString check limit origin text = .error e ∧ ∀ l, e ≠ .load l) := by
  have hnot : ∀ {v : Json}, (∀ items, v ≠ .arr items) → ¬HasAnswer check origin v := by
    rintro v hv ⟨items, members, rfl, -⟩
    exact hv items rfl
  unfold parseToolChatListString
  rw [hstrip]
  dsimp only
  rw [hloads]
  cases v with
  | null => exact .inr ⟨hnot (by simp), _, rfl, by simp⟩
  | bool b => exact .inr ⟨hnot (by simp), _, rfl, by simp⟩
  | int n => exact .inr ⟨hnot (by simp), _, rfl, by simp⟩
  | float x => exact .inr ⟨hnot (by simp), _, rfl, by simp⟩
  | obj members => exact .inr ⟨hnot (by simp), _, rfl, by simp⟩
  | str s =>
      right
      refine ⟨hnot (by simp), ?_⟩
      dsimp only
      rw [lastItem]
      cases s.getLast? with
      | none => exact ⟨_, rfl, by simp⟩
      | some c => exact ⟨_, rfl, by simp⟩
  | arr items =>
      dsimp only
      rw [lastItem]
      cases hlast : items.getLast? with
      | none =>
          right
          refine ⟨?_, _, rfl, by simp⟩
          rintro ⟨items', members, heq, hlast', -⟩
          obtain rfl := Json.arr.inj heq
          rw [hlast] at hlast'
          cases hlast'
      | some last =>
          have hother : (∀ members, last ≠ .obj members) →
              ¬HasAnswer check origin (.arr items) := by
            rintro hne ⟨items', members, heq, hlast', -⟩
            obtain rfl := Json.arr.inj heq
            rw [hlast] at hlast'
            exact hne members (Option.some.inj hlast')
          cases last with
          | obj members =>
              dsimp only
              cases hcheck : check (.agentToolResult (field members "content") origin) with
              | none => exact .inl ⟨items, members, rfl, hlast, hcheck, rfl⟩
              | some e =>
                  right
                  refine ⟨?_, _, rfl, by simp⟩
                  rintro ⟨items', members', heq, hlast', hcheck'⟩
                  obtain rfl := Json.arr.inj heq
                  rw [hlast] at hlast'
                  obtain rfl := Json.obj.inj (Option.some.inj hlast')
                  rw [hcheck] at hcheck'
                  cases hcheck'
          | null => exact .inr ⟨hother (by simp), _, rfl, by simp⟩
          | bool b => exact .inr ⟨hother (by simp), _, rfl, by simp⟩
          | int n => exact .inr ⟨hother (by simp), _, rfl, by simp⟩
          | float x => exact .inr ⟨hother (by simp), _, rfl, by simp⟩
          | str s => exact .inr ⟨hother (by simp), _, rfl, by simp⟩
          | arr others => exact .inr ⟨hother (by simp), _, rfl, by simp⟩

/-- Where nothing can be read, that is raised. -/
theorem parse_of_error {text inner : PyStr} {e : LoadError}
    (hstrip : stripBracketing text = some inner)
    (hloads : Json.loads limit (changeEscaping inner) = .error e) :
    parseToolChatListString check limit origin text = .error (.load e) := by
  unfold parseToolChatListString
  rw [hstrip]
  dsimp only
  rw [hloads]

/-- What is read is what is inside the quotes, less the backslashes. -/
theorem readable_iff (text : PyStr) :
    Readable check limit origin text ↔
      stripBracketing text ≠ none ∧ ∀ inner, stripBracketing text = some inner →
        (∀ e, Json.loads limit (changeEscaping inner) = .error e → e = .jsonDecodeError) ∧
        ∀ v, Json.loads limit (changeEscaping inner) = .ok v → HasAnswer check origin v := by
  rw [Readable, ← stripBracketing_eq_none_iff]
  refine and_congr Iff.rfl ⟨?_, ?_⟩
  · intro h inner hstrip
    obtain ⟨hbare, quotes, hall, htext⟩ := stripBracketing_eq_some_iff.mp hstrip
    rw [changeEscaping_eq]
    exact h quotes inner hall htext hbare
  · intro h quotes inner hall htext hbare
    rw [← changeEscaping_eq]
    exact h inner (stripBracketing_eq_some_iff.mpr ⟨hbare, quotes, hall, htext⟩)

/-- The texts that are handled. -/
theorem handled_iff (text : PyStr) :
    Handled (parseToolChatListString check limit origin text) ↔
      Readable check limit origin text := by
  rw [readable_iff]
  cases hstrip : stripBracketing text with
  | none =>
      have hparse : parseToolChatListString check limit origin text = .error .indexError := by
        unfold parseToolChatListString
        rw [hstrip]
      rw [hparse]
      simp [Handled]
  | some inner =>
      cases hloads : Json.loads limit (changeEscaping inner) with
      | error e =>
          rw [parse_of_error hstrip hloads]
          simp [Handled, hloads]
      | ok v =>
          rcases @parse_of_loads check limit origin text inner v hstrip hloads with
            ⟨items, members, rfl, hlast, hcheck, hparse⟩ | ⟨hnot, e, hparse, hload⟩
          · have hanswer : HasAnswer check origin (.arr items) :=
              ⟨items, members, rfl, hlast, hcheck⟩
            rw [hparse]
            simp [Handled, hloads, hanswer]
          · rw [hparse]
            simp [Handled, hloads, hnot, hload]

/-! ## Answers that survive -/

variable {messages : List Json} {content text : PyStr}

/-- The text of a list has no quotes around it. -/
theorem Encodes.stripBracketing (h : Encodes limit messages content text) :
    LangChainRunContext.stripBracketing text = some text := by
  obtain ⟨layout, room, hwritten⟩ := h.written
  obtain ⟨rest, rfl⟩ : ∃ rest, text = 91 :: rest := by
    unfold Json.dumps Json.dumpValue at hwritten
    obtain ⟨room', texts, -, -, htext⟩ := Json.dumpContainer_ok hwritten
    unfold Json.dumpContainer at htext
    dsimp only at htext
    cases texts with
    | nil => exact ⟨_, (Except.ok.inj htext).symm⟩
    | cons first others => exact ⟨_, (Except.ok.inj htext).symm⟩
  rw [LangChainRunContext.stripBracketing, if_neg (by simp)]

/-- An answer survives when the quotes in the messages are behind backslashes. -/
theorem Encodes.answers (hcheck : AcceptsText check) (h : Encodes limit messages content text)
    (hguarded : (Json.arr messages).allStrings (Text.guarded false) = true) {quotes : List Nat}
    (hquotes : quotes.all isQuote = true) :
    Answers (parseToolChatListString check limit origin (bracket quotes text)) content := by
  obtain ⟨layout, room, hwritten⟩ := h.written
  obtain ⟨members, hlast, hcontent⟩ := h.last
  have hstrip := (stripBracketing_bracket hquotes text).trans h.stripBracketing
  have hloads : Json.loads limit (changeEscaping text) = .ok (.arr messages) := by
    rw [changeEscaping_eq, Json.dropEscapes_of_dumps hguarded hwritten]
    exact Json.loads_dumps h.wellFormed h.fits hwritten
  have hfield : field members "content" = .str content := by
    rw [field, hcontent]
    rfl
  rcases @parse_of_loads check limit origin _ _ _ hstrip hloads with
    ⟨items, members', heq, hlast', -, hparse⟩ | ⟨hnot, -⟩
  · obtain rfl := Json.arr.inj heq
    rw [hlast] at hlast'
    obtain rfl := Json.obj.inj (Option.some.inj hlast')
    exact ⟨_, hparse, hfield⟩
  · exact absurd ⟨messages, members, rfl, hlast, hcheck _ content rfl hfield⟩ hnot

/-- No answer survives with a quote that is behind no backslash. -/
theorem Encodes.guarded (h : Encodes limit messages content text) {quotes : List Nat}
    (hquotes : quotes.all isQuote = true)
    (hanswers : Answers (parseToolChatListString check limit origin
      (bracket quotes text)) content) :
    Text.guarded false content = true := by
  obtain ⟨layout, room, hwritten⟩ := h.written
  obtain ⟨message, hparse, hcontent⟩ := hanswers
  have hstrip := (stripBracketing_bracket hquotes text).trans h.stripBracketing
  cases hloads : Json.loads limit (changeEscaping text) with
  | error e =>
      rw [parse_of_error hstrip hloads] at hparse
      cases hparse
  | ok v =>
      rcases @parse_of_loads check limit origin _ _ _ hstrip hloads with
        ⟨items, members, rfl, hlast, -, hparse'⟩ | ⟨-, e, hparse', -⟩
      · rw [hparse'] at hparse
        obtain rfl := Except.ok.inj hparse
        rw [changeEscaping_eq] at hloads
        have hall := Json.guarded_of_loads h.wellFormed hwritten hloads
        rw [Json.allStrings] at hall
        have hlast' := Json.allStringsItems_iff.mp hall _ (List.mem_of_getLast? hlast)
        rw [Json.allStrings] at hlast'
        cases hlookup : Json.lookup members (str "content") with
        | none =>
            have hfield : field members "content" = .null := by
              rw [field, hlookup]
              rfl
            rw [show BaseMessage.content (.agentToolResult (field members "content") origin) =
              field members "content" from rfl, hfield] at hcontent
            cases hcontent
        | some value =>
            have hfield : field members "content" = value := by
              rw [field, hlookup]
              rfl
            rw [show BaseMessage.content (.agentToolResult (field members "content") origin) =
              field members "content" from rfl, hfield] at hcontent
            obtain rfl := hcontent
            exact Json.allStrings_of_lookup hlast' hlookup
      · rw [hparse'] at hparse
        cases hparse

end Answers

/-- **Answers of tools.** The answer of a list of messages survives, with any quotes around
its text, where all the quotes in the messages are behind backslashes; with a quote in the
answer that is not, it does not. Any text is handled exactly when it is readable. -/
theorem survives_iff (check : MessageCheck) (hcheck : AcceptsText check) (limit : Nat)
    (origin : Json) :
    (∀ messages content text quotes, Encodes limit messages content text →
      quotes.all isQuote = true →
      ((Json.arr messages).allStrings (Text.guarded false) = true →
        Answers (parseToolChatListString check limit origin (bracket quotes text)) content) ∧
      (Answers (parseToolChatListString check limit origin (bracket quotes text)) content →
        Text.guarded false content = true)) ∧
    ∀ text, Handled (parseToolChatListString check limit origin text) ↔
      Readable check limit origin text := by
  refine ⟨?_, handled_iff⟩
  intro messages content text quotes hencodes hquotes
  exact ⟨fun hguarded => hencodes.answers hcheck hguarded hquotes, hencodes.guarded hquotes⟩

/-- A message with a quote behind a backslash, and what `json.dumps` writes of it. -/
def escapedQuote : List Json := [.obj [(str "content", .str (str "a\\\"b"))]]

def escapedQuoteText : PyStr := str "[\x7b\"content\": \"a\\\\\\\"b\"\x7d]"

/-- A message with two quotes around a word, and what `json.dumps` writes of it. -/
def quotedWord : List Json := [.obj [(str "content", .str (str "say \"hi\""))]]

def quotedWordText : PyStr := str "[\x7b\"content\": \"say \\\"hi\\\"\"\x7d]"

/-- An answer with a backslash before the quote survives. -/
theorem survives_escapedQuote :
    Answers (parseToolChatListString (fun _ => none) 5 .null (bracket [39, 34] escapedQuoteText))
      (str "a\\\"b") :=
  ((survives_iff (fun _ => none) (fun _ _ _ _ => rfl) 5 .null).1 escapedQuote _ escapedQuoteText
    [39, 34] ⟨by decide, by decide, ⟨⟨1, 1, none⟩, 5, rfl⟩, ⟨_, rfl, rfl⟩⟩ (by decide)).1
      (by decide)

/-- An answer with a quoted word is lost, and the empty text is not handled. -/
theorem quotedWord_lost :
    ¬ ∀ (check : MessageCheck) (limit : Nat) (origin : Json), AcceptsText check →
      (∀ messages content text quotes, Encodes limit messages content text →
        quotes.all isQuote = true →
        Answers (parseToolChatListString check limit origin (bracket quotes text)) content) ∧
      ∀ text, Handled (parseToolChatListString check limit origin text) := by
  intro h
  have hencodes : Encodes 5 quotedWord (str "say \"hi\"") quotedWordText :=
    ⟨by decide, by decide, ⟨⟨1, 1, none⟩, 5, rfl⟩, ⟨_, rfl, rfl⟩⟩
  obtain ⟨message, hparse, -⟩ :=
    (h (fun _ => none) 5 .null fun _ _ _ _ => rfl).1 quotedWord _ quotedWordText [] hencodes rfl
  have hloads : Json.loads 5 (changeEscaping quotedWordText) =
      .error .jsonDecodeError := rfl
  rw [show bracket [] quotedWordText = quotedWordText from rfl,
    parse_of_error hencodes.stripBracketing hloads] at hparse
  cases hparse

end NoraFleet.RunContext.LangChainRunContext
