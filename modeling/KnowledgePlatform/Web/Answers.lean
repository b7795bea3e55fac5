import KnowledgePlatform.Api.ChatStream
import KnowledgePlatform.Api.Requests
import KnowledgePlatform.Web.Sends

/-!
# Answers on the page

An answer exists three times: as the tokens that the generator sends, as the message it
stores, and as the text of a bubble on the chat page, put together there from what is
read of the response.  The response may be cut anywhere, and both ends may stop at any
step.

* On the page, the text is that of the calls made so far, or of those since a call of
  `onDone` was through (`Sending.Written`).
* On the wire, calls come in the order of the events, and the first ones of them.
* On the server, the last event is the one for `onDone`, and it is sent after the commit.

So the bubble is never ahead of the server, and what replaces it is what it showed.
-/

open Api Core Foundations Python Relational

namespace Web

/-- The tokens of a stream, one after the other. -/
def tokenText (events : List ChatEvent) : Str :=
  events.flatMap fun
    | .token text => text
    | .citations _ | .done _ => []

/-- What the calls add to the text on the page. -/
def calledText (str : Option Json → Str) (calls : List HandlerCall) : Str :=
  calls.flatMap fun
    | .onToken text => str text
    | .onCitations _ | .onDone _ => []

/-- The text is that of all calls as long as each call of `onDone` waits; later it is that
of the calls since one of them was through. -/
structure Sending.Shown (str : Option Json → Str) (sending : Sending)
    (cleared shown : List HandlerCall) : Prop where
  text : sending.page.streamingText = calledText str shown
  waits : cleared = [] ∧ sending.waiting = shown.countP HandlerCall.isDone ∨
    sending.waiting < (cleared ++ shown).countP HandlerCall.isDone ∧
      cleared.any HandlerCall.isDone = true

/-- What the page holds of the calls made for a response, once the message is sent. -/
def Sending.Written (json : JsonText) (str : Option Json → Str) (trace : List SendEvent)
    (sending : Sending) : Prop :=
  (sending.phase = .creating ∨ sending.phase = .settled) ∧ sending.page.isStreaming = false ∧
      sending.waiting = 0 ∧ received trace = [] ∨
    ∃ cleared shown, streamChatMessage json (received trace) = cleared ++ shown ∧
      sending.Shown str cleared shown

section Spec

variable {json : JsonText} {str : Option Json → Str} {sending sending' : Sending}
  {trace : List SendEvent} {event : SendEvent} {calls : List HandlerCall}

/-! ## On the page -/

theorem calledText_append (first second : List HandlerCall) :
    calledText str (first ++ second) = calledText str first ++ calledText str second :=
  List.flatMap_append

theorem tokenText_append (first second : List ChatEvent) :
    tokenText (first ++ second) = tokenText first ++ tokenText second :=
  List.flatMap_append

theorem tokenText_tokens (tokens : List Str) : tokenText (tokens.map .token) = tokens.flatten := by
  rw [tokenText, List.flatMap_map]
  exact List.flatMap_id' 

/-- Strings are shown as they are. -/
theorem calledText_callOf (hstr : ∀ text, str (some (.string text)) = text)
    (events : List ChatEvent) : calledText str (events.map callOf) = tokenText events := by
  rw [calledText, List.flatMap_map, tokenText]
  refine List.flatMap_congr fun event _ => ?_
  cases event with
  | token text => exact hstr text
  | citations citations => rfl
  | done length => rfl

namespace Sending

theorem text_foldl_handle (calls : List HandlerCall) (sending : Sending) :
    (calls.foldl (handle str) sending).page.streamingText =
      sending.page.streamingText ++ calledText str calls := by
  induction calls generalizing sending with
  | nil => exact (List.append_nil _).symm
  | cons call calls ih =>
      have hsplit : calledText str (call :: calls) =
          calledText str [call] ++ calledText str calls :=
        calledText_append [call] calls
      rw [List.foldl_cons, ih, hsplit, ← List.append_assoc]
      refine congrArg (· ++ _) ?_
      cases call with
      | onToken text => exact congrArg (_ ++ ·) (List.append_nil _).symm
      | onCitations citations => exact (List.append_nil _).symm
      | onDone length => exact (List.append_nil _).symm

/-- What a step does to the text and the waiting calls. -/
inductive Rewrite (json : JsonText) (str : Option Json → Str) (sending : Sending) :
    SendEvent → Sending → Prop
  | kept {event : SendEvent} {sending' : Sending} : event.value? = none →
      sending'.page.streamingText = sending.page.streamingText →
      sending'.waiting = sending.waiting →
      (sending.phase = .creating ∨ sending.phase = .settled →
        sending'.phase = .creating ∨ sending'.phase = .settled) →
      (sending.page.isStreaming = false → sending'.page.isStreaming = false) →
      Rewrite json str sending event sending'
  | begun {conversation : ConversationOut} {sending' : Sending} : sending.phase = .creating →
      sending'.page.streamingText = [] → sending'.waiting = sending.waiting →
      Rewrite json str sending (.created (some conversation)) sending'
  | cleared {sending' : Sending} : 0 < sending.waiting → sending'.page.streamingText = [] →
      sending'.waiting = sending.waiting - 1 → Rewrite json str sending .invalidated sending'
  | read {reader : StreamReader} {value : List UInt8} {sending' : Sending} :
      sending.phase = .streaming reader →
      sending'.page.streamingText =
        sending.page.streamingText ++ calledText str (reader.read json value).1 →
      sending'.waiting = sending.waiting + (reader.read json value).1.countP HandlerCall.isDone →
      Rewrite json str sending (.read value) sending'

/-- Before a stream is read, the text is kept. -/
theorem text_of_openNext {opening : Opening}
    (h : sending.openNext str opening event = some sending') :
    event.value? = none ∧ sending'.page.streamingText = sending.page.streamingText ∧
      sending'.waiting = sending.waiting ∧
      (sending.page.isStreaming = false → sending'.page.isStreaming = false) := by
  have hgoesOn : ∀ {sending'' : Sending}, sending''.page = sending.page →
      sending''.waiting = sending.waiting →
      sending''.page.streamingText = sending.page.streamingText ∧
        sending''.waiting = sending.waiting ∧
        (sending.page.isStreaming = false → sending''.page.isStreaming = false) :=
    fun hpage hwaiting => ⟨by rw [hpage], hwaiting, fun hstreaming => by rw [hpage, hstreaming]⟩
  unfold openNext at h
  split at h
  · cases h
    exact ⟨rfl, hgoesOn (examineFirst_spec _).2.1 (examineFirst_spec _).2.2⟩
  · cases h
    refine ⟨rfl, ?_⟩
    split
    · exact hgoesOn rfl rfl
    · exact hgoesOn (examine_spec _).2.1 (examine_spec _).2.2
  · split at h
    · cases h
      exact ⟨rfl, rfl, rfl, fun _ => rfl⟩
    · cases h
      exact ⟨rfl, hgoesOn rfl rfl⟩
  · cases h
    exact ⟨rfl, hgoesOn (examine_spec _).2.1 (examine_spec _).2.2⟩
  · cases h
    exact ⟨rfl, rfl, rfl, fun _ => rfl⟩
  · cases h
    exact ⟨rfl, rfl, rfl, fun _ => rfl⟩
  · cases h
    exact ⟨rfl, rfl, rfl, fun _ => rfl⟩
  · cases h
    exact ⟨rfl, rfl, rfl, fun _ => rfl⟩
  · cases h

theorem rewrite_of_advance (h : sending.advance json str event = some sending') :
    Rewrite json str sending event sending' := by
  unfold advance at h
  split at h
  · cases h
    exact .kept rfl rfl rfl (fun _ => .inr rfl) fun hoff => hoff
  · next hphase =>
      cases h
      exact .begun hphase rfl rfl
  · next hphase =>
      obtain ⟨hvalue, htext, hwaiting, hstreaming⟩ := text_of_openNext h
      refine .kept hvalue htext hwaiting (fun hover => ?_) hstreaming
      rw [hphase] at hover
      rcases hover with hover | hover
      · cases hover
      · cases hover
  · next reader value hphase =>
      cases h
      exact .read hphase (text_foldl_handle _ _) (foldl_handle _ _).1
  · cases h
    exact .kept rfl rfl rfl (fun _ => .inr rfl) fun hoff => hoff
  · cases h
    exact .kept rfl rfl rfl (fun _ => .inr rfl) fun _ => rfl
  · cases h

theorem rewrite_of_next (h : sending.next json str event = some sending') :
    Rewrite json str sending event sending' := by
  unfold next at h
  split at h
  · cases h
    exact .kept rfl rfl rfl (fun hphase => hphase) fun hoff => hoff
  · split at h
    · cases h
    · next hwaiting =>
        cases h
        exact .cleared (Nat.pos_of_ne_zero hwaiting) rfl rfl
  · exact rewrite_of_advance h

theorem received_of_value?_eq_none (h : event.value? = none) :
    received (trace ++ [event]) = received trace := by
  rw [received_concat, h]
  exact List.append_nil _

/-- Every step keeps to it. -/
theorem Written.next (h : sending.Written json str trace) (hfollows : sending.Follows json trace)
    (hnext : sending.next json str event = some sending') :
    sending'.Written json str (trace ++ [event]) := by
  cases rewrite_of_next hnext with
  | kept hvalue htext hwaiting hphase hstreaming =>
      rw [Written, received_of_value?_eq_none hvalue]
      rcases h with ⟨hover, hoff, hzero, hnone⟩ | ⟨cleared, shown, hcalls, hshown⟩
      · exact .inl ⟨hphase hover, hstreaming hoff, hwaiting.trans hzero, hnone⟩
      · exact .inr ⟨cleared, shown, hcalls, htext.trans hshown.text, hwaiting ▸ hshown.waits⟩
  | begun hphase htext hwaiting =>
      obtain ⟨_, hzero, hreceived, _⟩ := (follows_creating hphase).mp hfollows
      refine .inr ⟨[], [], ?_, htext, .inl ⟨rfl, hwaiting.trans hzero⟩⟩
      rw [received_of_value?_eq_none rfl, hreceived]
      rfl
  | cleared hpositive htext hwaiting =>
      rw [Written, received_of_value?_eq_none rfl]
      rcases h with ⟨_, _, hzero, _⟩ | ⟨cleared, shown, hcalls, _, hwaits⟩
      · omega
      · refine .inr ⟨cleared ++ shown, [], by rw [hcalls, List.append_nil], htext, .inr ?_⟩
        rw [List.append_nil]
        rcases hwaits with ⟨rfl, hall⟩ | ⟨hless, hdone⟩
        · refine ⟨by rw [List.nil_append]; omega, ?_⟩
          rw [List.nil_append, List.any_eq_true, ← List.countP_pos_iff]
          omega
        · exact ⟨by omega, by rw [List.any_append, hdone, Bool.true_or]⟩
  | @read reader value _ hphase htext hwaiting =>
      have hreads : received (trace ++ [.read value]) = received trace ++ [value] :=
        received_concat
      obtain ⟨_, rfl, _⟩ := (follows_streaming hphase).mp hfollows
      rcases h with ⟨hover, _⟩ | ⟨cleared, shown, hcalls, hshown, hwaits⟩
      · rw [hphase] at hover
        rcases hover with hover | hover
        · cases hover
        · cases hover
      · let more := ((StreamReader.after json {} (received trace)).read json value).1
        have hmore : streamChatMessage json (received trace ++ [value]) =
            streamChatMessage json (received trace) ++ more :=
          StreamReader.readAll_concat {} (received trace) value
        refine .inr ⟨cleared, shown ++ more, ?_, ?_, ?_⟩
        · rw [hreads, hmore, hcalls, List.append_assoc]
        · rw [htext, hshown, calledText_append]
        · rcases hwaits with ⟨hnone, hall⟩ | ⟨hless, hdone⟩
          · exact .inl ⟨hnone, by rw [hwaiting, hall, List.countP_append]⟩
          · refine .inr ⟨?_, hdone⟩
            rw [hwaiting, ← List.append_assoc, List.countP_append]
            exact Nat.add_lt_add_right hless _

theorem written_handleSend {page : ChatPage} (hpage : page.Idle) (store : Option Tokens)
    (message : Str) : (handleSend page store message).Written json str [] := by
  unfold handleSend
  cases page.conversationId.filter (· ≠ []) with
  | none => exact .inl ⟨.inl rfl, hpage.1, rfl, rfl⟩
  | some id => exact .inr ⟨[], [], rfl, rfl, .inl ⟨rfl, rfl⟩⟩

/-- Once a call of `onDone` is through, the composer is back. -/
theorem Follows.idle_of_lt (h : sending.Follows json trace)
    (hless : sending.waiting < doneCalls json trace) : sending.page.Idle := by
  have hsome : received trace ≠ [] := by
    intro hnone
    rw [doneCalls, hnone] at hless
    exact Nat.not_lt_zero _ hless
  cases hphase : sending.phase with
  | creating => exact absurd ((follows_creating hphase).mp h).2.2.1 hsome
  | opening opening => exact absurd ((follows_opening hphase).mp h).2.1 hsome
  | streaming reader => exact ((follows_streaming hphase).mp h).1.idle hless
  | settled =>
      obtain ⟨hended, hother⟩ := (follows_settled hphase).mp h
      by_cases hdone : .readDone ∈ trace
      · exact (hended hdone).idle hless
      · exact hother hdone

end Sending

theorem written_of_sends {page : ChatPage} {store : Option Tokens} {message : Str} {last : Sending}
    (hpage : page.Idle) (hrun : Sends json str (handleSend page store message) trace last) :
    last.Written json str trace := by
  have hstart : (handleSend page store message).Follows json [] ∧
      (handleSend page store message).Written json str [] :=
    ⟨Sending.follows_handleSend hpage store message, Sending.written_handleSend hpage store message⟩
  refine (hrun.invariant (P := fun trace sending =>
    sending.Follows json trace ∧ sending.Written json str trace) hstart ?_).2
  rintro _ _ _ _ _ ⟨hfollows, hwritten⟩ hnext
  exact ⟨hfollows.next hnext, hwritten.next hfollows hnext⟩

/-- The bubble shows the text of all calls. -/
theorem text_of_isStreaming {page : ChatPage} {store : Option Tokens} {message : Str}
    {last : Sending} (hpage : page.Idle)
    (hrun : Sends json str (handleSend page store message) trace last)
    (hstreaming : last.page.isStreaming = true) :
    last.page.streamingText = calledText str (streamChatMessage json (received trace)) := by
  rcases written_of_sends hpage hrun with ⟨_, hoff, _⟩ | ⟨cleared, shown, hcalls, htext, hwaits⟩
  · rw [hoff] at hstreaming
    cases hstreaming
  · rcases hwaits with ⟨rfl, _⟩ | ⟨hless, _⟩
    · rw [htext, hcalls, List.nil_append]
    · rw [← hcalls] at hless
      have hidle := (follows_of_sends hpage hrun).idle_of_lt hless
      rw [hidle.1] at hstreaming
      cases hstreaming

/-! ## On the wire -/

/-- Of the first bytes come the first calls. -/
theorem streamChatMessage_prefix {reads whole : List (List UInt8)}
    (h : reads.flatten <+: whole.flatten) :
    streamChatMessage json reads <+: streamChatMessage json whole := by
  have hcalls : ∀ reads, streamChatMessage json reads = (sseFraming.drain
      (TextDecoder.decode {} reads.flatten).2).1.flatMap (dispatchRaw json) :=
    fun reads => @StreamReader.readAll_eq json {} rfl reads
  obtain ⟨missing, hmissing⟩ := h
  have hreceived : (TextDecoder.decode {} reads.flatten).2 <+:
      (TextDecoder.decode {} whole.flatten).2 := by
    rw [← hmissing, TextDecoder.decode_append]
    exact List.prefix_append _ _
  obtain ⟨later, hlater⟩ := @Framing.drain_prefix _ sseFraming _ _ hreceived
  rw [hcalls, hcalls, ← hlater, List.flatMap_append]
  exact List.prefix_append _ _

/-! ## On the server -/

variable {settings : Settings} {engine : SearchEngine} {turn : ChatTurn} {db : Database}
  {turnTrace : List TurnEvent} {stored : Database} {sent : List ChatEvent}

theorem done_not_mem_tokens (tokens : List Str) {length : ℕ} :
    ChatEvent.done length ∉ tokens.map .token := by
  rw [List.mem_map]
  rintro ⟨token, _, htoken⟩
  cases htoken

/-- Without an event for it, `onDone` is not called. -/
theorem not_isDone_of_quiet {events : List ChatEvent} (hquiet : ∀ length, .done length ∉ events)
    (hcalls : calls <+: events.map callOf) : ¬calls.any HandlerCall.isDone = true := by
  rw [List.any_eq_true]
  rintro ⟨call, hcall, hdone⟩
  obtain ⟨event, hevent, rfl⟩ := List.mem_map.mp (hcalls.subset hcall)
  cases event with
  | token text => cases hdone
  | citations citations => cases hdone
  | done length => exact hquiet length hevent

/-- A call of `onDone` is the last one, and the answer is stored. -/
theorem answered_of_isDone (houtcome : TurnOutcome turn db turnTrace stored sent)
    (hcalls : calls <+: sent.map callOf) (hdone : calls.any HandlerCall.isDone = true) :
    calls = sent.map callOf ∧ ∃ made : MadeAnswer, made.Grounded turnTrace ∧
      stored = made.db turn db ∧ tokenText sent = made.answer := by
  cases houtcome with
  | untouched => exact absurd hdone (not_isDone_of_quiet (fun _ => List.not_mem_nil) hcalls)
  | asked messageId askedAt tokens =>
      exact absurd hdone (not_isDone_of_quiet (fun _ => done_not_mem_tokens tokens) hcalls)
  | answered made closing hgrounded hclosing =>
      have hquiet : ∀ {closing}, closing <+: [.citations made.citations] → ∀ length,
          ChatEvent.done length ∉ made.tokens.map .token ++ closing := by
        intro closing hstart length hmem
        rcases List.mem_append.mp hmem with htoken | hlast
        · exact done_not_mem_tokens _ htoken
        · cases List.mem_singleton.mp (hstart.subset hlast)
      have hsplit : made.closing = [.citations made.citations] ++ [.done made.answer.length] := rfl
      rw [hsplit, List.prefix_concat_iff] at hclosing
      rcases hclosing with rfl | hearlier
      · rw [← List.append_assoc, List.map_append, List.map_singleton,
          List.prefix_concat_iff] at hcalls
        rcases hcalls with rfl | hearlier
        · refine ⟨?_, made, hgrounded, rfl, ?_⟩
          · simp only [List.map_append, List.map_cons, List.map_nil, List.append_assoc]
          · rw [tokenText_append, tokenText_tokens]
            exact List.append_nil _
        · exact absurd hdone (not_isDone_of_quiet (hquiet List.prefix_rfl) hearlier)
      · exact absurd hdone (not_isDone_of_quiet (hquiet hearlier) hcalls)

/-- A refetch lists every message of the conversation. -/
theorem mem_listMessages {conn conn' : Conn} {crypto : Crypto} {now : Time} {userId : Uuid}
    {viaApiKey : Bool} {messages : List Message} {message : Message}
    (hrole : conn.role = .appUser)
    (hserve : (serve settings crypto now turn.orgId userId viaApiKey
      (.listMessages turn.conversationId)).Runs conn (.rows .messages messages) conn')
    (hmessage : message ∈ conn.db .messages) (horg : message.orgId = turn.orgId)
    (hconversation : message.conversationId = turn.conversationId) : message ∈ messages := by
  unfold serve at hserve
  rw [Program.runs_bind] at hserve
  obtain ⟨principal, middle, hguard, hhandle⟩ := hserve
  obtain ⟨rfl, _⟩ := guardPrincipal_eq_ok hguard
  unfold Api.handle rowsOf at hhandle
  obtain ⟨shown, hlist, hshown⟩ := Program.runs_map.mp hhandle
  cases hshown
  simp only [listMessages, getConversation, conversationMessages, Program.runs_bind, runs_scalars,
    Program.runs_pure] at hlist
  obtain ⟨_, _, hconversation', rows, _, ⟨hselect, rfl⟩, rfl, rfl⟩ := hlist
  obtain ⟨rfl, _⟩ := of_runs_getOr404 hconversation'
  rw [mem_oldestFirst]
  unfold Policy.selectRows at hselect
  split at hselect
  · cases hselect
    refine List.mem_filter.mpr ⟨hmessage, ?_⟩
    simp only [Conn.policy, Core.policy, hrole, orgIsolation, hconversation, beq_self_eq_true,
      Bool.and_true]
    exact decide_eq_true horg
  · cases hselect

/-! ## From the tokens to the stored message -/

/-- However a response is read and wherever either end stops, the bubble shows the first
tokens.  Once `onDone` was called, it shows the answer as it is stored, and that answer
and its question are listed by every refetch. -/
theorem shown_isStored {state : TurnState} {page : ChatPage} {store : Option Tokens}
    {message : Str} {last : Sending}
    (hturn : TurnRuns settings engine turn db turnTrace state)
    (hjson : ∀ event ∈ state.sent, json.Faithful event.data)
    (hstr : ∀ text, str (some (.string text)) = text) (hpage : page.Idle)
    (hrun : Sends json str (handleSend page store message) trace last)
    (hbody : (received trace).flatten <+: encodeUtf8 (sseText json state.sent)) :
    (last.page.isStreaming = true → last.page.streamingText <+: tokenText state.sent) ∧
      (0 < doneCalls json trace → ∃ made : MadeAnswer, made.Grounded turnTrace ∧
        state.db = made.db turn db ∧
        (last.page.isStreaming = true → last.page.streamingText = made.answer) ∧
        ∀ (crypto : Crypto) (now : Time) (userId : Uuid) (viaApiKey : Bool)
          (messages : List Message) (conn : Conn),
          (serve settings crypto now turn.orgId userId viaApiKey
            (.listMessages turn.conversationId)).Runs (.start .appUser now state.db)
              (.rows .messages messages) conn →
          made.message turn ∈ messages ∧
            messageRow turn .user turn.question none made.messageId made.askedAt ∈ messages) := by
  have hcalls : streamChatMessage json (received trace) <+: state.sent.map callOf := by
    rw [← streamChatMessage_whole hjson]
    refine streamChatMessage_prefix ?_
    rwa [List.flatten_singleton]
  constructor
  · intro hstreaming
    obtain ⟨later, hlater⟩ := hcalls
    rw [text_of_isStreaming hpage hrun hstreaming, ← calledText_callOf hstr, ← hlater,
      calledText_append]
    exact List.prefix_append _ _
  · intro hdone
    have hany : (streamChatMessage json (received trace)).any HandlerCall.isDone = true := by
      rw [List.any_eq_true, ← List.countP_pos_iff]
      exact hdone
    obtain ⟨hall, made, hgrounded, hdb, htext⟩ :=
      answered_of_isDone (stageSane_of_runs hturn).outcome hcalls hany
    refine ⟨made, hgrounded, hdb, fun hstreaming => ?_, ?_⟩
    · rw [text_of_isStreaming hpage hrun hstreaming, hall, calledText_callOf hstr, htext]
    · intro crypto now userId viaApiKey messages conn hserve
      constructor
      · refine mem_listMessages rfl hserve ?_ rfl rfl
        change _ ∈ state.db .messages
        rw [hdb]
        exact List.mem_append_right _ (List.mem_singleton_self _)
      · refine mem_listMessages rfl hserve ?_ rfl rfl
        change _ ∈ state.db .messages
        rw [hdb]
        exact List.mem_append_left _ (List.mem_append_right _ (List.mem_singleton_self _))

end Spec

/-! ### An answer without sources, read at once -/

def plainEvents : List ChatEvent := [.token "Rain.".toList, .citations [], .done 5]

/-- The turn that sends them. -/
def plainTurn : List TurnEvent :=
  [.ask 5 10, .retrieve 11 [sampleHit], .token "Rain.".toList, .take, .take, .take,
    .generated ⟨⟨7, 2⟩, "stub".toList, "stub".toList⟩, .cite, .take, .take, .drained,
    .record ⟨6, 7⟩ 12, .commit, .sendCitations, .sendDone]

/-- The texts of the dictionaries sent. -/
def plainDumps : Json → Str
  | .object [(_, .string _)] => "\x7b\"text\": \"Rain.\"\x7d".toList
  | .object [(_, .array _)] => "\x7b\"citations\": []\x7d".toList
  | .object [(_, .number _)] => "\x7b\"length\": 5\x7d".toList
  | _ => "null".toList

def plainJson : JsonText where
  dumps := plainDumps
  parse text := (plainEvents.find? fun event => plainDumps event.data == text).map ChatEvent.data

def plainPage : ChatPage := ⟨some (Uuid.str 3), [], none, [], false, []⟩

def plainAnswer : List SendEvent :=
  [.responded (some ⟨200, "OK".toList, true⟩), .read (encodeUtf8 (sseText plainJson plainEvents))]

theorem faithful_plainJson : ∀ event ∈ plainEvents, plainJson.Faithful event.data := by
  have hascii : plainEvents.all (fun event => (plainDumps event.data).all fun c =>
      32 ≤ c.toNat && c.toNat < 127) = true := by decide +kernel
  intro event hevent
  refine ⟨fun c hc => ?_, ?_⟩
  · have hc := List.all_eq_true.mp (List.all_eq_true.mp hascii event hevent) c hc
    simpa only [Bool.and_eq_true, decide_eq_true_eq] using hc
  · have hfound : plainEvents.all (fun event => (plainEvents.find? fun other =>
        plainDumps other.data == plainDumps event.data) == some event) = true := by
      decide +kernel
    have hevent := List.all_eq_true.mp hfound event hevent
    exact congrArg (Option.map ChatEvent.data) (eq_of_beq hevent)

theorem shown_isStored_plain : ∃ state last,
    TurnRuns {} plainEngine sampleTurn talkingDb plainTurn state ∧
    Sends plainJson sampleStr (handleSend plainPage none "Why?".toList) plainAnswer last ∧
    last.page.isStreaming = true ∧ ∃ made : MadeAnswer, made.Grounded plainTurn ∧
      state.db = made.db sampleTurn talkingDb ∧ last.page.streamingText = made.answer := by
  have hreplay : (replay (nextTurn {} plainEngine sampleTurn) (openedTurn talkingDb)
      plainTurn).map TurnState.sent = some plainEvents := by
    decide +kernel
  obtain ⟨state, hstate, hsent⟩ := Option.map_eq_some_iff.mp hreplay
  have hturn := run_of_replay _ _ _ _ hstate
  let bytes := encodeUtf8 (sseText plainJson plainEvents)
  let start := handleSend plainPage none "Why?".toList
  let opened : Sending := { start with phase := .streaming {} }
  let answered : Sending :=
    { (StreamReader.read plainJson {} bytes).1.foldl (Sending.handle sampleStr) opened with
      phase := .streaming (StreamReader.read plainJson {} bytes).2 }
  have hopen : start.next plainJson sampleStr (.responded (some ⟨200, "OK".toList, true⟩)) =
      some opened := rfl
  have hread : opened.next plainJson sampleStr (.read bytes) = some answered := rfl
  have hrun : Sends plainJson sampleStr start plainAnswer answered :=
    (Run.nil.snoc hopen).snoc hread
  have hstreaming : answered.page.isStreaming = true := (Sending.foldl_handle _ opened).2.1
  have hcalls : streamChatMessage plainJson (received plainAnswer) = plainEvents.map callOf :=
    streamChatMessage_whole faithful_plainJson
  have hdone : 0 < doneCalls plainJson plainAnswer := by
    rw [doneCalls, hcalls]
    decide
  have hjson : ∀ event ∈ state.sent, plainJson.Faithful event.data := by
    rw [hsent]
    exact faithful_plainJson
  have hbody : (received plainAnswer).flatten <+: encodeUtf8 (sseText plainJson state.sent) := by
    rw [hsent]
    exact ⟨[], (List.append_nil _).trans (List.append_nil bytes)⟩
  obtain ⟨made, hgrounded, hdb, htext, _⟩ :=
    (shown_isStored hturn hjson (fun _ => rfl) ⟨rfl, rfl⟩ hrun hbody).2 hdone
  exact ⟨state, answered, hturn, hrun, hstreaming, made, hgrounded, hdb, htext hstreaming⟩

end Web
