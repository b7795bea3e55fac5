import KnowledgePlatform.Foundations.Runs
import KnowledgePlatform.Web.Client
import KnowledgePlatform.Web.DoneFrames

/-!
# Sending a message

`handleSend` of the chat page shows the message and disables the composer, and
`streamChatMessage` posts it and reads the answer.  What they wait for comes in as
events: the responses, the pieces of a body, and the refetch in `onDone`.
`Sending.next` is what happens between two of them.

The composer is enabled again in two places.

* The `catch` block, when the message could not be sent or the body breaks off.
* `onDone`, which a done frame calls.

A body that ends without a done frame passes both of them by.  It is the only outcome
of a send after which the composer stays disabled (`composer_back_iff`).
-/

open Api Core Foundations Python

namespace Web

/-! ## The page -/

inductive ToastTone
  | success
  | error
  | info
  deriving DecidableEq

structure Toast where
  tone : ToastTone
  title : Str
  description : Option Str
  deriving DecidableEq

structure ConversationOut where
  id : Str
  orgId : Str
  title : Option Str
  createdAt : Str
  deriving DecidableEq

/-- What the chat page holds: the conversation of its path, the cached conversations,
its own state, and the toasts it has pushed. -/
structure ChatPage where
  conversationId : Option Str
  conversations : List ConversationOut
  pendingUserText : Option Str
  streamingText : Str
  isStreaming : Bool
  toasts : List Toast
  deriving DecidableEq

/-- The composer is enabled, and no message is pending. -/
def ChatPage.Idle (page : ChatPage) : Prop :=
  page.isStreaming = false ∧ page.pendingUserText = none

/-- What `streamChatMessage` throws. -/
inductive Rejection
  | apiError (status : ℕ) (message : Str) (detail : Option Json)
  | other

/-- `err instanceof ApiError ? err.message : undefined` -/
def Rejection.description : Rejection → Option Str
  | .apiError _ message _ => some message
  | .other => none

/-! ## Requests -/

structure PostRequest where
  path : Str
  accessToken : Option Str
  body : Json

/-- A response before its body is read. -/
structure Response where
  status : ℕ
  statusText : Str
  hasBody : Bool

def Response.ok (res : Response) : Bool := decide (200 ≤ res.status ∧ res.status < 300)

/-- What `streamChatMessage` waits for before it reads a stream. -/
inductive Opening
  | requested
  | refreshing (res : Response)
  | readingTokens
  | requestedAgain
  | readingDetail (res : Response)

inductive SendPhase
  | creating
  | opening (opening : Opening)
  | streaming (reader : StreamReader)
  | settled

/-- A call of `handleSend`, with the requests of `streamChatMessage`; `waiting` counts
the calls of `onDone` that wait for `invalidateQueries`. -/
structure Sending where
  page : ChatPage
  store : Option Tokens
  id : Str
  message : Str
  phase : SendPhase
  waiting : ℕ
  requests : List PostRequest

/-- What a promise brings; `none` is its rejection.  The store may also be changed by
other parts of the client. -/
inductive SendEvent
  | created (conversation : Option ConversationOut)
  | responded (res : Option Response)
  | parsed (body : Option Json)
  | read (value : List UInt8)
  | readDone
  | readFailed
  | invalidated
  | stored (store : Option Tokens)

namespace Sending

/-- The request for the messages of a conversation. -/
def doRequest (sending : Sending) (opening : Opening) : Sending :=
  { sending with
    phase := .opening opening
    requests := sending.requests ++
      [⟨"/api/conversations/".toList ++ sending.id ++ "/messages".toList,
        (sending.store.map Tokens.accessToken).filter (· ≠ []),
        .object [("message".toList, .string sending.message)]⟩] }

/-- The message is shown and sent. -/
def send (sending : Sending) (id : Str) : Sending :=
  doRequest { sending with
    id
    page := { sending.page with
              pendingUserText := some sending.message
              streamingText := []
              isStreaming := true } } .requested

/-- The outer `catch` block. -/
def fail (sending : Sending) (err : Rejection) : Sending :=
  { sending with
    phase := .settled
    page := { sending.page with
              toasts := sending.page.toasts ++
                [⟨.error, "Message failed to send".toList, err.description⟩]
              isStreaming := false
              pendingUserText := none } }

/-- `if (!res.ok || !res.body)`, and the read loop behind it. -/
def examine (sending : Sending) (res : Response) : Sending :=
  if res.ok && res.hasBody then { sending with phase := .streaming {} }
  else { sending with phase := .opening (.readingDetail res) }

/-- A first response of 401 has the tokens refreshed. -/
def examineFirst (sending : Sending) (res : Response) : Sending :=
  if res.status = 401 then
    match (sending.store.map Tokens.refreshToken).filter (· ≠ []) with
    | none => sending.examine res
    | some refreshToken =>
        { sending with
          phase := .opening (.refreshing res)
          requests := sending.requests ++
            [⟨"/api/auth/refresh".toList, none,
              .object [("refresh_token".toList, .string refreshToken)]⟩] }
  else sending.examine res

/-- `new ApiError(…)` for a response whose JSON was read. -/
def apiError (res : Response) (body : Option Json) : Rejection :=
  let detail := (body.bind (property "detail".toList)).join
  match detail with
  | some (.string text) => .apiError res.status text detail
  | _ => .apiError res.status res.statusText detail

/-- The tokens in the answer to a refresh; `str` makes strings of them to store. -/
def tokensOf (str : Option Json → Str) (body : Json) : Option Tokens := do
  let accessToken ← property "access_token".toList body
  let refreshToken ← property "refresh_token".toList body
  return ⟨str accessToken, str refreshToken⟩

/-- One step of `streamChatMessage` before it reads a stream. -/
def openNext (str : Option Json → Str) (sending : Sending) : Opening → SendEvent → Option Sending
  | .requested, .responded (some res) => some (sending.examineFirst res)
  | .refreshing res, .responded (some refreshRes) =>
      some (if refreshRes.ok then { sending with phase := .opening .readingTokens }
        else sending.examine res)
  | .readingTokens, .parsed body =>
      match body.bind (tokensOf str) with
      | none => some (sending.fail .other)
      | some tokens => some (doRequest { sending with store := some tokens } .requestedAgain)
  | .requestedAgain, .responded (some res) => some (sending.examine res)
  | .readingDetail res, .parsed body => some (sending.fail (apiError res body))
  | .requested, .responded none | .refreshing _, .responded none
  | .requestedAgain, .responded none => some (sending.fail .other)
  | _, _ => none

/-- The handlers of `handleSend`. -/
def handle (str : Option Json → Str) (sending : Sending) : HandlerCall → Sending
  | .onToken text =>
      { sending with
        page := { sending.page with streamingText := sending.page.streamingText ++ str text } }
  | .onCitations _ => sending
  | .onDone _ => { sending with waiting := sending.waiting + 1 }

/-- One step of `handleSend` itself. -/
def advance (json : JsonText) (str : Option Json → Str) (sending : Sending) (event : SendEvent) :
    Option Sending :=
  match sending.phase, event with
  | .creating, .created none =>
      some { sending with
             phase := .settled
             page := { sending.page with
                       toasts := sending.page.toasts ++
                         [⟨.error, "Could not start a new conversation".toList, none⟩] } }
  | .creating, .created (some conversation) =>
      let page := { sending.page with
                    conversations := conversation :: sending.page.conversations
                    conversationId := some conversation.id }
      some ({ sending with page }.send conversation.id)
  | .opening opening, event => sending.openNext str opening event
  | .streaming reader, .read value =>
      let (calls, reader) := reader.read json value
      some { calls.foldl (handle str) sending with phase := .streaming reader }
  | .streaming _, .readDone => some { sending with phase := .settled }
  | .streaming _, .readFailed => some (sending.fail .other)
  | _, _ => none

/-- One step of a send, of an `onDone` that waits, or of the store. -/
def next (json : JsonText) (str : Option Json → Str) (sending : Sending) :
    SendEvent → Option Sending
  | .stored store => some { sending with store }
  | .invalidated =>
      -- `throwOnError` is not set, so that `invalidateQueries` is never rejected
      if sending.waiting = 0 then none
      else
        some { sending with
               waiting := sending.waiting - 1
               page := { sending.page with
                         pendingUserText := none
                         streamingText := []
                         isStreaming := false } }
  | event => sending.advance json str event

end Sending

/-- `handleSend` up to the first promise it waits for. -/
def handleSend (page : ChatPage) (store : Option Tokens) (message : Str) : Sending :=
  let sending : Sending := ⟨page, store, [], message, .creating, 0, []⟩
  match page.conversationId.filter (· ≠ []) with
  | none => sending
  | some id => sending.send id

/-! ## What a step does -/

namespace SendEvent

/-- The piece of the body that is read. -/
def value? : SendEvent → Option (List UInt8)
  | .read value => some value
  | _ => none

/-- The events of a body, other than its failure. -/
def isBody : SendEvent → Bool
  | .read _ | .readDone => true
  | _ => false

end SendEvent

/-- What a step does to the phase, the composer and the waiting calls. -/
inductive Sending.Effect (json : JsonText) (sending : Sending) : SendEvent → Sending → Prop
  | stored {store : Option Tokens} {sending' : Sending} : sending'.phase = sending.phase →
      sending'.page = sending.page → sending'.waiting = sending.waiting →
      Effect json sending (.stored store) sending'
  | invalidated {sending' : Sending} : 0 < sending.waiting → sending'.phase = sending.phase →
      sending'.page.Idle → sending'.waiting = sending.waiting - 1 →
      Effect json sending .invalidated sending'
  | created {conversation : ConversationOut} {sending' : Sending} : sending.phase = .creating →
      sending'.phase = .opening .requested → sending'.page.isStreaming = true →
      sending'.waiting = sending.waiting →
      Effect json sending (.created (some conversation)) sending'
  | notCreated {sending' : Sending} : sending.phase = .creating → sending'.phase = .settled →
      sending'.page.isStreaming = sending.page.isStreaming →
      sending'.page.pendingUserText = sending.page.pendingUserText →
      Effect json sending (.created none) sending'
  | opened {opening : Opening} {event : SendEvent} {sending' : Sending} :
      sending.phase = .opening opening → event.isBody = false →
      ((∃ opening', sending'.phase = .opening opening') ∨ sending'.phase = .streaming {}) →
      sending'.page = sending.page → sending'.waiting = sending.waiting →
      Effect json sending event sending'
  | failed {event : SendEvent} {sending' : Sending} :
      ((∃ opening, sending.phase = .opening opening) ∨
        ∃ reader, sending.phase = .streaming reader) →
      event.isBody = false → sending'.phase = .settled → sending'.page.Idle →
      Effect json sending event sending'
  | read {reader : StreamReader} {value : List UInt8} {sending' : Sending} :
      sending.phase = .streaming reader →
      sending'.phase = .streaming (reader.read json value).2 →
      sending'.page.isStreaming = sending.page.isStreaming →
      sending'.page.pendingUserText = sending.page.pendingUserText →
      sending'.waiting = sending.waiting + (reader.read json value).1.countP HandlerCall.isDone →
      Effect json sending (.read value) sending'
  | readDone {reader : StreamReader} {sending' : Sending} : sending.phase = .streaming reader →
      sending'.phase = .settled → sending'.page = sending.page →
      sending'.waiting = sending.waiting → Effect json sending .readDone sending'

section Spec

variable {json : JsonText} {str : Option Json → Str} {sending sending' : Sending}
  {trace : List SendEvent} {event : SendEvent}

namespace Sending

/-- The calls of the handlers count what has to be waited for, and leave the composer
as it is. -/
theorem foldl_handle (calls : List HandlerCall) (sending : Sending) :
    (calls.foldl (handle str) sending).waiting =
        sending.waiting + calls.countP HandlerCall.isDone ∧
      (calls.foldl (handle str) sending).page.isStreaming = sending.page.isStreaming ∧
      (calls.foldl (handle str) sending).page.pendingUserText = sending.page.pendingUserText := by
  induction calls generalizing sending with
  | nil => exact ⟨rfl, rfl, rfl⟩
  | cons call calls ih =>
      obtain ⟨hwaiting, hstreaming, hpending⟩ := ih (sending.handle str call)
      rw [List.foldl_cons, hwaiting, hstreaming, hpending, List.countP_cons]
      cases call with
      | onToken text => exact ⟨rfl, rfl, rfl⟩
      | onCitations citations => exact ⟨rfl, rfl, rfl⟩
      | onDone length =>
          refine ⟨?_, rfl, rfl⟩
          simp only [handle, HandlerCall.isDone, if_true]
          omega

theorem examine_spec (res : Response) :
    ((∃ opening, (sending.examine res).phase = .opening opening) ∨
        (sending.examine res).phase = .streaming {}) ∧
      (sending.examine res).page = sending.page ∧
      (sending.examine res).waiting = sending.waiting := by
  unfold examine
  split
  · exact ⟨.inr rfl, rfl, rfl⟩
  · exact ⟨.inl ⟨_, rfl⟩, rfl, rfl⟩

theorem examineFirst_spec (res : Response) :
    ((∃ opening, (sending.examineFirst res).phase = .opening opening) ∨
        (sending.examineFirst res).phase = .streaming {}) ∧
      (sending.examineFirst res).page = sending.page ∧
      (sending.examineFirst res).waiting = sending.waiting := by
  unfold examineFirst
  split
  · split
    · exact examine_spec res
    · exact ⟨.inl ⟨_, rfl⟩, rfl, rfl⟩
  · exact examine_spec res

/-- A step before the stream is read goes on or fails. -/
theorem effect_of_openNext {opening : Opening} (hphase : sending.phase = .opening opening)
    (h : sending.openNext str opening event = some sending') :
    Effect json sending event sending' := by
  have hgoesOn : ∀ {event : SendEvent} {sending'' : Sending}, event.isBody = false →
      ((∃ opening', sending''.phase = .opening opening') ∨ sending''.phase = .streaming {}) ∧
        sending''.page = sending.page ∧ sending''.waiting = sending.waiting →
      Effect json sending event sending'' :=
    fun hevent hspec => .opened hphase hevent hspec.1 hspec.2.1 hspec.2.2
  have hfails : ∀ {event : SendEvent} (err : Rejection), event.isBody = false →
      Effect json sending event (sending.fail err) :=
    fun err hevent => .failed (.inl ⟨opening, hphase⟩) hevent rfl ⟨rfl, rfl⟩
  unfold openNext at h
  split at h
  · cases h
    exact hgoesOn rfl (examineFirst_spec _)
  · cases h
    refine hgoesOn rfl ?_
    split
    · exact ⟨.inl ⟨_, rfl⟩, rfl, rfl⟩
    · exact examine_spec _
  · split at h
    · cases h
      exact hfails _ rfl
    · cases h
      exact hgoesOn rfl ⟨.inl ⟨_, rfl⟩, rfl, rfl⟩
  · cases h
    exact hgoesOn rfl (examine_spec _)
  · cases h
    exact hfails _ rfl
  · cases h
    exact hfails _ rfl
  · cases h
    exact hfails _ rfl
  · cases h
    exact hfails _ rfl
  · cases h

theorem effect_of_advance (h : sending.advance json str event = some sending') :
    Effect json sending event sending' := by
  unfold advance at h
  split at h
  · next hphase =>
      cases h
      exact .notCreated hphase rfl rfl rfl
  · next hphase =>
      cases h
      exact .created hphase rfl rfl rfl
  · next hphase => exact effect_of_openNext hphase h
  · next reader value hphase =>
      cases h
      obtain ⟨hwaiting, hstreaming, hpending⟩ :=
        foldl_handle (reader.read json value).1 sending
      exact .read hphase rfl hstreaming hpending hwaiting
  · next hphase =>
      cases h
      exact .readDone hphase rfl rfl rfl
  · next hphase =>
      cases h
      exact .failed (.inr ⟨_, hphase⟩) rfl rfl ⟨rfl, rfl⟩
  · cases h

/-- What a step does. -/
theorem effect_of_next (h : sending.next json str event = some sending') :
    Effect json sending event sending' := by
  unfold next at h
  split at h
  · cases h
    exact .stored rfl rfl rfl
  · split at h
    · cases h
    · next hwaiting =>
        cases h
        exact .invalidated (Nat.pos_of_ne_zero hwaiting) rfl ⟨rfl, rfl⟩ rfl
  · exact effect_of_advance h

end Sending

/-! ## What has been read -/

/-- What the reader keeps after these reads. -/
def StreamReader.after (json : JsonText) (reader : StreamReader) (reads : List (List UInt8)) :
    StreamReader :=
  reads.foldl (fun reader value => (reader.read json value).2) reader

/-- The pieces of the body that were read. -/
def received (trace : List SendEvent) : List (List UInt8) := trace.filterMap SendEvent.value?

/-- How often `onDone` was called. -/
def doneCalls (json : JsonText) (trace : List SendEvent) : ℕ :=
  (streamChatMessage json (received trace)).countP HandlerCall.isDone

theorem StreamReader.readAll_concat (reader : StreamReader) (reads : List (List UInt8))
    (value : List UInt8) : reader.readAll json (reads ++ [value]) =
      reader.readAll json reads ++ ((reader.after json reads).read json value).1 := by
  induction reads generalizing reader with
  | nil => exact List.append_nil _
  | cons first reads ih =>
      simp only [List.cons_append, readAll, ih, List.append_assoc]
      rfl

theorem StreamReader.after_concat (reader : StreamReader) (reads : List (List UInt8))
    (value : List UInt8) : reader.after json (reads ++ [value]) =
      ((reader.after json reads).read json value).2 :=
  List.foldl_concat ..

theorem received_concat : received (trace ++ [event]) = received trace ++ event.value?.toList := by
  rw [received, List.filterMap_append]
  cases event <;> rfl

theorem received_of_not_isBody (h : event.isBody = false) :
    received (trace ++ [event]) = received trace := by
  rw [received_concat]
  cases event with
  | read value => cases h
  | _ => exact List.append_nil _

theorem doneCalls_read (value : List UInt8) : doneCalls json (trace ++ [.read value]) =
    doneCalls json trace +
      (((StreamReader.after json {} (received trace)).read json value).1).countP
        HandlerCall.isDone := by
  rw [doneCalls, received_concat]
  refine (congrArg _ (StreamReader.readAll_concat {} (received trace) value)).trans ?_
  exact List.countP_append

/-! ## The composer -/

/-- After this many calls of `onDone` the composer is disabled as long as all of them
wait, and enabled once one of them is through. -/
structure Sending.Shows (sending : Sending) (dones : ℕ) : Prop where
  le : sending.waiting ≤ dones
  disabled : sending.waiting = dones → sending.page.isStreaming = true
  idle : sending.waiting < dones → sending.page.Idle

/-- What holds of a send after these events. -/
def Sending.Follows (json : JsonText) (trace : List SendEvent) (sending : Sending) : Prop :=
  match sending.phase with
  | .creating => sending.page.Idle ∧ sending.waiting = 0 ∧ received trace = [] ∧ .readDone ∉ trace
  | .opening _ => sending.Shows (doneCalls json trace) ∧ received trace = [] ∧ .readDone ∉ trace
  | .streaming reader =>
      sending.Shows (doneCalls json trace) ∧ reader = StreamReader.after json {} (received trace) ∧
        .readDone ∉ trace
  | .settled =>
      (.readDone ∈ trace → sending.Shows (doneCalls json trace)) ∧
        (.readDone ∉ trace → sending.page.Idle)

theorem doneCalls_of_not_isBody (h : event.isBody = false) :
    doneCalls json (trace ++ [event]) = doneCalls json trace := by
  rw [doneCalls, received_of_not_isBody h, doneCalls]

theorem doneCalls_readDone : doneCalls json (trace ++ [.readDone]) = doneCalls json trace := by
  rw [doneCalls, received_concat, doneCalls]
  exact congrArg (fun reads => (streamChatMessage json reads).countP _) (List.append_nil _)

theorem readDone_mem_concat (h : event.isBody = false) :
    .readDone ∈ trace ++ [event] ↔ .readDone ∈ trace := by
  rw [List.mem_append, List.mem_singleton, or_iff_left]
  rintro rfl
  cases h

namespace Sending

theorem Shows.congr {dones : ℕ} (h : sending.Shows dones)
    (hstreaming : sending'.page.isStreaming = sending.page.isStreaming)
    (hpending : sending'.page.pendingUserText = sending.page.pendingUserText)
    (hwaiting : sending'.waiting = sending.waiting) : sending'.Shows dones := by
  refine ⟨hwaiting ▸ h.le, fun hall => ?_, fun hless => ?_⟩
  · rw [hstreaming]
    exact h.disabled (hwaiting ▸ hall)
  · rw [ChatPage.Idle, hstreaming, hpending]
    exact h.idle (hwaiting ▸ hless)

/-- More calls that wait. -/
theorem Shows.read {dones more : ℕ} (h : sending.Shows dones)
    (hstreaming : sending'.page.isStreaming = sending.page.isStreaming)
    (hpending : sending'.page.pendingUserText = sending.page.pendingUserText)
    (hwaiting : sending'.waiting = sending.waiting + more) : sending'.Shows (dones + more) := by
  refine ⟨?_, fun hall => ?_, fun hless => ?_⟩
  · rw [hwaiting]
    exact Nat.add_le_add_right h.le more
  · rw [hstreaming]
    exact h.disabled (by omega)
  · rw [ChatPage.Idle, hstreaming, hpending]
    exact h.idle (by omega)

/-- A call that is through. -/
theorem Shows.invalidated {dones : ℕ} (h : sending.Shows dones) (hpositive : 0 < sending.waiting)
    (hidle : sending'.page.Idle) (hwaiting : sending'.waiting = sending.waiting - 1) :
    sending'.Shows dones := by
  have hle := h.le
  refine ⟨by omega, fun hall => ?_, fun _ => hidle⟩
  omega

theorem follows_creating (h : sending.phase = .creating) : sending.Follows json trace ↔
    sending.page.Idle ∧ sending.waiting = 0 ∧ received trace = [] ∧ .readDone ∉ trace := by
  rw [Follows, h]

theorem follows_opening {opening : Opening} (h : sending.phase = .opening opening) :
    sending.Follows json trace ↔
      sending.Shows (doneCalls json trace) ∧ received trace = [] ∧ .readDone ∉ trace := by
  rw [Follows, h]

theorem follows_streaming {reader : StreamReader} (h : sending.phase = .streaming reader) :
    sending.Follows json trace ↔ sending.Shows (doneCalls json trace) ∧
      reader = StreamReader.after json {} (received trace) ∧ .readDone ∉ trace := by
  rw [Follows, h]

theorem follows_settled (h : sending.phase = .settled) : sending.Follows json trace ↔
    (.readDone ∈ trace → sending.Shows (doneCalls json trace)) ∧
      (.readDone ∉ trace → sending.page.Idle) := by
  rw [Follows, h]

/-- A step that leaves the phase as it is and reads nothing. -/
theorem Follows.quiet (h : sending.Follows json trace) (hevent : event.isBody = false)
    (hphase : sending'.phase = sending.phase)
    (hshows : ∀ dones, sending.Shows dones → sending'.Shows dones)
    (hidle : sending.page.Idle → sending'.page.Idle)
    (hwaiting : sending.waiting = 0 → sending'.waiting = 0) :
    sending'.Follows json (trace ++ [event]) := by
  unfold Follows at h ⊢
  simp only [hphase, received_of_not_isBody hevent, doneCalls_of_not_isBody hevent,
    readDone_mem_concat hevent]
  cases hcase : sending.phase with
  | creating =>
      rw [hcase] at h
      exact ⟨hidle h.1, hwaiting h.2.1, h.2.2⟩
  | opening opening =>
      rw [hcase] at h
      exact ⟨hshows _ h.1, h.2⟩
  | streaming reader =>
      rw [hcase] at h
      exact ⟨hshows _ h.1, h.2⟩
  | settled =>
      rw [hcase] at h
      exact ⟨fun hdone => hshows _ (h.1 hdone), fun hnot => hidle (h.2 hnot)⟩

/-- A step that settles without the end of a body. -/
theorem Follows.settle (hnot : .readDone ∉ trace) (hevent : event.isBody = false)
    (hphase : sending'.phase = .settled) (hidle : sending'.page.Idle) :
    sending'.Follows json (trace ++ [event]) := by
  rw [follows_settled hphase, readDone_mem_concat hevent]
  exact ⟨fun hdone => absurd hdone hnot, fun _ => hidle⟩

/-- Every step keeps to it. -/
theorem Follows.next (h : sending.Follows json trace)
    (hnext : sending.next json str event = some sending') :
    sending'.Follows json (trace ++ [event]) := by
  cases effect_of_next hnext with
  | stored hphase hpage hwaiting =>
      refine h.quiet rfl hphase (fun dones hshows => ?_) (fun hidle => hpage ▸ hidle)
        fun hzero => hwaiting.trans hzero
      exact hshows.congr (by rw [hpage]) (by rw [hpage]) hwaiting
  | invalidated hpositive hphase hidle hwaiting =>
      exact h.quiet rfl hphase (fun dones hshows => hshows.invalidated hpositive hidle hwaiting)
        (fun _ => hidle) fun hzero => by omega
  | created hphase hphase' hstreaming hwaiting =>
      obtain ⟨_, hzero, hreceived, hnot⟩ := (follows_creating hphase).mp h
      have hnone : doneCalls json trace = 0 := by
        rw [doneCalls, hreceived]
        rfl
      rw [follows_opening hphase', readDone_mem_concat rfl, received_of_not_isBody rfl,
        doneCalls_of_not_isBody rfl, hnone]
      refine ⟨⟨by omega, fun _ => hstreaming, fun hless => ?_⟩, hreceived, hnot⟩
      omega
  | notCreated hphase hphase' hstreaming hpending =>
      obtain ⟨hidle, _, _, hnot⟩ := (follows_creating hphase).mp h
      refine Follows.settle hnot rfl hphase' ?_
      rw [ChatPage.Idle, hstreaming, hpending]
      exact hidle
  | opened hphase hevent hphase' hpage hwaiting =>
      obtain ⟨hshows, hreceived, hnot⟩ := (follows_opening hphase).mp h
      have hshows' := hshows.congr (by rw [hpage]) (by rw [hpage]) hwaiting
      rcases hphase' with ⟨opening', hphase'⟩ | hphase'
      · rw [follows_opening hphase', readDone_mem_concat hevent, received_of_not_isBody hevent,
          doneCalls_of_not_isBody hevent]
        exact ⟨hshows', hreceived, hnot⟩
      · rw [follows_streaming hphase', readDone_mem_concat hevent, received_of_not_isBody hevent,
          doneCalls_of_not_isBody hevent, hreceived]
        exact ⟨hshows', rfl, hnot⟩
  | failed hphase hevent hphase' hidle =>
      rcases hphase with ⟨opening, hphase⟩ | ⟨reader, hphase⟩
      · exact Follows.settle ((follows_opening hphase).mp h).2.2 hevent hphase' hidle
      · exact Follows.settle ((follows_streaming hphase).mp h).2.2 hevent hphase' hidle
  | @read reader value _ hphase hphase' hstreaming hpending hwaiting =>
      obtain ⟨hshows, rfl, hnot⟩ := (follows_streaming hphase).mp h
      have hreads : received (trace ++ [.read value]) = received trace ++ [value] :=
        received_concat
      rw [follows_streaming hphase', doneCalls_read, hreads, StreamReader.after_concat]
      refine ⟨hshows.read hstreaming hpending hwaiting, rfl, fun hdone => ?_⟩
      rcases List.mem_append.mp hdone with hearlier | hlast
      · exact hnot hearlier
      · cases List.mem_singleton.mp hlast
  | readDone hphase hphase' hpage hwaiting =>
      have hshows := ((follows_streaming hphase).mp h).1
      rw [follows_settled hphase', doneCalls_readDone]
      refine ⟨fun _ => hshows.congr (by rw [hpage]) (by rw [hpage]) hwaiting, fun hnot => ?_⟩
      exact absurd (List.mem_append_right _ (List.mem_singleton_self _)) hnot

theorem follows_handleSend {page : ChatPage} (hpage : page.Idle) (store : Option Tokens)
    (message : Str) : (handleSend page store message).Follows json [] := by
  have hnot : SendEvent.readDone ∉ [] := List.not_mem_nil
  unfold handleSend
  cases page.conversationId.filter (· ≠ []) with
  | none => exact (follows_creating rfl).mpr ⟨hpage, rfl, rfl, hnot⟩
  | some id =>
      refine (follows_opening rfl).mpr ⟨⟨Nat.zero_le _, fun _ => rfl, fun hless => ?_⟩, rfl, hnot⟩
      exact absurd hless (Nat.lt_irrefl 0)

end Sending

/-- The sends of a message from a page. -/
abbrev Sends (json : JsonText) (str : Option Json → Str) :
    Sending → List SendEvent → Sending → Prop :=
  Run fun sending event sending' => sending.next json str event = some sending'

theorem follows_of_sends {page : ChatPage} {store : Option Tokens} {message : Str} {last : Sending}
    (hpage : page.Idle) (hrun : Sends json str (handleSend page store message) trace last) :
    last.Follows json trace :=
  hrun.invariant (Sending.follows_handleSend hpage store message)
    fun _ _ _ _ _ hfollows hnext => hfollows.next hnext

/-- For every outcome of a send, once it has settled and every call of `onDone` is
through: the composer is enabled and no message pending if and only if the body, if it
was read to its end, had a done frame. -/
theorem composer_back_iff {page : ChatPage} {store : Option Tokens} {message : Str}
    {last : Sending} (hpage : page.Idle)
    (hrun : Sends json str (handleSend page store message) trace last)
    (hsettled : last.phase = .settled) (hwaiting : last.waiting = 0) :
    last.page.isStreaming = false ∧ last.page.pendingUserText = none ↔
      (.readDone ∈ trace → HasDone json (received trace).flatten) := by
  obtain ⟨hended, hother⟩ :=
    (Sending.follows_settled hsettled).mp (follows_of_sends hpage hrun)
  rw [← any_streamChatMessage_iff, List.any_eq_true, ← List.countP_pos_iff]
  by_cases hdone : .readDone ∈ trace
  · obtain ⟨_, hdisabled, hidle⟩ := hended hdone
    rw [hwaiting] at hdisabled hidle
    refine ⟨fun hback _ => ?_, fun hpositive => hidle (hpositive hdone)⟩
    rcases Nat.eq_zero_or_pos (doneCalls json trace) with hzero | hpositive
    · rw [hdisabled hzero.symm] at hback
      exact absurd hback.1 (by decide)
    · exact hpositive
  · exact iff_of_true (hother hdone) fun h => absurd h hdone

end Spec

/-! ### An answer that is cut short -/

def samplePage : ChatPage := ⟨some "c1".toList, [], none, [], false, []⟩

/-- The conversion of strings. -/
def sampleStr : Option Json → Str
  | some (.string text) => text
  | _ => "undefined".toList

/-- A message for which these events are read. -/
def answered (events : List ChatEvent) : List SendEvent :=
  [.responded (some ⟨200, "OK".toList, true⟩), .read (encodeUtf8 (sseText sampleJson events))]

theorem sends_answered {events : List ChatEvent}
    (hjson : ∀ event ∈ events, sampleJson.Faithful event.data) : ∃ sending reader,
    Sends sampleJson sampleStr (handleSend samplePage none "Hi".toList) (answered events) sending ∧
      sending.phase = .streaming reader ∧ sending.page.isStreaming = true ∧
      sending.waiting = (events.map callOf).countP HandlerCall.isDone := by
  let bytes := encodeUtf8 (sseText sampleJson events)
  let start := handleSend samplePage none "Hi".toList
  let opened : Sending := { start with phase := .streaming {} }
  have hopen : start.next sampleJson sampleStr (.responded (some ⟨200, "OK".toList, true⟩)) =
      some opened := rfl
  have hread : opened.next sampleJson sampleStr (.read bytes) =
      some { (StreamReader.read sampleJson {} bytes).1.foldl (Sending.handle sampleStr) opened with
             phase := .streaming (StreamReader.read sampleJson {} bytes).2 } := rfl
  have hcalls : (StreamReader.read sampleJson {} bytes).1 = events.map callOf := by
    rw [← streamChatMessage_whole hjson]
    exact (List.append_nil _).symm
  obtain ⟨hwaiting, hstreaming, _⟩ :=
    Sending.foldl_handle (StreamReader.read sampleJson {} bytes).1 opened
  refine ⟨_, _, (Run.nil.snoc hopen).snoc hread, rfl, hstreaming, ?_⟩
  rw [← hcalls]
  exact hwaiting.trans (Nat.zero_add _)

theorem next_readDone {sending : Sending} {reader : StreamReader}
    (h : sending.phase = .streaming reader) : sending.next sampleJson sampleStr .readDone =
      some { sending with phase := .settled } := by
  simp only [Sending.next, Sending.advance, h]

/-- The answer of the server arrives. -/
def wholeAnswer : List SendEvent := answered sampleEvents ++ [.readDone] ++ [.invalidated]

theorem composer_back_iff_wholeAnswer : ∃ last,
    Sends sampleJson sampleStr (handleSend samplePage none "Hi".toList) wholeAnswer last ∧
      (last.page.isStreaming = false ∧ last.page.pendingUserText = none ↔
        (.readDone ∈ wholeAnswer → HasDone sampleJson (received wholeAnswer).flatten)) := by
  obtain ⟨sending, reader, hrun, hphase, _, hwaiting⟩ := sends_answered faithful_sampleJson
  have hone : sending.waiting = 1 := hwaiting
  let settled : Sending := { sending with phase := .settled }
  have hthrough : settled.next sampleJson sampleStr .invalidated =
      some { sending with
             phase := .settled
             waiting := sending.waiting - 1
             page := { sending.page with
                       pendingUserText := none
                       streamingText := []
                       isStreaming := false } } :=
    if_neg (by rw [hone]; decide)
  have hwhole := (hrun.snoc (next_readDone hphase)).snoc hthrough
  refine ⟨_, hwhole, composer_back_iff ⟨rfl, rfl⟩ hwhole rfl ?_⟩
  exact (congrArg (· - 1) hone).trans rfl

/-- The body ends after a token, with a status of 200. -/
theorem shortAnswer_keeps_streaming : ∃ last,
    Sends sampleJson sampleStr (handleSend samplePage none "Hi".toList)
      (answered (sampleEvents.take 1) ++ [.readDone]) last ∧
    samplePage.isStreaming = false ∧ samplePage.pendingUserText = none ∧
    last.phase = .settled ∧ last.waiting = 0 ∧ last.page.isStreaming = true := by
  have hjson : ∀ event ∈ sampleEvents.take 1, sampleJson.Faithful event.data :=
    fun event hevent => faithful_sampleJson event (List.mem_of_mem_take hevent)
  obtain ⟨sending, reader, hrun, hphase, hstreaming, hwaiting⟩ := sends_answered hjson
  exact ⟨_, hrun.snoc (next_readDone hphase), rfl, rfl, rfl, hwaiting, hstreaming⟩

end Web
