import KnowledgePlatform.Api.ChatStream
import KnowledgePlatform.Foundations.Runs

/-!
# The conversation replayed to the model

A chat request reads the earlier messages of its conversation in the order of
`created_at`, which is the time at which the transaction of a message began, and
keeps the last `max_history_messages` of them.  The question and the answer of a
turn are stored by two transactions of their own, so the requests of a
conversation interleave between any two of these.

What is replayed is always the end of what is stored.  That it alternates between
user and assistant depends on how the earlier turns went: it does when they were
completed one after another, and not after a turn that was given up.  Messages of
one microsecond are taken in the order of their insertion.
-/

open Core Foundations Python Relational

namespace Api

/-- How far a chat request has come.  An open transaction knows when it began; a
request that is given up leaves nothing, or a question without an answer. -/
inductive TalkPhase
  | idle
  | requested (turn : ChatTurn)
  | asking (turn : ChatTurn) (began : Time)
  | asked (turn : ChatTurn)
  | answering (turn : ChatTurn) (began : Time)
  | answered
  | dropped
  | unanswered
  deriving DecidableEq

/-- The turn is being stored, or stays half stored. -/
def TalkPhase.isOpen : TalkPhase → Bool
  | .asking _ _ | .asked _ | .answering _ _ | .unanswered => true
  | .idle | .requested _ | .answered | .dropped => false

/-- The turn a request is at work on. -/
def TalkPhase.turn : TalkPhase → Option ChatTurn
  | .requested turn | .asking turn _ | .asked turn | .answering turn _ => some turn
  | .idle | .answered | .dropped | .unanswered => none

/-- What the messages have to be for a request in this phase. -/
def TalkPhase.Fits (messages : List Message) (clock : Time) : TalkPhase → Prop
  | .asking _ began =>
      messages.length % 2 = 0 ∧ began ≤ clock ∧ ∀ message ∈ messages, message.createdAt ≤ began
  | .asked _ => messages.length % 2 = 1
  | .answering _ began =>
      messages.length % 2 = 1 ∧ began ≤ clock ∧ ∀ message ∈ messages, message.createdAt ≤ began
  | .idle | .requested _ | .answered | .dropped | .unanswered => True

theorem TalkPhase.fits_of_closed {phase : TalkPhase} {messages : List Message} {clock : Time}
    (hclosed : phase.isOpen = false) : phase.Fits messages clock := by
  cases phase <;> trivial

theorem TalkPhase.Fits.later {phase : TalkPhase} {messages : List Message} {clock now : Time}
    (h : phase.Fits messages clock) (hnow : clock ≤ now) : phase.Fits messages now := by
  cases phase with
  | asking => exact ⟨h.1, h.2.1.trans hnow, h.2.2⟩
  | answering => exact ⟨h.1, h.2.1.trans hnow, h.2.2⟩
  | _ => exact h

/-- The committed database, the clock and the chat requests. -/
structure Talk where
  db : Database
  clock : Time
  requests : ℕ → TalkPhase

inductive TalkEvent
  | tick (now : Time)
  | elsewhere (db : Database)
  | request (id : ℕ) (userId : Uuid) (viaApiKey : Bool) (question : Str)
  | beginAsk (id : ℕ)
  | ask (id : ℕ) (messageId : Uuid)
  | beginAnswer (id : ℕ)
  | answer (id : ℕ) (engine : SearchEngine)
      (astream : Str → List (MessageRole × Str) → Except Str (List Str × Generation))
      (draw : AnswerDraw)
  | giveUp (id : ℕ)

namespace Talk

/-- A request moves on. -/
def move (talk : Talk) (id : ℕ) (phase : TalkPhase) : Talk :=
  { talk with requests := Function.update talk.requests id phase }

@[simp] theorem move_self (talk : Talk) (id : ℕ) (phase : TalkPhase) :
    (talk.move id phase).requests id = phase :=
  Function.update_self ..

@[simp] theorem move_of_ne (talk : Talk) {id other : ℕ} (phase : TalkPhase) (hne : other ≠ id) :
    (talk.move id phase).requests other = talk.requests other :=
  Function.update_of_ne hne ..

/-- A transaction commits and its request moves on. -/
def commit (talk : Talk) (id : ℕ) (phase : TalkPhase) (db : Database) : Talk :=
  { talk.move id phase with db }

/-- The rows of the conversation. -/
def messages (conversationId : Uuid) (talk : Talk) : List Message :=
  (talk.db .messages).filter fun message => message.conversationId == conversationId

/-- One step of the chat requests of a conversation.  Whatever else happens to the
database leaves the messages of the conversation alone. -/
def next (settings : Settings) (crypto : Crypto) (orgId conversationId : Uuid) (talk : Talk) :
    TalkEvent → Option Talk
  | .tick now => if talk.clock ≤ now then some { talk with clock := now } else none
  | .elsewhere db =>
      let talk' := { talk with db }
      if talk'.messages conversationId = talk.messages conversationId then some talk' else none
  | .request id userId viaApiKey question =>
      match talk.requests id with
      | .idle =>
          match serve settings crypto talk.clock orgId userId viaApiKey
              (.chat conversationId question) (.start .appUser talk.clock talk.db) with
          | .ok (.streaming turn, _) => some (talk.move id (.requested turn))
          | _ => none
      | _ => none
  | .beginAsk id =>
      match talk.requests id with
      | .requested turn => some (talk.move id (.asking turn talk.clock))
      | _ => none
  | .ask id messageId =>
      match talk.requests id with
      | .asking turn began =>
          match persistUserTurn turn messageId (.start .appUser began talk.db) with
          | .ok (_, conn) => some (talk.commit id (.asked turn) conn.db)
          | .error _ => none
      | _ => none
  | .beginAnswer id =>
      match talk.requests id with
      | .asked turn => some (talk.move id (.answering turn talk.clock))
      | _ => none
  | .answer id engine astream draw =>
      match talk.requests id with
      | .answering turn began =>
          -- the row carries the time the transaction began, not that of the commit
          match answerTurn settings engine astream turn draw talk.clock
              (.start .appUser began talk.db) with
          | .ok (_, conn) => some (talk.commit id .answered conn.db)
          | .error _ => none
      | _ => none
  | .giveUp id =>
      match talk.requests id with
      | .requested _ | .asking _ _ => some (talk.move id .dropped)
      | .asked _ | .answering _ _ => some (talk.move id .unanswered)
      | _ => none

/-- No request has begun, and the conversation has no message. -/
structure Start (conversationId : Uuid) (talk : Talk) : Prop where
  idle : ∀ id, talk.requests id = .idle
  empty : ∀ message ∈ talk.db .messages, message.conversationId ≠ conversationId

abbrev Runs (settings : Settings) (crypto : Crypto) (orgId conversationId : Uuid) :
    Talk → List TalkEvent → Talk → Prop :=
  Run fun talk event talk' => next settings crypto orgId conversationId talk event = some talk'

/-- The messages of the conversation in the order they are replayed. -/
def stored (conversationId : Uuid) (talk : Talk) : List (MessageRole × Str) :=
  (oldestFirst Message.createdAt (talk.messages conversationId)).map fun message =>
    (message.role, message.content)

/-- No turn is half stored. -/
def Settled (talk : Talk) : Prop := ∀ id, (talk.requests id).isOpen = false

/-- Every turn began to be stored when none was half stored. -/
def OneAtATime (settings : Settings) (crypto : Crypto) (orgId conversationId : Uuid) (start : Talk)
    (trace : List TalkEvent) : Prop :=
  ∀ before id talk, before ++ [.beginAsk id] <+: trace →
    Runs settings crypto orgId conversationId start before talk → talk.Settled

/-- The two roles take turns. -/
def Alternates (messages : List (MessageRole × Str)) : Prop :=
  messages.IsChain fun message later => message.1 ≠ later.1

/-! ## What is replayed -/

section Spec

variable {settings : Settings} {crypto : Crypto} {orgId conversationId : Uuid}
  {start talk talk' : Talk} {trace : List TalkEvent} {event : TalkEvent}

/-- The turn a request starts, with the messages it reads. -/
theorem turn_of_chat {conn conn' : Conn} {principal : Principal} {question : Str}
    {turn : ChatTurn} (h : (chat settings principal conversationId question).Runs conn turn conn') :
    turn.orgId = principal.orgId ∧ turn.conversationId = conversationId ∧
      turn.question = question ∧ turn.history = lastItems settings.maxHistoryMessages
        ((oldestFirst Message.createdAt ((conn.db .messages).filter fun message =>
          conn.policy.visible .messages message && message.conversationId == conversationId)).map
            fun message => (message.role, message.content)) := by
  simp only [chat, getConversation, conversationMessages, Program.runs_bind, runs_scalars,
    Program.runs_pure] at h
  obtain ⟨_, _, hconversation, _, _, ⟨messages, _, ⟨hmessages, rfl⟩, rfl, rfl⟩, rfl, rfl⟩ := h
  obtain ⟨rfl, _⟩ := of_runs_getOr404 hconversation
  unfold Policy.selectRows at hmessages
  split at hmessages
  · cases hmessages
    exact ⟨rfl, rfl, rfl, rfl⟩
  · cases hmessages

/-- What a step does. -/
inductive Step (orgId conversationId : Uuid) (talk : Talk) : TalkEvent → Talk → Prop
  | tick {now : Time} : talk.clock ≤ now →
      Step orgId conversationId talk (.tick now) { talk with clock := now }
  | elsewhere {db : Database} :
      messages conversationId { talk with db } = talk.messages conversationId →
      Step orgId conversationId talk (.elsewhere db) { talk with db }
  | request {id : ℕ} {userId : Uuid} {viaApiKey : Bool} {question : Str} {turn : ChatTurn} :
      talk.requests id = .idle → turn.orgId = orgId → turn.conversationId = conversationId →
      Step orgId conversationId talk (.request id userId viaApiKey question)
        (talk.move id (.requested turn))
  | beginAsk {id : ℕ} {turn : ChatTurn} : talk.requests id = .requested turn →
      Step orgId conversationId talk (.beginAsk id) (talk.move id (.asking turn talk.clock))
  | ask {id : ℕ} {messageId : Uuid} {turn : ChatTurn} {began : Time} {db : Database} :
      talk.requests id = .asking turn began →
      db .messages = talk.db .messages ++
        [messageRow turn .user turn.question none messageId began] →
      Step orgId conversationId talk (.ask id messageId) (talk.commit id (.asked turn) db)
  | beginAnswer {id : ℕ} {turn : ChatTurn} : talk.requests id = .asked turn →
      Step orgId conversationId talk (.beginAnswer id) (talk.move id (.answering turn talk.clock))
  | answer {id : ℕ} {engine : SearchEngine}
      {astream : Str → List (MessageRole × Str) → Except Str (List Str × Generation)}
      {draw : AnswerDraw} {turn : ChatTurn} {began : Time} {text : Str}
      {citations : List Citation} {db : Database} :
      talk.requests id = .answering turn began →
      db .messages = talk.db .messages ++ [messageRow turn .assistant text
        (storedCitations citations) draw.messageId began] →
      Step orgId conversationId talk (.answer id engine astream draw) (talk.commit id .answered db)
  | drop {id : ℕ} {turn : ChatTurn} : talk.requests id = .requested turn ∨
        (∃ began, talk.requests id = .asking turn began) →
      Step orgId conversationId talk (.giveUp id) (talk.move id .dropped)
  | abandon {id : ℕ} {turn : ChatTurn} : talk.requests id = .asked turn ∨
        (∃ began, talk.requests id = .answering turn began) →
      Step orgId conversationId talk (.giveUp id) (talk.move id .unanswered)

/-- A request that starts a turn has read the messages its session sees. -/
theorem turn_of_request {id : ℕ} {userId : Uuid} {viaApiKey : Bool} {question : Str}
    (h : next settings crypto orgId conversationId talk (.request id userId viaApiKey question) =
      some talk') :
    talk.requests id = .idle ∧ ∃ turn, talk' = talk.move id (.requested turn) ∧
      turn.orgId = orgId ∧ turn.conversationId = conversationId ∧ turn.question = question ∧
      turn.history = lastItems settings.maxHistoryMessages
        ((oldestFirst Message.createdAt ((talk.db .messages).filter fun message =>
          message.orgId == orgId && message.conversationId == conversationId)).map
            fun message => (message.role, message.content)) := by
  simp only [next] at h
  split at h
  · next hidle =>
    split at h
    · next turn conn hserve =>
        cases h
        unfold serve at hserve
        obtain ⟨principal, _, hguard, hhandle⟩ := Program.runs_bind.mp hserve
        obtain ⟨rfl, hadmitted⟩ := guardPrincipal_eq_ok hguard
        obtain ⟨_, hchat, hturn⟩ := Program.runs_map.mp hhandle
        cases hturn
        obtain ⟨horg, hconversation, hquestion, hhistory⟩ := turn_of_chat hchat
        exact ⟨hidle, turn, rfl, horg.trans hadmitted.bound, hconversation, hquestion, hhistory⟩
    · cases h
  · cases h

/-- The second transaction adds one message, the answer. -/
theorem messages_of_answerTurn {conn conn' : Conn} {turn : ChatTurn} {engine : SearchEngine}
    {astream : Str → List (MessageRole × Str) → Except Str (List Str × Generation)}
    {draw : AnswerDraw} {now : Time} {out : AnswerOut} (hrole : conn.role = .appUser)
    (h : (answerTurn settings engine astream turn draw now).Runs conn out conn') :
    ∃ text citations, conn'.db .messages = conn.db .messages ++
      [messageRow turn .assistant text (storedCitations citations) draw.messageId conn.now] := by
  obtain ⟨_, _, _, _, hwrote⟩ := answerTurn_eq_ok hrole h
  obtain ⟨_, hmessage, _, hevent, hdb⟩ := hwrote.executes
  obtain ⟨rfl, _⟩ := Policy.insertRow_eq_ok hmessage
  obtain ⟨rfl, _⟩ := Policy.insertRow_eq_ok hevent
  refine ⟨out.tokens.flatten, out.citations, ?_⟩
  rw [← hdb, Database.insert_of_ne _ (by decide), Database.insert_self]

theorem step_of_next (h : next settings crypto orgId conversationId talk event = some talk') :
    Step orgId conversationId talk event talk' := by
  cases event with
  | tick now =>
      simp only [next] at h
      split at h
      · next hclock =>
          cases h
          exact .tick hclock
      · cases h
  | elsewhere db =>
      simp only [next] at h
      split at h
      · next hsame =>
          cases h
          exact .elsewhere hsame
      · cases h
  | request id userId viaApiKey question =>
      obtain ⟨hidle, turn, rfl, horg, hconversation, _⟩ := turn_of_request h
      exact .request hidle horg hconversation
  | beginAsk id =>
      simp only [next] at h
      split at h
      · next turn hphase =>
          cases h
          exact .beginAsk hphase
      · cases h
  | ask id messageId =>
      simp only [next] at h
      split at h
      · next turn began hphase =>
          split at h
          · next conn hasked =>
              cases h
              have hmessages : conn.db .messages = talk.db .messages ++
                  [messageRow turn .user turn.question none messageId began] := by
                rw [(persistUserTurn_eq_ok hasked).insert.1]
                exact Relational.Database.insert_self _
              exact .ask hphase hmessages
          · cases h
      · cases h
  | beginAnswer id =>
      simp only [next] at h
      split at h
      · next turn hphase =>
          cases h
          exact .beginAnswer hphase
      · cases h
  | answer id engine astream draw =>
      simp only [next] at h
      split at h
      · next turn began hphase =>
          split at h
          · next out conn hanswered =>
              cases h
              obtain ⟨text, citations, hmessages⟩ := messages_of_answerTurn rfl hanswered
              exact .answer hphase hmessages
          · cases h
      · cases h
  | giveUp id =>
      simp only [next] at h
      split at h
      · next turn hphase =>
          cases h
          exact .drop (.inl hphase)
      · next turn began hphase =>
          cases h
          exact .drop (.inr ⟨began, hphase⟩)
      · next turn hphase =>
          cases h
          exact .abandon (.inl hphase)
      · next turn began hphase =>
          cases h
          exact .abandon (.inr ⟨began, hphase⟩)
      · cases h

/-! ## Whose messages they are -/

/-- A transaction that adds a message of the conversation. -/
theorem messages_commit {id : ℕ} {phase : TalkPhase} {db : Database} {message : Message}
    (hdb : db .messages = talk.db .messages ++ [message])
    (hconversation : message.conversationId = conversationId) :
    (talk.commit id phase db).messages conversationId =
      talk.messages conversationId ++ [message] := by
  show (db .messages).filter _ = _
  rw [hdb, List.filter_append]
  simp [messages, hconversation]

/-- The turns belong to the conversation, and its messages to the organization. -/
structure Sane (orgId conversationId : Uuid) (talk : Talk) : Prop where
  owned : ∀ message ∈ talk.messages conversationId, message.orgId = orgId
  turns : ∀ id turn, (talk.requests id).turn = some turn →
    turn.orgId = orgId ∧ turn.conversationId = conversationId

/-- A request that moves on with its own turn, or with none. -/
theorem Sane.move (h : Sane orgId conversationId talk) {id : ℕ} {phase : TalkPhase}
    (hphase : ∀ turn, phase.turn = some turn →
      turn.orgId = orgId ∧ turn.conversationId = conversationId) :
    Sane orgId conversationId (talk.move id phase) := by
  refine ⟨h.owned, fun other turn hturn => ?_⟩
  rcases eq_or_ne other id with rfl | hne
  · rw [move_self] at hturn
    exact hphase turn hturn
  · rw [move_of_ne _ _ hne] at hturn
    exact h.turns other turn hturn

/-- A transaction that adds a message of the turn a request is at work on. -/
theorem Sane.commit (h : Sane orgId conversationId talk) {id : ℕ} {phase : TalkPhase}
    {db : Database} {turn : ChatTurn} {role : MessageRole} {content : Str}
    {citations : Option (List Citation)} {messageId : Uuid} {began : Time}
    (hturn : (talk.requests id).turn = some turn) (hphase : phase.turn = some turn ∨ phase.turn = none)
    (hdb : db .messages =
      talk.db .messages ++ [messageRow turn role content citations messageId began]) :
    Sane orgId conversationId (talk.commit id phase db) := by
  obtain ⟨horg, hconversation⟩ := h.turns id turn hturn
  have hmoved : Sane orgId conversationId (talk.move id phase) := by
    refine h.move fun later hlater => ?_
    rcases hphase with hsame | hnone
    · cases hsame.symm.trans hlater
      exact ⟨horg, hconversation⟩
    · cases hnone.symm.trans hlater
  refine ⟨fun message hmessage => ?_, hmoved.turns⟩
  rw [messages_commit hdb hconversation] at hmessage
  rcases List.mem_append.mp hmessage with hmem | hnew
  · exact h.owned message hmem
  · rw [List.mem_singleton.mp hnew]
    exact horg

theorem Sane.step (h : Sane orgId conversationId talk)
    (hstep : Step orgId conversationId talk event talk') : Sane orgId conversationId talk' := by
  cases hstep with
  | tick => exact ⟨h.owned, h.turns⟩
  | elsewhere hsame =>
      refine ⟨fun message hmessage => ?_, h.turns⟩
      rw [hsame] at hmessage
      exact h.owned message hmessage
  | request _ horg hconversation =>
      refine h.move fun turn hturn => ?_
      cases hturn
      exact ⟨horg, hconversation⟩
  | @beginAsk id turn hphase =>
      have hturn : (talk.requests id).turn = some turn := by rw [hphase]; rfl
      refine h.move fun later hlater => ?_
      cases hlater
      exact h.turns id _ hturn
  | ask hphase hdb => exact h.commit (by rw [hphase]; rfl) (.inl rfl) hdb
  | @beginAnswer id turn hphase =>
      have hturn : (talk.requests id).turn = some turn := by rw [hphase]; rfl
      refine h.move fun later hlater => ?_
      cases hlater
      exact h.turns id _ hturn
  | answer hphase hdb => exact h.commit (by rw [hphase]; rfl) (.inr rfl) hdb
  | drop => exact h.move fun _ hturn => by cases hturn
  | abandon => exact h.move fun _ hturn => by cases hturn

theorem sane_of_runs (hstart : Start conversationId start)
    (hrun : Runs settings crypto orgId conversationId start trace talk) :
    Sane orgId conversationId talk := by
  refine hrun.keeps (fun _ _ _ h hnext => h.step (step_of_next hnext)) ⟨?_, ?_⟩
  · intro message hmessage
    obtain ⟨hmem, hconversation⟩ := List.mem_filter.mp hmessage
    exact absurd (beq_iff_eq.mp hconversation) (hstart.empty message hmem)
  · intro id turn hturn
    rw [hstart.idle id] at hturn
    cases hturn

/-! ## The order of the messages -/

/-- Who speaks at a position of the conversation. -/
def speaker (position : ℕ) : MessageRole :=
  if position % 2 = 0 then .user else .assistant

/-- The conversation while its turns are stored one at a time. -/
structure Orderly (conversationId : Uuid) (talk : Talk) : Prop where
  sorted : (talk.messages conversationId).Pairwise fun message later =>
    message.createdAt ≤ later.createdAt
  past : ∀ message ∈ talk.messages conversationId, message.createdAt ≤ talk.clock
  roles : (talk.messages conversationId).map Message.role =
    (List.range (talk.messages conversationId).length).map speaker
  alone : ∀ id other, (talk.requests id).isOpen = true → (talk.requests other).isOpen = true →
    id = other
  phase : ∀ id, (talk.requests id).Fits (talk.messages conversationId) talk.clock
  even : talk.Settled → (talk.messages conversationId).length % 2 = 0

/-- A request moves on; it is the only open one if it is open. -/
theorem Orderly.move (h : Orderly conversationId talk) {id : ℕ} {phase : TalkPhase}
    (hfits : phase.Fits (talk.messages conversationId) talk.clock)
    (hopen : phase.isOpen = true → (talk.requests id).isOpen = true ∨ talk.Settled)
    (heven : (talk.move id phase).Settled → (talk.messages conversationId).length % 2 = 0) :
    Orderly conversationId (talk.move id phase) := by
  refine ⟨h.sorted, h.past, h.roles, ?_, ?_, heven⟩
  · have hother : ∀ other, other ≠ id → phase.isOpen = true →
        (talk.requests other).isOpen = false := by
      intro other hne hphase
      rcases hopen hphase with hwas | hsettled
      · by_contra hcontra
        exact hne (h.alone other id (Bool.not_eq_false _ ▸ hcontra) hwas)
      · exact hsettled other
    -- two open requests are both the one that moved, or neither is
    intro first second hfirst hsecond
    by_cases hone : first = id <;> by_cases htwo : second = id
    · rw [hone, htwo]
    · rw [hone, move_self] at hfirst
      rw [move_of_ne _ _ htwo, hother second htwo hfirst] at hsecond
      cases hsecond
    · rw [htwo, move_self] at hsecond
      rw [move_of_ne _ _ hone, hother first hone hsecond] at hfirst
      cases hfirst
    · rw [move_of_ne _ _ hone] at hfirst
      rw [move_of_ne _ _ htwo] at hsecond
      exact h.alone first second hfirst hsecond
  · intro other
    by_cases hsame : other = id
    · rw [hsame, move_self]
      exact hfits
    · rw [move_of_ne _ _ hsame]
      exact h.phase other

/-- The open request adds the next message. -/
theorem Orderly.commit (h : Orderly conversationId talk) {id : ℕ} {phase : TalkPhase}
    {db : Database} {message : Message} (hwas : (talk.requests id).isOpen = true)
    (hdb : db .messages = talk.db .messages ++ [message])
    (hconversation : message.conversationId = conversationId)
    (hlast : ∀ earlier ∈ talk.messages conversationId, earlier.createdAt ≤ message.createdAt)
    (hclock : message.createdAt ≤ talk.clock)
    (hrole : message.role = speaker (talk.messages conversationId).length)
    (hfits : phase.Fits (talk.messages conversationId ++ [message]) talk.clock)
    (heven : phase.isOpen = false → ((talk.messages conversationId).length + 1) % 2 = 0) :
    Orderly conversationId (talk.commit id phase db) := by
  have hmessages := @messages_commit conversationId talk id phase db message hdb hconversation
  have hclosed : ∀ other, other ≠ id → (talk.requests other).isOpen = false := by
    intro other hne
    by_contra hcontra
    exact hne (h.alone other id (Bool.not_eq_false _ ▸ hcontra) hwas)
  refine ⟨?_, ?_, ?_, ?_, ?_, ?_⟩
  -- the new row is the latest: every earlier one was there when its transaction began
  · rw [hmessages, List.pairwise_append]
    refine ⟨h.sorted, List.pairwise_singleton _ _, fun earlier hearlier later hlater => ?_⟩
    rw [List.mem_singleton.mp hlater]
    exact hlast earlier hearlier
  · intro found hfound
    rw [hmessages] at hfound
    rcases List.mem_append.mp hfound with hmem | hnew
    · exact h.past found hmem
    · rw [List.mem_singleton.mp hnew]
      exact hclock
  -- its role is the one whose turn it is
  · rw [hmessages, List.length_append, List.length_singleton, List.range_succ, List.map_append,
      List.map_append, h.roles, List.map_singleton, List.map_singleton, hrole]
  · intro first second hfirst hsecond
    by_contra hne
    rcases Classical.em (first = id) with hone | hone
    · have htwo : second ≠ id := fun heq => hne (hone.trans heq.symm)
      rw [show (talk.commit id phase db).requests second = talk.requests second from
        move_of_ne _ _ htwo, hclosed second htwo] at hsecond
      cases hsecond
    · rw [show (talk.commit id phase db).requests first = talk.requests first from
        move_of_ne _ _ hone, hclosed first hone] at hfirst
      cases hfirst
  · intro other
    rw [hmessages]
    by_cases hsame : other = id
    · rw [hsame, show (talk.commit id phase db).requests id = phase from move_self ..]
      exact hfits
    · rw [show (talk.commit id phase db).requests other = talk.requests other from
        move_of_ne _ _ hsame]
      exact TalkPhase.fits_of_closed (hclosed other hsame)
  · intro hsettled
    rw [hmessages, List.length_append, List.length_singleton]
    refine heven ?_
    rw [← show (talk.commit id phase db).requests id = phase from move_self ..]
    exact hsettled id

theorem settled_of_move {id : ℕ} {phase : TalkPhase} (hwas : (talk.requests id).isOpen = false)
    (h : (talk.move id phase).Settled) : talk.Settled := by
  intro other
  rcases eq_or_ne other id with rfl | hne
  · exact hwas
  · rw [← move_of_ne talk phase hne]
    exact h other

theorem not_settled_of_move {id : ℕ} {phase : TalkPhase} (hopen : phase.isOpen = true) :
    ¬(talk.move id phase).Settled := by
  intro h
  have hclosed := h id
  rw [move_self, hopen] at hclosed
  cases hclosed

theorem Orderly.step (h : Orderly conversationId talk) (sane : Sane orgId conversationId talk)
    (halone : ∀ id, event = .beginAsk id → talk.Settled)
    (hstep : Step orgId conversationId talk event talk') : Orderly conversationId talk' := by
  cases hstep with
  | tick hclock =>
      exact ⟨h.sorted, fun message hmessage => (h.past message hmessage).trans hclock, h.roles,
        h.alone, fun id => (h.phase id).later hclock, h.even⟩
  | elsewhere hsame =>
      refine ⟨?_, ?_, ?_, h.alone, ?_, ?_⟩
      · rw [hsame]
        exact h.sorted
      · rw [hsame]
        exact h.past
      · rw [hsame]
        exact h.roles
      · rw [hsame]
        exact h.phase
      · rw [hsame]
        exact h.even
  | @request id _ _ _ turn hidle =>
      have hclosed : (talk.requests id).isOpen = false := by rw [hidle]; rfl
      exact h.move trivial (fun hopen => by cases hopen) fun hsettled =>
        h.even (settled_of_move hclosed hsettled)
  | @beginAsk id turn hphase =>
      have hsettled : talk.Settled := halone id rfl
      -- a turn begins after a whole number of turns, so the user speaks next
      exact h.move ⟨h.even hsettled, le_rfl, h.past⟩ (fun _ => .inr hsettled) fun hcontra =>
        absurd hcontra (not_settled_of_move rfl)
  | @ask id messageId turn began db hphase hdb =>
      obtain ⟨heven, hclock, hlast⟩ : (TalkPhase.asking turn began).Fits _ _ := hphase ▸ h.phase id
      have hconversation := (sane.turns id turn (by rw [hphase]; rfl)).2
      refine h.commit (by rw [hphase]; rfl) hdb hconversation hlast hclock ?_ ?_ ?_
      · exact (if_pos heven).symm
      · show (_ ++ [_]).length % 2 = 1
        rw [List.length_append, List.length_singleton]
        omega
      · exact fun hcontra => by cases hcontra
  | @beginAnswer id turn hphase =>
      have hodd : (TalkPhase.asked turn).Fits _ _ := hphase ▸ h.phase id
      exact h.move ⟨hodd, le_rfl, h.past⟩ (fun _ => .inl (by rw [hphase]; rfl)) fun hcontra =>
        absurd hcontra (not_settled_of_move rfl)
  | @answer id _ _ draw turn began text citations db hphase hdb =>
      obtain ⟨hodd, hclock, hlast⟩ : (TalkPhase.answering turn began).Fits _ _ :=
        hphase ▸ h.phase id
      have hconversation := (sane.turns id turn (by rw [hphase]; rfl)).2
      refine h.commit (by rw [hphase]; rfl) hdb hconversation hlast hclock ?_ trivial ?_
      · refine (if_neg ?_).symm
        omega
      · intro _
        omega
  | @drop id turn hwas =>
      refine h.move trivial (fun hopen => by cases hopen) fun hsettled => ?_
      rcases hwas with hphase | ⟨began, hphase⟩
      · exact h.even (settled_of_move (by rw [hphase]; rfl) hsettled)
      · have hasking : (TalkPhase.asking turn began).Fits _ _ := hphase ▸ h.phase id
        exact hasking.1
  | @abandon id turn hwas =>
      refine h.move trivial (fun _ => .inl ?_) fun hcontra =>
        absurd hcontra (not_settled_of_move rfl)
      rcases hwas with hphase | ⟨began, hphase⟩ <;> rw [hphase] <;> rfl

theorem OneAtATime.earlier {events : List TalkEvent}
    (h : OneAtATime settings crypto orgId conversationId start (trace ++ events)) :
    OneAtATime settings crypto orgId conversationId start trace :=
  fun before id talk hearlier => h before id talk (hearlier.trans (List.prefix_append _ _))

theorem orderly_of_runs (hstart : Start conversationId start)
    (hrun : Runs settings crypto orgId conversationId start trace talk)
    (halone : OneAtATime settings crypto orgId conversationId start trace) :
    Orderly conversationId talk := by
  have hnone : start.messages conversationId = [] := by
    refine List.filter_eq_nil_iff.mpr fun message hmem hconversation => ?_
    exact hstart.empty message hmem (beq_iff_eq.mp hconversation)
  refine hrun.invariant (P := fun trace talk =>
    OneAtATime settings crypto orgId conversationId start trace → Orderly conversationId talk)
    ?_ ?_ halone
  · intro _
    refine ⟨?_, ?_, ?_, ?_, ?_, ?_⟩
    · rw [hnone]
      exact .nil
    · rw [hnone]
      exact fun _ hmem => absurd hmem List.not_mem_nil
    · rw [hnone]
      rfl
    · intro id _ hopen
      rw [hstart.idle id] at hopen
      cases hopen
    · intro id
      rw [hstart.idle id]
      trivial
    · intro _
      rw [hnone]
      rfl
  · intro trace middle event last hmiddle ih hnext hwhole
    refine (ih hwhole.earlier).step (sane_of_runs hstart hmiddle) ?_ (step_of_next hnext)
    rintro id rfl
    exact hwhole trace id middle (List.prefix_refl _) hmiddle

/-! ## What is replayed -/

theorem speaker_succ (position : ℕ) : speaker (position + 1) ≠ speaker position := by
  unfold speaker
  rcases Nat.mod_two_eq_zero_or_one position with h | h
  · rw [if_pos h, if_neg (by omega)]
    decide
  · rw [if_pos (by omega), if_neg (by omega)]
    decide

/-- Messages spoken at consecutive positions alternate. -/
theorem alternates_of_speakers {messages : List (MessageRole × Str)} {position count : ℕ}
    (h : messages.map Prod.fst = (List.range' position count).map speaker) :
    Alternates messages := by
  have hpositions : (List.range' position count).IsChain fun first second =>
      speaker first ≠ speaker second := by
    refine (List.isChain_range' position count 1).imp fun first second hnext => ?_
    rw [hnext]
    exact (speaker_succ first).symm
  have hroles : (messages.map Prod.fst).IsChain (· ≠ ·) := by
    rw [h]
    exact (List.isChain_map speaker).mpr hpositions
  exact (List.isChain_map Prod.fst).mp hroles

/-- Rows in order of time are replayed in this order. -/
theorem Orderly.stored_eq (h : Orderly conversationId talk) :
    talk.stored conversationId = (talk.messages conversationId).map fun message =>
      (message.role, message.content) := by
  unfold stored oldestFirst
  rw [h.sorted.insertionSort_eq]

/-- The speakers of a settled conversation, from a position on, and of a question after it. -/
theorem Orderly.speakers (h : Orderly conversationId talk) (hsettled : talk.Settled)
    {position : ℕ} (hposition : position ≤ (talk.stored conversationId).length) (question : Str) :
    ((talk.stored conversationId).drop position ++ [(MessageRole.user, question)]).map Prod.fst =
      (List.range' position ((talk.stored conversationId).length - position + 1)).map speaker := by
  have hroles : (talk.stored conversationId).map Prod.fst =
      (List.range (talk.stored conversationId).length).map speaker := by
    rw [h.stored_eq, List.map_map, List.length_map]
    exact h.roles
  have heven : (talk.stored conversationId).length % 2 = 0 := by
    rw [h.stored_eq, List.length_map]
    exact h.even hsettled
  have hlast : speaker (talk.stored conversationId).length = .user := if_pos heven
  rw [List.map_append, List.map_drop, hroles, ← List.map_drop, List.range_eq_range',
    List.drop_range', List.range'_concat, List.map_append]
  congr 1
  · simp
  · rw [List.map_singleton, List.map_singleton, show position + 1 * ((talk.stored
      conversationId).length - position) = (talk.stored conversationId).length by omega, hlast]

/-- A request replays the end of what is stored.  When the turns before it were
completed one at a time, its messages alternate, and they begin with the user
exactly when the number of messages kept is even or all of them are kept. -/
theorem request_replays (hstart : Start conversationId start)
    (hrun : Runs settings crypto orgId conversationId start trace talk) {id : ℕ} {userId : Uuid}
    {viaApiKey : Bool} {question : Str} (hkeeps : 1 ≤ settings.maxHistoryMessages)
    (hnext : next settings crypto orgId conversationId talk
      (.request id userId viaApiKey question) = some talk') :
    let stored := talk.stored conversationId
    let kept := settings.maxHistoryMessages
    ∃ turn, talk'.requests id = .requested turn ∧
      promptMessages turn = turn.history ++ [(.user, question)] ∧
      turn.history = stored.drop (stored.length - kept) ∧
      turn.history.length = min kept stored.length ∧
      (promptMessages turn).length ≤ kept + 1 ∧
      (OneAtATime settings crypto orgId conversationId start trace → talk.Settled →
        Alternates (promptMessages turn) ∧
          ((promptMessages turn).head?.map Prod.fst = some .user ↔
            kept % 2 = 0 ∨ stored.length ≤ kept)) := by
  intro stored kept
  obtain ⟨_, turn, rfl, _, _, hquestion, hhistory⟩ := turn_of_request hnext
  have howned := (sane_of_runs hstart hrun).owned
  -- the filter on the organization drops nothing: the conversation is the caller's
  have hrows : (talk.db .messages).filter (fun message =>
      message.orgId == orgId && message.conversationId == conversationId) =
        talk.messages conversationId := by
    refine List.filter_congr fun message hmem => ?_
    rcases hin : message.conversationId == conversationId with _ | _
    · rw [Bool.and_false]
    · rw [Bool.and_true, howned message (List.mem_filter.mpr ⟨hmem, hin⟩), beq_self_eq_true]
  have hkept : turn.history = stored.drop (stored.length - kept) := by
    rw [hhistory, hrows]
    exact if_neg (by omega)
  have hlength : turn.history.length = min kept stored.length := by
    rw [hkept, List.length_drop]
    omega
  have hprompt : promptMessages turn = turn.history ++ [(.user, question)] := by
    rw [promptMessages, hquestion]
  refine ⟨turn, move_self .., hprompt, hkept, hlength, ?_, fun halone hsettled => ?_⟩
  · rw [hprompt, List.length_append, hlength, List.length_singleton]
    exact Nat.add_le_add_right (min_le_left _ _) 1
  · have horderly := orderly_of_runs hstart hrun halone
    have hspeakers := horderly.speakers hsettled (Nat.sub_le stored.length kept) question
    rw [← show promptMessages turn = stored.drop (stored.length - kept) ++ [(MessageRole.user, question)] by
      rw [hprompt, hkept]] at hspeakers
    refine ⟨alternates_of_speakers hspeakers, ?_⟩
    have hfirst : (promptMessages turn).head?.map Prod.fst =
        some (speaker (stored.length - kept)) := by
      rw [← List.head?_map, hspeakers]
      rfl
    -- settled turns come in pairs, so the window begins with a user exactly at an even offset
    have heven : stored.length % 2 = 0 := by
      show (talk.stored conversationId).length % 2 = 0
      rw [horderly.stored_eq, List.length_map]
      exact horderly.even hsettled
    rw [hfirst, Option.some.injEq]
    unfold speaker
    split <;> simp <;> omega

end Spec

/-! ## Conversations with one earlier turn -/

def quiet : Talk := ⟨talkingDb, 10, fun _ => .idle⟩

def sampleStream (_ : Str) (_ : List (MessageRole × Str)) : Except Str (List Str × Generation) :=
  .ok (["Rain [1].".toList], ⟨⟨7, 2⟩, "stub".toList, "stub".toList⟩)

/-- A turn that is stored completely. -/
def answeredTurn : List TalkEvent :=
  [.request 0 2 false "Why?".toList, .beginAsk 0, .ask 0 5, .tick 11, .beginAnswer 0,
    .answer 0 plainEngine sampleStream ⟨6, 7⟩]

/-- A turn that is given up when its question is stored. -/
def givenUpTurn : List TalkEvent :=
  [.request 0 2 false "Why?".toList, .beginAsk 0, .ask 0 5, .giveUp 0]

/-- The turn that a second question starts. -/
def secondTurn (history : List (MessageRole × Str)) : ChatTurn where
  orgId := 1
  userId := 2
  conversationId := 3
  question := "When?".toList
  history := history

theorem start_quiet : Start 3 quiet := ⟨fun _ => rfl, fun _ hmem => nomatch hmem⟩

/-- A request that did not arrive is idle. -/
theorem idle_of_runs (hstart : Start conversationId start)
    (hrun : Runs settings crypto orgId conversationId start trace talk) {id : ℕ}
    (hnever : ∀ userId viaApiKey question, .request id userId viaApiKey question ∉ trace) :
    talk.requests id = .idle := by
  have hmoved : ∀ {middle : Talk} {other : ℕ} {phase : TalkPhase}, middle.requests id = .idle →
      middle.requests other ≠ .idle → (middle.move other phase).requests id = .idle := by
    intro middle other phase hidle hbusy
    rw [move_of_ne]
    · exact hidle
    · rintro rfl
      exact hbusy hidle
  refine hrun.invariant (P := fun trace talk =>
    (∀ userId viaApiKey question, .request id userId viaApiKey question ∉ trace) →
      talk.requests id = .idle) (fun _ => hstart.idle id) ?_ hnever
  intro trace middle event last _ ih hnext hwhole
  have hidle := ih fun userId viaApiKey question hmem =>
    hwhole userId viaApiKey question (List.mem_append_left _ hmem)
  -- the other steps need a request that is not idle, so it is another one's
  cases step_of_next hnext with
  | tick => exact hidle
  | elsewhere => exact hidle
  | @request other userId viaApiKey question =>
      rw [move_of_ne]
      · exact hidle
      · rintro rfl
        exact hwhole userId viaApiKey question (List.mem_append_right _ (List.mem_singleton_self _))
  | beginAsk hphase => exact hmoved hidle (by simp [hphase])
  | ask hphase => exact hmoved hidle (by simp [hphase])
  | beginAnswer hphase => exact hmoved hidle (by simp [hphase])
  | answer hphase => exact hmoved hidle (by simp [hphase])
  | drop hphase =>
      refine hmoved hidle ?_
      rcases hphase with hphase | ⟨_, hphase⟩ <;> simp [hphase]
  | abandon hphase =>
      refine hmoved hidle ?_
      rcases hphase with hphase | ⟨_, hphase⟩ <;> simp [hphase]

/-- The only turn of the sample began to be stored when none was half stored. -/
theorem oneAtATime_answered : OneAtATime {} sampleCrypto 1 3 quiet answeredTurn := by
  intro before id talk hearlier hrun other
  obtain ⟨rest, hrest⟩ := hearlier
  have hlength : before.length < 6 := by
    have hwhole := congrArg List.length hrest
    simp [answeredTurn] at hwhole
    omega
  have hevent : answeredTurn[before.length]? = some (.beginAsk id) := by
    rw [← hrest]
    simp
  have hbefore : before = answeredTurn.take before.length := by
    rw [← hrest]
    simp
  generalize before.length = length at hlength hevent hbefore
  interval_cases length <;> simp [answeredTurn] at hevent
  rw [hbefore] at hrun
  obtain ⟨_, turn, rfl, _⟩ := turn_of_request hrun.of_single
  rcases eq_or_ne other 0 with rfl | hne
  · rw [move_self]
    rfl
  · rw [move_of_ne _ _ hne]
    rfl

/-- The turn that is replayed alternates when the earlier turn was answered. -/
theorem request_replays_answered : ∃ talk talk' turn,
    Runs {} sampleCrypto 1 3 quiet answeredTurn talk ∧
    next {} sampleCrypto 1 3 talk (.request 1 2 false "When?".toList) = some talk' ∧
    talk'.requests 1 = .requested turn ∧ Alternates (promptMessages turn) := by
  have hreplay : (replay (next {} sampleCrypto 1 3) quiet answeredTurn).map (fun talk =>
      ((talk.requests 0).isOpen, (next {} sampleCrypto 1 3 talk
        (.request 1 2 false "When?".toList)).isSome)) = some (false, true) := by
    decide +kernel
  obtain ⟨talk, htalk, hlast⟩ := Option.map_eq_some_iff.mp hreplay
  obtain ⟨hclosed, hnext⟩ := Prod.mk.inj hlast
  obtain ⟨talk', hnext⟩ := Option.isSome_iff_exists.mp hnext
  have hrun := run_of_replay _ _ _ _ htalk
  have hsettled : talk.Settled := by
    intro id
    rcases eq_or_ne id 0 with rfl | hne
    · exact hclosed
    · rw [idle_of_runs start_quiet hrun fun userId viaApiKey question => by
        simp [answeredTurn, hne]]
      rfl
  obtain ⟨turn, hturn, _, _, _, _, horder⟩ :=
    request_replays start_quiet hrun (by decide) hnext
  exact ⟨talk, talk', turn, hrun, hnext, hturn, (horder oneAtATime_answered hsettled).1⟩

/-- A question without an answer is followed by the next question, and an odd
number of messages begins with an answer. -/
theorem givenUpTurn_replayed :
    (∃ talk talk' turn, Runs {} sampleCrypto 1 3 quiet givenUpTurn talk ∧
      next {} sampleCrypto 1 3 talk (.request 1 2 false "When?".toList) = some talk' ∧
      talk'.requests 1 = .requested turn ∧ ¬Alternates (promptMessages turn)) ∧
    ∃ talk talk' turn, Runs { maxHistoryMessages := 1 } sampleCrypto 1 3 quiet answeredTurn talk ∧
      next { maxHistoryMessages := 1 } sampleCrypto 1 3 talk
        (.request 1 2 false "When?".toList) = some talk' ∧
      talk'.requests 1 = .requested turn ∧
      (promptMessages turn).head?.map Prod.fst = some .assistant := by
  have hgivenUp : (replay (next {} sampleCrypto 1 3) quiet
      (givenUpTurn ++ [.request 1 2 false "When?".toList])).map (fun talk => talk.requests 1) =
        some (.requested (secondTurn [(.user, "Why?".toList)])) := by
    decide +kernel
  have hanswered : (replay (next { maxHistoryMessages := 1 } sampleCrypto 1 3) quiet
      (answeredTurn ++ [.request 1 2 false "When?".toList])).map (fun talk => talk.requests 1) =
        some (.requested (secondTurn [(.assistant, "Rain [1].".toList)])) := by
    decide +kernel
  obtain ⟨last, hlast, hturn⟩ := Option.map_eq_some_iff.mp hgivenUp
  obtain ⟨talk, hrun, hnext⟩ := (run_of_replay _ _ _ _ hlast).split
  obtain ⟨last', hlast', hturn'⟩ := Option.map_eq_some_iff.mp hanswered
  obtain ⟨talk', hrun', hnext'⟩ := (run_of_replay _ _ _ _ hlast').split
  refine ⟨⟨talk, last, _, hrun, hnext.of_single, hturn, ?_⟩,
    talk', last', _, hrun', hnext'.of_single, hturn', rfl⟩
  simp [Alternates, promptMessages, secondTurn]

end Talk

end Api
