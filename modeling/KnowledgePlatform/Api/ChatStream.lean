import KnowledgePlatform.Api.Chat
import KnowledgePlatform.Api.Sse
import KnowledgePlatform.Foundations.Runs

/-!
# The stream of a chat turn

`event_stream` step by step.  The graph runs ahead of its consumer: the tokens of
the `generate` node and the state after each node wait in a queue until
`stream_answer` takes them, so the answer is put together twice, by the node and
by the consumer.  The client may go away, and a call may raise, between any two
steps (`abort`); an open transaction is rolled back then.

The outcome says what is committed and what was sent whenever the turn stops;
`answerTurn_of_runs` says that a turn that commits its answer has executed the
transaction `answerTurn`.
-/

open Core Foundations Python Relational

namespace Api

/-- The state of the graph, as far as its nodes have filled it in. -/
structure RagState where
  hits : List SearchHit := []
  systemPrompt : Str := []
  answer : Str := []
  generation : Generation := ⟨{}, [], []⟩
  citations : List Citation := []
  deriving DecidableEq

/-- What the graph streams: tokens, and its state at the start and after each
node. -/
inductive Chunk
  | custom (token : Str)
  | values (state : RagState)
  deriving DecidableEq

/-- The node that runs next; `generate` has yielded some parts. -/
inductive Node
  | generate (parts : List Str)
  | cite
  | ended
  deriving DecidableEq

/-- The second transaction while the answer is streamed. -/
structure Streaming where
  conn : Conn
  node : Node
  state : RagState
  queue : List Chunk
  final : RagState
  parts : List Str

/-- How far the generator has come. -/
inductive TurnStage
  | opened
  | asked
  | streaming (stream : Streaming)
  | answered (conn : Conn) (answer : Str) (final : RagState)
  | recorded (conn : Conn) (answer : Str) (citations : List Citation) (crossed : Bool)
  | committed (answer : Str) (citations : List Citation) (crossed : Bool)
  | cited (answer : Str)
  | finished
  | aborted

/-- A turn with the committed database, the events sent so far, and the
organizations and conversations for which a budget alert was enqueued. -/
structure TurnState where
  stage : TurnStage
  db : Database
  sent : List ChatEvent
  alerts : List (Uuid × Uuid)

inductive TurnEvent
  | ask (messageId : Uuid) (began : Time)
  | retrieve (began : Time) (hits : List SearchHit)
  | token (text : Str)
  | generated (generation : Generation)
  | cite
  | take
  | drained
  | record (draw : AnswerDraw) (now : Time)
  | commit
  | enqueueAlert
  | sendCitations
  | sendDone
  | abort

namespace TurnState

/-- The turn moves on within its transactions. -/
def moveTo (state : TurnState) (stage : TurnStage) : TurnState := { state with stage }

/-- An event is sent to the client. -/
def send (state : TurnState) (event : ChatEvent) (stage : TurnStage) : TurnState :=
  { state with stage, sent := state.sent ++ [event] }

end TurnState

/-- The start of the second transaction, up to the end of the `retrieve` node. -/
def openAnswer (settings : Settings) (engine : SearchEngine) (turn : ChatTurn) :
    Tx (List SearchHit × Str) := do
  setOrgContext turn.orgId
  retrieve settings engine turn.question

/-- A step of the graph while its stream is consumed. -/
def nextNode (stream : Streaming) : TurnEvent → Option Streaming
  | .token text =>
      match stream.node with
      | .generate parts => some { stream with
          node := .generate (parts ++ [text])
          queue := stream.queue ++ [.custom text] }
      | _ => none
  | .generated generation =>
      match stream.node with
      | .generate parts =>
          let generated := { stream.state with answer := parts.flatten, generation }
          some { stream with
            node := .cite
            state := generated
            queue := stream.queue ++ [.values generated] }
      | _ => none
  | .cite =>
      match stream.node, cite stream.state.answer stream.state.hits with
      | .cite, .ok citations =>
          let resolved := { stream.state with citations }
          some { stream with
            node := .ended
            state := resolved
            queue := stream.queue ++ [.values resolved] }
      | _, _ => none
  | _ => none

/-- The generator and the graph it consumes run on. -/
def runTurn (settings : Settings) (engine : SearchEngine) (turn : ChatTurn) (state : TurnState)
    (event : TurnEvent) : Option TurnState :=
  match state.stage with
  | .opened =>
      match event with
      | .ask messageId began =>
          match persistUserTurn turn messageId (.start .appUser began state.db) with
          | .ok (_, conn) => some { state with stage := .asked, db := conn.db }
          | .error _ => none
      | _ => none
  | .asked =>
      match event with
      | .retrieve began hits =>
          match openAnswer settings engine turn (.start .appUser began state.db) with
          | .ok ((found, systemPrompt), conn) =>
              if found = hits then
                -- the mode "values" also yields the input, before the first node runs
                let retrieved : RagState := { hits, systemPrompt }
                some (state.moveTo (.streaming {
                  conn
                  node := .generate []
                  state := retrieved
                  queue := [.values {}, .values retrieved]
                  final := {}
                  parts := [] }))
              else none
          | .error _ => none
      | _ => none
  | .streaming stream =>
      match event with
      | .take =>
          match stream.queue with
          | [] => none
          | .custom token :: queue => some (state.send (.token token)
              (.streaming { stream with queue, parts := stream.parts ++ [token] }))
          | .values final :: queue => some (state.moveTo (.streaming { stream with queue, final }))
      | .drained =>
          match stream.node, stream.queue with
          | .ended, [] => some (state.moveTo (.answered stream.conn stream.parts.flatten stream.final))
          | _, _ => none
      | event => (nextNode stream event).map fun stream => state.moveTo (.streaming stream)
  | .answered conn answer final =>
      match event with
      | .record draw now =>
          match recordAnswer turn answer final.citations final.generation draw now conn with
          | .ok (crossed, conn) =>
              some (state.moveTo (.recorded conn answer final.citations crossed))
          | .error _ => none
      | _ => none
  | .recorded conn answer citations crossed =>
      match event with
      | .commit => some { state with stage := .committed answer citations crossed, db := conn.db }
      | _ => none
  | .committed answer citations crossed =>
      match event with
      | .enqueueAlert =>
          -- an alert that is due is enqueued before the citations are sent
          if crossed then
            some { state with
              stage := .committed answer citations false
              alerts := state.alerts ++ [(turn.orgId, turn.conversationId)] }
          else none
      | .sendCitations =>
          if crossed then none else some (state.send (.citations citations) (.cited answer))
      | _ => none
  | .cited answer =>
      match event with
      | .sendDone => some (state.send (.done answer.length) .finished)
      | _ => none
  | .finished | .aborted => none

/-- Whether a turn takes no further step. -/
def TurnStage.isOver : TurnStage → Bool
  | .finished | .aborted => true
  | _ => false

/-- One step of a turn, or its end at any point before the last event is sent. -/
def nextTurn (settings : Settings) (engine : SearchEngine) (turn : ChatTurn) (state : TurnState)
    (event : TurnEvent) : Option TurnState :=
  match event with
  | .abort => if state.stage.isOver then none else some (state.moveTo .aborted)
  | event => runTurn settings engine turn state event

/-- The generator before its first step. -/
def openedTurn (db : Database) : TurnState := ⟨.opened, db, [], []⟩

/-- The runs of a turn. -/
abbrev TurnRuns (settings : Settings) (engine : SearchEngine) (turn : ChatTurn)
    (db : Database) (trace : List TurnEvent) (last : TurnState) : Prop :=
  Run (fun state event state' => nextTurn settings engine turn state event = some state')
    (openedTurn db) trace last

/-! ## What a turn leaves behind -/

/-- The database after the question was stored. -/
def askedDb (turn : ChatTurn) (messageId : Uuid) (createdAt : Time) (db : Database) : Database :=
  db.insert .messages (messageRow turn .user turn.question none messageId createdAt)

/-- An answer with all that went into it. -/
structure MadeAnswer where
  messageId : Uuid
  askedAt : Time
  began : Time
  tokens : List Str
  hits : List SearchHit
  citations : List Citation
  generation : Generation
  costUsd : Numeric 12 6
  draw : AnswerDraw
  answeredAt : Time

namespace MadeAnswer

/-- The text of the answer is made of the tokens. -/
def answer (made : MadeAnswer) : Str := made.tokens.flatten

/-- The message that stores the answer. -/
def message (made : MadeAnswer) (turn : ChatTurn) : Message :=
  messageRow turn .assistant made.answer (storedCitations made.citations) made.draw.messageId
    made.answeredAt

/-- The event that records its usage. -/
def usageEvent (made : MadeAnswer) (turn : ChatTurn) : UsageEvent :=
  (generationUsage turn made.generation).event turn.orgId made.costUsd made.draw.eventId
    made.answeredAt

/-- The database with the question, the answer and its usage. -/
def db (made : MadeAnswer) (turn : ChatTurn) (db : Database) : Database :=
  ((askedDb turn made.messageId made.askedAt db).insert .messages (made.message turn)).insert
    .usageEvents (made.usageEvent turn)

/-- What the client is sent after the tokens. -/
def closing (made : MadeAnswer) : List ChatEvent :=
  [.citations made.citations, .done made.answer.length]

/-- The citations are those of the answer and of the sources retrieved in this
turn. -/
structure Grounded (made : MadeAnswer) (trace : List TurnEvent) : Prop where
  retrieved : .retrieve made.began made.hits ∈ trace
  cited : cite made.answer made.hits = .ok made.citations

end MadeAnswer

/-- What is committed and what was sent: nothing; the question, and tokens; or the
question and the answer with its usage, and then the tokens are those of the
answer and may be followed by its citations and its length. -/
inductive TurnOutcome (turn : ChatTurn) (db : Database) (trace : List TurnEvent) :
    Database → List ChatEvent → Prop
  | untouched : TurnOutcome turn db trace db []
  | asked (messageId : Uuid) (askedAt : Time) (tokens : List Str) :
      TurnOutcome turn db trace (askedDb turn messageId askedAt db) (tokens.map .token)
  | answered (made : MadeAnswer) (closing : List ChatEvent) :
      made.Grounded trace → closing <+: made.closing →
      TurnOutcome turn db trace (made.db turn db) (made.tokens.map .token ++ closing)

/-! ## What holds at each stage -/

section Spec

variable {settings : Settings} {engine : SearchEngine} {turn : ChatTurn} {db : Database}
  {trace : List TurnEvent} {state state' : TurnState} {event : TurnEvent}

/-- The question is stored, and nothing else. -/
def Asked (turn : ChatTurn) (db : Database) (state : TurnState) : Prop :=
  ∃ messageId createdAt, state.db = askedDb turn messageId createdAt db

/-- The tokens that wait in a queue. -/
def waiting (queue : List Chunk) : List Str :=
  queue.filterMap fun
    | .custom token => some token
    | .values _ => none

@[simp] theorem waiting_append (first second : List Chunk) :
    waiting (first ++ second) = waiting first ++ waiting second := List.filterMap_append

@[simp] theorem waiting_custom (token : Str) (queue : List Chunk) :
    waiting (.custom token :: queue) = token :: waiting queue := rfl

@[simp] theorem waiting_values (state : RagState) (queue : List Chunk) :
    waiting (.values state :: queue) = waiting queue := rfl

@[simp] theorem waiting_nil : waiting [] = [] := rfl

/-- The second transaction has begun, and its connection has written nothing yet. -/
def Opened (settings : Settings) (engine : SearchEngine) (turn : ChatTurn)
    (trace : List TurnEvent) (db : Database) (conn : Conn) (state : RagState) : Prop :=
  ∃ began, .retrieve began state.hits ∈ trace ∧
    (openAnswer settings engine turn).Runs (.start .appUser began db)
      (state.hits, state.systemPrompt) conn

/-- What the graph has made of the tokens it streamed, whether they were taken or
still wait.  When it has ended, its last state waits at the end of the queue until
it is the final one. -/
def NodeSane (stream : Streaming) : Prop :=
  match stream.node with
  | .generate parts => parts = stream.parts ++ waiting stream.queue
  | .cite => stream.state.answer = (stream.parts ++ waiting stream.queue).flatten
  | .ended => stream.state.answer = (stream.parts ++ waiting stream.queue).flatten ∧
      cite stream.state.answer stream.state.hits = .ok stream.state.citations ∧
      (stream.queue.getLast? = some (.values stream.state) ∨
        stream.queue = [] ∧ stream.final = stream.state)

/-- The final state of the graph is that of these tokens. -/
structure Drafted (settings : Settings) (engine : SearchEngine) (turn : ChatTurn)
    (trace : List TurnEvent) (db : Database) (conn : Conn) (tokens : List Str)
    (final : RagState) : Prop where
  opened : Opened settings engine turn trace db conn final
  cited : cite tokens.flatten final.hits = .ok final.citations

/-- The answer is committed, and these events followed its tokens. -/
structure Answered (turn : ChatTurn) (db : Database) (trace : List TurnEvent) (state : TurnState)
    (made : MadeAnswer) (closing : List ChatEvent) : Prop where
  grounded : made.Grounded trace
  db : state.db = made.db turn db
  sent : state.sent = made.tokens.map .token ++ closing

/-- What holds at each stage of a turn. -/
def StageSane (settings : Settings) (engine : SearchEngine) (turn : ChatTurn) (db : Database)
    (trace : List TurnEvent) (state : TurnState) : Prop :=
  match state.stage with
  | .opened => state.db = db ∧ state.sent = []
  | .asked => Asked turn db state ∧ state.sent = []
  | .streaming stream => Asked turn db state ∧ state.sent = stream.parts.map .token ∧
      Opened settings engine turn trace state.db stream.conn stream.state ∧ NodeSane stream
  | .answered conn answer final => Asked turn db state ∧
      ∃ tokens : List Str, answer = tokens.flatten ∧ state.sent = tokens.map .token ∧
        Drafted settings engine turn trace state.db conn tokens final
  | .recorded conn answer citations crossed => Asked turn db state ∧
      ∃ (tokens : List Str) (final : RagState) (opened : Conn) (draw : AnswerDraw) (now : Time),
        answer = tokens.flatten ∧ citations = final.citations ∧ state.sent = tokens.map .token ∧
          Drafted settings engine turn trace state.db opened tokens final ∧
          (recordAnswer turn answer citations final.generation draw now).Runs opened crossed conn
  | .committed answer citations _ => ∃ made : MadeAnswer,
      answer = made.answer ∧ citations = made.citations ∧ Answered turn db trace state made []
  | .cited answer => ∃ made : MadeAnswer,
      answer = made.answer ∧ Answered turn db trace state made [.citations made.citations]
  | .finished => ∃ made : MadeAnswer, Answered turn db trace state made made.closing
  | .aborted => TurnOutcome turn db trace state.db state.sent

theorem TurnOutcome.mono {sent : List ChatEvent} {last : Database} {events : List TurnEvent}
    (h : TurnOutcome turn db trace last sent) :
    TurnOutcome turn db (trace ++ events) last sent := by
  cases h with
  | untouched => exact .untouched
  | asked messageId askedAt tokens => exact .asked messageId askedAt tokens
  | answered made closing hgrounded hclosing =>
      exact .answered made closing
        ⟨List.mem_append_left _ hgrounded.retrieved, hgrounded.cited⟩ hclosing

theorem Answered.outcome {made : MadeAnswer} {closing : List ChatEvent}
    (h : Answered turn db trace state made closing) (hclosing : closing <+: made.closing) :
    TurnOutcome turn db trace state.db state.sent := by
  rw [h.db, h.sent]
  exact .answered made closing h.grounded hclosing

theorem Asked.outcome {tokens : List Str} (h : Asked turn db state)
    (hsent : state.sent = tokens.map .token) : TurnOutcome turn db trace state.db state.sent := by
  obtain ⟨messageId, askedAt, hdb⟩ := h
  rw [hdb, hsent]
  exact .asked messageId askedAt tokens

/-- Whatever the stage, the outcome is one of the three. -/
theorem StageSane.outcome (h : StageSane settings engine turn db trace state) :
    TurnOutcome turn db trace state.db state.sent := by
  obtain ⟨stage, now, sent, alerts⟩ := state
  cases stage with
  | opened =>
      obtain ⟨rfl, rfl⟩ := h
      exact .untouched
  | asked => exact @Asked.outcome _ _ _ _ [] h.1 h.2
  | streaming stream => exact h.1.outcome h.2.1
  | answered conn answer final =>
      obtain ⟨hasked, tokens, _, hsent, _⟩ := h
      exact hasked.outcome hsent
  | recorded conn answer citations crossed =>
      obtain ⟨hasked, tokens, _, _, _, _, _, _, hsent, _⟩ := h
      exact hasked.outcome hsent
  | committed answer citations crossed =>
      obtain ⟨made, _, _, hanswered⟩ := h
      exact hanswered.outcome List.nil_prefix
  | cited answer =>
      obtain ⟨made, _, hanswered⟩ := h
      exact hanswered.outcome (List.prefix_append [_] [_])
  | finished =>
      obtain ⟨made, hanswered⟩ := h
      exact hanswered.outcome List.prefix_rfl
  | aborted => exact h

/-! ## Steps -/

theorem openAnswer_eq_ok {conn conn' : Conn} {hits : List SearchHit} {systemPrompt : Str}
    (h : (openAnswer settings engine turn).Runs conn (hits, systemPrompt) conn') :
    conn' = { conn with currentOrg := some turn.orgId } := by
  simp only [openAnswer, Program.runs_bind, runs_setOrgContext] at h
  obtain ⟨_, _, rfl, hretrieve⟩ := h
  exact (retrieve_eq_ok hretrieve).1.symm

/-- The database after the question was stored. -/
theorem db_of_persistUserTurn {conn conn' : Conn} {messageId : Uuid} {result : Unit}
    (h : (persistUserTurn turn messageId).Runs conn result conn') :
    conn'.db = askedDb turn messageId conn.now conn.db :=
  (persistUserTurn_eq_ok h).insert.1

/-- The database after an answer was stored. -/
theorem db_of_recordAnswer {conn conn' : Conn} {answer : Str} {citations : List Citation}
    {generation : Generation} {draw : AnswerDraw} {now : Time} {crossed : Bool}
    (hrole : conn.role = .appUser) (horg : conn.currentOrg = some turn.orgId)
    (h : (recordAnswer turn answer citations generation draw now).Runs conn crossed conn') :
    ∃ costUsd, conn'.db = (conn.db.insert .messages (messageRow turn .assistant answer
      (storedCitations citations) draw.messageId conn.now)).insert .usageEvents
        ((generationUsage turn generation).event turn.orgId costUsd draw.eventId conn.now) := by
  obtain ⟨costUsd, hwrote⟩ := recordAnswer_eq_ok hrole horg h
  obtain ⟨_, hmessage, _, hevent, hdb⟩ := hwrote.executes
  obtain ⟨rfl, _⟩ := Policy.insertRow_eq_ok hmessage
  obtain ⟨rfl, _⟩ := Policy.insertRow_eq_ok hevent
  exact ⟨costUsd, hdb.symm⟩

theorem Opened.mono {conn : Conn} {final : RagState} {events : List TurnEvent}
    (h : Opened settings engine turn trace db conn final) :
    Opened settings engine turn (trace ++ events) db conn final := by
  obtain ⟨began, hretrieved, hopen⟩ := h
  exact ⟨began, List.mem_append_left _ hretrieved, hopen⟩

theorem Drafted.mono {conn : Conn} {tokens : List Str} {final : RagState}
    {events : List TurnEvent} (h : Drafted settings engine turn trace db conn tokens final) :
    Drafted settings engine turn (trace ++ events) db conn tokens final :=
  ⟨h.opened.mono, h.cited⟩

theorem Answered.mono {made : MadeAnswer} {closing : List ChatEvent} {events : List TurnEvent}
    (h : Answered turn db trace state made closing) :
    Answered turn db (trace ++ events) state made closing :=
  ⟨⟨List.mem_append_left _ h.grounded.retrieved, h.grounded.cited⟩, h.db, h.sent⟩

/-- An event sent after the commit. -/
theorem Answered.send {made : MadeAnswer} {closing : List ChatEvent} {sent : ChatEvent}
    {stage : TurnStage} {events : List TurnEvent}
    (h : Answered turn db trace state made closing) :
    Answered turn db (trace ++ events) (state.send sent stage) made (closing ++ [sent]) := by
  refine ⟨h.mono.grounded, h.db, ?_⟩
  show state.sent ++ [sent] = _
  rw [h.sent, List.append_assoc]

/-- The graph keeps its account of the tokens, whichever node runs. -/
theorem NodeSane.next {stream stream' : Streaming} (h : NodeSane stream)
    (hnext : nextNode stream event = some stream') :
    NodeSane stream' ∧ stream'.conn = stream.conn ∧ stream'.parts = stream.parts ∧
      stream'.state.hits = stream.state.hits ∧
      stream'.state.systemPrompt = stream.state.systemPrompt := by
  obtain ⟨conn, node, state, queue, final, parts⟩ := stream
  cases event with
  | token text =>
      cases node with
      | generate yielded =>
          cases hnext
          refine ⟨?_, rfl, rfl, rfl, rfl⟩
          simp only [NodeSane] at h ⊢
          simp [h]
      | cite => cases hnext
      | ended => cases hnext
  | generated generation =>
      cases node with
      | generate yielded =>
          cases hnext
          refine ⟨?_, rfl, rfl, rfl, rfl⟩
          simp only [NodeSane] at h ⊢
          simp [h]
      | cite => cases hnext
      | ended => cases hnext
  | cite =>
      cases node with
      | generate yielded => cases hnext
      | cite =>
          simp only [nextNode] at hnext
          split at hnext
          · next citations _ hcite =>
              cases hnext
              -- the values that end the node are queued behind all tokens
              refine ⟨⟨?_, hcite, .inl ?_⟩, rfl, rfl, rfl, rfl⟩
              · simpa [NodeSane] using h
              · simp
          · cases hnext
      | ended => cases hnext
  | _ => cases hnext

/-- A token that is taken moves from the queue to the consumer. -/
theorem NodeSane.takeToken {stream : Streaming} {token : Str} {queue : List Chunk}
    (h : NodeSane stream) (hqueue : stream.queue = .custom token :: queue) :
    NodeSane { stream with queue, parts := stream.parts ++ [token] } := by
  obtain ⟨conn, node, state, _, final, parts⟩ := stream
  obtain rfl := hqueue
  have hmoved : parts ++ waiting (.custom token :: queue) = parts ++ [token] ++ waiting queue := by
    rw [waiting_custom, List.append_assoc, List.singleton_append]
  cases node with
  | generate yielded => exact h.trans hmoved
  | cite => exact h.trans (congrArg List.flatten hmoved)
  | ended =>
      obtain ⟨hanswer, hcite, hlast⟩ := h
      refine ⟨hanswer.trans (congrArg List.flatten hmoved), hcite, .inl ?_⟩
      rcases hlast with hlast | ⟨hempty, _⟩
      · cases queue with
        | nil => simp at hlast
        | cons next rest => simpa using hlast
      · cases hempty

/-- A state that is taken is the final one so far. -/
theorem NodeSane.takeValues {stream : Streaming} {final : RagState} {queue : List Chunk}
    (h : NodeSane stream) (hqueue : stream.queue = .values final :: queue) :
    NodeSane { stream with queue, final } := by
  obtain ⟨conn, node, state, _, _, parts⟩ := stream
  obtain rfl := hqueue
  cases node with
  | generate yielded => exact h
  | cite => exact h
  | ended =>
      obtain ⟨hanswer, hcite, hlast⟩ := h
      refine ⟨hanswer, hcite, ?_⟩
      rcases hlast with hlast | ⟨hempty, _⟩
      · cases queue with
        | nil => exact .inr ⟨rfl, by simpa using hlast⟩
        | cons next rest => exact .inl (by simpa using hlast)
      · cases hempty

/-- Once the queue is empty the final state is that of the tokens taken. -/
theorem NodeSane.drained {stream : Streaming} (h : NodeSane stream) (hnode : stream.node = .ended)
    (hqueue : stream.queue = []) : stream.final = stream.state ∧
      cite stream.parts.flatten stream.state.hits = .ok stream.state.citations := by
  unfold NodeSane at h
  rw [hnode, hqueue] at h
  obtain ⟨hanswer, hcite, hlast⟩ := h
  rcases hlast with hlast | ⟨_, hfinal⟩
  · cases hlast
  · refine ⟨hfinal, ?_⟩
    rw [waiting_nil, List.append_nil] at hanswer
    rwa [hanswer] at hcite

/-- What holds while the answer is streamed holds again after a chunk is taken or
the graph has moved on. -/
theorem StageSane.runStreaming {stream : Streaming} (hstage : state.stage = .streaming stream)
    (h : StageSane settings engine turn db trace state)
    (hnext : runTurn settings engine turn state event = some state') :
    StageSane settings engine turn db (trace ++ [event]) state' := by
  simp only [StageSane, hstage] at h
  obtain ⟨hasked, hsent, hopened, hnode⟩ := h
  unfold runTurn at hnext
  simp only [hstage] at hnext
  split at hnext
  · -- a chunk is taken
    split at hnext
    · cases hnext
    · next token queue hqueue =>
        cases hnext
        refine ⟨hasked, ?_, hopened.mono, hnode.takeToken hqueue⟩
        show state.sent ++ [.token token] = _
        rw [hsent, List.map_append, List.map_singleton]
    · next final queue hqueue =>
        cases hnext
        exact ⟨hasked, hsent, hopened.mono, hnode.takeValues hqueue⟩
  · -- the stream of the graph has ended
    split at hnext
    · next hended hqueue =>
        cases hnext
        obtain ⟨hfinal, hcite⟩ := hnode.drained hended hqueue
        refine ⟨hasked, stream.parts, rfl, hsent, ?_⟩
        rw [hfinal]
        exact ⟨hopened.mono, hcite⟩
    · cases hnext
  · obtain ⟨later, hlater, rfl⟩ := Option.map_eq_some_iff.mp hnext
    obtain ⟨hsane, hconn, hparts, hhits, hprompt⟩ := hnode.next hlater
    obtain ⟨began, hretrieved, hopen⟩ := hopened
    refine ⟨hasked, ?_, ⟨began, ?_, ?_⟩, hsane⟩
    · rw [hparts]
      exact hsent
    · rw [hhits]
      exact List.mem_append_left _ hretrieved
    · rw [hhits, hprompt, hconn]
      exact hopen

/-- The commit makes the transaction of the answer the outcome of the turn. -/
theorem StageSane.commit {conn : Conn} {answer : Str} {citations : List Citation} {crossed : Bool}
    (hstage : state.stage = .recorded conn answer citations crossed)
    (h : StageSane settings engine turn db trace state)
    (hnext : runTurn settings engine turn state event = some state') :
    StageSane settings engine turn db (trace ++ [event]) state' := by
  simp only [StageSane, hstage] at h
  obtain ⟨⟨messageId, askedAt, hdb⟩, tokens, final, opened, draw, now, rfl, rfl, hsent, hdrafted,
    hrecord⟩ := h
  unfold runTurn at hnext
  simp only [hstage] at hnext
  split at hnext
  · cases hnext
    obtain ⟨began, hretrieved, hopen⟩ := hdrafted.opened
    -- the transaction began on the committed question, and nothing else was written
    obtain rfl := openAnswer_eq_ok hopen
    obtain ⟨costUsd, hcommitted⟩ := db_of_recordAnswer rfl rfl hrecord
    refine ⟨⟨messageId, askedAt, began, tokens, final.hits, final.citations, final.generation,
      costUsd, draw, began⟩, rfl, rfl, ⟨List.mem_append_left _ hretrieved, hdrafted.cited⟩, ?_, ?_⟩
    · show conn.db = _
      rw [hcommitted]
      show (state.db.insert _ _).insert _ _ = _
      rw [hdb]
      rfl
    · show state.sent = _
      rw [hsent, List.append_nil]
  · cases hnext

/-- After the commit the events that close the stream are sent. -/
theorem StageSane.runCommitted {answer : Str} {citations : List Citation} {crossed : Bool}
    (hstage : state.stage = .committed answer citations crossed)
    (h : StageSane settings engine turn db trace state)
    (hnext : runTurn settings engine turn state event = some state') :
    StageSane settings engine turn db (trace ++ [event]) state' := by
  simp only [StageSane, hstage] at h
  obtain ⟨made, rfl, rfl, hanswered⟩ := h
  unfold runTurn at hnext
  simp only [hstage] at hnext
  split at hnext
  · split at hnext
    · cases hnext
      exact ⟨made, rfl, rfl, hanswered.mono.grounded, hanswered.db, hanswered.sent⟩
    · cases hnext
  · split at hnext
    · cases hnext
    · cases hnext
      exact ⟨made, rfl, hanswered.send⟩
  · cases hnext

/-- What holds at a stage holds again after the turn has run on. -/
theorem StageSane.run (h : StageSane settings engine turn db trace state)
    (hnext : runTurn settings engine turn state event = some state') :
    StageSane settings engine turn db (trace ++ [event]) state' := by
  unfold runTurn at hnext
  split at hnext
  · next hstage =>
      simp only [StageSane, hstage] at h
      obtain ⟨rfl, hsent⟩ := h
      split at hnext
      · next messageId began =>
          split at hnext
          · next conn hask =>
              cases hnext
              exact ⟨⟨messageId, began, db_of_persistUserTurn hask⟩, hsent⟩
          · cases hnext
      · cases hnext
  · next hstage =>
      simp only [StageSane, hstage] at h
      obtain ⟨hasked, hsent⟩ := h
      split at hnext
      · next began hits =>
          split at hnext
          · next found systemPrompt conn hopen =>
              split at hnext
              · next hfound =>
                  cases hnext
                  subst hfound
                  exact ⟨hasked, hsent, ⟨began, List.mem_append_right _ (List.mem_singleton_self _),
                    hopen⟩, rfl⟩
              · cases hnext
          · cases hnext
      · cases hnext
  · next stream hstage =>
      refine h.runStreaming hstage ?_
      unfold runTurn
      simp only [hstage]
      exact hnext
  · next conn answer final hstage =>
      simp only [StageSane, hstage] at h
      obtain ⟨hasked, tokens, hanswer, hsent, hdrafted⟩ := h
      split at hnext
      · next draw now =>
          split at hnext
          · next crossed recorded hrecord =>
              cases hnext
              exact ⟨hasked, tokens, final, conn, draw, now, hanswer, rfl, hsent, hdrafted.mono,
                hrecord⟩
          · cases hnext
      · cases hnext
  · next hstage =>
      refine h.commit hstage ?_
      unfold runTurn
      simp only [hstage]
      exact hnext
  · next hstage =>
      refine h.runCommitted hstage ?_
      unfold runTurn
      simp only [hstage]
      exact hnext
  · next answer hstage =>
      simp only [StageSane, hstage] at h
      obtain ⟨made, rfl, hanswered⟩ := h
      split at hnext
      · cases hnext
        exact ⟨made, hanswered.send⟩
      · cases hnext
  · cases hnext
  · cases hnext

/-- A step runs the turn on, or ends it as it is. -/
theorem nextTurn_eq_some (hnext : nextTurn settings engine turn state event = some state') :
    (event = .abort ∧ state.stage.isOver = false ∧ state' = state.moveTo .aborted) ∨
      (event ≠ .abort ∧ runTurn settings engine turn state event = some state') := by
  unfold nextTurn at hnext
  split at hnext
  · split_ifs at hnext with hover
    cases hnext
    exact .inl ⟨rfl, by simpa using hover, rfl⟩
  · next hne => exact .inr ⟨hne, hnext⟩

/-- What holds at a stage holds again after any step. -/
theorem StageSane.next (h : StageSane settings engine turn db trace state)
    (hnext : nextTurn settings engine turn state event = some state') :
    StageSane settings engine turn db (trace ++ [event]) state' := by
  rcases nextTurn_eq_some hnext with ⟨_, _, rfl⟩ | ⟨_, hrun⟩
  · exact h.outcome.mono
  · exact h.run hrun

theorem stageSane_of_runs (hrun : TurnRuns settings engine turn db trace state) :
    StageSane settings engine turn db trace state := by
  have hstart : StageSane settings engine turn db [] (openedTurn db) := ⟨rfl, rfl⟩
  refine hrun.invariant (P := StageSane settings engine turn db) hstart ?_
  intro earlier middle event last _ hmiddle hstep
  exact hmiddle.next hstep

/-- The second transaction of a turn is `answerTurn`, for a provider that streams
the tokens the client was sent. -/
theorem answerTurn_of_runs {conn : Conn} {answer : Str} {citations : List Citation} {crossed : Bool}
    (hrun : TurnRuns settings engine turn db trace state)
    (hstage : state.stage = .recorded conn answer citations crossed) :
    ∃ (began now : Time) (tokens : List Str) (hits : List SearchHit) (generation : Generation)
      (draw : AnswerDraw), state.sent = tokens.map .token ∧
        (answerTurn settings engine (fun _ _ => .ok (tokens, generation)) turn draw now).Runs
          (.start .appUser began state.db) ⟨tokens, citations, hits, crossed⟩ conn := by
  have hsane := stageSane_of_runs hrun
  simp only [StageSane, hstage] at hsane
  obtain ⟨_, tokens, final, opened, draw, now, rfl, rfl, hsent, ⟨⟨began, _, hopen⟩, hcite⟩,
    hrecord⟩ := hsane
  refine ⟨began, now, tokens, final.hits, final.generation, draw, hsent, ?_⟩
  simp only [openAnswer, Program.runs_bind] at hopen
  obtain ⟨_, bound, hbind, hretrieve⟩ := hopen
  simp only [answerTurn, Program.runs_bind, runs_ofLibrary, Program.runs_pure]
  exact ⟨_, bound, hbind, _, opened, hretrieve, _, opened, ⟨rfl, rfl⟩, _, opened, ⟨hcite, rfl⟩, _,
    conn, hrecord, rfl, rfl⟩

/-- A chat turn is all or nothing about its answer, and its stream agrees with what
is stored, wherever it stops. -/
theorem chatTurn_outcome (hrun : TurnRuns settings engine turn db trace state) :
    TurnOutcome turn db trace state.db state.sent :=
  (stageSane_of_runs hrun).outcome

end Spec

/-! ### A turn with a source -/

/-- An organization with a conversation and a document of one chunk. -/
def talkingDb : Database
  | .organizations => [⟨1, "Acme".toList, "acme".toList, none, 0⟩]
  | .users => [⟨2, 1, "a@acme.io".toList, none, none, .admin, true, 0⟩]
  | .conversations => [⟨3, 1, some 2, none, 0⟩]
  | .documents => [⟨4, 1, "a.pdf".toList, none, none, none, none, .ready, 0⟩]
  | .documentChunks => [⟨8, 1, 4, 0, "Rain.".toList, 1, [], 0⟩]
  | _ => []

/-- Retrieval in the order of insertion. -/
def plainEngine : SearchEngine where
  provider := ⟨"stub".toList, "stub".toList, fun texts => .ok (texts.map fun _ => [])⟩
  byDistance := fun _ chunks => chunks
  byRelevance := fun _ chunks => chunks

def sampleTurn : ChatTurn where
  orgId := 1
  userId := 2
  conversationId := 3
  question := "Why?".toList
  history := []

def sampleHit : SearchHit := ⟨8, 4, "a.pdf".toList, 0, "Rain.".toList, 2 / 61⟩

/-- The client takes the first token before the second is there. -/
def completeTurn : List TurnEvent :=
  [.ask 5 10, .retrieve 11 [sampleHit], .token "Rain [".toList, .take, .take, .take,
    .token "1]".toList, .generated ⟨⟨7, 2⟩, "stub".toList, "stub".toList⟩, .cite, .take, .take,
    .take, .drained, .record ⟨6, 7⟩ 12, .commit, .sendCitations, .sendDone]

theorem chatTurn_outcome_complete : ∃ last,
    TurnRuns {} plainEngine sampleTurn talkingDb completeTurn last ∧
    last.sent = [.token "Rain [".toList, .token "1]".toList,
      .citations [⟨1, Uuid.str 8, Uuid.str 4, "a.pdf".toList, "Rain.".toList⟩], .done 8] ∧
    TurnOutcome sampleTurn talkingDb completeTurn last.db last.sent := by
  have hreplay : (replay (nextTurn {} plainEngine sampleTurn) (openedTurn talkingDb)
      completeTurn).map TurnState.sent = some [.token "Rain [".toList, .token "1]".toList,
        .citations [⟨1, Uuid.str 8, Uuid.str 4, "a.pdf".toList, "Rain.".toList⟩], .done 8] := by
    decide +kernel
  obtain ⟨last, hlast, hsent⟩ := Option.map_eq_some_iff.mp hreplay
  have hrun := run_of_replay _ _ _ _ hlast
  exact ⟨last, hrun, hsent, chatTurn_outcome hrun⟩

end Api
