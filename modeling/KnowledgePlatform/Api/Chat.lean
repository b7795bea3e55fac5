import KnowledgePlatform.Api.Requests

/-!
# Chat turns

After the request part of a chat turn (`chat`) its stream runs two transactions
of its own, each binding the organization again: the question is stored
(`persistUserTurn`), and later the answer with its usage event (`recordAnswer`),
in the transaction in which the sources were retrieved.

`answerTurn` is the second transaction as a whole; the stream of tokens out of
it is modelled in `Api.ChatStream`.
-/

open Core Foundations Python Relational

namespace Api

/-- The token counts a provider fills in. -/
structure UsageAccumulator where
  inputTokens : ℤ := 0
  outputTokens : ℤ := 0
  deriving DecidableEq

/-- What the `generate` node leaves in the state of the graph besides the answer. -/
structure Generation where
  usage : UsageAccumulator
  llmProvider : Str
  llmModel : Str
  deriving DecidableEq

/-- The row of a message. -/
def messageRow (turn : ChatTurn) (role : MessageRole) (content : Str)
    (citations : Option (List Citation)) (id : Uuid) (createdAt : Time) : Message where
  id := id
  orgId := turn.orgId
  conversationId := turn.conversationId
  role := role
  content := content
  citations := citations
  createdAt := createdAt

/-- The first transaction of the stream. -/
def persistUserTurn (turn : ChatTurn) (messageId : Uuid) : Tx Unit := do
  setOrgContext turn.orgId
  let createdAt ← transactionTime
  add .messages (messageRow turn .user turn.question none messageId createdAt)

/-- `retrieve_node`: the sources and the system prompt. -/
def retrieve (settings : Settings) (engine : SearchEngine) (query : Str) :
    Tx (List SearchHit × Str) := do
  let hits ← hybridSearch settings engine query .hybrid (some settings.generationContextChunks)
  let template ← resolvePromptTemplate defaultPromptName
  pure (hits, buildSystemPrompt template hits)

/-- `cite_node` -/
def cite (answer : Str) (hits : List SearchHit) : Except Str (List Citation) :=
  extractCitations answer hits defaultSnippetChars

/-- The ids the second transaction draws. -/
structure AnswerDraw where
  messageId : Uuid
  eventId : Uuid
  deriving DecidableEq

/-- What is recorded for a generation. -/
def generationUsage (turn : ChatTurn) (generation : Generation) : UsageRecord where
  userId := some turn.userId
  kind := .generation
  provider := generation.llmProvider
  model := generation.llmModel
  inputTokens := generation.usage.inputTokens
  outputTokens := generation.usage.outputTokens
  conversationId := some turn.conversationId

/-- `citations or None` -/
def storedCitations (citations : List Citation) : Option (List Citation) :=
  if citations = [] then none else some citations

/-- Store the answer and record its usage; tells whether the budget was crossed. -/
def recordAnswer (turn : ChatTurn) (answer : Str) (citations : List Citation)
    (generation : Generation) (draw : AnswerDraw) (now : Time) : Tx Bool := do
  let createdAt ← transactionTime
  add .messages (messageRow turn .assistant answer (storedCitations citations) draw.messageId
    createdAt)
  let usage := generationUsage turn generation
  let cost := generationCostUsd usage.provider usage.model usage.inputTokens usage.outputTokens
  let (_, crossed) ← recordUsage turn.orgId usage cost draw.eventId now
  pure crossed

/-- What the client is sent for a turn, with the sources that were retrieved. -/
structure AnswerOut where
  tokens : List Str
  citations : List Citation
  hits : List SearchHit
  crossed : Bool

/-- The messages sent to the provider. -/
def promptMessages (turn : ChatTurn) : List (MessageRole × Str) :=
  turn.history ++ [(.user, turn.question)]

/-- The second transaction of the stream, for a provider that streams these
tokens for a prompt and its messages. -/
def answerTurn (settings : Settings) (engine : SearchEngine)
    (astream : Str → List (MessageRole × Str) → Except Str (List Str × Generation))
    (turn : ChatTurn) (draw : AnswerDraw) (now : Time) : Tx AnswerOut := do
  setOrgContext turn.orgId
  let (hits, systemPrompt) ← retrieve settings engine turn.question
  let (tokens, generation) ← ofLibrary (astream systemPrompt (promptMessages turn))
  let citations ← ofLibrary (cite tokens.flatten hits)
  let crossed ← recordAnswer turn tokens.flatten citations generation draw now
  pure { tokens, citations, hits, crossed }

/-! ## Specifications -/

section Spec

variable {conn conn' : Conn} {turn : ChatTurn}

/-- The statement that stores the question. -/
def questionWrite (turn : ChatTurn) (messageId : Uuid) (createdAt : Time) : Write schema :=
  .insert .messages (messageRow turn .user turn.question none messageId createdAt)

/-- The statements that store an answer and its usage. -/
def answerWrites (turn : ChatTurn) (answer : Str) (citations : List Citation)
    (generation : Generation) (costUsd : Numeric 12 6) (draw : AnswerDraw) (createdAt : Time) :
    List (Write schema) :=
  [.insert .messages (messageRow turn .assistant answer (storedCitations citations) draw.messageId
      createdAt),
    .insert .usageEvents
      ((generationUsage turn generation).event turn.orgId costUsd draw.eventId createdAt)]

theorem persistUserTurn_eq_ok {messageId : Uuid} {result : Unit}
    (h : (persistUserTurn turn messageId).Runs conn result conn') :
    { conn with currentOrg := some turn.orgId }.Wrote
      [questionWrite turn messageId conn.now] conn' := by
  simp only [persistUserTurn, Program.runs_bind, runs_setOrgContext, runs_transactionTime,
    runs_add] at h
  obtain ⟨_, _, rfl, _, _, ⟨rfl, rfl⟩, hwrote⟩ := h
  exact hwrote

/-- Retrieval only reads, and every source is one the session sees. -/
theorem retrieve_eq_ok {settings : Settings} {engine : SearchEngine} {query : Str}
    {hits : List SearchHit} {systemPrompt : Str}
    (h : (retrieve settings engine query).Runs conn (hits, systemPrompt) conn') :
    conn = conn' ∧ ∀ hit ∈ hits, ∃ chunk ∈ conn.db .documentChunks,
      ∃ document ∈ conn.db .documents, conn.policy.visible .documentChunks chunk = true ∧
        conn.policy.visible .documents document = true ∧ hit.Shows chunk document := by
  simp only [retrieve, Program.runs_bind, Program.runs_pure, Prod.mk.injEq] at h
  obtain ⟨_, _, hsearch, _, _, hprompt, ⟨rfl, rfl⟩, rfl⟩ := h
  cases runs_resolvePromptTemplate hprompt
  exact hybridSearch_eq_ok hsearch

theorem recordAnswer_eq_ok {answer : Str} {citations : List Citation} {generation : Generation}
    {draw : AnswerDraw} {now : Time} {crossed : Bool} (hrole : conn.role = .appUser)
    (horg : conn.currentOrg = some turn.orgId)
    (h : (recordAnswer turn answer citations generation draw now).Runs conn crossed conn') :
    ∃ costUsd, conn.Wrote
      (answerWrites turn answer citations generation costUsd draw conn.now) conn' := by
  simp only [recordAnswer, Program.runs_bind, runs_transactionTime, runs_add,
    Program.runs_pure] at h
  obtain ⟨_, _, ⟨rfl, rfl⟩, _, middle, hmessage, ⟨event, _⟩, _, hrecord, rfl, rfl⟩ := h
  obtain ⟨costUsd, _, rfl, hevent, _⟩ := recordUsage_eq_ok (hmessage.role.trans hrole)
    (hmessage.currentOrg.trans horg) hrecord
  rw [hmessage.now] at hevent
  exact ⟨costUsd, hmessage.append hevent⟩

/-- What the second transaction writes, and what its answer is made of. -/
theorem answerTurn_eq_ok {settings : Settings} {engine : SearchEngine}
    {astream : Str → List (MessageRole × Str) → Except Str (List Str × Generation)}
    {draw : AnswerDraw} {now : Time} {out : AnswerOut} (hrole : conn.role = .appUser)
    (h : (answerTurn settings engine astream turn draw now).Runs conn out conn') :
    let bound := { conn with currentOrg := some turn.orgId }
    (∀ hit ∈ out.hits, ∃ chunk ∈ conn.db .documentChunks, ∃ document ∈ conn.db .documents,
      bound.policy.visible .documentChunks chunk = true ∧
        bound.policy.visible .documents document = true ∧ hit.Shows chunk document) ∧
    cite out.tokens.flatten out.hits = .ok out.citations ∧
    ∃ generation costUsd, bound.Wrote (answerWrites turn out.tokens.flatten out.citations
      generation costUsd draw conn.now) conn' := by
  simp only [answerTurn, Program.runs_bind, runs_setOrgContext, runs_ofLibrary,
    Program.runs_pure] at h
  obtain ⟨_, _, rfl, ⟨hits, prompt⟩, _, hretrieve, ⟨tokens, generation⟩, _, ⟨_, rfl⟩, citations,
    _, ⟨hcite, rfl⟩, crossed, _, hrecord, rfl, rfl⟩ := h
  obtain ⟨rfl, hhits⟩ := retrieve_eq_ok hretrieve
  have hbound : ({ conn with currentOrg := some turn.orgId } : Conn).role = .appUser := hrole
  obtain ⟨costUsd, hwrote⟩ := recordAnswer_eq_ok hbound rfl hrecord
  exact ⟨hhits, hcite, generation, costUsd, hwrote⟩

end Spec

end Api
