import KnowledgePlatform.Api.ChatStream
import KnowledgePlatform.Core.LlmStreams

/-!
# Chat turns with a vendor

`Api.ChatStream` leaves open which tokens the node `generate` yields.  Here they
come from a provider: once the sources are retrieved its generator is begun with
the system prompt and the messages, each token is the next item it yields, and the
node ends when the generator returns, with the counts it left in the accumulator.
A provider that raises ends the turn before its answer is stored.

An item need not be a text: the providers yield whatever truthy value stands in place
of one.  It is sent like a token, and so are the items behind it, until the node joins
its parts and fails.  These items are kept apart from the tokens as strays.

The steps of the turn itself stay a run of `Api.ChatStream` (`turnRuns_of_providedRuns`).
What is added at each stage is `StageProvided`: while the answer is streamed, the
parts so far, the strays and the items to come are the output of the generator;
afterwards the output is the tokens, and all of it.
-/

open Core Foundations Python Relational

namespace Api

/-! ## Providers -/

/-- A provider as the graph sees it: for a system prompt and messages, the items its
generator yields, and how it ends. -/
structure LlmProvider where
  name : Str
  model : Str
  astream : Str → List (MessageRole × Str) → List Json × Except Str TokenCounts

/-- What running a stream on a fresh accumulator comes to. -/
def consumed (stream : LlmStream Unit) : List Json × Except Str TokenCounts :=
  ((stream {}).1, (stream {}).2.map Prod.snd)

/-- The vendors that are read line by line. -/
inductive Vendor
  | openai (provider : OpenAILLMProvider)
  | gemini (provider : GeminiLLMProvider)

namespace Vendor

def wire : Vendor → Wire
  | openai _ => openaiWire
  | gemini _ => geminiWire

def request (system : Str) (messages : List (MessageRole × Str)) : Vendor → StreamRequest
  | openai provider => provider.request system messages
  | gemini provider => provider.request system messages

def name : Vendor → Str
  | openai _ => OpenAILLMProvider.name
  | gemini _ => GeminiLLMProvider.name

def model : Vendor → Str
  | openai provider => provider.model
  | gemini provider => provider.model

/-- The generator of a vendor for a response. -/
def stream (loads : Str → Except Str Json) (response : StreamResponse) : Vendor → LlmStream Unit
  | openai _ => OpenAILLMProvider.astream loads true response
  | gemini _ => GeminiLLMProvider.astream loads true response

/-- The provider, with what is answered to each request. -/
def provider (vendor : Vendor) (loads : Str → Except Str Json)
    (exchange : StreamRequest → StreamResponse) : LlmProvider where
  name := vendor.name
  model := vendor.model
  astream system messages :=
    consumed (vendor.stream loads (exchange (vendor.request system messages)))

end Vendor

/-- The counts as they are recorded: both are integers.  What the database driver makes of
other values is left out. -/
def usage? (counts : TokenCounts) : Option UsageAccumulator :=
  match counts.inputTokens, counts.outputTokens with
  | .number input, .number output =>
      if input.den = 1 ∧ output.den = 1 then some ⟨input.num, output.num⟩ else none
  | _, _ => none

/-! ## Turns -/

/-- A turn with what its provider has yet to yield, and how it ends.  The first item
that is no text and all items behind it are strays: some wait behind the tokens in the
queue, the others are sent. -/
structure ProvidedTurn where
  turn : TurnState
  rest : List Json × Except Str TokenCounts
  strays : List Json
  sentStrays : List Json

/-- The strays so far. -/
def ProvidedTurn.strayed (state : ProvidedTurn) : List Json := state.sentStrays ++ state.strays

inductive ProvidedEvent
  | turn (event : TurnEvent)
  | stray
  | takeStray

/-- The steps of the turn among the events. -/
def turnEvents (trace : List ProvidedEvent) : List TurnEvent :=
  trace.filterMap fun event => match event with
    | .turn event => some event
    | .stray | .takeStray => none

/-- What is left of the provider's output after a step of the turn.  A token is the
next item, if that is a text. -/
def nextRest (provider : LlmProvider) (turn : ChatTurn) (after : TurnState) (event : TurnEvent)
    (rest : List Json × Except Str TokenCounts) : Option (List Json × Except Str TokenCounts) :=
  match event with
  | .retrieve _ _ =>
      match after.stage with
      | .streaming stream => some (provider.astream stream.state.systemPrompt (promptMessages turn))
      | _ => none
  | .token text =>
      match rest with
      | (.string found :: items, ending) => if found = text then some (items, ending) else none
      | _ => none
  | .generated generation =>
      match rest with
      | ([], .ok counts) =>
          if usage? counts = some generation.usage ∧ generation.llmProvider = provider.name ∧
              generation.llmModel = provider.model then some rest
          else none
      | _ => none
  | _ => some rest

/-- Whether the step is one of the node `generate`. -/
def TurnEvent.generates : TurnEvent → Bool
  | .token _ | .generated _ => true
  | _ => false

def Node.isGenerate : Node → Bool
  | .generate _ => true
  | _ => false

def Json.isText : Json → Bool
  | .string _ => true
  | _ => false

/-- A step of a turn with its provider. -/
def nextProvided (settings : Settings) (engine : SearchEngine) (provider : LlmProvider)
    (turn : ChatTurn) (state : ProvidedTurn) : ProvidedEvent → Option ProvidedTurn
  | .turn event =>
      -- behind a stray all items are strays, and joining the parts raises
      if event.generates && !state.strayed.isEmpty then none
      else do
        let after ← nextTurn settings engine turn state.turn event
        let rest ← nextRest provider turn after event state.rest
        some { state with turn := after, rest }
  | .stray =>
      match state.turn.stage, state.rest with
      | .streaming stream, (item :: items, ending) =>
          if stream.node.isGenerate && !(state.strayed.isEmpty && item.isText) then
            some { state with rest := (items, ending), strays := state.strays ++ [item] }
          else none
      | _, _ => none
  | .takeStray =>
      match state.turn.stage, state.strays with
      | .streaming stream, item :: strays =>
          -- the tokens are in front of it
          if stream.queue.isEmpty then
            some { state with strays, sentStrays := state.sentStrays ++ [item] }
          else none
      | _, _ => none

/-- The turn before its first step. -/
def openedProvided (db : Database) : ProvidedTurn := ⟨openedTurn db, ([], .error []), [], []⟩

/-- The runs of a turn with its provider. -/
abbrev ProvidedRuns (settings : Settings) (engine : SearchEngine) (provider : LlmProvider)
    (turn : ChatTurn) (db : Database) (trace : List ProvidedEvent) (last : ProvidedTurn) : Prop :=
  Run (fun state event state' =>
      nextProvided settings engine provider turn state event = some state')
    (openedProvided db) trace last

/-! ## What a turn leaves behind -/

/-- The provider yielded these tokens for a system prompt and returned, and the
generation has its counts and its name. -/
structure Replied (provider : LlmProvider) (turn : ChatTurn) (systemPrompt : Str)
    (tokens : List Str) (generation : Generation) : Prop where
  astream : ∃ counts, usage? counts = some generation.usage ∧
    provider.astream systemPrompt (promptMessages turn) = (tokens.map .string, .ok counts)
  name : generation.llmProvider = provider.name
  model : generation.llmModel = provider.model

/-- The contents are a beginning of what the provider yields for sources that were
retrieved. -/
def Yielded (provider : LlmProvider) (turn : ChatTurn) (trace : List TurnEvent)
    (contents : List Json) : Prop :=
  contents = [] ∨ ∃ began hits template, .retrieve began hits ∈ trace ∧
    contents <+: (provider.astream (buildSystemPrompt template hits) (promptMessages turn)).1

/-- What `TurnOutcome` says, and that the tokens and the strays behind them are the
provider's: of an answer that is committed the tokens are all. -/
inductive ProvidedOutcome (provider : LlmProvider) (turn : ChatTurn) (db : Database)
    (trace : List TurnEvent) : Database → List ChatEvent → List Json → Prop
  | untouched : ProvidedOutcome provider turn db trace db [] []
  | asked (messageId : Uuid) (askedAt : Time) (tokens : List Str) (strays : List Json) :
      Yielded provider turn trace (tokens.map .string ++ strays) →
      ProvidedOutcome provider turn db trace (askedDb turn messageId askedAt db)
        (tokens.map .token) strays
  | answered (made : MadeAnswer) (template : Str) (closing : List ChatEvent) :
      made.Grounded trace → closing <+: made.closing →
      Replied provider turn (buildSystemPrompt template made.hits) made.tokens made.generation →
      ProvidedOutcome provider turn db trace (made.db turn db)
        (made.tokens.map .token ++ closing) []

/-! ## What holds at each stage -/

section Spec

variable {settings : Settings} {engine : SearchEngine} {provider : LlmProvider} {turn : ChatTurn}
  {db : Database} {trace : List TurnEvent} {state state' : ProvidedTurn} {event : TurnEvent}

/-- The prompt names the sources that were retrieved. -/
def Prompted (state : RagState) : Prop :=
  ∃ template, state.systemPrompt = buildSystemPrompt template state.hits

/-- The provider while a node of the graph runs: the parts so far, the strays and what is
left are its output, and after `generate` the tokens are. -/
def NodeProvided (provider : LlmProvider) (turn : ChatTurn) (stream : Streaming)
    (strayed : List Json) (rest : List Json × Except Str TokenCounts) : Prop :=
  match stream.node with
  | .generate parts => provider.astream stream.state.systemPrompt (promptMessages turn) =
      (parts.map .string ++ (strayed ++ rest.1), rest.2)
  | _ => Replied provider turn stream.state.systemPrompt (stream.parts ++ waiting stream.queue)
      stream.state.generation

/-- The answer is in the database, and it is what the provider replied. -/
structure Stored (provider : LlmProvider) (turn : ChatTurn) (db : Database)
    (trace : List TurnEvent) (made : MadeAnswer) (last : Database) : Prop where
  grounded : made.Grounded trace
  replied : ∃ template, Replied provider turn (buildSystemPrompt template made.hits) made.tokens
    made.generation
  db : last = made.db turn db

/-- What holds at each stage of a turn besides `StageSane`. -/
def StageProvided (provider : LlmProvider) (turn : ChatTurn) (db : Database)
    (trace : List TurnEvent) (state : ProvidedTurn) : Prop :=
  match state.turn.stage with
  | .opened | .asked => True
  | .streaming stream => Prompted stream.state ∧ NodeProvided provider turn stream
      state.strayed state.rest
  | .answered _ _ final => Prompted final ∧ ∃ tokens : List Str,
      state.turn.sent = tokens.map .token ∧
        Replied provider turn final.systemPrompt tokens final.generation
  | .recorded conn answer citations _ => ∃ made : MadeAnswer, answer = made.answer ∧
      citations = made.citations ∧ Stored provider turn db trace made conn.db ∧
        state.turn.sent = made.tokens.map .token
  | .committed answer citations _ => ∃ made : MadeAnswer, answer = made.answer ∧
      citations = made.citations ∧ Stored provider turn db trace made state.turn.db ∧
        state.turn.sent = made.tokens.map .token
  | .cited answer => ∃ made : MadeAnswer, answer = made.answer ∧
      Stored provider turn db trace made state.turn.db ∧
        state.turn.sent = made.tokens.map .token ++ [.citations made.citations]
  | .finished => ∃ made : MadeAnswer, Stored provider turn db trace made state.turn.db ∧
      state.turn.sent = made.tokens.map .token ++ made.closing
  | .aborted => ProvidedOutcome provider turn db trace state.turn.db state.turn.sent
      state.sentStrays

/-- Strays come from `generate` only, and none is sent while a token waits. -/
def NodeStrayed (stream : Streaming) (state : ProvidedTurn) : Prop :=
  match stream.node with
  | .generate _ => state.sentStrays = [] ∨ waiting stream.queue = []
  | _ => state.strayed = []

/-- A turn that has left `generate` has no strays. -/
def StageStrayed (state : ProvidedTurn) : Prop :=
  match state.turn.stage with
  | .streaming stream => NodeStrayed stream state
  | .aborted => True
  | _ => state.strayed = []

theorem sentStrays_of_strayed (h : state.strayed = []) : state.sentStrays = [] :=
  (List.append_eq_nil_iff.mp h).1

theorem token_injective : Function.Injective (List.map ChatEvent.token) :=
  List.map_injective_iff.mpr fun _ _ h => ChatEvent.token.inj h

theorem grounded_mono {made : MadeAnswer} {events : List TurnEvent} (h : made.Grounded trace) :
    made.Grounded (trace ++ events) :=
  ⟨List.mem_append_left _ h.retrieved, h.cited⟩

theorem Stored.mono {made : MadeAnswer} {last : Database} {events : List TurnEvent}
    (h : Stored provider turn db trace made last) :
    Stored provider turn db (trace ++ events) made last :=
  ⟨grounded_mono h.grounded, h.replied, h.db⟩

theorem ProvidedOutcome.mono {sent : List ChatEvent} {last : Database} {strays : List Json}
    {events : List TurnEvent} (h : ProvidedOutcome provider turn db trace last sent strays) :
    ProvidedOutcome provider turn db (trace ++ events) last sent strays := by
  cases h with
  | untouched => exact .untouched
  | asked messageId askedAt tokens _ hyielded =>
      refine .asked messageId askedAt tokens _ ?_
      rcases hyielded with hnone | ⟨began, hits, template, hretrieved, hbegins⟩
      · exact .inl hnone
      · exact .inr ⟨began, hits, template, List.mem_append_left _ hretrieved, hbegins⟩
  | answered made template closing hgrounded hclosing hreplied =>
      exact .answered made template closing (grounded_mono hgrounded) hclosing hreplied

theorem Stored.outcome {made : MadeAnswer} {closing : List ChatEvent}
    (h : Stored provider turn db trace made state.turn.db) (hclosing : closing <+: made.closing)
    (hsent : state.turn.sent = made.tokens.map .token ++ closing) :
    ProvidedOutcome provider turn db trace state.turn.db state.turn.sent [] := by
  obtain ⟨template, hreplied⟩ := h.replied
  rw [h.db, hsent]
  exact .answered made template closing h.grounded hclosing hreplied

/-- What was sent so far is a beginning of the provider's output. -/
theorem NodeProvided.begins {stream : Streaming} (hsane : NodeSane stream)
    (hstrayed : NodeStrayed stream state)
    (h : NodeProvided provider turn stream state.strayed state.rest) :
    stream.parts.map .string ++ state.sentStrays <+:
      (provider.astream stream.state.systemPrompt (promptMessages turn)).1 := by
  obtain ⟨conn, node, graph, queue, final, parts⟩ := stream
  cases node with
  | generate yielded =>
      obtain rfl : yielded = parts ++ waiting queue := hsane
      rw [show provider.astream graph.systemPrompt (promptMessages turn) = _ from h]
      rcases hstrayed with hnone | hwaiting
      · -- no stray is sent: tokens wait behind the parts
        rw [hnone, List.append_nil, List.map_append, List.append_assoc]
        exact List.prefix_append _ _
      · have hwaiting' : waiting queue = [] := hwaiting
        rw [hwaiting', List.append_nil, ProvidedTurn.strayed, List.append_assoc,
          ← List.append_assoc]
        exact List.prefix_append _ _
  | _ =>
      obtain ⟨_, _, hastream⟩ := Replied.astream h
      rw [hastream, sentStrays_of_strayed hstrayed, List.append_nil, List.map_append]
      exact List.prefix_append _ _

theorem Replied.yielded {began : Time} {hits : List SearchHit} {template : Str}
    {tokens : List Str} {generation : Generation}
    (h : Replied provider turn (buildSystemPrompt template hits) tokens generation)
    (hretrieved : .retrieve began hits ∈ trace) :
    Yielded provider turn trace (tokens.map .string ++ []) := by
  obtain ⟨_, _, hastream⟩ := h.astream
  refine .inr ⟨began, hits, template, hretrieved, ?_⟩
  rw [hastream, List.append_nil]

theorem asked_outcome {tokens : List Str} {strays : List Json} (h : Asked turn db state.turn)
    (hsent : state.turn.sent = tokens.map .token)
    (hyielded : Yielded provider turn trace (tokens.map .string ++ strays)) :
    ProvidedOutcome provider turn db trace state.turn.db state.turn.sent strays := by
  obtain ⟨messageId, askedAt, hdb⟩ := h
  rw [hdb, hsent]
  exact .asked messageId askedAt tokens strays hyielded

/-- Whatever the stage, the outcome is one of the three. -/
theorem StageProvided.outcome (hsane : StageSane settings engine turn db trace state.turn)
    (hstrayed : StageStrayed state) (h : StageProvided provider turn db trace state) :
    ProvidedOutcome provider turn db trace state.turn.db state.turn.sent state.sentStrays := by
  obtain ⟨⟨stage, now, sent, alerts⟩, rest, strays, sentStrays⟩ := state
  cases stage with
  | opened =>
      obtain ⟨rfl, rfl⟩ := hsane
      obtain rfl : sentStrays = [] := (List.append_eq_nil_iff.mp hstrayed).1
      exact .untouched
  | asked =>
      obtain ⟨hasked, hsent⟩ := hsane
      have hsent' : sent = ([] : List Str).map .token := hsent
      obtain rfl : sentStrays = [] := (List.append_eq_nil_iff.mp hstrayed).1
      exact asked_outcome hasked hsent' (.inl rfl)
  | streaming stream =>
      obtain ⟨hasked, hsent, ⟨began, hretrieved, _⟩, hnode⟩ := hsane
      obtain ⟨⟨template, hprompt⟩, hprovided⟩ := h
      refine asked_outcome hasked hsent (.inr ⟨began, stream.state.hits, template, hretrieved, ?_⟩)
      rw [← hprompt]
      exact hprovided.begins hnode hstrayed
  | answered conn answer final =>
      obtain ⟨hasked, _, _, _, ⟨⟨began, hretrieved, _⟩, _⟩⟩ := hsane
      obtain ⟨⟨template, hprompt⟩, tokens, hsent, hreplied⟩ := h
      obtain rfl : sentStrays = [] := (List.append_eq_nil_iff.mp hstrayed).1
      rw [hprompt] at hreplied
      exact asked_outcome hasked hsent (hreplied.yielded hretrieved)
  | recorded conn answer citations crossed =>
      obtain ⟨made, _, _, hstored, hsent⟩ := h
      obtain ⟨template, hreplied⟩ := hstored.replied
      obtain rfl : sentStrays = [] := (List.append_eq_nil_iff.mp hstrayed).1
      exact asked_outcome hsane.1 hsent (hreplied.yielded hstored.grounded.retrieved)
  | committed answer citations crossed =>
      obtain ⟨made, _, _, hstored, hsent⟩ := h
      obtain rfl : sentStrays = [] := (List.append_eq_nil_iff.mp hstrayed).1
      exact hstored.outcome List.nil_prefix (by rw [List.append_nil]; exact hsent)
  | cited answer =>
      obtain ⟨made, _, hstored, hsent⟩ := h
      obtain rfl : sentStrays = [] := (List.append_eq_nil_iff.mp hstrayed).1
      exact hstored.outcome (List.prefix_append [ChatEvent.citations made.citations] _) hsent
  | finished =>
      obtain ⟨made, hstored, hsent⟩ := h
      obtain rfl : sentStrays = [] := (List.append_eq_nil_iff.mp hstrayed).1
      exact hstored.outcome List.prefix_rfl hsent
  | aborted => exact h

/-! ## Steps -/

/-- The provider keeps its account when the graph moves on. -/
theorem NodeProvided.next {stream stream' : Streaming} {after : TurnState}
    {strayed : List Json} {rest rest' : List Json × Except Str TokenCounts}
    (hsane : NodeSane stream) (hfree : event.generates = true → strayed = [])
    (h : NodeProvided provider turn stream strayed rest)
    (hnext : nextNode stream event = some stream')
    (hrest : nextRest provider turn after event rest = some rest') :
    NodeProvided provider turn stream' strayed rest' := by
  obtain ⟨conn, node, graph, queue, final, parts⟩ := stream
  cases event with
  | token text =>
      cases node with
      | generate yielded =>
          cases hnext
          obtain rfl := hfree rfl
          simp only [nextRest] at hrest
          split at hrest
          · next found items ending =>
              split_ifs at hrest with hfound
              cases hrest
              subst hfound
              show provider.astream graph.systemPrompt (promptMessages turn) = _
              rw [show provider.astream graph.systemPrompt (promptMessages turn) = _ from h]
              simp
          · cases hrest
      | cite => cases hnext
      | ended => cases hnext
  | generated generation =>
      cases node with
      | generate yielded =>
          cases hnext
          obtain rfl := hfree rfl
          simp only [nextRest] at hrest
          split at hrest
          · next counts =>
              split_ifs at hrest with hmatches
              obtain ⟨hcounts, hname, hmodel⟩ := hmatches
              obtain rfl : yielded = parts ++ waiting queue := hsane
              refine ⟨⟨counts, hcounts, ?_⟩, hname, hmodel⟩
              rw [show provider.astream graph.systemPrompt (promptMessages turn) = _ from h]
              simp
          · cases hrest
      | cite => cases hnext
      | ended => cases hnext
  | cite =>
      cases node with
      | generate yielded => cases hnext
      | cite =>
          simp only [nextNode] at hnext
          split at hnext
          · cases hnext
            show Replied _ _ _ (parts ++ waiting (queue ++ _)) _
            rw [waiting_append, waiting_values, waiting_nil, List.append_nil]
            exact h
          · cases hnext
      | ended => cases hnext
  | _ => cases hnext

/-- The end of the `retrieve` node: the generator is begun. -/
theorem prompted_of_openAnswer {conn conn' : Conn} {hits : List SearchHit} {systemPrompt : Str}
    (h : (openAnswer settings engine turn).Runs conn (hits, systemPrompt) conn') :
    ∃ template, systemPrompt = buildSystemPrompt template hits := by
  simp only [openAnswer, retrieve, Program.runs_bind, Program.runs_pure, Prod.mk.injEq] at h
  obtain ⟨_, _, _, _, _, _, template, _, _, ⟨rfl, rfl⟩, _⟩ := h
  exact ⟨template, rfl⟩

/-- What holds while the answer is streamed holds again after a chunk is taken or the
graph has moved on. -/
theorem StageProvided.runStreaming {stream : Streaming} {after : TurnState}
    {rest : List Json × Except Str TokenCounts} (hstage : state.turn.stage = .streaming stream)
    (hnode : NodeSane stream) (hsent : state.turn.sent = stream.parts.map .token)
    (hfree : event.generates = true → state.strayed = [])
    (h : StageProvided provider turn db trace state)
    (hturn : runTurn settings engine turn state.turn event = some after)
    (hrest : nextRest provider turn after event state.rest = some rest) :
    StageProvided provider turn db (trace ++ [event]) { state with turn := after, rest } := by
  simp only [StageProvided, hstage] at h
  obtain ⟨hprompted, hprovided⟩ := h
  unfold runTurn at hturn
  simp only [hstage] at hturn
  split at hturn
  · -- a chunk is taken: nothing is yielded
    cases hrest
    split at hturn
    · cases hturn
    · next token queue hqueue =>
        cases hturn
        refine ⟨hprompted, ?_⟩
        obtain ⟨conn, node, graph, _, final, parts⟩ := stream
        obtain rfl := hqueue
        cases node with
        | generate yielded => exact hprovided
        | _ =>
            simp only [NodeProvided, waiting_custom] at hprovided ⊢
            rwa [List.append_assoc, List.singleton_append]
    · next final queue hqueue =>
        cases hturn
        refine ⟨hprompted, ?_⟩
        obtain ⟨conn, node, graph, _, _, parts⟩ := stream
        obtain rfl := hqueue
        cases node <;> exact hprovided
  · -- the stream of the graph has ended
    split at hturn
    · next hended hqueue =>
        cases hturn
        obtain ⟨hfinal, _⟩ := hnode.drained hended hqueue
        simp only [NodeProvided, hended, hqueue, waiting_nil, List.append_nil] at hprovided
        refine ⟨hfinal ▸ hprompted, stream.parts, hsent, ?_⟩
        rw [hfinal]
        exact hprovided
    · cases hturn
  · obtain ⟨later, hlater, rfl⟩ := Option.map_eq_some_iff.mp hturn
    obtain ⟨_, _, _, hhits, hprompt⟩ := hnode.next hlater
    refine ⟨?_, hprovided.next hnode hfree hlater hrest⟩
    unfold Prompted
    rw [hhits, hprompt]
    exact hprompted

/-- The answer that is recorded is what the provider replied. -/
theorem stored_of_record {conn conn' : Conn} {final : RagState} {tokens : List Str}
    {draw : AnswerDraw} {now : Time} {crossed : Bool} (hasked : Asked turn db state.turn)
    (hdrafted : Drafted settings engine turn trace state.turn.db conn tokens final)
    (hprompted : Prompted final)
    (hreplied : Replied provider turn final.systemPrompt tokens final.generation)
    (hrecord : (recordAnswer turn tokens.flatten final.citations final.generation draw now).Runs
      conn crossed conn') :
    ∃ made : MadeAnswer, tokens = made.tokens ∧ final.citations = made.citations ∧
      Stored provider turn db trace made conn'.db := by
  obtain ⟨messageId, askedAt, hdb⟩ := hasked
  obtain ⟨⟨began, hretrieved, hopen⟩, hcited⟩ := hdrafted
  obtain ⟨template, hprompt⟩ := hprompted
  -- the transaction began on the committed question, and nothing else was written
  obtain rfl := openAnswer_eq_ok hopen
  obtain ⟨costUsd, hcommitted⟩ := db_of_recordAnswer rfl rfl hrecord
  rw [hprompt] at hreplied
  refine ⟨⟨messageId, askedAt, began, tokens, final.hits, final.citations, final.generation,
    costUsd, draw, began⟩, rfl, rfl, ⟨hretrieved, hcited⟩, ⟨template, hreplied⟩, ?_⟩
  rw [hcommitted]
  show (state.turn.db.insert _ _).insert _ _ = _
  rw [hdb]
  rfl

/-- What holds at a stage holds again after the turn has run on. -/
theorem StageProvided.run {after : TurnState} {rest : List Json × Except Str TokenCounts}
    (hsane : StageSane settings engine turn db trace state.turn) (hstrayed : StageStrayed state)
    (hfree : event.generates = true → state.strayed = [])
    (h : StageProvided provider turn db trace state)
    (hturn : runTurn settings engine turn state.turn event = some after)
    (hrest : nextRest provider turn after event state.rest = some rest) :
    StageProvided provider turn db (trace ++ [event]) { state with turn := after, rest } := by
  cases hstage : state.turn.stage with
  | opened =>
      simp only [runTurn, hstage] at hturn
      split at hturn
      · split at hturn
        · cases hturn
          trivial
        · cases hturn
      · cases hturn
  | asked =>
      simp only [StageStrayed, hstage] at hstrayed
      simp only [runTurn, hstage] at hturn
      split at hturn
      · next began hits =>
          split at hturn
          · next found systemPrompt conn hopen =>
              split at hturn
              · next hfound =>
                  cases hturn
                  cases hrest
                  subst hfound
                  refine ⟨prompted_of_openAnswer hopen, ?_⟩
                  show provider.astream systemPrompt (promptMessages turn) =
                    ([] ++ (state.strayed ++ _), _)
                  rw [hstrayed]
                  rfl
              · cases hturn
          · cases hturn
      · cases hturn
  | streaming stream =>
      simp only [StageSane, hstage] at hsane
      obtain ⟨_, hsent, _, hnode⟩ := hsane
      exact h.runStreaming hstage hnode hsent hfree hturn hrest
  | answered conn answer final =>
      simp only [StageSane, hstage] at hsane
      simp only [StageProvided, hstage] at h
      simp only [runTurn, hstage] at hturn
      obtain ⟨hasked, tokens, rfl, hsent, hdrafted⟩ := hsane
      obtain ⟨hprompted, found, hfound, hreplied⟩ := h
      obtain rfl := token_injective (hsent.symm.trans hfound)
      split at hturn
      · next draw now =>
          split at hturn
          · next crossed recorded hrecord =>
              cases hturn
              obtain ⟨made, rfl, hcitations, hstored⟩ :=
                stored_of_record hasked hdrafted hprompted hreplied hrecord
              exact ⟨made, rfl, hcitations, hstored.mono, hsent⟩
          · cases hturn
      · cases hturn
  | recorded conn answer citations crossed =>
      simp only [StageProvided, hstage] at h
      simp only [runTurn, hstage] at hturn
      obtain ⟨made, hanswer, hcitations, hstored, hsent⟩ := h
      split at hturn
      · cases hturn
        exact ⟨made, hanswer, hcitations, hstored.mono, hsent⟩
      · cases hturn
  | committed answer citations crossed =>
      simp only [StageProvided, hstage] at h
      simp only [runTurn, hstage] at hturn
      obtain ⟨made, hanswer, rfl, hstored, hsent⟩ := h
      split at hturn
      · split at hturn
        · cases hturn
          exact ⟨made, hanswer, rfl, hstored.mono, hsent⟩
        · cases hturn
      · split at hturn
        · cases hturn
        · cases hturn
          exact ⟨made, hanswer, hstored.mono, congrArg (· ++ [_]) hsent⟩
      · cases hturn
  | cited answer =>
      simp only [StageProvided, hstage] at h
      simp only [runTurn, hstage] at hturn
      obtain ⟨made, rfl, hstored, hsent⟩ := h
      split at hturn
      · cases hturn
        refine ⟨made, hstored.mono, ?_⟩
        show state.turn.sent ++ [_] = _
        rw [hsent, List.append_assoc]
        rfl
      · cases hturn
  | finished =>
      simp only [runTurn, hstage] at hturn
      cases hturn
  | aborted =>
      simp only [runTurn, hstage] at hturn
      cases hturn

/-- Strays stay what they are when the graph moves on. -/
theorem NodeStrayed.next {stream stream' : Streaming}
    (hfree : event.generates = true → state.strayed = []) (h : NodeStrayed stream state)
    (hnext : nextNode stream event = some stream') : NodeStrayed stream' state := by
  obtain ⟨conn, node, graph, queue, final, parts⟩ := stream
  cases event with
  | token text =>
      cases node with
      | generate yielded =>
          cases hnext
          exact .inl (sentStrays_of_strayed (hfree rfl))
      | cite => cases hnext
      | ended => cases hnext
  | generated generation =>
      cases node with
      | generate yielded =>
          cases hnext
          exact hfree rfl
      | cite => cases hnext
      | ended => cases hnext
  | cite =>
      cases node with
      | generate yielded => cases hnext
      | cite =>
          simp only [nextNode] at hnext
          split at hnext
          · cases hnext
            exact h
          · cases hnext
      | ended => cases hnext
  | _ => cases hnext

/-- A chunk that is taken was in front of the strays. -/
theorem NodeStrayed.take {stream : Streaming} {chunk : Chunk} {queue : List Chunk}
    (h : NodeStrayed stream state) (hqueue : stream.queue = chunk :: queue) (parts : List Str)
    (final : RagState) : NodeStrayed { stream with queue, parts, final } state := by
  obtain ⟨conn, node, graph, _, _, _⟩ := stream
  obtain rfl := hqueue
  cases node with
  | generate yielded =>
      refine h.imp_right fun hwaiting => ?_
      have hwaiting' : waiting [chunk] ++ waiting queue = [] := by
        rw [← waiting_append]
        exact hwaiting
      exact (List.append_eq_nil_iff.mp hwaiting').2
  | cite => exact h
  | ended => exact h

theorem StageStrayed.run {after : TurnState} {rest : List Json × Except Str TokenCounts}
    (hfree : event.generates = true → state.strayed = []) (h : StageStrayed state)
    (hturn : runTurn settings engine turn state.turn event = some after) :
    StageStrayed { state with turn := after, rest } := by
  cases hstage : state.turn.stage with
  | asked =>
      simp only [StageStrayed, hstage] at h
      simp only [runTurn, hstage] at hturn
      split at hturn
      · split at hturn
        · split at hturn
          · cases hturn
            exact .inl (sentStrays_of_strayed h)
          · cases hturn
        · cases hturn
      · cases hturn
  | streaming stream =>
      simp only [StageStrayed, hstage] at h
      simp only [runTurn, hstage] at hturn
      split at hturn
      · split at hturn
        · cases hturn
        · next token queue hqueue =>
            cases hturn
            exact h.take hqueue _ _
        · next final queue hqueue =>
            cases hturn
            exact h.take hqueue _ _
      · split at hturn
        · next hended hqueue =>
            cases hturn
            simp only [NodeStrayed, hended] at h
            exact h
        · cases hturn
      · obtain ⟨later, hlater, rfl⟩ := Option.map_eq_some_iff.mp hturn
        exact h.next hfree hlater
  | finished =>
      simp only [runTurn, hstage] at hturn
      cases hturn
  | aborted =>
      simp only [runTurn, hstage] at hturn
      cases hturn
  | _ =>
      -- the strays are none and stay none
      simp only [StageStrayed, hstage] at h
      simp only [runTurn, hstage] at hturn
      repeat' split at hturn
      all_goals cases hturn
      all_goals exact h

theorem nextProvided_turn
    (hnext : nextProvided settings engine provider turn state (.turn event) = some state') :
    (event.generates = true → state.strayed = []) ∧
      ∃ after rest, nextTurn settings engine turn state.turn event = some after ∧
        nextRest provider turn after event state.rest = some rest ∧
          state' = { state with turn := after, rest } := by
  simp only [nextProvided] at hnext
  split_ifs at hnext with hblocked
  simp only [Option.bind_eq_bind, Option.bind_eq_some_iff, Option.some.injEq] at hnext
  obtain ⟨after, hturn, rest, hrest, rfl⟩ := hnext
  refine ⟨fun hgenerates => ?_, after, rest, hturn, hrest, rfl⟩
  simpa [hgenerates] using hblocked

theorem nextProvided_stray
    (hnext : nextProvided settings engine provider turn state .stray = some state') :
    ∃ stream parts item items ending, state.turn.stage = .streaming stream ∧
      stream.node = .generate parts ∧ state.rest = (item :: items, ending) ∧
        state' = { state with rest := (items, ending), strays := state.strays ++ [item] } := by
  simp only [nextProvided] at hnext
  split at hnext
  · next stream item items ending hstage hrest =>
      split_ifs at hnext with hyields
      cases hnext
      obtain ⟨hgenerate, _⟩ := Bool.and_eq_true_iff.mp hyields
      cases hnode : stream.node with
      | generate parts => exact ⟨stream, parts, item, items, ending, hstage, hnode, hrest, rfl⟩
      | cite =>
          rw [hnode] at hgenerate
          cases hgenerate
      | ended =>
          rw [hnode] at hgenerate
          cases hgenerate
  · cases hnext

theorem nextProvided_takeStray
    (hnext : nextProvided settings engine provider turn state .takeStray = some state') :
    ∃ stream item strays, state.turn.stage = .streaming stream ∧ stream.queue = [] ∧
      state.strays = item :: strays ∧
        state' = { state with strays, sentStrays := state.sentStrays ++ [item] } := by
  simp only [nextProvided] at hnext
  split at hnext
  · next stream item strays hstage hstrays =>
      split_ifs at hnext with hempty
      cases hnext
      exact ⟨stream, item, strays, hstage, List.isEmpty_iff.mp hempty, hstrays, rfl⟩
  · cases hnext

/-- A run with a provider is a run of the turn. -/
theorem turnRuns_of_providedRuns {events : List ProvidedEvent}
    (hrun : ProvidedRuns settings engine provider turn db events state) :
    TurnRuns settings engine turn db (turnEvents events) state.turn := by
  induction hrun with
  | nil => exact .nil
  | @snoc _ _ _ event _ hlast ih =>
      unfold turnEvents at ih ⊢
      rw [List.filterMap_append]
      cases event with
      | turn event =>
          obtain ⟨_, after, rest, hturn, _, rfl⟩ := nextProvided_turn hlast
          exact ih.snoc hturn
      | stray =>
          obtain ⟨_, _, _, _, _, _, _, _, rfl⟩ := nextProvided_stray hlast
          rw [List.filterMap_cons_none rfl, List.filterMap_nil, List.append_nil]
          exact ih
      | takeStray =>
          obtain ⟨_, _, _, _, _, _, rfl⟩ := nextProvided_takeStray hlast
          rw [List.filterMap_cons_none rfl, List.filterMap_nil, List.append_nil]
          exact ih

/-- A step of the turn keeps what holds at each stage. -/
theorem StageProvided.turnStep (hsane : StageSane settings engine turn db trace state.turn)
    (hstrayed : StageStrayed state) (h : StageProvided provider turn db trace state)
    (hstep : nextProvided settings engine provider turn state (.turn event) = some state') :
    StageProvided provider turn db (trace ++ [event]) state' ∧ StageStrayed state' := by
  obtain ⟨hfree, after, rest, hturn, hrest, rfl⟩ := nextProvided_turn hstep
  rcases nextTurn_eq_some hturn with ⟨rfl, _, rfl⟩ | ⟨_, hrun⟩
  · exact ⟨(h.outcome hsane hstrayed).mono, trivial⟩
  · exact ⟨h.run hsane hstrayed hfree hrun hrest, hstrayed.run hfree hrun⟩

/-- A content that is no text goes from what is to come to the strays. -/
theorem StageProvided.stray (h : StageProvided provider turn db trace state)
    (hstrayed : StageStrayed state)
    (hstep : nextProvided settings engine provider turn state .stray = some state') :
    StageProvided provider turn db trace state' ∧ StageStrayed state' := by
  obtain ⟨stream, parts, item, items, ending, hstage, hnode, hrest, rfl⟩ :=
    nextProvided_stray hstep
  simp only [StageProvided, StageStrayed, NodeProvided, NodeStrayed, hstage, hnode, hrest] at *
  refine ⟨⟨h.1, ?_⟩, hstrayed⟩
  rw [h.2, ProvidedTurn.strayed, ProvidedTurn.strayed]
  simp only [List.append_assoc, List.singleton_append]

/-- A stray that is sent was the first to wait. -/
theorem StageProvided.takeStray (h : StageProvided provider turn db trace state)
    (hstrayed : StageStrayed state)
    (hstep : nextProvided settings engine provider turn state .takeStray = some state') :
    StageProvided provider turn db trace state' ∧ StageStrayed state' := by
  obtain ⟨stream, item, strays, hstage, hqueue, hstrays, rfl⟩ := nextProvided_takeStray hstep
  have hsame : ProvidedTurn.strayed
      { state with strays, sentStrays := state.sentStrays ++ [item] } = state.strayed := by
    rw [ProvidedTurn.strayed, ProvidedTurn.strayed, hstrays, List.append_assoc,
      List.singleton_append]
  simp only [StageProvided, hstage] at h ⊢
  rw [hsame]
  refine ⟨h, ?_⟩
  simp only [StageStrayed, NodeStrayed, hstage, hsame] at hstrayed ⊢
  cases hnode : stream.node with
  | generate parts =>
      right
      rw [hqueue, waiting_nil]
  | cite => simpa only [hnode] using hstrayed
  | ended => simpa only [hnode] using hstrayed

theorem stageProvided_of_runs {events : List ProvidedEvent}
    (hrun : ProvidedRuns settings engine provider turn db events state) :
    StageProvided provider turn db (turnEvents events) state ∧ StageStrayed state := by
  have hstart : StageProvided provider turn db [] (openedProvided db) ∧
      StageStrayed (openedProvided db) := ⟨trivial, rfl⟩
  refine hrun.invariant (P := fun events state =>
    StageProvided provider turn db (turnEvents events) state ∧ StageStrayed state) hstart ?_
  rintro earlier middle event last hearlier ⟨hmiddle, hstrayed⟩ hstep
  have hsane := stageSane_of_runs (turnRuns_of_providedRuns hearlier)
  unfold turnEvents at hmiddle hsane ⊢
  rw [List.filterMap_append]
  cases event with
  | turn event => exact hmiddle.turnStep hsane hstrayed hstep
  | stray =>
      rw [List.filterMap_cons_none rfl, List.filterMap_nil, List.append_nil]
      exact hmiddle.stray hstrayed hstep
  | takeStray =>
      rw [List.filterMap_cons_none rfl, List.filterMap_nil, List.append_nil]
      exact hmiddle.takeStray hstrayed hstep

/-- A turn with a provider stores its answer only when the provider has returned, and
then with all it yielded. -/
theorem providedTurn_outcome {events : List ProvidedEvent}
    (hrun : ProvidedRuns settings engine provider turn db events state) :
    ProvidedOutcome provider turn db (turnEvents events) state.turn.db state.turn.sent
      state.sentStrays :=
  (stageProvided_of_runs hrun).1.outcome (stageSane_of_runs (turnRuns_of_providedRuns hrun))
    (stageProvided_of_runs hrun).2

end Spec

-- a number and the text behind it are sent, in that order
example : (replay (nextProvided {} plainEngine
    ⟨"openai".toList, "gpt-4o".toList, fun _ _ => ([.number 7, .string ['b']], .error [])⟩
    sampleTurn) (openedProvided talkingDb) ([.ask 5 10, .retrieve 11 [sampleHit], .take,
      .take].map .turn ++ [.stray, .takeStray, .stray, .takeStray])).map
        (·.sentStrays.map Json.isText) = some [false, true] := by
  decide +kernel

/-! ## Turns with a vendor -/

section Vendors

variable {settings : Settings} {engine : SearchEngine} {turn : ChatTurn} {db : Database}
  {trace : List ProvidedEvent} {state : ProvidedTurn} {vendor : Vendor}
  {loads : Str → Except Str Json} {exchange : StreamRequest → StreamResponse}

/-- The response to the request of a turn. -/
def Vendor.reply (vendor : Vendor) (exchange : StreamRequest → StreamResponse) (turn : ChatTurn)
    (template : Str) (hits : List SearchHit) : StreamResponse :=
  exchange (vendor.request (buildSystemPrompt template hits) (promptMessages turn))

/-- What `TurnOutcome` says, and that the tokens and the strays behind them are the
contents of the vendor's response.  An answer is committed only for a response that could
be read to its end and whose contents are texts: its tokens are all of them, and its
counts those the response reports last. -/
inductive VendorOutcome (vendor : Vendor) (loads : Str → Except Str Json)
    (exchange : StreamRequest → StreamResponse) (turn : ChatTurn) (db : Database)
    (trace : List TurnEvent) : Database → List ChatEvent → List Json → Prop
  | untouched : VendorOutcome vendor loads exchange turn db trace db [] []
  | asked (messageId : Uuid) (askedAt : Time) (tokens : List Str) (strays : List Json) :
      (tokens.map .string ++ strays = [] ∨ ∃ began hits template, .retrieve began hits ∈ trace ∧
        tokens.map .string ++ strays <+: vendor.wire.contents loads
          (vendor.reply exchange turn template hits)) →
      VendorOutcome vendor loads exchange turn db trace (askedDb turn messageId askedAt db)
        (tokens.map .token) strays
  | answered (made : MadeAnswer) (template : Str) (closing : List ChatEvent)
      (response : StreamResponse) :
      made.Grounded trace → closing <+: made.closing →
      response = vendor.reply exchange turn template made.hits →
      vendor.wire.Complete loads true response →
      made.tokens.map .string = vendor.wire.contents loads response →
      usage? (vendor.wire.counts loads true response {}) = some made.generation.usage →
      made.generation.llmProvider = vendor.name → made.generation.llmModel = vendor.model →
      VendorOutcome vendor loads exchange turn db trace (made.db turn db)
        (made.tokens.map .token ++ closing) []

/-- The streams of both vendors are as their wires say. -/
theorem Vendor.does_stream (vendor : Vendor) (loads : Str → Except Str Json)
    (response : StreamResponse) :
    (vendor.stream loads response).Does () (vendor.wire.Complete loads true response)
      (vendor.wire.contents loads response) (vendor.wire.counts loads true response) := by
  cases vendor with
  | openai provider => exact OpenAILLMProvider.does_astream
  | gemini provider => exact GeminiLLMProvider.does_astream

/-- A stream that returns on a fresh accumulator. -/
theorem consumed_eq_ok {stream : LlmStream Unit} {condition : Prop} {contents items : List Json}
    {change : TokenCounts → TokenCounts} {counts : TokenCounts}
    (hdoes : stream.Does () condition contents change) (h : consumed stream = (items, .ok counts)) :
    condition ∧ items = contents ∧ counts = change {} := by
  have hreturns : stream {} = (items, .ok ((), counts)) := by
    obtain ⟨hitems, hending⟩ := Prod.mk.inj h
    refine Prod.ext hitems ?_
    rcases hresult : (stream {}).2 with fault | ⟨value, after⟩
    · rw [hresult] at hending
      cases hending
    · rw [hresult] at hending
      cases hending
      rfl
  obtain ⟨hholds, hitems, _, hcounts⟩ := hdoes.returns_iff.mp hreturns
  exact ⟨hholds, hitems, hcounts⟩

theorem vendorTurn_outcome
    (hrun : ProvidedRuns settings engine (vendor.provider loads exchange) turn db trace state) :
    VendorOutcome vendor loads exchange turn db (turnEvents trace) state.turn.db state.turn.sent
      state.sentStrays := by
  have houtcome := providedTurn_outcome hrun
  generalize state.turn.db = last at houtcome ⊢
  generalize state.turn.sent = sent at houtcome ⊢
  generalize state.sentStrays = strays at houtcome ⊢
  cases houtcome with
  | untouched => exact .untouched
  | asked messageId askedAt tokens _ hyielded =>
      refine .asked messageId askedAt tokens _ ?_
      rcases hyielded with hnone | ⟨began, hits, template, hretrieved, hbegins⟩
      · exact .inl hnone
      · have hdoes := vendor.does_stream loads (vendor.reply exchange turn template hits)
        have hcontents := hdoes.begins {}
        exact .inr ⟨began, hits, template, hretrieved, hbegins.trans hcontents⟩
  | answered made template closing hgrounded hclosing hreplied =>
      obtain ⟨⟨counts, hcounts, hastream⟩, hname, hmodel⟩ := hreplied
      obtain ⟨hcomplete, hcontents, rfl⟩ := consumed_eq_ok (vendor.does_stream loads _) hastream
      exact .answered made template closing _ hgrounded hclosing rfl hcomplete hcontents hcounts
        hname hmodel

end Vendors

/-! ### A turn with OpenAI -/

def quoted (text : String) : Str := '"' :: text.toList ++ ['"']

/-- A chunk with a text. -/
def textChunk (text : String) : Str × Json :=
  ("\x7b\"choices\": [\x7b\"delta\": \x7b\"content\": ".toList ++ quoted text ++
      "\x7d\x7d], \"usage\": null\x7d".toList,
    .object [("choices".toList, .array [.object [("delta".toList,
      .object [("content".toList, .string text.toList)])]]), ("usage".toList, .null)])

/-- The last chunk, with the counts. -/
def countsChunk : Str × Json :=
  ("\x7b\"choices\": [], \"usage\": ".toList ++
      "\x7b\"prompt_tokens\": 7, \"completion_tokens\": 2\x7d\x7d".toList,
    .object [("choices".toList, .array []), ("usage".toList,
      .object [("prompt_tokens".toList, .number 7), ("completion_tokens".toList, .number 2)])])

def sampleChunks : List (Str × Json) := [textChunk "Rain [", textChunk "1]", countsChunk]

/-- `json.loads` on the data of the sample response. -/
def sampleLoads (data : Str) : Except Str Json :=
  match sampleChunks.find? fun chunk => chunk.1 = data with
  | some chunk => .ok chunk.2
  | none => .error "JSONDecodeError".toList

/-- A response with a comment, two texts, the counts and the end. -/
def sampleResponse : StreamResponse where
  status := .ok ()
  lines := [": ping".toList] ++ sampleChunks.flatMap (fun chunk => [dataField ++ chunk.1, []]) ++
    [dataField ++ "[DONE]".toList, []]
  dropped := none

def sampleVendor : Vendor :=
  .openai ⟨"sk-1".toList, "gpt-4o".toList, 1024, "https://api.openai.com/v1/".toList⟩

def vendorTrace : List ProvidedEvent :=
  [.ask 5 10, .retrieve 11 [sampleHit], .token "Rain [".toList, .take, .take, .take,
    .token "1]".toList, .generated ⟨⟨7, 2⟩, "openai".toList, "gpt-4o".toList⟩, .cite, .take, .take,
    .take, .drained, .record ⟨6, 7⟩ 12, .commit, .sendCitations, .sendDone].map .turn

theorem vendorTurn_outcome_rain : ∃ last,
    ProvidedRuns {} plainEngine (sampleVendor.provider sampleLoads fun _ => sampleResponse)
      sampleTurn talkingDb vendorTrace last ∧
    last.turn.sent = [.token "Rain [".toList, .token "1]".toList,
      .citations [⟨1, Uuid.str 8, Uuid.str 4, "a.pdf".toList, "Rain.".toList⟩], .done 8] ∧
    VendorOutcome sampleVendor sampleLoads (fun _ => sampleResponse) sampleTurn talkingDb
      (turnEvents vendorTrace) last.turn.db last.turn.sent last.sentStrays := by
  have hreplay : (replay (nextProvided {} plainEngine
      (sampleVendor.provider sampleLoads fun _ => sampleResponse) sampleTurn)
      (openedProvided talkingDb) vendorTrace).map (·.turn.sent) =
        some [.token "Rain [".toList, .token "1]".toList,
          .citations [⟨1, Uuid.str 8, Uuid.str 4, "a.pdf".toList, "Rain.".toList⟩], .done 8] := by
    decide +kernel
  obtain ⟨last, hlast, hsent⟩ := Option.map_eq_some_iff.mp hreplay
  have hrun := run_of_replay _ _ _ _ hlast
  exact ⟨last, hrun, hsent, vendorTurn_outcome hrun⟩

end Api
