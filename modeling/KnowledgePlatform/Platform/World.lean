import KnowledgePlatform.Api.Auth
import KnowledgePlatform.Api.Chat
import KnowledgePlatform.Core.Ingestion
import KnowledgePlatform.Foundations.Runs
import KnowledgePlatform.Worker.Webhooks

/-!
# The platform as a transition system

The state is the committed database together with what outlives a transaction:
chat turns whose request was served, and ingestion runs between their
transactions, which end by storing chunks or by an exception.  A step is one
committed transaction; one that fails is rolled back and is no step.  Requests,
worker tasks and the parts of both interleave in any order, for any number of
organizations, and any of them may stop forever after any of its transactions.

Ids are drawn with `uuid4`: an id drawn for an organization, a user, a document
or a conversation was not drawn before (`issued`).  A request names the
organization and the user its credential resolved to; as far as the steps are
concerned these are arbitrary.
-/

open Api Core Foundations Python Relational Worker

namespace Platform

/-- An ingestion run after its first transaction. -/
structure IngestionRun where
  orgId : Uuid
  documentId : Uuid
  storageKey : Str
  deriving DecidableEq

structure World where
  db : Database
  issued : List Uuid
  asked : List ChatTurn
  answering : List ChatTurn
  ingesting : List IngestionRun
  failing : List (IngestionRun × Str)

/-- What a committed transaction was, and what it answered. -/
inductive Event
  | auth (request : AuthRequest) (now : Time) (tokens : Option TokenResponse)
  | authenticated (rawKey : Str) (now : Time) (orgId : Uuid) (creator : User)
  | served (orgId userId : Uuid) (viaApiKey : Bool) (request : Request) (now : Time)
      (response : Response)
  | asked (turn : ChatTurn)
  | answered (turn : ChatTurn) (out : AnswerOut)
  | ingesting (run : IngestionRun)
  | notIngested (orgId documentId : Uuid)
  | stored (run : IngestionRun) (text : Str) (chunks : List Str) (vectors : List Embedding)
  | raised (run : IngestionRun) (message : Str)
  | failed (run : IngestionRun) (message : Str)
  | dispatched (orgId : Uuid) (eventType : Str) (webhooks : List OrgWebhook)

/-- The chat turn a response starts. -/
def startedTurns : Response → List ChatTurn
  | .streaming turn => [turn]
  | _ => []

/-- The ids a request draws for a user, a document or a conversation. -/
def drawnIds : Request → List Uuid
  | .createUser _ id _ | .createDocument _ id | .uploadDocument _ id _ | .createConversation _ id =>
      [id]
  | _ => []

variable (settings : Settings) (crypto : Crypto)

/-- An exception after the first transaction of a run: a library call of the work
raises, or the storing transaction does. -/
inductive Raises (run : IngestionRun) (db : Database) : Str → Prop
  | work {work : IngestionWork} {message : Str} :
      prepareChunks settings work = .error message → Raises run db message
  | storing {work : IngestionWork} {chunks : List Str} {vectors : List Embedding}
      {draw : StoreDraw} {now began : Time} {fault : Fault} {message : Str} :
      prepareChunks settings work = .ok (chunks, vectors) →
      storeChunks run.orgId run.documentId work.provider chunks vectors draw now
        (.start .appUser began db) = .error fault →
      -- the text of a database error is the driver's
      (∀ text, fault = .raised text → message = text) → Raises run db message

inductive Step : World → Event → World → Prop
  | auth {world : World} {request : AuthRequest} {now began : Time}
      {tokens : Option TokenResponse} {conn' : Conn} :
      (∀ id ∈ request.draws, id ∉ world.issued) →
      (request.run settings crypto now).Runs (.start .appAuth began world.db) tokens conn' →
      Step world (.auth request now tokens)
        { world with db := conn'.db, issued := request.draws ++ world.issued }
  | authenticated {world : World} {rawKey : Str} {now began : Time} {orgId : Uuid}
      {creator : User} {conn' : Conn} :
      (resolveApiKey settings crypto now rawKey).Runs (.start .appAuth began world.db)
        (orgId, creator) conn' →
      Step world (.authenticated rawKey now orgId creator) { world with db := conn'.db }
  | served {world : World} {orgId userId : Uuid} {viaApiKey : Bool} {request : Request}
      {now began : Time} {response : Response} {conn' : Conn} :
      (∀ id ∈ drawnIds request, id ∉ world.issued) →
      (serve settings crypto now orgId userId viaApiKey request).Runs
        (.start .appUser began world.db) response conn' →
      Step world (.served orgId userId viaApiKey request now response)
        { world with
          db := conn'.db
          issued := drawnIds request ++ world.issued
          asked := startedTurns response ++ world.asked }
  | asked {world : World} {turn : ChatTurn} {messageId : Uuid} {began : Time} {conn' : Conn} :
      turn ∈ world.asked →
      (persistUserTurn turn messageId).Runs (.start .appUser began world.db) () conn' →
      Step world (.asked turn)
        { world with
          db := conn'.db
          asked := world.asked.erase turn
          answering := turn :: world.answering }
  | answered {world : World} {turn : ChatTurn} {engine : SearchEngine}
      {astream : Str → List (MessageRole × Str) → Except Str (List Str × Generation)}
      {draw : AnswerDraw} {now began : Time} {out : AnswerOut} {conn' : Conn} :
      turn ∈ world.answering →
      (answerTurn settings engine astream turn draw now).Runs (.start .appUser began world.db) out
        conn' →
      Step world (.answered turn out)
        { world with db := conn'.db, answering := world.answering.erase turn }
  | ingesting {world : World} {orgId documentId : Uuid} {storageKey : Str} {began : Time}
      {conn' : Conn} :
      (beginIngestion orgId documentId).Runs (.start .appUser began world.db) (some storageKey)
        conn' →
      Step world (.ingesting ⟨orgId, documentId, storageKey⟩)
        { world with
          db := conn'.db
          ingesting := ⟨orgId, documentId, storageKey⟩ :: world.ingesting }
  | notIngested {world : World} {orgId documentId : Uuid} {began : Time} {conn' : Conn} :
      (beginIngestion orgId documentId).Runs (.start .appUser began world.db) none conn' →
      Step world (.notIngested orgId documentId) { world with db := conn'.db }
  | stored {world : World} {run : IngestionRun} {text : Str} {provider : EmbeddingProvider}
      {chunks : List Str} {vectors : List Embedding} {draw : StoreDraw} {now began : Time}
      {conn' : Conn} :
      run ∈ world.ingesting →
      prepareChunks settings ⟨.ok text, provider⟩ = .ok (chunks, vectors) →
      (storeChunks run.orgId run.documentId provider chunks vectors draw now).Runs
        (.start .appUser began world.db) () conn' →
      Step world (.stored run text chunks vectors)
        { world with db := conn'.db, ingesting := world.ingesting.erase run }
  | raised {world : World} {run : IngestionRun} {message : Str} :
      run ∈ world.ingesting → Raises settings run world.db message →
      Step world (.raised run message)
        { world with
          ingesting := world.ingesting.erase run
          failing := (run, message) :: world.failing }
  | failed {world : World} {run : IngestionRun} {message : Str} {began : Time} {conn' : Conn} :
      (run, message) ∈ world.failing →
      (failIngestion run.orgId run.documentId message).Runs (.start .appUser began world.db) ()
        conn' →
      Step world (.failed run message)
        { world with db := conn'.db, failing := world.failing.erase (run, message) }
  | dispatched {world : World} {orgId : Uuid} {eventType : Str} {webhooks : List OrgWebhook}
      {began : Time} {conn' : Conn} :
      (subscribedWebhooks orgId eventType).Runs (.start .appUser began world.db) webhooks conn' →
      Step world (.dispatched orgId eventType webhooks) { world with db := conn'.db }

/-- The runs of the platform. -/
abbrev Runs (start : World) (trace : List Event) (last : World) : Prop :=
  Run (Step settings crypto) start trace last

/-- The tables whose rows later transactions refer to. -/
def isHeld : Table → Bool
  | .users | .documents | .conversations => true
  | _ => false

/-- A platform with nothing in flight: any database without references between
organizations, whose ids count as drawn. -/
structure Initial (world : World) : Prop where
  sound : schema.Sound world.db
  recorded : ∀ table, isHeld table = true → ∀ row ∈ world.db table, rowId table row ∈ world.issued
  asked : world.asked = []
  answering : world.answering = []
  ingesting : world.ingesting = []
  failing : world.failing = []

/-- The empty platform. -/
def emptyWorld : World := ⟨fun _ => [], [], [], [], [], []⟩

theorem initial_emptyWorld : Initial emptyWorld :=
  ⟨Schema.Sound.empty, fun _ _ _ hrow => absurd hrow List.not_mem_nil, rfl, rfl, rfl, rfl⟩

/-! ### An upload -/

/-- An embedding provider whose vectors are zero. -/
def flatProvider : EmbeddingProvider where
  name := "fake".toList
  model := "flat".toList
  embed := fun texts => .ok (texts.map fun _ => List.replicate embeddingDim 0)

/-- Settings under which two words make two chunks. -/
def wordSettings : Settings := { chunkSize := 5, chunkOverlap := 0 }

def sampleUpload : UploadFile := ⟨some "a.pdf".toList, some "application/pdf".toList, [37]⟩

def sampleRun : IngestionRun := ⟨1, 8, buildKey 1 8 "a.pdf".toList⟩

/-! ## Executing steps -/

/-- What a step is executed from: the input of a transaction and its draws. -/
inductive Action
  | auth (request : AuthRequest)
  | authenticate (rawKey : Str)
  | serve (orgId userId : Uuid) (viaApiKey : Bool) (request : Request)
  | ask (turn : ChatTurn) (messageId : Uuid)
  | answer (turn : ChatTurn) (engine : SearchEngine)
      (astream : Str → List (MessageRole × Str) → Except Str (List Str × Generation))
      (draw : AnswerDraw)
  | beginIngestion (orgId documentId : Uuid)
  | store (run : IngestionRun) (text : Str) (provider : EmbeddingProvider) (draw : StoreDraw)
  | raiseWork (run : IngestionRun) (work : IngestionWork)
  | fail (run : IngestionRun) (message : Str)
  | dispatch (orgId : Uuid) (eventType : Str)

/-- The committed result of a transaction. -/
def transact {α : Type} (role : DbRole) (now : Time) (db : Database) (tx : Tx α) :
    Option (α × Database) :=
  match tx (.start role now db) with
  | .ok (value, conn) => some (value, conn.db)
  | .error _ => none

/-- Whether ids were not drawn before. -/
def areFresh (world : World) (ids : List Uuid) : Bool := ids.all fun id => !world.issued.contains id

theorem areFresh_iff {world : World} {ids : List Uuid} :
    areFresh world ids = true ↔ ∀ id ∈ ids, id ∉ world.issued := by
  simp [areFresh]

/-- Execute an action at a time, unless its transaction fails. -/
def perform (now : Time) (world : World) : Action → Option (Event × World)
  | .auth request =>
      if areFresh world request.draws then
        (transact .appAuth now world.db (request.run settings crypto now)).map fun (tokens, db) =>
          (.auth request now tokens, { world with db, issued := request.draws ++ world.issued })
      else none
  | .authenticate rawKey =>
      (transact .appAuth now world.db (resolveApiKey settings crypto now rawKey)).map
        fun ((orgId, creator), db) => (.authenticated rawKey now orgId creator, { world with db })
  | .serve orgId userId viaApiKey request =>
      if areFresh world (drawnIds request) then
        (transact .appUser now world.db
          (Api.serve settings crypto now orgId userId viaApiKey request)).map fun (response, db) =>
            (.served orgId userId viaApiKey request now response,
              { world with
                db
                issued := drawnIds request ++ world.issued
                asked := startedTurns response ++ world.asked })
      else none
  | .ask turn messageId =>
      if turn ∈ world.asked then
        (transact .appUser now world.db (persistUserTurn turn messageId)).map fun (_, db) =>
          (.asked turn, { world with
            db
            asked := world.asked.erase turn
            answering := turn :: world.answering })
      else none
  | .answer turn engine astream draw =>
      if turn ∈ world.answering then
        (transact .appUser now world.db (answerTurn settings engine astream turn draw now)).map
          fun (out, db) =>
            (.answered turn out, { world with db, answering := world.answering.erase turn })
      else none
  | .beginIngestion orgId documentId =>
      (transact .appUser now world.db (Core.beginIngestion orgId documentId)).map fun (found, db) =>
        match found with
        | none => (.notIngested orgId documentId, { world with db })
        | some storageKey =>
            (.ingesting ⟨orgId, documentId, storageKey⟩, { world with
              db
              ingesting := ⟨orgId, documentId, storageKey⟩ :: world.ingesting })
  | .store run text provider draw =>
      match prepareChunks settings ⟨.ok text, provider⟩ with
      | .error _ => none
      | .ok (chunks, vectors) =>
          if run ∈ world.ingesting then
            (transact .appUser now world.db
              (storeChunks run.orgId run.documentId provider chunks vectors draw now)).map
                fun (_, db) => (.stored run text chunks vectors,
                  { world with db, ingesting := world.ingesting.erase run })
          else none
  | .raiseWork run work =>
      match prepareChunks settings work with
      | .ok _ => none
      | .error message =>
          if run ∈ world.ingesting then
            some (.raised run message, { world with
              ingesting := world.ingesting.erase run
              failing := (run, message) :: world.failing })
          else none
  | .fail run message =>
      if (run, message) ∈ world.failing then
        (transact .appUser now world.db (failIngestion run.orgId run.documentId message)).map
          fun (_, db) =>
            (.failed run message, { world with db, failing := world.failing.erase (run, message) })
      else none
  | .dispatch orgId eventType =>
      (transact .appUser now world.db (subscribedWebhooks orgId eventType)).map
        fun (webhooks, db) => (.dispatched orgId eventType webhooks, { world with db })

/-- Execute actions one after the other, each at its time. -/
def performAll : World → List (Time × Action) → Option (List Event × World)
  | world, [] => some ([], world)
  | world, (now, action) :: actions => do
      let (event, world) ← perform settings crypto now world action
      let (events, world) ← performAll world actions
      some (event :: events, world)

section Perform

variable {settings crypto}

theorem transact_eq_some {α : Type} {role : DbRole} {now : Time} {db db' : Database} {tx : Tx α}
    {value : α} (h : transact role now db tx = some (value, db')) :
    ∃ conn', tx.Runs (.start role now db) value conn' ∧ db' = conn'.db := by
  unfold transact at h
  split at h
  · next result conn' hrun =>
      cases h
      exact ⟨conn', hrun, rfl⟩
  · cases h

/-- What is executed is a step. -/
theorem step_of_perform {now : Time} {world world' : World} {action : Action} {event : Event}
    (h : perform settings crypto now world action = some (event, world')) :
    Step settings crypto world event world' := by
  cases action with
  | auth request =>
      simp only [perform] at h
      split at h
      · next hfresh =>
          obtain ⟨⟨tokens, db⟩, hresult, ⟨⟩⟩ := Option.map_eq_some_iff.mp h
          obtain ⟨conn', hrun, rfl⟩ := transact_eq_some hresult
          exact .auth (areFresh_iff.mp hfresh) hrun
      · cases h
  | authenticate rawKey =>
      simp only [perform] at h
      obtain ⟨⟨⟨orgId, creator⟩, db⟩, hresult, ⟨⟩⟩ := Option.map_eq_some_iff.mp h
      obtain ⟨conn', hrun, rfl⟩ := transact_eq_some hresult
      exact .authenticated hrun
  | serve orgId userId viaApiKey request =>
      simp only [perform] at h
      split at h
      · next hfresh =>
          obtain ⟨⟨response, db⟩, hresult, ⟨⟩⟩ := Option.map_eq_some_iff.mp h
          obtain ⟨conn', hrun, rfl⟩ := transact_eq_some hresult
          exact .served (areFresh_iff.mp hfresh) hrun
      · cases h
  | ask turn messageId =>
      simp only [perform] at h
      split at h
      · next hturn =>
          obtain ⟨⟨_, db⟩, hresult, ⟨⟩⟩ := Option.map_eq_some_iff.mp h
          obtain ⟨conn', hrun, rfl⟩ := transact_eq_some hresult
          exact .asked hturn hrun
      · cases h
  | answer turn engine astream draw =>
      simp only [perform] at h
      split at h
      · next hturn =>
          obtain ⟨⟨out, db⟩, hresult, ⟨⟩⟩ := Option.map_eq_some_iff.mp h
          obtain ⟨conn', hrun, rfl⟩ := transact_eq_some hresult
          exact .answered hturn hrun
      · cases h
  | beginIngestion orgId documentId =>
      simp only [perform] at h
      obtain ⟨⟨found, db⟩, htransact, hresult⟩ := Option.map_eq_some_iff.mp h
      obtain ⟨conn', hrun, rfl⟩ := transact_eq_some htransact
      cases found with
      | none =>
          cases hresult
          exact .notIngested hrun
      | some storageKey =>
          cases hresult
          exact .ingesting hrun
  | store run text provider draw =>
      simp only [perform] at h
      split at h
      · cases h
      -- the work outside the transaction succeeded
      · next chunks vectors hprepare =>
          split at h
          · next hflying =>
              obtain ⟨⟨_, db⟩, hresult, ⟨⟩⟩ := Option.map_eq_some_iff.mp h
              obtain ⟨conn', hrun, rfl⟩ := transact_eq_some hresult
              exact .stored hflying hprepare hrun
          · cases h
  | raiseWork run work =>
      simp only [perform] at h
      split at h
      · cases h
      · next message hwork =>
          split at h
          · next hflying =>
              cases h
              exact .raised hflying (.work hwork)
          · cases h
  | fail run message =>
      simp only [perform] at h
      split at h
      · next hflying =>
          obtain ⟨⟨_, db⟩, hresult, ⟨⟩⟩ := Option.map_eq_some_iff.mp h
          obtain ⟨conn', hrun, rfl⟩ := transact_eq_some hresult
          exact .failed hflying hrun
      · cases h
  | dispatch orgId eventType =>
      simp only [perform] at h
      obtain ⟨⟨webhooks, db⟩, hresult, ⟨⟩⟩ := Option.map_eq_some_iff.mp h
      obtain ⟨conn', hrun, rfl⟩ := transact_eq_some hresult
      exact .dispatched hrun

/-- A request that is served shows as such. -/
theorem event_of_serve {now : Time} {world world' : World} {orgId userId : Uuid}
    {viaApiKey : Bool} {request : Request} {event : Event}
    (h : perform settings crypto now world (.serve orgId userId viaApiKey request) =
      some (event, world')) :
    ∃ response, event = .served orgId userId viaApiKey request now response := by
  simp only [perform] at h
  split at h
  · obtain ⟨⟨response, db⟩, _, ⟨⟩⟩ := Option.map_eq_some_iff.mp h
    exact ⟨response, rfl⟩
  · cases h

/-- A request for tokens that is answered shows as such. -/
theorem event_of_auth {now : Time} {world world' : World} {request : AuthRequest} {event : Event}
    (h : perform settings crypto now world (.auth request) = some (event, world')) :
    ∃ tokens, event = .auth request now tokens := by
  simp only [perform] at h
  split at h
  · obtain ⟨⟨tokens, db⟩, _, ⟨⟩⟩ := Option.map_eq_some_iff.mp h
    exact ⟨tokens, rfl⟩
  · cases h

theorem runs_of_performAll {actions : List (Time × Action)} {start last : World}
    {trace : List Event} (h : performAll settings crypto start actions = some (trace, last)) :
    Runs settings crypto start trace last := by
  induction actions generalizing start trace with
  | nil =>
      cases h
      exact .nil
  | cons timed actions ih =>
      obtain ⟨now, action⟩ := timed
      simp only [performAll, Option.bind_eq_bind, Option.bind_eq_some_iff] at h
      obtain ⟨⟨event, middle⟩, hfirst, ⟨events, world⟩, hrest, ⟨⟩⟩ := h
      exact Run.append (Run.single (step_of_perform hfirst)) (ih hrest)

end Perform

/-! ## What a step does -/

/-- A connection of `app_user` bound to an organization. -/
def boundConn (orgId : Uuid) (began : Time) (db : Database) : Conn :=
  ⟨.appUser, some orgId, began, db⟩

/-- The organization of a run has no such document. -/
def Gone (run : IngestionRun) (db : Database) : Prop :=
  ∀ document ∈ db .documents, document.id = run.documentId → document.orgId ≠ run.orgId

/-- The statements a step executes on a connection, and what it answers. -/
inductive Effect (db : Database) : Event → Conn → List (Write schema) → Prop
  | auth {request : AuthRequest} {now began : Time} {tokens : Option TokenResponse}
      {writes : List (Write schema)} :
      (∀ write ∈ writes, AuthWrite request.draws write) →
      Effect db (.auth request now tokens) (.start .appAuth began db) writes
  | authenticated {rawKey : Str} {now began : Time} {orgId keyId : Uuid} {creator : User} :
      Effect db (.authenticated rawKey now orgId creator) (.start .appAuth began db)
        [.update .apiKeys (fun row => row.id == keyId) (touchKey now)]
  | served {orgId userId : Uuid} {viaApiKey : Bool} {request : Request} {now began : Time}
      {response : Response} {principal : Principal} {writes : List (Write schema)} :
      Admitted request.roles orgId userId db principal → response.Within orgId db →
      (writes = [] ∨ writes = request.writes settings crypto principal now began) →
      Effect db (.served orgId userId viaApiKey request now response) (boundConn orgId began db)
        writes
  | asked {turn : ChatTurn} {messageId : Uuid} {began : Time} :
      Effect db (.asked turn) (boundConn turn.orgId began db) [questionWrite turn messageId began]
  | answered {turn : ChatTurn} {out : AnswerOut} {generation : Generation}
      {costUsd : Numeric 12 6} {draw : AnswerDraw} {began : Time} :
      (∀ hit ∈ out.hits, HitWithin turn.orgId db hit) →
      cite out.tokens.flatten out.hits = .ok out.citations →
      Effect db (.answered turn out) (boundConn turn.orgId began db)
        (answerWrites turn out.tokens.flatten out.citations generation costUsd draw began)
  | ingesting {run : IngestionRun} {began : Time} :
      (∃ document ∈ db .documents, document.id = run.documentId ∧ document.orgId = run.orgId) →
      Effect db (.ingesting run) (boundConn run.orgId began db)
        [statusWrite run.documentId .processing none]
  | notIngested {orgId documentId : Uuid} {began : Time} :
      Effect db (.notIngested orgId documentId) (boundConn orgId began db) []
  | stored {run : IngestionRun} {text : Str} {provider : EmbeddingProvider} {chunks : List Str}
      {vectors : List Embedding} {draw : StoreDraw} {began : Time}
      {recorded ready : List (Write schema)} :
      chunkText text settings.chunkSize settings.chunkOverlap = .ok chunks →
      chunks.length = vectors.length →
      ((chunks = [] ∧ recorded = []) ∨ (chunks ≠ [] ∧ ∃ costUsd, recorded = [.insert .usageEvents
        ((embeddingUsage run.documentId provider chunks).event run.orgId costUsd draw.eventId
          began)])) →
      ((ready = [] ∧ Gone run db) ∨ ready = [statusWrite run.documentId .ready none]) →
      Effect db (.stored run text chunks vectors) (boundConn run.orgId began db)
        (clearChunks run.documentId :: insertChunks
          (chunkRows run.orgId run.documentId draw.chunkIds began 0 chunks vectors) ++
            (recorded ++ ready))
  | raised {run : IngestionRun} {message : Str} {began : Time} :
      Effect db (.raised run message) (boundConn run.orgId began db) []
  | failed {run : IngestionRun} {message : Str} {began : Time} {writes : List (Write schema)} :
      ((writes = [] ∧ Gone run db) ∨ writes =
        [statusWrite run.documentId .failed (some (message.take maxErrorLength))]) →
      Effect db (.failed run message) (boundConn run.orgId began db) writes
  | dispatched {orgId : Uuid} {eventType : Str} {webhooks : List OrgWebhook} {began : Time} :
      (∀ webhook ∈ webhooks, webhook.orgId = orgId) →
      Effect db (.dispatched orgId eventType webhooks) (boundConn orgId began db) []

variable {settings crypto}

theorem gone_of_not_visible {run : IngestionRun} {began : Time} {db : Database}
    (hnone : ∀ document ∈ db .documents, document.id = run.documentId →
      (boundConn run.orgId began db).policy.visible .documents document = false) :
    Gone run db := by
  intro document hdocument hid horg
  have hvisible := hnone document hdocument hid
  simp [boundConn, Conn.policy, Core.policy, orgIsolation, rowOrg, horg] at hvisible

/-- Clearing and inserting chunks leaves the other tables as they are. -/
theorem spares_filling {documentId : Uuid} {rows : List DocumentChunk} {table : Table}
    (htable : table ≠ .documentChunks) :
    ∀ write ∈ clearChunks documentId :: insertChunks rows, schema.Spares table write := by
  intro write hwrite
  rcases List.mem_cons.mp hwrite with rfl | hinsert
  · have hclosed : schema.ClosedAbove (· ≠ .documentChunks) := by
      intro table _ fk hfk
      cases table <;> simp [schema, rowForeignKeys, orgKey] at hfk <;> grind
    exact Schema.spares_delete hclosed (fun h => h rfl) htable
  · obtain ⟨row, _, rfl⟩ := List.mem_map.mp hinsert
    exact Schema.spares_insert htable

/-- The ingestion run a step belongs to. -/
def Event.run? : Event → Option IngestionRun
  | .ingesting run | .stored run _ _ _ | .raised run _ | .failed run _ => some run
  | .auth .. | .authenticated .. | .served .. | .asked _ | .answered .. | .notIngested ..
  | .dispatched .. => none

variable (settings crypto) in
/-- The statements of steps, one by one: those of a request, the mark on an API key
that was used, the rows of messages, usage events and chunks, and the status of the
document of a run. -/
inductive StepWrite : Event → Write schema → Prop
  | auth {request : AuthRequest} {now : Time} {tokens : Option TokenResponse}
      {write : Write schema} : AuthWrite request.draws write →
      StepWrite (.auth request now tokens) write
  | touched {rawKey : Str} {now : Time} {orgId : Uuid} {creator : User} (keyId : Uuid) :
      StepWrite (.authenticated rawKey now orgId creator)
        (.update .apiKeys (fun row => row.id == keyId) (touchKey now))
  | served {orgId userId : Uuid} {viaApiKey : Bool} {request : Request} {now : Time}
      {response : Response} (principal : Principal) (began : Time) {write : Write schema} :
      write ∈ request.writes settings crypto principal now began →
      StepWrite (.served orgId userId viaApiKey request now response) write
  | message {event : Event} (row : Message) : StepWrite event (.insert .messages row)
  | usage {event : Event} (row : UsageEvent) : StepWrite event (.insert .usageEvents row)
  | cleared {event : Event} (documentId : Uuid) : StepWrite event (clearChunks documentId)
  | chunk {event : Event} (row : DocumentChunk) : StepWrite event (.insert .documentChunks row)
  | status {event : Event} {run : IngestionRun} (status : DocumentStatus) (error : Option Str) :
      event.run? = some run → StepWrite event (statusWrite run.documentId status error)

theorem stepWrite_of_effect {db : Database} {event : Event} {conn : Conn}
    {writes : List (Write schema)} (h : Effect settings crypto db event conn writes) :
    ∀ write ∈ writes, StepWrite settings crypto event write := by
  intro write hwrite
  cases h with
  | auth hwrites => exact .auth (hwrites write hwrite)
  | authenticated =>
      cases List.mem_singleton.mp hwrite
      exact .touched _
  | served _ _ hwrites =>
      rcases hwrites with rfl | rfl
      · cases hwrite
      · exact .served _ _ hwrite
  | asked =>
      cases List.mem_singleton.mp hwrite
      exact .message _
  | answered =>
      simp only [answerWrites, List.mem_cons, List.not_mem_nil, or_false] at hwrite
      rcases hwrite with rfl | rfl
      · exact .message _
      · exact .usage _
  | ingesting =>
      cases List.mem_singleton.mp hwrite
      exact .status _ _ rfl
  | notIngested | raised | dispatched => cases hwrite
  | stored _ _ hrecorded hready =>
      rcases List.mem_append.mp hwrite with hfilling | hlater
      · rcases List.mem_cons.mp hfilling with rfl | hinsert
        · exact .cleared _
        · obtain ⟨row, _, rfl⟩ := List.mem_map.mp hinsert
          exact .chunk row
      · rcases List.mem_append.mp hlater with hrecord | hstatus
        · rcases hrecorded with ⟨_, rfl⟩ | ⟨_, costUsd, rfl⟩
          · cases hrecord
          · cases List.mem_singleton.mp hrecord
            exact .usage _
        · rcases hready with ⟨rfl, _⟩ | rfl
          · cases hstatus
          · cases List.mem_singleton.mp hstatus
            exact .status _ _ rfl
  | failed hwrites =>
      rcases hwrites with ⟨rfl, _⟩ | rfl
      · cases hwrite
      · cases List.mem_singleton.mp hwrite
        exact .status _ _ rfl

/-- What a step does is one of the effects, executed on the committed database. -/
theorem step_effect {world world' : World} {event : Event}
    (h : Step settings crypto world event world') : ∃ conn conn' writes,
      Effect settings crypto world.db event conn writes ∧ conn.Wrote writes conn' ∧
        conn.db = world.db ∧ world'.db = conn'.db := by
  cases h with
  | auth _ hrun =>
      obtain ⟨⟨writes, hwrites, hwrote⟩, _⟩ := AuthRequest.run_eq_ok hrun
      exact ⟨_, _, writes, .auth hwrites, hwrote, rfl, rfl⟩
  | authenticated hrun =>
      obtain ⟨key, _, _, _, _, _, _, _, _, _, _, hwrote⟩ := resolveApiKey_eq_ok hrun
      exact ⟨_, _, _, .authenticated, hwrote, rfl, rfl⟩
  | served _ hrun =>
      obtain ⟨principal, hadmitted, hwithin, writes, hwrites, hwrote⟩ := serve_eq_ok rfl hrun
      exact ⟨_, _, writes, .served hadmitted hwithin hwrites, hwrote, rfl, rfl⟩
  | asked _ hrun =>
      exact ⟨_, _, _, .asked, persistUserTurn_eq_ok hrun, rfl, rfl⟩
  | @answered turn _ _ _ _ began out _ _ hrun =>
      obtain ⟨hhits, hcite, generation, costUsd, hwrote⟩ := answerTurn_eq_ok rfl hrun
      refine ⟨_, _, _, .answered (fun hit hhit => ?_) hcite, hwrote, rfl, rfl⟩
      obtain ⟨chunk, hchunk, document, hdocument, hseen, hdseen, hshows⟩ := hhits hit hhit
      exact ⟨chunk, hchunk, document, hdocument,
        Option.some.inj (@rowOrg_of_visible _ _ rfl rfl .documentChunks _ hseen),
        Option.some.inj (@rowOrg_of_visible _ _ rfl rfl .documents _ hdseen), hshows⟩
  | ingesting hrun =>
      obtain ⟨hwrote, document, hdocument, hid, hvisible, _⟩ := beginIngestion_eq_ok hrun
      exact ⟨_, _, _, .ingesting ⟨document, hdocument, hid, Option.some.inj
        (@rowOrg_of_visible _ _ rfl rfl .documents _ hvisible)⟩, hwrote, rfl, rfl⟩
  | notIngested hrun =>
      obtain ⟨heq, _⟩ := beginIngestion_eq_ok hrun
      exact ⟨_, _, _, .notIngested, Conn.wrote_nil.mpr heq, rfl, rfl⟩
  | @stored run text provider chunks vectors draw now began _ hrun hprepare hstore =>
      obtain ⟨hlength, filled, recorded, hfilled, hrecord, hready⟩ := storeChunks_eq_ok rfl hstore
      have hchunks := prepareChunks_eq_ok hprepare
      obtain ⟨batch, hbatch, hrecorded⟩ : ∃ batch : List (Write schema),
          ((chunks = [] ∧ batch = []) ∨ (chunks ≠ [] ∧ ∃ costUsd, batch = [.insert .usageEvents
            ((embeddingUsage run.documentId provider chunks).event run.orgId costUsd draw.eventId
              began)])) ∧ filled.Wrote batch recorded := by
        rcases hrecord with ⟨hempty, heq⟩ | ⟨hne, costUsd, hevent⟩
        · exact ⟨[], .inl ⟨hempty, rfl⟩, Conn.wrote_nil.mpr heq⟩
        · exact ⟨_, .inr ⟨hne, costUsd, rfl⟩, hevent⟩
      have hspares : ∀ write ∈ batch, schema.Spares .documents write := by
        intro write hwrite
        rcases hbatch with ⟨_, rfl⟩ | ⟨_, costUsd, rfl⟩
        · cases hwrite
        · cases List.mem_singleton.mp hwrite
          exact Schema.spares_insert (by decide)
      -- the document is looked up again among the documents of the beginning
      have hdocuments : recorded.db .documents = world.db .documents :=
        (Schema.apply_of_spares hrecorded.executes hspares).trans
          (Schema.apply_of_spares hfilled.executes (spares_filling (by decide)))
      have hwrote := hfilled.append hrecorded
      rcases hready with ⟨rfl, hnone⟩ | ⟨hready, _⟩
      · refine ⟨_, _, _, .stored hchunks hlength hbatch (.inl ⟨rfl, ?_⟩), ?_, rfl, rfl⟩
        · refine @gone_of_not_visible run began world.db fun document hdocument hid => ?_
          have hseen := hnone document (hdocuments ▸ hdocument) hid
          rwa [hwrote.policy] at hseen
        · rw [List.append_nil]
          exact hwrote
      · exact ⟨_, _, _, .stored hchunks hlength hbatch (.inr rfl),
          hfilled.append (hrecorded.append hready), rfl, rfl⟩
  | raised =>
      exact ⟨_, _, [], @Effect.raised settings crypto world.db _ _ 0, Conn.wrote_nil.mpr rfl,
        rfl, rfl⟩
  | @failed run message began _ hrun hfail =>
      obtain ⟨heq, hnone⟩ | ⟨hwrote, _⟩ := setStatus_eq_ok hfail
      · exact ⟨_, _, [], .failed (.inl ⟨rfl, gone_of_not_visible hnone⟩), Conn.wrote_nil.mpr heq,
          rfl, rfl⟩
      · exact ⟨_, _, _, .failed (.inr rfl), hwrote, rfl, rfl⟩
  | dispatched hrun =>
      obtain ⟨heq, hwebhooks⟩ := subscribedWebhooks_eq_ok rfl hrun
      exact ⟨_, _, _, .dispatched hwebhooks, Conn.wrote_nil.mpr heq, rfl, rfl⟩

/-- The writes of a step lead from one committed database to the next. -/
theorem step_executes {world world' : World} {event : Event}
    (h : Step settings crypto world event world') : ∃ conn writes,
      Effect settings crypto world.db event conn writes ∧
        conn.policy.Executes schema world.db writes world'.db := by
  obtain ⟨conn, conn', writes, heffect, hwrote, hdb, hdb'⟩ := step_effect h
  have hexecutes := hwrote.executes
  rw [hdb, ← hdb'] at hexecutes
  exact ⟨conn, writes, heffect, hexecutes⟩

/-- The request part of a step that serves a request. -/
theorem handled_of_step {world world' : World} {orgId userId : Uuid} {viaApiKey : Bool}
    {request : Request} {now : Time} {response : Response}
    (h : Step settings crypto world (.served orgId userId viaApiKey request now response) world') :
    ∃ principal began conn', Admitted request.roles orgId userId world.db principal ∧
      (handle settings crypto now principal request).Runs (boundConn orgId began world.db) response
        conn' ∧ world'.db = conn'.db := by
  cases h with
  | served _ hrun =>
      unfold serve at hrun
      rw [Program.runs_bind] at hrun
      obtain ⟨principal, _, hguard, hhandle⟩ := hrun
      obtain ⟨rfl, hadmitted⟩ := guardPrincipal_eq_ok hguard
      exact ⟨principal, _, _, hadmitted, hhandle, rfl⟩

end Platform
