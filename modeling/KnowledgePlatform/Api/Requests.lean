import KnowledgePlatform.Api.Routers

/-!
# Requests

`Request` lists the endpoints that serve an authenticated caller and
`Request.roles` their guards; `serve` is the transaction of a request.

What a request writes is a function of the request and the caller
(`Request.writes`), and what it returns are rows the bound session sees
(`Response.Within`).  `serve_eq_ok` says both; everything about requests that
follows is derived from it.
-/

open Core Foundations Python Relational

namespace Api

inductive Request
  | me
  | listUsers
  | createUser (body : UserCreate) (id : Uuid) (hashedPassword : Str)
  | getUser (userId : Uuid)
  | updateUser (userId : Uuid) (body : UserUpdate)
  | deleteUser (userId : Uuid)
  | listApiKeys
  | createApiKey (body : ApiKeyCreate) (draw : ApiKeyDraw)
  | revokeApiKey (keyId : Uuid)
  | listWebhooks
  | createWebhook (url : Str) (eventTypes : List WebhookEvent) (id : Uuid) (secret : Str)
  | deleteWebhook (webhookId : Uuid)
  | getMyOrganization
  | updateMyOrganization (monthlyBudgetUsd : Option ℚ)
  | listDocuments
  | createDocument (body : DocumentCreate) (id : Uuid)
  | uploadDocument (file : UploadFile) (id : Uuid) (stored : Except Str Unit)
  | listDocumentChunks (documentId : Uuid)
  | getDocument (documentId : Uuid)
  | updateDocument (documentId : Uuid) (title : Option Str)
  | deleteDocument (documentId : Uuid)
  | createConversation (title : Option Str) (id : Uuid)
  | listConversations
  | listMessages (conversationId : Uuid)
  | chat (conversationId : Uuid) (message : Str)
  | search (engine : SearchEngine) (query : Str) (mode : SearchMode) (limit : Option ℕ)
  | usageSummary
  | usageEvents (limit offset : ℕ)

/-- What a handler returns. -/
inductive Response
  | rows (table : Table) (rows : List (Row table))
  | organization (out : OrganizationOut)
  | apiKeyCreated (created : ApiKeyCreated)
  | streaming (turn : ChatTurn)
  | hits (hits : List SearchHit)
  | summary (out : UsageSummaryOut)
  | noContent

/-- The roles an endpoint is guarded to; without a guard it serves every caller. -/
def Request.roles : Request → Option (List UserRole)
  | .listUsers | .createUser .. | .getUser _ | .updateUser .. | .deleteUser _ | .listApiKeys
  | .createApiKey .. | .revokeApiKey _ | .listWebhooks | .createWebhook .. | .deleteWebhook _
  | .updateMyOrganization _ => some [.admin]
  | .createDocument .. | .uploadDocument .. | .updateDocument .. | .deleteDocument _ =>
      some [.admin, .member]
  | .me | .getMyOrganization | .listDocuments | .listDocumentChunks _ | .getDocument _
  | .createConversation .. | .listConversations | .listMessages _ | .chat .. | .search ..
  | .usageSummary | .usageEvents .. => none

/-- A response with the rows of one table. -/
def rowsOf (table : Table) (handler : Tx (List (Row table))) : Tx Response :=
  Response.rows table <$> handler

/-- A response with one row. -/
def rowOf (table : Table) (handler : Tx (Row table)) : Tx Response :=
  (fun row => Response.rows table [row]) <$> handler

/-- The handler of a request. -/
def handle (settings : Settings) (crypto : Crypto) (now : Time) (principal : Principal) :
    Request → Tx Response
  | .me => pure (.rows .users [principal.user])
  | .listUsers => rowsOf .users listUsers
  | .createUser body id hashedPassword => rowOf .users (createUser principal body id hashedPassword)
  | .getUser userId => rowOf .users (getUser userId)
  | .updateUser userId body => rowOf .users (updateUser principal userId body)
  | .deleteUser userId => (fun _ => .noContent) <$> deleteUser principal userId
  | .listApiKeys => rowsOf .apiKeys listApiKeys
  | .createApiKey body draw => .apiKeyCreated <$> createApiKey settings crypto principal body draw now
  | .revokeApiKey keyId => (fun _ => .noContent) <$> revokeApiKey keyId now
  | .listWebhooks => rowsOf .orgWebhooks listWebhooks
  | .createWebhook url eventTypes id secret =>
      rowOf .orgWebhooks (createWebhook principal url eventTypes id secret)
  | .deleteWebhook webhookId => (fun _ => .noContent) <$> deleteWebhook webhookId
  | .getMyOrganization => .organization <$> getMyOrganization principal
  | .updateMyOrganization budget => .organization <$> updateMyOrganization principal budget
  | .listDocuments => rowsOf .documents listDocuments
  | .createDocument body id => rowOf .documents (createDocument principal body id)
  | .uploadDocument file id stored =>
      rowOf .documents (uploadDocument settings principal file id stored)
  | .listDocumentChunks documentId => rowsOf .documentChunks (listDocumentChunks documentId)
  | .getDocument documentId => rowOf .documents (getDocument documentId)
  | .updateDocument documentId title => rowOf .documents (updateDocument documentId title)
  | .deleteDocument documentId => (fun _ => .noContent) <$> deleteDocument documentId
  | .createConversation title id => rowOf .conversations (createConversation principal title id)
  | .listConversations => rowsOf .conversations listConversations
  | .listMessages conversationId => rowsOf .messages (listMessages conversationId)
  | .chat conversationId message => .streaming <$> chat settings principal conversationId message
  | .search engine query mode limit => .hits <$> hybridSearch settings engine query mode limit
  | .usageSummary => .summary <$> getUsageSummary principal now
  | .usageEvents limit offset => rowsOf .usageEvents (listUsageEvents limit offset)

/-- The guard of an endpoint, if it has one. -/
def guardRoles (roles : Option (List UserRole)) (principal : Principal) : Tx Unit :=
  match roles with
  | none => pure ()
  | some roles => requireRole roles principal

/-- `Depends(get_principal)`, with the guard of the endpoint. -/
def guardPrincipal (roles : Option (List UserRole)) (orgId userId : Uuid) (viaApiKey : Bool) :
    Tx Principal := do
  let principal ← getPrincipal orgId userId viaApiKey
  guardRoles roles principal
  pure principal

/-- The transaction of a request: the caller, the guard and the handler. -/
def serve (settings : Settings) (crypto : Crypto) (now : Time) (orgId userId : Uuid)
    (viaApiKey : Bool) (request : Request) : Tx Response := do
  let principal ← guardPrincipal request.roles orgId userId viaApiKey
  handle settings crypto now principal request

/-! ## What a request writes -/

/-- The rows with an id, as an update or a deletion selects them. -/
def withId (table : Table) (id : Uuid) (row : Row table) : Bool := rowId table row == id

/-- The statements by which a request changes the database, if it changes it. -/
def Request.writes (settings : Settings) (crypto : Crypto) (principal : Principal)
    (now createdAt : Time) : Request → List (Write schema)
  | .createUser body id hashedPassword =>
      [.insert .users (newUser principal body id hashedPassword createdAt)]
  | .updateUser userId body => [.update .users (withId .users userId) (assignUser body)]
  | .deleteUser userId => [.delete .users (withId .users userId)]
  | .createApiKey body draw =>
      [.insert .apiKeys (newApiKey settings crypto principal body draw now createdAt)]
  | .revokeApiKey keyId => [.update .apiKeys (withId .apiKeys keyId) (revokeKey now)]
  | .createWebhook url eventTypes id secret =>
      [.insert .orgWebhooks { id, orgId := principal.orgId, url, secret,
                              eventTypes := eventTypes.map WebhookEvent.value,
                              isActive := true, createdAt }]
  | .deleteWebhook webhookId => [.delete .orgWebhooks (withId .orgWebhooks webhookId)]
  | .updateMyOrganization budget =>
      match storeBudget budget with
      | .error _ => []
      | .ok stored => [.update .organizations (withId .organizations principal.orgId)
          (assignBudget stored)]
  | .createDocument body id =>
      [.insert .documents { id, orgId := principal.orgId, title := body.title,
                            filename := body.filename, contentType := body.contentType,
                            storageKey := none, error := none, status := .pending, createdAt }]
  | .uploadDocument file id _ =>
      let filename := safeFilename file.filename
      [.insert .documents (uploadedDocument principal.orgId id filename createdAt),
        .update .documents (withId .documents id)
          (assignStorageKey (buildKey principal.orgId id filename))]
  | .updateDocument documentId title =>
      [.update .documents (withId .documents documentId) (assignTitle title)]
  | .deleteDocument documentId => [.delete .documents (withId .documents documentId)]
  | .createConversation title id =>
      [.insert .conversations { id, orgId := principal.orgId, userId := some principal.user.id,
                                title, createdAt }]
  | .me | .listUsers | .getUser _ | .listApiKeys | .listWebhooks | .getMyOrganization
  | .listDocuments | .listDocumentChunks _ | .getDocument _ | .listConversations | .listMessages _
  | .chat .. | .search .. | .usageSummary | .usageEvents .. => []

/-! ## What a request returns -/

/-- The hit shows a chunk and a document of the organization. -/
def HitWithin (orgId : Uuid) (db : Database) (hit : SearchHit) : Prop :=
  ∃ chunk ∈ db .documentChunks, ∃ document ∈ db .documents,
    chunk.orgId = orgId ∧ document.orgId = orgId ∧ hit.Shows chunk document

/-- What the turn refers to belongs to the organization, and so do the messages
its history repeats. -/
structure ChatTurn.Within (orgId : Uuid) (db : Database) (turn : ChatTurn) : Prop where
  bound : turn.orgId = orgId
  user : ∃ user ∈ db .users, user.id = turn.userId ∧ user.orgId = orgId
  conversation : ∃ conversation ∈ db .conversations,
    conversation.id = turn.conversationId ∧ conversation.orgId = orgId
  history : ∀ item ∈ turn.history, ∃ message ∈ db .messages,
    message.orgId = orgId ∧ item = (message.role, message.content)

/-- The response shows rows of the organization only. -/
def Response.Within (orgId : Uuid) (db : Database) : Response → Prop
  | .rows table found => ∀ row ∈ found, rowOrg table row = some orgId
  | .organization out => out.row.id = orgId
  | .apiKeyCreated created => created.row.orgId = orgId
  | .streaming turn => turn.Within orgId db
  | .hits found => ∀ hit ∈ found, HitWithin orgId db hit
  | .summary out => ∃ since, out = summarize (storedBudget orgId db)
      (monthToDate orgId since (db .usageEvents))
      ((db .usageEvents).filter fun event => event.orgId == orgId)
  | .noContent => True

section Spec

variable {conn conn' : Conn} {orgId : Uuid} {table : Table}

theorem mem_oldestFirst {Record : Type} {createdAt : Record → Time} {rows : List Record}
    {row : Record} : row ∈ oldestFirst createdAt rows ↔ row ∈ rows :=
  List.mem_insertionSort _

theorem mem_newestFirst {Record : Type} {createdAt : Record → Time} {rows : List Record}
    {row : Record} : row ∈ newestFirst createdAt rows ↔ row ∈ rows :=
  List.mem_insertionSort _

theorem of_runs_getOr404 {id : Uuid} {detail : Str} {row : Row table}
    (h : (getOr404 table id detail).Runs conn row conn') :
    conn = conn' ∧ row ∈ conn.db table ∧ rowId table row = id ∧
      conn.policy.visible table row = true := by
  simp only [getOr404, Program.runs_bind, Program.runs_orRaise] at h
  obtain ⟨found, _, hfound, rfl, rfl⟩ := h
  obtain ⟨rfl, hrow⟩ := of_runs_getById hfound
  exact ⟨rfl, hrow row rfl⟩

/-- A bound session lists rows of its organization. -/
theorem of_runs_rowsOf (hrole : conn.role = .appUser) (horg : conn.currentOrg = some orgId)
    {selected : Row table → Bool} {arrange : List (Row table) → List (Row table)}
    (harrange : ∀ rows, arrange rows ⊆ rows) {response : Response}
    (h : (rowsOf table (do
      let rows ← scalars table selected
      pure (arrange rows))).Runs conn response conn') :
    response.Within orgId conn.db ∧ conn = conn' := by
  unfold rowsOf at h
  obtain ⟨shown, hlist, rfl⟩ := Program.runs_map.mp h
  obtain ⟨rows, _, hrows, hshown⟩ := Program.runs_bind.mp hlist
  obtain ⟨rfl, rfl⟩ := Program.runs_pure.mp hshown
  obtain ⟨rfl, hfound⟩ := of_runs_scalars hrows
  refine ⟨fun row hrow => ?_, rfl⟩
  exact rowOrg_of_visible hrole horg (hfound row (harrange rows hrow)).2.2

theorem runs_rowOf {handler : Tx (Row table)} {response : Response} :
    (rowOf table handler).Runs conn response conn' ↔
      ∃ row, handler.Runs conn row conn' ∧ response = .rows table [row] := by
  unfold rowOf
  constructor
  · intro h
    obtain ⟨row, hrow, rfl⟩ := Program.runs_map.mp h
    exact ⟨row, hrow, rfl⟩
  · rintro ⟨row, hrow, rfl⟩
    exact Program.runs_map.mpr ⟨row, hrow, rfl⟩

/-- A response with one row is within the organization when the row is. -/
theorem within_rowOf {row : Row table} {db : Database} (hrow : rowOrg table row = some orgId) :
    (Response.rows table [row]).Within orgId db := by
  intro found hfound
  rw [List.mem_singleton.mp hfound]
  exact hrow

/-- A handler that stores a new row, made at the time of the transaction, and shows it. -/
theorem of_runs_addNow {make : Time → Row table} {response : Response}
    (hmade : ∀ createdAt, rowOrg table (make createdAt) = some orgId)
    (h : (rowOf table (do
      let createdAt ← transactionTime
      add table (make createdAt)
      pure (make createdAt))).Runs conn response conn') :
    response.Within orgId conn.db ∧ conn.Wrote [.insert table (make conn.now)] conn' := by
  obtain ⟨row, hrun, rfl⟩ := runs_rowOf.mp h
  simp only [Program.runs_bind, runs_transactionTime, runs_add, Program.runs_pure] at hrun
  obtain ⟨_, _, ⟨rfl, rfl⟩, _, _, hwrote, rfl, rfl⟩ := hrun
  exact ⟨within_rowOf (hmade _), hwrote⟩

/-! ### Single handlers -/

theorem updateUser_eq_ok {principal : Principal} {userId : Uuid} {body : UserUpdate} {user : User}
    (h : (updateUser principal userId body).Runs conn user conn') :
    conn.Wrote [.update .users (withId .users userId) (assignUser body)] conn' ∧
      ∃ found ∈ conn.db .users, conn.policy.visible .users found = true ∧
        user = (assignUser body).set found := by
  simp only [updateUser, getOrgUser, Program.runs_bind, Program.runs_raiseIf, runs_save,
    Program.runs_pure] at h
  obtain ⟨found, _, hfound, _, _, ⟨_, rfl⟩, _, _, ⟨_, rfl⟩, _, _, hwrote, rfl, rfl⟩ := h
  obtain ⟨rfl, hmem, rfl, hvisible⟩ := of_runs_getOr404 hfound
  exact ⟨hwrote, found, hmem, hvisible, rfl⟩

theorem deleteUser_eq_ok {principal : Principal} {userId : Uuid} {result : Unit}
    (h : (deleteUser principal userId).Runs conn result conn') :
    conn.Wrote [.delete .users (withId .users userId)] conn' ∧
      ∃ user ∈ conn.db .users, user.id = userId ∧ conn.policy.visible .users user = true := by
  simp only [deleteUser, getOrgUser, Program.runs_bind, Program.runs_raiseIf, runs_deleteById] at h
  obtain ⟨found, _, hfound, _, _, ⟨_, rfl⟩, hwrote⟩ := h
  obtain ⟨rfl, hmem, rfl, hvisible⟩ := of_runs_getOr404 hfound
  exact ⟨hwrote, found, hmem, rfl, hvisible⟩

theorem createApiKey_eq_ok {settings : Settings} {crypto : Crypto} {principal : Principal}
    {body : ApiKeyCreate} {draw : ApiKeyDraw} {now : Time} {created : ApiKeyCreated}
    (h : (createApiKey settings crypto principal body draw now).Runs conn created conn') :
    created = ⟨newApiKey settings crypto principal body draw now conn.now,
        (generateApiKey settings crypto draw.handle draw.secret).1⟩ ∧
      conn.Wrote [.insert .apiKeys
        (newApiKey settings crypto principal body draw now conn.now)] conn' := by
  simp only [createApiKey, Program.runs_bind, runs_transactionTime, runs_add,
    Program.runs_pure] at h
  obtain ⟨_, _, ⟨rfl, rfl⟩, _, _, hwrote, rfl, rfl⟩ := h
  exact ⟨rfl, hwrote⟩

/-- A revocation revokes a key of the organization, unless it is revoked already. -/
theorem revokeApiKey_eq_ok {keyId : Uuid} {now : Time} {result : Unit}
    (h : (revokeApiKey keyId now).Runs conn result conn') :
    ∃ key ∈ conn.db .apiKeys, key.id = keyId ∧ conn.policy.visible .apiKeys key = true ∧
      ((conn = conn' ∧ key.revokedAt ≠ none) ∨
        (conn.Wrote [.update .apiKeys (withId .apiKeys keyId) (revokeKey now)] conn' ∧
          key.revokedAt = none)) := by
  simp only [revokeApiKey, Program.runs_bind] at h
  obtain ⟨key, _, hkey, h⟩ := h
  obtain ⟨rfl, hmem, rfl, hvisible⟩ := of_runs_getOr404 hkey
  refine ⟨key, hmem, rfl, hvisible, ?_⟩
  split at h
  · next hlive => exact .inr ⟨runs_save.mp h, hlive⟩
  · next hrevoked => exact .inl ⟨(Program.runs_pure.mp h).2, hrevoked⟩

theorem uploadDocument_eq_ok {settings : Settings} {principal : Principal} {file : UploadFile}
    {id : Uuid} {stored : Except Str Unit} {document : Document}
    (h : (uploadDocument settings principal file id stored).Runs conn document conn') :
    document.orgId = principal.orgId ∧
      conn.Wrote [.insert .documents
          (uploadedDocument principal.orgId id (safeFilename file.filename) conn.now),
        .update .documents (withId .documents id)
          (assignStorageKey (buildKey principal.orgId id (safeFilename file.filename)))] conn' := by
  simp only [uploadDocument, checkUpload, Program.runs_bind, Program.runs_raiseIf,
    runs_transactionTime, runs_add, runs_ofLibrary, runs_save, Program.runs_pure] at h
  obtain ⟨_, _, ⟨_, _, ⟨_, rfl⟩, _, _, ⟨_, rfl⟩, _, rfl⟩, _, _, ⟨rfl, rfl⟩, _, _, hinsert, _, _,
    ⟨_, rfl⟩, _, _, hupdate, rfl, rfl⟩ := h
  exact ⟨rfl, hinsert.append hupdate⟩

theorem mem_lastItems {α : Type} {count : ℕ} {items : List α} {item : α}
    (hitem : item ∈ lastItems count items) : item ∈ items := by
  unfold lastItems at hitem
  split at hitem
  · exact hitem
  · exact List.mem_of_mem_drop hitem

/-- The request part of a chat turn only reads. -/
theorem chat_eq_ok {settings : Settings} {principal : Principal} {conversationId : Uuid}
    {message : Str} {turn : ChatTurn} (hrole : conn.role = .appUser)
    (horg : conn.currentOrg = some principal.orgId) (huser : principal.user ∈ conn.db .users)
    (hactor : principal.user.orgId = principal.orgId)
    (h : (chat settings principal conversationId message).Runs conn turn conn') :
    conn = conn' ∧ turn.Within principal.orgId conn.db := by
  simp only [chat, getConversation, conversationMessages, Program.runs_bind,
    Program.runs_pure] at h
  obtain ⟨conversation, _, hconversation, _, _, ⟨messages, _, hmessages, rfl, rfl⟩, rfl, rfl⟩ := h
  obtain ⟨rfl, hmem, rfl, hvisible⟩ := of_runs_getOr404 hconversation
  obtain ⟨rfl, hfound⟩ := of_runs_scalars hmessages
  refine ⟨rfl, rfl, ⟨principal.user, huser, rfl, hactor⟩, ⟨conversation, hmem, rfl, ?_⟩, ?_⟩
  · exact Option.some.inj (@rowOrg_of_visible conn _ hrole horg .conversations _ hvisible)
  · intro item hitem
    obtain ⟨prior, hprior, rfl⟩ := List.mem_map.mp (mem_lastItems hitem)
    obtain ⟨hmessage, _, hseen⟩ := hfound prior (mem_oldestFirst.mp hprior)
    exact ⟨prior, hmessage,
      Option.some.inj (@rowOrg_of_visible conn _ hrole horg .messages _ hseen), rfl⟩

/-- A summary sums the events of the organization. -/
theorem getUsageSummary_eq_ok {principal : Principal} {now : Time} {out : UsageSummaryOut}
    (hrole : conn.role = .appUser) (horg : conn.currentOrg = some principal.orgId)
    (h : (getUsageSummary principal now).Runs conn out conn') :
    conn = conn' ∧ (Response.summary out).Within principal.orgId conn.db := by
  simp only [getUsageSummary, Program.runs_bind, runs_scalars, Program.runs_pure] at h
  obtain ⟨org, _, horgRow, cost, _, hcost, events, _, ⟨hevents, rfl⟩, rfl, rfl⟩ := h
  obtain ⟨rfl, rfl⟩ := runs_getById_organization hrole horg horgRow
  obtain ⟨rfl, rfl⟩ := runs_monthToDateCostUsd hrole horg hcost
  refine ⟨rfl, now.monthStart, ?_⟩
  unfold Policy.selectRows at hevents
  split at hevents
  · cases hevents
    unfold storedBudget
    congr 2
    funext event
    simp [Conn.policy, Core.policy, hrole, horg, orgIsolation, rowOrg]
  · cases hevents

theorem updateMyOrganization_eq_ok {principal : Principal} {budget : Option ℚ}
    {out : OrganizationOut} {settings : Settings} {crypto : Crypto} {now : Time}
    (h : (updateMyOrganization principal budget).Runs conn out conn') :
    out.row.id = principal.orgId ∧ conn.Wrote
      (Request.writes settings crypto principal now conn.now (.updateMyOrganization budget))
        conn' := by
  simp only [updateMyOrganization, Program.runs_bind, Program.runs_orRaise, runs_ofStatement,
    runs_save, Program.runs_pure] at h
  obtain ⟨found, _, hfound, org, _, ⟨rfl, rfl⟩, stored, _, ⟨hstored, rfl⟩, _, _, hwrote, rfl,
    rfl⟩ := h
  obtain ⟨rfl, hrow⟩ := of_runs_getById hfound
  obtain ⟨_, hid, _⟩ := hrow org rfl
  change org.id = principal.orgId at hid
  refine ⟨hid, ?_⟩
  simp only [Request.writes, hstored]
  rw [← hid]
  exact hwrote

/-! ### All handlers -/

section Handlers

variable {settings : Settings} {crypto : Crypto} {now : Time} {principal : Principal}
  {response : Response}

/-- What handling a request comes to: an answer with rows of the caller's organization,
and the writes of `Request.writes`, or none. -/
def Handled (settings : Settings) (crypto : Crypto) (now : Time) (principal : Principal)
    (request : Request) (conn : Conn) (response : Response) (conn' : Conn) : Prop :=
  response.Within principal.orgId conn.db ∧
    (conn = conn' ∨ conn.Wrote (request.writes settings crypto principal now conn.now) conn')

/-- A request that lists rows. -/
theorem handled_of_rowsOf {request : Request} (hrole : conn.role = .appUser)
    (horg : conn.currentOrg = some principal.orgId) {selected : Row table → Bool}
    {arrange : List (Row table) → List (Row table)} (harrange : ∀ rows, arrange rows ⊆ rows)
    (h : (rowsOf table (do
      let rows ← scalars table selected
      pure (arrange rows))).Runs conn response conn') :
    Handled settings crypto now principal request conn response conn' := by
  obtain ⟨hwithin, heq⟩ := of_runs_rowsOf hrole horg harrange h
  exact ⟨hwithin, .inl heq⟩

/-- A request that stores a new row, made at the time of the transaction. -/
theorem handled_of_addNow {request : Request} {make : Time → Row table}
    (hmade : ∀ createdAt, rowOrg table (make createdAt) = some principal.orgId)
    (hwrites : request.writes settings crypto principal now conn.now =
      [.insert table (make conn.now)])
    (h : (rowOf table (do
      let createdAt ← transactionTime
      add table (make createdAt)
      pure (make createdAt))).Runs conn response conn') :
    Handled settings crypto now principal request conn response conn' := by
  obtain ⟨hwithin, hwrote⟩ := of_runs_addNow hmade h
  exact ⟨hwithin, .inr (hwrites ▸ hwrote)⟩

theorem handled_me (hactor : principal.user.orgId = principal.orgId)
    (h : (handle settings crypto now principal .me).Runs conn response conn') :
    Handled settings crypto now principal .me conn response conn' := by
  obtain ⟨rfl, rfl⟩ := Program.runs_pure.mp h
  refine ⟨?_, .inl rfl⟩
  intro row hrow
  rw [List.mem_singleton.mp hrow]
  exact congrArg some hactor

theorem handled_createUser {body : UserCreate} {id : Uuid} {hashedPassword : Str}
    (h : (handle settings crypto now principal (.createUser body id hashedPassword)).Runs conn
      response conn') :
    Handled settings crypto now principal (.createUser body id hashedPassword)
      conn response conn' := by
  obtain ⟨user, hrun, rfl⟩ := runs_rowOf.mp h
  simp only [createUser, Program.runs_bind, runs_transactionTime, Program.runs_mapFault,
    runs_add, Program.runs_pure] at hrun
  obtain ⟨_, _, ⟨rfl, rfl⟩, _, _, hwrote, rfl, rfl⟩ := hrun
  exact ⟨within_rowOf rfl, .inr hwrote⟩

theorem handled_getUser {userId : Uuid}
    (hrole : conn.role = .appUser) (horg : conn.currentOrg = some principal.orgId)
    (h : (handle settings crypto now principal (.getUser userId)).Runs conn response conn') :
    Handled settings crypto now principal (.getUser userId) conn response conn' := by
  obtain ⟨user, hrun, rfl⟩ := runs_rowOf.mp h
  obtain ⟨rfl, _, _, hseen⟩ := of_runs_getOr404 hrun
  exact ⟨within_rowOf (rowOrg_of_visible hrole horg hseen), .inl rfl⟩

theorem handled_updateUser {userId : Uuid} {body : UserUpdate}
    (hrole : conn.role = .appUser) (horg : conn.currentOrg = some principal.orgId)
    (h : (handle settings crypto now principal (.updateUser userId body)).Runs conn
      response conn') :
    Handled settings crypto now principal (.updateUser userId body) conn response conn' := by
  obtain ⟨user, hrun, rfl⟩ := runs_rowOf.mp h
  obtain ⟨hwrote, found, _, hseen, rfl⟩ := updateUser_eq_ok hrun
  exact ⟨within_rowOf (rowOrg_of_visible hrole horg hseen), .inr hwrote⟩

theorem handled_deleteUser {userId : Uuid}
    (h : (handle settings crypto now principal (.deleteUser userId)).Runs conn response conn') :
    Handled settings crypto now principal (.deleteUser userId) conn response conn' := by
  obtain ⟨_, hrun, rfl⟩ := Program.runs_map.mp h
  exact ⟨trivial, .inr (deleteUser_eq_ok hrun).1⟩

theorem handled_createApiKey {body : ApiKeyCreate} {draw : ApiKeyDraw}
    (h : (handle settings crypto now principal (.createApiKey body draw)).Runs conn
      response conn') :
    Handled settings crypto now principal (.createApiKey body draw) conn response conn' := by
  obtain ⟨created, hrun, rfl⟩ := Program.runs_map.mp h
  obtain ⟨rfl, hwrote⟩ := createApiKey_eq_ok hrun
  exact ⟨rfl, .inr hwrote⟩

theorem handled_revokeApiKey {keyId : Uuid}
    (h : (handle settings crypto now principal (.revokeApiKey keyId)).Runs conn response conn') :
    Handled settings crypto now principal (.revokeApiKey keyId) conn response conn' := by
  obtain ⟨_, hrun, rfl⟩ := Program.runs_map.mp h
  obtain ⟨_, _, _, _, hwrote⟩ := revokeApiKey_eq_ok hrun
  exact ⟨trivial, hwrote.imp And.left And.left⟩

theorem handled_deleteWebhook {webhookId : Uuid}
    (h : (handle settings crypto now principal (.deleteWebhook webhookId)).Runs conn
      response conn') :
    Handled settings crypto now principal (.deleteWebhook webhookId) conn response conn' := by
  obtain ⟨_, hrun, rfl⟩ := Program.runs_map.mp h
  simp only [deleteWebhook, Program.runs_bind, runs_deleteById] at hrun
  obtain ⟨webhook, _, hfound, hwrote⟩ := hrun
  obtain ⟨rfl, _, rfl, _⟩ := of_runs_getOr404 hfound
  exact ⟨trivial, .inr hwrote⟩

theorem handled_getMyOrganization
    (h : (handle settings crypto now principal .getMyOrganization).Runs conn response conn') :
    Handled settings crypto now principal .getMyOrganization conn response conn' := by
  obtain ⟨out, hrun, rfl⟩ := Program.runs_map.mp h
  simp only [getMyOrganization, Program.runs_bind, Program.runs_orRaise, Program.runs_pure] at hrun
  obtain ⟨found, _, hfound, org, _, ⟨rfl, rfl⟩, rfl, rfl⟩ := hrun
  obtain ⟨rfl, hrow⟩ := of_runs_getById hfound
  exact ⟨(hrow org rfl).2.1, .inl rfl⟩

theorem handled_updateMyOrganization {budget : Option ℚ}
    (h : (handle settings crypto now principal (.updateMyOrganization budget)).Runs conn
      response conn') :
    Handled settings crypto now principal (.updateMyOrganization budget) conn response conn' := by
  obtain ⟨out, hrun, rfl⟩ := Program.runs_map.mp h
  obtain ⟨hid, hwrote⟩ := updateMyOrganization_eq_ok hrun
  exact ⟨hid, .inr hwrote⟩

theorem handled_uploadDocument {file : UploadFile} {id : Uuid} {stored : Except Str Unit}
    (h : (handle settings crypto now principal (.uploadDocument file id stored)).Runs conn
      response conn') :
    Handled settings crypto now principal (.uploadDocument file id stored) conn response conn' := by
  obtain ⟨document, hrun, rfl⟩ := runs_rowOf.mp h
  obtain ⟨hid, hwrote⟩ := uploadDocument_eq_ok hrun
  exact ⟨within_rowOf (congrArg some hid), .inr hwrote⟩

theorem handled_listDocumentChunks {documentId : Uuid}
    (hrole : conn.role = .appUser) (horg : conn.currentOrg = some principal.orgId)
    (h : (handle settings crypto now principal (.listDocumentChunks documentId)).Runs conn
      response conn') :
    Handled settings crypto now principal (.listDocumentChunks documentId) conn response conn' := by
  unfold handle listDocumentChunks rowsOf at h
  obtain ⟨shown, hrun, rfl⟩ := Program.runs_map.mp h
  obtain ⟨document, _, hdocument, hrun⟩ := Program.runs_bind.mp hrun
  obtain ⟨rfl, _⟩ := of_runs_getOr404 hdocument
  exact handled_of_rowsOf hrole horg (fun _ _ => (List.mem_insertionSort _).mp)
    (Program.runs_map.mpr ⟨shown, hrun, rfl⟩)

theorem handled_getDocument {documentId : Uuid}
    (hrole : conn.role = .appUser) (horg : conn.currentOrg = some principal.orgId)
    (h : (handle settings crypto now principal (.getDocument documentId)).Runs conn
      response conn') :
    Handled settings crypto now principal (.getDocument documentId) conn response conn' := by
  obtain ⟨document, hrun, rfl⟩ := runs_rowOf.mp h
  obtain ⟨rfl, _, _, hseen⟩ := of_runs_getOr404 hrun
  exact ⟨within_rowOf (rowOrg_of_visible hrole horg hseen), .inl rfl⟩

theorem handled_updateDocument {documentId : Uuid} {title : Option Str}
    (hrole : conn.role = .appUser) (horg : conn.currentOrg = some principal.orgId)
    (h : (handle settings crypto now principal (.updateDocument documentId title)).Runs conn
      response conn') :
    Handled settings crypto now principal (.updateDocument documentId title)
      conn response conn' := by
  obtain ⟨document, hrun, rfl⟩ := runs_rowOf.mp h
  simp only [updateDocument, getOwnedDocument, Program.runs_bind, runs_save,
    Program.runs_pure] at hrun
  obtain ⟨found, _, hfound, _, _, hwrote, rfl, rfl⟩ := hrun
  obtain ⟨rfl, _, rfl, hseen⟩ := of_runs_getOr404 hfound
  exact ⟨within_rowOf (rowOrg_of_visible hrole horg hseen), .inr hwrote⟩

theorem handled_deleteDocument {documentId : Uuid}
    (h : (handle settings crypto now principal (.deleteDocument documentId)).Runs conn
      response conn') :
    Handled settings crypto now principal (.deleteDocument documentId) conn response conn' := by
  obtain ⟨_, hrun, rfl⟩ := Program.runs_map.mp h
  simp only [deleteDocument, getOwnedDocument, Program.runs_bind, runs_deleteById] at hrun
  obtain ⟨document, _, hfound, hwrote⟩ := hrun
  obtain ⟨rfl, _, rfl, _⟩ := of_runs_getOr404 hfound
  exact ⟨trivial, .inr hwrote⟩

theorem handled_listMessages {conversationId : Uuid}
    (hrole : conn.role = .appUser) (horg : conn.currentOrg = some principal.orgId)
    (h : (handle settings crypto now principal (.listMessages conversationId)).Runs conn
      response conn') :
    Handled settings crypto now principal (.listMessages conversationId) conn response conn' := by
  unfold handle listMessages conversationMessages rowsOf at h
  obtain ⟨shown, hrun, rfl⟩ := Program.runs_map.mp h
  obtain ⟨conversation, _, hconversation, hrun⟩ := Program.runs_bind.mp hrun
  obtain ⟨rfl, _⟩ := of_runs_getOr404 hconversation
  exact handled_of_rowsOf hrole horg (fun _ _ => mem_oldestFirst.mp)
    (Program.runs_map.mpr ⟨shown, hrun, rfl⟩)

theorem handled_chat {conversationId : Uuid} {message : Str}
    (hrole : conn.role = .appUser) (horg : conn.currentOrg = some principal.orgId)
    (huser : principal.user ∈ conn.db .users) (hactor : principal.user.orgId = principal.orgId)
    (h : (handle settings crypto now principal (.chat conversationId message)).Runs conn
      response conn') :
    Handled settings crypto now principal (.chat conversationId message) conn response conn' := by
  obtain ⟨turn, hrun, rfl⟩ := Program.runs_map.mp h
  obtain ⟨rfl, hwithin⟩ := chat_eq_ok hrole horg huser hactor hrun
  exact ⟨hwithin, .inl rfl⟩

theorem handled_search {engine : SearchEngine} {query : Str} {mode : SearchMode} {limit : Option ℕ}
    (hrole : conn.role = .appUser) (horg : conn.currentOrg = some principal.orgId)
    (h : (handle settings crypto now principal (.search engine query mode limit)).Runs conn
      response conn') :
    Handled settings crypto now principal (.search engine query mode limit)
      conn response conn' := by
  obtain ⟨found, hrun, rfl⟩ := Program.runs_map.mp h
  obtain ⟨rfl, hhits⟩ := hybridSearch_eq_ok hrun
  refine ⟨fun hit hhit => ?_, .inl rfl⟩
  obtain ⟨chunk, hchunk, document, hdocument, hseen, hdseen, hshows⟩ := hhits hit hhit
  exact ⟨chunk, hchunk, document, hdocument, Option.some.inj (rowOrg_of_visible hrole horg hseen),
    Option.some.inj (rowOrg_of_visible hrole horg hdseen), hshows⟩

theorem handled_usageSummary
    (hrole : conn.role = .appUser) (horg : conn.currentOrg = some principal.orgId)
    (h : (handle settings crypto now principal .usageSummary).Runs conn response conn') :
    Handled settings crypto now principal .usageSummary conn response conn' := by
  obtain ⟨out, hrun, rfl⟩ := Program.runs_map.mp h
  obtain ⟨rfl, hwithin⟩ := getUsageSummary_eq_ok hrole horg hrun
  exact ⟨hwithin, .inl rfl⟩

theorem handled_usageEvents {limit : ℕ} {offset : ℕ}
    (hrole : conn.role = .appUser) (horg : conn.currentOrg = some principal.orgId)
    (h : (handle settings crypto now principal (.usageEvents limit offset)).Runs conn
      response conn') :
    Handled settings crypto now principal (.usageEvents limit offset) conn response conn' := by
  have hpage : ∀ events, ((newestFirst UsageEvent.createdAt events).drop offset).take limit ⊆
      events := fun _ _ hevent =>
    mem_newestFirst.mp (List.mem_of_mem_drop (List.mem_of_mem_take hevent))
  exact @handled_of_rowsOf _ _ .usageEvents _ _ _ _ _ _ hrole horg _ _ hpage h

/-- A handler answers with rows of the caller's organization and writes what
`Request.writes` says, or nothing. -/
theorem handle_eq_ok {request : Request} (hrole : conn.role = .appUser)
    (horg : conn.currentOrg = some principal.orgId) (huser : principal.user ∈ conn.db .users)
    (hactor : principal.user.orgId = principal.orgId)
    (h : (handle settings crypto now principal request).Runs conn response conn') :
    response.Within principal.orgId conn.db ∧ (conn = conn' ∨
      conn.Wrote (request.writes settings crypto principal now conn.now) conn') := by
  cases request with
  | me => exact handled_me hactor h
  | listUsers => exact handled_of_rowsOf hrole horg (fun _ _ => mem_oldestFirst.mp) h
  | createUser => exact handled_createUser h
  | getUser => exact handled_getUser hrole horg h
  | updateUser => exact handled_updateUser hrole horg h
  | deleteUser => exact handled_deleteUser h
  | listApiKeys => exact handled_of_rowsOf hrole horg (fun _ _ => mem_newestFirst.mp) h
  | createApiKey => exact handled_createApiKey h
  | revokeApiKey => exact handled_revokeApiKey h
  | listWebhooks => exact handled_of_rowsOf hrole horg (fun _ _ => mem_newestFirst.mp) h
  | createWebhook => exact handled_of_addNow (fun _ => rfl) rfl h
  | deleteWebhook => exact handled_deleteWebhook h
  | getMyOrganization => exact handled_getMyOrganization h
  | updateMyOrganization => exact handled_updateMyOrganization h
  | listDocuments => exact handled_of_rowsOf hrole horg (fun _ _ => mem_newestFirst.mp) h
  | createDocument => exact handled_of_addNow (fun _ => rfl) rfl h
  | uploadDocument => exact handled_uploadDocument h
  | listDocumentChunks => exact handled_listDocumentChunks hrole horg h
  | getDocument => exact handled_getDocument hrole horg h
  | updateDocument => exact handled_updateDocument hrole horg h
  | deleteDocument => exact handled_deleteDocument h
  | createConversation => exact handled_of_addNow (fun _ => rfl) rfl h
  | listConversations => exact handled_of_rowsOf hrole horg (fun _ _ => mem_newestFirst.mp) h
  | listMessages => exact handled_listMessages hrole horg h
  | chat => exact handled_chat hrole horg huser hactor h
  | search => exact handled_search hrole horg h
  | usageSummary => exact handled_usageSummary hrole horg h
  | usageEvents => exact handled_usageEvents hrole horg h

end Handlers

/-! ### The caller -/

/-- The caller of a request as the database has it: a stored user, active, of
the organization the session is bound to, whose stored role passes the guard. -/
structure Admitted (roles : Option (List UserRole)) (orgId userId : Uuid) (db : Database)
    (principal : Principal) : Prop where
  bound : principal.orgId = orgId
  role : principal.role = principal.user.role
  stored : principal.user ∈ db .users
  userId : principal.user.id = userId
  active : principal.user.isActive = true
  member : principal.user.orgId = orgId
  allowed : ∀ allowed, roles = some allowed → principal.user.role ∈ allowed

theorem guardPrincipal_eq_ok {roles : Option (List UserRole)} {userId : Uuid} {viaApiKey : Bool}
    {principal : Principal}
    (h : (guardPrincipal roles orgId userId viaApiKey).Runs conn principal conn') :
    conn' = { conn with currentOrg := some orgId } ∧
      Admitted roles orgId userId conn.db principal := by
  simp only [guardPrincipal, Program.runs_bind, Program.runs_pure] at h
  obtain ⟨caller, _, hcaller, _, _, hguard, rfl, rfl⟩ := h
  obtain ⟨rfl, hbound, _, hrole, hstored, hid, hactive, hmember⟩ := getPrincipal_eq_ok hcaller
  unfold guardRoles at hguard
  split at hguard
  · obtain ⟨_, rfl⟩ := Program.runs_pure.mp hguard
    exact ⟨rfl, hbound, hrole, hstored, hid, hactive, hmember, fun _ h => by cases h⟩
  · obtain ⟨hallowed, rfl⟩ := runs_requireRole.mp hguard
    refine ⟨rfl, hbound, hrole, hstored, hid, hactive, hmember, ?_⟩
    rintro _ ⟨⟩
    exact hrole ▸ hallowed

/-- What a request that is served was allowed to do, returns and writes. -/
theorem serve_eq_ok {settings : Settings} {crypto : Crypto} {now : Time} {userId : Uuid}
    {viaApiKey : Bool} {request : Request} {response : Response} (hrole : conn.role = .appUser)
    (h : (serve settings crypto now orgId userId viaApiKey request).Runs conn response conn') :
    ∃ principal, Admitted request.roles orgId userId conn.db principal ∧
      response.Within orgId conn.db ∧ ∃ writes,
        (writes = [] ∨ writes = request.writes settings crypto principal now conn.now) ∧
        { conn with currentOrg := some orgId }.Wrote writes conn' := by
  unfold serve at h
  rw [Program.runs_bind] at h
  obtain ⟨principal, middle, hguard, hhandle⟩ := h
  obtain ⟨rfl, hadmitted⟩ := guardPrincipal_eq_ok hguard
  obtain rfl := hadmitted.bound
  have hbound : ({ conn with currentOrg := some principal.orgId } : Conn).role = .appUser := hrole
  obtain ⟨hwithin, hwrote⟩ :=
    handle_eq_ok hbound rfl hadmitted.stored hadmitted.member hhandle
  refine ⟨principal, hadmitted, hwithin, ?_⟩
  rcases hwrote with heq | hwrote
  · exact ⟨[], .inl rfl, Conn.wrote_nil.mpr heq⟩
  · exact ⟨_, .inr rfl, hwrote⟩

end Spec

end Api
