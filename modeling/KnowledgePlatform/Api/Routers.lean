import KnowledgePlatform.Api.Deps
import KnowledgePlatform.Core.Prompts
import KnowledgePlatform.Core.Usage

/-!
# Request handlers

The handlers of the routers that serve an authenticated caller.  Each runs in
the transaction of `getPrincipal`, on a session bound to the caller's
organization, and returns the rows the response is built from.  Ids and secrets
drawn at random, readings of the clock and outcomes of library calls are
arguments.

`Request` lists the endpoints, `Request.roles` their guards, and `serve` is the
transaction of a request.
-/

open Core Foundations Python Relational

namespace Api

/-- `order_by(created_at)` -/
def oldestFirst {Record : Type} (createdAt : Record → Time) (rows : List Record) : List Record :=
  rows.insertionSort fun row other => createdAt row ≤ createdAt other

/-- `order_by(created_at.desc())` -/
def newestFirst {Record : Type} (createdAt : Record → Time) (rows : List Record) : List Record :=
  rows.insertionSort fun row other => createdAt other ≤ createdAt row

/-- The row with this id, or a 404 response. -/
def getOr404 (table : Table) (id : Uuid) (detail : Str) : Tx (Row table) := do
  let found ← getById table id
  Program.orRaise (.http 404 detail) found

/-! ## Users -/

structure UserCreate where
  email : Str
  password : Str
  fullName : Option Str
  role : UserRole := .member
  deriving DecidableEq

structure UserUpdate where
  fullName : Option Str
  role : Option UserRole
  isActive : Option Bool
  deriving DecidableEq

def getOrgUser (userId : Uuid) : Tx User := getOr404 .users userId "User not found".toList

def listUsers : Tx (List User) := do
  let users ← scalars .users fun _ => true
  pure (oldestFirst User.createdAt users)

/-- A unique violation at the flush becomes a 409 response. -/
def emailConflict : Fault → Fault
  | .database .uniqueViolation | .database .foreignKeyViolation =>
      .http 409 "Email already registered".toList
  | fault => fault

/-- The row of a new user. -/
def newUser (principal : Principal) (body : UserCreate) (id : Uuid) (hashedPassword : Str)
    (createdAt : Time) : User where
  id := id
  orgId := principal.orgId
  email := body.email
  hashedPassword := some hashedPassword
  fullName := body.fullName
  role := body.role
  isActive := true
  createdAt := createdAt

/-- The hash of the password is salted and so an argument. -/
def createUser (principal : Principal) (body : UserCreate) (id : Uuid) (hashedPassword : Str) :
    Tx User := do
  let createdAt ← transactionTime
  let user := newUser principal body id hashedPassword createdAt
  (add .users user).mapFault emailConflict
  pure user

def getUser (userId : Uuid) : Tx User := getOrgUser userId

/-- The assignments of `update_user`. -/
def assignUser (body : UserUpdate) : SetClause schema .users where
  set := fun user => { user with
    fullName := body.fullName.orElse fun _ => user.fullName
    role := body.role.getD user.role
    isActive := body.isActive.getD user.isActive }
  key_set := fun _ => rfl
  tenant_set := fun _ => rfl
  clash_set := fun _ _ => ⟨rfl, rfl⟩
  ref_set := by simp [schema, rowForeignKeys, orgKey]

def updateUser (principal : Principal) (userId : Uuid) (body : UserUpdate) : Tx User := do
  let user ← getOrgUser userId
  Program.raiseIf (user.id = principal.user.id ∧ body.role.any (· ≠ .admin) = true)
    (.http 400 "Admins cannot demote themselves".toList)
  Program.raiseIf (user.id = principal.user.id ∧ body.isActive = some false)
    (.http 400 "Admins cannot deactivate themselves".toList)
  save .users user.id (assignUser body)
  pure ((assignUser body).set user)

def deleteUser (principal : Principal) (userId : Uuid) : Tx Unit := do
  let user ← getOrgUser userId
  Program.raiseIf (user.id = principal.user.id)
    (.http 400 "Admins cannot delete themselves".toList)
  deleteById .users user.id

/-! ## API keys -/

structure ApiKeyCreate where
  name : Str
  expiresInDays : Option ℕ
  deriving DecidableEq

/-- What creating an API key draws. -/
structure ApiKeyDraw where
  id : Uuid
  handle : Str
  secret : Str
  deriving DecidableEq

/-- The response to a creation, the only one with the key itself. -/
structure ApiKeyCreated where
  row : ApiKey
  key : Str
  deriving DecidableEq

def listApiKeys : Tx (List ApiKey) := do
  let keys ← scalars .apiKeys fun _ => true
  pure (newestFirst ApiKey.createdAt keys)

/-- The row of a new key. -/
def newApiKey (settings : Settings) (crypto : Crypto) (principal : Principal) (body : ApiKeyCreate)
    (draw : ApiKeyDraw) (now createdAt : Time) : ApiKey where
  id := draw.id
  orgId := principal.orgId
  createdByUserId := some principal.user.id
  name := body.name
  keyPrefix := (generateApiKey settings crypto draw.handle draw.secret).2.1
  hashedKey := (generateApiKey settings crypto draw.handle draw.secret).2.2
  lastUsedAt := none
  expiresAt := body.expiresInDays.map fun days => now + days * Time.day
  revokedAt := none
  createdAt := createdAt

def createApiKey (settings : Settings) (crypto : Crypto) (principal : Principal)
    (body : ApiKeyCreate) (draw : ApiKeyDraw) (now : Time) : Tx ApiKeyCreated := do
  let createdAt ← transactionTime
  let row := newApiKey settings crypto principal body draw now createdAt
  add .apiKeys row
  pure { row, key := (generateApiKey settings crypto draw.handle draw.secret).1 }

/-- `api_key.revoked_at = datetime.now(UTC)` -/
def revokeKey (now : Time) : SetClause schema .apiKeys where
  set := fun key => { key with revokedAt := some now }
  key_set := fun _ => rfl
  tenant_set := fun _ => rfl
  clash_set := fun _ _ => ⟨rfl, rfl⟩
  ref_set := by simp [schema, rowForeignKeys, orgKey]

def revokeApiKey (keyId : Uuid) (now : Time) : Tx Unit := do
  let key ← getOr404 .apiKeys keyId "API key not found".toList
  if key.revokedAt = none then save .apiKeys key.id (revokeKey now) else pure ()

/-! ## Webhooks -/

def listWebhooks : Tx (List OrgWebhook) := do
  let webhooks ← scalars .orgWebhooks fun _ => true
  pure (newestFirst OrgWebhook.createdAt webhooks)

def createWebhook (principal : Principal) (url : Str) (eventTypes : List WebhookEvent) (id : Uuid)
    (secret : Str) : Tx OrgWebhook := do
  let createdAt ← transactionTime
  let webhook : OrgWebhook := { id, orgId := principal.orgId, url, secret,
                                eventTypes := eventTypes.map WebhookEvent.value,
                                isActive := true, createdAt }
  add .orgWebhooks webhook
  pure webhook

def deleteWebhook (webhookId : Uuid) : Tx Unit := do
  let webhook ← getOr404 .orgWebhooks webhookId "Webhook not found".toList
  deleteById .orgWebhooks webhook.id

/-! ## Organizations -/

/-- The response with an organization; the budget is the one assigned. -/
structure OrganizationOut where
  row : Organization
  monthlyBudgetUsd : Option ℚ

def getMyOrganization (principal : Principal) : Tx OrganizationOut := do
  let found ← getById .organizations principal.orgId
  let org ← Program.orRaise (.raised []) found
  pure { row := org, monthlyBudgetUsd := org.monthlyBudgetUsd.map Numeric.toRat }

/-- `org.monthly_budget_usd = body.monthly_budget_usd` -/
def assignBudget (budget : Option (Numeric 12 2)) : SetClause schema .organizations where
  set := fun org => { org with monthlyBudgetUsd := budget }
  key_set := fun _ => rfl
  tenant_set := fun _ => rfl
  clash_set := fun _ _ => ⟨rfl, rfl⟩
  ref_set := by simp [schema, rowForeignKeys]

/-- The value a `monthly_budget_usd` column stores. -/
def storeBudget : Option ℚ → Except StatementError (Option (Numeric 12 2))
  | none => .ok none
  | some budget =>
      match Numeric.ofRat? 12 2 budget with
      | none => .error .dataError
      | some stored => .ok (some stored)

def updateMyOrganization (principal : Principal) (monthlyBudgetUsd : Option ℚ) :
    Tx OrganizationOut := do
  let found ← getById .organizations principal.orgId
  let org ← Program.orRaise (.raised []) found
  let stored ← ofStatement (storeBudget monthlyBudgetUsd)
  save .organizations org.id (assignBudget stored)
  pure { row := (assignBudget stored).set org, monthlyBudgetUsd }

/-! ## Documents -/

structure DocumentCreate where
  title : Str
  filename : Option Str
  contentType : Option Str
  deriving DecidableEq

/-- `text.rsplit(sep, 1)[-1]`: what lies after the last separator. -/
def afterLast (sep : Char) (text : Str) : Str := text.rtakeWhile (· ≠ sep)

/-- `[A-Za-z0-9._-]` -/
def isSafe (c : Char) : Bool :=
  let code := c.toNat
  (65 ≤ code && code ≤ 90) || (97 ≤ code && code ≤ 122) || (48 ≤ code && code ≤ 57) ||
    c == '.' || c == '_' || c == '-'

/-- `text or default` -/
def orDefault (text default : Str) : Str := if text = [] then default else text

def safeFilename (name : Option Str) : Str :=
  let name := orDefault (name.getD []) "document.pdf".toList
  let base := afterLast '\\' (afterLast '/' name)
  let trimmed := fun c : Char => c == '.' || c == '_'
  let cleaned := ((base.map fun c => if isSafe c then c else '_').dropWhile trimmed).rdropWhile
    trimmed
  (orDefault cleaned "document.pdf".toList).take 255

def isPdf (contentType : Option Str) (filename : Str) : Bool :=
  contentType == some "application/pdf".toList ||
    ".pdf".toList.isSuffixOf (filename.flatMap lower)

/-- `storage.build_key` -/
def buildKey (orgId documentId : Uuid) (filename : Str) : Str :=
  "orgs/".toList ++ orgId.str ++ "/documents/".toList ++ documentId.str ++ '/' :: filename

def listDocuments : Tx (List Document) := do
  let documents ← scalars .documents fun _ => true
  pure (newestFirst Document.createdAt documents)

def createDocument (principal : Principal) (body : DocumentCreate) (id : Uuid) : Tx Document := do
  let createdAt ← transactionTime
  let document : Document := { id, orgId := principal.orgId, title := body.title,
                               filename := body.filename, contentType := body.contentType,
                               storageKey := none, error := none, status := .pending, createdAt }
  add .documents document
  pure document

/-- `doc.storage_key = key` -/
def assignStorageKey (key : Str) : SetClause schema .documents where
  set := fun document => { document with storageKey := some key }
  key_set := fun _ => rfl
  tenant_set := fun _ => rfl
  clash_set := fun _ _ => ⟨rfl, rfl⟩
  ref_set := by simp [schema, rowForeignKeys, orgKey]

/-- An uploaded file. -/
structure UploadFile where
  filename : Option Str
  contentType : Option Str
  data : List UInt8

/-- The checks of `upload_document`. -/
def checkUpload (settings : Settings) (file : UploadFile) : Tx Unit := do
  Program.raiseIf (isPdf file.contentType (safeFilename file.filename) = false)
    (.http 415 "Only PDF uploads are supported".toList)
  Program.raiseIf (settings.maxUploadBytes < file.data.length)
    (.http 413 ("File exceeds ".toList ++ ofNat settings.maxUploadBytes ++ " bytes".toList))
  Program.raiseIf (file.data = []) (.http 400 "Empty file".toList)

/-- The row of an uploaded document, before its storage key is known. -/
def uploadedDocument (orgId id : Uuid) (filename : Str) (createdAt : Time) : Document where
  id := id
  orgId := orgId
  title := filename
  filename := some filename
  contentType := some "application/pdf".toList
  storageKey := none
  error := none
  status := .pending
  createdAt := createdAt

/-- `upload_document`; `stored` is the outcome of the storage upload. -/
def uploadDocument (settings : Settings) (principal : Principal) (file : UploadFile) (id : Uuid)
    (stored : Except Str Unit) : Tx Document := do
  checkUpload settings file
  let filename := safeFilename file.filename
  let createdAt ← transactionTime
  let document := uploadedDocument principal.orgId id filename createdAt
  add .documents document
  let key := buildKey principal.orgId id filename
  ofLibrary stored
  save .documents id (assignStorageKey key)
  pure ((assignStorageKey key).set document)

def getOwnedDocument (documentId : Uuid) : Tx Document :=
  getOr404 .documents documentId "Document not found".toList

def listDocumentChunks (documentId : Uuid) : Tx (List DocumentChunk) := do
  let _ ← getOwnedDocument documentId
  let chunks ← scalars .documentChunks fun chunk => chunk.documentId == documentId
  pure (chunks.insertionSort fun chunk other => chunk.chunkIndex ≤ other.chunkIndex)

def getDocument (documentId : Uuid) : Tx Document := getOwnedDocument documentId

/-- `if body.title is not None: doc.title = body.title` -/
def assignTitle (title : Option Str) : SetClause schema .documents where
  set := fun document => { document with title := title.getD document.title }
  key_set := fun _ => rfl
  tenant_set := fun _ => rfl
  clash_set := fun _ _ => ⟨rfl, rfl⟩
  ref_set := by simp [schema, rowForeignKeys, orgKey]

def updateDocument (documentId : Uuid) (title : Option Str) : Tx Document := do
  let document ← getOwnedDocument documentId
  save .documents document.id (assignTitle title)
  pure ((assignTitle title).set document)

def deleteDocument (documentId : Uuid) : Tx Unit := do
  let document ← getOwnedDocument documentId
  deleteById .documents document.id

/-! ## Conversations -/

/-- What the request part of a chat turn hands to the stream. -/
structure ChatTurn where
  orgId : Uuid
  userId : Uuid
  conversationId : Uuid
  history : List (MessageRole × Str)
  question : Str
  deriving DecidableEq

def getConversation (conversationId : Uuid) : Tx Conversation :=
  getOr404 .conversations conversationId "Conversation not found".toList

def createConversation (principal : Principal) (title : Option Str) (id : Uuid) :
    Tx Conversation := do
  let createdAt ← transactionTime
  let conversation : Conversation := { id, orgId := principal.orgId,
                                       userId := some principal.user.id, title, createdAt }
  add .conversations conversation
  pure conversation

def listConversations : Tx (List Conversation) := do
  let conversations ← scalars .conversations fun _ => true
  pure (newestFirst Conversation.createdAt conversations)

/-- The messages of a conversation, the oldest first. -/
def conversationMessages (conversationId : Uuid) : Tx (List Message) := do
  let messages ← scalars .messages fun message => message.conversationId == conversationId
  pure (oldestFirst Message.createdAt messages)

def listMessages (conversationId : Uuid) : Tx (List Message) := do
  let _ ← getConversation conversationId
  conversationMessages conversationId

/-- `items[-count:]`, which is the whole list for a count of zero. -/
def lastItems {α : Type} (count : ℕ) (items : List α) : List α :=
  if count = 0 then items else items.drop (items.length - count)

/-- The part of `chat` that runs before the response is streamed. -/
def chat (settings : Settings) (principal : Principal) (conversationId : Uuid) (message : Str) :
    Tx ChatTurn := do
  let _ ← getConversation conversationId
  let prior ← conversationMessages conversationId
  let history := prior.map fun message => (message.role, message.content)
  pure { orgId := principal.orgId, userId := principal.user.id, conversationId,
         history := lastItems settings.maxHistoryMessages history, question := message }

/-! ## Usage -/

structure UsageKindTotals where
  kind : UsageKind
  inputTokens : ℤ
  outputTokens : ℤ
  costUsd : ℚ
  deriving DecidableEq

structure UsageSummaryOut where
  monthToDateCostUsd : ℚ
  monthlyBudgetUsd : Option (Numeric 12 2)
  budgetUsedPct : Option ℚ
  overBudget : Bool
  byKind : List UsageKindTotals

/-- The totals of the events of one kind. -/
def kindTotals (events : List UsageEvent) (kind : UsageKind) : UsageKindTotals :=
  let events := events.filter fun event => event.kind == kind
  { kind
    inputTokens := (events.map UsageEvent.inputTokens).sum
    outputTokens := (events.map UsageEvent.outputTokens).sum
    costUsd := (events.map fun event => event.costUsd.toRat).sum }

/-- The summary of the events the session sees. -/
def summarize (budget : Option (Numeric 12 2)) (mtdCost : ℚ) (events : List UsageEvent) :
    UsageSummaryOut where
  monthToDateCostUsd := mtdCost
  monthlyBudgetUsd := budget
  budgetUsedPct := (budget.filter fun budget => 0 < budget.toRat).map fun budget =>
    mtdCost / budget.toRat * 100
  overBudget := budget.any fun budget => budget.toRat ≤ mtdCost
  byKind := (events.map UsageEvent.kind).dedup.map (kindTotals events)

def getUsageSummary (principal : Principal) (now : Time) : Tx UsageSummaryOut := do
  let org ← getById .organizations principal.orgId
  let mtdCost ← monthToDateCostUsd principal.orgId now
  let events ← scalars .usageEvents fun _ => true
  pure (summarize (org.bind Organization.monthlyBudgetUsd) mtdCost events)

def listUsageEvents (limit offset : ℕ) : Tx (List UsageEvent) := do
  let events ← scalars .usageEvents fun _ => true
  pure (((newestFirst UsageEvent.createdAt events).drop offset).take limit)

end Api
