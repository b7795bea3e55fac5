import KnowledgePlatform.Foundations.Numeric
import KnowledgePlatform.Foundations.RowSecurity
import KnowledgePlatform.Python.Datetime
import KnowledgePlatform.Python.Uuid

/-!
# Tables

The rows of the twelve tables, under the names of their columns, and the
constraints of the migrations as a `Relational.Schema`: primary keys, unique
constraints and the partial unique index of `prompt_templates`, foreign keys
with their referential actions, column types, and the tenant column of the
tables that have one.
-/

open Foundations Python Relational

namespace Core

/-! ## Enumerations -/

inductive UserRole
  | admin
  | member
  | readOnly
  deriving DecidableEq, Repr

inductive DocumentStatus
  | pending
  | processing
  | ready
  | failed
  deriving DecidableEq, Repr

inductive OAuthProvider
  | google
  | github
  deriving DecidableEq, Repr

inductive MessageRole
  | user
  | assistant
  deriving DecidableEq, Repr

inductive UsageKind
  | generation
  | embedding
  deriving DecidableEq, Repr

inductive WebhookEvent
  | documentReady
  | documentFailed
  | budgetAlert
  deriving DecidableEq, Repr

def UserRole.value : UserRole → Str
  | admin => "admin".toList
  | member => "member".toList
  | readOnly => "read_only".toList

def MessageRole.value : MessageRole → Str
  | user => "user".toList
  | assistant => "assistant".toList

def WebhookEvent.value : WebhookEvent → Str
  | documentReady => "document.ready".toList
  | documentFailed => "document.failed".toList
  | budgetAlert => "budget.alert".toList

/-! ## Rows -/

structure Organization where
  id : Uuid
  name : Str
  slug : Str
  monthlyBudgetUsd : Option (Numeric 12 2)
  createdAt : Time
  deriving DecidableEq

structure User where
  id : Uuid
  orgId : Uuid
  email : Str
  hashedPassword : Option Str
  fullName : Option Str
  role : UserRole
  isActive : Bool
  createdAt : Time
  deriving DecidableEq

structure OAuthAccount where
  id : Uuid
  userId : Uuid
  provider : OAuthProvider
  providerAccountId : Str
  createdAt : Time
  deriving DecidableEq

structure ApiKey where
  id : Uuid
  orgId : Uuid
  createdByUserId : Option Uuid
  name : Str
  keyPrefix : Str
  hashedKey : Str
  lastUsedAt : Option Time
  expiresAt : Option Time
  revokedAt : Option Time
  createdAt : Time
  deriving DecidableEq

structure RefreshToken where
  id : Uuid
  userId : Uuid
  tokenHash : Str
  expiresAt : Time
  revokedAt : Option Time
  createdAt : Time
  deriving DecidableEq

structure Document where
  id : Uuid
  orgId : Uuid
  title : Str
  filename : Option Str
  contentType : Option Str
  storageKey : Option Str
  error : Option Str
  status : DocumentStatus
  createdAt : Time
  deriving DecidableEq

/-- An embedding vector, by its components. -/
abbrev Embedding := List ℚ

structure DocumentChunk where
  id : Uuid
  orgId : Uuid
  documentId : Uuid
  chunkIndex : ℤ
  content : Str
  tokenCount : ℤ
  embedding : Embedding
  createdAt : Time
  deriving DecidableEq

structure Conversation where
  id : Uuid
  orgId : Uuid
  userId : Option Uuid
  title : Option Str
  createdAt : Time
  deriving DecidableEq

/-- A resolved citation.  Identifiers are kept as their texts, which is how they
are stored with a message. -/
structure Citation where
  marker : ℕ
  chunkId : Str
  documentId : Str
  documentTitle : Str
  snippet : Str
  deriving DecidableEq

structure Message where
  id : Uuid
  orgId : Uuid
  conversationId : Uuid
  role : MessageRole
  content : Str
  citations : Option (List Citation)
  createdAt : Time
  deriving DecidableEq

structure PromptTemplate where
  id : Uuid
  orgId : Uuid
  name : Str
  version : ℤ
  content : Str
  isActive : Bool
  createdAt : Time
  deriving DecidableEq

structure UsageEvent where
  id : Uuid
  orgId : Uuid
  userId : Option Uuid
  kind : UsageKind
  provider : Str
  model : Str
  inputTokens : ℤ
  outputTokens : ℤ
  costUsd : Numeric 12 6
  conversationId : Option Uuid
  documentId : Option Uuid
  createdAt : Time
  deriving DecidableEq

structure OrgWebhook where
  id : Uuid
  orgId : Uuid
  url : Str
  secret : Str
  eventTypes : List Str
  isActive : Bool
  createdAt : Time
  deriving DecidableEq

/-! ## Column types -/

/-- `EMBEDDING_DIM` -/
def embeddingDim : ℕ := 1536

/-- A `text` value: it has no NUL. -/
def fitsText (s : Str) : Bool := s.all (· != '\x00')

/-- A `varchar(n)` value. -/
def fitsVarchar (n : ℕ) (s : Str) : Bool := decide (s.length ≤ n) && fitsText s

/-- A nullable `varchar(n)` value. -/
def fitsNullable (n : ℕ) (s : Option Str) : Bool := s.all (fitsVarchar n)

/-- An `integer` value. -/
def fitsInteger (i : ℤ) : Bool := decide (-2 ^ 31 ≤ i) && decide (i < 2 ^ 31)

/-- The texts of a citation stored as `jsonb`. -/
def Citation.fits (citation : Citation) : Bool :=
  fitsText citation.chunkId && fitsText citation.documentId && fitsText citation.documentTitle &&
    fitsText citation.snippet

/-! ## Schema -/

inductive Table
  | organizations
  | users
  | oauthAccounts
  | apiKeys
  | refreshTokens
  | documents
  | documentChunks
  | conversations
  | messages
  | promptTemplates
  | usageEvents
  | orgWebhooks
  deriving DecidableEq, Repr

/-- The rows of a table. -/
@[reducible] def Row : Table → Type
  | .organizations => Organization
  | .users => User
  | .oauthAccounts => OAuthAccount
  | .apiKeys => ApiKey
  | .refreshTokens => RefreshToken
  | .documents => Document
  | .documentChunks => DocumentChunk
  | .conversations => Conversation
  | .messages => Message
  | .promptTemplates => PromptTemplate
  | .usageEvents => UsageEvent
  | .orgWebhooks => OrgWebhook

abbrev Database := Relational.Database Row

/-- `PRIMARY KEY (id)` -/
def rowId : ∀ table, Row table → Uuid
  | .organizations => Organization.id
  | .users => User.id
  | .oauthAccounts => OAuthAccount.id
  | .apiKeys => ApiKey.id
  | .refreshTokens => RefreshToken.id
  | .documents => Document.id
  | .documentChunks => DocumentChunk.id
  | .conversations => Conversation.id
  | .messages => Message.id
  | .promptTemplates => PromptTemplate.id
  | .usageEvents => UsageEvent.id
  | .orgWebhooks => OrgWebhook.id

/-- The tenant of a row.  An organization is its own tenant; linked accounts and
refresh tokens have no tenant column. -/
def rowOrg : ∀ table, Row table → Option Uuid
  | .organizations => fun row => some row.id
  | .users => fun row => some row.orgId
  | .oauthAccounts => fun _ => none
  | .apiKeys => fun row => some row.orgId
  | .refreshTokens => fun _ => none
  | .documents => fun row => some row.orgId
  | .documentChunks => fun row => some row.orgId
  | .conversations => fun row => some row.orgId
  | .messages => fun row => some row.orgId
  | .promptTemplates => fun row => some row.orgId
  | .usageEvents => fun row => some row.orgId
  | .orgWebhooks => fun row => some row.orgId

/-- `org_id REFERENCES organizations (id) ON DELETE CASCADE` -/
def orgKey {Record : Type} (orgId : Record → Uuid) : ForeignKey Table Uuid Record where
  parent := .organizations
  ref := fun row => some (orgId row)
  onDelete := .cascade

def rowForeignKeys : ∀ table, List (ForeignKey Table Uuid (Row table))
  | .organizations => []
  | .users => [orgKey User.orgId]
  | .oauthAccounts =>
      [{ parent := .users, ref := fun row => some row.userId, onDelete := .cascade }]
  | .apiKeys => [orgKey ApiKey.orgId,
      { parent := .users, ref := ApiKey.createdByUserId, onDelete := .setNull,
        clear := fun row => { row with createdByUserId := none } }]
  | .refreshTokens =>
      [{ parent := .users, ref := fun row => some row.userId, onDelete := .cascade }]
  | .documents => [orgKey Document.orgId]
  | .documentChunks => [orgKey DocumentChunk.orgId,
      { parent := .documents, ref := fun row => some row.documentId, onDelete := .cascade }]
  | .conversations => [orgKey Conversation.orgId,
      { parent := .users, ref := Conversation.userId, onDelete := .setNull,
        clear := fun row => { row with userId := none } }]
  | .messages => [orgKey Message.orgId,
      { parent := .conversations, ref := fun row => some row.conversationId,
        onDelete := .cascade }]
  | .promptTemplates => [orgKey PromptTemplate.orgId]
  | .usageEvents => [orgKey UsageEvent.orgId,
      { parent := .users, ref := UsageEvent.userId, onDelete := .setNull,
        clear := fun row => { row with userId := none } },
      { parent := .conversations, ref := UsageEvent.conversationId, onDelete := .setNull,
        clear := fun row => { row with conversationId := none } },
      { parent := .documents, ref := UsageEvent.documentId, onDelete := .setNull,
        clear := fun row => { row with documentId := none } }]
  | .orgWebhooks => [orgKey OrgWebhook.orgId]

/-- Unique constraints and unique indexes besides the primary keys. -/
def rowClash : ∀ table, Row table → Row table → Bool
  | .organizations => fun row other => row.slug == other.slug
  | .users => fun row other => row.email == other.email
  | .oauthAccounts => fun row other =>
      row.provider == other.provider && row.providerAccountId == other.providerAccountId
  | .apiKeys => fun row other => row.keyPrefix == other.keyPrefix
  | .refreshTokens => fun row other => row.tokenHash == other.tokenHash
  | .documentChunks => fun row other =>
      row.documentId == other.documentId && row.chunkIndex == other.chunkIndex
  | .promptTemplates => fun row other => row.orgId == other.orgId && row.name == other.name &&
      (row.version == other.version || (row.isActive && other.isActive))
  | .documents | .conversations | .messages | .usageEvents | .orgWebhooks => fun _ _ => false

/-- Whether the values of a row fit its columns. -/
def rowFits : ∀ table, Row table → Bool
  | .organizations => fun row => fitsVarchar 255 row.name && fitsVarchar 255 row.slug
  | .users => fun row => fitsVarchar 320 row.email && fitsNullable 255 row.hashedPassword &&
      fitsNullable 255 row.fullName
  | .oauthAccounts => fun row => fitsVarchar 255 row.providerAccountId
  | .apiKeys => fun row => fitsVarchar 255 row.name && fitsVarchar 16 row.keyPrefix &&
      fitsVarchar 255 row.hashedKey
  | .refreshTokens => fun row => fitsVarchar 255 row.tokenHash
  | .documents => fun row => fitsVarchar 512 row.title && fitsNullable 512 row.filename &&
      fitsNullable 255 row.contentType && fitsNullable 1024 row.storageKey &&
      fitsNullable 1024 row.error
  | .documentChunks => fun row => fitsInteger row.chunkIndex && fitsText row.content &&
      fitsInteger row.tokenCount && row.embedding.length == embeddingDim
  | .conversations => fun row => fitsNullable 512 row.title
  | .messages => fun row =>
      fitsText row.content && row.citations.all fun citations => citations.all Citation.fits
  | .promptTemplates => fun row =>
      fitsVarchar 128 row.name && fitsInteger row.version && fitsText row.content
  | .usageEvents => fun row => fitsVarchar 64 row.provider && fitsVarchar 128 row.model &&
      fitsInteger row.inputTokens && fitsInteger row.outputTokens
  | .orgWebhooks => fun row => fitsVarchar 2048 row.url && fitsVarchar 255 row.secret &&
      row.eventTypes.all fitsText

/-- The length of the longest chain of references out of a table. -/
def tableRank : Table → ℕ
  | .organizations => 0
  | .users | .documents | .promptTemplates | .orgWebhooks => 1
  | .oauthAccounts | .apiKeys | .refreshTokens | .documentChunks | .conversations => 2
  | .messages | .usageEvents => 3

def schema : Schema Table Uuid Row where
  key := rowId
  tenant := rowOrg
  foreignKeys := rowForeignKeys
  clash := rowClash
  fits := rowFits
  rank := tableRank
  rank_parent := by
    intro table
    cases table <;> simp [rowForeignKeys, orgKey, tableRank]
  key_clear := by
    intro table
    cases table <;> simp [rowForeignKeys, orgKey, rowId]
  tenant_clear := by
    intro table
    cases table <;> simp [rowForeignKeys, orgKey, rowOrg]
  clash_clear := by
    intro table
    cases table <;> simp [rowForeignKeys, orgKey, rowClash]
  ref_clear := by
    intro table
    cases table <;> simp [rowForeignKeys, orgKey]
  ref_clear_self := by
    intro table
    cases table <;> simp [rowForeignKeys, orgKey]
  tenant_of_setNull := by
    intro table
    cases table <;> simp [rowForeignKeys, orgKey, rowOrg]

/-- A row fits its columns also after a reference was set to NULL. -/
theorem rowFits_clear : ∀ table, ∀ fk ∈ rowForeignKeys table, fk.onDelete = .setNull →
    ∀ row, rowFits table row = true → rowFits table (fk.clear row) = true := by
  intro table
  cases table <;> simp +contextual [rowForeignKeys, orgKey, rowFits]

end Core
