import KnowledgePlatform.Migrations.Catalog

/-!
# The revisions

The statements of the seven revisions under `migrations/versions`, in their order.
-/

open Core Foundations Python Relational

namespace Migrations

/-- `SELECT, INSERT, UPDATE, DELETE` -/
def allVerbs : List Verb := [.select, .insert, .update, .delete]

/-! ## Columns that most tables have -/

/-- `id UUID DEFAULT gen_random_uuid() NOT NULL` -/
def idColumn : Column := { name := .id, type := .uuid, serverDefault := some .genRandomUuid }

/-- A timestamp that defaults to `now()`. -/
def timestamped (name : ColumnName) : Column :=
  { name, type := .timestamptz, serverDefault := some .now }

def required (name : ColumnName) (type : ColumnType) : Column := { name, type }

def optional (name : ColumnName) (type : ColumnType) : Column := { name, type, nullable := true }

/-- `org_id REFERENCES organizations (id) ON DELETE CASCADE` -/
def orgReference : Reference := ⟨.orgId, .organizations, .cascade⟩

/-- Privileges and row-level security of a table with a tenant column. -/
def secured (table : Table) : List Statement :=
  [.grant allVerbs table .appUser, .enableRowSecurity table, .forceRowSecurity table,
    .createPolicy ⟨table, .orgId, .orgId⟩]

/-! ## `cb04b0481842`: initial schema -/

def organizationsTable : TableDef where
  name := .organizations
  columns := [idColumn, required .name (.varchar 255), required .slug (.varchar 255),
    timestamped .createdAt, timestamped .updatedAt]
  primaryKey := .id
  uniques := [[.slug]]

def documentsTable : TableDef where
  name := .documents
  columns := [idColumn, required .orgId .uuid, required .title (.varchar 512),
    optional .filename (.varchar 512), optional .contentType (.varchar 255),
    { name := .status, type := .enumerated .documentStatus,
      serverDefault := some (.label "pending".toList) },
    timestamped .createdAt, timestamped .updatedAt]
  primaryKey := .id
  references := [orgReference]

def usersTable : TableDef where
  name := .users
  columns := [idColumn, required .orgId .uuid, required .email (.varchar 320),
    optional .hashedPassword (.varchar 255), optional .fullName (.varchar 255),
    { name := .role, type := .enumerated .userRole,
      serverDefault := some (.label "member".toList) },
    { name := .isActive, type := .boolean, serverDefault := some (.boolean true) },
    timestamped .createdAt, timestamped .updatedAt]
  primaryKey := .id
  uniques := [[.email]]
  references := [orgReference]

def apiKeysTable : TableDef where
  name := .apiKeys
  columns := [idColumn, required .orgId .uuid, optional .createdByUserId .uuid,
    required .name (.varchar 255), required .keyPrefix (.varchar 16),
    required .hashedKey (.varchar 255), optional .lastUsedAt .timestamptz,
    optional .expiresAt .timestamptz, optional .revokedAt .timestamptz, timestamped .createdAt]
  primaryKey := .id
  uniques := [[.keyPrefix]]
  references := [⟨.createdByUserId, .users, .setNull⟩, orgReference]

def oauthAccountsTable : TableDef where
  name := .oauthAccounts
  columns := [idColumn, required .userId .uuid, required .provider (.enumerated .oauthProvider),
    required .providerAccountId (.varchar 255), timestamped .createdAt]
  primaryKey := .id
  uniques := [[.provider, .providerAccountId]]
  references := [⟨.userId, .users, .cascade⟩]

def refreshTokensTable : TableDef where
  name := .refreshTokens
  columns := [idColumn, required .userId .uuid, required .tokenHash (.varchar 255),
    required .expiresAt .timestamptz, optional .revokedAt .timestamptz, timestamped .createdAt]
  primaryKey := .id
  uniques := [[.tokenHash]]
  references := [⟨.userId, .users, .cascade⟩]

/-- The statements of a revision. -/
structure Version where
  upgrade : List Statement
  downgrade : List Statement

def initialSchema : Version where
  upgrade := [.createTable organizationsTable, .createTable documentsTable,
    .createTable usersTable, .createTable apiKeysTable, .createTable oauthAccountsTable,
    .createTable refreshTokensTable]
  downgrade := [.dropTable .refreshTokens, .dropTable .oauthAccounts, .dropTable .apiKeys,
    .dropTable .users, .dropTable .documents, .dropTable .organizations]

/-! ## `011db88c062a`: RLS policies and grants -/

/-- `ORG_SCOPED_TABLES` -/
def orgScopedTables : List Table := [.organizations, .users, .apiKeys, .documents]

/-- `APP_USER_TABLES` -/
def appUserTables : List Table := [.organizations, .users, .apiKeys, .documents]

/-- `APP_AUTH_TABLES` -/
def appAuthTables : List Table := [.organizations, .users, .refreshTokens, .oauthAccounts]

def rlsPoliciesAndGrants : Version where
  upgrade :=
    (appUserTables.map fun table => .grant allVerbs table .appUser) ++
      (appAuthTables.map fun table => .grant allVerbs table .appAuth) ++
      [.alterDefaultPrivilegesGrant allVerbs .appUser] ++
      (orgScopedTables.flatMap fun table => [.enableRowSecurity table, .forceRowSecurity table]) ++
      [.createPolicy ⟨.organizations, .id, .id⟩] ++
      ([.users, .apiKeys, .documents].map fun table => .createPolicy ⟨table, .orgId, .orgId⟩)
  downgrade :=
    (orgScopedTables.flatMap fun table =>
      [.dropPolicyIfExists table, .noForceRowSecurity table, .disableRowSecurity table]) ++
      [.alterDefaultPrivilegesRevoke allVerbs .appUser] ++
      (appUserTables.map fun table => .revoke allVerbs table .appUser) ++
      (appAuthTables.map fun table => .revoke allVerbs table .appAuth)

/-! ## `8e4e9d7592c3`: grant app_auth on api_keys for key auth -/

def grantAppAuthOnApiKeys : Version where
  upgrade := [.grant [.select, .update] .apiKeys .appAuth]
  downgrade := [.revoke [.select, .update] .apiKeys .appAuth]

/-! ## `c4fa907d327a`: pgvector document chunks -/

def documentChunksTable : TableDef where
  name := .documentChunks
  columns := [idColumn, required .orgId .uuid, required .documentId .uuid,
    required .chunkIndex .integer, required .content .text, required .tokenCount .integer,
    required .embedding (.vector 1536), timestamped .createdAt]
  primaryKey := .id
  uniques := [[.documentId, .chunkIndex]]
  references := [orgReference, ⟨.documentId, .documents, .cascade⟩]

def pgvectorDocumentChunks : Version where
  upgrade :=
    [.createExtensionIfNotExists,
      .addColumn .documents (optional .storageKey (.varchar 1024)),
      .addColumn .documents (optional .error (.varchar 1024)),
      .createTable documentChunksTable,
      .createIndex
        { name := .documentChunksDocumentId, table := .documentChunks, columns := [.documentId] },
      .createIndex
        { name := .documentChunksEmbedding, table := .documentChunks, columns := [.embedding],
          method := .hnsw }] ++
      secured .documentChunks
  downgrade :=
    [.dropPolicyIfExists .documentChunks, .revoke allVerbs .documentChunks .appUser,
      .dropIndex .documentChunksEmbedding, .dropIndex .documentChunksDocumentId,
      .dropTable .documentChunks, .dropColumn .documents .error,
      .dropColumn .documents .storageKey]

/-! ## `41c9396d68b6`: fts tsvector on document chunks -/

def ftsTsvectorOnDocumentChunks : Version where
  upgrade :=
    [.addColumn .documentChunks
        { name := .contentTsv, type := .tsvector, serverDefault := some .generated },
      .createIndex
        { name := .documentChunksContentTsv, table := .documentChunks, columns := [.contentTsv],
          method := .gin }]
  downgrade :=
    [.dropIndex .documentChunksContentTsv, .dropColumn .documentChunks .contentTsv]

/-! ## `c5a599c2c4fc`: conversations, messages, prompt templates -/

def conversationsTable : TableDef where
  name := .conversations
  columns := [idColumn, required .orgId .uuid, optional .userId .uuid,
    optional .title (.varchar 512), timestamped .createdAt, timestamped .updatedAt]
  primaryKey := .id
  references := [orgReference, ⟨.userId, .users, .setNull⟩]

def messagesTable : TableDef where
  name := .messages
  columns := [idColumn, required .orgId .uuid, required .conversationId .uuid,
    required .role (.enumerated .messageRole), required .content .text,
    optional .citations .jsonb, timestamped .createdAt]
  primaryKey := .id
  references := [orgReference, ⟨.conversationId, .conversations, .cascade⟩]

def promptTemplatesTable : TableDef where
  name := .promptTemplates
  columns := [idColumn, required .orgId .uuid, required .name (.varchar 128),
    required .version .integer, required .content .text,
    { name := .isActive, type := .boolean, serverDefault := some (.boolean false) },
    timestamped .createdAt]
  primaryKey := .id
  uniques := [[.orgId, .name, .version]]
  references := [orgReference]

def conversationsMessagesPromptTemplates : Version where
  upgrade :=
    [.createTable conversationsTable, .createTable messagesTable,
      .createIndex
        { name := .messagesConversationCreated, table := .messages,
          columns := [.conversationId, .createdAt] },
      .createTable promptTemplatesTable,
      .createIndex
        { name := .promptTemplatesOneActive, table := .promptTemplates,
          columns := [.orgId, .name], unique := true, predicate := some .isActive }] ++
      [Table.conversations, .messages, .promptTemplates].flatMap secured
  downgrade :=
    ([Table.conversations, .messages, .promptTemplates].flatMap fun table =>
      [.dropPolicyIfExists table, .revoke allVerbs table .appUser]) ++
      [.dropIndexIfExists .promptTemplatesOneActive, .dropTable .promptTemplates,
        .dropIndex .messagesConversationCreated, .dropTable .messages, .dropTable .conversations,
        .dropTypeIfExists .messageRole]

/-! ## `f3a8c1d9e5b2`: usage events, org webhooks, monthly budget -/

def usageEventsTable : TableDef where
  name := .usageEvents
  columns := [idColumn, required .orgId .uuid, optional .userId .uuid,
    required .kind (.enumerated .usageKind), required .provider (.varchar 64),
    required .model (.varchar 128),
    { name := .inputTokens, type := .integer, serverDefault := some (.number 0) },
    { name := .outputTokens, type := .integer, serverDefault := some (.number 0) },
    { name := .costUsd, type := .numeric 12 6, serverDefault := some (.number 0) },
    optional .conversationId .uuid, optional .documentId .uuid, timestamped .createdAt]
  primaryKey := .id
  references := [orgReference, ⟨.userId, .users, .setNull⟩,
    ⟨.conversationId, .conversations, .setNull⟩, ⟨.documentId, .documents, .setNull⟩]

def orgWebhooksTable : TableDef where
  name := .orgWebhooks
  columns := [idColumn, required .orgId .uuid, required .url (.varchar 2048),
    required .secret (.varchar 255), required .eventTypes .jsonb,
    { name := .isActive, type := .boolean, serverDefault := some (.boolean true) },
    timestamped .createdAt]
  primaryKey := .id
  references := [orgReference]

def usageEventsOrgWebhooksBudget : Version where
  upgrade :=
    [.addColumn .organizations (optional .monthlyBudgetUsd (.numeric 12 2)),
      .createTable usageEventsTable,
      .createIndex
        { name := .usageEventsOrgCreated, table := .usageEvents, columns := [.orgId, .createdAt] },
      .createTable orgWebhooksTable] ++
      [Table.usageEvents, .orgWebhooks].flatMap secured
  downgrade :=
    ([Table.usageEvents, .orgWebhooks].flatMap fun table =>
      [.dropPolicyIfExists table, .revoke allVerbs table .appUser]) ++
      [.dropTable .orgWebhooks, .dropIndex .usageEventsOrgCreated, .dropTable .usageEvents,
        .dropTypeIfExists .usageKind, .dropColumn .organizations .monthlyBudgetUsd]

/-- The revisions, each the `down_revision` of the next. -/
def versions : List Version :=
  [initialSchema, rlsPoliciesAndGrants, grantAppAuthOnApiKeys, pgvectorDocumentChunks,
    ftsTsvectorOnDocumentChunks, conversationsMessagesPromptTemplates,
    usageEventsOrgWebhooksBudget]

end Migrations
