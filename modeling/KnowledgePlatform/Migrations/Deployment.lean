import KnowledgePlatform.Migrations.Versions

/-!
# What a catalog means

The rows of the platform, read through a catalog: which rows a role sees and may
write, where a row refers to, which rows clash and whether a row fits its columns.

`deploys_head` says that for the catalog after the last revision these are the
privileges, policies and constraints the sessions and the schema are modelled with.
-/

open Core Foundations Python Relational

namespace Migrations

/-! ## Cells -/

/-- What a row holds in a column. -/
inductive Cell
  | null
  | uuid (value : Uuid)
  | text (value : Str)
  | integer (value : ℤ)
  | boolean (value : Bool)
  | time (value : Time)
  | numeric (precision scale : ℕ) (value : ℚ)
  | vector (value : List ℚ)
  /-- The texts in a JSON value. -/
  | json (texts : List Str)
  | label (text : Str)
  deriving DecidableEq

/-- A nullable value. -/
def Cell.ofOption {α : Type} (cell : α → Cell) : Option α → Cell
  | none => .null
  | some value => cell value

def documentStatusLabel : DocumentStatus → Str
  | .pending => "pending".toList
  | .processing => "processing".toList
  | .ready => "ready".toList
  | .failed => "failed".toList

def oauthProviderLabel : OAuthProvider → Str
  | .google => "google".toList
  | .github => "github".toList

def usageKindLabel : UsageKind → Str
  | .generation => "generation".toList
  | .embedding => "embedding".toList

/-- The texts of a citation. -/
def citationTexts (citation : Citation) : List Str :=
  [citation.chunkId, citation.documentId, citation.documentTitle, citation.snippet]

/-- The columns of a row; `updated_at` and the generated `content_tsv`, which no code
reads, are not among the fields of the rows. -/
def cell : ∀ table, Row table → ColumnName → Option Cell
  | .organizations, row, column =>
      match column with
      | .id => some (.uuid row.id)
      | .name => some (.text row.name)
      | .slug => some (.text row.slug)
      | .monthlyBudgetUsd => some (.ofOption (fun budget => .numeric 12 2 budget.toRat)
          row.monthlyBudgetUsd)
      | .createdAt => some (.time row.createdAt)
      | _ => none
  | .users, row, column =>
      match column with
      | .id => some (.uuid row.id)
      | .orgId => some (.uuid row.orgId)
      | .email => some (.text row.email)
      | .hashedPassword => some (.ofOption .text row.hashedPassword)
      | .fullName => some (.ofOption .text row.fullName)
      | .role => some (.label row.role.value)
      | .isActive => some (.boolean row.isActive)
      | .createdAt => some (.time row.createdAt)
      | _ => none
  | .oauthAccounts, row, column =>
      match column with
      | .id => some (.uuid row.id)
      | .userId => some (.uuid row.userId)
      | .provider => some (.label (oauthProviderLabel row.provider))
      | .providerAccountId => some (.text row.providerAccountId)
      | .createdAt => some (.time row.createdAt)
      | _ => none
  | .apiKeys, row, column =>
      match column with
      | .id => some (.uuid row.id)
      | .orgId => some (.uuid row.orgId)
      | .createdByUserId => some (.ofOption .uuid row.createdByUserId)
      | .name => some (.text row.name)
      | .keyPrefix => some (.text row.keyPrefix)
      | .hashedKey => some (.text row.hashedKey)
      | .lastUsedAt => some (.ofOption .time row.lastUsedAt)
      | .expiresAt => some (.ofOption .time row.expiresAt)
      | .revokedAt => some (.ofOption .time row.revokedAt)
      | .createdAt => some (.time row.createdAt)
      | _ => none
  | .refreshTokens, row, column =>
      match column with
      | .id => some (.uuid row.id)
      | .userId => some (.uuid row.userId)
      | .tokenHash => some (.text row.tokenHash)
      | .expiresAt => some (.time row.expiresAt)
      | .revokedAt => some (.ofOption .time row.revokedAt)
      | .createdAt => some (.time row.createdAt)
      | _ => none
  | .documents, row, column =>
      match column with
      | .id => some (.uuid row.id)
      | .orgId => some (.uuid row.orgId)
      | .title => some (.text row.title)
      | .filename => some (.ofOption .text row.filename)
      | .contentType => some (.ofOption .text row.contentType)
      | .storageKey => some (.ofOption .text row.storageKey)
      | .error => some (.ofOption .text row.error)
      | .status => some (.label (documentStatusLabel row.status))
      | .createdAt => some (.time row.createdAt)
      | _ => none
  | .documentChunks, row, column =>
      match column with
      | .id => some (.uuid row.id)
      | .orgId => some (.uuid row.orgId)
      | .documentId => some (.uuid row.documentId)
      | .chunkIndex => some (.integer row.chunkIndex)
      | .content => some (.text row.content)
      | .tokenCount => some (.integer row.tokenCount)
      | .embedding => some (.vector row.embedding)
      | .createdAt => some (.time row.createdAt)
      | _ => none
  | .conversations, row, column =>
      match column with
      | .id => some (.uuid row.id)
      | .orgId => some (.uuid row.orgId)
      | .userId => some (.ofOption .uuid row.userId)
      | .title => some (.ofOption .text row.title)
      | .createdAt => some (.time row.createdAt)
      | _ => none
  | .messages, row, column =>
      match column with
      | .id => some (.uuid row.id)
      | .orgId => some (.uuid row.orgId)
      | .conversationId => some (.uuid row.conversationId)
      | .role => some (.label row.role.value)
      | .content => some (.text row.content)
      | .citations => some (.ofOption (fun citations => .json (citations.flatMap citationTexts))
          row.citations)
      | .createdAt => some (.time row.createdAt)
      | _ => none
  | .promptTemplates, row, column =>
      match column with
      | .id => some (.uuid row.id)
      | .orgId => some (.uuid row.orgId)
      | .name => some (.text row.name)
      | .version => some (.integer row.version)
      | .content => some (.text row.content)
      | .isActive => some (.boolean row.isActive)
      | .createdAt => some (.time row.createdAt)
      | _ => none
  | .usageEvents, row, column =>
      match column with
      | .id => some (.uuid row.id)
      | .orgId => some (.uuid row.orgId)
      | .userId => some (.ofOption .uuid row.userId)
      | .kind => some (.label (usageKindLabel row.kind))
      | .provider => some (.text row.provider)
      | .model => some (.text row.model)
      | .inputTokens => some (.integer row.inputTokens)
      | .outputTokens => some (.integer row.outputTokens)
      | .costUsd => some (.numeric 12 6 row.costUsd.toRat)
      | .conversationId => some (.ofOption .uuid row.conversationId)
      | .documentId => some (.ofOption .uuid row.documentId)
      | .createdAt => some (.time row.createdAt)
      | _ => none
  | .orgWebhooks, row, column =>
      match column with
      | .id => some (.uuid row.id)
      | .orgId => some (.uuid row.orgId)
      | .url => some (.text row.url)
      | .secret => some (.text row.secret)
      | .eventTypes => some (.json row.eventTypes)
      | .isActive => some (.boolean row.isActive)
      | .createdAt => some (.time row.createdAt)
      | _ => none

/-- Whether a column takes a value. -/
def Column.fits (column : Column) : Cell → Bool
  | .null => column.nullable
  | .uuid _ => column.type == .uuid
  | .text value =>
      match column.type with
      | .varchar length => fitsVarchar length value
      | .text => fitsText value
      | _ => false
  | .integer value => column.type == .integer && fitsInteger value
  | .boolean _ => column.type == .boolean
  | .time _ => column.type == .timestamptz
  | .numeric precision scale _ => column.type == .numeric precision scale
  | .vector value => column.type == .vector value.length
  | .json texts => column.type == .jsonb && texts.all fitsText
  | .label text =>
      match column.type with
      | .enumerated type => type.labels.contains text
      | _ => false

/-! ## Rows under a catalog -/

/-- `BYPASSRLS`, as the role bootstrap sets it. -/
def bypassesRowSecurity : DbRole → Bool
  | .appUser => false
  | .appAuth => true

/-- The column holds the organization the session is bound to. -/
def isCurrentOrg (currentOrg : Option Uuid) (table : Table) (row : Row table)
    (column : ColumnName) : Bool :=
  currentOrg.any fun orgId => cell table row column == some (.uuid orgId)

/-- The columns agree, and none of them is NULL. -/
def sameCells (table : Table) (row other : Row table) (columns : List ColumnName) : Bool :=
  columns.all fun column => cell table row column == cell table other column &&
    cell table row column != some .null

namespace Catalog

/-- What a session of a role may do under the catalog. -/
def policy (catalog : Catalog) (role : DbRole) (currentOrg : Option Uuid) : Policy Row where
  grants := fun verb table => catalog.privileges.contains (role, table, verb)
  visible := fun table row => bypassesRowSecurity role || !catalog.rowSecurity.contains table ||
    catalog.policies.any fun policy =>
      policy.table == table && isCurrentOrg currentOrg table row policy.usingColumn
  check := fun table row => bypassesRowSecurity role || !catalog.rowSecurity.contains table ||
    catalog.policies.any fun policy =>
      policy.table == table && isCurrentOrg currentOrg table row policy.checkColumn

/-- The foreign keys of a table. -/
def references (catalog : Catalog) (table : Table) : List Reference :=
  ((catalog.table? table).map TableDef.references).getD []

/-- Whether two rows violate a unique constraint or a unique index. -/
def clash (catalog : Catalog) (table : Table) (row other : Row table) : Bool :=
  (((catalog.table? table).map TableDef.uniques).getD []).any (sameCells table row other) ||
    catalog.indexes.any fun index => index.table == table && index.unique &&
      sameCells table row other index.columns && index.predicate.toList.all fun column =>
        cell table row column == some (.boolean true) &&
          cell table other column == some (.boolean true)

/-- Whether a row fits the columns of its table. -/
def fits (catalog : Catalog) (table : Table) (row : Row table) : Bool :=
  (catalog.table? table).any fun found =>
    found.columns.all fun column => (cell table row column.name).all column.fits

end Catalog

/-- A foreign key as the catalog and as the schema has it. -/
structure Matches {table : Table} (reference : Reference) (fk : ForeignKey Table Uuid (Row table)) :
    Prop where
  parent : reference.parent = fk.parent
  onDelete : reference.onDelete = fk.onDelete
  ref : ∀ row, cell table row reference.column = some (.ofOption .uuid (fk.ref row))

/-- The catalog is the one the platform is modelled with. -/
structure Deploys (catalog : Catalog) : Prop where
  privileges : ∀ role currentOrg verb table,
    (catalog.policy role currentOrg).grants verb table = (Core.policy role currentOrg).grants verb table
  visible : ∀ role currentOrg verb table, grants role verb table = true →
    (catalog.policy role currentOrg).visible table = (Core.policy role currentOrg).visible table
  check : ∀ role currentOrg verb table, grants role verb table = true →
    (catalog.policy role currentOrg).check table = (Core.policy role currentOrg).check table
  primaryKey : ∀ table, ∃ found, catalog.table? table = some found ∧ ∀ row,
    cell table row found.primaryKey = some (.uuid (schema.key table row))
  foreignKeys : ∀ table, ∃ references, references.Perm (catalog.references table) ∧
    List.Forall₂ Matches references (schema.foreignKeys table)
  clash : ∀ table row other, catalog.clash table row other = schema.clash table row other
  fits : ∀ table row, catalog.fits table row = schema.fits table row

/-! ## The last catalog -/

/-- The tables as the last revision leaves them. -/
def headTable : Table → TableDef
  | .organizations =>
      { organizationsTable with
        columns := organizationsTable.columns ++ [optional .monthlyBudgetUsd (.numeric 12 2)] }
  | .users => usersTable
  | .oauthAccounts => oauthAccountsTable
  | .apiKeys => apiKeysTable
  | .refreshTokens => refreshTokensTable
  | .documents =>
      { documentsTable with
        columns := documentsTable.columns ++
          [optional .storageKey (.varchar 1024), optional .error (.varchar 1024)] }
  | .documentChunks =>
      { documentChunksTable with
        columns := documentChunksTable.columns ++
          [{ name := .contentTsv, type := .tsvector, serverDefault := some .generated }] }
  | .conversations => conversationsTable
  | .messages => messagesTable
  | .promptTemplates => promptTemplatesTable
  | .usageEvents => usageEventsTable
  | .orgWebhooks => orgWebhooksTable

/-- Both roles and everything the seven revisions leave. -/
def head : Catalog where
  roles := [.appUser, .appAuth]
  vector := true
  types := [.documentStatus, .userRole, .oauthProvider, .messageRole, .usageKind]
  tables :=
    [Table.organizations, .documents, .users, .apiKeys, .oauthAccounts, .refreshTokens,
      .documentChunks, .conversations, .messages, .promptTemplates, .usageEvents,
      .orgWebhooks].map headTable
  indexes :=
    [{ name := .documentChunksDocumentId, table := .documentChunks, columns := [.documentId] },
      { name := .documentChunksEmbedding, table := .documentChunks, columns := [.embedding],
        method := .hnsw },
      { name := .documentChunksContentTsv, table := .documentChunks, columns := [.contentTsv],
        method := .gin },
      { name := .messagesConversationCreated, table := .messages,
        columns := [.conversationId, .createdAt] },
      { name := .promptTemplatesOneActive, table := .promptTemplates, columns := [.orgId, .name],
        unique := true, predicate := some .isActive },
      { name := .usageEventsOrgCreated, table := .usageEvents, columns := [.orgId, .createdAt] }]
  privileges :=
    appUserTables.flatMap (fun table => allVerbs.map fun verb => (.appUser, table, verb)) ++
      appAuthTables.flatMap (fun table => allVerbs.map fun verb => (.appAuth, table, verb)) ++
      [(.appAuth, .apiKeys, .select), (.appAuth, .apiKeys, .update)] ++
      [Table.documentChunks, .conversations, .messages, .promptTemplates, .usageEvents,
        .orgWebhooks].flatMap fun table => allVerbs.map fun verb => (.appUser, table, verb)
  defaultPrivileges := allVerbs.map fun verb => (.appUser, verb)
  rowSecurity := orgScopedTables ++ [.documentChunks, .conversations, .messages, .promptTemplates,
    .usageEvents, .orgWebhooks]
  forced := orgScopedTables ++ [.documentChunks, .conversations, .messages, .promptTemplates,
    .usageEvents, .orgWebhooks]
  policies :=
    ⟨.organizations, .id, .id⟩ ::
      [Table.users, .apiKeys, .documents, .documentChunks, .conversations, .messages,
        .promptTemplates, .usageEvents, .orgWebhooks].map fun table => ⟨table, .orgId, .orgId⟩

theorem privileges_head (role : DbRole) (verb : Verb) (table : Table) :
    head.privileges.contains (role, table, verb) = grants role verb table := by
  cases role <;> cases table <;> cases verb <;> rfl

/-- The tables of `app_user` are the ones with row-level security, and each has one policy,
on its tenant column. -/
theorem isCurrentOrg_head (currentOrg : Option Uuid) (table : Table) (row : Row table)
    (column : RowPolicy → ColumnName)
    (hcolumn : column = RowPolicy.usingColumn ∨ column = RowPolicy.checkColumn)
    (hgranted : ∃ verb, grants .appUser verb table = true) :
    (!head.rowSecurity.contains table || head.policies.any fun policy =>
      policy.table == table && isCurrentOrg currentOrg table row (column policy)) =
      orgIsolation .appUser currentOrg table row := by
  obtain ⟨verb, hverb⟩ := hgranted
  rcases hcolumn with rfl | rfl <;> cases currentOrg <;> cases table <;>
    simp [grants] at hverb <;> rw [Bool.eq_iff_iff] <;>
    simp [head, orgScopedTables, isCurrentOrg, cell, orgIsolation, rowOrg]

theorem foreignKeys_head (table : Table) : ∃ references,
    references.Perm (head.references table) ∧ List.Forall₂ Matches references (schema.foreignKeys table) := by
  cases table
  case apiKeys =>
    refine ⟨[orgReference, ⟨.createdByUserId, .users, .setNull⟩], List.Perm.swap _ _ _, ?_⟩
    exact .cons ⟨rfl, rfl, fun _ => rfl⟩ (.cons ⟨rfl, rfl, fun _ => rfl⟩ .nil)
  case organizations => exact ⟨[], .refl _, .nil⟩
  case users | oauthAccounts | refreshTokens | documents | promptTemplates | orgWebhooks =>
    exact ⟨_, .refl _, .cons ⟨rfl, rfl, fun _ => rfl⟩ .nil⟩
  case documentChunks | conversations | messages =>
    exact ⟨_, .refl _, .cons ⟨rfl, rfl, fun _ => rfl⟩ (.cons ⟨rfl, rfl, fun _ => rfl⟩ .nil)⟩
  case usageEvents =>
    exact ⟨_, .refl _, .cons ⟨rfl, rfl, fun _ => rfl⟩ (.cons ⟨rfl, rfl, fun _ => rfl⟩
      (.cons ⟨rfl, rfl, fun _ => rfl⟩ (.cons ⟨rfl, rfl, fun _ => rfl⟩ .nil)))⟩

theorem table?_head (table : Table) : head.table? table = some (headTable table) := by
  cases table <;> rfl

theorem oauthProviderLabel_inj {provider other : OAuthProvider} :
    oauthProviderLabel provider = oauthProviderLabel other ↔ provider = other := by
  cases provider <;> cases other <;> simp [oauthProviderLabel]

/-- Rows clash under the last catalog as they do in the schema. -/
theorem clash_head (table : Table) (row other : Row table) :
    head.clash table row other = schema.clash table row other := by
  rw [Catalog.clash, table?_head, Bool.eq_iff_iff]
  cases table <;>
    simp [headTable, head, sameCells, cell, schema, rowClash, organizationsTable, usersTable,
      oauthAccountsTable, apiKeysTable, refreshTokensTable, documentsTable, documentChunksTable,
      conversationsTable, messagesTable, promptTemplatesTable, usageEventsTable, orgWebhooksTable,
      oauthProviderLabel_inj]
  tauto

/-! ### What columns take -/

section Fits

variable {name : ColumnName} {nullable : Bool} {serverDefault : Option ServerDefault}

/-- A nullable column takes NULL, and any value it takes. -/
@[simp] theorem fits_ofOption {α : Type} {type : ColumnType} (cell : α → Cell) (value : Option α) :
    Column.fits ⟨name, type, true, serverDefault⟩ (.ofOption cell value) =
      value.all fun value => Column.fits ⟨name, type, true, serverDefault⟩ (cell value) := by
  cases value <;> rfl

@[simp] theorem fits_uuid {value : Uuid} :
    Column.fits ⟨name, .uuid, nullable, serverDefault⟩ (.uuid value) = true := rfl

@[simp] theorem fits_varchar {length : ℕ} {value : Str} :
    Column.fits ⟨name, .varchar length, nullable, serverDefault⟩ (.text value) =
      fitsVarchar length value := rfl

@[simp] theorem fits_text {value : Str} :
    Column.fits ⟨name, .text, nullable, serverDefault⟩ (.text value) = fitsText value := rfl

@[simp] theorem fits_integer {value : ℤ} :
    Column.fits ⟨name, .integer, nullable, serverDefault⟩ (.integer value) = fitsInteger value :=
  rfl

@[simp] theorem fits_boolean {value : Bool} :
    Column.fits ⟨name, .boolean, nullable, serverDefault⟩ (.boolean value) = true := rfl

@[simp] theorem fits_time {value : Time} :
    Column.fits ⟨name, .timestamptz, nullable, serverDefault⟩ (.time value) = true := rfl

@[simp] theorem fits_numeric {precision scale : ℕ} {value : ℚ} :
    Column.fits ⟨name, .numeric precision scale, nullable, serverDefault⟩
      (.numeric precision scale value) = true :=
  beq_self_eq_true (ColumnType.numeric precision scale)

@[simp] theorem fits_vector {dim : ℕ} {value : List ℚ} :
    Column.fits ⟨name, .vector dim, nullable, serverDefault⟩ (.vector value) =
      decide (value.length = dim) := by
  by_cases h : value.length = dim
  · rw [decide_eq_true h, ← h]
    exact beq_self_eq_true (ColumnType.vector value.length)
  · have hne : ColumnType.vector dim ≠ .vector value.length :=
      fun heq => h (ColumnType.vector.inj heq).symm
    exact (beq_eq_false_iff_ne.mpr hne).trans (decide_eq_false h).symm

@[simp] theorem fits_json {texts : List Str} :
    Column.fits ⟨name, .jsonb, nullable, serverDefault⟩ (.json texts) = texts.all fitsText := rfl

theorem fits_label {type : EnumType} {text : Str} (h : text ∈ type.labels) :
    Column.fits ⟨name, .enumerated type, nullable, serverDefault⟩ (.label text) = true :=
  List.contains_iff_mem.mpr h

end Fits

theorem value_mem_labels (role : UserRole) : role.value ∈ EnumType.userRole.labels := by
  cases role with
  | admin => exact .head _
  | member => exact .tail _ (.head _)
  | readOnly => exact .tail _ (.tail _ (.head _))

theorem value_mem_messageLabels (role : MessageRole) :
    role.value ∈ EnumType.messageRole.labels := by
  cases role with
  | user => exact .head _
  | assistant => exact .tail _ (.head _)

theorem documentStatusLabel_mem (status : DocumentStatus) :
    documentStatusLabel status ∈ EnumType.documentStatus.labels := by
  cases status with
  | pending => exact .head _
  | processing => exact .tail _ (.head _)
  | ready => exact .tail _ (.tail _ (.head _))
  | failed => exact .tail _ (.tail _ (.tail _ (.head _)))

theorem oauthProviderLabel_mem (provider : OAuthProvider) :
    oauthProviderLabel provider ∈ EnumType.oauthProvider.labels := by
  cases provider with
  | google => exact .head _
  | github => exact .tail _ (.head _)

theorem usageKindLabel_mem (kind : UsageKind) :
    usageKindLabel kind ∈ EnumType.usageKind.labels := by
  cases kind with
  | generation => exact .head _
  | embedding => exact .tail _ (.head _)

theorem all_citationTexts (citation : Citation) :
    (citationTexts citation).all fitsText = citation.fits := by
  simp [citationTexts, Citation.fits, Bool.and_assoc]

/-- Rows fit their columns under the last catalog as they do in the schema. -/
theorem fits_head (table : Table) (row : Row table) :
    head.fits table row = schema.fits table row := by
  rw [Catalog.fits, table?_head, Bool.eq_iff_iff]
  cases table <;>
    simp [headTable, cell, schema, rowFits, organizationsTable, usersTable,
      oauthAccountsTable, apiKeysTable, refreshTokensTable, documentsTable, documentChunksTable,
      conversationsTable, messagesTable, promptTemplatesTable, usageEventsTable, orgWebhooksTable,
      idColumn, required, optional, timestamped, fits_label, value_mem_labels,
      value_mem_messageLabels, documentStatusLabel_mem, oauthProviderLabel_mem, usageKindLabel_mem,
      all_citationTexts, fitsNullable, embeddingDim, and_assoc]

theorem visible_head {role : DbRole} {verb : Verb} {table : Table}
    (hgranted : grants role verb table = true) (currentOrg : Option Uuid) (row : Row table) :
    (head.policy role currentOrg).visible table row = orgIsolation role currentOrg table row ∧
      (head.policy role currentOrg).check table row = orgIsolation role currentOrg table row := by
  cases role with
  | appUser => exact ⟨isCurrentOrg_head currentOrg table row _ (.inl rfl) ⟨verb, hgranted⟩,
      isCurrentOrg_head currentOrg table row _ (.inr rfl) ⟨verb, hgranted⟩⟩
  | appAuth => exact ⟨rfl, rfl⟩

/-- The last catalog is the one the platform is modelled with. -/
theorem deploys_head : Deploys head where
  privileges := fun role _ verb table => privileges_head role verb table
  visible := fun role currentOrg verb table hgranted => funext fun row =>
    (visible_head hgranted currentOrg row).1
  check := fun role currentOrg verb table hgranted => funext fun row =>
    (visible_head hgranted currentOrg row).2
  primaryKey := fun table => ⟨_, table?_head table, by cases table <;> exact fun _ => rfl⟩
  foreignKeys := foreignKeys_head
  clash := clash_head
  fits := fits_head

end Migrations
