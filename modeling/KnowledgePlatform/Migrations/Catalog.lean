import KnowledgePlatform.Core.Db

/-!
# Catalogs

What the migrations change: the tables of the database with their columns and keys,
the enumerated types, indexes, privileges, default privileges and row-level
security.  A statement changes the catalog or is refused, as PostgreSQL would.

What a table is dropped with goes with it: its indexes, its privileges, its
policies and the row-level security that was switched on for it; not the
enumerated types of its columns.
-/

open Core Foundations Python Relational

namespace Migrations

/-! ## Names and types -/

inductive ColumnName
  | id | orgId | userId | createdByUserId | documentId | conversationId
  | name | slug | title | filename | contentType | status | createdAt | updatedAt
  | email | hashedPassword | fullName | role | isActive
  | keyPrefix | hashedKey | lastUsedAt | expiresAt | revokedAt
  | provider | providerAccountId | tokenHash
  | storageKey | error | chunkIndex | content | tokenCount | embedding | contentTsv
  | citations | version | kind | model | inputTokens | outputTokens | costUsd
  | url | secret | eventTypes | monthlyBudgetUsd
  deriving DecidableEq, Repr

/-- The enumerated types. -/
inductive EnumType
  | documentStatus
  | userRole
  | oauthProvider
  | messageRole
  | usageKind
  deriving DecidableEq, Repr

/-- The labels with which the migrations create a type. -/
def EnumType.labels : EnumType → List Str
  | documentStatus =>
      ["pending".toList, "processing".toList, "ready".toList, "failed".toList]
  | userRole => ["admin".toList, "member".toList, "read_only".toList]
  | oauthProvider => ["google".toList, "github".toList]
  | messageRole => ["user".toList, "assistant".toList]
  | usageKind => ["generation".toList, "embedding".toList]

inductive ColumnType
  | uuid
  | varchar (length : ℕ)
  | text
  | integer
  | boolean
  | timestamptz
  | numeric (precision scale : ℕ)
  | jsonb
  | tsvector
  | vector (dim : ℕ)
  | enumerated (type : EnumType)
  deriving DecidableEq, Repr

/-- Whether the type belongs to the extension `vector`. -/
def ColumnType.isVector : ColumnType → Bool
  | .vector _ => true
  | _ => false

/-- `server_default`, or `Computed` for a generated column. -/
inductive ServerDefault
  | genRandomUuid
  | now
  | boolean (value : Bool)
  | number (value : ℤ)
  | label (text : Str)
  | generated
  deriving DecidableEq, Repr

structure Column where
  name : ColumnName
  type : ColumnType
  nullable : Bool := false
  serverDefault : Option ServerDefault := none
  deriving DecidableEq, Repr

/-- A foreign key; the parent is referred to by its `id`. -/
structure Reference where
  column : ColumnName
  parent : Table
  onDelete : OnDelete
  deriving DecidableEq, Repr

structure TableDef where
  name : Table
  columns : List Column
  primaryKey : ColumnName
  uniques : List (List ColumnName) := []
  references : List Reference := []
  deriving DecidableEq, Repr

/-- The enumerated types of the columns. -/
def TableDef.enumTypes (table : TableDef) : List EnumType :=
  table.columns.filterMap fun column =>
    match column.type with
    | .enumerated type => some type
    | _ => none

inductive IndexName
  | documentChunksDocumentId
  | documentChunksEmbedding
  | documentChunksContentTsv
  | messagesConversationCreated
  | promptTemplatesOneActive
  | usageEventsOrgCreated
  deriving DecidableEq, Repr

inductive IndexMethod
  | btree
  | hnsw
  | gin
  deriving DecidableEq, Repr

/-- An index; `predicate` is the column in its `WHERE`. -/
structure Index where
  name : IndexName
  table : Table
  columns : List ColumnName
  method : IndexMethod := .btree
  unique : Bool := false
  predicate : Option ColumnName := none
  deriving DecidableEq, Repr

/-- The policy `org_isolation` of a table: the columns that `USING` and `WITH CHECK`
compare to `app.current_org_id`. -/
structure RowPolicy where
  table : Table
  usingColumn : ColumnName
  checkColumn : ColumnName
  deriving DecidableEq, Repr

structure Catalog where
  roles : List DbRole
  /-- Whether the extension `vector` is there. -/
  vector : Bool
  types : List EnumType
  tables : List TableDef
  indexes : List Index
  privileges : List (DbRole × Table × Verb)
  defaultPrivileges : List (DbRole × Verb)
  rowSecurity : List Table
  forced : List Table
  policies : List RowPolicy
  deriving DecidableEq, Repr

/-- A database without tables. -/
def Catalog.bare (roles : List DbRole) (vector : Bool) (types : List EnumType) : Catalog :=
  ⟨roles, vector, types, [], [], [], [], [], [], []⟩

/-! ## Statements -/

inductive Statement
  | createTable (table : TableDef)
  | dropTable (table : Table)
  | addColumn (table : Table) (column : Column)
  | dropColumn (table : Table) (column : ColumnName)
  | dropTypeIfExists (type : EnumType)
  | createIndex (index : Index)
  | dropIndex (name : IndexName)
  | dropIndexIfExists (name : IndexName)
  | createExtensionIfNotExists
  | grant (verbs : List Verb) (table : Table) (role : DbRole)
  | revoke (verbs : List Verb) (table : Table) (role : DbRole)
  | alterDefaultPrivilegesGrant (verbs : List Verb) (role : DbRole)
  | alterDefaultPrivilegesRevoke (verbs : List Verb) (role : DbRole)
  | enableRowSecurity (table : Table)
  | disableRowSecurity (table : Table)
  | forceRowSecurity (table : Table)
  | noForceRowSecurity (table : Table)
  | createPolicy (policy : RowPolicy)
  | dropPolicyIfExists (table : Table)
  deriving DecidableEq, Repr

namespace Catalog

def table? (catalog : Catalog) (table : Table) : Option TableDef :=
  catalog.tables.find? fun found => found.name == table

def hasTable (catalog : Catalog) (table : Table) : Bool :=
  catalog.tables.any fun found => found.name == table

def hasColumns (catalog : Catalog) (table : Table) (columns : List ColumnName) : Bool :=
  catalog.tables.any fun found => found.name == table &&
    columns.all fun column => found.columns.any fun present => present.name == column

def hasRole (catalog : Catalog) (role : DbRole) : Bool := catalog.roles.contains role

/-- Whether a column of some table has the type. -/
def usesType (catalog : Catalog) (type : EnumType) : Bool :=
  catalog.tables.any fun found => found.columns.any fun column => column.type == .enumerated type

/-- Whether another table refers to this one. -/
def isReferred (catalog : Catalog) (table : Table) : Bool :=
  catalog.tables.any fun found => found.name != table &&
    found.references.any fun reference => reference.parent == table

/-- Adds what is not there yet. -/
def adding {α : Type} [DecidableEq α] (present added : List α) : List α :=
  present ++ added.filter fun item => !present.contains item

def modifyTable (catalog : Catalog) (table : Table) (change : TableDef → TableDef) : Catalog :=
  { catalog with
    tables := catalog.tables.map fun found => if found.name = table then change found else found }

/-- Creates a table.  The types of its enumerated columns are created before it, without
looking whether they exist; the default privileges hold on it at once. -/
def createTable (catalog : Catalog) (table : TableDef) : Option Catalog :=
  if !catalog.hasTable table.name &&
      table.enumTypes.all (fun type => !catalog.types.contains type) &&
      table.references.all (fun reference => catalog.hasTable reference.parent) &&
      (catalog.vector || table.columns.all fun column => !column.type.isVector) then
    some { catalog with
      types := catalog.types ++ table.enumTypes
      tables := catalog.tables ++ [table]
      privileges := catalog.privileges ++
        catalog.defaultPrivileges.map fun (role, verb) => (role, table.name, verb) }
  else none

def dropTable (catalog : Catalog) (table : Table) : Option Catalog :=
  if catalog.hasTable table && !catalog.isReferred table then
    some { catalog with
      tables := catalog.tables.filter fun found => found.name != table
      indexes := catalog.indexes.filter fun index => index.table != table
      privileges := catalog.privileges.filter fun (_, held, _) => held != table
      rowSecurity := catalog.rowSecurity.filter (· != table)
      forced := catalog.forced.filter (· != table)
      policies := catalog.policies.filter fun policy => policy.table != table }
  else none

/-- Drops a column with the indexes it is in, unless a policy compares it. -/
def dropColumn (catalog : Catalog) (table : Table) (column : ColumnName) : Option Catalog :=
  if catalog.hasColumns table [column] && catalog.policies.all (fun policy =>
      policy.table != table || (policy.usingColumn != column && policy.checkColumn != column)) then
    some { catalog.modifyTable table fun found =>
        { found with columns := found.columns.filter fun present => present.name != column } with
      indexes := catalog.indexes.filter fun index =>
        index.table != table || !(index.columns ++ index.predicate.toList).contains column }
  else none

def dropIndex (catalog : Catalog) (name : IndexName) : Catalog :=
  { catalog with indexes := catalog.indexes.filter fun index => index.name != name }

end Catalog

/-- What a statement does to the catalog, unless it is refused. -/
def Statement.run (catalog : Catalog) : Statement → Option Catalog
  | .createTable table => catalog.createTable table
  | .dropTable table => catalog.dropTable table
  | .addColumn table column =>
      if catalog.hasTable table && !catalog.hasColumns table [column.name] then
        some (catalog.modifyTable table fun found =>
          { found with columns := found.columns ++ [column] })
      else none
  | .dropColumn table column => catalog.dropColumn table column
  | .dropTypeIfExists type =>
      if catalog.usesType type then none
      else some { catalog with types := catalog.types.filter (· != type) }
  | .createIndex index =>
      if catalog.hasColumns index.table (index.columns ++ index.predicate.toList) &&
          catalog.indexes.all fun present => present.name != index.name then
        some { catalog with indexes := catalog.indexes ++ [index] }
      else none
  | .dropIndex name =>
      if catalog.indexes.any fun present => present.name == name then some (catalog.dropIndex name)
      else none
  | .dropIndexIfExists name => some (catalog.dropIndex name)
  | .createExtensionIfNotExists => some { catalog with vector := true }
  | .grant verbs table role =>
      if catalog.hasTable table && catalog.hasRole role then
        some { catalog with
          privileges := Catalog.adding catalog.privileges (verbs.map fun verb => (role, table, verb)) }
      else none
  | .revoke verbs table role =>
      if catalog.hasTable table && catalog.hasRole role then
        some { catalog with
          privileges := catalog.privileges.filter fun (holder, held, verb) =>
            !(holder == role && held == table && verbs.contains verb) }
      else none
  | .alterDefaultPrivilegesGrant verbs role =>
      if catalog.hasRole role then
        some { catalog with
          defaultPrivileges :=
            Catalog.adding catalog.defaultPrivileges (verbs.map fun verb => (role, verb)) }
      else none
  | .alterDefaultPrivilegesRevoke verbs role =>
      if catalog.hasRole role then
        some { catalog with
          defaultPrivileges := catalog.defaultPrivileges.filter fun (holder, verb) =>
            !(holder == role && verbs.contains verb) }
      else none
  | .enableRowSecurity table =>
      if catalog.hasTable table then
        some { catalog with rowSecurity := Catalog.adding catalog.rowSecurity [table] }
      else none
  | .disableRowSecurity table =>
      if catalog.hasTable table then
        some { catalog with rowSecurity := catalog.rowSecurity.filter (· != table) }
      else none
  | .forceRowSecurity table =>
      if catalog.hasTable table then
        some { catalog with forced := Catalog.adding catalog.forced [table] }
      else none
  | .noForceRowSecurity table =>
      if catalog.hasTable table then
        some { catalog with forced := catalog.forced.filter (· != table) }
      else none
  | .createPolicy policy =>
      if catalog.hasColumns policy.table [policy.usingColumn, policy.checkColumn] &&
          catalog.policies.all fun present => present.table != policy.table then
        some { catalog with policies := catalog.policies ++ [policy] }
      else none
  | .dropPolicyIfExists table =>
      some { catalog with policies := catalog.policies.filter fun present => present.table != table }

/-- Statements in order. -/
def runAll (statements : List Statement) (catalog : Catalog) : Option Catalog :=
  statements.foldlM Statement.run catalog

end Migrations
