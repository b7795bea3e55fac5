import KnowledgePlatform.Core.Models
import KnowledgePlatform.Foundations.Program
import KnowledgePlatform.Foundations.Transactions

/-!
# Sessions

A connection of one of the two database roles inside a transaction, and the
statements the code executes on it.  `app_user` is subject to row-level
security: it sees and writes the rows whose tenant is `app.current_org_id`, and
no row while that is unset.  `app_auth` bypasses row-level security, on the few
tables it has privileges for.

`Conn.Wrote` relates the connection before and after a part of a transaction by
the list of its writing statements; the lemmas of the operations are stated
with it.
-/

open Foundations Python Relational

namespace Core

/-- The database roles of the runtime. -/
inductive DbRole
  | appUser
  | appAuth
  deriving DecidableEq, Repr

/-- The privileges granted by the migrations. -/
def grants : DbRole → Verb → Table → Bool
  | .appUser, _, .oauthAccounts | .appUser, _, .refreshTokens => false
  | .appUser, _, _ => true
  | .appAuth, _, .organizations | .appAuth, _, .users | .appAuth, _, .refreshTokens
  | .appAuth, _, .oauthAccounts => true
  | .appAuth, verb, .apiKeys => verb == .select || verb == .update
  | .appAuth, _, _ => false

/-- The policy `org_isolation`, for reading as for writing. -/
def orgIsolation (role : DbRole) (currentOrg : Option Uuid) (table : Table) (row : Row table) :
    Bool :=
  match role, currentOrg with
  | .appAuth, _ => true
  | .appUser, none => false
  | .appUser, some orgId => rowOrg table row == some orgId

/-- What a session of a role may do, with this value of `app.current_org_id`. -/
def policy (role : DbRole) (currentOrg : Option Uuid) : Policy Row where
  grants := grants role
  visible := orgIsolation role currentOrg
  check := orgIsolation role currentOrg

/-- A session of `app_user` is confined to the organization it is bound to. -/
theorem confines_policy (orgId : Uuid) : (policy .appUser (some orgId)).Confines schema orgId where
  visible := fun _ _ _ _ h => eq_of_beq h
  check := fun _ _ _ _ h => eq_of_beq h

/-- Organizations refer to no other table. -/
theorem closedAbove_organizations : schema.ClosedAbove (· = Table.organizations) := by
  rintro _ rfl _ ⟨⟩

/-- A deletion of users takes the selected ones, and no others. -/
theorem users_of_delete {db : Database} {selected : User → Bool} :
    schema.delete db (Schema.only .users selected) .users =
      (db .users).filter fun user => !selected user := by
  refine Schema.delete_of_parentsStay fun fk hfk parent _ => ?_
  cases List.mem_singleton.mp hfk
  exact Schema.removed_of_closedAbove closedAbove_organizations (by rintro _ rfl _; rfl) _ rfl parent

/-! ## Connections -/

/-- A connection inside a transaction.  `now` is the time the transaction began. -/
structure Conn where
  role : DbRole
  currentOrg : Option Uuid
  now : Time
  db : Database

namespace Conn

/-- The policy in force. -/
def policy (conn : Conn) : Policy Row := Core.policy conn.role conn.currentOrg

/-- A new transaction; `app.current_org_id` is unset. -/
def start (role : DbRole) (now : Time) (db : Database) : Conn := ⟨role, none, now, db⟩

/-- The statements executed between two points of a transaction. -/
structure Wrote (conn : Conn) (writes : List (Write schema)) (conn' : Conn) : Prop where
  role : conn'.role = conn.role
  currentOrg : conn'.currentOrg = conn.currentOrg
  now : conn'.now = conn.now
  executes : conn.policy.Executes schema conn.db writes conn'.db

variable {conn middle conn' : Conn}

@[simp] theorem wrote_nil : conn.Wrote [] conn' ↔ conn = conn' := by
  constructor
  · rintro ⟨hrole, horg, hnow, hdb⟩
    cases conn
    cases conn'
    simp_all
  · rintro rfl
    exact ⟨rfl, rfl, rfl, rfl⟩

theorem Wrote.policy {writes : List (Write schema)} (h : conn.Wrote writes conn') :
    conn'.policy = conn.policy := by
  unfold Conn.policy
  rw [h.role, h.currentOrg]

theorem Wrote.append {first second : List (Write schema)} (hfirst : conn.Wrote first middle)
    (hsecond : middle.Wrote second conn') : conn.Wrote (first ++ second) conn' where
  role := hsecond.role.trans hfirst.role
  currentOrg := hsecond.currentOrg.trans hfirst.currentOrg
  now := hsecond.now.trans hfirst.now
  executes := Policy.executes_append.mpr
    ⟨middle.db, hfirst.executes, hfirst.policy ▸ hsecond.executes⟩

/-- What a single insertion did, and what the database checked. -/
theorem Wrote.insert {table : Table} {row : Row table}
    (h : conn.Wrote [.insert table row] conn') : conn'.db = conn.db.insert table row ∧
      conn.policy.grants .insert table = true ∧ conn.policy.check table row = true ∧
      rowFits table row = true ∧
      (∀ other ∈ conn.db table, rowId table other ≠ rowId table row ∧
        rowClash table other row = false) ∧
      ∀ fk ∈ rowForeignKeys table, ∀ key, fk.ref row = some key →
        ∃ parent ∈ conn.db fk.parent, rowId fk.parent parent = key := by
  obtain ⟨_, hexecute, hdb⟩ := h.executes
  cases hdb
  exact Policy.insertRow_eq_ok hexecute

/-- What a single update did. -/
theorem Wrote.update {table : Table} {selected : Row table → Bool}
    {clause : SetClause schema table} (h : conn.Wrote [.update table selected clause] conn') :
    conn.policy.grants .update table = true ∧ conn'.db = conn.db.update table fun row =>
      if conn.policy.visible table row && selected row then clause.set row else row := by
  obtain ⟨_, hexecute, hdb⟩ := h.executes
  cases hdb
  exact Policy.updateRows_eq_ok hexecute

/-- What a single deletion did. -/
theorem Wrote.delete {table : Table} {selected : Row table → Bool}
    (h : conn.Wrote [.delete table selected] conn') :
    conn.policy.grants .delete table = true ∧ conn'.db = schema.delete conn.db
      (Schema.only table fun row => conn.policy.visible table row && selected row) := by
  obtain ⟨_, hexecute, hdb⟩ := h.executes
  cases hdb
  exact Policy.deleteRows_eq_ok hexecute

theorem visible_of_appAuth (hrole : conn.role = .appAuth) (table : Table) (row : Row table) :
    conn.policy.visible table row = true := by
  simp [Conn.policy, Core.policy, hrole, orgIsolation]

end Conn

/-! ## Statements -/

/-- Why a transaction does not commit: a response with an error status, a
failed statement, or another exception, with its message. -/
inductive Fault
  | http (status : ℕ) (detail : Str)
  | database (error : StatementError)
  | raised (message : Str)
  deriving DecidableEq, Repr

/-- The body of a transaction. -/
abbrev Tx := Program Conn Fault

/-- The outcome of a statement. -/
def ofStatement {α : Type} : Except StatementError α → Tx α
  | .ok value => pure value
  | .error error => throw (.database error)

/-- `SELECT set_config('app.current_org_id', :org_id, true)` -/
def setOrgContext (orgId : Uuid) : Tx Unit := do
  let conn ← get
  set { conn with currentOrg := some orgId }

/-- `session.scalars(select(…).where(…))` -/
def scalars (table : Table) (selected : Row table → Bool) : Tx (List (Row table)) := do
  let conn ← get
  ofStatement (conn.policy.selectRows conn.db table selected)

/-- `session.scalars(select(…).order_by(…).limit(…))` before the limit, where an index
serves the order. -/
def scanned (table : Table) (scan : List (Row table) → List (Row table)) :
    Tx (List (Row table)) := do
  let conn ← get
  ofStatement (conn.policy.scanRows conn.db table scan)

/-- `session.scalar(select(…).where(…))`: the first row found. -/
def scalar (table : Table) (selected : Row table → Bool) : Tx (Option (Row table)) := do
  let rows ← scalars table selected
  pure rows.head?

/-- `session.get(…, id)` -/
def getById (table : Table) (id : Uuid) : Tx (Option (Row table)) :=
  scalar table fun row => rowId table row == id

/-- Execute a writing statement. -/
def execute (write : Write schema) : Tx Unit := do
  let conn ← get
  let db ← ofStatement (conn.policy.execute schema conn.db write)
  set { conn with db }

/-- `session.add(row)` and its flush. -/
def add (table : Table) (row : Row table) : Tx Unit := execute (.insert table row)

/-- The flush of assignments to the columns of a row. -/
def save (table : Table) (id : Uuid) (clause : SetClause schema table) : Tx Unit :=
  execute (.update table (fun row => rowId table row == id) clause)

/-- `session.delete(row)` and its flush. -/
def deleteById (table : Table) (id : Uuid) : Tx Unit :=
  execute (.delete table fun row => rowId table row == id)

/-- `func.now()`, the time the transaction began. -/
def transactionTime : Tx Time := do
  let conn ← get
  pure conn.now

section Runs

variable {conn conn' : Conn} {table : Table}

open Program

@[simp] theorem runs_ofStatement {α : Type} {outcome : Except StatementError α} {value : α} :
    (ofStatement outcome).Runs conn value conn' ↔ outcome = .ok value ∧ conn = conn' := by
  cases outcome <;> simp [ofStatement]

@[simp] theorem runs_setOrgContext {orgId : Uuid} {result : Unit} :
    (setOrgContext orgId).Runs conn result conn' ↔
      { conn with currentOrg := some orgId } = conn' := by
  simp [setOrgContext]

-- the type of the value is not indexed: it unfolds once the table is known
@[simp] theorem runs_scalars {selected : Row table → Bool} {rows : List (Row table)} :
    @Program.Runs Conn Fault (no_index (List (Row table))) (scalars table selected) conn rows
      conn' ↔ conn.policy.selectRows conn.db table selected = .ok rows ∧ conn = conn' := by
  simp [scalars, and_comm]

@[simp] theorem runs_scanned {scan : List (Row table) → List (Row table)} {rows : List (Row table)} :
    @Program.Runs Conn Fault (no_index (List (Row table))) (scanned table scan) conn rows
      conn' ↔ conn.policy.scanRows conn.db table scan = .ok rows ∧ conn = conn' := by
  simp [scanned, and_comm]

@[simp] theorem runs_transactionTime {time : Time} :
    transactionTime.Runs conn time conn' ↔ conn.now = time ∧ conn = conn' := by
  simp [transactionTime, and_comm]

@[simp] theorem runs_execute {write : Write schema} {result : Unit} :
    (execute write).Runs conn result conn' ↔ conn.Wrote [write] conn' := by
  simp only [execute, runs_bind, runs_get, runs_ofStatement, runs_set]
  constructor
  · rintro ⟨_, _, ⟨rfl, rfl⟩, db, _, ⟨hexecute, rfl⟩, rfl⟩
    exact ⟨rfl, rfl, rfl, db, hexecute, rfl⟩
  · rintro ⟨hrole, horg, hnow, db, hexecute, hdb⟩
    refine ⟨conn, conn, ⟨rfl, rfl⟩, db, conn, ⟨hexecute, rfl⟩, ?_⟩
    cases conn
    cases conn'
    simp_all

@[simp] theorem runs_add {row : Row table} {result : Unit} :
    (add table row).Runs conn result conn' ↔ conn.Wrote [.insert table row] conn' :=
  runs_execute

@[simp] theorem runs_save {id : Uuid} {clause : SetClause schema table} {result : Unit} :
    (save table id clause).Runs conn result conn' ↔
      conn.Wrote [.update table (fun row => rowId table row == id) clause] conn' :=
  runs_execute

@[simp] theorem runs_deleteById {id : Uuid} {result : Unit} :
    (deleteById table id).Runs conn result conn' ↔
      conn.Wrote [.delete table fun row => rowId table row == id] conn' :=
  runs_execute

/-- The rows found are visible rows of the table that satisfy the condition. -/
theorem of_runs_scalars {selected : Row table → Bool} {rows : List (Row table)}
    (h : @Program.Runs Conn Fault (List (Row table)) (scalars table selected) conn rows conn') :
    conn = conn' ∧ ∀ row ∈ rows, row ∈ conn.db table ∧ selected row = true ∧
      conn.policy.visible table row = true := by
  obtain ⟨hrows, rfl⟩ := runs_scalars.mp h
  refine ⟨rfl, fun row hrow => ?_⟩
  obtain ⟨hmem, _, hvisible, hselected⟩ := Policy.mem_of_selectRows hrows hrow
  exact ⟨hmem, hselected, hvisible⟩

/-- A row found is a visible row of the table that satisfies the condition. -/
theorem of_runs_scalar {selected : Row table → Bool} {found : Option (Row table)}
    (h : (scalar table selected).Runs conn found conn') :
    conn = conn' ∧ ∀ row, found = some row → row ∈ conn.db table ∧ selected row = true ∧
      conn.policy.visible table row = true := by
  simp only [scalar, runs_bind, runs_pure] at h
  obtain ⟨rows, _, hrows, rfl, rfl⟩ := h
  obtain ⟨rfl, hfound⟩ := of_runs_scalars hrows
  exact ⟨rfl, fun row hrow => hfound row (List.mem_of_mem_head? hrow)⟩

/-- No row found means that no visible row satisfies the condition. -/
theorem of_runs_scalar_none {selected : Row table → Bool}
    (h : (scalar table selected).Runs conn none conn') :
    ∀ row ∈ conn.db table, conn.policy.visible table row = true → selected row = false := by
  simp only [scalar, runs_bind, runs_scalars, runs_pure, List.head?_eq_none_iff] at h
  obtain ⟨rows, _, ⟨hrows, rfl⟩, rfl, rfl⟩ := h
  unfold Policy.selectRows at hrows
  split at hrows
  · have hnone := List.filter_eq_nil_iff.mp (Except.ok.inj hrows)
    intro row hrow hvisible
    have hrow := hnone row hrow
    simpa [hvisible] using hrow
  · cases hrows

/-- The auth role finds the first row of the table that satisfies the condition. -/
theorem of_runs_scalar_of_appAuth (hrole : conn.role = .appAuth) {selected : Row table → Bool}
    {found : Option (Row table)} (h : (scalar table selected).Runs conn found conn') :
    conn = conn' ∧ found = (conn.db table).find? selected := by
  simp only [scalar, runs_bind, runs_scalars, runs_pure] at h
  obtain ⟨rows, _, ⟨hrows, rfl⟩, rfl, rfl⟩ := h
  refine ⟨rfl, ?_⟩
  unfold Policy.selectRows at hrows
  split at hrows
  · cases hrows
    rw [List.head?_filter]
    congr 1
    funext row
    rw [Conn.visible_of_appAuth hrole, Bool.true_and]
  · cases hrows

/-- A session finds the first visible row of a table it may read. -/
theorem runs_scalar (hgrant : conn.policy.grants .select table = true)
    {selected : Row table → Bool} :
    (scalar table selected).Runs conn
      ((conn.db table).find? fun row => conn.policy.visible table row && selected row) conn := by
  simp only [scalar, runs_bind, runs_scalars, runs_pure]
  refine ⟨_, conn, ⟨by rw [Policy.selectRows, if_pos hgrant], rfl⟩, ?_, rfl⟩
  rw [List.head?_filter]

/-- The auth role finds the first row of a table it may read. -/
theorem runs_scalar_of_appAuth (hrole : conn.role = .appAuth)
    (hgrant : grants .appAuth .select table = true) {selected : Row table → Bool} :
    (scalar table selected).Runs conn ((conn.db table).find? selected) conn := by
  have hgrants : conn.policy.grants .select table = true := by
    unfold Conn.policy
    rw [hrole]
    exact hgrant
  have hfound := @runs_scalar conn table hgrants selected
  simp only [Conn.visible_of_appAuth hrole, Bool.true_and] at hfound
  exact hfound

/-- A row found by its key. -/
theorem of_runs_getById {id : Uuid} {found : Option (Row table)}
    (h : (getById table id).Runs conn found conn') :
    conn = conn' ∧ ∀ row, found = some row → row ∈ conn.db table ∧ rowId table row = id ∧
      conn.policy.visible table row = true := by
  obtain ⟨rfl, hrow⟩ := of_runs_scalar h
  refine ⟨rfl, fun row hfound => ?_⟩
  obtain ⟨hmem, hid, hvisible⟩ := hrow row hfound
  exact ⟨hmem, beq_iff_eq.mp hid, hvisible⟩

/-- No row found by a key means that none is visible under it. -/
theorem of_runs_getById_none {id : Uuid} (h : (getById table id).Runs conn none conn') :
    ∀ row ∈ conn.db table, rowId table row = id → conn.policy.visible table row = false := by
  intro row hrow hid
  rw [Bool.eq_false_iff]
  intro hvisible
  have hnone := of_runs_scalar_none h row hrow hvisible
  exact beq_eq_false_iff_ne.mp hnone hid

end Runs

/-! ## Data errors -/

section DataErrors

variable {conn : Conn} {table : Table}

open Program

@[simp] theorem avoids_ofStatement {α : Type} {outcome : Except StatementError α}
    {error : StatementError} :
    (ofStatement outcome).Avoids conn (.database error) ↔ outcome ≠ .error error := by
  cases outcome <;> simp [ofStatement]

@[simp] theorem avoids_transactionTime {fault : Fault} : transactionTime.Avoids conn fault := by
  simp [transactionTime]

theorem avoids_scalars {selected : Row table → Bool} :
    (scalars table selected).Avoids conn (.database .dataError) := by
  simp only [scalars, avoids_bind, avoids_get, avoids_ofStatement, true_and]
  intro found _ _
  unfold Policy.selectRows
  split <;> simp

@[simp] theorem avoids_scalar {selected : Row table → Bool} :
    (scalar table selected).Avoids conn (.database .dataError) := by
  simp only [scalar, avoids_bind, avoids_pure, implies_true, and_true]
  exact avoids_scalars

@[simp] theorem avoids_getById {id : Uuid} :
    (getById table id).Avoids conn (.database .dataError) := avoids_scalar

/-- A writing statement does not fail with a data error when what it stores fits. -/
@[simp] theorem avoids_execute {write : Write schema} :
    (execute write).Avoids conn (.database .dataError) ↔
      (write.Granted conn.policy → write.Fits conn.policy conn.db) := by
  simp only [execute, avoids_bind, avoids_get, runs_get, avoids_ofStatement, avoids_set,
    implies_true, and_true, true_and, ne_eq, Policy.execute_eq_dataError_iff, not_and, not_not]
  constructor
  · intro h
    exact h conn conn ⟨rfl, rfl⟩
  · rintro h _ _ ⟨rfl, rfl⟩
    exact h

@[simp] theorem avoids_add {row : Row table} :
    (add table row).Avoids conn (.database .dataError) ↔
      (conn.policy.grants .insert table = true → rowFits table row = true) := avoids_execute

@[simp] theorem avoids_save {id : Uuid} {clause : SetClause schema table} :
    (save table id clause).Avoids conn (.database .dataError) ↔
      (conn.policy.grants .update table = true → ∀ row ∈ conn.db table,
        conn.policy.visible table row = true → (rowId table row == id) = true →
          rowFits table (clause.set row) = true) := avoids_execute

end DataErrors

/-- A row visible to a bound session of `app_user` belongs to its organization. -/
theorem rowOrg_of_visible {conn : Conn} {orgId : Uuid} (hrole : conn.role = .appUser)
    (horg : conn.currentOrg = some orgId) {table : Table} {row : Row table}
    (hvisible : conn.policy.visible table row = true) : rowOrg table row = some orgId := by
  unfold Conn.policy at hvisible
  rw [hrole, horg] at hvisible
  exact eq_of_beq hvisible

end Core
