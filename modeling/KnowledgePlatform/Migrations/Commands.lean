import KnowledgePlatform.Foundations.Revisions
import KnowledgePlatform.Migrations.Deployment

/-!
# Migrating the database

`alembic upgrade` and `alembic downgrade` carry out the statements of the revisions
in one transaction; the role bootstrap creates the roles the privileges are granted
to.  Whatever sequence of them is run on an empty database, the catalog is the one of
its version (`reached_migrate`): the only traces of the past are the roles, the
extension, and the enumerated types that the first revision leaves when it is taken
back.

So isolation, which holds of each of these catalogs, holds after any sequence of
tasks; the last version is what the platform is modelled with, whichever way it was
reached; and only those types can keep `scripts/prepare_db.py` from reaching it.
-/

open Core Foundations Foundations.Revision Python Relational

namespace Migrations

/-! ## Commands -/

def Version.revision (version : Version) : Revision Catalog :=
  ⟨runAll version.upgrade, runAll version.downgrade⟩

def revisions : List (Revision Catalog) := versions.map Version.revision

/-- The role bootstrap creates the roles that are missing. -/
def bootstrapRoles (catalog : Catalog) : Catalog :=
  { catalog with roles := Catalog.adding catalog.roles [.appUser, .appAuth] }

/-- How the role bootstrap ends.  The statement that creates the roles is committed on
its own, so they may be there although a later one failed. -/
inductive Bootstrap
  | done
  | failed (created : Bool)
  deriving DecidableEq, Repr

def Bootstrap.creates : Bootstrap → Bool
  | done => true
  | failed created => created

/-- What is run on the database. -/
inductive Task
  | bootstrap (outcome : Bootstrap)
  | alembic (command : Command)
  deriving DecidableEq, Repr

/-- The task creates the roles. -/
def Task.creates : Task → Bool
  | bootstrap outcome => outcome.creates
  | alembic _ => false

/-- A task on the database.  A command that fails is rolled back. -/
def perform (current : Versioned Catalog) : Task → Versioned Catalog
  | .bootstrap outcome =>
      if outcome.creates then { current with state := bootstrapRoles current.state } else current
  | .alembic command => (Revision.carryOut revisions current command).getD current

/-- The database after tasks that were run one after the other, from an empty database. -/
def migrate (tasks : List Task) : Versioned Catalog :=
  tasks.foldl perform ⟨0, .bare [] false []⟩

/-- `scripts/prepare_db.py`: a bootstrap that fails raises, and nothing is upgraded. -/
def prepareDb : Bootstrap → List Task
  | .done => [.bootstrap .done, .alembic (.upgrade versions.length)]
  | .failed created => [.bootstrap (.failed created)]

theorem migrate_append (tasks later : List Task) :
    migrate (tasks ++ later) = later.foldl perform (migrate tasks) := List.foldl_append

theorem migrate_snoc (tasks : List Task) (task : Task) :
    migrate (tasks ++ [task]) = perform (migrate tasks) task := migrate_append tasks [task]

/-! ## The catalogs -/

def rolesOf (bootstrapped : Bool) : List DbRole :=
  if bootstrapped then [.appUser, .appAuth] else []

/-- The types that are left when the first revision is taken back. -/
def leftTypes : List EnumType := [.documentStatus, .userRole, .oauthProvider]

/-- The catalog after the first revisions. -/
def deployed (bootstrapped vector : Bool) (version : ℕ) : Option Catalog :=
  (versions.take version).foldlM (fun catalog version => runAll version.upgrade catalog)
    (.bare (rolesOf bootstrapped) vector [])

/-- What is there after a revision was taken back. -/
def back (bootstrapped vector : Bool) : ℕ → Option Catalog
  | 0 => some (.bare (rolesOf bootstrapped) vector leftTypes)
  | version + 1 => deployed bootstrapped (vector || decide (3 ≤ version + 1)) (version + 1)

/-- The catalog of a version that was reached by going up only, as far as the types are
concerned. -/
def Climbed (bootstrapped : Bool) (version : ℕ) (catalog : Catalog) : Prop :=
  version ≤ versions.length ∧ ∃ vector, deployed bootstrapped vector version = some catalog

/-- The database was taken back to the beginning. -/
def Returned (bootstrapped : Bool) (version : ℕ) (catalog : Catalog) : Prop :=
  version = 0 ∧ ∃ vector, catalog = .bare (rolesOf bootstrapped) vector leftTypes

/-- The catalogs of a version. -/
def Reached (bootstrapped : Bool) (version : ℕ) (catalog : Catalog) : Prop :=
  Climbed bootstrapped version catalog ∨ Returned bootstrapped version catalog

/-! ### The catalogs, computed -/

/-- For all values of the two flags. -/
def forFlags (check : Bool → Bool → Bool) : Bool :=
  [false, true].all fun bootstrapped => [false, true].all fun vector => check bootstrapped vector

theorem forFlags_iff {check : Bool → Bool → Bool} :
    forFlags check = true ↔ ∀ bootstrapped vector, check bootstrapped vector = true := by
  simp [forFlags]

/-- Each revision can be taken back. -/
theorem downgrade_deployed : (versions.zipIdx.all fun (revision, version) =>
    forFlags fun bootstrapped vector =>
      (deployed bootstrapped vector (version + 1)).all fun catalog =>
        (back bootstrapped vector version).isSome &&
          runAll revision.downgrade catalog == back bootstrapped vector version) = true := by
  decide +kernel

/-- With the roles every version can be reached, without them only the first; and the roles
may be created later. -/
theorem bootstrapped_deployed : ((List.range 8).all fun version =>
    forFlags fun bootstrapped vector =>
      (deployed bootstrapped vector version).isSome == (bootstrapped || decide (version ≤ 1)) &&
        (deployed bootstrapped vector version).all fun catalog =>
          deployed true vector version == some (bootstrapRoles catalog)) = true := by
  decide +kernel

theorem deployed_head (vector : Bool) : deployed true vector versions.length = some head := by
  cases vector <;> decide +kernel

/-- The first revision does not find its types missing. -/
theorem upgrade_returned (bootstrapped vector : Bool) :
    runAll initialSchema.upgrade (.bare (rolesOf bootstrapped) vector leftTypes) = none := by
  cases bootstrapped <;> cases vector <;> rfl

theorem getElem?_revisions {version : ℕ} {revision : Revision Catalog} :
    revisions[version]? = some revision ↔
      ∃ found, versions[version]? = some found ∧ found.revision = revision := by
  rw [revisions, List.getElem?_map, Option.map_eq_some_iff]

theorem deployed_succ {version : ℕ} {found : Version} (hfound : versions[version]? = some found)
    (bootstrapped vector : Bool) : deployed bootstrapped vector (version + 1) =
      (deployed bootstrapped vector version).bind (runAll found.upgrade) := by
  rw [deployed, List.take_add_one, hfound, List.foldlM_append, deployed]
  refine congrArg _ (funext fun catalog => ?_)
  exact Option.bind_fun_some (runAll found.upgrade catalog)

theorem downgrade_of_deployed {version : ℕ} {found : Version} {bootstrapped vector : Bool}
    {catalog : Catalog} (hfound : versions[version]? = some found)
    (h : deployed bootstrapped vector (version + 1) = some catalog) :
    ∃ before, back bootstrapped vector version = some before ∧
      runAll found.downgrade catalog = some before := by
  have hcheck := List.all_eq_true.mp downgrade_deployed (found, version)
    (List.mem_zipIdx_iff_getElem?.mpr hfound)
  have hflags := forFlags_iff.mp hcheck bootstrapped vector
  rw [h, Option.all_some, Bool.and_eq_true_iff, beq_iff_eq] at hflags
  obtain ⟨before, hbefore⟩ := Option.isSome_iff_exists.mp hflags.1
  exact ⟨before, hbefore, hflags.2.trans hbefore⟩

theorem lt_of_getElem?_versions {version : ℕ} {found : Version}
    (hfound : versions[version]? = some found) : version < versions.length :=
  (List.getElem?_eq_some_iff.mp hfound).1

theorem reached_of_back {version : ℕ} {bootstrapped vector : Bool} {catalog : Catalog}
    (hversion : version < versions.length) (h : back bootstrapped vector version = some catalog) :
    Reached bootstrapped version catalog ∧ (version = 0 → Returned bootstrapped 0 catalog) := by
  cases version with
  | zero =>
      cases h
      exact ⟨.inr ⟨rfl, vector, rfl⟩, fun _ => ⟨rfl, vector, rfl⟩⟩
  | succ version => exact ⟨.inl ⟨hversion.le, _, h⟩, fun h => by cases h⟩

/-! ### The revisions lead from catalog to catalog -/

theorem rises_climbed (bootstrapped : Bool) : Rises revisions (Climbed bootstrapped) := by
  rintro version revision hrevision catalog catalog' ⟨hversion, vector, hcatalog⟩ hupgrade
  obtain ⟨found, hfound, rfl⟩ := getElem?_revisions.mp hrevision
  refine ⟨lt_of_getElem?_versions hfound, vector, ?_⟩
  rw [deployed_succ hfound, hcatalog]
  exact hupgrade

theorem rises_reached (bootstrapped : Bool) : Rises revisions (Reached bootstrapped) := by
  intro version revision hrevision catalog catalog' hreached hupgrade
  rcases hreached with hclimbed | ⟨rfl, vector, rfl⟩
  · exact .inl (rises_climbed bootstrapped version revision hrevision _ _ hclimbed hupgrade)
  · cases hrevision
    exact absurd (hupgrade.symm.trans (upgrade_returned bootstrapped vector)) (by simp)

/-- Taking back a revision leads to the catalog before it, the first revision to what it
leaves. -/
theorem downgrade_of_reached {bootstrapped : Bool} {version : ℕ} {revision : Revision Catalog}
    (hrevision : revisions[version]? = some revision) {catalog : Catalog}
    (hreached : Reached bootstrapped (version + 1) catalog) :
    ∃ before, revision.downgrade catalog = some before ∧ Reached bootstrapped version before ∧
      (version = 0 → Returned bootstrapped 0 before) := by
  rcases hreached with ⟨_, vector, hcatalog⟩ | ⟨hzero, _⟩
  · obtain ⟨found, hfound, rfl⟩ := getElem?_revisions.mp hrevision
    obtain ⟨before, hbefore, hdowngrade⟩ := downgrade_of_deployed hfound hcatalog
    exact ⟨before, hdowngrade, reached_of_back (lt_of_getElem?_versions hfound) hbefore⟩
  · cases hzero

theorem falls_reached (bootstrapped : Bool) : Falls revisions (Reached bootstrapped) := by
  intro version revision hrevision catalog catalog' hreached hdowngrade
  obtain ⟨before, hbefore, hleads, _⟩ := downgrade_of_reached hrevision hreached
  cases hbefore.symm.trans hdowngrade
  exact hleads

theorem climbed_bootstrapRoles {bootstrapped : Bool} {version : ℕ} {catalog : Catalog}
    (h : Climbed bootstrapped version catalog) : Climbed true version (bootstrapRoles catalog) := by
  obtain ⟨hversion, vector, hcatalog⟩ := h
  have hcheck := List.all_eq_true.mp bootstrapped_deployed version
    (List.mem_range.mpr (Nat.lt_succ_of_le hversion))
  have hflags := forFlags_iff.mp hcheck bootstrapped vector
  rw [hcatalog, Bool.and_eq_true_iff, Option.all_some] at hflags
  exact ⟨hversion, vector, eq_of_beq hflags.2⟩

theorem returned_bootstrapRoles {bootstrapped : Bool} {version : ℕ} {catalog : Catalog}
    (h : Returned bootstrapped version catalog) :
    Returned true version (bootstrapRoles catalog) := by
  obtain ⟨rfl, vector, rfl⟩ := h
  refine ⟨rfl, vector, ?_⟩
  cases bootstrapped <;> rfl

/-! ## Runs -/

theorem any_creates_snoc (tasks : List Task) (task : Task) :
    (tasks ++ [task]).any Task.creates = (tasks.any Task.creates || task.creates) := by
  rw [List.any_append, List.any_cons, List.any_nil, Bool.or_false]

/-- After any tasks the catalog is one of its version, with the roles if they were
created. -/
theorem reached_migrate (tasks : List Task) :
    Reached (tasks.any Task.creates) (migrate tasks).version (migrate tasks).state := by
  induction tasks using List.reverseRecOn with
  | nil => exact .inl ⟨Nat.zero_le _, false, rfl⟩
  | append_singleton tasks task ih =>
      rw [migrate_snoc, any_creates_snoc]
      cases task with
      | bootstrap outcome =>
          simp only [perform, Task.creates]
          cases outcome.creates with
          | false => simpa using ih
          | true =>
              rw [Bool.or_true]
              exact ih.imp climbed_bootstrapRoles returned_bootstrapRoles
      | alembic command =>
          simp only [perform, Task.creates, Bool.or_false]
          cases hnext : Revision.carryOut revisions (migrate tasks) command with
          | none => exact ih
          | some next =>
              exact Revision.carryOut_holds _ (rises_reached _) (falls_reached _) ih hnext

/-! ## Isolation at every version -/

/-- The column of the tenant, in the tables that have one. -/
def tenantColumn : Table → Option ColumnName
  | .organizations => some .id
  | .oauthAccounts | .refreshTokens => none
  | .users | .apiKeys | .documents | .documentChunks | .conversations | .messages
  | .promptTemplates | .usageEvents | .orgWebhooks => some .orgId

theorem cell_tenantColumn {table : Table} {column : ColumnName}
    (h : tenantColumn table = some column) (row : Row table) :
    cell table row column = (rowOrg table row).map .uuid := by
  cases table <;> cases h <;> rfl

/-- Whoever is subject to row-level security has privileges only on tables where it is on and
forced, and every policy is about the tenant. -/
def Catalog.isGuarded (catalog : Catalog) : Bool :=
  catalog.privileges.all fun (role, table, _) => bypassesRowSecurity role ||
    (catalog.rowSecurity.contains table && catalog.forced.contains table &&
      catalog.policies.all fun policy => policy.table != table ||
        (tenantColumn table == some policy.usingColumn &&
          tenantColumn table == some policy.checkColumn))

theorem isGuarded_deployed : ((List.range 8).all fun version =>
    forFlags fun bootstrapped vector =>
      (deployed bootstrapped vector version).all Catalog.isGuarded) = true := by
  decide +kernel

theorem isGuarded_of_reached {bootstrapped : Bool} {version : ℕ} {catalog : Catalog}
    (h : Reached bootstrapped version catalog) : catalog.isGuarded = true := by
  rcases h with ⟨hversion, vector, hcatalog⟩ | ⟨_, vector, rfl⟩
  · have hcheck := List.all_eq_true.mp isGuarded_deployed version
      (List.mem_range.mpr (Nat.lt_succ_of_le hversion))
    have hflags := forFlags_iff.mp hcheck bootstrapped vector
    rwa [hcatalog, Option.all_some] at hflags
  · rfl

theorem rowOrg_of_isCurrentOrg {currentOrg : Option Uuid} {table : Table} {row : Row table}
    {column : ColumnName} (hcolumn : tenantColumn table = some column)
    (h : isCurrentOrg currentOrg table row column = true) :
    ∃ orgId, currentOrg = some orgId ∧ rowOrg table row = some orgId := by
  cases currentOrg with
  | none => cases h
  | some orgId =>
      refine ⟨orgId, rfl, ?_⟩
      have hcell : cell table row column = some (.uuid orgId) := eq_of_beq h
      rw [cell_tenantColumn hcolumn] at hcell
      obtain ⟨owner, howner, hsame⟩ := Option.map_eq_some_iff.mp hcell
      rw [howner, Cell.uuid.inj hsame]

/-- Whatever sequence of migrations and bootstraps is run on an empty database, failing or
not, up or down: `app_user` holds privileges only on tables with row-level security that is
forced, and sees or writes there only rows of the organization it is bound to, none while it is
bound to none. -/
theorem migrate_confines (tasks : List Task) {verb : Verb} {table : Table}
    {currentOrg : Option Uuid}
    (hgranted : ((migrate tasks).state.policy .appUser currentOrg).grants verb table = true) :
    table ∈ (migrate tasks).state.rowSecurity ∧ table ∈ (migrate tasks).state.forced ∧ ∀ row,
      ((migrate tasks).state.policy .appUser currentOrg).visible table row = true ∨
        ((migrate tasks).state.policy .appUser currentOrg).check table row = true →
      ∃ orgId, currentOrg = some orgId ∧ rowOrg table row = some orgId := by
  have hguarded := isGuarded_of_reached (reached_migrate tasks)
  have hheld := List.all_eq_true.mp hguarded _ (List.contains_iff_mem.mp hgranted)
  simp only [bypassesRowSecurity, Bool.false_or, Bool.and_eq_true, List.contains_iff_mem] at hheld
  obtain ⟨⟨hsecured, hforced⟩, hpolicies⟩ := hheld
  have htenant : ∀ policy ∈ (migrate tasks).state.policies, policy.table = table →
      tenantColumn table = some policy.usingColumn ∧
        tenantColumn table = some policy.checkColumn := by
    intro policy hpolicy htable
    have hcheck := List.all_eq_true.mp hpolicies policy hpolicy
    simpa [htable] using hcheck
  refine ⟨hsecured, hforced, fun row hrow => ?_⟩
  simp only [Catalog.policy, bypassesRowSecurity, Bool.false_or,
    List.contains_iff_mem.mpr hsecured, Bool.not_true, List.any_eq_true, Bool.and_eq_true,
    beq_iff_eq] at hrow
  rcases hrow with ⟨policy, hpolicy, htable, hcurrent⟩ | ⟨policy, hpolicy, htable, hcurrent⟩
  · exact rowOrg_of_isCurrentOrg (htenant policy hpolicy htable).1 hcurrent
  · exact rowOrg_of_isCurrentOrg (htenant policy hpolicy htable).2 hcurrent

theorem migrate_confines_prepareDb :
    ((migrate (prepareDb .done)).state.policy .appUser none).grants .select .documents = true ∧
    Table.documents ∈ (migrate (prepareDb .done)).state.forced ∧
    ∀ row,
      ((migrate (prepareDb .done)).state.policy .appUser none).visible .documents row = false := by
  have hgranted : ((migrate (prepareDb .done)).state.policy .appUser none).grants .select
      .documents = true := by decide +kernel
  obtain ⟨_, hforced, hconfined⟩ := migrate_confines (prepareDb .done) hgranted
  refine ⟨hgranted, hforced, fun row => ?_⟩
  by_contra hvisible
  obtain ⟨_, hnone, _⟩ := hconfined row (.inl (Bool.of_not_eq_false hvisible))
  cases hnone

/-! ## The last version -/

theorem isSome_deployed_iff {bootstrapped : Bool} (vector : Bool) {version : ℕ}
    (hversion : version ≤ versions.length) :
    (deployed bootstrapped vector version).isSome = true ↔ bootstrapped = true ∨ version ≤ 1 := by
  have hcheck := List.all_eq_true.mp bootstrapped_deployed version
    (List.mem_range.mpr (Nat.lt_succ_of_le hversion))
  have hflags := forFlags_iff.mp hcheck bootstrapped vector
  rw [Bool.and_eq_true_iff] at hflags
  rw [eq_of_beq hflags.1]
  simp

theorem eq_head_of_climbed {bootstrapped : Bool} {catalog : Catalog}
    (h : Climbed bootstrapped versions.length catalog) : catalog = head := by
  obtain ⟨hversion, vector, hcatalog⟩ := h
  have hroles : bootstrapped = true := by
    have hsome := (isSome_deployed_iff _ hversion).mp (Option.isSome_of_eq_some hcatalog)
    exact hsome.resolve_right (by decide)
  rw [hroles, deployed_head] at hcatalog
  exact (Option.some.inj hcatalog).symm

theorem climbed_of_reached {bootstrapped : Bool} {version : ℕ} {catalog : Catalog}
    (h : Reached bootstrapped version catalog) (hsteps : version ≠ 0) :
    Climbed bootstrapped version catalog := by
  rcases h with hclimbed | ⟨hzero, _⟩
  · exact hclimbed
  · exact absurd hzero hsteps

/-- Whichever way the database came to the last version, its privileges, policies and
constraints are the ones the platform is modelled with. -/
theorem deploys_migrate {tasks : List Task} (hlast : (migrate tasks).version = versions.length) :
    Deploys (migrate tasks).state := by
  have hreached := reached_migrate tasks
  rw [hlast] at hreached
  rw [eq_head_of_climbed (climbed_of_reached hreached (by decide))]
  exact deploys_head

theorem deploys_migrate_prepareDb :
    (migrate (prepareDb .done)).version = 7 ∧ Deploys (migrate (prepareDb .done)).state := by
  have hlast : (migrate (prepareDb .done)).version = versions.length := by decide +kernel
  exact ⟨hlast, deploys_migrate hlast⟩

/-! ## Which commands succeed -/

/-- The first revision was applied at some time, and is not any more. -/
def TakenBack (tasks : List Task) : Prop :=
  (migrate tasks).version = 0 ∧ ∃ before, before <+: tasks ∧ 1 ≤ (migrate before).version

/-- What a successful command leaves after the first revision was applied. -/
theorem returned_of_carryOut {bootstrapped : Bool} {command : Command}
    {current next : Versioned Catalog}
    (hreached : Reached bootstrapped current.version current.state)
    (hback : current.version = 0 → Returned bootstrapped 0 current.state)
    (h : carryOut revisions current command = some next) :
    next.version = 0 → Returned bootstrapped 0 next.state := by
  refine (carryOut_holds (fun version catalog => Reached bootstrapped version catalog ∧
    (version = 0 → Returned bootstrapped 0 catalog)) ?_ ?_ ⟨hreached, hback⟩ h).2
  · rintro version revision hrevision catalog catalog' ⟨hcatalog, _⟩ hupgrade
    exact ⟨rises_reached bootstrapped version revision hrevision _ _ hcatalog hupgrade,
      fun hzero => absurd hzero (Nat.succ_ne_zero _)⟩
  · rintro version revision hrevision catalog catalog' ⟨hcatalog, _⟩ hdowngrade
    obtain ⟨before, hbefore, hleads⟩ := downgrade_of_reached hrevision hcatalog
    cases hbefore.symm.trans hdowngrade
    exact hleads

/-- Once the first revision was applied, the beginning is reached by taking it back only. -/
theorem returned_of_takenBack {tasks : List Task} (h : TakenBack tasks) :
    Returned (tasks.any Task.creates) 0 (migrate tasks).state := by
  obtain ⟨hzero, before, ⟨later, rfl⟩, happlied⟩ := h
  suffices hback : (migrate (before ++ later)).version = 0 →
      Returned ((before ++ later).any Task.creates) 0 (migrate (before ++ later)).state from
    hback hzero
  clear hzero
  induction later using List.reverseRecOn with
  | nil =>
      intro hzero
      rw [List.append_nil] at hzero
      omega
  | append_singleton later task ih =>
      intro hzero
      rw [← List.append_assoc, any_creates_snoc]
      rw [← List.append_assoc, migrate_snoc] at hzero
      rw [migrate_snoc]
      cases task with
      | bootstrap outcome =>
          simp only [perform, Task.creates] at hzero ⊢
          cases hcreates : outcome.creates with
          | false => simpa [hcreates] using ih (by simpa [hcreates] using hzero)
          | true =>
              rw [Bool.or_true]
              exact returned_bootstrapRoles (ih (by simpa [hcreates] using hzero))
      | alembic command =>
          simp only [perform, Task.creates, Bool.or_false] at hzero ⊢
          cases hnext : carryOut revisions (migrate (before ++ later)) command with
          | none =>
              rw [hnext] at hzero
              exact ih hzero
          | some next =>
              rw [hnext] at hzero
              exact returned_of_carryOut (reached_migrate _) ih hnext hzero

/-- A command that leaves the database at the beginning, where it was, did nothing. -/
theorem eq_of_carryOut_zero {command : Command} {current next : Versioned Catalog}
    (h : carryOut revisions current command = some next) (hcurrent : current.version = 0)
    (hnext : next.version = 0) : next = current := by
  cases command with
  | upgrade target =>
      simp only [carryOut] at h
      have hcount : target - current.version = 0 := by
        have := version_of_climb h
        omega
      rw [hcount] at h
      exact (Option.some.inj h).symm
  | downgrade target =>
      simp only [carryOut, hcurrent, Nat.zero_sub] at h
      split at h
      · exact (Option.some.inj h).symm
      · cases h

/-- As long as the first revision was never applied, there are no types. -/
theorem types_of_never {tasks : List Task}
    (h : ∀ before, before <+: tasks → (migrate before).version = 0) :
    (migrate tasks).state.types = [] := by
  induction tasks using List.reverseRecOn with
  | nil => rfl
  | append_singleton tasks task ih =>
      have hearlier := ih fun before hbefore => h before (hbefore.trans (List.prefix_append _ _))
      have hbefore := h tasks (List.prefix_append _ _)
      have hafter := h _ List.prefix_rfl
      rw [migrate_snoc] at hafter ⊢
      cases task with
      | bootstrap outcome =>
          simp only [perform]
          split
          · exact hearlier
          · exact hearlier
      | alembic command =>
          simp only [perform] at hafter ⊢
          cases hnext : carryOut revisions (migrate tasks) command with
          | none => exact hearlier
          | some next =>
              rw [hnext] at hafter
              rw [Option.getD_some, eq_of_carryOut_zero hnext hbefore hafter]
              exact hearlier

theorem climbed_of_not_takenBack {tasks : List Task} (h : ¬TakenBack tasks) :
    Climbed (tasks.any Task.creates) (migrate tasks).version (migrate tasks).state := by
  rcases reached_migrate tasks with hclimbed | ⟨hzero, vector, hstate⟩
  · exact hclimbed
  · have hnever : ∀ before, before <+: tasks → (migrate before).version = 0 := by
      intro before hbefore
      by_contra happlied
      exact h ⟨hzero, before, hbefore, Nat.one_le_iff_ne_zero.mpr happlied⟩
    have htypes := types_of_never hnever
    rw [hstate] at htypes
    cases htypes

/-- From a catalog that was climbed to, with the roles, the last version can be reached. -/
theorem upgrade_of_climbed {current : Versioned Catalog}
    (h : Climbed true current.version current.state) :
    carryOut revisions current (.upgrade versions.length) = some ⟨versions.length, head⟩ := by
  have hlength : revisions.length = versions.length := List.length_map _
  have hup : ∀ version revision, revisions[version]? = some revision →
      ∀ catalog, Climbed true version catalog → ∃ next, revision.upgrade catalog = some next := by
    rintro version revision hrevision catalog ⟨_, vector, hcatalog⟩
    obtain ⟨found, hfound, rfl⟩ := getElem?_revisions.mp hrevision
    have hsome := (isSome_deployed_iff vector (lt_of_getElem?_versions hfound)).mpr (.inl rfl)
    rw [deployed_succ hfound, hcatalog] at hsome
    exact Option.isSome_iff_exists.mp hsome
  have hcount : current.version + (versions.length - current.version) ≤ revisions.length := by
    have := h.1
    omega
  obtain ⟨next, hnext⟩ := (rises_climbed true).climb_eq_some hup h hcount
  have hversion : next.version = versions.length := by
    have := version_of_climb hnext
    have := h.1
    omega
  have hclimbed := (rises_climbed true).climb h hnext
  rw [hversion] at hclimbed
  have hstate := eq_head_of_climbed hclimbed
  simp only [carryOut]
  rw [hnext, ← hversion, ← hstate]

/-- There is no going up from where the first revision was taken back: its types are there. -/
theorem climb_of_returned {bootstrapped : Bool} {current : Versioned Catalog}
    (h : Returned bootstrapped current.version current.state) (count : ℕ) :
    climb revisions (count + 1) current = none := by
  obtain ⟨version, state⟩ := current
  obtain ⟨rfl, vector, rfl⟩ := h
  have hupgrade := upgrade_returned bootstrapped vector
  exact congrArg (fun found => found.bind fun state => climb revisions count ⟨1, state⟩) hupgrade

/-- Nothing leads on from where the first revision was taken back. -/
theorem perform_of_returned {bootstrapped : Bool} {current : Versioned Catalog}
    (h : Returned bootstrapped current.version current.state) (task : Task) :
    ∃ bootstrapped', Returned bootstrapped' (perform current task).version
      (perform current task).state := by
  cases task with
  | bootstrap outcome =>
      simp only [perform]
      split
      · exact ⟨true, returned_bootstrapRoles h⟩
      · exact ⟨bootstrapped, h⟩
  | alembic command =>
      refine ⟨bootstrapped, ?_⟩
      simp only [perform]
      cases hnext : carryOut revisions current command with
      | none => exact h
      | some next =>
          have hzero : next.version = 0 := by
            cases command with
            | upgrade target =>
                simp only [carryOut, h.1, Nat.sub_zero] at hnext
                cases target with
                | zero => exact (version_of_climb hnext).trans h.1
                | succ target => cases (climb_of_returned h target).symm.trans hnext
            | downgrade target =>
                have hversion := version_of_descend (Option.ite_none_right_eq_some.mp hnext).2
                rw [h.1] at hversion
                omega
          rw [Option.getD_some, eq_of_carryOut_zero hnext h.1 hzero]
          exact h

theorem returned_of_later {tasks : List Task} (h : TakenBack tasks) (later : List Task) :
    ∃ bootstrapped, Returned bootstrapped (migrate (tasks ++ later)).version
      (migrate (tasks ++ later)).state := by
  induction later using List.reverseRecOn with
  | nil =>
      obtain ⟨hzero, vector, hstate⟩ := returned_of_takenBack h
      rw [List.append_nil]
      exact ⟨_, h.1, vector, hstate⟩
  | append_singleton later task ih =>
      obtain ⟨bootstrapped, hreturned⟩ := ih
      rw [← List.append_assoc, migrate_snoc]
      exact perform_of_returned hreturned task

/-- A downgrade to a version that was reached succeeds. -/
theorem version_of_downgrade (tasks : List Task) {target : ℕ}
    (htarget : target ≤ (migrate tasks).version) :
    (migrate (tasks ++ [.alembic (.downgrade target)])).version = target := by
  have hreached := reached_migrate tasks
  have hlength : (migrate tasks).version ≤ revisions.length := by
    rw [revisions, List.length_map]
    rcases hreached with hclimbed | ⟨hzero, _⟩
    · exact hclimbed.1
    · omega
  have hdown : ∀ version revision, revisions[version]? = some revision →
      ∀ catalog, Reached (tasks.any Task.creates) (version + 1) catalog →
        ∃ before, revision.downgrade catalog = some before := by
    intro version revision hrevision catalog hcatalog
    obtain ⟨before, hbefore, _⟩ := downgrade_of_reached hrevision hcatalog
    exact ⟨before, hbefore⟩
  obtain ⟨next, hnext⟩ := (falls_reached _).descend_eq_some hdown hreached hlength
    (Nat.sub_le _ target)
  have hversion := version_of_descend hnext
  rw [migrate_snoc]
  simp only [perform, carryOut]
  rw [if_pos htarget, hnext, Option.getD_some]
  omega

/-- Every downgrade to a version that was reached succeeds.  Preparing the database leads
to the last version from wherever it is, if the role bootstrap succeeds, unless the first
revision was taken back; if the bootstrap fails, the version stays.  Once the first
revision was taken back, its types remain, and no upgrade succeeds any more. -/
theorem prepareDb_succeeds_iff (tasks : List Task) :
    (migrate (tasks ++ prepareDb .done) = ⟨versions.length, head⟩ ↔ ¬TakenBack tasks) ∧
      (∀ created, (migrate (tasks ++ prepareDb (.failed created))).version =
        (migrate tasks).version) ∧
      (TakenBack tasks → ∀ later, (migrate (tasks ++ later)).version = 0 ∧
        (migrate (tasks ++ later)).state.types = leftTypes ∧
        ∀ target, 0 < target →
          carryOut revisions (migrate (tasks ++ later)) (.upgrade target) = none) ∧
      ∀ target ≤ (migrate tasks).version,
        (migrate (tasks ++ [.alembic (.downgrade target)])).version = target := by
  refine ⟨⟨fun hlast htaken => ?_, fun htaken => ?_⟩, fun created => ?_,
    fun htaken later => ?_, fun target htarget => ?_⟩
  · obtain ⟨_, hreturned⟩ := returned_of_later htaken (prepareDb .done)
    rw [hlast] at hreturned
    exact absurd hreturned.1 (by decide)
  · have hclimbed := climbed_bootstrapRoles (climbed_of_not_takenBack htaken)
    have hupgrade := @upgrade_of_climbed
      ⟨(migrate tasks).version, bootstrapRoles (migrate tasks).state⟩ hclimbed
    rw [migrate_append]
    change (carryOut revisions _ (.upgrade versions.length)).getD _ = _
    exact (congrArg (Option.getD · _) hupgrade).trans Option.getD_some
  · rw [prepareDb, migrate_snoc, perform]
    split
    · rfl
    · rfl
  · obtain ⟨_, hreturned⟩ := returned_of_later htaken later
    obtain ⟨hzero, _, hstate⟩ := id hreturned
    refine ⟨hzero, by rw [hstate]; rfl, fun target htarget => ?_⟩
    · obtain ⟨count, rfl⟩ := Nat.exists_eq_succ_of_ne_zero htarget.ne'
      simp only [carryOut, hzero, Nat.sub_zero]
      exact climb_of_returned hreturned count
  · exact version_of_downgrade tasks htarget

example : (migrate ([.bootstrap .done, .alembic (.upgrade 1), .alembic (.downgrade 0)] ++
    prepareDb .done)).version = 0 := by decide +kernel

end Migrations
