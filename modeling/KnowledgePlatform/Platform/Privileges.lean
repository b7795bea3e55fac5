import KnowledgePlatform.Platform.History
import KnowledgePlatform.Platform.Isolation

/-!
# Who changes what

The rows of an organization change only through a step that is bound to it, and a
request changes a table only if the role of its user, as stored when the request is
served, may touch it (`mayTouch`).  What remains are the parts of turns and runs,
each with its own tables, the authentication subsystem and the mark on an API key
that was used.

Which tables a role may touch follows from the guards of the endpoints and from
the referential actions of the deletions they offer: deleting a document also
takes its chunks and clears its usage events, deleting a user whatever belongs to
the user.
-/

open Api Core Foundations Python Relational Worker

namespace Platform

variable {settings : Settings} {crypto : Crypto}

/-- The rows of an organization in a table, by the tenant column. -/
def orgRows (orgId : Uuid) (db : Database) (table : Table) : List (Row table) :=
  (db table).filter fun row => rowOrg table row == some orgId

/-! ## Requests -/

/-- The tables with a tenant column. -/
def hasTenant : Table → Bool
  | .oauthAccounts | .refreshTokens => false
  | .organizations | .users | .apiKeys | .documents | .documentChunks | .conversations | .messages
  | .promptTemplates | .usageEvents | .orgWebhooks => true

theorem isSome_rowOrg {table : Table} (htenant : hasTenant table = true) (row : Row table) :
    (rowOrg table row).isSome = true := by
  cases table <;> first | rfl | cases htenant

/-- Where a table has a tenant column, the rows of an organization are those of the
tenant. -/
theorem rowsOf_eq_orgRows {orgId : Uuid} {db : Database} {table : Table}
    (htenant : hasTenant table = true) :
    schema.rowsOf db orgId table = orgRows orgId db table := by
  refine List.filter_congr fun row _ => ?_
  obtain ⟨owner, howner⟩ := Option.isSome_iff_exists.mp (isSome_rowOrg htenant row)
  rw [@Schema.ownedBy_of_tenant _ _ _ _ schema _ _ _ _ _ howner, howner]
  simp [beq_eq_decide]

/-- No row of the other tables shows an organization. -/
theorem orgRows_of_tenantless {orgId : Uuid} {db : Database} {table : Table}
    (htenantless : hasTenant table = false) : orgRows orgId db table = [] := by
  have hnone : ∀ row : Row table, rowOrg table row = none := by
    intro row
    cases table <;> first | rfl | cases htenantless
  exact List.filter_eq_nil_iff.mpr fun row _ => by simp [hnone row]

theorem orgRows_of_isolated {orgId other : Uuid} {db db' : Database} (table : Table)
    (hisolated : schema.Isolated orgId db db') (hother : other ≠ orgId) :
    orgRows other db' table = orgRows other db table := by
  cases htenant : hasTenant table with
  | true =>
      rw [← rowsOf_eq_orgRows htenant, ← rowsOf_eq_orgRows htenant]
      exact hisolated other hother table
  | false => rw [orgRows_of_tenantless htenant, orgRows_of_tenantless htenant]

/-- An update that selects no row of an organization changes none. -/
theorem orgRows_of_update {orgId : Uuid} {db : Database} {table : Table}
    {selected : Row table → Bool} (clause : SetClause schema table)
    (hforeign : ∀ row ∈ db table, selected row = true → rowOrg table row ≠ some orgId) :
    orgRows orgId (db.update table fun row => if selected row then clause.set row else row) table =
      orgRows orgId db table := by
  have htenant : ∀ row, rowOrg table (if selected row then clause.set row else row) =
      rowOrg table row := by
    intro row
    split
    · exact clause.tenant_set row
    · rfl
  unfold orgRows
  rw [Database.update_self, List.filter_map]
  simp only [Function.comp_def, htenant]
  refine (List.map_congr_left fun row hrow => ?_).trans (List.map_id _)
  obtain ⟨hmem, horg⟩ := List.mem_filter.mp hrow
  exact if_neg fun hselected => hforeign row hmem hselected (beq_iff_eq.mp horg)

/-- Inserting a row of another organization, or into another table. -/
theorem orgRows_of_insert {policy : Policy Row} {db db' : Database} {orgId : Uuid}
    {table other : Table} {row : Row other}
    (h : policy.execute schema db (.insert other row) = .ok db')
    (hother : table = other → rowOrg other row ≠ some orgId) :
    orgRows orgId db' table = orgRows orgId db table := by
  by_cases htable : table = other
  · subst htable
    obtain ⟨rfl, _⟩ := Policy.insertRow_eq_ok h
    have hskipped : (rowOrg table row == some orgId) = false :=
      beq_eq_false_iff_ne.mpr (hother rfl)
    rw [orgRows, Database.insert_self, List.filter_append, List.filter_singleton, hskipped]
    simp [orgRows]
  · unfold orgRows
    rw [Schema.spares_insert htable _ _ _ h]

/-- The mark on a key that was used is on a row of the key's organization. -/
theorem orgRows_of_authenticated {world world' : World} {rawKey : Str} {now : Time}
    {bound orgId : Uuid} {creator : User} (sound : schema.Sound world.db)
    (hstep : Step settings crypto world (.authenticated rawKey now bound creator) world')
    {table : Table} (hnot : ¬(bound = orgId ∧ table = .apiKeys)) :
    orgRows orgId world'.db table = orgRows orgId world.db table := by
  cases hstep with
  | authenticated hrun =>
      obtain ⟨key, hkey, _, _, _, _, _, _, _, _, rfl, hwrote⟩ := resolveApiKey_eq_ok hrun
      obtain ⟨_, hdb⟩ := hwrote.update
      simp only [hdb]
      by_cases htable : table = .apiKeys
      · subst htable
        refine orgRows_of_update (touchKey now) fun row hrow hselected horg => ?_
        have hid : rowId .apiKeys row = rowId .apiKeys key :=
          beq_iff_eq.mp (Bool.and_eq_true_iff.mp hselected).2
        obtain rfl := sound.eq_of_key_eq hrow hkey hid
        exact hnot ⟨Option.some.inj horg, rfl⟩
      · unfold orgRows
        rw [Database.update_of_ne _ htable]
        rfl

/-- The authentication router founds an organization with its first user, and writes
what belongs to users. -/
theorem orgRows_of_auth {world world' : World} {request : AuthRequest} {now : Time}
    {tokens : Option TokenResponse} {orgId : Uuid}
    (hstep : Step settings crypto world (.auth request now tokens) world') {table : Table}
    (hnot : ¬(request.founds = some orgId ∧ (table = .organizations ∨ table = .users))) :
    orgRows orgId world'.db table = orgRows orgId world.db table := by
  obtain ⟨conn, writes, heffect, hexecutes⟩ := step_executes hstep
  refine hexecutes.rel (R := fun first second => orgRows orgId second table = orgRows orgId first table)
    (fun _ => rfl) (fun hfirst hsecond => hsecond.trans hfirst) ?_
  intro write hwrite db db' hexecute
  cases htenant : hasTenant table with
  | false => rw [orgRows_of_tenantless htenant, orgRows_of_tenantless htenant]
  | true =>
      cases heffect with
      | auth hwrites =>
          cases hwrites write hwrite with
          | organization row hfounds =>
              refine orgRows_of_insert hexecute fun htable horg => hnot ⟨?_, .inl htable⟩
              rw [← request.head?_draws, hfounds]
              exact horg
          | user row _ hfounds =>
              refine orgRows_of_insert hexecute fun htable horg => hnot ⟨?_, .inr htable⟩
              rw [← request.head?_draws, hfounds]
              exact horg
          | link | token =>
              unfold orgRows
              rw [Schema.spares_insert (by rintro rfl; cases htenant) _ _ _ hexecute]
          | revoke =>
              unfold orgRows
              rw [Schema.spares_update (by rintro rfl; cases htenant) _ _ _ hexecute]

end Platform
