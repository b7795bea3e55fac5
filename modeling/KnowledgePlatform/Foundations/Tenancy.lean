import KnowledgePlatform.Foundations.Relational

/-!
# Tenants of a relational database

`ownedBy` says which rows belong to a tenant and `Sound` what a database must
satisfy for the tenants to be separable at all: keys are keys, references
resolve, and no reference links rows of two tenants.  `Isolated` is the frame
condition of a change made on behalf of one tenant: the rows of every other
tenant, in every table, are the same rows in the same order.

The changes are an insertion (`sound_insert`, `isolated_insert`) and a `prune`
(`sound_prune`, `isolated_prune`), of which updates and deletions with their
referential actions are instances.
-/

namespace Relational

variable {Table Key : Type} {Row : Table → Type} [DecidableEq Key]

namespace Schema

variable (S : Schema Table Key Row)

/-- Whether a row belongs to a tenant: by its tenant column or, where its table
has none, by the tenant column of a row it references. -/
def ownedBy (db : Database Row) (tenant : Key) (table : Table) (row : Row table) : Bool :=
  match S.tenant table row with
  | some owner => decide (owner = tenant)
  | none => (S.foreignKeys table).any fun fk => (db fk.parent).any fun parent =>
      decide (fk.ref row = some (S.key fk.parent parent)) &&
        decide (S.tenant fk.parent parent = some tenant)

/-- The rows of a table that belong to a tenant, in table order. -/
def rowsOf (db : Database Row) (tenant : Key) (table : Table) : List (Row table) :=
  (db table).filter (S.ownedBy db tenant table)

/-- What holds of a database on which the constraints were enforced and no
reference crosses a tenant boundary. -/
structure Sound (db : Database Row) : Prop where
  distinct : ∀ table, (db table).Pairwise fun row other =>
    S.key table row ≠ S.key table other ∧ S.clash table row other = false
  resolved : ∀ table, ∀ row ∈ db table, ∀ fk ∈ S.foreignKeys table, ∀ key,
    fk.ref row = some key → ∃ parent ∈ db fk.parent, S.key fk.parent parent = key
  coherent : ∀ table, ∀ row ∈ db table, ∀ fk ∈ S.foreignKeys table, ∀ parent ∈ db fk.parent,
    fk.ref row = some (S.key fk.parent parent) → ∀ tenant,
      S.ownedBy db tenant table row = S.ownedBy db tenant fk.parent parent

/-- The rows of every other tenant are left exactly as they were. -/
def Isolated (tenant : Key) (db db' : Database Row) : Prop :=
  ∀ other ≠ tenant, ∀ table, S.rowsOf db' other table = S.rowsOf db other table

/-- Every row with this key belongs to `tenant`, going by its tenant column. -/
def KeyWithin (db : Database Row) (tenant : Key) (table : Table) (key : Key) : Prop :=
  ∀ row ∈ db table, S.key table row = key → S.tenant table row = some tenant

variable {S} {db db' : Database Row} {tenant : Key} {table : Table}

theorem ownedBy_iff {row : Row table} : S.ownedBy db tenant table row = true ↔
    S.tenant table row = some tenant ∨ (S.tenant table row = none ∧
      ∃ fk ∈ S.foreignKeys table, ∃ parent ∈ db fk.parent,
        fk.ref row = some (S.key fk.parent parent) ∧ S.tenant fk.parent parent = some tenant) := by
  unfold ownedBy
  cases howner : S.tenant table row <;> simp

theorem ownedBy_of_tenant {row : Row table} {owner : Key} (howner : S.tenant table row = some owner) :
    S.ownedBy db tenant table row = decide (owner = tenant) := by
  simp [ownedBy, howner]

/-- Ownership reads of the database only the rows a row references. -/
theorem ownedBy_congr {row : Row table}
    (hparents : S.tenant table row = none → ∀ fk ∈ S.foreignKeys table, ∀ parent : Row fk.parent,
      fk.ref row = some (S.key fk.parent parent) →
        (parent ∈ db' fk.parent ↔ parent ∈ db fk.parent)) :
    S.ownedBy db' tenant table row = S.ownedBy db tenant table row := by
  rw [Bool.eq_iff_iff, ownedBy_iff, ownedBy_iff]
  refine or_congr_right (and_congr_right fun hnone => ?_)
  refine exists_congr fun fk => and_congr_right fun hfk => exists_congr fun parent => ?_
  constructor
  · rintro ⟨hmem, href, howner⟩
    exact ⟨(hparents hnone fk hfk parent href).mp hmem, href, howner⟩
  · rintro ⟨hmem, href, howner⟩
    exact ⟨(hparents hnone fk hfk parent href).mpr hmem, href, howner⟩

namespace Sound

/-- Keys are keys. -/
theorem eq_of_key_eq (sound : S.Sound db) {row other : Row table} (hrow : row ∈ db table)
    (hother : other ∈ db table) (hkey : S.key table row = S.key table other) : row = other := by
  have hnodup : ((db table).map (S.key table)).Nodup :=
    List.pairwise_map.mpr ((sound.distinct table).imp fun h => h.1)
  exact List.inj_on_of_nodup_map hnodup hrow hother hkey

/-- A row found by its key settles the tenant of that key. -/
theorem keyWithin (sound : S.Sound db) {row : Row table} (hrow : row ∈ db table)
    (howner : S.tenant table row = some tenant) :
    S.KeyWithin db tenant table (S.key table row) := by
  intro other hother hkey
  rw [sound.eq_of_key_eq hother hrow hkey]
  exact howner

theorem empty : S.Sound fun _ => [] where
  distinct := fun _ => List.Pairwise.nil
  resolved := fun _ _ hrow => absurd hrow List.not_mem_nil
  coherent := fun _ _ hrow => absurd hrow List.not_mem_nil

end Sound

namespace Isolated

theorem refl (tenant : Key) (db : Database Row) : S.Isolated tenant db db := fun _ _ _ => rfl

theorem trans {db'' : Database Row} (hfirst : S.Isolated tenant db db')
    (hsecond : S.Isolated tenant db' db'') : S.Isolated tenant db db'' :=
  fun other hother table => (hsecond other hother table).trans (hfirst other hother table)

end Isolated

/-! ## Insertion -/

/-- The constraints accept a new row, and its references stay inside its tenant. -/
structure Insertable (S : Schema Table Key Row) (db : Database Row) (table : Table)
    (row : Row table) : Prop where
  fresh : ∀ other ∈ db table,
    S.key table other ≠ S.key table row ∧ S.clash table other row = false
  resolved : ∀ fk ∈ S.foreignKeys table, ∀ key, fk.ref row = some key →
    ∃ parent ∈ db fk.parent, S.key fk.parent parent = key
  coherent : ∀ fk ∈ S.foreignKeys table, ∀ parent ∈ db fk.parent,
    fk.ref row = some (S.key fk.parent parent) → ∀ tenant,
      S.ownedBy db tenant table row = S.ownedBy db tenant fk.parent parent

/-- A row of one tenant whose references stay within it may be inserted. -/
theorem insertable_of_within {row : Row table} (howner : S.tenant table row = some tenant)
    (hfresh : ∀ other ∈ db table,
      S.key table other ≠ S.key table row ∧ S.clash table other row = false)
    (hresolved : ∀ fk ∈ S.foreignKeys table, ∀ key, fk.ref row = some key →
      ∃ parent ∈ db fk.parent, S.key fk.parent parent = key)
    (hwithin : ∀ fk ∈ S.foreignKeys table, ∀ key, fk.ref row = some key →
      S.KeyWithin db tenant fk.parent key) : S.Insertable db table row where
  fresh := hfresh
  resolved := hresolved
  coherent := by
    intro fk hfk parent hparent href owner
    rw [ownedBy_of_tenant howner,
      ownedBy_of_tenant (hwithin fk hfk _ href parent hparent rfl)]

/-- A row without a tenant column and with one reference, into a table that has
one, may be inserted: it belongs to the tenant of the row it references. -/
theorem insertable_of_tenantless (sound : S.Sound db) {row : Row table}
    (howner : S.tenant table row = none) {fk : ForeignKey Table Key (Row table)}
    (hsingle : S.foreignKeys table = [fk])
    (hparents : ∀ parent ∈ db fk.parent, S.tenant fk.parent parent ≠ none)
    (hfresh : ∀ other ∈ db table,
      S.key table other ≠ S.key table row ∧ S.clash table other row = false)
    (hresolved : ∀ fk ∈ S.foreignKeys table, ∀ key, fk.ref row = some key →
      ∃ parent ∈ db fk.parent, S.key fk.parent parent = key) : S.Insertable db table row where
  fresh := hfresh
  resolved := hresolved
  coherent := by
    intro other hother parent hparent href tenant
    rw [hsingle] at hother
    cases List.mem_singleton.mp hother
    obtain ⟨owner, howned⟩ := Option.ne_none_iff_exists'.mp (hparents parent hparent)
    rw [ownedBy_of_tenant howned, Bool.eq_iff_iff, ownedBy_iff, decide_eq_true_eq]
    constructor
    · rintro (htenant | ⟨_, other, hother, parent', hparent', href', howned'⟩)
      · rw [howner] at htenant
        cases htenant
      · rw [hsingle] at hother
        cases List.mem_singleton.mp hother
        have hsame : S.key fk.parent parent' = S.key fk.parent parent :=
          Option.some.inj (href'.symm.trans href)
        rw [sound.eq_of_key_eq hparent' hparent hsame, howned] at howned'
        exact Option.some.inj howned'
    · rintro rfl
      refine .inr ⟨howner, fk, ?_, parent, hparent, href, howned⟩
      rw [hsingle]
      exact List.mem_singleton_self fk

section Insert

variable [DecidableEq Table] {row : Row table}

/-- An insertion does not change who owns the rows already there: no reference
held the new key. -/
theorem ownedBy_insert_of_mem (sound : S.Sound db) (hfresh : ∀ other ∈ db table,
      S.key table other ≠ S.key table row ∧ S.clash table other row = false)
    {other : Table} {found : Row other} (hfound : found ∈ db other) :
    S.ownedBy (db.insert table row) tenant other found = S.ownedBy db tenant other found := by
  refine ownedBy_congr fun _ fk hfk parent href => ?_
  rw [Database.mem_insert]
  refine or_iff_left fun hnew => ?_
  obtain ⟨parent', hparent', hkey⟩ := sound.resolved other found hfound fk hfk _ href
  obtain ⟨rfl, hrow⟩ := Sigma.mk.inj_iff.mp hnew
  cases hrow
  exact (hfresh parent' hparent').1 hkey

/-- The new row is owned as if it were looked at before its insertion: it does
not reference its own table. -/
theorem ownedBy_insert_self :
    S.ownedBy (db.insert table row) tenant table row = S.ownedBy db tenant table row := by
  refine ownedBy_congr fun _ fk hfk parent _ => ?_
  have hne : fk.parent ≠ table := fun heq =>
    absurd (S.rank_parent table fk hfk) (by rw [heq]; exact lt_irrefl _)
  rw [Database.insert_of_ne row hne]

theorem sound_insert (sound : S.Sound db) (hrow : S.Insertable db table row) :
    S.Sound (db.insert table row) where
  distinct := by
    intro other
    by_cases hother : other = table
    · subst hother
      rw [Database.insert_self, List.pairwise_append]
      refine ⟨sound.distinct other, List.pairwise_singleton _ _, ?_⟩
      intro found hfound new hnew
      cases List.mem_singleton.mp hnew
      exact hrow.fresh found hfound
    · rw [Database.insert_of_ne row hother]
      exact sound.distinct other
  resolved := by
    intro other found hfound fk hfk key href
    suffices hold : ∃ parent ∈ db fk.parent, S.key fk.parent parent = key by
      obtain ⟨parent, hparent, hkey⟩ := hold
      exact ⟨parent, Database.mem_insert.mpr (.inl hparent), hkey⟩
    rcases Database.mem_insert.mp hfound with hold | hnew
    · exact sound.resolved other found hold fk hfk key href
    · cases hnew
      exact hrow.resolved fk hfk key href
  coherent := by
    intro other found hfound fk hfk parent hparent href owner
    -- the referenced row was there before: the reference resolved before
    have hparent' : parent ∈ db fk.parent := by
      rcases Database.mem_insert.mp hparent with hold | hnew
      · exact hold
      · obtain ⟨rfl, heq⟩ := Sigma.mk.inj_iff.mp hnew
        cases heq
        obtain ⟨parent', hparent', hkey⟩ : ∃ parent' ∈ db fk.parent,
            S.key fk.parent parent' = S.key fk.parent parent := by
          rcases Database.mem_insert.mp hfound with hold | hself
          · exact sound.resolved other found hold fk hfk _ href
          · have hlt := S.rank_parent other fk hfk
            have hsame := congrArg (fun record => S.rank record.1) hself
            exact absurd hsame hlt.ne'
        exact absurd hkey (hrow.fresh parent' hparent').1
    rw [ownedBy_insert_of_mem sound hrow.fresh hparent']
    rcases Database.mem_insert.mp hfound with hold | hnew
    · rw [ownedBy_insert_of_mem sound hrow.fresh hold]
      exact sound.coherent other found hold fk hfk parent hparent' href owner
    · cases hnew
      rw [ownedBy_insert_self]
      exact hrow.coherent fk hfk parent hparent' href owner

/-- A row inserted for a tenant shows up among the rows of no other tenant. -/
theorem isolated_insert (sound : S.Sound db) (hrow : S.Insertable db table row)
    (howner : S.tenant table row = some tenant) :
    S.Isolated tenant db (db.insert table row) := by
  intro other hother found
  have hold : (db found).filter (S.ownedBy (db.insert table row) other found) =
      (db found).filter (S.ownedBy db other found) :=
    List.filter_congr fun row' hrow' => ownedBy_insert_of_mem sound hrow.fresh hrow'
  unfold rowsOf
  by_cases hfound : found = table
  · subst hfound
    have hnew : S.ownedBy (db.insert found row) other found row = false := by
      rw [ownedBy_of_tenant howner]
      exact decide_eq_false (Ne.symm hother)
    rw [Database.insert_self, List.filter_append, hold]
    simp [hnew]
  · rw [Database.insert_of_ne row hfound, hold]

end Insert

/-! ## Pruning: updates and deletions -/

/-- A rewriting of rows that touches no column a constraint reads, except that
it may clear references of rows that have a tenant column. -/
structure Keeps (S : Schema Table Key Row) (rewrite : ∀ table, Row table → Row table) : Prop where
  key : ∀ table row, S.key table (rewrite table row) = S.key table row
  tenant : ∀ table row, S.tenant table (rewrite table row) = S.tenant table row
  clash : ∀ table row other,
    S.clash table (rewrite table row) (rewrite table other) = S.clash table row other
  ref : ∀ table, ∀ fk ∈ S.foreignKeys table, ∀ row,
    fk.ref (rewrite table row) = fk.ref row ∨ fk.ref (rewrite table row) = none
  ref_of_tenant : ∀ table row, S.tenant table row = none →
    ∀ fk ∈ S.foreignKeys table, fk.ref (rewrite table row) = fk.ref row

/-- No kept row is left with a reference to a dropped one. -/
def Closed (S : Schema Table Key Row) (db : Database Row) (keep : ∀ table, Row table → Bool)
    (rewrite : ∀ table, Row table → Row table) : Prop :=
  ∀ table, ∀ row ∈ db table, keep table row = true → ∀ fk ∈ S.foreignKeys table,
    ∀ parent ∈ db fk.parent, fk.ref row = some (S.key fk.parent parent) →
      keep fk.parent parent = true ∨ fk.ref (rewrite table row) = none

section Prune

variable {keep : ∀ table, Row table → Bool} {rewrite : ∀ table, Row table → Row table}

/-- A kept row belongs to whom it belonged. -/
theorem ownedBy_prune (hkeeps : S.Keeps rewrite) (hclosed : S.Closed db keep rewrite)
    {row : Row table} (hrow : row ∈ db table) (hkeep : keep table row = true) :
    S.ownedBy (db.prune keep rewrite) tenant table (rewrite table row) =
      S.ownedBy db tenant table row := by
  rw [Bool.eq_iff_iff, ownedBy_iff, ownedBy_iff, hkeeps.tenant]
  refine or_congr_right (and_congr_right fun hnone => ?_)
  refine exists_congr fun fk => and_congr_right fun hfk => ?_
  rw [hkeeps.ref_of_tenant table row hnone fk hfk]
  constructor
  · rintro ⟨parent', hparent', href, howner⟩
    obtain ⟨parent, hparent, _, rfl⟩ := Database.mem_prune.mp hparent'
    rw [hkeeps.key] at href
    rw [hkeeps.tenant] at howner
    exact ⟨parent, hparent, href, howner⟩
  · rintro ⟨parent, hparent, href, howner⟩
    have hkept : keep fk.parent parent = true := by
      rcases hclosed table row hrow hkeep fk hfk parent hparent href with hkept | hcleared
      · exact hkept
      · rw [hkeeps.ref_of_tenant table row hnone fk hfk, href] at hcleared
        cases hcleared
    refine ⟨rewrite fk.parent parent, Database.mem_prune.mpr ⟨parent, hparent, hkept, rfl⟩, ?_, ?_⟩
    · rw [hkeeps.key, href]
    · rw [hkeeps.tenant, howner]

theorem sound_prune (sound : S.Sound db) (hkeeps : S.Keeps rewrite)
    (hclosed : S.Closed db keep rewrite) : S.Sound (db.prune keep rewrite) where
  distinct := by
    intro table
    refine List.pairwise_map.mpr (List.Pairwise.imp ?_ ((sound.distinct table).filter _))
    intro row other h
    rw [hkeeps.key, hkeeps.key, hkeeps.clash]
    exact h
  resolved := by
    intro table found hfound fk hfk key href
    obtain ⟨row, hrow, hkeep, rfl⟩ := Database.mem_prune.mp hfound
    have hsame : fk.ref row = some key := by
      rcases hkeeps.ref table fk hfk row with hsame | hcleared
      · exact hsame ▸ href
      · exact absurd (hcleared ▸ href) (by simp)
    obtain ⟨parent, hparent, rfl⟩ := sound.resolved table row hrow fk hfk key hsame
    rcases hclosed table row hrow hkeep fk hfk parent hparent hsame with hkept | hcleared
    · exact ⟨rewrite fk.parent parent,
        Database.mem_prune.mpr ⟨parent, hparent, hkept, rfl⟩, hkeeps.key _ _⟩
    · exact absurd (hcleared ▸ href) (by simp)
  coherent := by
    intro table found hfound fk hfk parent' hparent' href owner
    obtain ⟨row, hrow, hkeep, rfl⟩ := Database.mem_prune.mp hfound
    obtain ⟨parent, hparent, hkept, rfl⟩ := Database.mem_prune.mp hparent'
    rw [ownedBy_prune hkeeps hclosed hrow hkeep, ownedBy_prune hkeeps hclosed hparent hkept]
    refine sound.coherent table row hrow fk hfk parent hparent ?_ owner
    rw [hkeeps.key] at href
    rcases hkeeps.ref table fk hfk row with hsame | hcleared
    · exact hsame ▸ href
    · exact absurd (hcleared ▸ href) (by simp)

/-- A pruning that keeps, as they are, all rows that do not belong to a tenant
is isolated to that tenant. -/
theorem isolated_prune (hkeeps : S.Keeps rewrite) (hclosed : S.Closed db keep rewrite)
    (houtside : ∀ other ≠ tenant, ∀ table, ∀ row ∈ db table,
      S.ownedBy db other table row = true → keep table row = true ∧ rewrite table row = row) :
    S.Isolated tenant db (db.prune keep rewrite) := by
  intro other hother table
  unfold rowsOf Database.prune
  rw [List.filter_map, List.filter_filter]
  have hfilter : ∀ row ∈ db table,
      ((S.ownedBy (db.prune keep rewrite) other table ∘ rewrite table) row && keep table row) =
        S.ownedBy db other table row := by
    intro row hrow
    cases hkeep : keep table row with
    | true =>
        rw [Bool.and_true]
        exact ownedBy_prune hkeeps hclosed hrow hkeep
    | false =>
        rw [Bool.and_false, eq_comm, Bool.eq_false_iff]
        intro howned
        rw [(houtside other hother table row hrow howned).1] at hkeep
        cases hkeep
  have hfiltered := List.filter_congr hfilter
  unfold Database.prune at hfiltered
  rw [hfiltered]
  refine (List.map_congr_left fun row hrow => ?_).trans (List.map_id _)
  obtain ⟨hrow, howned⟩ := List.mem_filter.mp hrow
  exact (houtside other hother table row hrow howned).2

end Prune

end Schema

end Relational
