import KnowledgePlatform.Foundations.Tenancy

/-!
# Updates and deletions

An update assigns columns no constraint reads (`SetClause`); a deletion takes
its referential actions along.  Both keep a database `Sound`, and both leave
the rows of other tenants alone when the rows they select belong to one tenant.
For deletions this rests on `Sound.coherent`: a referential action follows
references, and none leads out of the tenant.
-/

namespace Relational

variable {Table Key : Type} {Row : Table → Type} [DecidableEq Table] [DecidableEq Key]

/-- The `SET` clause of an update.  It assigns no key, tenant or reference
column and no column of a unique constraint. -/
structure SetClause (S : Schema Table Key Row) (table : Table) where
  set : Row table → Row table
  key_set : ∀ row, S.key table (set row) = S.key table row
  tenant_set : ∀ row, S.tenant table (set row) = S.tenant table row
  clash_set : ∀ row other, S.clash table (set row) other = S.clash table row other ∧
    S.clash table other (set row) = S.clash table other row
  ref_set : ∀ fk ∈ S.foreignKeys table, ∀ row, fk.ref (set row) = fk.ref row

namespace Schema

variable {S : Schema Table Key Row} {db : Database Row} {table : Table} {tenant : Key}

/-- The rows of one table as the target of a deletion. -/
def only (table : Table) (selected : Row table → Bool) : ∀ other, Row other → Bool :=
  Function.update (fun _ _ => false) table selected

omit [DecidableEq Key] in
theorem only_iff {selected : Row table → Bool} {other : Table} {row : Row other} :
    only table selected other row = true ↔
      ∃ row' : Row table, (⟨other, row⟩ : Σ table, Row table) = ⟨table, row'⟩ ∧
        selected row' = true := by
  unfold only
  by_cases hother : other = table
  · subst hother
    simp
  · simp [hother]

omit [DecidableEq Key] in
theorem keeps_set (clause : SetClause S table) (selected : Row table → Bool) :
    S.Keeps (Function.update (fun _ row => row) table
      fun row => if selected row then clause.set row else row) where
  key := by
    intro other row
    by_cases hother : other = table
    · subst hother
      rw [Function.update_self]
      split
      · exact clause.key_set row
      · rfl
    · rw [Function.update_of_ne hother]
  tenant := by
    intro other row
    by_cases hother : other = table
    · subst hother
      rw [Function.update_self]
      split
      · exact clause.tenant_set row
      · rfl
    · rw [Function.update_of_ne hother]
  clash := by
    intro other row row'
    by_cases hother : other = table
    · subst hother
      rw [Function.update_self]
      split <;> split
      · rw [(clause.clash_set row _).1, (clause.clash_set row' _).2]
      · rw [(clause.clash_set row _).1]
      · rw [(clause.clash_set row' _).2]
      · rfl
    · rw [Function.update_of_ne hother]
  ref := by
    intro other fk hfk row
    by_cases hother : other = table
    · subst hother
      rw [Function.update_self]
      split
      · exact .inl (clause.ref_set fk hfk row)
      · exact .inl rfl
    · rw [Function.update_of_ne hother]
      exact .inl rfl
  ref_of_tenant := by
    intro other row _ fk hfk
    by_cases hother : other = table
    · subst hother
      rw [Function.update_self]
      split
      · exact clause.ref_set fk hfk row
      · rfl
    · rw [Function.update_of_ne hother]

omit [DecidableEq Table] in
theorem keeps_nullify (target : ∀ table, Row table → Bool) :
    S.Keeps (S.nullify db target) where
  key := fun table row => nullify_induction (P := fun row' => S.key table row' = S.key table row)
    (fun fk hfk _ row' h => (S.key_clear table fk hfk row').trans h) rfl
  tenant := fun table row =>
    nullify_induction (P := fun row' => S.tenant table row' = S.tenant table row)
      (fun fk hfk _ row' h => (S.tenant_clear table fk hfk row').trans h) rfl
  clash := by
    intro table row other
    have hfirst := @nullify_induction _ _ _ _ S db target table row
      (fun row' => ∀ other', S.clash table row' other' = S.clash table row other')
      (fun fk hfk _ row' h other' => (S.clash_clear table fk hfk row' other').1.trans (h other'))
      (fun _ => rfl)
    have hsecond := @nullify_induction _ _ _ _ S db target table other
      (fun other' => S.clash table row other' = S.clash table row other)
      (fun fk hfk _ other' h => (S.clash_clear table fk hfk other' row).2.trans h) rfl
    rw [hfirst, hsecond]
  ref := fun table fk hfk row =>
    nullify_induction (P := fun row' => fk.ref row' = fk.ref row ∨ fk.ref row' = none)
      (fun other hother _ row' h => by
        rcases S.ref_clear table other hother fk hfk row' with hsame | hnone
        · rwa [hsame]
        · exact .inr hnone) (.inl rfl)
  ref_of_tenant := by
    intro table row hnone fk hfk
    refine (nullify_induction (P := fun row' => S.tenant table row' = none ∧
      fk.ref row' = fk.ref row) ?_ ⟨hnone, rfl⟩).2
    intro other hother hset row' h
    exact absurd h.1 (S.tenant_of_setNull table other hother hset row')

omit [DecidableEq Table] in
/-- A surviving row has no reference left to a row that goes. -/
theorem closed_delete (target : ∀ table, Row table → Bool) :
    S.Closed db (fun table row => !S.removed db target table row) (S.nullify db target) := by
  intro table row _ hkeep fk hfk parent hparent href
  by_cases hgone : S.removed db target fk.parent parent = true
  · right
    cases haction : fk.onDelete with
    | cascade =>
        have hrow : S.removed db target table row = true :=
          removed_iff.mpr (.inr ⟨fk, hfk, haction, parent, hparent, href, hgone⟩)
        simp [hrow] at hkeep
    | setNull =>
        exact ref_nullify_of_dangling
          (mem_dangling.mpr ⟨hfk, haction, parent, hparent, href, hgone⟩)
  · left
    simpa using hgone

theorem sound_update (sound : S.Sound db) (clause : SetClause S table)
    (selected : Row table → Bool) :
    S.Sound (db.update table fun row => if selected row then clause.set row else row) := by
  rw [Database.update_eq_prune]
  exact sound_prune sound (keeps_set clause selected) fun _ _ _ _ _ _ _ _ _ => .inl rfl

omit [DecidableEq Table] in
theorem sound_delete (sound : S.Sound db) (target : ∀ table, Row table → Bool) :
    S.Sound (S.delete db target) :=
  sound_prune sound (keeps_nullify target) (closed_delete target)

omit [DecidableEq Table] in
/-- A row belongs to one tenant at most. -/
theorem Sound.owner_unique (sound : S.Sound db) {row : Row table} (hrow : row ∈ db table)
    {first second : Key} (hfirst : S.ownedBy db first table row = true)
    (hsecond : S.ownedBy db second table row = true) : first = second := by
  rcases ownedBy_iff.mp hfirst with howner | ⟨_, fk, hfk, parent, hparent, href, howner⟩
  · rw [ownedBy_of_tenant howner] at hsecond
    exact of_decide_eq_true hsecond
  · rw [sound.coherent table row hrow fk hfk parent hparent href, ownedBy_of_tenant howner]
      at hsecond
    exact of_decide_eq_true hsecond

/-- An update of rows of one tenant is isolated to it. -/
theorem isolated_update (clause : SetClause S table) (selected : Row table → Bool)
    (hselected : ∀ row ∈ db table, selected row = true → S.tenant table row = some tenant) :
    S.Isolated tenant db
      (db.update table fun row => if selected row then clause.set row else row) := by
  rw [Database.update_eq_prune]
  refine isolated_prune (keeps_set clause selected) (fun _ _ _ _ _ _ _ _ _ => .inl rfl) ?_
  intro other hother table' row hrow howned
  refine ⟨rfl, ?_⟩
  by_cases htable : table' = table
  · subst htable
    rw [Function.update_self, if_neg]
    intro hsel
    rw [ownedBy_of_tenant (hselected row hrow hsel)] at howned
    exact hother (of_decide_eq_true howned).symm
  · rw [Function.update_of_ne htable]

omit [DecidableEq Table] in
/-- A deletion of rows of one tenant is isolated to it: no reference leads out
of the tenant, so neither does a referential action. -/
theorem isolated_delete (sound : S.Sound db) (target : ∀ table, Row table → Bool)
    (htarget : ∀ table, ∀ row ∈ db table, target table row = true →
      S.tenant table row = some tenant) : S.Isolated tenant db (S.delete db target) := by
  have hgone : ∀ table, ∀ row ∈ db table, S.removed db target table row = true →
      S.ownedBy db tenant table row = true := by
    refine removed_induction ?_ ?_
    · intro table row hrow hsel
      rw [ownedBy_of_tenant (htarget table row hrow hsel)]
      exact decide_eq_true rfl
    · intro table row hrow fk hfk parent hparent href howned
      rw [sound.coherent table row hrow fk hfk parent hparent href]
      exact howned
  refine isolated_prune (keeps_nullify target) (closed_delete target) ?_
  intro other hother table row hrow howned
  have hforeign : S.ownedBy db tenant table row ≠ true := fun h =>
    hother (sound.owner_unique hrow howned h)
  have hdangling : S.dangling db target table row = [] := by
    refine List.eq_nil_iff_forall_not_mem.mpr fun fk hfk => ?_
    obtain ⟨hmem, _, parent, hparent, href, hremoved⟩ := mem_dangling.mp hfk
    refine hforeign ?_
    rw [sound.coherent table row hrow fk hmem parent hparent href]
    exact hgone _ _ hparent hremoved
  refine ⟨?_, by rw [nullify, hdangling, List.foldl_nil]⟩
  rw [Bool.not_eq_true', Bool.eq_false_iff]
  exact fun h => hforeign (hgone table row hrow h)

end Schema

end Relational
