import KnowledgePlatform.Foundations.Referential

/-!
# Statements under row-level security

A `Policy` is what a database session may do: the verbs granted on each table
and the row filters of the row-level security policies, `USING` (`visible`) and
`WITH CHECK` (`check`).  The statements fail on a missing grant, on a value its
column cannot hold, on a row the policy rejects and on a violated constraint.
Referential actions of a deletion are not subject to the policy.

A session whose policy shows and accepts only rows of one tenant
(`Policy.Confines`) keeps `Sound` and is `Isolated` to that tenant, whatever
statements it executes, as long as the references it inserts stay within the
tenant.
-/

namespace Relational

/-- The kinds of statement privileges are granted for. -/
inductive Verb
  | select
  | insert
  | update
  | delete
  deriving DecidableEq, Repr

/-- Why a statement fails. -/
inductive StatementError
  | permissionDenied
  | dataError
  | rowSecurity
  | uniqueViolation
  | foreignKeyViolation
  deriving DecidableEq, Repr

variable {Table Key : Type} {Row : Table → Type}

/-- What a session may do: its privileges and its row filters. -/
structure Policy (Row : Table → Type) where
  grants : Verb → Table → Bool
  visible : ∀ table, Row table → Bool
  check : ∀ table, Row table → Bool

namespace Policy

/-- `SELECT`: the visible rows that satisfy the condition, in table order. -/
def selectRows (policy : Policy Row) (db : Database Row) (table : Table)
    (selected : Row table → Bool) : Except StatementError (List (Row table)) :=
  if policy.grants .select table then
    .ok ((db table).filter fun row => policy.visible table row && selected row)
  else .error .permissionDenied

/-- `SELECT` along an index, which holds the rows of all tenants: what is not visible is
left out of what the scan returns. -/
def scanRows (policy : Policy Row) (db : Database Row) (table : Table)
    (scan : List (Row table) → List (Row table)) : Except StatementError (List (Row table)) :=
  if policy.grants .select table then .ok ((scan (db table)).filter (policy.visible table))
  else .error .permissionDenied

variable [DecidableEq Key]

/-- Whether every reference of a row finds its parent. -/
def resolves (S : Schema Table Key Row) (db : Database Row) (table : Table) (row : Row table) :
    Bool :=
  (S.foreignKeys table).all fun fk =>
    match fk.ref row with
    | none => true
    | some key => (db fk.parent).any fun parent => decide (S.key fk.parent parent = key)

variable [DecidableEq Table]

/-- `INSERT` of one row. -/
def insertRow (S : Schema Table Key Row) (policy : Policy Row) (db : Database Row)
    (table : Table) (row : Row table) : Except StatementError (Database Row) :=
  if !policy.grants .insert table then .error .permissionDenied
  else if !S.fits table row then .error .dataError
  else if !policy.check table row then .error .rowSecurity
  else if (db table).any fun other =>
      decide (S.key table other = S.key table row) || S.clash table other row then
    .error .uniqueViolation
  else if !resolves S db table row then .error .foreignKeyViolation
  else .ok (db.insert table row)

/-- `UPDATE` of the visible rows that satisfy the condition. -/
def updateRows (S : Schema Table Key Row) (policy : Policy Row) (db : Database Row)
    (table : Table) (selected : Row table → Bool) (clause : SetClause S table) :
    Except StatementError (Database Row) :=
  if !policy.grants .update table then .error .permissionDenied
  else if (db table).any fun row =>
      (policy.visible table row && selected row) && !S.fits table (clause.set row) then
    .error .dataError
  else if (db table).any fun row =>
      (policy.visible table row && selected row) && !policy.check table (clause.set row) then
    .error .rowSecurity
  else .ok (db.update table fun row =>
    if policy.visible table row && selected row then clause.set row else row)

/-- `DELETE` of the visible rows that satisfy the condition. -/
def deleteRows (S : Schema Table Key Row) (policy : Policy Row) (db : Database Row)
    (table : Table) (selected : Row table → Bool) : Except StatementError (Database Row) :=
  if !policy.grants .delete table then .error .permissionDenied
  else .ok (S.delete db (Schema.only table fun row => policy.visible table row && selected row))

variable {S : Schema Table Key Row} {policy : Policy Row} {db db' : Database Row} {table : Table}
  {tenant : Key}

omit [DecidableEq Table] [DecidableEq Key] in
theorem mem_of_selectRows {selected : Row table → Bool} {rows : List (Row table)}
    (h : policy.selectRows db table selected = .ok rows) {row : Row table} (hrow : row ∈ rows) :
    row ∈ db table ∧ policy.grants .select table = true ∧ policy.visible table row = true ∧
      selected row = true := by
  unfold selectRows at h
  split at h
  · next hgrant =>
      cases h
      obtain ⟨hmem, hsel⟩ := List.mem_filter.mp hrow
      obtain ⟨hvisible, hselected⟩ := Bool.and_eq_true_iff.mp hsel
      exact ⟨hmem, hgrant, hvisible, hselected⟩
  · cases h

omit [DecidableEq Table] in
theorem resolves_iff {row : Row table} : resolves S db table row = true ↔
    ∀ fk ∈ S.foreignKeys table, ∀ key, fk.ref row = some key →
      ∃ parent ∈ db fk.parent, S.key fk.parent parent = key := by
  simp only [resolves, List.all_eq_true]
  refine forall_congr' fun fk => forall_congr' fun _ => ?_
  cases href : fk.ref row <;> simp

/-- What a successful insertion says about the row, and its result. -/
theorem insertRow_eq_ok {row : Row table} (h : policy.insertRow S db table row = .ok db') :
    db' = db.insert table row ∧ policy.grants .insert table = true ∧
      policy.check table row = true ∧ S.fits table row = true ∧
      (∀ other ∈ db table,
        S.key table other ≠ S.key table row ∧ S.clash table other row = false) ∧
      ∀ fk ∈ S.foreignKeys table, ∀ key, fk.ref row = some key →
        ∃ parent ∈ db fk.parent, S.key fk.parent parent = key := by
  unfold insertRow at h
  split_ifs at h with hgrant hfits hcheck hunique hresolves
  cases h
  simp only [Bool.not_eq_true', Bool.not_eq_false] at hgrant hfits hcheck hresolves
  refine ⟨rfl, hgrant, hcheck, hfits, ?_, resolves_iff.mp hresolves⟩
  intro other hother
  constructor
  · intro hkey
    exact hunique (List.any_eq_true.mpr ⟨other, hother, by simp [hkey]⟩)
  · rw [Bool.eq_false_iff]
    intro hclash
    exact hunique (List.any_eq_true.mpr ⟨other, hother, by simp [hclash]⟩)

omit [DecidableEq Key] in
theorem updateRows_eq_ok {selected : Row table → Bool} {clause : SetClause S table}
    (h : policy.updateRows S db table selected clause = .ok db') :
    policy.grants .update table = true ∧
      db' = db.update table fun row =>
        if policy.visible table row && selected row then clause.set row else row := by
  unfold updateRows at h
  split_ifs at h with hgrant
  cases h
  exact ⟨by simpa using hgrant, rfl⟩

omit [DecidableEq Key] in
/-- A row after an update is a row from before, rewritten if the update selected it. -/
theorem mem_of_updateRows {selected : Row table → Bool} {clause : SetClause S table}
    (h : policy.updateRows S db table selected clause = .ok db') {row' : Row table}
    (hrow' : row' ∈ db' table) : ∃ row ∈ db table, row' = row ∨
      (policy.visible table row = true ∧ selected row = true ∧ row' = clause.set row) := by
  obtain ⟨_, rfl⟩ := updateRows_eq_ok h
  rw [Database.update_self] at hrow'
  obtain ⟨row, hrow, rfl⟩ := List.mem_map.mp hrow'
  refine ⟨row, hrow, ?_⟩
  split
  · next hchosen =>
      obtain ⟨hvisible, hselected⟩ := Bool.and_eq_true_iff.mp hchosen
      exact .inr ⟨hvisible, hselected, rfl⟩
  · exact .inl rfl

omit [DecidableEq Key] in
/-- An update succeeds when its rows fit and pass the policy afterwards. -/
theorem updateRows_of_fits {selected : Row table → Bool} {clause : SetClause S table}
    (hgrant : policy.grants .update table = true)
    (hrows : ∀ row ∈ db table, selected row = true →
      S.fits table (clause.set row) = true ∧ policy.check table (clause.set row) = true) :
    ∃ db', policy.updateRows S db table selected clause = .ok db' := by
  have hnone : ∀ {holds : Row table → Bool},
      (∀ row ∈ db table, selected row = true → holds row = true) →
        ¬((db table).any fun row => (policy.visible table row && selected row) && !holds row) =
          true := by
    intro holds hholds hany
    obtain ⟨row, hrow, hfails⟩ := List.any_eq_true.mp hany
    obtain ⟨hselected, hnot⟩ := Bool.and_eq_true_iff.mp hfails
    rw [hholds row hrow (Bool.and_eq_true_iff.mp hselected).2] at hnot
    cases hnot
  unfold updateRows
  rw [if_neg (by simp [hgrant]), if_neg (hnone fun row hrow h => (hrows row hrow h).1),
    if_neg (hnone fun row hrow h => (hrows row hrow h).2)]
  exact ⟨_, rfl⟩

omit [DecidableEq Key] in
/-- The rows a successful update changes fit afterwards. -/
theorem fits_of_updateRows {selected : Row table → Bool} {clause : SetClause S table}
    (h : policy.updateRows S db table selected clause = .ok db') {row : Row table}
    (hrow : row ∈ db table) (hvisible : policy.visible table row = true)
    (hselected : selected row = true) : S.fits table (clause.set row) = true := by
  unfold updateRows at h
  split_ifs at h with _ hfits
  by_contra hnot
  refine hfits (List.any_eq_true.mpr ⟨row, hrow, ?_⟩)
  simpa [hvisible, hselected] using hnot

theorem deleteRows_eq_ok {selected : Row table → Bool}
    (h : policy.deleteRows S db table selected = .ok db') :
    policy.grants .delete table = true ∧
      db' = S.delete db
        (Schema.only table fun row => policy.visible table row && selected row) := by
  unfold deleteRows at h
  split_ifs at h with hgrant
  cases h
  exact ⟨by simpa using hgrant, rfl⟩

/-- Whatever a session may see or write belongs to one tenant. -/
structure Confines (S : Schema Table Key Row) (policy : Policy Row) (tenant : Key) : Prop where
  visible : ∀ verb table row, policy.grants verb table = true →
    policy.visible table row = true → S.tenant table row = some tenant
  check : ∀ verb table row, policy.grants verb table = true →
    policy.check table row = true → S.tenant table row = some tenant

namespace Confines

theorem insertRow (confines : policy.Confines S tenant) (sound : S.Sound db) {row : Row table}
    (h : policy.insertRow S db table row = .ok db')
    (hwithin : ∀ fk ∈ S.foreignKeys table, ∀ key, fk.ref row = some key →
      S.KeyWithin db tenant fk.parent key) : S.Sound db' ∧ S.Isolated tenant db db' := by
  obtain ⟨rfl, hgrant, hcheck, _, hfresh, hresolved⟩ := insertRow_eq_ok h
  have howner := confines.check _ _ _ hgrant hcheck
  have hrow := Schema.insertable_of_within howner hfresh hresolved hwithin
  exact ⟨Schema.sound_insert sound hrow, Schema.isolated_insert sound hrow howner⟩

theorem updateRows (confines : policy.Confines S tenant) (sound : S.Sound db)
    {selected : Row table → Bool} {clause : SetClause S table}
    (h : policy.updateRows S db table selected clause = .ok db') :
    S.Sound db' ∧ S.Isolated tenant db db' := by
  obtain ⟨hgrant, rfl⟩ := updateRows_eq_ok h
  refine ⟨Schema.sound_update sound clause _, Schema.isolated_update clause _ ?_⟩
  intro row _ hsel
  exact confines.visible _ _ _ hgrant (Bool.and_eq_true_iff.mp hsel).1

theorem deleteRows (confines : policy.Confines S tenant) (sound : S.Sound db)
    {selected : Row table → Bool} (h : policy.deleteRows S db table selected = .ok db') :
    S.Sound db' ∧ S.Isolated tenant db db' := by
  obtain ⟨hgrant, rfl⟩ := deleteRows_eq_ok h
  refine ⟨Schema.sound_delete sound _, Schema.isolated_delete sound _ ?_⟩
  intro other row _ hsel
  obtain ⟨row', hrow, hselected⟩ := Schema.only_iff.mp hsel
  cases hrow
  exact confines.visible _ _ _ hgrant (Bool.and_eq_true_iff.mp hselected).1

end Confines

end Policy

end Relational
