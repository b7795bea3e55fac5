import Mathlib.Data.List.Nodup
import Mathlib.Data.List.Pairwise
import Mathlib.Tactic

/-!
# Relational databases with referential actions

A database maps each table to the list of its rows.  A schema adds what the
database enforces beyond the column types: primary keys, unique constraints,
foreign keys with `ON DELETE CASCADE` and `ON DELETE SET NULL`, and, for
multi-tenant schemas, the tenant column of each table.

A row of a table without a tenant column belongs to the tenant of the row it
references (`ownedBy`).  `Sound` collects what holds of every database the
constraints were enforced on, together with the one property they do not
enforce: no foreign key links rows of two tenants (`coherent`).

Updates and deletions with their referential actions are both instances of
`prune`, which drops some rows and rewrites the others; what `prune` needs in
order to keep `Sound`, and to leave the rows of a tenant alone, is proved once.
-/

namespace Relational

/-- What happens to a referencing row when the row it references is deleted. -/
inductive OnDelete
  | cascade
  | setNull
  deriving DecidableEq, Repr

/-- A foreign key of a table with rows in `Record`: the table it points into,
the key it holds (`none` for NULL), its referential action and the row with the
reference set to NULL. -/
structure ForeignKey (Table Key Record : Type) where
  parent : Table
  ref : Record → Option Key
  onDelete : OnDelete
  clear : Record → Record := id

/-- The rows of every table. -/
abbrev Database {Table : Type} (Row : Table → Type) := ∀ table : Table, List (Row table)

/-- Keys, constraints and tenant columns of a database.  `clash` is the unique
constraints besides the primary key, `fits` the column types.  The foreign keys
form no cycle (`rank_parent`), and setting a reference to NULL changes nothing
else a constraint reads. -/
structure Schema (Table Key : Type) (Row : Table → Type) where
  key : ∀ table, Row table → Key
  tenant : ∀ table, Row table → Option Key
  foreignKeys : ∀ table, List (ForeignKey Table Key (Row table))
  clash : ∀ table, Row table → Row table → Bool
  fits : ∀ table, Row table → Bool
  rank : Table → ℕ
  rank_parent : ∀ table, ∀ fk ∈ foreignKeys table, rank fk.parent < rank table
  key_clear : ∀ table, ∀ fk ∈ foreignKeys table, ∀ row, key table (fk.clear row) = key table row
  tenant_clear : ∀ table, ∀ fk ∈ foreignKeys table, ∀ row,
    tenant table (fk.clear row) = tenant table row
  clash_clear : ∀ table, ∀ fk ∈ foreignKeys table, ∀ row other,
    clash table (fk.clear row) other = clash table row other ∧
      clash table other (fk.clear row) = clash table other row
  ref_clear : ∀ table, ∀ fk ∈ foreignKeys table, ∀ other ∈ foreignKeys table, ∀ row,
    other.ref (fk.clear row) = other.ref row ∨ other.ref (fk.clear row) = none
  ref_clear_self : ∀ table, ∀ fk ∈ foreignKeys table, fk.onDelete = .setNull → ∀ row,
    fk.ref (fk.clear row) = none
  tenant_of_setNull : ∀ table, ∀ fk ∈ foreignKeys table, fk.onDelete = .setNull → ∀ row,
    tenant table row ≠ none

/-- A row that is the only one to satisfy a condition is found. -/
theorem find_of_unique {Record : Type} {rows : List Record} {row : Record}
    {selected : Record → Bool} (hrow : row ∈ rows) (hselected : selected row = true)
    (hunique : ∀ other ∈ rows, selected other = true → other = row) :
    rows.find? selected = some row := by
  cases hfound : rows.find? selected with
  | none => exact absurd hselected (List.find?_eq_none.mp hfound row hrow)
  | some found =>
      exact congrArg some (hunique found (List.mem_of_find?_eq_some hfound)
        (List.find?_some hfound))

variable {Table Key : Type} {Row : Table → Type}

/-! ## Operations without constraints -/

namespace Database

/-- Drop the rows that are not kept and rewrite the others. -/
def prune (db : Database Row) (keep : ∀ table, Row table → Bool)
    (rewrite : ∀ table, Row table → Row table) : Database Row :=
  fun table => ((db table).filter (keep table)).map (rewrite table)

theorem mem_prune {db : Database Row} {keep : ∀ table, Row table → Bool}
    {rewrite : ∀ table, Row table → Row table} {table : Table} {found : Row table} :
    found ∈ db.prune keep rewrite table ↔
      ∃ row ∈ db table, keep table row = true ∧ rewrite table row = found := by
  simp [prune, and_assoc]

variable [DecidableEq Table]

/-- Append a row to a table. -/
def insert (db : Database Row) (table : Table) (row : Row table) : Database Row :=
  Function.update db table (db table ++ [row])

/-- Rewrite the rows of one table. -/
def update (db : Database Row) (table : Table) (rewrite : Row table → Row table) : Database Row :=
  Function.update db table ((db table).map rewrite)

variable {db : Database Row} {table other : Table}

@[simp] theorem insert_self (row : Row table) : db.insert table row table = db table ++ [row] :=
  Function.update_self ..

@[simp] theorem insert_of_ne (row : Row table) (hne : other ≠ table) :
    db.insert table row other = db other :=
  Function.update_of_ne hne ..

@[simp] theorem update_self (rewrite : Row table → Row table) :
    db.update table rewrite table = (db table).map rewrite :=
  Function.update_self ..

@[simp] theorem update_of_ne (rewrite : Row table → Row table) (hne : other ≠ table) :
    db.update table rewrite other = db other :=
  Function.update_of_ne hne ..

/-- The rows after an insertion: the old ones and the new one. -/
theorem mem_insert {row : Row table} {found : Row other} :
    found ∈ db.insert table row other ↔
      found ∈ db other ∨ (⟨other, found⟩ : Σ table, Row table) = ⟨table, row⟩ := by
  by_cases hother : other = table
  · subst hother
    simp
  · simp [hother]

/-- An update keeps every row and rewrites those of its table. -/
theorem update_eq_prune (rewrite : Row table → Row table) :
    db.update table rewrite =
      db.prune (fun _ _ => true) (Function.update (fun _ row => row) table rewrite) := by
  funext other
  by_cases hother : other = table
  · subst hother
    simp [prune]
  · simp [prune, hother]

end Database

namespace Schema

variable [DecidableEq Key] (S : Schema Table Key Row)

/-! ## Deletion with referential actions -/

/-- Whether a row goes when the rows `target` are deleted: it is one of them,
or it references by a cascading key a row that goes.  `fuel` bounds the length
of the chain of references followed. -/
def doomed (db : Database Row) (target : ∀ table, Row table → Bool) :
    ℕ → ∀ table, Row table → Bool
  | 0, table, row => target table row
  | fuel + 1, table, row => target table row ||
      (S.foreignKeys table).any fun fk => decide (fk.onDelete = .cascade) &&
        (db fk.parent).any fun parent =>
          decide (fk.ref row = some (S.key fk.parent parent)) &&
            doomed db target fuel fk.parent parent

/-- Whether a row goes when the rows `target` are deleted.  A chain of
references out of a table is no longer than its rank. -/
def removed (db : Database Row) (target : ∀ table, Row table → Bool) (table : Table)
    (row : Row table) : Bool :=
  S.doomed db target (S.rank table) table row

/-- The `SET NULL` references of a row that point to rows that go. -/
def dangling (db : Database Row) (target : ∀ table, Row table → Bool) (table : Table)
    (row : Row table) : List (ForeignKey Table Key (Row table)) :=
  (S.foreignKeys table).filter fun fk => decide (fk.onDelete = .setNull) &&
    (db fk.parent).any fun parent => decide (fk.ref row = some (S.key fk.parent parent)) &&
      S.removed db target fk.parent parent

/-- The surviving row: its dangling references are cleared. -/
def nullify (db : Database Row) (target : ∀ table, Row table → Bool) (table : Table)
    (row : Row table) : Row table :=
  (S.dangling db target table row).foldl (fun current fk => fk.clear current) row

/-- Delete the rows `target`, with the referential actions this triggers. -/
def delete (db : Database Row) (target : ∀ table, Row table → Bool) : Database Row :=
  db.prune (fun table row => !S.removed db target table row) (S.nullify db target)

variable {S} {db : Database Row} {target : ∀ table, Row table → Bool} {table : Table}
  {row : Row table}

theorem doomed_eq_removed : ∀ (fuel : ℕ) (table : Table) (row : Row table),
    S.rank table ≤ fuel → S.doomed db target fuel table row = S.removed db target table row := by
  intro fuel
  induction fuel using Nat.strong_induction_on with
  | _ fuel ih =>
      intro table row hrank
      unfold removed
      rcases hrank.eq_or_lt with heq | hlt
      · rw [heq]
      obtain ⟨fuel, rfl⟩ := Nat.exists_eq_succ_of_ne_zero (Nat.ne_zero_of_lt hlt)
      cases hcases : S.rank table with
      | zero =>
          have hnone : S.foreignKeys table = [] := List.eq_nil_iff_forall_not_mem.mpr
            fun fk hfk => by simpa [hcases] using S.rank_parent table fk hfk
          simp [doomed, hnone]
      | succ rank =>
          have hstep : ∀ fk ∈ S.foreignKeys table, ∀ parent,
              S.doomed db target fuel fk.parent parent =
                S.doomed db target rank fk.parent parent := by
            intro fk hfk parent
            have hparent := S.rank_parent table fk hfk
            rw [ih fuel (by omega) _ _ (by omega), ih rank (by omega) _ _ (by omega)]
          rw [Bool.eq_iff_iff]
          simp only [doomed, Bool.or_eq_true, List.any_eq_true, Bool.and_eq_true,
            decide_eq_true_eq]
          refine or_congr_right ⟨?_, ?_⟩
          · rintro ⟨fk, hfk, hcascade, parent, hparent, href, hdoomed⟩
            exact ⟨fk, hfk, hcascade, parent, hparent, href, hstep fk hfk parent ▸ hdoomed⟩
          · rintro ⟨fk, hfk, hcascade, parent, hparent, href, hdoomed⟩
            exact ⟨fk, hfk, hcascade, parent, hparent, href, hstep fk hfk parent ▸ hdoomed⟩

/-- The rows that go are the targets and what cascades from rows that go. -/
theorem removed_iff : S.removed db target table row = true ↔
    target table row = true ∨ ∃ fk ∈ S.foreignKeys table, fk.onDelete = .cascade ∧
      ∃ parent ∈ db fk.parent, fk.ref row = some (S.key fk.parent parent) ∧
        S.removed db target fk.parent parent = true := by
  rw [← doomed_eq_removed (S.rank table + 1) table row (Nat.le_succ _)]
  simp only [doomed, Bool.or_eq_true, List.any_eq_true, Bool.and_eq_true, decide_eq_true_eq]
  refine or_congr_right ⟨?_, ?_⟩
  · rintro ⟨fk, hfk, hcascade, parent, hparent, href, hdoomed⟩
    refine ⟨fk, hfk, hcascade, parent, hparent, href, ?_⟩
    rwa [doomed_eq_removed _ _ _ (Nat.le_of_lt (S.rank_parent table fk hfk))] at hdoomed
  · rintro ⟨fk, hfk, hcascade, parent, hparent, href, hremoved⟩
    refine ⟨fk, hfk, hcascade, parent, hparent, href, ?_⟩
    rwa [doomed_eq_removed _ _ _ (Nat.le_of_lt (S.rank_parent table fk hfk))]

/-- A property the targets have, and that passes along cascading references,
holds of every row that goes. -/
theorem removed_induction {P : ∀ table, Row table → Prop}
    (htarget : ∀ table, ∀ row ∈ db table, target table row = true → P table row)
    (hcascade : ∀ table, ∀ row ∈ db table, ∀ fk ∈ S.foreignKeys table, ∀ parent ∈ db fk.parent,
      fk.ref row = some (S.key fk.parent parent) → P fk.parent parent → P table row) :
    ∀ table, ∀ row ∈ db table, S.removed db target table row = true → P table row := by
  intro table
  induction hrank : S.rank table using Nat.strong_induction_on generalizing table with
  | _ rank ih =>
      intro row hrow hremoved
      rcases removed_iff.mp hremoved with htarget' | ⟨fk, hfk, _, parent, hparent, href, hgone⟩
      · exact htarget table row hrow htarget'
      · have hlt : S.rank fk.parent < rank := hrank ▸ S.rank_parent table fk hfk
        exact hcascade table row hrow fk hfk parent hparent href
          (ih _ hlt fk.parent rfl parent hparent hgone)

theorem mem_dangling {fk : ForeignKey Table Key (Row table)} :
    fk ∈ S.dangling db target table row ↔ fk ∈ S.foreignKeys table ∧ fk.onDelete = .setNull ∧
      ∃ parent ∈ db fk.parent, fk.ref row = some (S.key fk.parent parent) ∧
        S.removed db target fk.parent parent = true := by
  simp [dangling]

/-- A property of rows that clearing `SET NULL` references keeps. -/
theorem nullify_induction {P : Row table → Prop}
    (hclear : ∀ fk ∈ S.foreignKeys table, fk.onDelete = .setNull → ∀ row, P row → P (fk.clear row))
    (hrow : P row) : P (S.nullify db target table row) := by
  suffices hfold : ∀ (fks : List (ForeignKey Table Key (Row table))) (current : Row table),
      (∀ fk ∈ fks, fk ∈ S.foreignKeys table ∧ fk.onDelete = .setNull) → P current →
        P (fks.foldl (fun current fk => fk.clear current) current) from
    hfold _ _ (fun fk hfk => ⟨(mem_dangling.mp hfk).1, (mem_dangling.mp hfk).2.1⟩) hrow
  intro fks
  induction fks with
  | nil => intro current _ hcurrent; exact hcurrent
  | cons fk rest ih =>
      intro current hmem hcurrent
      obtain ⟨hfk, hset⟩ := hmem fk List.mem_cons_self
      exact ih _ (fun other hother => hmem other (List.mem_cons_of_mem _ hother))
        (hclear fk hfk hset current hcurrent)

/-- A dangling reference is cleared, and stays so while the others are. -/
theorem ref_nullify_of_dangling {fk : ForeignKey Table Key (Row table)}
    (hfk : fk ∈ S.dangling db target table row) :
    fk.ref (S.nullify db target table row) = none := by
  have hkeys : ∀ other ∈ S.dangling db target table row,
      other ∈ S.foreignKeys table ∧ other.onDelete = .setNull := fun other hother =>
    ⟨(mem_dangling.mp hother).1, (mem_dangling.mp hother).2.1⟩
  obtain ⟨hmem, hset⟩ := hkeys fk hfk
  have hstays : ∀ (fks : List (ForeignKey Table Key (Row table))) (current : Row table),
      (∀ other ∈ fks, other ∈ S.foreignKeys table) → fk.ref current = none →
        fk.ref (fks.foldl (fun current other => other.clear current) current) = none := by
    intro fks
    induction fks with
    | nil => intro _ _ hnone; exact hnone
    | cons other rest ih =>
        intro current hfks hnone
        refine ih _ (fun next hnext => hfks next (List.mem_cons_of_mem _ hnext)) ?_
        rcases S.ref_clear table other (hfks other List.mem_cons_self) fk hmem current with h | h
        · rw [h, hnone]
        · exact h
  unfold nullify
  obtain ⟨before, after, hsplit⟩ := List.append_of_mem hfk
  rw [hsplit, List.foldl_append, List.foldl_cons]
  refine hstays after _ (fun other hother => (hkeys other ?_).1)
    (S.ref_clear_self table fk hmem hset _)
  rw [hsplit]
  exact List.mem_append_right _ (List.mem_cons_of_mem _ hother)

/-- A row whose references all cascade stays as it is, or goes. -/
theorem nullify_of_cascades (hcascade : ∀ fk ∈ S.foreignKeys table, fk.onDelete = .cascade) :
    S.nullify db target table row = row := by
  have hnone : S.dangling db target table row = [] := by
    refine List.eq_nil_iff_forall_not_mem.mpr fun fk hfk => ?_
    obtain ⟨hmem, hset, _⟩ := mem_dangling.mp hfk
    rw [hcascade fk hmem] at hset
    cases hset
  rw [nullify, hnone, List.foldl_nil]

/-- A deletion takes rows from a table whose references all cascade, and
rewrites none. -/
theorem delete_of_cascades (hcascade : ∀ fk ∈ S.foreignKeys table, fk.onDelete = .cascade) :
    S.delete db target table = (db table).filter fun row => !S.removed db target table row := by
  unfold delete Database.prune
  have hrewrite : S.nullify db target table = id := funext fun _ => nullify_of_cascades hcascade
  rw [hrewrite, List.map_id]

/-! ### Tables whose parents stay -/

/-- No row that a row of this table may reference goes. -/
def ParentsStay (S : Schema Table Key Row) (db : Database Row)
    (target : ∀ table, Row table → Bool) (table : Table) : Prop :=
  ∀ fk ∈ S.foreignKeys table, ∀ parent ∈ db fk.parent, S.removed db target fk.parent parent = false

theorem removed_of_parentsStay (hstay : S.ParentsStay db target table) :
    S.removed db target table row = target table row := by
  rw [Bool.eq_iff_iff, removed_iff]
  refine or_iff_left ?_
  rintro ⟨fk, hfk, _, parent, hparent, _, hremoved⟩
  rw [hstay fk hfk parent hparent] at hremoved
  cases hremoved

theorem nullify_of_parentsStay (hstay : S.ParentsStay db target table) :
    S.nullify db target table row = row := by
  have hnone : S.dangling db target table row = [] := by
    refine List.eq_nil_iff_forall_not_mem.mpr fun fk hfk => ?_
    obtain ⟨hmem, _, parent, hparent, _, hremoved⟩ := mem_dangling.mp hfk
    rw [hstay fk hmem parent hparent] at hremoved
    cases hremoved
  rw [nullify, hnone, List.foldl_nil]

/-- A deletion takes from such a table its targets, and nothing else. -/
theorem delete_of_parentsStay (hstay : S.ParentsStay db target table) :
    S.delete db target table = (db table).filter fun row => !target table row := by
  unfold delete Database.prune
  have hrewrite : S.nullify db target table = id := funext fun _ => nullify_of_parentsStay hstay
  rw [hrewrite, List.map_id]
  exact List.filter_congr fun _ _ => congrArg (!·) (removed_of_parentsStay hstay)

end Schema

end Relational
