import KnowledgePlatform.Foundations.Program
import KnowledgePlatform.Foundations.Transactions

/-!
# Noninterference

Two databases look alike to a tenant when they hold the same rows of the tenant,
in the same order (`SameRows`); the rows of the others may be anything.  A
session whose policy shows exactly the rows of one tenant (`Policy.Shows`) reads
the same from both, and whatever statement it executes on both, they still look
alike.  For a deletion this needs `Sound`: what cascades to a row of the tenant
comes from rows of the tenant.

`Program.Agrees` is the same for programs: successful runs from related states
give the same value and end in related states.  It is put together along the
structure of a program, so that a whole transaction agrees when its statements do.
-/

namespace Foundations.Program

variable {State Fault α β : Type}

/-- Successful runs from states related by `pre` give the same value and end in states
related by `post`. -/
def Agrees (pre post : State → State → Prop) (program : Program State Fault α) : Prop :=
  ∀ before before' after after' value value', pre before before' →
    program.Runs before value after → program.Runs before' value' after' →
      value = value' ∧ post after after'

variable {pre middle post : State → State → Prop}

theorem Agrees.mono {pre' post' : State → State → Prop} {program : Program State Fault α}
    (h : program.Agrees pre post) (hpre : ∀ before before', pre' before before' → pre before before')
    (hpost : ∀ after after', post after after' → post' after after') :
    program.Agrees pre' post' := by
  intro before before' after after' value value' hrelated hrun hrun'
  obtain ⟨hvalue, hafter⟩ := h _ _ _ _ _ _ (hpre _ _ hrelated) hrun hrun'
  exact ⟨hvalue, hpost _ _ hafter⟩

theorem agrees_pure {value : α} : (pure value : Program State Fault α).Agrees pre pre := by
  intro before before' after after' first second hrelated hrun hrun'
  obtain ⟨rfl, rfl⟩ := runs_pure.mp hrun
  obtain ⟨rfl, rfl⟩ := runs_pure.mp hrun'
  exact ⟨rfl, hrelated⟩

theorem agrees_throw {fault : Fault} : (throw fault : Program State Fault α).Agrees pre post :=
  fun _ _ _ _ _ _ _ hrun => absurd hrun runs_throw

theorem Agrees.bind {program : Program State Fault β} {next : β → Program State Fault α}
    (hfirst : program.Agrees pre middle) (hnext : ∀ value, (next value).Agrees middle post) :
    (program >>= next).Agrees pre post := by
  intro before before' after after' value value' hrelated hrun hrun'
  obtain ⟨first, between, hrun, hrest⟩ := runs_bind.mp hrun
  obtain ⟨first', between', hrun', hrest'⟩ := runs_bind.mp hrun'
  obtain ⟨rfl, hbetween⟩ := hfirst _ _ _ _ _ _ hrelated hrun hrun'
  exact hnext first _ _ _ _ _ _ hbetween hrest hrest'

theorem Agrees.map {program : Program State Fault β} {f : β → α}
    (h : program.Agrees pre post) : (f <$> program).Agrees pre post := by
  rw [map_eq_pure_bind]
  exact h.bind fun _ => agrees_pure

theorem agrees_raiseIf {condition : Prop} [Decidable condition] {fault : Fault} :
    (raiseIf condition fault : Program State Fault Unit).Agrees pre pre := by
  unfold raiseIf
  split
  · exact agrees_throw
  · exact agrees_pure

theorem agrees_orRaise {fault : Fault} {found : Option α} :
    (orRaise fault found : Program State Fault α).Agrees pre pre := by
  cases found with
  | none => exact agrees_throw
  | some value => exact agrees_pure

theorem Agrees.mapFault {translate : Fault → Fault} {program : Program State Fault α}
    (h : program.Agrees pre post) : (program.mapFault translate).Agrees pre post := by
  intro before before' after after' value value' hrelated hrun hrun'
  exact h _ _ _ _ _ _ hrelated (runs_mapFault.mp hrun) (runs_mapFault.mp hrun')

end Foundations.Program

namespace Relational

variable {Table Key : Type} {Row : Table → Type} [DecidableEq Key]

namespace Schema

variable (S : Schema Table Key Row)

/-- Whether the tenant column of the row holds the tenant. -/
def isOf (tenant : Key) (table : Table) (row : Row table) : Bool :=
  decide (S.tenant table row = some tenant)

/-- The databases hold the same rows of the tenant. -/
def SameRows (tenant : Key) (db db' : Database Row) : Prop :=
  ∀ table, (db table).filter (S.isOf tenant table) = (db' table).filter (S.isOf tenant table)

/-- References lead to tables with a tenant column. -/
def Rooted : Prop :=
  ∀ table, ∀ fk ∈ S.foreignKeys table, ∀ parent, S.tenant fk.parent parent ≠ none

variable {S} {tenant : Key} {db db' : Database Row} {table : Table}

omit [DecidableEq Key] in
theorem isOf_iff [DecidableEq Key] {row : Row table} :
    S.isOf tenant table row = true ↔ S.tenant table row = some tenant :=
  decide_eq_true_iff

theorem SameRows.symm (h : S.SameRows tenant db db') : S.SameRows tenant db' db :=
  fun table => (h table).symm

theorem SameRows.trans {db'' : Database Row} (hfirst : S.SameRows tenant db db')
    (hsecond : S.SameRows tenant db' db'') : S.SameRows tenant db db'' :=
  fun table => (hfirst table).trans (hsecond table)

theorem SameRows.mem_iff (h : S.SameRows tenant db db') {row : Row table}
    (hrow : S.isOf tenant table row = true) : row ∈ db table ↔ row ∈ db' table := by
  have hfilter : row ∈ (db table).filter (S.isOf tenant table) ↔
      row ∈ (db' table).filter (S.isOf tenant table) := by rw [h table]
  simpa [List.mem_filter, hrow] using hfilter

/-- What a row of the tenant refers to is of the tenant. -/
theorem isOf_parent (hrooted : S.Rooted) (sound : S.Sound db) {row : Row table}
    (hrow : row ∈ db table) (hof : S.isOf tenant table row = true)
    {fk : ForeignKey Table Key (Row table)} (hfk : fk ∈ S.foreignKeys table)
    {parent : Row fk.parent} (hparent : parent ∈ db fk.parent)
    (href : fk.ref row = some (S.key fk.parent parent)) :
    S.isOf tenant fk.parent parent = true := by
  have howned : S.ownedBy db tenant table row = true := ownedBy_iff.mpr (.inl (isOf_iff.mp hof))
  rw [sound.coherent table row hrow fk hfk parent hparent href tenant] at howned
  rcases ownedBy_iff.mp howned with htenant | ⟨hnone, _⟩
  · exact isOf_iff.mpr htenant
  · exact absurd hnone (hrooted table fk hfk parent)

/-! ## Changes that keep databases alike -/

section Changes

variable [DecidableEq Table]

theorem SameRows.insert (h : S.SameRows tenant db db') (row : Row table) :
    S.SameRows tenant (db.insert table row) (db'.insert table row) := by
  intro other
  by_cases hother : other = table
  · subst hother
    rw [Database.insert_self, Database.insert_self, List.filter_append, List.filter_append, h other]
  · rw [Database.insert_of_ne _ hother, Database.insert_of_ne _ hother, h other]

omit [DecidableEq Table] in
/-- Rows are dropped and rewritten alike when this is so for those of the tenant. -/
theorem SameRows.prune (h : S.SameRows tenant db db') {keep keep' : ∀ table, Row table → Bool}
    {rewrite rewrite' : ∀ table, Row table → Row table}
    (hof : ∀ table row, S.isOf tenant table (rewrite table row) = S.isOf tenant table row)
    (hof' : ∀ table row, S.isOf tenant table (rewrite' table row) = S.isOf tenant table row)
    (hsame : ∀ table, ∀ row ∈ db table, S.isOf tenant table row = true →
      keep' table row = keep table row ∧ rewrite' table row = rewrite table row) :
    S.SameRows tenant (db.prune keep rewrite) (db'.prune keep' rewrite') := by
  intro table
  have hpruned : ∀ (rows : List (Row table)) (keeps : Row table → Bool)
      (rewrites : Row table → Row table),
      (∀ row, S.isOf tenant table (rewrites row) = S.isOf tenant table row) →
      ((rows.filter keeps).map rewrites).filter (S.isOf tenant table) =
        ((rows.filter (S.isOf tenant table)).filter keeps).map rewrites := by
    intro rows keeps rewrites hof
    rw [List.filter_map, List.filter_filter, List.filter_filter]
    refine congrArg (List.map rewrites) (List.filter_congr fun row _ => ?_)
    rw [Function.comp_apply, hof, Bool.and_comm]
  unfold Database.prune
  rw [hpruned _ _ _ (hof table), hpruned _ _ _ (hof' table), ← h table]
  have hfilter : ((db table).filter (S.isOf tenant table)).filter (keep' table) =
      ((db table).filter (S.isOf tenant table)).filter (keep table) :=
    List.filter_congr fun row hrow => by
      obtain ⟨hmem, hrow⟩ := List.mem_filter.mp hrow
      exact (hsame table row hmem hrow).1
  rw [hfilter]
  refine (List.map_congr_left fun row hrow => ?_).symm
  obtain ⟨hmem, hrow⟩ := List.mem_filter.mp (List.mem_filter.mp hrow).1
  exact (hsame table row hmem hrow).2

theorem SameRows.update (h : S.SameRows tenant db db') {rewrite : Row table → Row table}
    (hof : ∀ row, S.isOf tenant table (rewrite row) = S.isOf tenant table row) :
    S.SameRows tenant (db.update table rewrite) (db'.update table rewrite) := by
  have hrewrite : ∀ other row, S.isOf tenant other
      (Function.update (fun _ row => row) table rewrite other row) = S.isOf tenant other row := by
    intro other row
    by_cases hother : other = table
    · subst hother
      rw [Function.update_self]
      exact hof row
    · rw [Function.update_of_ne hother]
  rw [Database.update_eq_prune, Database.update_eq_prune]
  exact h.prune hrewrite hrewrite fun _ _ _ _ => ⟨rfl, rfl⟩

omit [DecidableEq Table] in
/-- A row of the tenant goes in the other database as well. -/
theorem SameRows.removed (h : S.SameRows tenant db db') (hrooted : S.Rooted)
    (sound : S.Sound db) {target : ∀ table, Row table → Bool} :
    ∀ table, ∀ row ∈ db table, S.isOf tenant table row = true →
      S.removed db target table row = true → S.removed db' target table row = true := by
  intro table
  induction hrank : S.rank table using Nat.strong_induction_on generalizing table with
  | _ rank ih =>
      intro row hrow hof hremoved
      rcases removed_iff.mp hremoved with htarget | ⟨fk, hfk, hcascade, parent, hparent, href, hgone⟩
      · exact removed_iff.mpr (.inl htarget)
      · have hlt : S.rank fk.parent < rank := hrank ▸ S.rank_parent table fk hfk
        have hparentOf := isOf_parent hrooted sound hrow hof hfk hparent href
        exact removed_iff.mpr (.inr ⟨fk, hfk, hcascade, parent, (h.mem_iff hparentOf).mp hparent, href,
          ih _ hlt fk.parent rfl parent hparent hparentOf hgone⟩)

omit [DecidableEq Table] in
/-- References of a row of the tenant are cleared in the other database as well. -/
theorem SameRows.dangling (h : S.SameRows tenant db db') (hrooted : S.Rooted) (sound : S.Sound db)
    {target : ∀ table, Row table → Bool} {row : Row table} (hrow : row ∈ db table)
    (hof : S.isOf tenant table row = true) {fk : ForeignKey Table Key (Row table)}
    (hfk : fk ∈ S.dangling db target table row) : fk ∈ S.dangling db' target table row := by
  obtain ⟨hmem, hset, parent, hparent, href, hgone⟩ := mem_dangling.mp hfk
  have hparentOf := isOf_parent hrooted sound hrow hof hmem hparent href
  exact mem_dangling.mpr ⟨hmem, hset, parent, (h.mem_iff hparentOf).mp hparent, href,
    h.removed hrooted sound fk.parent parent hparent hparentOf hgone⟩

omit [DecidableEq Table] in
theorem isOf_nullify {target : ∀ table, Row table → Bool} {row : Row table} :
    S.isOf tenant table (S.nullify db target table row) = S.isOf tenant table row :=
  nullify_induction (P := fun found => S.isOf tenant table found = S.isOf tenant table row)
    (fun fk hfk _ found hfound => by
      unfold isOf at hfound ⊢
      rw [S.tenant_clear table fk hfk, hfound]) rfl

omit [DecidableEq Table] in
/-- Deletions of the same rows keep sound databases alike. -/
theorem SameRows.delete (h : S.SameRows tenant db db') (hrooted : S.Rooted) (sound : S.Sound db)
    (sound' : S.Sound db') {target : ∀ table, Row table → Bool} :
    S.SameRows tenant (S.delete db target) (S.delete db' target) := by
  refine h.prune (fun _ _ => isOf_nullify) (fun _ _ => isOf_nullify) fun table row hrow hof => ?_
  have hrow' := (h.mem_iff hof).mp hrow
  constructor
  · refine congrArg (!·) (Bool.eq_iff_iff.mpr ⟨?_, ?_⟩)
    · exact h.symm.removed hrooted sound' table row hrow' hof
    · exact h.removed hrooted sound table row hrow hof
  · have hdangling : S.dangling db' target table row = S.dangling db target table row := by
      refine List.filter_congr fun fk hfk => ?_
      have hiff : fk ∈ S.dangling db' target table row ↔ fk ∈ S.dangling db target table row :=
        ⟨h.symm.dangling hrooted sound' hrow' hof, h.dangling hrooted sound hrow hof⟩
      simp only [Schema.dangling, List.mem_filter, hfk, true_and] at hiff
      exact Bool.eq_iff_iff.mpr hiff
    rw [nullify, nullify, hdangling]

end Changes

end Schema

namespace Policy

/-- The policy shows the rows of the tenant, and no others. -/
def Shows (S : Schema Table Key Row) (policy : Policy Row) (tenant : Key) : Prop :=
  ∀ table row, policy.visible table row = S.isOf tenant table row

variable {S : Schema Table Key Row} {policy : Policy Row} {tenant : Key} {db db' : Database Row}
  {table : Table}

/-- A session reads the same. -/
theorem Shows.selectRows (hshows : policy.Shows S tenant) (h : S.SameRows tenant db db')
    (selected : Row table → Bool) :
    policy.selectRows db table selected = policy.selectRows db' table selected := by
  have hrows : ∀ rows : List (Row table),
      rows.filter (fun row => policy.visible table row && selected row) =
        (rows.filter (S.isOf tenant table)).filter selected := by
    intro rows
    rw [List.filter_filter]
    exact List.filter_congr fun row _ => by rw [hshows, Bool.and_comm]
  unfold Policy.selectRows
  rw [hrows, hrows, h table]

/-- A scan that is exact, in that hiding rows before it or after it is the same, returns
the same. -/
theorem Shows.scanRows (hshows : policy.Shows S tenant) (h : S.SameRows tenant db db')
    {scan : List (Row table) → List (Row table)}
    (hexact : ∀ visible rows, (scan rows).filter visible = scan (rows.filter visible)) :
    policy.scanRows db table scan = policy.scanRows db' table scan := by
  have hvisible : policy.visible table = S.isOf tenant table := funext (hshows table)
  unfold Policy.scanRows
  rw [hexact, hexact, hvisible, h table]

variable [DecidableEq Table]

/-- A session writes the same. -/
theorem sameRows_execute (h : S.SameRows tenant db db') {write : Write S}
    (hdelete : ∀ table selected, write = .delete table selected →
      S.Rooted ∧ S.Sound db ∧ S.Sound db') {after after' : Database Row}
    (hexecute : policy.execute S db write = .ok after)
    (hexecute' : policy.execute S db' write = .ok after') : S.SameRows tenant after after' := by
  cases write with
  | insert table row =>
      obtain ⟨rfl, _⟩ := insertRow_eq_ok hexecute
      obtain ⟨rfl, _⟩ := insertRow_eq_ok hexecute'
      exact h.insert row
  | update table selected clause =>
      obtain ⟨_, rfl⟩ := updateRows_eq_ok hexecute
      obtain ⟨_, rfl⟩ := updateRows_eq_ok hexecute'
      refine h.update fun row => ?_
      split
      · unfold Schema.isOf
        rw [clause.tenant_set]
      · rfl
  | delete table selected =>
      obtain ⟨hrooted, sound, sound'⟩ := hdelete table selected rfl
      obtain ⟨_, rfl⟩ := deleteRows_eq_ok hexecute
      obtain ⟨_, rfl⟩ := deleteRows_eq_ok hexecute'
      exact h.delete hrooted sound sound'

end Policy

end Relational
