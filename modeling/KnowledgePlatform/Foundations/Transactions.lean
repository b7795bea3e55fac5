import KnowledgePlatform.Foundations.RowSecurity

/-!
# Transactions as lists of writes

What a transaction does to the database is the list of its writing statements,
executed one after the other under the policy of its session (`Executes`).

`Served` is what a transaction of a confined session leaves behind: a sound
database, the rows of the other tenants as they were, and every key that was
known to belong to the tenant still belonging to it.  The last part lets a
session insert references to rows it read in an earlier statement.

A statement fails with a data error when a value it stores does not fit its
column (`execute_eq_dataError_iff`), so the stored rows always do
(`fitting_execute`).
-/

namespace Relational

variable {Table Key : Type} {Row : Table → Type}

/-- A statement that writes. -/
inductive Write (S : Schema Table Key Row)
  | insert (table : Table) (row : Row table)
  | update (table : Table) (selected : Row table → Bool) (clause : SetClause S table)
  | delete (table : Table) (selected : Row table → Bool)

/-- The references an insertion makes satisfy `P`. -/
def Write.References {S : Schema Table Key Row} (P : Table → Key → Prop) : Write S → Prop
  | insert table row => ∀ fk ∈ S.foreignKeys table, ∀ key, fk.ref row = some key → P fk.parent key
  | update _ _ _ | delete _ _ => True

/-- The key an insertion uses satisfies `P`. -/
def Write.Inserts {S : Schema Table Key Row} (P : Table → Key → Prop) : Write S → Prop
  | insert table row => P table (S.key table row)
  | update _ _ _ | delete _ _ => True

/-- Every stored row fits its columns. -/
def Schema.Fitting (S : Schema Table Key Row) (db : Database Row) : Prop :=
  ∀ table, ∀ row ∈ db table, S.fits table row = true

/-- The values a statement stores fit their columns. -/
def Write.Fits {S : Schema Table Key Row} (policy : Policy Row) (db : Database Row) :
    Write S → Prop
  | insert table row => S.fits table row = true
  | update table selected clause => ∀ row ∈ db table, policy.visible table row = true →
      selected row = true → S.fits table (clause.set row) = true
  | delete _ _ => True

/-- The statement is one its session has the privilege for. -/
def Write.Granted {S : Schema Table Key Row} (policy : Policy Row) : Write S → Prop
  | insert table _ => policy.grants .insert table = true
  | update table _ _ => policy.grants .update table = true
  | delete table _ => policy.grants .delete table = true

variable [DecidableEq Table] [DecidableEq Key]

namespace Policy

/-- Execute one statement. -/
def execute (S : Schema Table Key Row) (policy : Policy Row) (db : Database Row) :
    Write S → Except StatementError (Database Row)
  | .insert table row => policy.insertRow S db table row
  | .update table selected clause => policy.updateRows S db table selected clause
  | .delete table selected => policy.deleteRows S db table selected

/-- The statements succeed one after the other and leave `db'`. -/
def Executes (S : Schema Table Key Row) (policy : Policy Row) :
    Database Row → List (Write S) → Database Row → Prop
  | db, [], db' => db = db'
  | db, write :: writes, db' => ∃ middle,
      policy.execute S db write = .ok middle ∧ Executes S policy middle writes db'

variable {S : Schema Table Key Row} {policy : Policy Row} {db db' db'' : Database Row}

@[simp] theorem executes_nil : Executes S policy db [] db' ↔ db = db' := Iff.rfl

@[simp] theorem executes_cons {write : Write S} {writes : List (Write S)} :
    Executes S policy db (write :: writes) db' ↔
      ∃ middle, policy.execute S db write = .ok middle ∧ Executes S policy middle writes db' :=
  Iff.rfl

theorem executes_append {first second : List (Write S)} :
    Executes S policy db (first ++ second) db' ↔
      ∃ middle, Executes S policy db first middle ∧ Executes S policy middle second db' := by
  induction first generalizing db with
  | nil => simp
  | cons write writes ih =>
      simp only [List.cons_append, executes_cons, ih]
      constructor
      · rintro ⟨next, hwrite, middle, hfirst, hsecond⟩
        exact ⟨middle, ⟨next, hwrite, hfirst⟩, hsecond⟩
      · rintro ⟨middle, ⟨next, hwrite, hfirst⟩, hsecond⟩
        exact ⟨next, hwrite, middle, hfirst, hsecond⟩

/-- A relation that composes and relates the databases before and after each of the
statements relates the ends. -/
theorem Executes.rel {R : Database Row → Database Row → Prop} (hrefl : ∀ db, R db db)
    (htrans : ∀ {first second third}, R first second → R second third → R first third)
    {writes : List (Write S)} (h : policy.Executes S db writes db')
    (hwrite : ∀ write ∈ writes, ∀ first second,
      policy.execute S first write = .ok second → R first second) : R db db' := by
  induction writes generalizing db with
  | nil =>
      cases h
      exact hrefl _
  | cons write writes ih =>
      obtain ⟨middle, hfirst, hrest⟩ := h
      exact htrans (hwrite write List.mem_cons_self db middle hfirst)
        (ih hrest fun later hlater => hwrite later (List.mem_cons_of_mem _ hlater))

/-- What each statement preserves, the statements preserve. -/
theorem Executes.preserves {P : Database Row → Prop} {writes : List (Write S)}
    (h : policy.Executes S db writes db')
    (hwrite : ∀ write ∈ writes, ∀ first second,
      policy.execute S first write = .ok second → P first → P second) : P db → P db' :=
  h.rel (R := fun first second => P first → P second) (fun _ => id)
    (fun hfirst hsecond => hsecond ∘ hfirst) hwrite

/-- Insertions into one table append their rows. -/
theorem executes_inserts {table : Table} {rows : List (Row table)}
    (h : Executes S policy db (rows.map fun row => Write.insert table row) db') :
    db' table = db table ++ rows := by
  induction rows generalizing db with
  | nil =>
      cases h
      exact (List.append_nil _).symm
  | cons row rows ih =>
      obtain ⟨middle, hinsert, hrest⟩ := h
      obtain ⟨rfl, _⟩ := insertRow_eq_ok hinsert
      rw [ih hrest, Database.insert_self, List.append_assoc, List.singleton_append]

/-! ## Data errors -/

/-- A statement fails with a data error when it is granted and stores a value that does
not fit its column. -/
theorem execute_eq_dataError_iff {write : Write S} :
    policy.execute S db write = .error .dataError ↔
      write.Granted policy ∧ ¬write.Fits policy db := by
  cases write with
  | insert table row =>
      simp only [execute, insertRow, Write.Granted, Write.Fits]
      split_ifs <;> simp_all
  | update table selected clause =>
      simp only [execute, updateRows, Write.Granted, Write.Fits]
      split_ifs <;> simp_all [and_assoc]
  | delete table selected =>
      simp only [execute, deleteRows, Write.Granted, Write.Fits]
      split_ifs <;> simp_all

/-- A database whose rows fit stays so, as the database checks what is stored and setting
a reference to NULL needs no space. -/
theorem fitting_execute (hclear : ∀ table, ∀ fk ∈ S.foreignKeys table, fk.onDelete = .setNull →
      ∀ row, S.fits table row = true → S.fits table (fk.clear row) = true)
    {write : Write S} (h : policy.execute S db write = .ok db') (hfitting : S.Fitting db) :
    S.Fitting db' := by
  intro other found hfound
  cases write with
  | insert table row =>
      obtain ⟨rfl, _, _, hfits, _⟩ := insertRow_eq_ok h
      rcases Database.mem_insert.mp hfound with hold | hnew
      · exact hfitting other found hold
      · cases hnew
        exact hfits
  | update table selected clause =>
      obtain ⟨_, rfl⟩ := updateRows_eq_ok h
      by_cases hother : other = table
      · subst hother
        rw [Database.update_self] at hfound
        obtain ⟨row, hrow, rfl⟩ := List.mem_map.mp hfound
        split
        · next hselected =>
            obtain ⟨hvisible, hsel⟩ := Bool.and_eq_true_iff.mp hselected
            exact fits_of_updateRows h hrow hvisible hsel
        · exact hfitting _ row hrow
      · rw [Database.update_of_ne _ hother] at hfound
        exact hfitting other found hfound
  | delete table selected =>
      obtain ⟨_, rfl⟩ := deleteRows_eq_ok h
      obtain ⟨row, hrow, _, rfl⟩ := Database.mem_prune.mp hfound
      exact Schema.nullify_induction (P := fun row => S.fits other row = true)
        (hclear other) (hfitting other row hrow)

end Policy

namespace Schema

variable {S : Schema Table Key Row} {db db' db'' : Database Row} {table : Table} {tenant : Key}

/-! ## Known keys -/

omit [DecidableEq Table] [DecidableEq Key] in
theorem keyWithin_prune {keep : ∀ table, Row table → Bool}
    {rewrite : ∀ table, Row table → Row table} (hkeeps : S.Keeps rewrite) {key : Key}
    (hwithin : S.KeyWithin db tenant table key) :
    S.KeyWithin (db.prune keep rewrite) tenant table key := by
  intro found hfound hkey
  obtain ⟨row, hrow, _, rfl⟩ := Database.mem_prune.mp hfound
  rw [hkeeps.key] at hkey
  rw [hkeeps.tenant]
  exact hwithin row hrow hkey

omit [DecidableEq Key] in
/-- A new row of the tenant takes no key away from it. -/
theorem keyWithin_insert {other : Table} {row : Row other} (howner : S.tenant other row = some tenant)
    {key : Key} (hwithin : S.KeyWithin db tenant table key) :
    S.KeyWithin (db.insert other row) tenant table key := by
  intro found hfound hkey
  rcases Database.mem_insert.mp hfound with hold | hnew
  · exact hwithin found hold hkey
  · cases hnew
    exact howner

/-! ## Untouched tables -/

/-- A set of tables that contains the tables its members reference. -/
def ClosedAbove (S : Schema Table Key Row) (tables : Table → Prop) : Prop :=
  ∀ table, tables table → ∀ fk ∈ S.foreignKeys table, tables fk.parent

omit [DecidableEq Table] in
/-- A deletion takes no row of the tables above the one it selects from. -/
theorem removed_of_closedAbove {tables : Table → Prop} (hclosed : S.ClosedAbove tables)
    {target : ∀ table, Row table → Bool}
    (htarget : ∀ table, tables table → ∀ row, target table row = false) :
    ∀ table, tables table → ∀ row, S.removed db target table row = false := by
  intro table
  induction hrank : S.rank table using Nat.strong_induction_on generalizing table with
  | _ rank ih =>
      intro hmember row
      rw [Bool.eq_false_iff, Ne, removed_iff]
      rintro (htaken | ⟨fk, hfk, _, parent, _, _, hremoved⟩)
      · rw [htarget table hmember row] at htaken
        cases htaken
      · have hlt : S.rank fk.parent < rank := hrank ▸ S.rank_parent table fk hfk
        rw [ih _ hlt fk.parent rfl (hclosed table hmember fk hfk) parent] at hremoved
        cases hremoved

/-- The statement leaves a table as it is. -/
def Spares (S : Schema Table Key Row) (table : Table) (write : Write S) : Prop :=
  ∀ (policy : Policy Row) (db db' : Database Row),
    policy.execute S db write = .ok db' → db' table = db table

theorem spares_insert {other : Table} {row : Row other} (hne : table ≠ other) :
    S.Spares table (.insert other row) := by
  intro policy db db' h
  obtain ⟨rfl, _⟩ := Policy.insertRow_eq_ok h
  exact Database.insert_of_ne row hne

theorem spares_update {other : Table} {selected : Row other → Bool} {clause : SetClause S other}
    (hne : table ≠ other) : S.Spares table (.update other selected clause) := by
  intro policy db db' h
  obtain ⟨_, rfl⟩ := Policy.updateRows_eq_ok h
  exact Database.update_of_ne _ hne

theorem spares_delete {tables : Table → Prop} (hclosed : S.ClosedAbove tables) {other : Table}
    {selected : Row other → Bool} (hother : ¬tables other) (htable : tables table) :
    S.Spares table (.delete other selected) := by
  intro policy db db' h
  obtain ⟨_, rfl⟩ := Policy.deleteRows_eq_ok h
  have htarget : ∀ table, tables table → ∀ row, only other
      (fun row => policy.visible other row && selected row) table row = false := by
    intro table hmember row
    unfold only
    rw [Function.update_of_ne]
    rintro rfl
    exact hother hmember
  have hstay : S.ParentsStay db (only other fun row => policy.visible other row && selected row)
      table := fun fk hfk parent _ =>
    removed_of_closedAbove hclosed htarget fk.parent (hclosed table htable fk hfk) parent
  rw [delete_of_parentsStay hstay]
  refine List.filter_eq_self.mpr fun row _ => ?_
  rw [htarget table htable row]
  rfl

/-- Statements that leave a table as it is, one after the other. -/
theorem apply_of_spares {policy : Policy Row} {writes : List (Write S)}
    (h : policy.Executes S db writes db') (hspares : ∀ write ∈ writes, S.Spares table write) :
    db' table = db table :=
  h.rel (R := fun first second => second table = first table) (fun _ => rfl)
    (fun hfirst hsecond => hsecond.trans hfirst) fun write hwrite => hspares write hwrite policy

/-! ## Keys that stay known -/

/-- Every key in use was in use before, or was inserted. -/
theorem keys_executes {policy : Policy Row} {writes : List (Write S)} {P : Table → Key → Prop}
    (h : policy.Executes S db writes db') (hinserts : ∀ write ∈ writes, write.Inserts P) :
    ∀ table, ∀ row' ∈ db' table,
      (∃ row ∈ db table, S.key table row = S.key table row' ∧
        S.tenant table row = S.tenant table row') ∨ P table (S.key table row') := by
  refine h.rel (R := fun first second => ∀ table, ∀ row' ∈ second table,
    (∃ row ∈ first table, S.key table row = S.key table row' ∧
      S.tenant table row = S.tenant table row') ∨ P table (S.key table row')) ?_ ?_ ?_
  · exact fun _ table row hrow => .inl ⟨row, hrow, rfl, rfl⟩
  · intro first second third hfirst hsecond table row' hrow'
    rcases hsecond table row' hrow' with ⟨between, hbetween, hkey, htenant⟩ | hinserted
    · rw [← hkey, ← htenant]
      exact hfirst table between hbetween
    · exact .inr hinserted
  · intro write hmem first second hwrite table row' hrow'
    have hinsert := hinserts write hmem
    have hprune : ∀ {keep rewrite}, S.Keeps rewrite → second = first.prune keep rewrite →
        ∃ row ∈ first table, S.key table row = S.key table row' ∧
          S.tenant table row = S.tenant table row' := by
      rintro keep rewrite hkeeps rfl
      obtain ⟨row, hrow, _, rfl⟩ := Database.mem_prune.mp hrow'
      exact ⟨row, hrow, (hkeeps.key table row).symm, (hkeeps.tenant table row).symm⟩
    cases write with
    | insert other row =>
        obtain ⟨rfl, _⟩ := Policy.insertRow_eq_ok hwrite
        rcases Database.mem_insert.mp hrow' with hold | hnew
        · exact .inl ⟨row', hold, rfl, rfl⟩
        · cases hnew
          exact .inr hinsert
    | update other selected clause =>
        obtain ⟨_, hsecond⟩ := Policy.updateRows_eq_ok hwrite
        rw [Database.update_eq_prune] at hsecond
        exact .inl (hprune (keeps_set clause _) hsecond)
    | delete other selected =>
        obtain ⟨_, hsecond⟩ := Policy.deleteRows_eq_ok hwrite
        exact .inl (hprune (keeps_nullify _) hsecond)

/-- A key stays known to belong to a tenant, whatever statements are executed,
unless a row is inserted under it. -/
theorem keyWithin_executes {policy : Policy Row} {writes : List (Write S)} {key : Key}
    (h : policy.Executes S db writes db')
    (havoids : ∀ write ∈ writes, write.Inserts fun other key' => (other, key') ≠ (table, key))
    (hwithin : S.KeyWithin db tenant table key) : S.KeyWithin db' tenant table key := by
  intro row' hrow' hkey
  rcases keys_executes h havoids table row' hrow' with ⟨row, hrow, hsame, htenant⟩ | hinserted
  · rw [← htenant]
    exact hwithin row hrow (hsame.trans hkey)
  · exact absurd (congrArg (Prod.mk table) hkey) hinserted

/-- What a transaction of one tenant leaves behind. -/
structure Served (S : Schema Table Key Row) (tenant : Key) (db db' : Database Row) : Prop where
  sound : S.Sound db'
  isolated : S.Isolated tenant db db'
  within : ∀ table key, S.KeyWithin db tenant table key → S.KeyWithin db' tenant table key

namespace Served

omit [DecidableEq Table] in
theorem refl (sound : S.Sound db) : S.Served tenant db db :=
  ⟨sound, Isolated.refl tenant db, fun _ _ h => h⟩

omit [DecidableEq Table] in
theorem trans (hfirst : S.Served tenant db db') (hsecond : S.Served tenant db' db'') :
    S.Served tenant db db'' :=
  ⟨hsecond.sound, hfirst.isolated.trans hsecond.isolated,
    fun table key h => hsecond.within table key (hfirst.within table key h)⟩

end Served

end Schema

namespace Policy.Confines

variable {S : Schema Table Key Row} {policy : Policy Row} {db db' : Database Row} {tenant : Key}

/-- A statement of a confined session serves its tenant. -/
theorem execute (confines : policy.Confines S tenant) (sound : S.Sound db) {write : Write S}
    (hwithin : write.References (S.KeyWithin db tenant))
    (h : policy.execute S db write = .ok db') : S.Served tenant db db' := by
  cases write with
  | insert table row =>
      obtain ⟨hsound, hisolated⟩ := confines.insertRow sound h hwithin
      obtain ⟨rfl, hgrant, hcheck, _⟩ := insertRow_eq_ok h
      exact ⟨hsound, hisolated, fun _ _ =>
        Schema.keyWithin_insert (confines.check _ _ _ hgrant hcheck)⟩
  | update table selected clause =>
      obtain ⟨hsound, hisolated⟩ := confines.updateRows sound h
      obtain ⟨_, rfl⟩ := updateRows_eq_ok h
      refine ⟨hsound, hisolated, fun _ _ hkey => ?_⟩
      rw [Database.update_eq_prune]
      exact Schema.keyWithin_prune (Schema.keeps_set clause _) hkey
  | delete table selected =>
      obtain ⟨hsound, hisolated⟩ := confines.deleteRows sound h
      obtain ⟨_, rfl⟩ := deleteRows_eq_ok h
      exact ⟨hsound, hisolated, fun _ _ hkey =>
        Schema.keyWithin_prune (Schema.keeps_nullify _) hkey⟩

/-- A transaction of a confined session serves its tenant, as long as it inserts
references only to keys that belonged to the tenant when it began. -/
theorem executes (confines : policy.Confines S tenant) (sound : S.Sound db)
    {writes : List (Write S)} (h : Executes S policy db writes db')
    (hwithin : ∀ write ∈ writes, write.References (S.KeyWithin db tenant)) :
    S.Served tenant db db' := by
  induction writes generalizing db with
  | nil =>
      cases h
      exact Schema.Served.refl sound
  | cons write writes ih =>
      obtain ⟨middle, hwrite, hwrites⟩ := h
      have hfirst := confines.execute sound (hwithin write List.mem_cons_self) hwrite
      refine hfirst.trans (ih hfirst.sound hwrites fun later hlater => ?_)
      have hlater := hwithin later (List.mem_cons_of_mem _ hlater)
      cases later with
      | insert table row =>
          exact fun fk hfk key href => hfirst.within _ _ (hlater fk hfk key href)
      | update => trivial
      | delete => trivial

end Policy.Confines

end Relational
