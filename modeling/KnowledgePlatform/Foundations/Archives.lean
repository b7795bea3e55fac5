import KnowledgePlatform.Foundations.Transactions

/-!
# Archives

A table is an archive when its rows only ever become more.  What makes it one is
that nothing deletes from the tables its rows cascade from (`Anchored`): then a
deletion takes no row of it, and merely sets references to NULL.  So each row stays at
its place and is changed at most as some relation allows (`Grows`).

Seen through a `view` that shows none of these changes, a statement appends entries to
the table and leaves the earlier ones as they are; `Logs` names the entries it appends.
-/

namespace Relational

variable {Table Key View : Type} {Row : Table → Type} [DecidableEq Table] [DecidableEq Key]
  {S : Schema Table Key Row} {db db' : Database Row} {table : Table} {view : Row table → View}

/-! ## Rows that stay -/

section Grows

variable {α : Type*} {R : α → α → Prop} {rows later : List α}

/-- The rows stay in their order, each changed at most as `R` allows, and others come
after them. -/
def Grows (R : α → α → Prop) (rows later : List α) : Prop :=
  ∃ change added, later = rows.map change ++ added ∧ ∀ row, R row (change row)

theorem grows_refl (hrefl : ∀ row, R row row) (rows : List α) : Grows R rows rows :=
  ⟨id, [], by simp, hrefl⟩

theorem Grows.trans
    (htrans : ∀ first second third, R first second → R second third → R first third)
    {latest : List α} (h : Grows R rows later) (hlater : Grows R later latest) :
    Grows R rows latest := by
  obtain ⟨change, added, rfl, hchange⟩ := h
  obtain ⟨change', added', rfl, hchange'⟩ := hlater
  refine ⟨change' ∘ change, added.map change' ++ added', ?_, ?_⟩
  · rw [List.map_append, List.map_map, List.append_assoc]
  · exact fun row => htrans _ _ _ (hchange row) (hchange' _)

/-- A view that shows none of the changes. -/
theorem Grows.views_extend {β : Type*} {view : α → β} (h : Grows R rows later)
    (hview : ∀ row later, R row later → view later = view row) :
    rows.map view <+: later.map view := by
  obtain ⟨change, added, rfl, hchange⟩ := h
  refine ⟨added.map view, ?_⟩
  rw [List.map_append, List.map_map]
  congr 1
  exact List.map_congr_left fun row _ => (hview row _ (hchange row)).symm

end Grows

namespace Schema

/-- A set of tables that contains the tables its members cascade from. -/
def Anchored (S : Schema Table Key Row) (tables : Table → Prop) : Prop :=
  ∀ table, tables table → ∀ fk ∈ S.foreignKeys table, fk.onDelete = .cascade → tables fk.parent

omit [DecidableEq Table] in
/-- A deletion takes no row of anchored tables it does not select from. -/
theorem removed_of_anchored {tables : Table → Prop} (hanchored : S.Anchored tables)
    {target : ∀ table, Row table → Bool}
    (htarget : ∀ table, tables table → ∀ row, target table row = false) :
    ∀ table, tables table → ∀ row, S.removed db target table row = false := by
  intro table
  induction hrank : S.rank table using Nat.strong_induction_on generalizing table with
  | _ rank ih =>
      intro hmember row
      rw [Bool.eq_false_iff, Ne, removed_iff]
      rintro (htaken | ⟨fk, hfk, hcascade, parent, _, _, hremoved⟩)
      · rw [htarget table hmember row] at htaken
        cases htaken
      · have hlt : S.rank fk.parent < rank := hrank ▸ S.rank_parent table fk hfk
        rw [ih _ hlt fk.parent rfl (hanchored table hmember fk hfk hcascade) parent] at hremoved
        cases hremoved

/-- Whatever the statement is executed on, it changes the rows of the table one by one,
as `R` allows, and neither adds nor takes any. -/
def Rewrites (S : Schema Table Key Row) (table : Table) (R : Row table → Row table → Prop)
    (write : Write S) : Prop :=
  ∀ (policy : Policy Row) (db db' : Database Row), policy.execute S db write = .ok db' →
    ∃ change, db' table = (db table).map change ∧ ∀ row, R row (change row)

section Rewrites

variable {R : Row table → Row table → Prop}

/-- A statement that leaves the table as it is. -/
theorem rewrites_of_spares (hrefl : ∀ row, R row row) {write : Write S} (h : S.Spares table write) :
    S.Rewrites table R write := by
  intro policy db db' hexecute
  exact ⟨id, by rw [h policy db db' hexecute, List.map_id], hrefl⟩

theorem rewrites_update (hrefl : ∀ row, R row row) {selected : Row table → Bool}
    {clause : SetClause S table} (hset : ∀ row, R row (clause.set row)) :
    S.Rewrites table R (.update table selected clause) := by
  intro policy db db' h
  obtain ⟨_, rfl⟩ := Policy.updateRows_eq_ok h
  refine ⟨_, Database.update_self .., fun row => ?_⟩
  split
  · exact hset row
  · exact hrefl row

/-- A deletion from another table sets references of an anchored one to NULL. -/
theorem rewrites_delete {tables : Table → Prop} (hanchored : S.Anchored tables)
    (htable : tables table) (hrefl : ∀ row, R row row)
    (hclear : ∀ fk ∈ S.foreignKeys table, fk.onDelete = .setNull →
      ∀ row current, R row current → R row (fk.clear current)) {other : Table}
    {selected : Row other → Bool} (hother : ¬tables other) :
    S.Rewrites table R (.delete other selected) := by
  intro policy db db' h
  obtain ⟨_, rfl⟩ := Policy.deleteRows_eq_ok h
  have htarget : ∀ table, tables table → ∀ row, only other
      (fun row => policy.visible other row && selected row) table row = false := by
    intro table hmember row
    unfold only
    rw [Function.update_of_ne]
    rintro rfl
    exact hother hmember
  have hstay := @removed_of_anchored _ _ _ _ S db tables hanchored _ htarget table htable
  have hkept : ∀ row ∈ db table, (!S.removed db
      (only other fun row => policy.visible other row && selected row) table row) = true :=
    fun row _ => by rw [hstay row, Bool.not_false]
  refine ⟨S.nullify db (only other fun row => policy.visible other row && selected row) table,
    ?_, ?_⟩
  · simp only [delete, Database.prune, List.filter_eq_self.mpr hkept]
  · intro row
    exact nullify_induction (P := fun current => R row current)
      (fun fk hfk hset current hcurrent => hclear fk hfk hset row current hcurrent) (hrefl row)

/-- Statements that each insert into the table or rewrite it. -/
theorem grows_of_executes (hrefl : ∀ row, R row row)
    (htrans : ∀ first second third, R first second → R second third → R first third)
    {policy : Policy Row} {writes : List (Write S)} (h : policy.Executes S db writes db')
    (hwrites : ∀ write ∈ writes, (∃ row, write = .insert table row) ∨ S.Rewrites table R write) :
    Grows R (db table) (db' table) := by
  refine h.rel (R := fun first second => Grows R (first table) (second table))
    (fun first => grows_refl hrefl (first table))
    (fun hfirst hsecond => Grows.trans htrans hfirst hsecond) ?_
  intro write hwrite first second hexecute
  rcases hwrites write hwrite with ⟨row, rfl⟩ | hrewrites
  · obtain ⟨rfl, _⟩ := Policy.insertRow_eq_ok hexecute
    refine ⟨id, [row], ?_, hrefl⟩
    rw [Database.insert_self, List.map_id]
  · obtain ⟨change, hsecond, hchange⟩ := hrewrites policy first second hexecute
    exact ⟨change, [], by rw [hsecond, List.append_nil], hchange⟩

end Rewrites

/-- Whatever the statement is executed on, it appends these entries to the table
and changes nothing else the view shows. -/
def Logs (S : Schema Table Key Row) (table : Table) (view : Row table → View)
    (write : Write S) (entries : List View) : Prop :=
  ∀ (policy : Policy Row) (db db' : Database Row), policy.execute S db write = .ok db' →
    (db' table).map view = (db table).map view ++ entries

theorem logs_insert (row : Row table) : S.Logs table view (.insert table row) [view row] := by
  intro policy db db' h
  obtain ⟨rfl, _⟩ := Policy.insertRow_eq_ok h
  rw [Database.insert_self, List.map_append, List.map_singleton]

/-- A statement that leaves the table as it is appends nothing. -/
theorem logs_of_spares {write : Write S} (h : S.Spares table write) :
    S.Logs table view write [] := by
  intro policy db db' hexecute
  rw [h policy db db' hexecute, List.append_nil]

/-- A statement that rewrites the table appends nothing, as long as the changes do not
show. -/
theorem logs_of_rewrites {R : Row table → Row table → Prop} {write : Write S}
    (h : S.Rewrites table R write) (hview : ∀ row later, R row later → view later = view row) :
    S.Logs table view write [] := by
  intro policy db db' hexecute
  obtain ⟨change, hdb, hchange⟩ := h policy db db' hexecute
  rw [hdb, List.map_map, List.append_nil]
  exact List.map_congr_left fun row _ => hview row _ (hchange row)

/-- The statements append these entries, one after the other. -/
def LogsAll (S : Schema Table Key Row) (table : Table) (view : Row table → View)
    (writes : List (Write S)) (entries : List View) : Prop :=
  ∀ (policy : Policy Row) (db db' : Database Row), policy.Executes S db writes db' →
    (db' table).map view = (db table).map view ++ entries

theorem logsAll_nil : S.LogsAll table view [] [] := by
  rintro policy db _ rfl
  exact (List.append_nil _).symm

theorem logsAll_append {first second : List (Write S)} {entries later : List View}
    (hfirst : S.LogsAll table view first entries) (hsecond : S.LogsAll table view second later) :
    S.LogsAll table view (first ++ second) (entries ++ later) := by
  intro policy db db' h
  obtain ⟨middle, hbefore, hafter⟩ := Policy.executes_append.mp h
  rw [hsecond policy middle db' hafter, hfirst policy db middle hbefore, List.append_assoc]

theorem logsAll_single {write : Write S} {entries : List View}
    (h : S.Logs table view write entries) : S.LogsAll table view [write] entries := by
  rintro policy db db' ⟨_, hexecute, rfl⟩
  exact h policy db _ hexecute

theorem logsAll_cons {write : Write S} {writes : List (Write S)} {entries later : List View}
    (hwrite : S.Logs table view write entries) (hrest : S.LogsAll table view writes later) :
    S.LogsAll table view (write :: writes) (entries ++ later) :=
  logsAll_append (logsAll_single hwrite) hrest

/-- Statements of which none appends anything. -/
theorem logsAll_of_forall {writes : List (Write S)}
    (h : ∀ write ∈ writes, S.Logs table view write []) : S.LogsAll table view writes [] := by
  induction writes with
  | nil => exact logsAll_nil
  | cons write writes ih =>
      exact logsAll_cons (h write List.mem_cons_self)
        (ih fun later hlater => h later (List.mem_cons_of_mem _ hlater))

/-- What is read off the entries is appended with them. -/
theorem logsAll_map {Reading : Type} {writes : List (Write S)} {entries : List View}
    (h : S.LogsAll table view writes entries) (reading : View → Reading) :
    S.LogsAll table (fun row => reading (view row)) writes (entries.map reading) := by
  intro policy db db' hexecutes
  have hentries := congrArg (List.map reading) (h policy db db' hexecutes)
  simpa only [List.map_append, List.map_map, Function.comp_def] using hentries

end Schema

end Relational
