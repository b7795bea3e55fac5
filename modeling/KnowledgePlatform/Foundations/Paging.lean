import Mathlib.Data.List.Basic
import Mathlib.Order.Defs.LinearOrder
import Mathlib.Tactic

/-!
# Pages of a descending list

A list of rows in descending order of a key is read page by page.  Behind the rows
with a greater key stands a row with this key (`getElem?_rank`), however rows with
equal keys are arranged.  So the page a key is on follows from the number of greater
keys alone, and rows that are added meanwhile can only move it to a later page.
-/

namespace Foundations

variable {α K : Type} [LinearOrder K] {key : α → K} {rows : List α} {row : α}

/-- The rows are in descending order of their keys. -/
def Descending (key : α → K) (rows : List α) : Prop :=
  rows.Pairwise fun row other => key other ≤ key row

/-- How many rows have a greater key. -/
def rank (key : α → K) (bound : K) (rows : List α) : ℕ := rows.countP fun row => bound < key row

/-- The page with this number, counted from 0. -/
def pageOf (size number : ℕ) (rows : List α) : List α := (rows.drop (number * size)).take size

theorem rank_eq_zero (h : ∀ other ∈ rows, key other ≤ key row) : rank key (key row) rows = 0 := by
  refine List.countP_eq_zero.mpr fun other hother => ?_
  simpa using h other hother

/-- In descending order, behind the rows with greater keys comes one with this key. -/
theorem getElem?_rank (hsorted : Descending key rows) (hrow : row ∈ rows) :
    ∃ found, rows[rank key (key row) rows]? = some found ∧ key found = key row := by
  induction rows with
  | nil => cases hrow
  | cons first rest ih =>
      obtain ⟨hfirst, hrest⟩ := List.pairwise_cons.mp hsorted
      by_cases hgreater : key row < key first
      · have hmem : row ∈ rest := by
          rcases List.mem_cons.mp hrow with rfl | hmem
          · exact absurd hgreater (lt_irrefl _)
          · exact hmem
        have hrank : rank key (key row) (first :: rest) = rank key (key row) rest + 1 := by
          simp [rank, hgreater]
        rw [hrank, List.getElem?_cons_succ]
        exact ih hrest hmem
      · -- no later row has a greater key either, so the first one has this key
        have hle : key first ≤ key row := not_lt.mp hgreater
        have hge : key row ≤ key first := by
          rcases List.mem_cons.mp hrow with rfl | hmem
          · exact le_refl _
          · exact hfirst row hmem
        have hrank : rank key (key row) (first :: rest) = 0 := by
          refine rank_eq_zero fun other hother => ?_
          rcases List.mem_cons.mp hother with rfl | hmem
          · exact hle
          · exact (hfirst other hmem).trans hle
        rw [hrank]
        exact ⟨first, rfl, le_antisymm hle hge⟩

/-- The page a key is on. -/
theorem mem_pageOf {size number : ℕ} (hsorted : Descending key rows) (hrow : row ∈ rows)
    (hfrom : number * size ≤ rank key (key row) rows)
    (hto : rank key (key row) rows < (number + 1) * size) :
    ∃ found ∈ pageOf size number rows, key found = key row := by
  obtain ⟨found, hfound, hkey⟩ := getElem?_rank hsorted hrow
  have hoffset : rank key (key row) rows - number * size < size := by
    rw [Nat.add_mul, Nat.one_mul] at hto
    omega
  refine ⟨found, List.mem_of_getElem? (i := rank key (key row) rows - number * size) ?_, hkey⟩
  rw [pageOf, List.getElem?_take_of_lt hoffset, List.getElem?_drop, Nat.add_sub_cancel' hfrom]
  exact hfound

/-- A row does not count itself. -/
theorem rank_lt_length (key : α → K) (hrow : row ∈ rows) :
    rank key (key row) rows < rows.length := by
  refine List.countP_lt_length_iff.mpr ⟨row, hrow, ?_⟩
  simp

theorem length_pageOf {size number : ℕ} :
    (pageOf size number rows).length = min size (rows.length - number * size) := by
  rw [pageOf, List.length_take, List.length_drop]

end Foundations
