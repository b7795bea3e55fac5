import Mathlib.Data.List.Chain
import Mathlib.Order.Bounds.Basic
import Mathlib.Tactic

/-!
# Overlapping windows over a list

A window is a range of positions of a list.  A list is cut into overlapping
windows when every window starts inside the window before it and ends strictly
after it.  Each window then repeats a tail of the one before; `reassemble`
leaves these tails out and gives the list back (`reassemble_slices`).

`Carries` fixes the overlap: the tail that is repeated is the longest one whose
weight stays within a budget.
-/

namespace Foundations

variable {α : Type*}

/-- The positions from `start` up to, but not including, `stop`. -/
structure Window where
  start : ℕ
  stop : ℕ
  deriving DecidableEq, Repr

namespace Window

/-- The entries of a list at the positions of a window. -/
def slice (window : Window) (xs : List α) : List α := (xs.take window.stop).drop window.start

theorem length_slice {window : Window} {xs : List α} (hstop : window.stop ≤ xs.length) :
    (window.slice xs).length = window.stop - window.start := by
  simp [slice, hstop]

theorem drop_slice (window : Window) (count : ℕ) (xs : List α) :
    (window.slice xs).drop count = slice ⟨window.start + count, window.stop⟩ xs := by
  simp [slice, List.drop_drop]

theorem slice_self (position : ℕ) (xs : List α) : slice ⟨position, position⟩ xs = [] := by
  simp [slice]

/-- Neighbouring windows join. -/
theorem slice_append {start middle stop : ℕ} (xs : List α) (hstart : start ≤ middle)
    (hstop : middle ≤ stop) :
    slice ⟨start, middle⟩ xs ++ slice ⟨middle, stop⟩ xs = slice ⟨start, stop⟩ xs := by
  have hcut : xs.take stop = xs.take middle ++ slice ⟨middle, stop⟩ xs := by
    have hsplit := (List.take_append_drop middle (xs.take stop)).symm
    rwa [List.take_take, min_eq_left hstop] at hsplit
  have hwhole : slice ⟨start, stop⟩ xs =
      (xs.take middle ++ slice ⟨middle, stop⟩ xs).drop start := by
    rw [← hcut]
    rfl
  by_cases hlength : middle ≤ xs.length
  · rw [hwhole, List.drop_append_of_le_length (by simp [hstart, hlength.trans' hstart])]
    rfl
  · have hempty : slice ⟨middle, stop⟩ xs = [] := by
      refine List.drop_eq_nil_of_le ?_
      rw [List.length_take]
      exact (min_le_right _ _).trans (Nat.le_of_lt (not_le.mp hlength))
    rw [hwhole, hempty]
    simp [slice]

/-- A window grows by the next entry. -/
theorem slice_succ {start stop : ℕ} {xs : List α} (hstart : start ≤ stop)
    (hstop : stop < xs.length) :
    slice ⟨start, stop + 1⟩ xs = slice ⟨start, stop⟩ xs ++ [xs[stop]] := by
  rw [← slice_append xs hstart (Nat.le_succ stop)]
  have hlength : (xs.take stop).length = stop := by
    rw [List.length_take, min_eq_left hstop.le]
  have hlast : slice ⟨stop, stop + 1⟩ xs = [xs[stop]] := by
    unfold slice
    rw [List.take_add_one, List.getElem?_eq_getElem hstop, List.drop_append_of_le_length hlength.ge,
      List.drop_eq_nil_of_le hlength.le]
    rfl
  rw [hlast]

/-! ## Overlapping covers -/

/-- The next window starts inside this one and ends strictly after it. -/
structure Overlaps (window next : Window) : Prop where
  start_le : window.start ≤ next.start
  start_le_stop : next.start ≤ window.stop
  stop_lt : window.stop < next.stop

/-- How many entries each window repeats of those before `position`. -/
def repeated : ℕ → List Window → List ℕ
  | _, [] => []
  | position, window :: rest => (position - window.start) :: repeated window.stop rest

/-- Put the contents of the windows together, leaving out what each repeats. -/
def reassemble (windows : List Window) (pieces : List (List α)) : List α :=
  (List.zipWith (fun count piece => piece.drop count) (repeated 0 windows) pieces).flatten

/-- The last of a list of overlapping windows ends last. -/
theorem stop_le_getLast : ∀ (window : Window) (rest : List Window),
    List.IsChain Overlaps (window :: rest) → ∀ other ∈ window :: rest,
      other.stop ≤ ((window :: rest).getLast (List.cons_ne_nil _ _)).stop := by
  intro window rest
  induction rest generalizing window with
  | nil => simp
  | cons next rest ih =>
      intro hchain other hother
      obtain ⟨hnext, hrest⟩ := List.isChain_cons_cons.mp hchain
      rcases List.mem_cons.mp hother with rfl | hother
      · exact hnext.stop_lt.le.trans (ih next hrest next List.mem_cons_self)
      · exact ih next hrest other hother

/-- From a position inside the first window on, the contents of overlapping
windows give back the entries up to the end of the last one. -/
theorem flatten_repeated (xs : List α) : ∀ (position : ℕ) (window : Window) (rest : List Window),
    List.IsChain Overlaps (window :: rest) → window.start ≤ position → position ≤ window.stop →
      (List.zipWith (fun count piece => piece.drop count) (repeated position (window :: rest))
        ((window :: rest).map fun window => window.slice xs)).flatten =
      slice ⟨position, ((window :: rest).getLast (List.cons_ne_nil _ _)).stop⟩ xs := by
  intro position window rest
  induction rest generalizing position window with
  | nil =>
      intro _ hstart _
      simp [repeated, drop_slice, Nat.add_sub_cancel' hstart]
  | cons next rest ih =>
      intro hchain hstart hstop
      obtain ⟨hoverlaps, hrest⟩ := List.isChain_cons_cons.mp hchain
      have hlast := stop_le_getLast next rest hrest next List.mem_cons_self
      have hfirst : (window.slice xs).drop (position - window.start) =
          slice ⟨position, window.stop⟩ xs := by
        rw [drop_slice, Nat.add_sub_cancel' hstart]
      have htail := ih window.stop next hrest hoverlaps.start_le_stop hoverlaps.stop_lt.le
      rw [repeated, List.map_cons, List.zipWith_cons_cons, List.flatten_cons, htail, hfirst,
        slice_append xs hstop (hoverlaps.stop_lt.le.trans hlast)]
      rfl

/-- Overlapping windows that start at the front give back the list up to the
end of the last one. -/
theorem reassemble_slices (xs : List α) {window : Window} {rest : List Window}
    (hchain : List.IsChain Overlaps (window :: rest)) (hfront : window.start = 0) :
    reassemble (window :: rest) ((window :: rest).map fun window => window.slice xs) =
      xs.take ((window :: rest).getLast (List.cons_ne_nil _ _)).stop := by
  unfold reassemble
  rw [flatten_repeated xs 0 window rest hchain hfront.le (Nat.zero_le _)]
  rfl

/-! ## Weighted overlaps -/

/-- The next window starts at the first position from which the rest of this
window weighs no more than the budget. -/
def Carries (weight : List α → ℤ) (budget : ℤ) (xs : List α) (window next : Window) : Prop :=
  IsLeast {start | window.start ≤ start ∧ start ≤ window.stop ∧
    weight (slice ⟨start, window.stop⟩ xs) ≤ budget} next.start

end Window

end Foundations
