import Mathlib.Data.List.Infix
import Mathlib.Tactic

/-!
# Packing a list into groups

The entries of a list are put one after another into an open group.  A rule
looks at what has been packed so far and decides whether the open group is
closed before the next entry; part of a closed group is carried over into the
group that follows it.

Two rules may be compared along the packing of either one: where they agree as
long as a property of the rounds holds, the property holds throughout the one
packing exactly if it holds throughout the other (`throughout_congr`).
-/

namespace Foundations

variable {α : Type*}

/-- The groups that are closed and the open one. -/
structure Groups (α : Type*) where
  closed : List (List α)
  current : List α
  deriving DecidableEq, Repr

namespace Groups

/-- Nothing is packed. -/
def empty : Groups α := ⟨[], []⟩

/-- The rounds up to an entry are the earlier ones and the round of the entry. -/
theorem forall_prefix_concat {P : List α → α → Prop} {before : List α} {x : α} :
    (∀ earlier y, earlier ++ [y] <+: before ++ [x] → P earlier y) ↔
      (∀ earlier y, earlier ++ [y] <+: before → P earlier y) ∧ P before x := by
  constructor
  · intro h
    exact ⟨fun earlier y hearlier => h earlier y (hearlier.trans (List.prefix_append _ _)),
      h before x List.prefix_rfl⟩
  · rintro ⟨hearlier, hlast⟩ earlier y hround
    rcases List.prefix_concat_iff.mp hround with hwhole | hbefore
    · obtain ⟨rfl, heq⟩ := List.append_inj' hwhole rfl
      cases heq
      exact hlast
    · exact hearlier earlier y hbefore

section Rule

variable (closes : Groups α → α → Prop) [∀ groups x, Decidable (closes groups x)]
  (carry : List α → List α)

/-- One entry is packed; the rule is asked first. -/
def push (groups : Groups α) (x : α) : Groups α :=
  if closes groups x then ⟨groups.closed ++ [groups.current], carry groups.current ++ [x]⟩
  else ⟨groups.closed, groups.current ++ [x]⟩

def pack (xs : List α) : Groups α := xs.foldl (push closes carry) empty

/-- In every round of the packing the entry and what is packed before it are so. -/
def Throughout (P : Groups α → α → Prop) (xs : List α) : Prop :=
  ∀ before x, before ++ [x] <+: xs → P (pack closes carry before) x

variable {closes carry} {groups : Groups α} {x : α}

theorem push_of_closes (h : closes groups x) : push closes carry groups x =
    ⟨groups.closed ++ [groups.current], carry groups.current ++ [x]⟩ := if_pos h

theorem push_of_not_closes (h : ¬closes groups x) :
    push closes carry groups x = ⟨groups.closed, groups.current ++ [x]⟩ := if_neg h

theorem pack_concat (before : List α) (x : α) :
    pack closes carry (before ++ [x]) = push closes carry (pack closes carry before) x := by
  rw [pack, List.foldl_append]
  rfl

theorem throughout_concat {P : Groups α → α → Prop} {before : List α} :
    Throughout closes carry P (before ++ [x]) ↔
      Throughout closes carry P before ∧ P (pack closes carry before) x :=
  forall_prefix_concat

end Rule

/-! ## Two rules -/

variable {closes other : Groups α → α → Prop} [∀ groups x, Decidable (closes groups x)]
  [∀ groups x, Decidable (other groups x)] {carry : List α → List α} {P : Groups α → α → Prop}

/-- Rules that agree throughout one packing pack alike. -/
theorem pack_congr {xs : List α}
    (h : Throughout closes carry (fun groups x => closes groups x ↔ other groups x) xs) :
    pack closes carry xs = pack other carry xs := by
  induction xs using List.reverseRecOn with
  | nil => rfl
  | append_singleton before x ih =>
      obtain ⟨hearlier, hlast⟩ := throughout_concat.mp h
      rw [pack_concat, pack_concat, ← ih hearlier]
      by_cases hcloses : closes (pack closes carry before) x
      · rw [push_of_closes hcloses, push_of_closes (hlast.mp hcloses)]
      · rw [push_of_not_closes hcloses, push_of_not_closes (mt hlast.mpr hcloses)]

theorem throughout_of_agree (hagree : ∀ groups x, P groups x → (closes groups x ↔ other groups x))
    {xs : List α} (h : Throughout closes carry P xs) : Throughout other carry P xs := by
  intro before x hround
  have hbefore : Throughout closes carry (fun groups x => closes groups x ↔ other groups x) before := by
    intro earlier y hearlier
    refine hagree _ _ (h earlier y ?_)
    exact hearlier.trans ((List.prefix_append _ _).trans hround)
  rw [← pack_congr hbefore]
  exact h before x hround

/-- Rules that agree wherever the property holds keep it together. -/
theorem throughout_congr (hagree : ∀ groups x, P groups x → (closes groups x ↔ other groups x))
    {xs : List α} : Throughout closes carry P xs ↔ Throughout other carry P xs :=
  ⟨throughout_of_agree hagree, throughout_of_agree fun groups x hP => (hagree groups x hP).symm⟩

end Groups

end Foundations
