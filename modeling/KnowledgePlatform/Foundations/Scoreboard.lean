import Mathlib.Algebra.BigOperators.Group.List.Basic
import Mathlib.Data.List.Sort
import Mathlib.Tactic

/-!
# Scoreboards

Amounts are credited to keys one after another.  The board is a dictionary that
keeps its keys in the order in which they came in (`credit`), and the standings
are the board under a stable sort, highest score first.

So a key stands ahead of another one exactly if its total is higher, or equal
and the key was credited earlier (`Outscores`), and the position of a key is the
number of keys that outscore it (`idxOf_standings`).
-/

namespace Foundations

/-! ## Stable sorting -/

section Sorting

variable {α : Type*} {r R : α → α → Prop} [DecidableRel r] [Std.Total r] [IsTrans α r]

theorem pairwise_orderedInsert {x : α} {l : List α}
    (hl : l.Pairwise fun a b => r a b ∧ (r b a → R a b)) (hx : ∀ b ∈ l, R x b) :
    (l.orderedInsert r x).Pairwise fun a b => r a b ∧ (r b a → R a b) := by
  induction l with
  | nil => exact List.pairwise_singleton _ _
  | cons b l ih =>
      obtain ⟨hb, hrest⟩ := List.pairwise_cons.mp hl
      rw [List.orderedInsert]
      split
      · next hle =>
          refine List.pairwise_cons.mpr ⟨fun c hc => ⟨?_, fun _ => hx c hc⟩, hl⟩
          rcases List.mem_cons.mp hc with rfl | hc
          · exact hle
          · exact IsTrans.trans _ _ _ hle (hb c hc).1
      · next hnot =>
          refine List.pairwise_cons.mpr ⟨fun c hc => ?_, ih hrest fun c hc => hx c ?_⟩
          · rcases List.mem_cons.mp ((List.perm_orderedInsert r x l).subset hc) with rfl | hc
            · exact ⟨(Std.Total.total b c).resolve_right hnot, fun hle => absurd hle hnot⟩
            · exact hb c hc
          · exact List.mem_cons_of_mem _ hc

/-- A stable sort: entries that the order does not tell apart stay in the order they had. -/
theorem pairwise_insertionSort_stable {l : List α} (hl : l.Pairwise R) :
    (l.insertionSort r).Pairwise fun a b => r a b ∧ (r b a → R a b) := by
  induction l with
  | nil => exact List.Pairwise.nil
  | cons x l ih =>
      obtain ⟨hx, hrest⟩ := List.pairwise_cons.mp hl
      refine pairwise_orderedInsert (ih hrest) fun b hb => hx b ?_
      exact (List.perm_insertionSort r l).subset hb

end Sorting

/-- In a list in the order of an asymmetric relation, the position of an entry is the
number of entries ahead of it. -/
theorem idxOf_eq_countP {α : Type*} [DecidableEq α] {R : α → α → Prop} [DecidableRel R]
    (hasymm : ∀ a b, R a b → ¬R b a) {l : List α} (hl : l.Pairwise R) {x : α} (hx : x ∈ l) :
    l.idxOf x = l.countP fun y => decide (R y x) := by
  induction l with
  | nil => cases hx
  | cons y l ih =>
      obtain ⟨hy, hrest⟩ := List.pairwise_cons.mp hl
      by_cases heq : y = x
      · subst heq
        rw [List.idxOf_cons_self, eq_comm, List.countP_eq_zero]
        intro z hz
        rw [decide_eq_true_iff]
        rcases List.mem_cons.mp hz with rfl | hz
        · exact fun h => hasymm _ _ h h
        · exact hasymm _ _ (hy z hz)
      · have hmem : x ∈ l := (List.mem_cons.mp hx).resolve_left (Ne.symm heq)
        rw [List.idxOf_cons_ne _ heq, ih hrest hmem,
          List.countP_cons_of_pos (by simpa using hy x hmem)]

/-! ## The board -/

section Board

variable {K M : Type*} [DecidableEq K]

/-- An amount is credited to a key of a dictionary, given by its items in the order in
which they came in. -/
def credit [Add M] (key : K) (amount : M) : List (K × M) → List (K × M)
  | [] => [(key, amount)]
  | (other, score) :: rest =>
      if other = key then (other, score + amount) :: rest
      else (other, score) :: credit key amount rest

/-- The board after some credits. -/
def board [Add M] (credits : List (K × M)) : List (K × M) :=
  credits.foldl (fun items entry => credit entry.1 entry.2 items) []

/-- What a key is credited in all. -/
def total [AddMonoid M] (credits : List (K × M)) (key : K) : M :=
  ((credits.filter fun entry => entry.1 = key).map Prod.snd).sum

theorem keys_credit [Add M] (key : K) (amount : M) (items : List (K × M)) :
    (credit key amount items).map Prod.fst =
      if key ∈ items.map Prod.fst then items.map Prod.fst else items.map Prod.fst ++ [key] := by
  induction items with
  | nil => rfl
  | cons item rest ih =>
      obtain ⟨other, score⟩ := item
      rw [credit]
      by_cases heq : other = key
      · rw [if_pos heq, if_pos (by simp [heq])]
        rfl
      · have hkey : key ∈ ((other, score) :: rest).map Prod.fst ↔ key ∈ rest.map Prod.fst := by
          rw [List.map_cons, List.mem_cons, or_iff_right (Ne.symm heq)]
        rw [if_neg heq, List.map_cons, ih, if_congr hkey rfl rfl]
        split
        · rfl
        · rfl

variable [AddCommMonoid M]

/-- Other keys keep their scores, and the credited one gains the amount. -/
theorem mem_credit {key : K} {amount : M} {items : List (K × M)} (hnodup : (items.map Prod.fst).Nodup)
    {item : K × M} (hitem : item ∈ credit key amount items) :
    item ∈ items ∧ item.1 ≠ key ∨ item.1 = key ∧
      (item.2 = amount ∧ key ∉ items.map Prod.fst ∨
        ∃ score, (key, score) ∈ items ∧ item.2 = score + amount) := by
  induction items with
  | nil =>
      cases List.mem_singleton.mp hitem
      exact .inr ⟨rfl, .inl ⟨rfl, List.not_mem_nil⟩⟩
  | cons first rest ih =>
      obtain ⟨other, score⟩ := first
      obtain ⟨hfresh, hrest⟩ := List.nodup_cons.mp hnodup
      rw [credit] at hitem
      by_cases heq : other = key
      · subst heq
        rw [if_pos rfl] at hitem
        rcases List.mem_cons.mp hitem with rfl | hlater
        · exact .inr ⟨rfl, .inr ⟨score, List.mem_cons_self, rfl⟩⟩
        · refine .inl ⟨List.mem_cons_of_mem _ hlater, fun hkey => hfresh ?_⟩
          exact List.mem_map.mpr ⟨item, hlater, hkey⟩
      · rw [if_neg heq] at hitem
        rcases List.mem_cons.mp hitem with rfl | hlater
        · exact .inl ⟨List.mem_cons_self, heq⟩
        · rcases ih hrest hlater with ⟨hmem, hne⟩ | ⟨hkey, ⟨hamount, hnew⟩ | ⟨old, hold, hsum⟩⟩
          · exact .inl ⟨List.mem_cons_of_mem _ hmem, hne⟩
          · refine .inr ⟨hkey, .inl ⟨hamount, ?_⟩⟩
            rw [List.map_cons, List.mem_cons, not_or]
            exact ⟨Ne.symm heq, hnew⟩
          · exact .inr ⟨hkey, .inr ⟨old, List.mem_cons_of_mem _ hold, hsum⟩⟩

theorem total_concat (credits : List (K × M)) (key : K) (amount : M) (other : K) :
    total (credits ++ [(key, amount)]) other =
      total credits other + if key = other then amount else 0 := by
  unfold total
  rw [List.filter_append, List.map_append, List.sum_append]
  by_cases heq : key = other <;> simp [heq]

theorem total_of_notMem {credits : List (K × M)} {key : K} (h : key ∉ credits.map Prod.fst) :
    total credits key = 0 := by
  have hnone : credits.filter (fun entry => entry.1 = key) = [] := by
    rw [List.filter_eq_nil_iff]
    intro entry hentry
    rw [decide_eq_true_iff]
    exact fun hkey => h (List.mem_map.mpr ⟨entry, hentry, hkey⟩)
  rw [total, hnone]
  rfl

theorem total_append (credits more : List (K × M)) (key : K) :
    total (credits ++ more) key = total credits key + total more key := by
  rw [total, List.filter_append, List.map_append, List.sum_append]
  rfl

/-- The board holds the keys credited, in the order of their first credits, each with
its total. -/
structure Tallies (credits items : List (K × M)) : Prop where
  keys : ∀ key, key ∈ items.map Prod.fst ↔ key ∈ credits.map Prod.fst
  ordered : (items.map Prod.fst).Pairwise fun key later =>
    (credits.map Prod.fst).idxOf key < (credits.map Prod.fst).idxOf later
  score : ∀ item ∈ items, item.2 = total credits item.1

namespace Tallies

variable {credits items : List (K × M)}

theorem nodup (h : Tallies credits items) : (items.map Prod.fst).Nodup :=
  h.ordered.imp fun hlt heq => absurd (heq ▸ hlt) (lt_irrefl _)

/-- One more credit. -/
theorem credit (h : Tallies credits items) (key : K) (amount : M) :
    Tallies (credits ++ [(key, amount)]) (credit key amount items) where
  keys := by
    intro other
    rw [keys_credit, List.map_append, List.mem_append, ← h.keys]
    split
    · next hmem =>
        refine (or_iff_left_of_imp fun hother => ?_).symm
        cases List.mem_singleton.mp hother
        exact hmem
    · rw [List.mem_append]
      rfl
  ordered := by
    have hold : (items.map Prod.fst).Pairwise fun key' later =>
        ((credits ++ [(key, amount)]).map Prod.fst).idxOf key' <
          ((credits ++ [(key, amount)]).map Prod.fst).idxOf later := by
      refine h.ordered.imp_of_mem fun hkey hlater hlt => ?_
      rw [List.map_append, List.idxOf_append_of_mem ((h.keys _).mp hkey),
        List.idxOf_append_of_mem ((h.keys _).mp hlater)]
      exact hlt
    rw [keys_credit]
    split
    · exact hold
    · next hnew =>
        have hfresh : key ∉ credits.map Prod.fst := mt (h.keys key).mpr hnew
        refine List.pairwise_append.mpr ⟨hold, List.pairwise_singleton _ _, ?_⟩
        intro earlier hearlier later hlater
        cases List.mem_singleton.mp hlater
        have hmem := (h.keys earlier).mp hearlier
        rw [List.map_append, List.idxOf_append_of_mem hmem, List.idxOf_append_of_notMem hfresh]
        exact (List.idxOf_lt_length_of_mem hmem).trans_le (Nat.le_add_right _ _)
  score := by
    intro item hitem
    rw [total_concat]
    rcases mem_credit h.nodup hitem with ⟨hmem, hne⟩ | ⟨rfl, ⟨hamount, hnew⟩ | ⟨score, hmem, hsum⟩⟩
    · rw [if_neg (Ne.symm hne), add_zero]
      exact h.score item hmem
    · rw [if_pos rfl, total_of_notMem (mt (h.keys _).mpr hnew), zero_add, hamount]
    · rw [if_pos rfl, hsum, ← h.score _ hmem]

end Tallies

/-- The board after some credits tallies them. -/
theorem tallies_board (credits : List (K × M)) : Tallies credits (board credits) := by
  induction credits using List.reverseRecOn with
  | nil => exact ⟨fun _ => Iff.rfl, List.Pairwise.nil, fun _ hitem => absurd hitem List.not_mem_nil⟩
  | append_singleton credits entry ih =>
      rw [board, List.foldl_append]
      exact ih.credit entry.1 entry.2

end Board

/-! ## The standings -/

section Standings

variable {K M : Type*} [DecidableEq K] [AddCommMonoid M] [LinearOrder M]

/-- The board, highest score first. -/
def standings (credits : List (K × M)) : List (K × M) :=
  (board credits).insertionSort fun item other => other.2 ≤ item.2

/-- The total of the key is higher, or it is equal and the key was credited earlier. -/
def Outscores (credits : List (K × M)) (key other : K) : Prop :=
  total credits other < total credits key ∨ total credits key = total credits other ∧
    (credits.map Prod.fst).idxOf key < (credits.map Prod.fst).idxOf other

instance (credits : List (K × M)) : DecidableRel (Outscores credits) :=
  fun _ _ => inferInstanceAs (Decidable (_ ∨ _))

variable {credits : List (K × M)} {key other : K}

theorem Outscores.asymm (h : Outscores credits key other) : ¬Outscores credits other key := by
  rintro (hlt | ⟨heq, hlater⟩)
  · rcases h with hgt | ⟨heq, _⟩
    · exact lt_asymm hlt hgt
    · exact hlt.ne heq
  · rcases h with hgt | ⟨_, hearlier⟩
    · exact hgt.ne heq
    · exact lt_asymm hlater hearlier

theorem perm_standings (credits : List (K × M)) : (standings credits).Perm (board credits) :=
  List.perm_insertionSort _ _

theorem mem_standings : key ∈ (standings credits).map Prod.fst ↔ key ∈ credits.map Prod.fst :=
  ((perm_standings credits).map Prod.fst).mem_iff.trans ((tallies_board credits).keys key)

theorem nodup_standings (credits : List (K × M)) : ((standings credits).map Prod.fst).Nodup :=
  ((perm_standings credits).map Prod.fst).nodup_iff.mpr (tallies_board credits).nodup

theorem score_standings {item : K × M} (hitem : item ∈ standings credits) :
    item.2 = total credits item.1 :=
  (tallies_board credits).score item ((perm_standings credits).subset hitem)

/-- The standings are in the order of who outscores whom. -/
theorem pairwise_standings (credits : List (K × M)) :
    ((standings credits).map Prod.fst).Pairwise (Outscores credits) := by
  have hordered := List.pairwise_map.mp (tallies_board credits).ordered
  have hsorted := @pairwise_insertionSort_stable (K × M) (fun item other => other.2 ≤ item.2) _ _
    ⟨fun item other => le_total other.2 item.2⟩ ⟨fun _ _ _ hle hle' => hle'.trans hle⟩ _ hordered
  refine List.pairwise_map.mpr (hsorted.imp_of_mem fun hitem hother hrel => ?_)
  obtain ⟨hle, hstable⟩ := hrel
  rw [Outscores, ← score_standings hitem, ← score_standings hother]
  rcases hle.lt_or_eq with hlt | heq
  · exact .inl hlt
  · exact .inr ⟨heq.symm, hstable heq.ge⟩

/-- The position of a key is the number of keys that outscore it. -/
theorem idxOf_standings (hkey : key ∈ credits.map Prod.fst) :
    ((standings credits).map Prod.fst).idxOf key =
      ((standings credits).map Prod.fst).countP fun other => decide (Outscores credits other key) :=
  idxOf_eq_countP (fun _ _ => Outscores.asymm) (pairwise_standings credits) (mem_standings.mpr hkey)

/-- A key stands ahead of those it outscores. -/
theorem idxOf_lt_of_outscores (hkey : key ∈ credits.map Prod.fst)
    (hother : other ∈ credits.map Prod.fst) (h : Outscores credits key other) :
    ((standings credits).map Prod.fst).idxOf key <
      ((standings credits).map Prod.fst).idxOf other := by
  have hkey' := List.idxOf_lt_length_of_mem (mem_standings.mpr hkey)
  have hother' := List.idxOf_lt_length_of_mem (mem_standings.mpr hother)
  rcases lt_trichotomy (((standings credits).map Prod.fst).idxOf key)
    (((standings credits).map Prod.fst).idxOf other) with hlt | heq | hgt
  · exact hlt
  · cases (List.idxOf_inj (mem_standings.mpr hkey)).mp heq
    exact absurd h h.asymm
  · have hahead := List.pairwise_iff_getElem.mp (pairwise_standings credits) _ _ hother' hkey' hgt
    rw [List.getElem_idxOf hother', List.getElem_idxOf hkey'] at hahead
    exact absurd hahead h.asymm

/-- Credits for the same keys under which fewer keys outscore a key put it no further down. -/
theorem idxOf_standings_le {credits' : List (K × M)}
    (hkeys : ∀ other, other ∈ credits'.map Prod.fst ↔ other ∈ credits.map Prod.fst)
    (h : ∀ other, Outscores credits' other key → Outscores credits other key) :
    ((standings credits').map Prod.fst).idxOf key ≤ ((standings credits).map Prod.fst).idxOf key := by
  have hperm : ((standings credits').map Prod.fst).Perm ((standings credits).map Prod.fst) := by
    refine (List.perm_ext_iff_of_nodup (nodup_standings _) (nodup_standings _)).mpr fun other => ?_
    rw [mem_standings, mem_standings, hkeys]
  by_cases hkey : key ∈ credits.map Prod.fst
  · rw [idxOf_standings hkey, idxOf_standings ((hkeys key).mpr hkey), hperm.countP_eq]
    refine List.countP_mono_left fun other _ hahead => ?_
    exact decide_eq_true (h other (of_decide_eq_true hahead))
  · rw [List.idxOf_of_notMem (mt mem_standings.mp hkey),
      List.idxOf_of_notMem (mt mem_standings.mp (mt (hkeys key).mp hkey)), hperm.length_eq]

end Standings

end Foundations
