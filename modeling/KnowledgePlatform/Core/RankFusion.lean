import KnowledgePlatform.Core.Retrieval
import KnowledgePlatform.Foundations.Scoreboard

/-!
# Reciprocal rank fusion

The scores of the fusion are a scoreboard: every position of every ranking credits
its item with a share (`shares`), and the fused list is the standings
(`reciprocalRankFusion_eq_standings`).  An item of a ranking without repetitions has
one share there, for its position (`total_rankingShares`).

What decides between two items is then a comparison of shares:

* two shares from the first `rrfK + 1` places are more than any single share
  (`rankShare_lt_add`), so items on which both rankings agree come first;
* a share grows as its place gets earlier (`rankShare_lt`), so an item that moves up
  gains and the items it overtakes lose, and no item gets ahead of it.
-/

open Foundations Python

namespace Core

variable {Id : Type} [DecidableEq Id]

/-! ## Shares -/

/-- The shares of the items of a ranking. -/
def rankingShares (rrfK : ℕ) (ranking : List Id) : List (Id × ℚ) :=
  ranking.zipIdx.map fun item => (item.1, rankShare rrfK item.2)

/-- The shares of all rankings, in the order in which they are added. -/
def shares (rankings : List (List Id)) (rrfK : ℕ) : List (Id × ℚ) :=
  rankings.flatMap (rankingShares rrfK)

omit [DecidableEq Id] in
theorem keys_shares (rankings : List (List Id)) (rrfK : ℕ) :
    (shares rankings rrfK).map Prod.fst = rankings.flatten := by
  induction rankings with
  | nil => rfl
  | cons ranking rest ih =>
      rw [shares, List.flatMap_cons, List.map_append, List.flatten_cons, ← ih, rankingShares,
        List.map_map]
      congr 1
      exact List.zipIdx_map_fst 0 ranking

theorem total_shares (rankings : List (List Id)) (rrfK : ℕ) (id : Id) :
    total (shares rankings rrfK) id =
      (rankings.map fun ranking => total (rankingShares rrfK ranking) id).sum := by
  induction rankings with
  | nil => rfl
  | cons ranking rest ih =>
      rw [shares, List.flatMap_cons, total_append, List.map_cons, List.sum_cons, ← ih]
      rfl

theorem addScore_eq_credit (item : Id) (share : ℚ) (scores : List (Id × ℚ)) :
    addScore item share scores = credit item share scores := by
  induction scores with
  | nil => rfl
  | cons first rest ih => rw [addScore, credit, ih]

/-- The fused list is the standings of the shares. -/
theorem reciprocalRankFusion_eq_standings (rankings : List (List Id)) (rrfK : ℕ) :
    reciprocalRankFusion rankings rrfK = standings (shares rankings rrfK) := by
  have hranking : ∀ scores : List (Id × ℚ), ∀ ranking, addRanking rrfK scores ranking =
      (rankingShares rrfK ranking).foldl (fun items entry => credit entry.1 entry.2 items) scores := by
    intro scores ranking
    simp only [addRanking, addScore_eq_credit, rankingShares, List.foldl_map]
  have hboard : rankings.foldl (addRanking rrfK) [] = board (shares rankings rrfK) := by
    rw [board, shares, List.foldl_flatMap]
    exact List.foldl_ext _ _ _ fun scores ranking _ => hranking scores ranking
  rw [reciprocalRankFusion, hboard]
  rfl

/-! ## Exactness -/

/-- The ids of the fused list. -/
def fusedIds (rankings : List (List Id)) (rrfK : ℕ) : List Id :=
  (reciprocalRankFusion rankings rrfK).map Prod.fst

theorem fusedIds_eq (rankings : List (List Id)) (rrfK : ℕ) :
    fusedIds rankings rrfK = (standings (shares rankings rrfK)).map Prod.fst := by
  rw [fusedIds, reciprocalRankFusion_eq_standings]

theorem mem_fusedIds {rankings : List (List Id)} {rrfK : ℕ} {id : Id} :
    id ∈ fusedIds rankings rrfK ↔ ∃ ranking ∈ rankings, id ∈ ranking := by
  rw [fusedIds_eq, mem_standings, keys_shares, List.mem_flatten]

theorem nodup_fusedIds (rankings : List (List Id)) (rrfK : ℕ) : (fusedIds rankings rrfK).Nodup := by
  rw [fusedIds_eq]
  exact nodup_standings _

theorem pairwise_reciprocalRankFusion (rankings : List (List Id)) (rrfK : ℕ) :
    (reciprocalRankFusion rankings rrfK).Pairwise fun item other => other.2 ≤ item.2 ∧
      (item.2 = other.2 → rankings.flatten.idxOf item.1 < rankings.flatten.idxOf other.1) := by
  rw [reciprocalRankFusion_eq_standings]
  refine (List.pairwise_map.mp (pairwise_standings _)).imp_of_mem fun hitem hother hahead => ?_
  rw [score_standings hitem, score_standings hother, ← keys_shares rankings rrfK]
  rcases hahead with hlt | ⟨heq, hearlier⟩
  · exact ⟨hlt.le, fun heq => absurd heq hlt.ne'⟩
  · exact ⟨heq.ge, fun _ => hearlier⟩

/-- The fused list holds the ids of the rankings, each once and with the sum of its
shares, by falling score and, among equal scores, by first occurrence. -/
theorem reciprocalRankFusion_exact (rankings : List (List Id)) (rrfK : ℕ) :
    ((reciprocalRankFusion rankings rrfK).map Prod.fst).Nodup ∧
      (∀ id, id ∈ (reciprocalRankFusion rankings rrfK).map Prod.fst ↔
        ∃ ranking ∈ rankings, id ∈ ranking) ∧
      (∀ id score, (id, score) ∈ reciprocalRankFusion rankings rrfK →
        score = (rankings.map fun ranking =>
          ((ranking.zipIdx.filter fun item => item.1 = id).map fun item =>
            (1 : ℚ) / (rrfK + (item.2 + 1))).sum).sum) ∧
      (reciprocalRankFusion rankings rrfK).Pairwise (fun item other => other.2 ≤ item.2) ∧
      (reciprocalRankFusion rankings rrfK).Pairwise fun item other => item.2 = other.2 →
        rankings.flatten.idxOf item.1 < rankings.flatten.idxOf other.1 := by
  have hpairwise := pairwise_reciprocalRankFusion rankings rrfK
  refine ⟨nodup_fusedIds rankings rrfK, fun id => mem_fusedIds, ?_, hpairwise.imp And.left,
    hpairwise.imp And.right⟩
  intro id score hmem
  rw [reciprocalRankFusion_eq_standings] at hmem
  have hscore : score = total (shares rankings rrfK) id := score_standings hmem
  rw [hscore, total_shares]
  congr 1
  refine List.map_congr_left fun ranking _ => ?_
  rw [total, rankingShares, List.filter_map, List.map_map]
  congr 1
  refine List.map_congr_left fun item _ => ?_
  simp only [Function.comp_apply, rankShare, add_assoc]

/-! ## Rankings without repetitions -/

/-- An earlier place has a larger share. -/
theorem rankShare_lt {rrfK earlier later : ℕ} (h : earlier < later) :
    rankShare rrfK later < rankShare rrfK earlier := by
  unfold rankShare
  refine one_div_lt_one_div_of_lt (by positivity) ?_
  have hcast : (earlier : ℚ) < later := by exact_mod_cast h
  linarith

theorem rankShare_le {rrfK earlier later : ℕ} (h : earlier ≤ later) :
    rankShare rrfK later ≤ rankShare rrfK earlier := by
  rcases h.lt_or_eq with hlt | rfl
  · exact (rankShare_lt hlt).le
  · exact le_rfl

/-- Two shares from the first `rrfK + 1` places are more than a single one. -/
theorem rankShare_lt_add {rrfK first second single : ℕ} (hfirst : first ≤ rrfK)
    (hsecond : second ≤ rrfK) :
    rankShare rrfK single < rankShare rrfK first + rankShare rrfK second := by
  have hhalf : rankShare rrfK 0 < rankShare rrfK rrfK + rankShare rrfK rrfK := by
    unfold rankShare
    rw [← add_div, div_lt_div_iff₀ (by positivity) (by positivity)]
    push_cast
    linarith
  calc rankShare rrfK single ≤ rankShare rrfK 0 := rankShare_le (Nat.zero_le single)
    _ < rankShare rrfK rrfK + rankShare rrfK rrfK := hhalf
    _ ≤ rankShare rrfK first + rankShare rrfK second :=
        add_le_add (rankShare_le hfirst) (rankShare_le hsecond)

/-- The share of an item of a ranking without repetitions. -/
theorem total_rankingShares {rrfK : ℕ} {ranking : List Id} (hnodup : ranking.Nodup) (id : Id) :
    total (rankingShares rrfK ranking) id =
      if id ∈ ranking then rankShare rrfK (ranking.idxOf id) else 0 := by
  have hfrom : ∀ start, total ((ranking.zipIdx start).map fun item =>
      (item.1, rankShare rrfK item.2)) id =
        if id ∈ ranking then rankShare rrfK (start + ranking.idxOf id) else 0 := by
    induction ranking with
    | nil => exact fun _ => rfl
    | cons first rest ih =>
        intro start
        obtain ⟨hfresh, hrest⟩ := List.nodup_cons.mp hnodup
        rw [List.zipIdx_cons, List.map_cons, ← List.singleton_append, total_append,
          ih hrest (start + 1)]
        by_cases heq : first = id
        · subst heq
          simp [total, hfresh]
        · have hne : id ≠ first := Ne.symm heq
          simp [total, heq, hne, List.idxOf_cons_ne, Nat.add_assoc, Nat.add_comm 1]
  have hzero := hfrom 0
  rwa [Nat.zero_add] at hzero

/-! ## Agreement -/

/-- If both rankings have at most `rrfK + 1` entries, then the ids that occur in both
precede those that occur in only one. -/
theorem agreed_precede_single (vector lexical : List Id) (rrfK : ℕ) (hvector : vector.Nodup)
    (hlexical : lexical.Nodup) (hvectorLength : vector.length ≤ rrfK + 1)
    (hlexicalLength : lexical.length ≤ rrfK + 1) {id other : Id}
    (hboth : id ∈ vector ∧ id ∈ lexical)
    (honly : other ∈ vector ∧ other ∉ lexical ∨ other ∈ lexical ∧ other ∉ vector) :
    (fusedIds [vector, lexical] rrfK).idxOf id < (fusedIds [vector, lexical] rrfK).idxOf other := by
  have htotal : ∀ id, total (shares [vector, lexical] rrfK) id =
      (if id ∈ vector then rankShare rrfK (vector.idxOf id) else 0) +
        if id ∈ lexical then rankShare rrfK (lexical.idxOf id) else 0 := by
    intro id
    simp [total_shares, total_rankingShares hvector, total_rankingShares hlexical]
  have hplace : ∀ ranking : List Id, ranking.length ≤ rrfK + 1 → id ∈ ranking →
      ranking.idxOf id ≤ rrfK := by
    intro ranking hlength hmem
    have hlt := List.idxOf_lt_length_of_mem hmem
    omega
  have hmem : ∀ id, id ∈ (shares [vector, lexical] rrfK).map Prod.fst ↔
      id ∈ vector ∨ id ∈ lexical := by
    intro id
    simp [keys_shares]
  have hsum : ∀ single, rankShare rrfK single < total (shares [vector, lexical] rrfK) id := by
    intro single
    rw [htotal, if_pos hboth.1, if_pos hboth.2]
    exact rankShare_lt_add (hplace vector hvectorLength hboth.1)
      (hplace lexical hlexicalLength hboth.2)
  rw [fusedIds_eq]
  refine idxOf_lt_of_outscores ((hmem id).mpr (.inl hboth.1))
    ((hmem other).mpr (honly.imp And.left And.left)) (.inl ?_)
  rw [htotal other]
  rcases honly with ⟨hin, hout⟩ | ⟨hin, hout⟩
  · rw [if_pos hin, if_neg hout, add_zero]
    exact hsum _
  · rw [if_pos hin, if_neg hout, zero_add]
    exact hsum _

theorem agreed_precede_single_second :
    (fusedIds [[1, 2], [3, 2]] 60).idxOf 2 < (fusedIds [[1, 2], [3, 2]] 60).idxOf 1 :=
  agreed_precede_single [1, 2] [3, 2] 60 (by decide) (by decide) (by decide) (by decide)
    (by decide) (by decide)

/-- With one place more, an id on which both rankings agree can be tied and come second. -/
example : fusedIds [[1, 2], [3, 2]] 0 = [1, 2, 3] := by decide +kernel

/-- The rankings of a search are short enough by default. -/
example : ({} : Settings).retrievalCandidateK ≤ ({} : Settings).rrfK + 1 := by decide

/-! ## Monotonicity -/

/-- The place of an item of a ranking that another item overtakes. -/
theorem idxOf_le_of_overtaken {ahead overtaken behind : List Id} {x y : Id} (hne : y ≠ x) :
    (ahead ++ overtaken ++ x :: behind).idxOf y ≤ (ahead ++ x :: overtaken ++ behind).idxOf y := by
  by_cases hahead : y ∈ ahead
  · simp [List.idxOf_append_of_mem hahead]
  · simp only [List.append_assoc, List.cons_append, List.idxOf_append_of_notMem hahead,
      List.idxOf_cons_ne _ (Ne.symm hne)]
    by_cases hovertaken : y ∈ overtaken
    · rw [List.idxOf_append_of_mem hovertaken, List.idxOf_append_of_mem hovertaken]
      omega
    · rw [List.idxOf_append_of_notMem hovertaken, List.idxOf_append_of_notMem hovertaken,
        List.idxOf_cons_ne _ (Ne.symm hne)]
      omega

/-- The place of the item that overtakes others. -/
theorem idxOf_lt_of_overtakes {ahead overtaken behind : List Id} {x : Id}
    (hfresh : x ∉ ahead ++ overtaken) (hmoves : overtaken ≠ []) :
    (ahead ++ x :: overtaken ++ behind).idxOf x < (ahead ++ overtaken ++ x :: behind).idxOf x := by
  have hahead : x ∉ ahead := fun hmem => hfresh (List.mem_append_left _ hmem)
  have hlength := List.length_pos_iff.mpr hmoves
  rw [List.idxOf_append_of_notMem hfresh, List.append_assoc, List.idxOf_append_of_notMem hahead,
    List.cons_append, List.idxOf_cons_self, List.idxOf_cons_self, List.length_append]
  omega

/-- An id that moves to an earlier place of a ranking, past the ids it overtakes, does
not move down in the fused list. -/
theorem moveUp_idxOf_le (front back : List (List Id)) (ahead overtaken behind : List Id) (x : Id)
    (rrfK : ℕ) (hnodup : ∀ ranking ∈ front ++ (ahead ++ overtaken ++ x :: behind) :: back,
      ranking.Nodup) :
    (fusedIds (front ++ (ahead ++ x :: overtaken ++ behind) :: back) rrfK).idxOf x ≤
      (fusedIds (front ++ (ahead ++ overtaken ++ x :: behind) :: back) rrfK).idxOf x := by
  by_cases hstays : overtaken = []
  · simp [hstays]
  have hperm : (ahead ++ x :: overtaken ++ behind).Perm (ahead ++ overtaken ++ x :: behind) := by
    simp only [List.append_assoc, List.cons_append]
    exact List.perm_middle.symm.append_left ahead
  have hold : (ahead ++ overtaken ++ x :: behind).Nodup := hnodup _ (by simp)
  have hnew : (ahead ++ x :: overtaken ++ behind).Nodup := hperm.nodup_iff.mpr hold
  have htotal : ∀ ranking id, total (shares (front ++ ranking :: back) rrfK) id =
      total (shares front rrfK) id + total (rankingShares rrfK ranking) id +
        total (shares back rrfK) id := by
    intro ranking id
    simp [total_shares, add_assoc]
  -- the id gains, and the other ids gain nothing
  have hgain : total (rankingShares rrfK (ahead ++ overtaken ++ x :: behind)) x <
      total (rankingShares rrfK (ahead ++ x :: overtaken ++ behind)) x := by
    have hfresh : x ∉ ahead ++ overtaken := by
      have hdisjoint := (List.nodup_append.mp hold).2.2
      exact fun hmem => hdisjoint x hmem x List.mem_cons_self rfl
    rw [total_rankingShares hold, total_rankingShares hnew, if_pos (by simp), if_pos (by simp)]
    exact rankShare_lt (idxOf_lt_of_overtakes hfresh hstays)
  have hloss : ∀ y, y ≠ x → total (rankingShares rrfK (ahead ++ x :: overtaken ++ behind)) y ≤
      total (rankingShares rrfK (ahead ++ overtaken ++ x :: behind)) y := by
    intro y hne
    rw [total_rankingShares hold, total_rankingShares hnew, if_congr hperm.mem_iff rfl rfl]
    split
    · exact rankShare_le (idxOf_le_of_overtaken hne)
    · exact le_rfl
  rw [fusedIds_eq, fusedIds_eq]
  refine idxOf_standings_le (fun other => ?_) fun other hoverscores => ?_
  · simpa only [keys_shares, List.flatten_append, List.flatten_cons] using
      ((hperm.append_right back.flatten).append_left front.flatten).mem_iff
  · have hne : other ≠ x := by
      rintro rfl
      exact hoverscores.asymm hoverscores
    left
    have hle : total (shares (front ++ (ahead ++ x :: overtaken ++ behind) :: back) rrfK) x ≤
        total (shares (front ++ (ahead ++ x :: overtaken ++ behind) :: back) rrfK) other := by
      rcases hoverscores with hlt | ⟨heq, _⟩
      · exact hlt.le
      · exact heq.ge
    rw [htotal, htotal] at hle ⊢
    have hother := hloss other hne
    linarith

theorem moveUp_idxOf_le_third :
    (fusedIds ([[2]] ++ ([1] ++ 3 :: [2] ++ []) :: []) 60).idxOf 3 ≤
      (fusedIds ([[2]] ++ ([1] ++ [2] ++ 3 :: []) :: []) 60).idxOf 3 :=
  moveUp_idxOf_le [[2]] [] [1] [2] [] 3 60 (by decide)

end Core
