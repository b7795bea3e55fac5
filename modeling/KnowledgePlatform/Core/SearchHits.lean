import KnowledgePlatform.Core.RankFusion

/-!
# The hits of a search

The best fused results are looked up once more to get their rows.  What comes back
has lost the order and may lack rows that were deleted in the meantime; the hits are
put in order by the positions of the fused results.  `searchHits` is the search from
the ranked ids on, with the rows as they come back (`hybridSearch_eq_searchHits`).
-/

open Foundations Python Relational

namespace Core

/-! ## From the ranked ids on -/

/-- The rankings a mode asks for. -/
def searchRankings (mode : SearchMode) (vectorIds lexicalIds : List Uuid) : List (List Uuid) :=
  (if mode = .hybrid ∨ mode = .vector then [vectorIds] else []) ++
    if mode = .hybrid ∨ mode = .lexical then [lexicalIds] else []

/-- `limit or settings.search_default_limit` -/
def searchLimit (settings : Settings) (limit : Option ℕ) : ℕ :=
  (limit.filter (· ≠ 0)).getD settings.searchDefaultLimit

/-- The best of the fused results. -/
def topFused (settings : Settings) (mode : SearchMode) (limit : Option ℕ)
    (vectorIds lexicalIds : List Uuid) : List (Uuid × ℚ) :=
  (reciprocalRankFusion (searchRankings mode vectorIds lexicalIds) settings.rrfK).take
    (searchLimit settings limit)

/-- The hits of a search, from what the arms and the row query return. -/
def searchHits (settings : Settings) (mode : SearchMode) (limit : Option ℕ)
    (vectorIds lexicalIds : List Uuid) (rows : List (DocumentChunk × Str)) : List SearchHit :=
  if topFused settings mode limit vectorIds lexicalIds = [] then []
  else rankHits (topFused settings mode limit vectorIds lexicalIds) rows

section Runs

variable {settings : Settings} {engine : SearchEngine} {query : Str} {mode : SearchMode}
  {limit : Option ℕ} {conn conn' : Conn} {hits : List SearchHit}

theorem runs_armIf_ranking {asked : Prop} [Decidable asked] {arm : Tx (List Uuid)}
    {rankings : List (List Uuid)} (h : (armIf asked arm).Runs conn rankings conn') :
    ∃ ids, rankings = (if asked then [ids] else []) ∧ (asked → arm.Runs conn ids conn') := by
  unfold armIf at h
  split at h
  · next hasked =>
      obtain ⟨ids, hids, rfl⟩ := Program.runs_map.mp h
      exact ⟨ids, (if_pos hasked).symm, fun _ => hids⟩
  · next hnot =>
      obtain ⟨rfl, _⟩ := Program.runs_pure.mp h
      exact ⟨[], (if_neg hnot).symm, fun hasked => absurd hasked hnot⟩

/-- A search returns the hits for what its arms and its row query return. -/
theorem hybridSearch_eq_searchHits
    (h : (hybridSearch settings engine query mode limit).Runs conn hits conn') :
    ∃ vectorIds lexicalIds rows,
      (mode = .hybrid ∨ mode = .vector → (vectorArm settings engine query).Runs conn vectorIds conn) ∧
      (mode = .hybrid ∨ mode = .lexical →
        (lexicalRankedIds engine query settings.retrievalCandidateK).Runs conn lexicalIds conn) ∧
      (topFused settings mode limit vectorIds lexicalIds ≠ [] →
        (chunksWithTitles ((topFused settings mode limit vectorIds lexicalIds).map Prod.fst)).Runs
          conn rows conn) ∧
      hits = searchHits settings mode limit vectorIds lexicalIds rows := by
  simp only [hybridSearch, Program.runs_bind] at h
  obtain ⟨vectorRankings, _, hvector, lexicalRankings, _, hlexical, h⟩ := h
  cases runs_armIf (fun _ harm => runs_vectorArm harm) hvector
  cases runs_armIf (fun _ harm => runs_lexicalRankedIds harm) hlexical
  obtain ⟨vectorIds, hvectorRankings, hvectorIds⟩ := runs_armIf_ranking hvector
  obtain ⟨lexicalIds, hlexicalRankings, hlexicalIds⟩ := runs_armIf_ranking hlexical
  have htop : topFused settings mode limit vectorIds lexicalIds =
      (reciprocalRankFusion (vectorRankings ++ lexicalRankings) settings.rrfK).take
        ((limit.filter (· ≠ 0)).getD settings.searchDefaultLimit) := by
    rw [hvectorRankings, hlexicalRankings]
    rfl
  refine ⟨vectorIds, lexicalIds, ?_⟩
  simp only [searchHits, htop]
  split at h
  · next hnil =>
      obtain ⟨rfl, rfl⟩ := Program.runs_pure.mp h
      exact ⟨[], hvectorIds, hlexicalIds, fun hne => absurd hnil hne, (if_pos hnil).symm⟩
  · next hne =>
      simp only [Program.runs_bind, Program.runs_pure] at h
      obtain ⟨rows, _, hrows, rfl, rfl⟩ := h
      cases (of_runs_chunksWithTitles hrows).1
      exact ⟨rows, hvectorIds, hlexicalIds, fun _ => hrows, (if_neg hne).symm⟩

end Runs

/-! ## Rows in the order of the results -/

/-- The hit of a row, with its score among the results. -/
def hitOf (fused : List (Uuid × ℚ)) (row : DocumentChunk × Str) : SearchHit where
  chunkId := row.1.id
  documentId := row.1.documentId
  documentTitle := row.2
  chunkIndex := row.1.chunkIndex
  content := row.1.content
  score := (fused.lookup row.1.id).getD 0

/-- What the row query may return: rows of some of the results, each once. -/
structure RowsOf (ids : List Uuid) (rows : List (DocumentChunk × Str)) : Prop where
  nodup : (rows.map fun row => row.1.id).Nodup
  requested : ∀ row ∈ rows, row.1.id ∈ ids

section Rows

variable {fused : List (Uuid × ℚ)} {rows : List (DocumentChunk × Str)}

theorem perm_rankHits (fused : List (Uuid × ℚ)) (rows : List (DocumentChunk × Str)) :
    (rankHits fused rows).Perm (rows.map (hitOf fused)) :=
  List.perm_insertionSort _ _

/-- The hits are those of the results that were found, in their order. -/
theorem map_chunkId_rankHits (hfused : (fused.map Prod.fst).Nodup)
    (hrows : RowsOf (fused.map Prod.fst) rows) :
    (rankHits fused rows).map SearchHit.chunkId =
      (fused.map Prod.fst).filter fun id => decide (id ∈ rows.map fun row => row.1.id) := by
  have hperm : ((rankHits fused rows).map SearchHit.chunkId).Perm (rows.map fun row => row.1.id) := by
    have hmap := (perm_rankHits fused rows).map SearchHit.chunkId
    rwa [List.map_map] at hmap
  have hmem : ∀ id, id ∈ (rankHits fused rows).map SearchHit.chunkId → id ∈ fused.map Prod.fst := by
    intro id hid
    obtain ⟨row, hrow, rfl⟩ := List.mem_map.mp (hperm.subset hid)
    exact hrows.requested row hrow
  have hsorted : ((rankHits fused rows).map SearchHit.chunkId).Pairwise fun id later =>
      (fused.map Prod.fst).idxOf id ≤ (fused.map Prod.fst).idxOf later := by
    refine List.pairwise_map.mpr ?_
    have htotal : Std.Total fun hit other : SearchHit =>
        (fused.map Prod.fst).idxOf hit.chunkId ≤ (fused.map Prod.fst).idxOf other.chunkId :=
      ⟨fun hit other => le_total _ _⟩
    have htrans : IsTrans SearchHit fun hit other =>
        (fused.map Prod.fst).idxOf hit.chunkId ≤ (fused.map Prod.fst).idxOf other.chunkId :=
      ⟨fun _ _ _ hle hle' => hle.trans hle'⟩
    exact List.pairwise_insertionSort _ _
  have horder : (fused.map Prod.fst).Pairwise fun id later =>
      (fused.map Prod.fst).idxOf id ≤ (fused.map Prod.fst).idxOf later := by
    refine List.pairwise_iff_getElem.mpr fun i j hi hj hlt => ?_
    rw [hfused.idxOf_getElem, hfused.idxOf_getElem]
    exact hlt.le
  refine List.Perm.eq_of_pairwise ?_ hsorted (horder.filter _) ?_
  · intro id other hid _ hle hge
    exact (List.idxOf_inj (hmem id hid)).mp (le_antisymm hle hge)
  · refine (List.perm_ext_iff_of_nodup (hperm.nodup_iff.mpr hrows.nodup) (hfused.filter _)).mpr ?_
    intro id
    rw [List.mem_filter, decide_eq_true_iff, hperm.mem_iff]
    exact ⟨fun hid => ⟨hmem id (hperm.mem_iff.mpr hid), hid⟩, And.right⟩

/-- A result found has its own score. -/
theorem lookup_of_mem {id : Uuid} {score : ℚ} (hfused : (fused.map Prod.fst).Nodup)
    (hmem : (id, score) ∈ fused) : fused.lookup id = some score := by
  induction fused with
  | nil => cases hmem
  | cons first rest ih =>
      obtain ⟨hfresh, hrest⟩ := List.nodup_cons.mp hfused
      rcases List.mem_cons.mp hmem with rfl | hlater
      · exact List.lookup_cons_self
      · have hne : id ≠ first.1 := by
          rintro rfl
          exact hfresh (List.mem_map.mpr ⟨_, hlater, rfl⟩)
        rw [List.lookup_cons, beq_false_of_ne hne]
        exact ih hrest hlater

/-- The ids and scores of the hits: the results found. -/
theorem map_rankHits (hfused : (fused.map Prod.fst).Nodup)
    (hrows : RowsOf (fused.map Prod.fst) rows) :
    (rankHits fused rows).map (fun hit => (hit.chunkId, hit.score)) =
      fused.filter fun item => decide (item.1 ∈ rows.map fun row => row.1.id) := by
  -- the score is looked up by the id
  have hscored : ∀ hit ∈ rankHits fused rows,
      (hit.chunkId, hit.score) = (hit.chunkId, (fused.lookup hit.chunkId).getD 0) := by
    intro hit hhit
    obtain ⟨row, _, rfl⟩ := List.mem_map.mp ((perm_rankHits fused rows).subset hhit)
    rfl
  have hown : ∀ item ∈ fused.filter fun item => decide (item.1 ∈ rows.map fun row => row.1.id),
      (item.1, (fused.lookup item.1).getD 0) = item := by
    intro item hitem
    rw [lookup_of_mem hfused (List.mem_filter.mp hitem).1, Option.getD_some]
  calc (rankHits fused rows).map (fun hit => (hit.chunkId, hit.score))
    _ = ((rankHits fused rows).map SearchHit.chunkId).map fun id =>
          (id, (fused.lookup id).getD 0) := by
        rw [List.map_map]
        exact List.map_congr_left hscored
    _ = ((fused.filter fun item => decide (item.1 ∈ rows.map fun row => row.1.id)).map
          Prod.fst).map fun id => (id, (fused.lookup id).getD 0) := by
        rw [map_chunkId_rankHits hfused hrows, List.filter_map]
        rfl
    _ = fused.filter fun item => decide (item.1 ∈ rows.map fun row => row.1.id) := by
        rw [List.map_map]
        exact (List.map_congr_left hown).trans (List.map_id _)

end Rows

/-! ## The search -/

/-- A single ranking without repetitions keeps its order. -/
theorem fusedIds_singleton {ranking : List Uuid} (hnodup : ranking.Nodup) (rrfK : ℕ) :
    fusedIds [ranking] rrfK = ranking := by
  have htotal : ∀ id ∈ ranking, total (shares [ranking] rrfK) id =
      rankShare rrfK (ranking.idxOf id) := by
    intro id hid
    rw [total_shares, List.map_singleton, List.sum_singleton, total_rankingShares hnodup, if_pos hid]
  have hordered : ranking.Pairwise (Outscores (shares [ranking] rrfK)) := by
    refine List.pairwise_iff_getElem.mpr fun i j hi hj hlt => .inl ?_
    rw [htotal _ (List.getElem_mem hi), htotal _ (List.getElem_mem hj), hnodup.idxOf_getElem,
      hnodup.idxOf_getElem]
    exact rankShare_lt hlt
  rw [fusedIds_eq]
  refine List.Perm.eq_of_pairwise (fun _ _ _ _ hahead hbehind => absurd hbehind hahead.asymm)
    (pairwise_standings _) hordered ?_
  refine (List.perm_ext_iff_of_nodup (nodup_standings _) hnodup).mpr fun id => ?_
  rw [mem_standings, keys_shares, List.flatten_singleton]

section Search

variable {settings : Settings} {mode : SearchMode} {limit : Option ℕ}
  {vectorIds lexicalIds : List Uuid} {rows : List (DocumentChunk × Str)}

theorem searchLimit_eq (hlimit : limit ≠ some 0) :
    searchLimit settings limit = limit.getD settings.searchDefaultLimit := by
  cases limit with
  | none => rfl
  | some asked =>
      have hne : asked ≠ 0 := fun heq => hlimit (by rw [heq])
      simp [searchLimit, Option.filter, hne]

theorem map_fst_topFused (hlimit : limit ≠ some 0) :
    (topFused settings mode limit vectorIds lexicalIds).map Prod.fst =
      (fusedIds (searchRankings mode vectorIds lexicalIds) settings.rrfK).take
        (limit.getD settings.searchDefaultLimit) := by
  rw [topFused, searchLimit_eq hlimit, List.map_take]
  rfl

theorem nodup_topFused :
    ((topFused settings mode limit vectorIds lexicalIds).map Prod.fst).Nodup := by
  rw [topFused, List.map_take]
  exact (nodup_fusedIds _ _).sublist (List.take_sublist _ _)

/-- Without results there are no rows either. -/
theorem searchHits_eq_rankHits
    (hrows : RowsOf ((topFused settings mode limit vectorIds lexicalIds).map Prod.fst) rows) :
    searchHits settings mode limit vectorIds lexicalIds rows =
      rankHits (topFused settings mode limit vectorIds lexicalIds) rows := by
  unfold searchHits
  split
  · next hnil =>
      have hnone : rows = [] := by
        refine List.eq_nil_iff_forall_not_mem.mpr fun row hrow => ?_
        have hid := hrows.requested row hrow
        rw [hnil] at hid
        cases hid
      rw [hnone]
      rfl
  · rfl

end Search

/-- From what the arms and the row query return, the hits are the best fused results
that were found, in their order, each with its score and the fields of its row. -/
theorem searchHits_exact (settings : Settings) (mode : SearchMode) (limit : Option ℕ)
    (vectorIds lexicalIds : List Uuid) (rows : List (DocumentChunk × Str)) (hlimit : limit ≠ some 0)
    (hvector : vectorIds.Nodup) (hlexical : lexicalIds.Nodup)
    (hrows : RowsOf ((fusedIds (searchRankings mode vectorIds lexicalIds) settings.rrfK).take
      (limit.getD settings.searchDefaultLimit)) rows) :
    (searchHits settings mode limit vectorIds lexicalIds rows).map SearchHit.chunkId =
        ((fusedIds (searchRankings mode vectorIds lexicalIds) settings.rrfK).take
          (limit.getD settings.searchDefaultLimit)).filter
            (fun id => decide (id ∈ rows.map fun row => row.1.id)) ∧
      ((searchHits settings mode limit vectorIds lexicalIds rows).map SearchHit.chunkId).Nodup ∧
      (∀ hit ∈ searchHits settings mode limit vectorIds lexicalIds rows,
        (hit.chunkId, hit.score) ∈
          reciprocalRankFusion (searchRankings mode vectorIds lexicalIds) settings.rrfK ∧
        ∃ row ∈ rows, hit.chunkId = row.1.id ∧ hit.documentId = row.1.documentId ∧
          hit.documentTitle = row.2 ∧ hit.chunkIndex = row.1.chunkIndex ∧
          hit.content = row.1.content) ∧
      (searchHits settings mode limit vectorIds lexicalIds rows).length ≤
        limit.getD settings.searchDefaultLimit ∧
      ((searchHits settings mode limit vectorIds lexicalIds rows).Pairwise fun hit other =>
        other.score ≤ hit.score) ∧
      (mode = .vector → (searchHits settings mode limit vectorIds lexicalIds rows).map
        SearchHit.chunkId = (vectorIds.take (limit.getD settings.searchDefaultLimit)).filter
          fun id => decide (id ∈ rows.map fun row => row.1.id)) ∧
      (mode = .lexical → (searchHits settings mode limit vectorIds lexicalIds rows).map
        SearchHit.chunkId = (lexicalIds.take (limit.getD settings.searchDefaultLimit)).filter
          fun id => decide (id ∈ rows.map fun row => row.1.id)) := by
  rw [← map_fst_topFused hlimit] at hrows ⊢
  rw [searchHits_eq_rankHits hrows]
  have hids := map_chunkId_rankHits nodup_topFused hrows
  have hpairs := map_rankHits nodup_topFused hrows
  have hfound : ((rankHits (topFused settings mode limit vectorIds lexicalIds) rows).map fun hit =>
      (hit.chunkId, hit.score)).Sublist (topFused settings mode limit vectorIds lexicalIds) :=
    hpairs ▸ List.filter_sublist
  have hsingle : ∀ ids : List Uuid, ids.Nodup → searchRankings mode vectorIds lexicalIds = [ids] →
      (rankHits (topFused settings mode limit vectorIds lexicalIds) rows).map SearchHit.chunkId =
        (ids.take (limit.getD settings.searchDefaultLimit)).filter
          fun id => decide (id ∈ rows.map fun row => row.1.id) := by
    intro ids hnodup hrankings
    rw [hids, map_fst_topFused hlimit, hrankings, fusedIds_singleton hnodup]
  refine ⟨hids, hids ▸ nodup_topFused.filter _, fun hit hhit => ⟨?_, ?_⟩, ?_, ?_, ?_, ?_⟩
  · exact List.mem_of_mem_take (hfound.subset (List.mem_map.mpr ⟨hit, hhit, rfl⟩))
  · obtain ⟨row, hrow, rfl⟩ := List.mem_map.mp ((perm_rankHits _ rows).subset hhit)
    exact ⟨row, hrow, rfl, rfl, rfl, rfl, rfl⟩
  · have hlength := hfound.length_le
    have hbound : (topFused settings mode limit vectorIds lexicalIds).length ≤
        limit.getD settings.searchDefaultLimit := by
      rw [topFused, searchLimit_eq hlimit]
      exact List.length_take_le _ _
    rw [List.length_map] at hlength
    exact hlength.trans hbound
  · have hsorted := (pairwise_reciprocalRankFusion (searchRankings mode vectorIds lexicalIds)
      settings.rrfK).sublist (hfound.trans (List.take_sublist _ _))
    exact (List.pairwise_map.mp hsorted).imp And.left
  · rintro rfl
    exact hsingle vectorIds hvector rfl
  · rintro rfl
    exact hsingle lexicalIds hlexical rfl

/-- A chunk of a document, for a row that comes back. -/
def rainChunk (id : Uuid) : DocumentChunk := ⟨id, 1, 4, 0, "Rain.".toList, 1, [], 0⟩

/-- Of three fused results two are asked for; their rows come back the other way round. -/
def rainRows : List (DocumentChunk × Str) :=
  [(rainChunk 5, "a.pdf".toList), (rainChunk 6, "a.pdf".toList)]

theorem searchHits_exact_rain :
    (searchHits {} .hybrid (some 2) [5, 6] [7, 6] rainRows).map SearchHit.chunkId =
        ((fusedIds (searchRankings .hybrid [5, 6] [7, 6]) ({} : Settings).rrfK).take 2).filter
          (fun id => decide (id ∈ rainRows.map fun row => row.1.id)) ∧
      ((searchHits {} .hybrid (some 2) [5, 6] [7, 6] rainRows).map SearchHit.chunkId).Nodup ∧
      (∀ hit ∈ searchHits {} .hybrid (some 2) [5, 6] [7, 6] rainRows,
        (hit.chunkId, hit.score) ∈
          reciprocalRankFusion (searchRankings .hybrid [5, 6] [7, 6]) ({} : Settings).rrfK ∧
        ∃ row ∈ rainRows, hit.chunkId = row.1.id ∧ hit.documentId = row.1.documentId ∧
          hit.documentTitle = row.2 ∧ hit.chunkIndex = row.1.chunkIndex ∧
          hit.content = row.1.content) ∧
      (searchHits {} .hybrid (some 2) [5, 6] [7, 6] rainRows).length ≤ 2 ∧
      ((searchHits {} .hybrid (some 2) [5, 6] [7, 6] rainRows).Pairwise fun hit other =>
        other.score ≤ hit.score) ∧
      (SearchMode.hybrid = .vector → (searchHits {} .hybrid (some 2) [5, 6] [7, 6] rainRows).map
        SearchHit.chunkId = ([5, 6].take 2).filter
          fun id => decide (id ∈ rainRows.map fun row => row.1.id)) ∧
      (SearchMode.hybrid = .lexical → (searchHits {} .hybrid (some 2) [5, 6] [7, 6] rainRows).map
        SearchHit.chunkId = ([7, 6].take 2).filter
          fun id => decide (id ∈ rainRows.map fun row => row.1.id)) := by
  refine searchHits_exact {} .hybrid (some 2) [5, 6] [7, 6] rainRows (by decide) (by decide)
    (by decide) ⟨by decide, ?_⟩
  have hfused : (fusedIds (searchRankings .hybrid [5, 6] [7, 6]) 60).take 2 = [6, 5] := by
    decide +kernel
  show ∀ row ∈ rainRows, row.1.id ∈ (fusedIds (searchRankings .hybrid [5, 6] [7, 6]) 60).take 2
  rw [hfused]
  decide

end Core
