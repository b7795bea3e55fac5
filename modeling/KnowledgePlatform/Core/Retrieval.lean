import KnowledgePlatform.Core.Config
import KnowledgePlatform.Core.Db

/-!
# Hybrid retrieval

Each arm of the search ranks chunks the session sees.  The ranked lists are
fused by rank position (`reciprocalRankFusion`) and the best results are read
back together with the titles of their documents.  How the arms rank is decided
by the full-text search and the vector index of the database and by the
embedding provider; they are parameters here (`SearchEngine`).

The vector index holds the chunks of all organizations, and row-level security
leaves out those of the others only after the scan.  An approximate scan may so
miss chunks because of what the others store; `ExactScan` says that it does not.

Scores are exact fractions where the code computes in floating point.
-/

open Foundations Python Relational

namespace Core

inductive SearchMode
  | hybrid
  | vector
  | lexical
  deriving DecidableEq, Repr

structure SearchHit where
  chunkId : Uuid
  documentId : Uuid
  documentTitle : Str
  chunkIndex : ℤ
  content : Str
  score : ℚ
  deriving DecidableEq

/-- An embedding provider; its call may raise. -/
structure EmbeddingProvider where
  name : Str
  model : Str
  embed : List Str → Except Str (List Embedding)

/-- The embedding provider and the two rankings of the database: the scan of the
vector index, which returns chunks of the whole table by their distance to a vector,
and the order by relevance of the chunks that match a query. -/
structure SearchEngine where
  provider : EmbeddingProvider
  byDistance : Embedding → List DocumentChunk → List DocumentChunk
  byRelevance : Str → List DocumentChunk → List DocumentChunk

/-- The scan of the vector index returns the chunks that are left over as if there were
no others. -/
def SearchEngine.ExactScan (engine : SearchEngine) : Prop :=
  ∀ (vector : Embedding) (visible : DocumentChunk → Bool) (chunks : List DocumentChunk),
    (engine.byDistance vector chunks).filter visible =
      engine.byDistance vector (chunks.filter visible)

/-- The result of a library call; its exception ends the transaction. -/
def ofLibrary {α : Type} : Except Str α → Tx α
  | .ok value => pure value
  | .error message => throw (.raised message)

@[simp] theorem runs_ofLibrary {α : Type} {outcome : Except Str α} {value : α} {conn conn' : Conn} :
    (ofLibrary outcome).Runs conn value conn' ↔ outcome = .ok value ∧ conn = conn' := by
  cases outcome <;> simp [ofLibrary]

/-! ## The arms -/

def vectorRankedIds (engine : SearchEngine) (queryVector : Embedding) (k : ℕ) : Tx (List Uuid) := do
  let chunks ← scanned .documentChunks (engine.byDistance queryVector)
  pure ((chunks.take k).map DocumentChunk.id)

def lexicalRankedIds (engine : SearchEngine) (query : Str) (k : ℕ) : Tx (List Uuid) := do
  let chunks ← scalars .documentChunks fun _ => true
  pure (((engine.byRelevance query chunks).take k).map DocumentChunk.id)

/-! ## Fusion -/

section Fusion

variable {Id : Type} [DecidableEq Id]

/-- `scores[item] = scores.get(item, 0.0) + share` on a dictionary, by its items
in the order of insertion. -/
def addScore (item : Id) (share : ℚ) : List (Id × ℚ) → List (Id × ℚ)
  | [] => [(item, share)]
  | (other, score) :: rest =>
      if other = item then (other, score + share) :: rest
      else (other, score) :: addScore item share rest

/-- The share of a list position in the score of its item. -/
def rankShare (rrfK position : ℕ) : ℚ := 1 / (rrfK + position + 1)

/-- One ranking added to the scores. -/
def addRanking (rrfK : ℕ) (scores : List (Id × ℚ)) (ranking : List Id) : List (Id × ℚ) :=
  ranking.zipIdx.foldl (fun scores item => addScore item.1 (rankShare rrfK item.2) scores) scores

/-- Fuse ranked id lists; the score of an item is the sum of its shares. -/
def reciprocalRankFusion (rankings : List (List Id)) (rrfK : ℕ) : List (Id × ℚ) :=
  (rankings.foldl (addRanking rrfK) []).insertionSort fun item other => other.2 ≤ item.2

end Fusion

/-! ## Search -/

/-- The hits for the rows read back, in the order of the fused results. -/
def rankHits (fused : List (Uuid × ℚ)) (rows : List (DocumentChunk × Str)) : List SearchHit :=
  let hits := rows.map fun (chunk, title) =>
    { chunkId := chunk.id, documentId := chunk.documentId, documentTitle := title,
      chunkIndex := chunk.chunkIndex, content := chunk.content,
      score := (fused.lookup chunk.id).getD 0 : SearchHit }
  let order := fused.map Prod.fst
  hits.insertionSort fun hit other => order.idxOf hit.chunkId ≤ order.idxOf other.chunkId

/-- `select(DocumentChunk, Document.title).join(Document).where(… .in_(ids))` -/
def chunksWithTitles (ids : List Uuid) : Tx (List (DocumentChunk × Str)) := do
  let chunks ← scalars .documentChunks fun chunk => decide (chunk.id ∈ ids)
  let documents ← scalars .documents fun _ => true
  pure <| chunks.flatMap fun chunk =>
    (documents.filter fun document => document.id == chunk.documentId).map fun document =>
      (chunk, document.title)

/-- The vector arm of the search, with the embedding of the query. -/
def vectorArm (settings : Settings) (engine : SearchEngine) (query : Str) : Tx (List Uuid) := do
  let vectors ← ofLibrary (engine.provider.embed [query])
  let queryVector ← Program.orRaise (.raised "list index out of range".toList) vectors.head?
  vectorRankedIds engine queryVector settings.retrievalCandidateK

/-- The rankings of an arm the mode asks for, and none otherwise. -/
def armIf (asked : Prop) [Decidable asked] (arm : Tx (List Uuid)) : Tx (List (List Uuid)) :=
  if asked then (fun ids => [ids]) <$> arm else pure []

def hybridSearch (settings : Settings) (engine : SearchEngine) (query : Str) (mode : SearchMode)
    (limit : Option ℕ) : Tx (List SearchHit) := do
  -- `limit or settings.search_default_limit`: zero counts as no limit
  let limit := (limit.filter (· ≠ 0)).getD settings.searchDefaultLimit
  let vectorRankings ← armIf (mode = .hybrid ∨ mode = .vector)
    (vectorArm settings engine query)
  let lexicalRankings ← armIf (mode = .hybrid ∨ mode = .lexical)
    (lexicalRankedIds engine query settings.retrievalCandidateK)
  let fused := (reciprocalRankFusion (vectorRankings ++ lexicalRankings) settings.rrfK).take limit
  if fused = [] then pure []
  else do
    let rows ← chunksWithTitles (fused.map Prod.fst)
    pure (rankHits fused rows)

/-! ## What a search returns -/

/-- The hit shows this chunk of this document. -/
structure SearchHit.Shows (hit : SearchHit) (chunk : DocumentChunk) (document : Document) :
    Prop where
  chunkId : hit.chunkId = chunk.id
  documentId : hit.documentId = chunk.documentId
  documentRow : document.id = chunk.documentId
  documentTitle : hit.documentTitle = document.title
  chunkIndex : hit.chunkIndex = chunk.chunkIndex
  content : hit.content = chunk.content

/-- Every hit shows one of the rows read back. -/
theorem mem_rankHits {fused : List (Uuid × ℚ)} {rows : List (DocumentChunk × Str)} {hit : SearchHit}
    (hhit : hit ∈ rankHits fused rows) : ∃ row ∈ rows, hit.chunkId = row.1.id ∧
      hit.documentId = row.1.documentId ∧ hit.documentTitle = row.2 ∧
      hit.chunkIndex = row.1.chunkIndex ∧ hit.content = row.1.content := by
  unfold rankHits at hhit
  rw [List.mem_insertionSort, List.mem_map] at hhit
  obtain ⟨row, hrow, rfl⟩ := hhit
  exact ⟨row, hrow, rfl, rfl, rfl, rfl, rfl⟩

section Runs

variable {conn conn' : Conn}

/-- The arms only read. -/
theorem runs_vectorArm {settings : Settings} {engine : SearchEngine} {query : Str} {ids : List Uuid}
    (h : (vectorArm settings engine query).Runs conn ids conn') : conn = conn' := by
  simp only [vectorArm, vectorRankedIds, Program.runs_bind, runs_ofLibrary, Program.runs_orRaise,
    runs_scanned, Program.runs_pure] at h
  obtain ⟨_, _, ⟨_, rfl⟩, _, _, ⟨_, rfl⟩, _, _, ⟨_, rfl⟩, _, rfl⟩ := h
  rfl

theorem runs_lexicalRankedIds {engine : SearchEngine} {query : Str} {k : ℕ} {ids : List Uuid}
    (h : (lexicalRankedIds engine query k).Runs conn ids conn') : conn = conn' := by
  simp only [lexicalRankedIds, Program.runs_bind, runs_scalars, Program.runs_pure] at h
  obtain ⟨_, _, ⟨_, rfl⟩, _, rfl⟩ := h
  rfl

theorem runs_armIf {asked : Prop} [Decidable asked] {arm : Tx (List Uuid)}
    {rankings : List (List Uuid)} (harm : ∀ ids, arm.Runs conn ids conn' → conn = conn')
    (h : (armIf asked arm).Runs conn rankings conn') : conn = conn' := by
  unfold armIf at h
  split at h
  · obtain ⟨ids, hids, _⟩ := Program.runs_map.mp h
    exact harm ids hids
  · exact (Program.runs_pure.mp h).2

theorem of_runs_chunksWithTitles {ids : List Uuid} {rows : List (DocumentChunk × Str)}
    (h : (chunksWithTitles ids).Runs conn rows conn') : conn = conn' ∧ ∀ row ∈ rows,
      row.1 ∈ conn.db .documentChunks ∧ conn.policy.visible .documentChunks row.1 = true ∧
      ∃ document ∈ conn.db .documents, conn.policy.visible .documents document = true ∧
        document.id = row.1.documentId ∧ row.2 = document.title := by
  simp only [chunksWithTitles, Program.runs_bind, Program.runs_pure] at h
  obtain ⟨chunks, _, hchunks, documents, _, hdocuments, rfl, rfl⟩ := h
  obtain ⟨rfl, hseen⟩ := of_runs_scalars hchunks
  obtain ⟨rfl, htitled⟩ := of_runs_scalars hdocuments
  refine ⟨rfl, fun row hrow => ?_⟩
  obtain ⟨chunk, hchunk, hrow⟩ := List.mem_flatMap.mp hrow
  obtain ⟨document, hdocument, rfl⟩ := List.mem_map.mp hrow
  obtain ⟨hdocument, hid⟩ := List.mem_filter.mp hdocument
  obtain ⟨hmem, _, hvisible⟩ := hseen chunk hchunk
  obtain ⟨hdmem, _, hdvisible⟩ := htitled document hdocument
  exact ⟨hmem, hvisible, document, hdmem, hdvisible, beq_iff_eq.mp hid, rfl⟩

/-- A search only reads, and every hit shows a chunk and a document the session
sees. -/
theorem hybridSearch_eq_ok {settings : Settings} {engine : SearchEngine} {query : Str}
    {mode : SearchMode} {limit : Option ℕ} {hits : List SearchHit}
    (h : (hybridSearch settings engine query mode limit).Runs conn hits conn') :
    conn = conn' ∧ ∀ hit ∈ hits, ∃ chunk ∈ conn.db .documentChunks,
      ∃ document ∈ conn.db .documents, conn.policy.visible .documentChunks chunk = true ∧
        conn.policy.visible .documents document = true ∧ hit.Shows chunk document := by
  simp only [hybridSearch, Program.runs_bind] at h
  obtain ⟨vectorRankings, _, hvector, lexicalRankings, _, hlexical, h⟩ := h
  cases runs_armIf (fun _ harm => runs_vectorArm harm) hvector
  cases runs_armIf (fun _ harm => runs_lexicalRankedIds harm) hlexical
  split at h
  · obtain ⟨rfl, rfl⟩ := Program.runs_pure.mp h
    exact ⟨rfl, fun _ hhit => absurd hhit List.not_mem_nil⟩
  · simp only [Program.runs_bind, Program.runs_pure] at h
    obtain ⟨rows, _, hrows, rfl, rfl⟩ := h
    obtain ⟨rfl, hshown⟩ := of_runs_chunksWithTitles hrows
    refine ⟨rfl, fun hit hhit => ?_⟩
    obtain ⟨row, hrow, hchunkId, hdocumentId, htitle, hindex, hcontent⟩ := mem_rankHits hhit
    obtain ⟨hmem, hvisible, document, hdocument, hdvisible, hid, hrowtitle⟩ := hshown row hrow
    exact ⟨row.1, hmem, document, hdocument, hvisible, hdvisible, hchunkId, hdocumentId, hid,
      htitle.trans hrowtitle, hindex, hcontent⟩

end Runs

end Core
