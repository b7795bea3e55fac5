import KnowledgePlatform.Core.Chunking
import KnowledgePlatform.Core.Retrieval
import KnowledgePlatform.Core.Usage

/-!
# Document ingestion

`run_ingestion` is three transactions around fallible work: the first marks the
document as being processed (`beginIngestion`), the work turns the stored file
into chunks with their vectors (`prepareChunks`), and then either the chunks
are stored and the document is ready (`storeChunks`), or the failure is noted
on the document (`failIngestion`).  Download, text extraction and embedding are
library calls whose outcomes are arguments.

The specifications list what each transaction writes.
-/

open Foundations Python Relational

namespace Core

/-- `doc.status = status; doc.error = error` -/
def assignStatus (status : DocumentStatus) (error : Option Str) : SetClause schema .documents where
  set := fun document => { document with status, error }
  key_set := fun _ => rfl
  tenant_set := fun _ => rfl
  clash_set := fun _ _ => ⟨rfl, rfl⟩
  ref_set := by simp [schema, rowForeignKeys, orgKey]

/-- The statement by which a status is assigned to a document. -/
def statusWrite (documentId : Uuid) (status : DocumentStatus) (error : Option Str) : Write schema :=
  .update .documents (fun document => rowId .documents document == documentId)
    (assignStatus status error)

/-- The transaction of `_set_status`. -/
def setStatus (orgId documentId : Uuid) (status : DocumentStatus) (error : Option Str) :
    Tx Unit := do
  setOrgContext orgId
  let document ← getById .documents documentId
  match document with
  | none => pure ()
  | some _ => save .documents documentId (assignStatus status error)

/-- How much of an exception's text is kept on the document. -/
def maxErrorLength : ℕ := 1024

/-- The transaction after an exception. -/
def failIngestion (orgId documentId : Uuid) (message : Str) : Tx Unit :=
  setStatus orgId documentId .failed (some (message.take maxErrorLength))

/-- The first transaction: the storage key of the document, or nothing when the
document is deleted or not visible. -/
def beginIngestion (orgId documentId : Uuid) : Tx (Option Str) := do
  setOrgContext orgId
  let document ← getById .documents documentId
  match document with
  | none => pure none
  | some document => do
      let storageKey ← Program.orRaise (.raised "document has no storage_key".toList)
        (document.storageKey.filter (· ≠ []))
      save .documents documentId (assignStatus .processing none)
      pure (some storageKey)

/-! ## Chunks and vectors -/

/-- The library calls of a run: the text of the downloaded file, and the
embedding provider. -/
structure IngestionWork where
  extracted : Except Str Str
  provider : EmbeddingProvider

/-- The work between the transactions: the chunks of the text and one embedding
call for all of them, none when there is no chunk. -/
def prepareChunks (settings : Settings) (work : IngestionWork) :
    Except Str (List Str × List Embedding) := do
  let text ← work.extracted
  let chunks ← (chunkText text settings.chunkSize settings.chunkOverlap).mapError
    ChunkingError.message
  let vectors ← if chunks = [] then .ok [] else work.provider.embed chunks
  .ok (chunks, vectors)

/-- The row of one chunk. -/
def chunkRow (orgId documentId id : Uuid) (index : ℕ) (content : Str) (embedding : Embedding)
    (createdAt : Time) : DocumentChunk where
  id := id
  orgId := orgId
  documentId := documentId
  chunkIndex := index
  content := content
  tokenCount := estimateTokens content
  embedding := embedding
  createdAt := createdAt

/-- The rows of the chunks from an index on; `chunkIds` are the ids drawn. -/
def chunkRows (orgId documentId : Uuid) (chunkIds : ℕ → Uuid) (createdAt : Time) :
    ℕ → List Str → List Embedding → List DocumentChunk
  | index, content :: contents, embedding :: embeddings =>
      chunkRow orgId documentId (chunkIds index) index content embedding createdAt ::
        chunkRows orgId documentId chunkIds createdAt (index + 1) contents embeddings
  | _, _, _ => []

/-- The statements that insert rows of chunks. -/
def insertChunks (rows : List DocumentChunk) : List (Write schema) :=
  rows.map fun row => .insert .documentChunks row

/-- `for index, (content, embedding) in enumerate(zip(chunks, vectors, strict=True))` -/
def addChunks (orgId documentId : Uuid) (chunkIds : ℕ → Uuid) :
    ℕ → List Str → List Embedding → Tx Unit
  | index, content :: contents, embedding :: embeddings => do
      let createdAt ← transactionTime
      add .documentChunks
        (chunkRow orgId documentId (chunkIds index) index content embedding createdAt)
      addChunks orgId documentId chunkIds (index + 1) contents embeddings
  | _, [], [] => pure ()
  | _, _ :: _, [] => throw (.raised "zip() argument 2 is shorter than argument 1".toList)
  | _, [], _ :: _ => throw (.raised "zip() argument 2 is longer than argument 1".toList)

/-- The ids a storing transaction draws. -/
structure StoreDraw where
  chunkIds : ℕ → Uuid
  eventId : Uuid

/-- What is recorded for an embedding batch. -/
def embeddingUsage (documentId : Uuid) (provider : EmbeddingProvider) (chunks : List Str) :
    UsageRecord where
  userId := none
  kind := .embedding
  provider := provider.name
  model := provider.model
  inputTokens := ((chunks.map estimateTokens).sum : ℕ)
  outputTokens := 0
  documentId := some documentId

/-- The usage event of the batch, when there is a batch. -/
def recordBatch (orgId documentId : Uuid) (provider : EmbeddingProvider) (chunks : List Str)
    (eventId : Uuid) (now : Time) : Tx Unit :=
  if chunks = [] then pure ()
  else do
    let usage := embeddingUsage documentId provider chunks
    let _ ← recordUsage orgId usage
      (embeddingCostUsd provider.name provider.model usage.inputTokens) eventId now
    pure ()

/-- The statement that clears the chunks of a document. -/
def clearChunks (documentId : Uuid) : Write schema :=
  .delete .documentChunks fun chunk => chunk.documentId == documentId

/-- The storing transaction. -/
def storeChunks (orgId documentId : Uuid) (provider : EmbeddingProvider) (chunks : List Str)
    (vectors : List Embedding) (draw : StoreDraw) (now : Time) : Tx Unit := do
  setOrgContext orgId
  -- idempotent re-ingest: the chunks of earlier runs go first
  execute (clearChunks documentId)
  addChunks orgId documentId draw.chunkIds 0 chunks vectors
  recordBatch orgId documentId provider chunks draw.eventId now
  let document ← getById .documents documentId
  match document with
  | none => pure ()
  | some _ => save .documents documentId (assignStatus .ready none)

/-! ## Specifications -/

section Spec

variable {conn conn' : Conn} {orgId documentId : Uuid}

/-- The document, when the session finds it, gets the status. -/
theorem runs_assignStatus {status : DocumentStatus} {error : Option Str} {result : Unit}
    (h : (do
      let document ← getById .documents documentId
      match document with
      | none => pure ()
      | some _ => save .documents documentId (assignStatus status error) : Tx Unit).Runs
        conn result conn') :
    (conn = conn' ∧ ∀ document ∈ conn.db .documents, document.id = documentId →
      conn.policy.visible .documents document = false) ∨
    (conn.Wrote [statusWrite documentId status error] conn' ∧
      ∃ document ∈ conn.db .documents, document.id = documentId) := by
  simp only [Program.runs_bind] at h
  obtain ⟨found, _, hfound, h⟩ := h
  obtain ⟨rfl, hrow⟩ := of_runs_getById hfound
  cases found with
  | none => exact .inl ⟨(Program.runs_pure.mp h).2, of_runs_getById_none hfound⟩
  | some document =>
      obtain ⟨hmem, hid, _⟩ := hrow document rfl
      exact .inr ⟨runs_save.mp h, document, hmem, hid⟩

theorem setStatus_eq_ok {status : DocumentStatus} {error : Option Str} {result : Unit}
    (h : (setStatus orgId documentId status error).Runs conn result conn') :
    let bound := { conn with currentOrg := some orgId }
    (bound = conn' ∧ ∀ document ∈ conn.db .documents, document.id = documentId →
      bound.policy.visible .documents document = false) ∨
    (bound.Wrote [statusWrite documentId status error] conn' ∧
      ∃ document ∈ conn.db .documents, document.id = documentId) := by
  unfold setStatus at h
  rw [Program.runs_bind] at h
  obtain ⟨_, _, hbind, h⟩ := h
  cases runs_setOrgContext.mp hbind
  exact runs_assignStatus h

/-- The first transaction goes on only with a document of the organization. -/
theorem beginIngestion_eq_ok {result : Option Str}
    (h : (beginIngestion orgId documentId).Runs conn result conn') :
    let bound := { conn with currentOrg := some orgId }
    match result with
    | none => bound = conn' ∧ ∀ document ∈ conn.db .documents, document.id = documentId →
        bound.policy.visible .documents document = false
    | some storageKey => bound.Wrote [statusWrite documentId .processing none] conn' ∧
        ∃ document ∈ conn.db .documents, document.id = documentId ∧
          bound.policy.visible .documents document = true ∧
          document.storageKey = some storageKey ∧ storageKey ≠ [] := by
  simp only [beginIngestion, Program.runs_bind, runs_setOrgContext] at h
  obtain ⟨_, _, rfl, found, _, hfound, h⟩ := h
  obtain ⟨rfl, hrow⟩ := of_runs_getById hfound
  cases found with
  | none =>
      obtain ⟨rfl, rfl⟩ := Program.runs_pure.mp h
      exact ⟨rfl, of_runs_getById_none hfound⟩
  | some document =>
      simp only [Program.runs_bind, Program.runs_orRaise, runs_save, Program.runs_pure,
        Option.filter_eq_some_iff, decide_eq_true_eq] at h
      obtain ⟨storageKey, _, ⟨⟨hkey, hne⟩, rfl⟩, _, _, hwrote, rfl, rfl⟩ := h
      obtain ⟨hmem, hid, hvisible⟩ := hrow document rfl
      exact ⟨hwrote, document, hmem, hid, hvisible, hkey, hne⟩

/-- The chunks are those of the text. -/
theorem prepareChunks_eq_ok {settings : Settings} {text : Str} {provider : EmbeddingProvider}
    {chunks : List Str} {vectors : List Embedding}
    (h : prepareChunks settings ⟨.ok text, provider⟩ = .ok (chunks, vectors)) :
    chunkText text settings.chunkSize settings.chunkOverlap = .ok chunks := by
  unfold prepareChunks at h
  cases hchunks : chunkText text settings.chunkSize settings.chunkOverlap with
  | error fault => simp [hchunks, bind, Except.bind, Except.mapError] at h
  | ok found =>
      simp only [hchunks, bind, Except.bind, Except.mapError] at h
      suffices hsame : found = chunks by rw [hsame]
      by_cases hempty : found = []
      · simp only [hempty, if_true, Except.ok.injEq, Prod.mk.injEq] at h
        exact hempty.trans h.1
      · simp only [hempty, if_false] at h
        cases hembed : provider.embed found with
        | error message => simp [hembed] at h
        | ok _ =>
            simp only [hembed, Except.ok.injEq, Prod.mk.injEq] at h
            exact h.1

theorem addChunks_eq_ok {chunkIds : ℕ → Uuid} {index : ℕ} {contents : List Str}
    {embeddings : List Embedding} {result : Unit}
    (h : (addChunks orgId documentId chunkIds index contents embeddings).Runs conn result conn') :
    contents.length = embeddings.length ∧
      conn.Wrote (insertChunks
        (chunkRows orgId documentId chunkIds conn.now index contents embeddings)) conn' := by
  induction contents generalizing index embeddings conn with
  | nil =>
      cases embeddings with
      | nil =>
          obtain ⟨_, rfl⟩ := Program.runs_pure.mp h
          exact ⟨rfl, Conn.wrote_nil.mpr rfl⟩
      | cons embedding embeddings => exact absurd h Program.runs_throw
  | cons content contents ih =>
      cases embeddings with
      | nil => exact absurd h Program.runs_throw
      | cons embedding embeddings =>
          simp only [addChunks, Program.runs_bind, runs_transactionTime, runs_add] at h
          obtain ⟨_, _, ⟨rfl, rfl⟩, _, middle, hfirst, hrest⟩ := h
          obtain ⟨hlength, hrest⟩ := ih hrest
          rw [hfirst.now] at hrest
          exact ⟨congrArg (· + 1) hlength, hfirst.append hrest⟩

/-- The rows of the chunks belong to the document. -/
theorem mem_chunkRows {chunkIds : ℕ → Uuid} {createdAt : Time} {index : ℕ}
    {contents : List Str} {embeddings : List Embedding} {row : DocumentChunk}
    (hrow : row ∈ chunkRows orgId documentId chunkIds createdAt index contents embeddings) :
    row.orgId = orgId ∧ row.documentId = documentId := by
  induction contents generalizing index embeddings with
  | nil => cases hrow
  | cons content contents ih =>
      cases embeddings with
      | nil => cases hrow
      | cons embedding embeddings =>
          rcases List.mem_cons.mp hrow with rfl | hrow
          · exact ⟨rfl, rfl⟩
          · exact ih hrow

/-- A batch is recorded by one event with the token counts of its chunks. -/
theorem recordBatch_eq_ok {provider : EmbeddingProvider} {chunks : List Str} {eventId : Uuid}
    {now : Time} {result : Unit} (hrole : conn.role = .appUser)
    (horg : conn.currentOrg = some orgId)
    (h : (recordBatch orgId documentId provider chunks eventId now).Runs conn result conn') :
    (chunks = [] ∧ conn = conn') ∨
    (chunks ≠ [] ∧ ∃ costUsd, conn.Wrote [.insert .usageEvents
      ((embeddingUsage documentId provider chunks).event orgId costUsd eventId conn.now)]
        conn') := by
  unfold recordBatch at h
  split at h
  · next hempty => exact .inl ⟨hempty, (Program.runs_pure.mp h).2⟩
  · next hchunks =>
      simp only [Program.runs_bind, Program.runs_pure] at h
      obtain ⟨⟨event, crossed⟩, _, hrecord, _, rfl⟩ := h
      obtain ⟨costUsd, _, rfl, hwrote, _⟩ := recordUsage_eq_ok hrole horg hrecord
      exact .inr ⟨hchunks, costUsd, hwrote⟩

/-- What the storing transaction writes: it clears the chunks of the document,
inserts the new ones, records the batch and marks the document as ready. -/
theorem storeChunks_eq_ok {provider : EmbeddingProvider} {chunks : List Str}
    {vectors : List Embedding} {draw : StoreDraw} {now : Time} {result : Unit}
    (hrole : conn.role = .appUser)
    (h : (storeChunks orgId documentId provider chunks vectors draw now).Runs conn result conn') :
    let bound := { conn with currentOrg := some orgId }
    chunks.length = vectors.length ∧ ∃ filled recorded,
      bound.Wrote (clearChunks documentId :: insertChunks
        (chunkRows orgId documentId draw.chunkIds conn.now 0 chunks vectors)) filled ∧
      ((chunks = [] ∧ filled = recorded) ∨
        (chunks ≠ [] ∧ ∃ costUsd, filled.Wrote [.insert .usageEvents
          ((embeddingUsage documentId provider chunks).event orgId costUsd draw.eventId conn.now)]
            recorded)) ∧
      ((recorded = conn' ∧ ∀ document ∈ recorded.db .documents, document.id = documentId →
          recorded.policy.visible .documents document = false) ∨
        (recorded.Wrote [statusWrite documentId .ready none] conn' ∧
          ∃ document ∈ recorded.db .documents, document.id = documentId)) := by
  unfold storeChunks at h
  rw [Program.runs_bind] at h
  obtain ⟨_, _, hbind, h⟩ := h
  cases runs_setOrgContext.mp hbind
  rw [Program.runs_bind] at h
  obtain ⟨_, cleared, hclear, h⟩ := h
  rw [Program.runs_bind] at h
  obtain ⟨_, filled, hfill, h⟩ := h
  rw [Program.runs_bind] at h
  obtain ⟨_, recorded, hrecord, h⟩ := h
  have hclear := runs_execute.mp hclear
  obtain ⟨hlength, hfill⟩ := addChunks_eq_ok hfill
  rw [hclear.now] at hfill
  have hfilled := hclear.append hfill
  have hnow : filled.now = conn.now := hfilled.now
  rw [← hnow]
  exact ⟨hlength, filled, recorded, hnow ▸ hfilled,
    recordBatch_eq_ok (hfilled.role.trans hrole) hfilled.currentOrg hrecord, runs_assignStatus h⟩

end Spec

end Core
