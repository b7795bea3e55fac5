import KnowledgePlatform.Platform.Isolation

/-!
# Ingestion is all or nothing

The chunk rows of a document are at every moment either none or those of one
ingestion run: its chunks in order, each with its vector.  A step that stores
chunks replaces all rows of the document; the only other step that touches
chunk rows deletes a document, which takes all of its rows.

Both rest on the invariant of `Platform.Isolation`: row-level security shows a
run the rows of its own organization, and these are all rows of its document.
-/

open Api Core Foundations Python Relational Worker

namespace Platform

variable {settings : Settings} {crypto : Crypto}

/-- The chunk rows of a document. -/
def chunksOf (db : Database) (documentId : Uuid) : List DocumentChunk :=
  (db .documentChunks).filter fun chunk => chunk.documentId == documentId

/-- The rows hold the chunks in order, under the indexes from 0 on and each with
its vector. -/
def Indexed (chunks : List Str) (vectors : List Embedding) (rows : List DocumentChunk) : Prop :=
  rows.map (fun row => (row.chunkIndex, row.content, row.embedding)) =
    (chunks.zip vectors).zipIdx.map fun item => ((item.2 : ℤ), item.1.1, item.1.2)

/-- The event stored the chunks of a text for this document, and these are their
rows. -/
def CompletedBy (settings : Settings) (event : Event) (documentId : Uuid)
    (rows : List DocumentChunk) : Prop :=
  ∃ run text chunks vectors, event = .stored run text chunks vectors ∧
    run.documentId = documentId ∧
    chunkText text settings.chunkSize settings.chunkOverlap = .ok chunks ∧
    chunks.length = vectors.length ∧ Indexed chunks vectors rows

/-- The rows are the complete result of one run of this document. -/
def Complete (settings : Settings) (trace : List Event) (documentId : Uuid)
    (rows : List DocumentChunk) : Prop :=
  ∃ event ∈ trace, CompletedBy settings event documentId rows

/-- The chunk rows of every document are none or those of one run, and those of
one run when the document is ready. -/
structure AllOrNothing (settings : Settings) (trace : List Event) (db : Database) : Prop where
  chunks : ∀ documentId, chunksOf db documentId = [] ∨
    Complete settings trace documentId (chunksOf db documentId)
  ready : ∀ document ∈ db .documents, document.status = .ready →
    Complete settings trace document.id (chunksOf db document.id)

theorem indexed_chunkRows {orgId documentId : Uuid} {chunkIds : ℕ → Uuid} {createdAt : Time}
    {contents : List Str} {embeddings : List Embedding} :
    Indexed contents embeddings
      (chunkRows orgId documentId chunkIds createdAt 0 contents embeddings) := by
  suffices hfrom : ∀ index, (chunkRows orgId documentId chunkIds createdAt index contents
      embeddings).map (fun row => (row.chunkIndex, row.content, row.embedding)) =
        ((contents.zip embeddings).zipIdx index).map fun item => ((item.2 : ℤ), item.1.1, item.1.2) from
    hfrom 0
  induction contents generalizing embeddings with
  | nil => simp [chunkRows]
  | cons content contents ih =>
      intro index
      cases embeddings with
      | nil => simp [chunkRows]
      | cons embedding embeddings =>
          rw [chunkRows, List.map_cons, ih (index + 1)]
          rfl

/-! ## Steps -/

/-- What a step may do: the chunk rows of a document stay, go, or are completed
by it, and they stay or are completed when the document is ready afterwards. -/
structure Advance (settings : Settings) (event : Event) (db db' : Database) : Prop where
  chunks : ∀ documentId, chunksOf db' documentId = chunksOf db documentId ∨
    chunksOf db' documentId = [] ∨ CompletedBy settings event documentId (chunksOf db' documentId)
  ready : ∀ document' ∈ db' .documents, document'.status = .ready →
    (chunksOf db' document'.id = chunksOf db document'.id ∧
      ∃ document ∈ db .documents, document.id = document'.id ∧ document.status = .ready) ∨
    CompletedBy settings event document'.id (chunksOf db' document'.id)

theorem AllOrNothing.advance {trace : List Event} {event : Event} {db db' : Database}
    (h : AllOrNothing settings trace db) (hadvance : Advance settings event db db') :
    AllOrNothing settings (trace ++ [event]) db' := by
  have hmono : ∀ {documentId rows}, Complete settings trace documentId rows →
      Complete settings (trace ++ [event]) documentId rows :=
    fun ⟨earlier, hearlier, hcompleted⟩ => ⟨earlier, List.mem_append_left _ hearlier, hcompleted⟩
  have hnew : ∀ {documentId rows}, CompletedBy settings event documentId rows →
      Complete settings (trace ++ [event]) documentId rows :=
    fun hcompleted => ⟨event, List.mem_append_right _ List.mem_cons_self, hcompleted⟩
  refine ⟨fun documentId => ?_, fun document' hdocument' hready => ?_⟩
  · rcases hadvance.chunks documentId with hstays | hgone | hcompleted
    · rw [hstays]
      exact (h.chunks documentId).imp_right hmono
    · exact .inl hgone
    · exact .inr (hnew hcompleted)
  · rcases hadvance.ready document' hdocument' hready with
      ⟨hstays, document, hdocument, hid, hbefore⟩ | hcompleted
    · rw [hstays, ← hid]
      exact hmono (h.ready document hdocument hbefore)
    · exact hnew hcompleted

/-! ## Quiet statements -/

/-- The chunk rows are the same, and no document was made ready. -/
structure Calm (db db' : Database) : Prop where
  chunks : db' .documentChunks = db .documentChunks
  ready : ∀ document' ∈ db' .documents, document'.status = .ready →
    ∃ document ∈ db .documents, document.id = document'.id ∧ document.status = .ready

theorem Calm.refl (db : Database) : Calm db db :=
  ⟨rfl, fun document hdocument hready => ⟨document, hdocument, rfl, hready⟩⟩

theorem Calm.trans {first second third : Database} (hfirst : Calm first second)
    (hsecond : Calm second third) : Calm first third := by
  refine ⟨hsecond.chunks.trans hfirst.chunks, fun document hdocument hready => ?_⟩
  obtain ⟨between, hbetween, hid, hready⟩ := hsecond.ready document hdocument hready
  obtain ⟨before, hbefore, hsame, hready⟩ := hfirst.ready between hbetween hready
  exact ⟨before, hbefore, hsame.trans hid, hready⟩

theorem Calm.advance {event : Event} {db db' : Database} (h : Calm db db') :
    Advance settings event db db' := by
  have hstays : ∀ documentId, chunksOf db' documentId = chunksOf db documentId := by
    intro documentId
    unfold chunksOf
    rw [h.chunks]
  exact ⟨fun documentId => .inl (hstays documentId), fun document' hdocument' hready =>
    .inl ⟨hstays document'.id, h.ready document' hdocument' hready⟩⟩

/-- The statement leaves the chunk rows as they are and makes no document ready. -/
def Quiet (write : Write schema) : Prop :=
  ∀ (policy : Policy Row) (db db' : Database), policy.execute schema db write = .ok db' → Calm db db'

theorem calm_of_executes {policy : Policy Row} {writes : List (Write schema)} {db db' : Database}
    (h : policy.Executes schema db writes db') (hquiet : ∀ write ∈ writes, Quiet write) :
    Calm db db' :=
  h.rel Calm.refl Calm.trans fun write hwrite => hquiet write hwrite policy

theorem quiet_of_spares {write : Write schema} (hdocuments : schema.Spares .documents write)
    (hchunks : schema.Spares .documentChunks write) : Quiet write := by
  intro policy db db' h
  refine ⟨hchunks policy db db' h, fun document hdocument hready => ?_⟩
  rw [hdocuments policy db db' h] at hdocument
  exact ⟨document, hdocument, rfl, hready⟩

theorem quiet_insert {table : Table} {row : Row table} (hdocuments : Table.documents ≠ table)
    (hchunks : Table.documentChunks ≠ table) : Quiet (.insert table row) :=
  quiet_of_spares (Schema.spares_insert hdocuments) (Schema.spares_insert hchunks)

theorem quiet_update {table : Table} {selected : Row table → Bool}
    {clause : SetClause schema table} (hdocuments : Table.documents ≠ table)
    (hchunks : Table.documentChunks ≠ table) : Quiet (.update table selected clause) :=
  quiet_of_spares (Schema.spares_update hdocuments) (Schema.spares_update hchunks)

theorem closedAbove_documentChunks :
    schema.ClosedAbove (· ∈ [Table.organizations, .documents, .documentChunks]) := by
  intro table htable fk hfk
  simp only [List.mem_cons, List.not_mem_nil, or_false] at htable
  rcases htable with rfl | rfl | rfl <;>
    simp only [schema, rowForeignKeys, orgKey, List.mem_cons, List.not_mem_nil, or_false] at hfk
  · subst hfk
    decide
  · rcases hfk with rfl | rfl <;> decide

theorem quiet_delete {table : Table} {selected : Row table → Bool}
    (htable : table ∉ [Table.organizations, .documents, .documentChunks]) :
    Quiet (.delete table selected) :=
  quiet_of_spares (Schema.spares_delete closedAbove_documentChunks htable (by decide))
    (Schema.spares_delete closedAbove_documentChunks htable (by decide))

/-- A new document is not ready. -/
theorem quiet_insertDocument {document : Document} (hstatus : document.status ≠ .ready) :
    Quiet (.insert .documents document) := by
  intro policy db db' h
  obtain ⟨rfl, _⟩ := Policy.insertRow_eq_ok h
  have hchunks : Table.documentChunks ≠ .documents := by decide
  refine ⟨Database.insert_of_ne document hchunks, fun found hfound hready => ?_⟩
  rw [Database.insert_self] at hfound
  rcases List.mem_append.mp hfound with hold | hnew
  · exact ⟨found, hold, rfl, hready⟩
  · cases List.mem_singleton.mp hnew
    exact absurd hready hstatus

/-- Assignments to documents that make none ready. -/
theorem quiet_updateDocument {selected : Document → Bool} {clause : SetClause schema .documents}
    (hclause : ∀ document, (clause.set document).status = .ready → document.status = .ready) :
    Quiet (.update .documents selected clause) := by
  intro policy db db' h
  obtain ⟨_, rfl⟩ := Policy.updateRows_eq_ok h
  have hchunks : Table.documentChunks ≠ .documents := by decide
  refine ⟨Database.update_of_ne _ hchunks, fun found hfound hready => ?_⟩
  rw [Database.update_self] at hfound
  obtain ⟨document, hdocument, rfl⟩ := List.mem_map.mp hfound
  refine ⟨document, hdocument, ?_⟩
  split at hready
  · next hselected =>
      rw [if_pos hselected]
      exact ⟨(clause.key_set document).symm, hclause document hready⟩
  · next hselected =>
      rw [if_neg hselected]
      exact ⟨rfl, hready⟩

theorem quiet_statusWrite {documentId : Uuid} {status : DocumentStatus} {error : Option Str}
    (hstatus : status ≠ .ready) : Quiet (statusWrite documentId status error) :=
  quiet_updateDocument fun _ hready => absurd hready hstatus

theorem quiet_authWrite {draws : List Uuid} {write : Write schema} (h : AuthWrite draws write) :
    Quiet write := by
  cases h with
  | organization | user | link | token => exact quiet_insert (by decide) (by decide)
  | revoke => exact quiet_update (by decide) (by decide)

theorem quiet_requestWrite {principal : Principal} {now began : Time} {request : Request}
    (hrequest : ∀ documentId, request ≠ .deleteDocument documentId) :
    ∀ write ∈ request.writes settings crypto principal now began, Quiet write := by
  intro write hwrite
  cases request <;>
    simp only [Request.writes, List.mem_cons, List.not_mem_nil, or_false] at hwrite
  case createDocument => subst hwrite; exact quiet_insertDocument (by simp)
  case updateDocument => subst hwrite; exact quiet_updateDocument fun _ hready => hready
  case uploadDocument =>
    rcases hwrite with rfl | rfl
    · exact quiet_insertDocument (by simp [uploadedDocument])
    · exact quiet_updateDocument fun _ hready => hready
  case deleteDocument documentId => exact absurd rfl (hrequest documentId)
  case updateMyOrganization =>
    split at hwrite
    · cases hwrite
    · cases List.mem_singleton.mp hwrite
      exact quiet_update (by decide) (by decide)
  case createUser | createApiKey | createWebhook | createConversation =>
    subst hwrite
    exact quiet_insert (by decide) (by decide)
  case updateUser | revokeApiKey =>
    subst hwrite
    exact quiet_update (by decide) (by decide)
  case deleteUser | deleteWebhook =>
    subst hwrite
    exact quiet_delete (by decide)

/-! ## Deleting a document -/

section Delete

variable {db : Database} {target : Document → Bool}

theorem removed_organization {organization : Organization} :
    schema.removed db (Schema.only .documents target) .organizations organization = false := by
  refine Schema.removed_of_closedAbove closedAbove_organizations (fun table htable row => ?_) _
    rfl _
  cases htable
  rfl

theorem removed_document {document : Document} :
    schema.removed db (Schema.only .documents target) .documents document = target document := by
  rw [Schema.removed_of_parentsStay]
  · rfl
  · intro fk hfk parent _
    cases List.mem_singleton.mp hfk
    exact removed_organization

theorem removed_chunk {chunk : DocumentChunk} :
    schema.removed db (Schema.only .documents target) .documentChunks chunk = true ↔
      ∃ document ∈ db .documents, document.id = chunk.documentId ∧ target document = true := by
  rw [Schema.removed_iff]
  constructor
  · rintro (hself | ⟨fk, hfk, _, parent, hparent, href, hremoved⟩)
    · cases hself
    · rcases List.mem_cons.mp hfk with rfl | hfk
      · exact absurd (hremoved.symm.trans removed_organization) (by simp)
      · cases List.mem_singleton.mp hfk
        rw [removed_document] at hremoved
        exact ⟨parent, hparent, (Option.some.inj href).symm, hremoved⟩
  · rintro ⟨document, hdocument, hid, htarget⟩
    refine .inr ⟨_, List.mem_cons_of_mem _ List.mem_cons_self, rfl, document, hdocument,
      congrArg some hid.symm, ?_⟩
    rw [removed_document]
    exact htarget

/-- A deletion of documents takes all chunk rows of the documents it takes, and
no others. -/
theorem advance_deleteDocument {event : Event} (sound : schema.Sound db) :
    Advance settings event db (schema.delete db (Schema.only .documents target)) := by
  have hchunks : ∀ documentId,
      chunksOf (schema.delete db (Schema.only .documents target)) documentId =
        (db .documentChunks).filter fun chunk => chunk.documentId == documentId &&
          !schema.removed db (Schema.only .documents target) .documentChunks chunk := by
    intro documentId
    unfold chunksOf
    rw [Schema.delete_of_cascades (by decide), List.filter_filter]
  -- a chunk row goes only with its own document
  have hstay : ∀ documentId,
      (∀ document ∈ db .documents, document.id = documentId → target document = false) →
        chunksOf (schema.delete db (Schema.only .documents target)) documentId =
          chunksOf db documentId := by
    intro documentId hkept
    rw [hchunks documentId, chunksOf]
    refine List.filter_congr fun chunk _ => ?_
    by_cases hchunk : chunk.documentId = documentId
    · have hremoved : schema.removed db (Schema.only .documents target) .documentChunks chunk =
          false := by
        rw [Bool.eq_false_iff, Ne, removed_chunk]
        rintro ⟨document, hdocument, hid, htarget⟩
        rw [hkept document hdocument (hid.trans hchunk)] at htarget
        cases htarget
      rw [hremoved, Bool.not_false, Bool.and_true]
    · simp [hchunk]
  refine ⟨fun documentId => ?_, fun document hdocument hready => .inl ?_⟩
  · by_cases hgone : ∃ document ∈ db .documents, document.id = documentId ∧ target document = true
    · obtain ⟨document, hdocument, hid, htarget⟩ := hgone
      refine .inr (.inl ?_)
      rw [hchunks documentId, List.filter_eq_nil_iff]
      intro chunk _ hchunk
      obtain ⟨hsame, hkept⟩ := Bool.and_eq_true_iff.mp hchunk
      have hremoved := (@removed_chunk db target chunk).mpr
        ⟨document, hdocument, hid.trans (eq_of_beq hsame).symm, htarget⟩
      rw [hremoved] at hkept
      cases hkept
    · refine .inl (hstay documentId fun document hdocument hid => ?_)
      rw [Bool.eq_false_iff]
      exact fun htarget => hgone ⟨document, hdocument, hid, htarget⟩
  · rw [Schema.delete_of_cascades (by decide)] at hdocument
    obtain ⟨hmem, hkept⟩ := List.mem_filter.mp hdocument
    rw [removed_document, Bool.not_eq_true'] at hkept
    refine ⟨hstay document.id fun other hother hid => ?_, document, hmem, rfl, hready⟩
    rw [sound.eq_of_key_eq hother hmem hid]
    exact hkept

end Delete

/-! ## Storing chunks -/

/-- A run sees all chunk rows of its document: they belong to its organization. -/
theorem visible_chunk {db : Database} {run : IngestionRun} {began : Time}
    (sound : schema.Sound db)
    (hwithin : schema.KeyWithin db run.orgId .documents run.documentId) {chunk : DocumentChunk}
    (hchunk : chunk ∈ db .documentChunks) (hdocument : chunk.documentId = run.documentId) :
    (boundConn run.orgId began db).policy.visible .documentChunks chunk = true := by
  have hfk : _ ∈ rowForeignKeys .documentChunks := List.mem_cons_of_mem _ List.mem_cons_self
  obtain ⟨document, hmem, hid⟩ := sound.resolved .documentChunks chunk hchunk _ hfk _ rfl
  have howner : rowOrg .documents document = some run.orgId :=
    hwithin document hmem (hid.trans hdocument)
  have hsame := noCrossLinks_of_sound sound .documentChunks chunk hchunk _ hfk document hmem
    (congrArg some hid.symm) _ _ rfl howner
  simp [boundConn, Conn.policy, Core.policy, orgIsolation, rowOrg, hsame]

/-- What storing leaves of the chunk rows: those of other documents, and the new
ones. -/
theorem documentChunks_of_stored {db db' : Database} {run : IngestionRun} {began : Time}
    {rows : List DocumentChunk} {later : List (Write schema)} (sound : schema.Sound db)
    (hwithin : schema.KeyWithin db run.orgId .documents run.documentId)
    (hlater : ∀ write ∈ later, schema.Spares .documentChunks write)
    (h : (boundConn run.orgId began db).policy.Executes schema db
      (clearChunks run.documentId :: insertChunks rows ++ later) db') :
    db' .documentChunks =
      ((db .documentChunks).filter fun chunk => !(chunk.documentId == run.documentId)) ++ rows := by
  obtain ⟨filled, ⟨cleared, hclear, hinsert⟩, hrest⟩ := Policy.executes_append.mp h
  rw [Schema.apply_of_spares hrest hlater, Policy.executes_inserts hinsert]
  obtain ⟨_, rfl⟩ := Policy.deleteRows_eq_ok hclear
  congr 1
  have hclosed : schema.ClosedAbove (· ∈ [Table.organizations, .documents]) := by
    intro table htable fk hfk
    simp only [List.mem_cons, List.not_mem_nil, or_false] at htable
    rcases htable with rfl | rfl <;>
      simp only [schema, rowForeignKeys, orgKey, List.mem_cons, List.not_mem_nil, or_false] at hfk
    subst hfk
    decide
  -- nothing above the chunk rows is deleted, so no row is nulled or cascaded
  have hparents : schema.ParentsStay db (Schema.only .documentChunks fun chunk =>
      (boundConn run.orgId began db).policy.visible .documentChunks chunk &&
        chunk.documentId == run.documentId) .documentChunks := by
    intro fk hfk parent _
    refine Schema.removed_of_closedAbove hclosed (fun table htable row => ?_) _ ?_ _
    · unfold Schema.only
      rw [Function.update_of_ne]
      rintro rfl
      exact absurd htable (by decide)
    · simp only [schema, rowForeignKeys, orgKey, List.mem_cons, List.not_mem_nil, or_false] at hfk
      rcases hfk with rfl | rfl <;> decide
  rw [Schema.delete_of_parentsStay hparents]
  refine List.filter_congr fun chunk hchunk => congrArg (!·) ?_
  change ((boundConn run.orgId began db).policy.visible .documentChunks chunk &&
    chunk.documentId == run.documentId) = _
  by_cases hdocument : chunk.documentId = run.documentId
  · rw [visible_chunk sound hwithin hchunk hdocument, Bool.true_and]
  · simp [hdocument]

/-- The documents after a list of statements whose last one may assign a status
to one document: each was there, with its status unless it is that document. -/
theorem documents_of_ready {policy : Policy Row} {documentId : Uuid} {db db' : Database}
    {writes ready : List (Write schema)}
    (hwrites : ∀ write ∈ writes, schema.Spares .documents write)
    (hready : ready = [] ∨ ready = [statusWrite documentId .ready none])
    (h : policy.Executes schema db (writes ++ ready) db') :
    ∀ document' ∈ db' .documents, document'.id = documentId ∨ document' ∈ db .documents := by
  intro document' hdocument'
  obtain ⟨middle, hfirst, hlast⟩ := Policy.executes_append.mp h
  rw [← Schema.apply_of_spares hfirst hwrites]
  rcases hready with rfl | rfl
  · rw [Policy.executes_nil.mp hlast]
    exact .inr hdocument'
  · obtain ⟨_, hstatus, rfl⟩ := hlast
    obtain ⟨_, rfl⟩ := Policy.updateRows_eq_ok hstatus
    rw [Database.update_self] at hdocument'
    obtain ⟨document, hdocument, rfl⟩ := List.mem_map.mp hdocument'
    split
    · next hselected =>
        obtain ⟨_, hid⟩ := Bool.and_eq_true_iff.mp hselected
        exact .inl (eq_of_beq hid)
    · exact .inr hdocument

/-- What is written after the chunks concerns neither chunk rows nor, apart from
the status, documents. -/
theorem spares_recorded {run : IngestionRun} {provider : EmbeddingProvider} {chunks : List Str}
    {draw : StoreDraw} {began : Time} {recorded : List (Write schema)} {table : Table}
    (htable : table ≠ .usageEvents)
    (hrecorded : (chunks = [] ∧ recorded = []) ∨ (chunks ≠ [] ∧ ∃ costUsd,
      recorded = [.insert .usageEvents
        ((embeddingUsage run.documentId provider chunks).event run.orgId costUsd draw.eventId
          began)])) : ∀ write ∈ recorded, schema.Spares table write := by
  intro write hwrite
  rcases hrecorded with ⟨_, rfl⟩ | ⟨_, costUsd, rfl⟩
  · cases hwrite
  · cases List.mem_singleton.mp hwrite
    exact Schema.spares_insert htable

theorem chunksOf_of_stored {db db' : Database} {documentId : Uuid} {rows : List DocumentChunk}
    (hrows : ∀ row ∈ rows, row.documentId = documentId)
    (h : db' .documentChunks =
      ((db .documentChunks).filter fun chunk => !(chunk.documentId == documentId)) ++ rows) :
    chunksOf db' documentId = rows ∧
      ∀ other ≠ documentId, chunksOf db' other = chunksOf db other := by
  constructor
  · unfold chunksOf
    rw [h, List.filter_append, List.filter_filter, List.filter_eq_nil_iff.mpr, List.nil_append,
      List.filter_eq_self.mpr]
    · intro row hrow
      exact beq_iff_eq.mpr (hrows row hrow)
    · intro chunk _ hchunk
      simp at hchunk
  · intro other hother
    have hnone : rows.filter (fun row => row.documentId == other) = [] := by
      refine List.filter_eq_nil_iff.mpr fun row hrow hsame => ?_
      exact hother ((eq_of_beq hsame).symm.trans (hrows row hrow))
    unfold chunksOf
    rw [h, List.filter_append, List.filter_filter, hnone, List.append_nil]
    refine List.filter_congr fun chunk _ => ?_
    by_cases hchunk : chunk.documentId = other
    · simp [hchunk, hother]
    · simp [hchunk]

/-- What a storing transaction did: the document has the chunk rows of the run and
no others, and a batch is recorded by one usage event. -/
structure Stored (settings : Settings) (run : IngestionRun) (text : Str) (chunks : List Str)
    (vectors : List Embedding) (provider : EmbeddingProvider) (draw : StoreDraw) (began : Time)
    (db db' : Database) : Prop where
  chunked : chunkText text settings.chunkSize settings.chunkOverlap = .ok chunks
  length : chunks.length = vectors.length
  rows : chunksOf db' run.documentId =
    chunkRows run.orgId run.documentId draw.chunkIds began 0 chunks vectors
  others : ∀ other ≠ run.documentId, chunksOf db' other = chunksOf db other
  documents : ∀ document' ∈ db' .documents,
    document'.id = run.documentId ∨ document' ∈ db .documents
  events : (chunks = [] ∧ db' .usageEvents = db .usageEvents) ∨
    (chunks ≠ [] ∧ ∃ costUsd, db' .usageEvents = db .usageEvents ++
      [(embeddingUsage run.documentId provider chunks).event run.orgId costUsd draw.eventId began])

/-- The usage event is inserted after the chunks and before the status is set. -/
theorem usageEvents_of_stored {policy : Policy Row} {run : IngestionRun} {db db' : Database}
    {filling recorded ready : List (Write schema)} {events : List UsageEvent}
    (hfilling : ∀ write ∈ filling, schema.Spares .usageEvents write)
    (hready : ready = [] ∨ ready = [statusWrite run.documentId .ready none])
    (hrecorded : recorded = events.map fun event => .insert .usageEvents event)
    (h : policy.Executes schema db (filling ++ (recorded ++ ready)) db') :
    db' .usageEvents = db .usageEvents ++ events := by
  subst hrecorded
  obtain ⟨filled, hfill, hrest⟩ := Policy.executes_append.mp h
  obtain ⟨middle, hrecord, hstatus⟩ := Policy.executes_append.mp hrest
  have hlast : db' .usageEvents = middle .usageEvents := by
    refine Schema.apply_of_spares hstatus fun write hwrite => ?_
    rcases hready with rfl | rfl
    · cases hwrite
    · cases List.mem_singleton.mp hwrite
      exact Schema.spares_update (by decide)
  have hinserted : middle .usageEvents = filled .usageEvents ++ events :=
    Policy.executes_inserts hrecord
  rw [hlast, hinserted, Schema.apply_of_spares hfill hfilling]

theorem stored_of_step {world world' : World} {run : IngestionRun} {text : Str}
    {chunks : List Str} {vectors : List Embedding} (hcoherent : Coherent world)
    (hstep : Step settings crypto world (.stored run text chunks vectors) world') :
    ∃ provider draw began, Stored settings run text chunks vectors provider draw began world.db
      world'.db := by
  have hrun := (inFlight_of_step hstep).2.2.1 run text chunks vectors rfl
  have hheld := hcoherent.runs run (.inl hrun)
  obtain ⟨conn, writes, heffect, hexecutes⟩ := step_executes hstep
  cases heffect with
  | @stored _ _ provider _ _ draw began recorded ready hchunked hlength hrecorded hready =>
      have hready : ready = [] ∨ ready = [statusWrite run.documentId .ready none] :=
        hready.imp_left And.left
      have hspares : ∀ table, table ≠ .usageEvents → ∀ write ∈ recorded,
          schema.Spares table write := fun table htable => spares_recorded htable hrecorded
      have hlater : ∀ write ∈ recorded ++ ready, schema.Spares .documentChunks write := by
        intro write hwrite
        rcases List.mem_append.mp hwrite with hrecord | hstatus
        · exact hspares _ (by decide) write hrecord
        · rcases hready with rfl | rfl
          · cases hstatus
          · cases List.mem_singleton.mp hstatus
            exact Schema.spares_update (by decide)
      obtain ⟨hrows, hothers⟩ := chunksOf_of_stored (fun row hrow => (mem_chunkRows hrow).2)
        (documentChunks_of_stored hcoherent.sound hheld.1 hlater hexecutes)
      refine ⟨provider, draw, began, hchunked, hlength, hrows, hothers, ?_, ?_⟩
      · have hbefore : ∀ write ∈ clearChunks run.documentId :: insertChunks
            (chunkRows run.orgId run.documentId draw.chunkIds began 0 chunks vectors) ++ recorded,
            schema.Spares .documents write := by
          intro write hwrite
          rcases List.mem_append.mp hwrite with hchunk | hrecord
          · exact spares_filling (by decide) write hchunk
          · exact hspares _ (by decide) write hrecord
        rw [← List.append_assoc] at hexecutes
        exact documents_of_ready hbefore hready hexecutes
      · have hfilling := @spares_filling run.documentId
          (chunkRows run.orgId run.documentId draw.chunkIds began 0 chunks vectors) .usageEvents
          (by decide)
        rcases hrecorded with ⟨hempty, rfl⟩ | ⟨hne, costUsd, rfl⟩
        · have hsame := @usageEvents_of_stored _ run _ _ _ _ _ [] hfilling hready rfl hexecutes
          exact .inl ⟨hempty, hsame.trans (List.append_nil _)⟩
        · exact .inr ⟨hne, costUsd, @usageEvents_of_stored _ run _ _ _ _ _ [_] hfilling hready rfl
            hexecutes⟩

/-- The chunk rows of the document are complete, those of the others as they were. -/
theorem Stored.advance {run : IngestionRun} {text : Str} {chunks : List Str}
    {vectors : List Embedding} {provider : EmbeddingProvider} {draw : StoreDraw} {began : Time}
    {db db' : Database}
    (h : Stored settings run text chunks vectors provider draw began db db') :
    Advance settings (.stored run text chunks vectors) db db' := by
  have hcompleted : CompletedBy settings (.stored run text chunks vectors) run.documentId
      (chunksOf db' run.documentId) := by
    rw [h.rows]
    exact ⟨run, text, chunks, vectors, rfl, rfl, h.chunked, h.length, indexed_chunkRows⟩
  refine ⟨fun documentId => ?_, fun document' hdocument' hstatus => ?_⟩
  · by_cases hsame : documentId = run.documentId
    · exact .inr (.inr (hsame ▸ hcompleted))
    · exact .inl (h.others documentId hsame)
  · by_cases hsame : document'.id = run.documentId
    · exact .inr (hsame ▸ hcompleted)
    · have hbefore := (h.documents document' hdocument').resolve_left hsame
      exact .inl ⟨h.others document'.id hsame, document', hbefore, rfl, hstatus⟩

/-! ## Every step -/

/-- What a step may do to chunk rows and ready documents. -/
theorem advance_of_step {world world' : World} {event : Event} (hcoherent : Coherent world)
    (hstep : Step settings crypto world event world') :
    Advance settings event world.db world'.db := by
  obtain ⟨conn, writes, heffect, hexecutes⟩ := step_executes hstep
  have hquiet : (∀ write ∈ writes, Quiet write) → Advance settings event world.db world'.db :=
    fun hwrites => (calm_of_executes hexecutes hwrites).advance
  cases heffect with
  | auth hwrites => exact hquiet fun write hwrite => quiet_authWrite (hwrites write hwrite)
  | authenticated =>
      refine hquiet fun write hwrite => ?_
      cases List.mem_singleton.mp hwrite
      exact quiet_update (by decide) (by decide)
  | @served _ _ _ request _ _ _ _ _ _ _ hwrites =>
      rcases hwrites with rfl | rfl
      · exact hquiet fun write hwrite => by cases hwrite
      · cases request
        -- the only request that touches chunk rows
        case deleteDocument documentId =>
          obtain ⟨_, hdelete, hresult⟩ := hexecutes
          obtain ⟨_, rfl⟩ := Policy.deleteRows_eq_ok hdelete
          rw [← Policy.executes_nil.mp hresult]
          exact advance_deleteDocument hcoherent.sound
        all_goals exact hquiet (quiet_requestWrite fun documentId => by simp)
  | asked =>
      refine hquiet fun write hwrite => ?_
      cases List.mem_singleton.mp hwrite
      exact quiet_insert (by decide) (by decide)
  | answered =>
      refine hquiet fun write hwrite => ?_
      simp only [answerWrites, List.mem_cons, List.not_mem_nil, or_false] at hwrite
      rcases hwrite with rfl | rfl <;> exact quiet_insert (by decide) (by decide)
  | ingesting =>
      refine hquiet fun write hwrite => ?_
      cases List.mem_singleton.mp hwrite
      exact quiet_statusWrite (by decide)
  | notIngested | raised | dispatched => exact hquiet fun write hwrite => by cases hwrite
  | failed hwrites =>
      refine hquiet fun write hwrite => ?_
      rcases hwrites with ⟨rfl, _⟩ | rfl
      · cases hwrite
      · cases List.mem_singleton.mp hwrite
        exact quiet_statusWrite (by decide)
  | stored =>
      obtain ⟨_, _, _, hstored⟩ := stored_of_step hcoherent hstep
      exact hstored.advance

theorem allOrNothing_of_runs {start world : World} {trace : List Event} (hstart : Initial start)
    (hempty : start.db .documentChunks = [])
    (hpending : ∀ document ∈ start.db .documents, document.status ≠ .ready)
    (hrun : Runs settings crypto start trace world) :
    Coherent world ∧ AllOrNothing settings trace world.db := by
  have hfirst : AllOrNothing settings [] start.db := by
    refine ⟨fun documentId => .inl ?_, fun document hdocument hready => ?_⟩
    · rw [chunksOf, hempty, List.filter_nil]
    · exact absurd hready (hpending document hdocument)
  refine hrun.invariant (P := fun trace world =>
    Coherent world ∧ AllOrNothing settings trace world.db) ⟨hstart.coherent, hfirst⟩ ?_
  rintro earlier before event after _ ⟨hcoherent, hall⟩ hstep
  exact ⟨hcoherent.step hstep, hall.advance (advance_of_step hcoherent hstep)⟩

/-! ## The steps of one run -/

/-- The chunk rows and the usage events are as they were. -/
structure Untouched (db db' : Database) : Prop where
  chunks : db' .documentChunks = db .documentChunks
  events : db' .usageEvents = db .usageEvents

/-- The document, if it is still there, has failed with the message; nothing else
happened to documents. -/
def MarkedFailed (documentId : Uuid) (message : Str) (db db' : Database) : Prop :=
  db' .documents = (db .documents).map fun document =>
    if document.id = documentId then
      { document with status := .failed, error := some (message.take maxErrorLength) }
    else document

/-- One usage event was added, for the tokens of the chunk rows of the document. -/
def BatchRecorded (run : IngestionRun) (db db' : Database) : Prop :=
  ∃ event : UsageEvent, db' .usageEvents = db .usageEvents ++ [event] ∧
    event.kind = .embedding ∧ event.orgId = run.orgId ∧
    event.documentId = some run.documentId ∧
    event.inputTokens = ((chunksOf db' run.documentId).map DocumentChunk.tokenCount).sum

/-- What the steps of a run do: its first transaction and an exception leave chunk
rows and usage events alone, and so does the transaction after the exception,
which marks the document; storing chunks leaves exactly these, and records them. -/
def Event.Ingests (world world' : World) : Event → Prop
  | .ingesting _ => Untouched world.db world'.db
  | .raised run message => world'.db = world.db ∧ (run, message) ∈ world'.failing
  | .failed run message => Untouched world.db world'.db ∧
      MarkedFailed run.documentId message world.db world'.db
  | .stored run _ chunks vectors => Indexed chunks vectors (chunksOf world'.db run.documentId) ∧
      (chunks = [] → world'.db .usageEvents = world.db .usageEvents) ∧
      (chunks ≠ [] → BatchRecorded run world.db world'.db)
  | .auth .. | .authenticated .. | .served .. | .asked _ | .answered .. | .notIngested ..
  | .dispatched .. => True

theorem tokenCounts_chunkRows {orgId documentId : Uuid} {chunkIds : ℕ → Uuid} {createdAt : Time}
    {index : ℕ} {contents : List Str} {embeddings : List Embedding}
    (hlength : contents.length = embeddings.length) :
    (chunkRows orgId documentId chunkIds createdAt index contents embeddings).map
      DocumentChunk.tokenCount = contents.map fun content => (estimateTokens content : ℤ) := by
  induction contents generalizing index embeddings with
  | nil => rfl
  | cons content contents ih =>
      cases embeddings with
      | nil => cases hlength
      | cons embedding embeddings =>
          rw [chunkRows, List.map_cons, ih (Nat.succ.inj hlength), List.map_cons]
          rfl

theorem spares_statusWrite {table : Table} {documentId : Uuid} {status : DocumentStatus}
    {error : Option Str} (htable : table ≠ .documents) :
    schema.Spares table (statusWrite documentId status error) :=
  Schema.spares_update htable

theorem untouched_of_statusWrites {policy : Policy Row} {documentId : Uuid}
    {status : DocumentStatus} {error : Option Str} {db db' : Database}
    {writes : List (Write schema)}
    (hwrites : writes = [] ∨ writes = [statusWrite documentId status error])
    (h : policy.Executes schema db writes db') : Untouched db db' := by
  have hspares : ∀ table, table ≠ .documents → ∀ write ∈ writes, schema.Spares table write := by
    intro table htable write hwrite
    rcases hwrites with rfl | rfl
    · cases hwrite
    · cases List.mem_singleton.mp hwrite
      exact spares_statusWrite htable
  exact ⟨Schema.apply_of_spares h (hspares _ (by decide)),
    Schema.apply_of_spares h (hspares _ (by decide))⟩

/-- The transaction after an exception marks the document, unless it is gone. -/
theorem markedFailed_of_executes {run : IngestionRun} {message : Str} {began : Time}
    {db db' : Database} {writes : List (Write schema)}
    (hwithin : schema.KeyWithin db run.orgId .documents run.documentId)
    (hwrites : (writes = [] ∧ Gone run db) ∨ writes =
      [statusWrite run.documentId .failed (some (message.take maxErrorLength))])
    (h : (boundConn run.orgId began db).policy.Executes schema db writes db') :
    MarkedFailed run.documentId message db db' := by
  unfold MarkedFailed
  rcases hwrites with ⟨rfl, hgone⟩ | rfl
  · rw [← Policy.executes_nil.mp h]
    refine (List.map_id _).symm.trans (List.map_congr_left fun document hdocument => ?_)
    have hid : document.id ≠ run.documentId := fun hid =>
      hgone document hdocument hid (Option.some.inj (hwithin document hdocument hid))
    rw [if_neg hid]
    rfl
  · obtain ⟨_, hstatus, rfl⟩ := h
    obtain ⟨_, rfl⟩ := Policy.updateRows_eq_ok hstatus
    rw [Database.update_self]
    refine List.map_congr_left fun document hdocument => ?_
    by_cases hid : document.id = run.documentId
    · have howner : rowOrg .documents document = some run.orgId := hwithin document hdocument hid
      have hvisible : (boundConn run.orgId began db).policy.visible .documents document = true := by
        simp [boundConn, Conn.policy, Core.policy, orgIsolation, howner]
      rw [hvisible, if_pos hid, Bool.true_and, if_pos (by simpa [rowId] using hid)]
      rfl
    · rw [if_neg hid, if_neg (by simp [rowId, hid])]

theorem Stored.ingests {run : IngestionRun} {text : Str} {chunks : List Str}
    {vectors : List Embedding} {provider : EmbeddingProvider} {draw : StoreDraw} {began : Time}
    {db db' : Database}
    (h : Stored settings run text chunks vectors provider draw began db db') :
    Indexed chunks vectors (chunksOf db' run.documentId) ∧
      (chunks = [] → db' .usageEvents = db .usageEvents) ∧
      (chunks ≠ [] → BatchRecorded run db db') := by
  refine ⟨h.rows ▸ indexed_chunkRows, fun hempty => ?_, fun hne => ?_⟩
  · rcases h.events with ⟨_, hsame⟩ | ⟨hne, _⟩
    · exact hsame
    · exact absurd hempty hne
  · rcases h.events with ⟨hempty, _⟩ | ⟨_, costUsd, hevent⟩
    · exact absurd hempty hne
    · refine ⟨_, hevent, rfl, rfl, rfl, ?_⟩
      rw [h.rows, tokenCounts_chunkRows h.length]
      change (((chunks.map estimateTokens).sum : ℕ) : ℤ) = _
      rw [Nat.cast_list_sum, List.map_map]
      rfl

/-- The steps of the runs, one by one. -/
theorem ingests_of_step {world world' : World} {event : Event} (hcoherent : Coherent world)
    (hstep : Step settings crypto world event world') : event.Ingests world world' := by
  obtain ⟨_, _, hingesting, hfailing⟩ := inFlight_of_step hstep
  obtain ⟨conn, writes, heffect, hexecutes⟩ := step_executes hstep
  cases heffect with
  | auth | authenticated | served | asked | answered | notIngested | dispatched => trivial
  | ingesting => exact untouched_of_statusWrites (.inr rfl) hexecutes
  | raised =>
      cases hstep with
      | raised => exact ⟨rfl, List.mem_cons_self⟩
  | @failed run message _ _ hwrites =>
      have hheld := hcoherent.runs run (.inr ⟨message, hfailing run message rfl⟩)
      exact ⟨untouched_of_statusWrites (hwrites.imp_left And.left) hexecutes,
        markedFailed_of_executes hheld.1 hwrites hexecutes⟩
  | stored =>
      obtain ⟨_, _, _, hstored⟩ := stored_of_step hcoherent hstep
      exact hstored.ingests

/-! ## All or nothing -/

/-- In every reachable state the chunk rows of a document are none or those of one
run, and those of one run when it is ready; and every step of a run does what
`Event.Ingests` says. -/
theorem ingestion_allOrNothing {start world world' : World} {trace : List Event} {event : Event}
    (hstart : Initial start) (hempty : start.db .documentChunks = [])
    (hpending : ∀ document ∈ start.db .documents, document.status ≠ .ready)
    (hrun : Runs settings crypto start trace world)
    (hstep : Step settings crypto world event world') :
    AllOrNothing settings trace world.db ∧ AllOrNothing settings (trace ++ [event]) world'.db ∧
      event.Ingests world world' := by
  obtain ⟨hcoherent, hall⟩ := allOrNothing_of_runs hstart hempty hpending hrun
  exact ⟨hall, hall.advance (advance_of_step hcoherent hstep), ingests_of_step hcoherent hstep⟩

/-- Two runs of one document: the first has stored its chunks, the second has
raised an exception. -/
def twoRuns : List (Time × Action) :=
  [(0, .auth (.signup ⟨"A".toList, "a@x".toList, [], none⟩ [] ⟨1, 2, []⟩ ⟨"first".toList, 3⟩)),
    (0, .serve 1 2 false (.uploadDocument sampleUpload 8 (.ok ()))),
    (0, .beginIngestion 1 8), (0, .beginIngestion 1 8),
    (0, .store sampleRun "two words".toList flatProvider
      ⟨fun index => BitVec.ofNat 128 (100 + index), 30⟩),
    (0, .raiseWork sampleRun ⟨.error "no text".toList, flatProvider⟩)]

theorem ingestion_allOrNothing_failing : ∃ trace world event world',
    performAll wordSettings sampleCrypto emptyWorld twoRuns = some (trace, world) ∧
    perform wordSettings sampleCrypto 0 world (.fail sampleRun "no text".toList) =
      some (event, world') ∧
    ((world.db .documents).map Document.status, (chunksOf world.db 8).length,
      (world'.db .documents).map Document.status, (chunksOf world'.db 8).length) =
        ([.ready], 2, [.failed], 2) ∧
    AllOrNothing wordSettings trace world.db ∧
    AllOrNothing wordSettings (trace ++ [event]) world'.db ∧ event.Ingests world world' := by
  have hevaluate : ((performAll wordSettings sampleCrypto emptyWorld twoRuns).bind
      fun setup => (perform wordSettings sampleCrypto 0 setup.2
        (.fail sampleRun "no text".toList)).map fun failed =>
          ((setup.2.db .documents).map Document.status, (chunksOf setup.2.db 8).length,
            (failed.2.db .documents).map Document.status, (chunksOf failed.2.db 8).length)) =
      some ([.ready], 2, [.failed], 2) := by decide +kernel
  obtain ⟨⟨trace, world⟩, hsetup, hrest⟩ := Option.bind_eq_some_iff.mp hevaluate
  obtain ⟨⟨event, world'⟩, hfail, hfacts⟩ := Option.map_eq_some_iff.mp hrest
  obtain ⟨hbefore, hafter, hingests⟩ := ingestion_allOrNothing initial_emptyWorld rfl
    (fun _ hdocument => absurd hdocument List.not_mem_nil) (runs_of_performAll hsetup)
    (step_of_perform hfail)
  exact ⟨trace, world, event, world', hsetup, hfail, hfacts, hbefore, hafter, hingests⟩

end Platform
