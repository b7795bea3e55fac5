import KnowledgePlatform.Platform.IngestionRuns

/-!
# Uploads and their ingestion

An upload is answered before it is committed.  The background task that
enqueues the ingestion runs as part of sending the response, and the transaction
of `get_principal` commits when the dependency is left, which is after that.  A
worker may take the task from the queue in between.  Here the request is
followed statement by statement, next to the worker, whose transactions are
steps of the platform, and to everything else the platform does meanwhile.

Until the commit no transaction of the worker sees the document.  A task that
looks for it too early takes it for deleted and is over, and as uploads enqueue
one task each, the document stays pending.
-/

open Api Core Foundations Python Relational Worker

namespace Platform

/-- The committed rows under the id of a document. -/
def documentsOf (db : Database) (documentId : Uuid) : List Document :=
  (db .documents).filter fun document => document.id == documentId

/-- An upload request past its dependencies, and the id drawn for its document. -/
structure Upload where
  principal : Principal
  file : UploadFile
  id : Uuid

/-- The statements up to the first flush. -/
def flushDocument (settings : Settings) (upload : Upload) : Tx Document := do
  checkUpload settings upload.file
  let createdAt ← transactionTime
  let document := uploadedDocument upload.principal.orgId upload.id
    (safeFilename upload.file.filename) createdAt
  add .documents document
  pure document

/-- The storage upload, and the flush of the storage key. -/
def saveStorageKey (upload : Upload) (stored : Except Str Unit) (document : Document) :
    Tx Document := do
  let key := buildKey upload.principal.orgId upload.id (safeFilename upload.file.filename)
  ofLibrary stored
  save .documents upload.id (assignStorageKey key)
  pure ((assignStorageKey key).set document)

/-- The two parts make up the handler. -/
theorem uploadDocument_eq (settings : Settings) (upload : Upload) (stored : Except Str Unit) :
    uploadDocument settings upload.principal upload.file upload.id stored =
      flushDocument settings upload >>= saveStorageKey upload stored := by
  simp only [uploadDocument, flushDocument, saveStorageKey, bind_assoc, pure_bind]

/-! ## Steps -/

/-- How far a request is, and the row its transaction holds. -/
inductive RequestPhase
  | received
  | flushed (document : Document)
  | stored (document : Document)
  | responded (document : Document)
  | enqueued (document : Document)
  | committed
  | rolledBack

/-- How a task ends: without finding its document, with the document ready or
failed, or by an exception that is noted nowhere. -/
inductive TaskOutcome
  | missing
  | ready
  | failed
  | unrecorded
  deriving DecidableEq

/-- How far the task of an upload is. -/
inductive TaskPhase
  | absent
  | queued
  | running (run : IngestionRun)
  | failing (run : IngestionRun) (message : Str)
  | finished (outcome : TaskOutcome)
  deriving DecidableEq

/-- A request and its task, in a platform. -/
structure UploadRace where
  world : World
  request : RequestPhase
  task : TaskPhase

inductive UploadEvent
  | flush
  | store
  | respond
  | enqueue
  | commit
  | rollBack
  | beginTask
  | work
  | noteFailure
  | others (event : Event)

/-- The event deletes the document, or belongs to a run of its ingestion. -/
def Event.Concerns (documentId : Uuid) : Event → Prop
  | .served _ _ _ request _ _ => request = .deleteDocument documentId
  | .ingesting run | .stored run _ _ _ | .raised run _ | .failed run _ =>
      run.documentId = documentId
  | .notIngested _ missing => missing = documentId
  | .auth .. | .authenticated .. | .asked _ | .answered .. | .dispatched .. => False

variable (settings : Settings) (crypto : Crypto) (upload : Upload)

/-- The transaction of the request sees the row it holds; the row joins the
committed database with the commit, which follows the background task if there
is one.  Before that the transaction may be rolled back at any point. -/
inductive UploadStep : UploadRace → UploadEvent → UploadRace → Prop
  | flush {world : World} {task : TaskPhase} {document : Document} {began : Time} {conn' : Conn} :
      (flushDocument settings upload).Runs (boundConn upload.principal.orgId began world.db)
        document conn' →
      UploadStep ⟨world, .received, task⟩ .flush ⟨world, .flushed document, task⟩
  | store {world : World} {task : TaskPhase} {document document' : Document} {began : Time}
      {conn' : Conn} :
      (saveStorageKey upload (.ok ()) document).Runs
        (boundConn upload.principal.orgId began (world.db.insert .documents document))
        document' conn' →
      UploadStep ⟨world, .flushed document, task⟩ .store ⟨world, .stored document', task⟩
  | respond {world : World} {task : TaskPhase} {document : Document} :
      UploadStep ⟨world, .stored document, task⟩ .respond ⟨world, .responded document, task⟩
  | enqueue {world : World} {document : Document} : settings.autoIngestOnUpload = true →
      UploadStep ⟨world, .responded document, .absent⟩ .enqueue
        ⟨world, .enqueued document, .queued⟩
  | commit {world : World} {task : TaskPhase} {document : Document} :
      UploadStep ⟨world, .enqueued document, task⟩ .commit
        ⟨{ world with db := world.db.insert .documents document }, .committed, task⟩
  | commitOnly {world : World} {task : TaskPhase} {document : Document} :
      settings.autoIngestOnUpload = false →
      UploadStep ⟨world, .responded document, task⟩ .commit
        ⟨{ world with db := world.db.insert .documents document }, .committed, task⟩
  | rollBack {world : World} {request : RequestPhase} {task : TaskPhase} :
      request ≠ .committed →
      UploadStep ⟨world, request, task⟩ .rollBack ⟨world, .rolledBack, task⟩
  | beginTask {world world' : World} {request : RequestPhase} {storageKey : Str} :
      Step settings crypto world (.ingesting ⟨upload.principal.orgId, upload.id, storageKey⟩)
        world' →
      UploadStep ⟨world, request, .queued⟩ .beginTask
        ⟨world', request, .running ⟨upload.principal.orgId, upload.id, storageKey⟩⟩
  | missDocument {world world' : World} {request : RequestPhase} :
      Step settings crypto world (.notIngested upload.principal.orgId upload.id) world' →
      UploadStep ⟨world, request, .queued⟩ .beginTask ⟨world', request, .finished .missing⟩
  | beginRaises {world : World} {request : RequestPhase} {began : Time} :
      transact .appUser began world.db (beginIngestion upload.principal.orgId upload.id) = none →
      UploadStep ⟨world, request, .queued⟩ .beginTask ⟨world, request, .finished .unrecorded⟩
  | storeChunks {world world' : World} {request : RequestPhase} {run : IngestionRun} {text : Str}
      {chunks : List Str} {vectors : List Embedding} :
      Step settings crypto world (.stored run text chunks vectors) world' →
      UploadStep ⟨world, request, .running run⟩ .work ⟨world', request, .finished .ready⟩
  | workRaises {world world' : World} {request : RequestPhase} {run : IngestionRun}
      {message : Str} :
      Step settings crypto world (.raised run message) world' →
      UploadStep ⟨world, request, .running run⟩ .work ⟨world', request, .failing run message⟩
  | noteFailure {world world' : World} {request : RequestPhase} {run : IngestionRun}
      {message : Str} :
      Step settings crypto world (.failed run message) world' →
      UploadStep ⟨world, request, .failing run message⟩ .noteFailure
        ⟨world', request, .finished .failed⟩
  | noteRaises {world : World} {request : RequestPhase} {run : IngestionRun} {message : Str}
      {began : Time} :
      transact .appUser began world.db (failIngestion run.orgId run.documentId message) = none →
      UploadStep ⟨world, request, .failing run message⟩ .noteFailure
        ⟨world, request, .finished .unrecorded⟩
  | others {world world' : World} {request : RequestPhase} {task : TaskPhase} {event : Event} :
      Step settings crypto world event world' → ¬event.Concerns upload.id →
      UploadStep ⟨world, request, task⟩ (.others event) ⟨world', request, task⟩

/-- The request has just passed its dependencies: the id is drawn, and no
document has it. -/
structure UploadStart (race : UploadRace) : Prop where
  request : race.request = .received
  task : race.task = .absent
  issued : upload.id ∈ race.world.issued
  absent : documentsOf race.world.db upload.id = []

variable {settings crypto upload}

/-! ## What the others leave alone -/

/-- The rows of a document are the same to its ingestion. -/
structure Alike (before after : Document) : Prop where
  id : after.id = before.id
  orgId : after.orgId = before.orgId
  storageKey : after.storageKey = before.storageKey
  status : after.status = before.status
  fits : rowFits .documents before = true → rowFits .documents after = true

theorem Alike.refl (document : Document) : Alike document document :=
  ⟨rfl, rfl, rfl, rfl, fun hfits => hfits⟩

theorem Alike.trans {first second third : Document} (hfirst : Alike first second)
    (hsecond : Alike second third) : Alike first third :=
  ⟨hsecond.id.trans hfirst.id, hsecond.orgId.trans hfirst.orgId,
    hsecond.storageKey.trans hfirst.storageKey, hsecond.status.trans hfirst.status,
    fun hfits => hsecond.fits (hfirst.fits hfits)⟩

/-- The document is the same to its ingestion, if it is there. -/
def Kept (documentId : Uuid) (db db' : Database) : Prop :=
  List.Forall₂ Alike (documentsOf db documentId) (documentsOf db' documentId)

section Kept

variable {documentId : Uuid} {db db' : Database}

theorem kept_of_eq (h : documentsOf db' documentId = documentsOf db documentId) :
    Kept documentId db db' := by
  unfold Kept
  rw [h]
  exact List.forall₂_same.mpr fun document _ => Alike.refl document

theorem Kept.trans {db'' : Database} (hfirst : Kept documentId db db')
    (hsecond : Kept documentId db' db'') : Kept documentId db db'' := by
  have htrans : ∀ {first second third : List Document}, List.Forall₂ Alike first second →
      List.Forall₂ Alike second third → List.Forall₂ Alike first third := by
    intro first second third hfirst
    induction hfirst generalizing third with
    | nil =>
        intro hsecond
        exact hsecond
    | cons halike _ ih =>
        intro hsecond
        cases hsecond with
        | cons halike' hrest => exact .cons (halike.trans halike') (ih hrest)
  exact htrans hfirst hsecond

theorem documentsOf_update {rewrite : Document → Document}
    (hid : ∀ document, (rewrite document).id = document.id) :
    documentsOf (db.update .documents rewrite) documentId =
      (documentsOf db documentId).map rewrite := by
  unfold documentsOf
  rw [Database.update_self, List.filter_map]
  congr 2
  funext document
  exact congrArg (· == documentId) (hid document)

/-- The statement leaves the document as it is, as far as its ingestion goes. -/
def Keeps (documentId : Uuid) (write : Write schema) : Prop :=
  ∀ (policy : Policy Row) (db db' : Database),
    policy.execute schema db write = .ok db' → Kept documentId db db'

theorem kept_of_executes {policy : Policy Row} {writes : List (Write schema)}
    (h : policy.Executes schema db writes db') (hkeeps : ∀ write ∈ writes, Keeps documentId write) :
    Kept documentId db db' :=
  h.rel (fun _ => kept_of_eq rfl) Kept.trans fun write hwrite => hkeeps write hwrite policy

theorem keeps_of_spares {write : Write schema} (h : schema.Spares .documents write) :
    Keeps documentId write := by
  intro policy db db' hexecute
  refine kept_of_eq ?_
  unfold documentsOf
  rw [h policy db db' hexecute]

/-- A document under another id. -/
theorem keeps_insertDocument {document : Document} (hid : document.id ≠ documentId) :
    Keeps documentId (.insert .documents document) := by
  intro policy db db' h
  obtain ⟨rfl, _⟩ := Policy.insertRow_eq_ok h
  refine kept_of_eq ?_
  unfold documentsOf
  rw [Database.insert_self, List.filter_append]
  simp [hid]

/-- Assignments to other columns, and assignments to other documents. -/
theorem keeps_updateDocument {selected : Document → Bool} {clause : SetClause schema .documents}
    (hclause : ∀ document, selected document = true → document.id = documentId →
      (clause.set document).orgId = document.orgId ∧
        (clause.set document).storageKey = document.storageKey ∧
        (clause.set document).status = document.status) :
    Keeps documentId (.update .documents selected clause) := by
  intro policy db db' h
  obtain ⟨_, hdb'⟩ := Policy.updateRows_eq_ok h
  unfold Kept
  rw [hdb', documentsOf_update fun document => ?_, List.forall₂_map_right_iff, List.forall₂_same]
  · intro document hdocument
    obtain ⟨hmem, hid⟩ := List.mem_filter.mp hdocument
    split
    · next hchosen =>
        obtain ⟨hvisible, hselected⟩ := Bool.and_eq_true_iff.mp hchosen
        obtain ⟨horg, hkey, hstatus⟩ := hclause document hselected (eq_of_beq hid)
        exact ⟨clause.key_set document, horg, hkey, hstatus, fun _ =>
          Policy.fits_of_updateRows h hmem hvisible hselected⟩
    · exact Alike.refl document
  · split
    · exact clause.key_set document
    · rfl

theorem keeps_statusWrite {other : Uuid} {status : DocumentStatus} {error : Option Str}
    (hother : other ≠ documentId) : Keeps documentId (statusWrite other status error) :=
  keeps_updateDocument fun _ hselected hid => absurd ((eq_of_beq hselected).symm.trans hid) hother

theorem keeps_deleteDocument {selected : Document → Bool}
    (hselected : ∀ document, document.id = documentId → selected document = false) :
    Keeps documentId (.delete .documents selected) := by
  intro policy db db' h
  obtain ⟨_, rfl⟩ := Policy.deleteRows_eq_ok h
  refine kept_of_eq ?_
  unfold documentsOf
  rw [Schema.delete_of_cascades (by decide), List.filter_filter]
  refine List.filter_congr fun document _ => ?_
  rw [removed_document]
  by_cases hid : document.id = documentId
  · simp [hid, hselected document hid]
  · simp [hid]

theorem keeps_requestWrite {principal : Principal} {now began : Time} {request : Request}
    (hdrawn : ∀ id ∈ drawnIds request, id ≠ documentId)
    (hrequest : request ≠ .deleteDocument documentId) :
    ∀ write ∈ request.writes settings crypto principal now began, Keeps documentId write := by
  intro write hwrite
  cases request <;>
    simp only [Request.writes, List.mem_cons, List.not_mem_nil, or_false] at hwrite
  case createDocument body id =>
    subst hwrite
    exact keeps_insertDocument (hdrawn id List.mem_cons_self)
  case updateDocument =>
    subst hwrite
    exact keeps_updateDocument fun _ _ _ => ⟨rfl, rfl, rfl⟩
  case uploadDocument file id stored =>
    have hid : id ≠ documentId := hdrawn id List.mem_cons_self
    rcases hwrite with rfl | rfl
    · exact keeps_insertDocument hid
    · exact keeps_updateDocument fun _ hselected hsame =>
        absurd ((eq_of_beq hselected).symm.trans hsame) hid
  case deleteDocument other =>
    subst hwrite
    refine keeps_deleteDocument fun document hid => ?_
    rw [Bool.eq_false_iff]
    intro hselected
    exact hrequest (congrArg Request.deleteDocument ((eq_of_beq hselected).symm.trans hid))
  case updateMyOrganization =>
    split at hwrite
    · cases hwrite
    · cases List.mem_singleton.mp hwrite
      exact keeps_of_spares (Schema.spares_update (by decide))
  case createUser | createApiKey | createWebhook | createConversation =>
    subst hwrite
    exact keeps_of_spares (Schema.spares_insert (by decide))
  case updateUser | revokeApiKey =>
    subst hwrite
    exact keeps_of_spares (Schema.spares_update (by decide))
  case deleteUser | deleteWebhook =>
    subst hwrite
    exact keeps_of_spares (Schema.spares_delete closedAbove_documentChunks (by decide) (by decide))

theorem documentId_ne_of_not_concerns {event : Event} {run : IngestionRun}
    (hevent : ¬event.Concerns documentId) (hrun : event.run? = some run) :
    run.documentId ≠ documentId := by
  cases event with
  | ingesting | stored | raised | failed =>
      cases hrun
      exact hevent
  | auth | authenticated | served | asked | answered | notIngested | dispatched => cases hrun

/-- What a step does that neither deletes the document nor ingests it. -/
theorem kept_of_step {world world' : World} {event : Event} (hissued : documentId ∈ world.issued)
    (hevent : ¬event.Concerns documentId) (hstep : Step settings crypto world event world') :
    Kept documentId world.db world'.db := by
  obtain ⟨conn, writes, heffect, hexecutes⟩ := step_executes hstep
  refine kept_of_executes hexecutes fun write hwrite => ?_
  cases stepWrite_of_effect heffect write hwrite with
  | auth hauth =>
      refine keeps_of_spares ?_
      cases hauth with
      | organization | user | link | token => exact Schema.spares_insert (by decide)
      | revoke => exact Schema.spares_update (by decide)
  | touched => exact keeps_of_spares (Schema.spares_update (by decide))
  | served _ _ hrequest =>
      refine keeps_requestWrite (fun id hid => ?_) hevent write hrequest
      rintro rfl
      -- the id of the document was drawn before the request drew its own
      exact (started_of_step hstep).2.1 id hid hissued
  | message | usage | chunk => exact keeps_of_spares (Schema.spares_insert (by decide))
  | cleared documentId =>
      exact keeps_of_spares (@spares_filling documentId [] _ (by decide) _ List.mem_cons_self)
  | status _ _ hrun => exact keeps_statusWrite (documentId_ne_of_not_concerns hevent hrun)

end Kept

/-! ## The transactions of the task -/

/-- The row of an upload. -/
structure Uploaded (upload : Upload) (document : Document) : Prop where
  id : document.id = upload.id
  orgId : document.orgId = upload.principal.orgId
  fits : rowFits .documents document = true

/-- The row knows where its file is stored. -/
def HasFile (document : Document) : Prop := ∃ key, document.storageKey = some key ∧ key ≠ []

theorem Uploaded.alike {document document' : Document} (h : Uploaded upload document)
    (halike : Alike document document') : Uploaded upload document' :=
  ⟨halike.id.trans h.id, halike.orgId.trans h.orgId, halike.fits h.fits⟩

section Transactions

variable {db db' : Database} {document : Document} {began : Time}

theorem transact_of_runs {α : Type} {role : DbRole} {tx : Tx α} {value : α} {conn' : Conn}
    (h : tx.Runs (.start role began db) value conn') :
    transact role began db tx = some (value, conn'.db) := by
  unfold transact
  rw [show tx (.start role began db) = .ok (value, conn') from h]

theorem mem_documentsOf {documentId : Uuid} :
    document ∈ documentsOf db documentId ↔ document ∈ db .documents ∧ document.id = documentId := by
  simp [documentsOf]

/-- The organization sees its document. -/
theorem visible_document {orgId : Uuid} (horg : document.orgId = orgId) :
    (boundConn orgId began db).policy.visible .documents document = true := by
  simp [boundConn, Conn.policy, Core.policy, orgIsolation, rowOrg, horg]

/-- A document is looked up among the rows under its id. -/
theorem runs_getById_document {orgId documentId : Uuid} :
    (getById .documents documentId).Runs (boundConn orgId began db)
      ((documentsOf db documentId).find? fun document =>
        (boundConn orgId began db).policy.visible .documents document)
      (boundConn orgId began db) := by
  have hfound := @runs_scalar (boundConn orgId began db) .documents rfl
    fun row => rowId .documents row == documentId
  unfold documentsOf
  rw [List.find?_filter]
  have hsame : (fun row : Document => decide ((row.id == documentId) = true ∧
      (boundConn orgId began db).policy.visible .documents row = true)) = fun row =>
        (boundConn orgId began db).policy.visible .documents row &&
          rowId .documents row == documentId := by
    funext row
    rw [Bool.decide_and, Bool.decide_eq_true, Bool.decide_eq_true]
    exact Bool.and_comm _ _
  rw [hsame]
  exact hfound

/-- Of a document whose status is assigned the message has to fit. -/
theorem fits_assignStatus {status : DocumentStatus} {error : Option Str}
    (hfits : rowFits .documents document = true) :
    rowFits .documents ((assignStatus status error).set document) = fitsNullable 1024 error := by
  simp only [rowFits, Bool.and_eq_true] at hfits
  obtain ⟨⟨⟨⟨htitle, hfilename⟩, hcontentType⟩, hstorageKey⟩, _⟩ := hfits
  simp only [rowFits, assignStatus, htitle, hfilename, hcontentType, hstorageKey, Bool.true_and]

/-- A status is assigned to the document of an upload if the new row fits. -/
theorem exists_statusWrite {status : DocumentStatus} {error : Option Str}
    (hrow : documentsOf db upload.id = [document]) (huploaded : Uploaded upload document)
    (hfits : rowFits .documents ((assignStatus status error).set document) = true) :
    ∃ conn', (boundConn upload.principal.orgId began db).Wrote [statusWrite upload.id status error]
      conn' := by
  obtain ⟨db', hdb'⟩ := @Policy.updateRows_of_fits _ _ _ _ schema
    (boundConn upload.principal.orgId began db).policy db .documents
    (fun row => rowId .documents row == upload.id) (assignStatus status error) rfl
    fun row hmem hselected => by
      have hsame : row ∈ documentsOf db upload.id := mem_documentsOf.mpr ⟨hmem, eq_of_beq hselected⟩
      rw [hrow] at hsame
      cases List.mem_singleton.mp hsame
      refine ⟨hfits, ?_⟩
      simp [boundConn, Conn.policy, Core.policy, orgIsolation, rowOrg, assignStatus,
        huploaded.orgId]
  exact ⟨boundConn upload.principal.orgId began db', rfl, rfl, rfl, db', hdb', rfl⟩

/-- What an assigned status makes of the row, which fits. -/
theorem documentsOf_statusWrite {status : DocumentStatus} {error : Option Str}
    (hrow : documentsOf db upload.id = [document]) (huploaded : Uploaded upload document)
    (h : (boundConn upload.principal.orgId began db).policy.Executes schema db
      [statusWrite upload.id status error] db') :
    documentsOf db' upload.id = [(assignStatus status error).set document] ∧
      Uploaded upload ((assignStatus status error).set document) := by
  obtain ⟨_, hstatus, rfl⟩ := h
  have hmem : document ∈ documentsOf db upload.id := hrow ▸ List.mem_singleton_self document
  obtain ⟨hmem, hid⟩ := mem_documentsOf.mp hmem
  have hvisible := @visible_document db document began _ huploaded.orgId
  have hselected : (rowId .documents document == upload.id) = true := beq_iff_eq.mpr hid
  refine ⟨?_, hid, huploaded.orgId, Policy.fits_of_updateRows hstatus hmem hvisible hselected⟩
  obtain ⟨_, rfl⟩ := Policy.updateRows_eq_ok hstatus
  rw [documentsOf_update, hrow, List.map_singleton, if_pos]
  · rw [hvisible, hselected]
    rfl
  · intro document
    split
    · rfl
    · rfl

/-- The first transaction succeeds on the document of an upload, and where there
is none. -/
theorem transact_beginIngestion_ne_none
    (h : documentsOf db upload.id = [] ∨
      ∃ document, documentsOf db upload.id = [document] ∧ Uploaded upload document ∧
        HasFile document) :
    transact .appUser began db (beginIngestion upload.principal.orgId upload.id) ≠ none := by
  obtain ⟨value, conn', hruns⟩ : ∃ value conn',
      (beginIngestion upload.principal.orgId upload.id).Runs (.start .appUser began db) value
        conn' := by
    have hfound := @runs_getById_document db began upload.principal.orgId upload.id
    simp only [beginIngestion, Program.runs_bind, runs_setOrgContext]
    rcases h with hnone | ⟨document, hrow, huploaded, key, hkey, hne⟩
    · rw [hnone] at hfound
      exact ⟨none, _, (), _, rfl, none, _, hfound, Program.runs_pure.mpr ⟨rfl, rfl⟩⟩
    · rw [hrow, List.find?_singleton, if_pos (visible_document huploaded.orgId)] at hfound
      obtain ⟨conn', hwrote⟩ := @exists_statusWrite upload db document began .processing none hrow
        huploaded (fits_assignStatus huploaded.fits)
      refine ⟨some key, conn', (), _, rfl, some document, _, hfound, ?_⟩
      simp only [Program.runs_bind, Program.runs_orRaise, runs_save, Program.runs_pure,
        Option.filter_eq_some_iff, decide_eq_true_eq]
      exact ⟨key, _, ⟨⟨hkey, hne⟩, rfl⟩, (), conn', hwrote, rfl, rfl⟩
  rw [transact_of_runs hruns]
  exact Option.some_ne_none _

/-- The message of a failure can be stored. -/
def Storable (message : Str) : Prop := fitsText (message.take maxErrorLength) = true

instance (message : Str) : Decidable (Storable message) :=
  inferInstanceAs (Decidable (fitsText (message.take maxErrorLength) = true))

theorem fits_failed {message : Str} (huploaded : Uploaded upload document) :
    rowFits .documents ((assignStatus .failed (some (message.take maxErrorLength))).set document) =
      true ↔ Storable message := by
  rw [fits_assignStatus huploaded.fits]
  simp [fitsNullable, fitsVarchar, Storable, maxErrorLength]

/-- The transaction after an exception succeeds when the message can be stored. -/
theorem transact_failIngestion_ne_none {message : Str}
    (hrow : documentsOf db upload.id = [document]) (huploaded : Uploaded upload document)
    (hmessage : Storable message) :
    transact .appUser began db (failIngestion upload.principal.orgId upload.id message) ≠ none := by
  have hfound := @runs_getById_document db began upload.principal.orgId upload.id
  rw [hrow, List.find?_singleton, if_pos (visible_document huploaded.orgId)] at hfound
  obtain ⟨conn', hwrote⟩ := @exists_statusWrite upload db document began .failed _ hrow huploaded
    ((fits_failed huploaded).mpr hmessage)
  have hruns : (failIngestion upload.principal.orgId upload.id message).Runs
      (.start .appUser began db) () conn' := by
    simp only [failIngestion, setStatus, Program.runs_bind, runs_setOrgContext]
    exact ⟨(), _, rfl, some document, _, hfound, runs_save.mpr hwrote⟩
  rw [transact_of_runs hruns]
  exact Option.some_ne_none _

end Transactions

/-! ## What is known along a run -/

/-- The document is committed, with this status. -/
def Stands (upload : Upload) (status : DocumentStatus) (db : Database) : Prop :=
  ∃ document, documentsOf db upload.id = [document] ∧ Uploaded upload document ∧
    HasFile document ∧ document.status = status

section Stands

variable {db db' : Database} {status : DocumentStatus} {world world' : World} {storageKey : Str}

theorem Stands.kept (h : Stands upload status db) (hkept : Kept upload.id db db') :
    Stands upload status db' := by
  obtain ⟨document, hrow, huploaded, ⟨key, hkey, hne⟩, hstatus⟩ := h
  unfold Kept at hkept
  rw [hrow, List.forall₂_cons_left_iff] at hkept
  obtain ⟨document', rest, halike, hnil, hrow'⟩ := hkept
  rw [List.forall₂_nil_left_iff.mp hnil] at hrow'
  exact ⟨document', hrow', huploaded.alike halike, ⟨key, halike.storageKey.trans hkey, hne⟩,
    halike.status.trans hstatus⟩

theorem Stands.statusWrite {status' : DocumentStatus} {error : Option Str} (began : Time)
    (h : Stands upload status db)
    (hexecutes : (boundConn upload.principal.orgId began db).policy.Executes schema db
      [statusWrite upload.id status' error] db') :
    Stands upload status' db' ∧ fitsNullable 1024 error = true := by
  obtain ⟨document, hrow, huploaded, hfile, _⟩ := h
  obtain ⟨hrow', huploaded'⟩ := documentsOf_statusWrite hrow huploaded hexecutes
  refine ⟨⟨_, hrow', huploaded', hfile, rfl⟩, ?_⟩
  rw [← fits_assignStatus huploaded.fits]
  exact huploaded'.fits

/-- The document is not gone. -/
theorem Stands.not_gone (h : Stands upload status db) :
    ¬Gone ⟨upload.principal.orgId, upload.id, storageKey⟩ db := by
  intro hgone
  obtain ⟨document, hrow, huploaded, _⟩ := h
  have hmem : document ∈ documentsOf db upload.id := hrow ▸ List.mem_singleton_self document
  exact hgone document (mem_documentsOf.mp hmem).1 huploaded.id huploaded.orgId

/-- The task finds the document, and marks it. -/
theorem Stands.ingesting (h : Stands upload status world.db)
    (hstep : Step settings crypto world
      (.ingesting ⟨upload.principal.orgId, upload.id, storageKey⟩) world') :
    Stands upload .processing world'.db := by
  obtain ⟨conn, writes, heffect, hexecutes⟩ := step_executes hstep
  cases heffect with
  | @ingesting _ began => exact (h.statusWrite began hexecutes).1

theorem Stands.not_notIngested (h : Stands upload status world.db) :
    ¬Step settings crypto world (.notIngested upload.principal.orgId upload.id) world' := by
  intro hstep
  cases hstep with
  | @notIngested _ _ began _ hrun =>
      obtain ⟨_, hnone⟩ := beginIngestion_eq_ok hrun
      have hgone : Gone ⟨upload.principal.orgId, upload.id, []⟩ world.db :=
        gone_of_not_visible hnone
      exact h.not_gone hgone

/-- Stored chunks make the document ready. -/
theorem Stands.stored {run : IngestionRun} {text : Str} {chunks : List Str}
    {vectors : List Embedding} (h : Stands upload status world.db)
    (hrun : run.orgId = upload.principal.orgId ∧ run.documentId = upload.id)
    (hstep : Step settings crypto world (.stored run text chunks vectors) world') :
    Stands upload .ready world'.db := by
  obtain ⟨_, _, storageKey⟩ := run
  obtain ⟨rfl, rfl⟩ := hrun
  obtain ⟨conn, writes, heffect, hexecutes⟩ := step_executes hstep
  cases heffect with
  | @stored _ _ _ _ _ _ began _ _ _ _ hrecorded hready =>
      obtain ⟨filled, hfilling, hrest⟩ := Policy.executes_append.mp hexecutes
      obtain ⟨recorded, hrecord, hstatus⟩ := Policy.executes_append.mp hrest
      have hkept : Kept upload.id world.db recorded :=
        (kept_of_executes hfilling fun write hwrite =>
          keeps_of_spares (spares_filling (by decide) write hwrite)).trans
        (kept_of_executes hrecord fun write hwrite =>
          keeps_of_spares (spares_recorded (by decide) hrecorded write hwrite))
      rcases hready with ⟨_, hgone⟩ | rfl
      · exact absurd hgone h.not_gone
      · exact ((h.kept hkept).statusWrite began hstatus).1

/-- A noted failure has a message that can be stored. -/
theorem Stands.failed {run : IngestionRun} {message : Str} (h : Stands upload status world.db)
    (hrun : run.orgId = upload.principal.orgId ∧ run.documentId = upload.id)
    (hstep : Step settings crypto world (.failed run message) world') :
    Stands upload .failed world'.db ∧ Storable message := by
  obtain ⟨_, _, storageKey⟩ := run
  obtain ⟨rfl, rfl⟩ := hrun
  obtain ⟨conn, writes, heffect, hexecutes⟩ := step_executes hstep
  cases heffect with
  | @failed _ _ began _ hwrites =>
      rcases hwrites with ⟨_, hgone⟩ | rfl
      · exact absurd hgone h.not_gone
      · obtain ⟨hstands, hfits⟩ := h.statusWrite began hexecutes
        refine ⟨hstands, ?_⟩
        simpa [fitsNullable, fitsVarchar, Storable, maxErrorLength] using hfits

end Stands

/-- The task has not found a document. -/
def TaskPhase.Unstarted : TaskPhase → Prop
  | .absent | .queued | .finished .missing => True
  | .running _ | .failing .. | .finished _ => False

/-- The status the document has, once it is committed. -/
def TaskPhase.status : TaskPhase → DocumentStatus
  | .absent | .queued | .finished .missing => .pending
  | .running _ | .failing .. | .finished .unrecorded => .processing
  | .finished .ready => .ready
  | .finished .failed => .failed

/-- The run of a task is a run of the document. -/
def TaskPhase.RunOf (upload : Upload) : TaskPhase → Prop
  | .running run | .failing run _ =>
      run.orgId = upload.principal.orgId ∧ run.documentId = upload.id
  | .absent | .queued | .finished _ => True

/-- The row the transaction of the request holds, as far as it got. -/
def RequestPhase.Held (upload : Upload) : RequestPhase → Prop
  | .flushed document => Uploaded upload document ∧ document.status = .pending
  | .stored document | .responded document | .enqueued document =>
      Uploaded upload document ∧ document.status = .pending ∧ HasFile document
  | .received | .committed | .rolledBack => True

/-- Before the commit nobody finds the document; after it the status is that of the
task. -/
structure Tracked (upload : Upload) (race : UploadRace) : Prop where
  issued : upload.id ∈ race.world.issued
  held : race.request.Held upload
  run : race.task.RunOf upload
  uncommitted : race.request ≠ .committed →
    documentsOf race.world.db upload.id = [] ∧ race.task.Unstarted
  committed : race.request = .committed → Stands upload race.task.status race.world.db

theorem TaskPhase.status_of_unstarted {task : TaskPhase} (h : task.Unstarted) :
    task.status = .pending := by
  cases task with
  | absent | queued => rfl
  | running | failing => exact absurd h id
  | finished outcome =>
      cases outcome with
      | missing => rfl
      | ready | failed | unrecorded => exact absurd h id

theorem flushDocument_eq_ok {db : Database} {began : Time} {document : Document} {conn' : Conn}
    (h : (flushDocument settings upload).Runs (boundConn upload.principal.orgId began db) document
      conn') : Uploaded upload document ∧ document.status = .pending := by
  simp only [flushDocument, checkUpload, Program.runs_bind, Program.runs_raiseIf,
    runs_transactionTime, runs_add, Program.runs_pure] at h
  obtain ⟨_, _, _, _, _, ⟨rfl, rfl⟩, _, _, hinsert, rfl, rfl⟩ := h
  exact ⟨⟨rfl, rfl, hinsert.insert.2.2.2.1⟩, rfl⟩

theorem buildKey_ne_nil (orgId documentId : Uuid) (filename : Str) :
    buildKey orgId documentId filename ≠ [] := by
  unfold buildKey
  exact List.append_ne_nil_of_right_ne_nil _ (List.cons_ne_nil _ _)

theorem saveStorageKey_eq_ok {db : Database} {began : Time} {stored : Except Str Unit}
    {document document' : Document} {conn' : Conn} (huploaded : Uploaded upload document)
    (h : (saveStorageKey upload stored document).Runs
      (boundConn upload.principal.orgId began (db.insert .documents document)) document' conn') :
    Uploaded upload document' ∧ document'.status = document.status ∧ HasFile document' := by
  simp only [saveStorageKey, Program.runs_bind, runs_ofLibrary, runs_save, Program.runs_pure] at h
  obtain ⟨_, _, ⟨_, rfl⟩, _, _, hupdate, rfl, rfl⟩ := h
  obtain ⟨_, hexecute, _⟩ := hupdate.executes
  have hmem : document ∈ db.insert .documents document .documents := by
    rw [Database.insert_self]
    exact List.mem_append_right _ (List.mem_singleton_self document)
  have hfits := Policy.fits_of_updateRows hexecute hmem (visible_document huploaded.orgId)
    (beq_iff_eq.mpr huploaded.id)
  exact ⟨⟨huploaded.id, huploaded.orgId, hfits⟩, rfl, _, rfl, buildKey_ne_nil _ _ _⟩

theorem UploadStart.tracked {race : UploadRace} (h : UploadStart upload race) :
    Tracked upload race where
  issued := h.issued
  held := by rw [h.request]; trivial
  run := by rw [h.task]; trivial
  uncommitted := fun _ => ⟨h.absent, by rw [h.task]; trivial⟩
  committed := fun hcommitted => by rw [h.request] at hcommitted; cases hcommitted

section Steps

variable {race race' : UploadRace} {event : UploadEvent}

theorem mem_issued_of_step {world world' : World} {event : Event}
    (hissued : upload.id ∈ world.issued) (hstep : Step settings crypto world event world') :
    upload.id ∈ world'.issued := by
  rw [(started_of_step hstep).1]
  exact List.mem_append_right _ hissued

/-- The commit makes the row the request holds visible. -/
theorem Tracked.commit {world : World} {request : RequestPhase} {task : TaskPhase}
    {document : Document} (h : Tracked upload ⟨world, request, task⟩)
    (hrequest : request ≠ .committed) (huploaded : Uploaded upload document)
    (hstatus : document.status = .pending) (hfile : HasFile document) :
    Tracked upload
      ⟨{ world with db := world.db.insert .documents document }, .committed, task⟩ where
  issued := h.issued
  held := trivial
  run := h.run
  uncommitted := fun hnot => absurd rfl hnot
  committed := fun _ => by
    obtain ⟨hnone, hunstarted⟩ := h.uncommitted hrequest
    refine ⟨document, ?_, huploaded, hfile, ?_⟩
    · unfold documentsOf at hnone ⊢
      simp only [Database.insert_self]
      rw [List.filter_append, hnone, List.nil_append, List.filter_singleton]
      simp [huploaded.id]
    · rw [hstatus, TaskPhase.status_of_unstarted hunstarted]

/-- The request goes on without a commit. -/
theorem Tracked.request {world : World} {request request' : RequestPhase} {task : TaskPhase}
    (h : Tracked upload ⟨world, request, task⟩) (hrequest : request ≠ .committed)
    (hrequest' : request' ≠ .committed) (hheld : request'.Held upload) :
    Tracked upload ⟨world, request', task⟩ where
  issued := h.issued
  held := hheld
  run := h.run
  uncommitted := fun _ => h.uncommitted hrequest
  committed := fun hcommitted => absurd hcommitted hrequest'

/-- A step of a task that has found the document: the request is committed. -/
theorem Tracked.task {world world' : World} {request : RequestPhase} {task task' : TaskPhase}
    (h : Tracked upload ⟨world, request, task⟩) (hissued : upload.id ∈ world'.issued)
    (hstarted : ¬task.Unstarted) (hrun : task'.RunOf upload)
    (hstands : Stands upload task.status world.db → Stands upload task'.status world'.db) :
    Tracked upload ⟨world', request, task'⟩ where
  issued := hissued
  held := h.held
  run := hrun
  uncommitted := fun hnot => absurd (h.uncommitted hnot).2 hstarted
  committed := fun hcommitted => hstands (h.committed hcommitted)

theorem Tracked.none_or_stands (h : Tracked upload race) :
    documentsOf race.world.db upload.id = [] ∨
      ∃ document, documentsOf race.world.db upload.id = [document] ∧ Uploaded upload document ∧
        HasFile document := by
  by_cases hcommitted : race.request = .committed
  · obtain ⟨document, hrow, huploaded, hfile, _⟩ := h.committed hcommitted
    exact .inr ⟨document, hrow, huploaded, hfile⟩
  · exact .inl (h.uncommitted hcommitted).1

theorem Tracked.step (h : Tracked upload race)
    (hstep : UploadStep settings crypto upload race event race') : Tracked upload race' := by
  cases hstep with
  | flush hflush => exact h.request (by simp) (by simp) (flushDocument_eq_ok hflush)
  | store hstore =>
      obtain ⟨huploaded, hstatus⟩ := h.held
      obtain ⟨huploaded', hsame, hfile⟩ := saveStorageKey_eq_ok huploaded hstore
      exact h.request (by simp) (by simp) ⟨huploaded', hsame.trans hstatus, hfile⟩
  | respond => exact h.request (by simp) (by simp) h.held
  | enqueue =>
      exact ⟨h.issued, h.held, trivial, fun _ => ⟨(h.uncommitted (by simp)).1, trivial⟩, by simp⟩
  | commit =>
      obtain ⟨huploaded, hstatus, hfile⟩ := h.held
      exact h.commit (by simp) huploaded hstatus hfile
  | commitOnly =>
      obtain ⟨huploaded, hstatus, hfile⟩ := h.held
      exact h.commit (by simp) huploaded hstatus hfile
  | rollBack hrequest => exact h.request hrequest (by simp) trivial
  | @beginTask world world' request storageKey hbegin =>
      refine ⟨mem_issued_of_step h.issued hbegin, h.held, ⟨rfl, rfl⟩, fun hnot => ?_,
        fun hcommitted => (h.committed hcommitted).ingesting hbegin⟩
      -- nobody finds a document that is not committed
      obtain ⟨hnone, _⟩ := h.uncommitted hnot
      obtain ⟨_, _, _, heffect, _⟩ := step_effect hbegin
      cases heffect with
      | ingesting hfound =>
          obtain ⟨document, hmem, hid, _⟩ := hfound
          have hthere : document ∈ documentsOf world.db upload.id :=
            mem_documentsOf.mpr ⟨hmem, hid⟩
          rw [hnone] at hthere
          cases hthere
  | missDocument hmiss =>
      refine ⟨mem_issued_of_step h.issued hmiss, h.held, trivial, fun hnot => ?_,
        fun hcommitted => absurd hmiss (h.committed hcommitted).not_notIngested⟩
      obtain ⟨hnone, _⟩ := h.uncommitted hnot
      obtain ⟨_, _, _, heffect, hwrote, hdb, hdb'⟩ := step_effect hmiss
      cases heffect with
      | notIngested =>
          rw [hdb', ← Conn.wrote_nil.mp hwrote]
          exact ⟨hnone, trivial⟩
  | beginRaises hraises =>
      exact absurd hraises (transact_beginIngestion_ne_none h.none_or_stands)
  | storeChunks hstored =>
      exact h.task (mem_issued_of_step h.issued hstored) id trivial fun hstands =>
        hstands.stored h.run hstored
  | workRaises hraised =>
      refine h.task (mem_issued_of_step h.issued hraised) id h.run fun hstands => ?_
      cases hraised
      exact hstands
  | noteFailure hfailed =>
      exact h.task (mem_issued_of_step h.issued hfailed) id trivial fun hstands =>
        (hstands.failed h.run hfailed).1
  | noteRaises => exact h.task h.issued id trivial fun hstands => hstands
  | others hothers hevent =>
      have hkept := kept_of_step h.issued hevent hothers
      refine ⟨mem_issued_of_step h.issued hothers, h.held, h.run, fun hnot => ?_,
        fun hcommitted => (h.committed hcommitted).kept hkept⟩
      obtain ⟨hnone, hunstarted⟩ := h.uncommitted hnot
      unfold Kept at hkept
      rw [hnone, List.forall₂_nil_left_iff] at hkept
      exact ⟨hkept, hunstarted⟩

end Steps

/-! ## When the ingestion is not lost -/

/-- The task found its document and left it ready or failed. -/
structure Ingested (upload : Upload) (race : UploadRace) : Prop where
  found : race.task ≠ .finished .missing
  status : ∃ document, documentsOf race.world.db upload.id = [document] ∧
    (document.status = .ready ∨ document.status = .failed)

/-- The task looks for the document after the commit, and the message of a failure
can be stored. -/
def Careful (race : UploadRace) : UploadEvent → Prop
  | .beginTask => race.request = .committed
  | .noteFailure => ∀ run message, race.task = .failing run message → Storable message
  | .flush | .store | .respond | .enqueue | .commit | .rollBack | .work | .others _ => True

/-- A step that is careful. -/
def CarefulStep (settings : Settings) (crypto : Crypto) (upload : Upload) (race : UploadRace)
    (event : UploadEvent) (race' : UploadRace) : Prop :=
  UploadStep settings crypto upload race event race' ∧ Careful race event

/-- The task is over, and nothing was noted on the document. -/
def Lost (race : UploadRace) : Prop :=
  race.task = .finished .missing ∨ race.task = .finished .unrecorded

section Lost

variable {race race' start last : UploadRace} {event : UploadEvent} {trace : List UploadEvent}

theorem Lost.step (h : Lost race) (hstep : UploadStep settings crypto upload race event race') :
    Lost race' := by
  cases hstep with
  | flush | store | respond | commit | commitOnly | rollBack | others => exact h
  | enqueue | beginTask | missDocument | beginRaises | storeChunks | workRaises | noteFailure
  | noteRaises => rcases h with h | h <;> cases h

/-- A step that is not careful loses the ingestion. -/
theorem Tracked.lost_of_careless (h : Tracked upload race)
    (hstep : UploadStep settings crypto upload race event race') (hcareless : ¬Careful race event) :
    Lost race' := by
  cases hstep with
  | flush | store | respond | enqueue | commit | commitOnly | rollBack | storeChunks | workRaises
  | others => exact absurd trivial hcareless
  | beginTask hbegin =>
      -- the run has found a document that is not committed
      exact absurd ((h.step (.beginTask hbegin)).uncommitted hcareless).2 id
  | missDocument => exact .inl rfl
  | beginRaises => exact .inr rfl
  | noteRaises => exact .inr rfl
  | @noteFailure world world' request run message hfailed =>
      -- it has started, so the document is committed, and the message was stored
      refine absurd (fun run' message' hfailing => ?_) hcareless
      cases hfailing
      have hcommitted : request = .committed := by
        by_contra hnot
        exact (h.uncommitted hnot).2
      exact ((h.committed hcommitted).failed h.run hfailed).2

/-- A careful step does not. -/
theorem Tracked.not_lost_of_careful (h : Tracked upload race)
    (hstep : UploadStep settings crypto upload race event race') (hcareful : Careful race event)
    (hnot : ¬Lost race) : ¬Lost race' := by
  cases hstep with
  | flush | store | respond | commit | commitOnly | rollBack | others => exact hnot
  | enqueue | beginTask | storeChunks | workRaises | noteFailure => simp [Lost]
  | missDocument hmiss => exact absurd hmiss (h.committed hcareful).not_notIngested
  | beginRaises hraises => exact absurd hraises (transact_beginIngestion_ne_none h.none_or_stands)
  | @noteRaises world request run message began hraises =>
      have hcommitted : request = .committed := by
        by_contra hrequest
        exact (h.uncommitted hrequest).2
      obtain ⟨document, hrow, huploaded, _⟩ := h.committed hcommitted
      obtain ⟨horg, hid⟩ := h.run
      rw [horg, hid] at hraises
      exact absurd hraises
        (transact_failIngestion_ne_none hrow huploaded (hcareful run message rfl))

theorem Tracked.ingested_iff {outcome : TaskOutcome} (h : Tracked upload race)
    (hcommitted : race.request = .committed) (hfinished : race.task = .finished outcome) :
    Ingested upload race ↔ ¬Lost race := by
  obtain ⟨document, hrow, _, _, hstatus⟩ := h.committed hcommitted
  rw [hfinished] at hstatus
  constructor
  · rintro ⟨hfound, document', hrow', hsettled⟩ (hmissing | hunrecorded)
    · exact hfound hmissing
    · cases hfinished.symm.trans hunrecorded
      cases List.singleton_inj.mp (hrow.symm.trans hrow')
      rw [hstatus] at hsettled
      rcases hsettled with hready | hfailed
      · cases hready
      · cases hfailed
  · intro hnot
    refine ⟨fun hmissing => hnot (.inl hmissing), document, hrow, ?_⟩
    cases outcome with
    | missing => exact absurd (.inl hfinished) hnot
    | ready => exact .inl hstatus
    | failed => exact .inr hstatus
    | unrecorded => exact absurd (.inr hfinished) hnot

theorem tracked_of_run (hstart : UploadStart upload start)
    (hrun : Run (UploadStep settings crypto upload) start trace last) : Tracked upload last :=
  hrun.invariant (P := fun _ race => Tracked upload race) hstart.tracked
    fun _ _ _ _ _ htracked hstep => htracked.step hstep

/-- Once the request is committed and the task is over, the task has found the
document and left it ready or failed exactly if every step was careful: its first
transaction came after the commit, and the message of a failure could be stored. -/
theorem ingested_iff_careful {outcome : TaskOutcome} (hstart : UploadStart upload start)
    (hrun : Run (UploadStep settings crypto upload) start trace last)
    (hcommitted : last.request = .committed) (hfinished : last.task = .finished outcome) :
    Ingested upload last ↔ Run (CarefulStep settings crypto upload) start trace last := by
  rw [(tracked_of_run hstart hrun).ingested_iff hcommitted hfinished]
  constructor
  · intro hnot
    have hcareful : Run (CarefulStep settings crypto upload) start trace last ∨ Lost last := by
      refine hrun.invariant (P := fun trace race =>
        Run (CarefulStep settings crypto upload) start trace race ∨ Lost race) (.inl .nil) ?_
      rintro earlier race event race' hearlier (hcareful | hlost) hstep
      · by_cases hevent : Careful race event
        · exact .inl (hcareful.snoc ⟨hstep, hevent⟩)
        · exact .inr ((tracked_of_run hstart hearlier).lost_of_careless hstep hevent)
      · exact .inr (hlost.step hstep)
    exact hcareful.resolve_right hnot
  · intro hcareful
    have hkept : Tracked upload last ∧ ¬Lost last := by
      refine hcareful.invariant (P := fun _ race => Tracked upload race ∧ ¬Lost race)
        ⟨hstart.tracked, ?_⟩ ?_
      · rintro (hmissing | hunrecorded)
        · cases hstart.task.symm.trans hmissing
        · cases hstart.task.symm.trans hunrecorded
      · rintro _ race event race' _ ⟨htracked, hnot⟩ ⟨hstep, hevent⟩
        exact ⟨htracked.step hstep, htracked.not_lost_of_careful hstep hevent hnot⟩
    exact hkept.2

/-- The outcome of a part of a transaction, unless it fails. -/
def attempt {α : Type} (tx : Tx α) (conn : Conn) : Option (α × Conn) := (tx conn).toOption

theorem runs_of_attempt {α : Type} {tx : Tx α} {conn conn' : Conn} {value : α}
    (h : attempt tx conn = some (value, conn')) : tx.Runs conn value conn' :=
  Program.runs_of_toOption h

/-- A request nobody disturbs, up to its background task. -/
theorem enqueued_of_attempts {world : World} {document : Document × Conn}
    {stored : Document × Conn} (hauto : settings.autoIngestOnUpload = true)
    (hflush : attempt (flushDocument settings upload)
      (boundConn upload.principal.orgId 0 world.db) = some document)
    (hstore : attempt (saveStorageKey upload (.ok ()) document.1)
      (boundConn upload.principal.orgId 0 (world.db.insert .documents document.1)) = some stored) :
    Run (CarefulStep settings crypto upload) ⟨world, .received, .absent⟩
      [.flush, .store, .respond, .enqueue] ⟨world, .enqueued stored.1, .queued⟩ := by
  have hflushed : Run (CarefulStep settings crypto upload) ⟨world, .received, .absent⟩ [.flush]
      ⟨world, .flushed document.1, .absent⟩ :=
    Run.single ⟨.flush (runs_of_attempt hflush), trivial⟩
  have hstored := hflushed.snoc ⟨.store (runs_of_attempt hstore), trivial⟩
  have hresponded := hstored.snoc ⟨.respond, trivial⟩
  exact hresponded.snoc ⟨.enqueue hauto, trivial⟩

theorem run_of_careful (h : Run (CarefulStep settings crypto upload) start trace last) :
    Run (UploadStep settings crypto upload) start trace last :=
  h.mono fun _ _ _ hstep => hstep.1

/-- A platform with one organization, and an upload of its founder. -/
def uploadSetup : Option (World × Upload) := do
  let setup ← performAll {} sampleCrypto emptyWorld
    [(0, .auth (.signup ⟨"A".toList, "a@x".toList, [], none⟩ [] ⟨1, 2, []⟩ ⟨"first".toList, 3⟩))]
  let guarded ← transact .appUser 0 setup.2.db (guardPrincipal (some [.admin, .member]) 1 2 false)
  some ({ setup.2 with issued := 8 :: setup.2.issued }, ⟨guarded.1, sampleUpload, 8⟩)

/-- A task that waits for the commit, finds a file without text, and notes so. -/
theorem ingested_iff_careful_noText : ∃ upload start last, UploadStart upload start ∧
    last.request = .committed ∧ last.task = .finished .failed ∧
    (documentsOf last.world.db upload.id).map Document.status = [.failed] ∧
    Ingested upload last := by
  have hevaluate : (uploadSetup.bind fun setup =>
      (attempt (flushDocument {} setup.2) (boundConn setup.2.principal.orgId 0 setup.1.db)).bind
        fun flushed => (attempt (saveStorageKey setup.2 (.ok ()) flushed.1)
          (boundConn setup.2.principal.orgId 0 (setup.1.db.insert .documents flushed.1))).bind
            fun stored => (transact .appUser 0 (setup.1.db.insert .documents stored.1)
              (beginIngestion setup.2.principal.orgId setup.2.id)).bind fun begun =>
                (transact .appUser 0 begun.2 (failIngestion setup.2.principal.orgId setup.2.id
                  "no text".toList)).map fun noted =>
                    (begun.1.isSome, setup.1.issued.contains setup.2.id,
                      (documentsOf setup.1.db setup.2.id).length,
                      (documentsOf noted.2 setup.2.id).map Document.status)) =
      some (true, true, 0, [.failed]) := by decide +kernel
  obtain ⟨⟨world, upload⟩, _, hrest⟩ := Option.bind_eq_some_iff.mp hevaluate
  obtain ⟨flushed, hflush, hrest⟩ := Option.bind_eq_some_iff.mp hrest
  obtain ⟨stored, hstore, hrest⟩ := Option.bind_eq_some_iff.mp hrest
  obtain ⟨⟨found, db⟩, hbegin, hrest⟩ := Option.bind_eq_some_iff.mp hrest
  obtain ⟨⟨_, db'⟩, hnote, hfacts⟩ := Option.map_eq_some_iff.mp hrest
  obtain ⟨hfound, hissued, hnone, hstatus⟩ := by simpa only [Prod.mk.injEq] using hfacts
  obtain ⟨storageKey, rfl⟩ := Option.isSome_iff_exists.mp hfound
  obtain ⟨conn', hruns, rfl⟩ := transact_eq_some hbegin
  obtain ⟨conn'', hfails, rfl⟩ := transact_eq_some hnote
  have hstart : UploadStart upload ⟨world, .received, .absent⟩ :=
    ⟨rfl, rfl, by simpa using hissued, List.length_eq_zero_iff.mp hnone⟩
  have hwork : prepareChunks {} ⟨.error "no text".toList, flatProvider⟩ =
    .error "no text".toList := rfl
  have henqueued := @enqueued_of_attempts {} sampleCrypto upload world flushed stored rfl hflush
    hstore
  have hcommitted := henqueued.snoc ⟨.commit, trivial⟩
  have hrunning := hcommitted.snoc ⟨.beginTask (.ingesting hruns), rfl⟩
  have hfailing := hrunning.snoc ⟨.workRaises (.raised List.mem_cons_self (.work hwork)), trivial⟩
  have hcareful := hfailing.snoc ⟨.noteFailure (.failed List.mem_cons_self hfails), fun _ _ h => by
    cases h
    decide⟩
  exact ⟨upload, _, _, hstart, rfl, rfl, hstatus,
    (ingested_iff_careful hstart (run_of_careful hcareful) rfl rfl).mpr hcareful⟩

/-- The worker is faster than the end of the request: the task finds nothing, the
request commits, and the document stays pending. -/
theorem earlyTask_loses_upload : ∃ upload start last,
    UploadStart upload start ∧
    Run (UploadStep {} sampleCrypto upload) start
      [.flush, .store, .respond, .enqueue, .beginTask, .commit] last ∧
    last.request = .committed ∧ last.task = .finished .missing ∧
    (documentsOf last.world.db upload.id).map Document.status = [.pending] := by
  have hevaluate : (uploadSetup.bind fun setup =>
      (attempt (flushDocument {} setup.2) (boundConn setup.2.principal.orgId 0 setup.1.db)).bind
        fun flushed => (attempt (saveStorageKey setup.2 (.ok ()) flushed.1)
          (boundConn setup.2.principal.orgId 0 (setup.1.db.insert .documents flushed.1))).bind
            fun stored => (transact .appUser 0 setup.1.db
              (beginIngestion setup.2.principal.orgId setup.2.id)).map fun begun =>
                (begun.1, setup.1.issued.contains setup.2.id,
                  (documentsOf setup.1.db setup.2.id).length,
                  (documentsOf (begun.2.insert .documents stored.1) setup.2.id).map
                    Document.status)) = some (none, true, 0, [.pending]) := by decide +kernel
  obtain ⟨⟨world, upload⟩, _, hrest⟩ := Option.bind_eq_some_iff.mp hevaluate
  obtain ⟨flushed, hflush, hrest⟩ := Option.bind_eq_some_iff.mp hrest
  obtain ⟨stored, hstore, hrest⟩ := Option.bind_eq_some_iff.mp hrest
  obtain ⟨⟨found, db⟩, hbegin, hfacts⟩ := Option.map_eq_some_iff.mp hrest
  obtain ⟨hfound, hissued, hnone, hstatus⟩ := by simpa only [Prod.mk.injEq] using hfacts
  cases hfound
  obtain ⟨conn', hmiss, rfl⟩ := transact_eq_some hbegin
  have henqueued := run_of_careful (@enqueued_of_attempts {} sampleCrypto upload world flushed
    stored rfl hflush hstore)
  refine ⟨upload, _, _, ⟨rfl, rfl, by simpa using hissued, List.length_eq_zero_iff.mp hnone⟩,
    (henqueued.snoc (.missDocument (.notIngested hmiss))).snoc .commit, rfl, rfl, hstatus⟩

end Lost

end Platform
