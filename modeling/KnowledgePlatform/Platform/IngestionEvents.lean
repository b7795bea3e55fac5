import KnowledgePlatform.Platform.UploadRaces

/-!
# The events of an ingestion

The task `worker.ingest_document` sends `document.ready` when `run_ingestion` returns
and `document.failed` when it raises.  Here one execution of the task is followed
from transaction to transaction, in a platform that does anything else meanwhile.

`run_ingestion` returns, and raises, for more than one reason.  It returns without a
document, when the first transaction finds none or the last one has nothing to
store, and it raises from the two transactions whose exceptions are not handled.
`Regular` says which steps keep the event and the status of the document together.
-/

open Api Core Foundations Python Relational Worker

namespace Platform

/-! ## Documents and statuses -/

section Documents

variable {settings : Settings} {crypto : Crypto} {world world' : World} {event : Event}
  {orgId documentId : Uuid} {db db' : Database}

/-- The status the document has. -/
def statusOf (db : Database) (documentId : Uuid) : Option DocumentStatus :=
  (documentsOf db documentId).head?.map Document.status

theorem statusOf_eq_none : statusOf db documentId = none ↔ documentsOf db documentId = [] := by
  rw [statusOf, Option.map_eq_none_iff, List.head?_eq_none_iff]

/-- The organization has the only row under the id, if there is one. -/
theorem gone_iff {run : IngestionRun} (hheld : Held world run.orgId .documents run.documentId) :
    Gone run world.db ↔ documentsOf world.db run.documentId = [] := by
  constructor
  · intro hgone
    refine List.eq_nil_iff_forall_not_mem.mpr fun document hdocument => ?_
    obtain ⟨hmem, hid⟩ := mem_documentsOf.mp hdocument
    exact hgone document hmem hid (Option.some.inj (hheld.1 document hmem hid))
  · intro hnone document hmem hid
    have hdocument : document ∈ documentsOf world.db run.documentId :=
      mem_documentsOf.mpr ⟨hmem, hid⟩
    rw [hnone] at hdocument
    cases hdocument

/-- What an assigned status makes of the document. -/
theorem documentsOf_statusWrite_of_keyWithin {status : DocumentStatus} {error : Option Str}
    {began : Time} (hwithin : schema.KeyWithin db orgId .documents documentId)
    (h : (boundConn orgId began db).policy.Executes schema db
      [statusWrite documentId status error] db') :
    documentsOf db' documentId =
      (documentsOf db documentId).map (assignStatus status error).set := by
  obtain ⟨_, hstatus, rfl⟩ := h
  obtain ⟨_, rfl⟩ := Policy.updateRows_eq_ok hstatus
  rw [documentsOf_update]
  · refine List.map_congr_left fun document hdocument => ?_
    obtain ⟨hmem, hid⟩ := mem_documentsOf.mp hdocument
    have horg : document.orgId = orgId := Option.some.inj (hwithin document hmem hid)
    rw [if_pos]
    rw [visible_document horg, Bool.true_and]
    exact beq_iff_eq.mpr hid
  · intro document
    split
    · rfl
    · rfl

theorem statusOf_statusWrite {status : DocumentStatus} {error : Option Str} (began : Time)
    (hwithin : schema.KeyWithin db orgId .documents documentId)
    (h : (boundConn orgId began db).policy.Executes schema db
      [statusWrite documentId status error] db') (hthere : documentsOf db documentId ≠ []) :
    statusOf db' documentId = some status := by
  obtain ⟨document, rest, hrow⟩ := List.exists_cons_of_ne_nil hthere
  rw [statusOf, documentsOf_statusWrite_of_keyWithin hwithin h, hrow]
  rfl

/-- The id of a deleted document is not drawn again. -/
theorem absent_of_step (hissued : documentId ∈ world.issued)
    (hnone : documentsOf world.db documentId = [])
    (hstep : Step settings crypto world event world') :
    documentsOf world'.db documentId = [] := by
  obtain ⟨_, hfresh, _⟩ := started_of_step hstep
  obtain ⟨conn, writes, heffect, hexecutes⟩ := step_executes hstep
  refine List.eq_nil_iff_forall_not_mem.mpr fun document hdocument => ?_
  obtain ⟨hmem, hid⟩ := mem_documentsOf.mp hdocument
  rcases Schema.keys_executes hexecutes (draws_of_effect heffect) .documents document hmem
    with ⟨row, hrow, hkey, _⟩ | hdrawn
  · have hrow' : row ∈ documentsOf world.db documentId :=
      mem_documentsOf.mpr ⟨hrow, Eq.trans hkey hid⟩
    rw [hnone] at hrow'
    cases hrow'
  · have hdrawn' : document.id ∈ event.draws := hdrawn rfl
    exact hfresh _ (hid ▸ hdrawn') hissued

/-- The step deletes the document. -/
def Event.Deletes (documentId : Uuid) : Event → Prop
  | .served _ _ _ request _ _ => request = .deleteDocument documentId
  | _ => False

/-- No other step takes the document away. -/
theorem present_of_step (hissued : documentId ∈ world.issued) (hevent : ¬event.Deletes documentId)
    (hthere : documentsOf world.db documentId ≠ [])
    (hstep : Step settings crypto world event world') :
    documentsOf world'.db documentId ≠ [] := by
  obtain ⟨conn, writes, heffect, hexecutes⟩ := step_executes hstep
  have hkeeps : ∀ {db db' : Database}, Kept documentId db db' →
      documentsOf db documentId ≠ [] → documentsOf db' documentId ≠ [] := by
    intro db db' hkept hthere hnone
    unfold Kept at hkept
    rw [hnone, List.forall₂_nil_right_iff] at hkept
    exact hthere hkept
  refine hexecutes.preserves (P := fun db => documentsOf db documentId ≠ []) ?_ hthere
  intro write hwrite db db' hexecute hbefore
  have hspares : Keeps documentId write → documentsOf db' documentId ≠ [] := fun hkept =>
    hkeeps (hkept conn.policy db db' hexecute) hbefore
  cases stepWrite_of_effect heffect write hwrite with
  | auth hauth =>
      refine hspares (keeps_of_spares ?_)
      cases hauth with
      | organization | user | link | token => exact Schema.spares_insert (by decide)
      | revoke => exact Schema.spares_update (by decide)
  | touched => exact hspares (keeps_of_spares (Schema.spares_update (by decide)))
  | served _ _ hrequest =>
      refine hspares (keeps_requestWrite (fun id hid => ?_) hevent write hrequest)
      rintro rfl
      exact (started_of_step hstep).2.1 id hid hissued
  | message | usage | chunk => exact hspares (keeps_of_spares (Schema.spares_insert (by decide)))
  | cleared cleared =>
      exact hspares
        (keeps_of_spares (@spares_filling cleared [] _ (by decide) _ List.mem_cons_self))
  | status _ _ hrun =>
      obtain ⟨_, rfl⟩ := Policy.updateRows_eq_ok hexecute
      rw [documentsOf_update]
      · simpa using hbefore
      · intro document
        split
        · rfl
        · rfl

/-- The organization of a document deletes all rows under its id. -/
theorem documentsOf_delete {began : Time}
    (hwithin : schema.KeyWithin db orgId .documents documentId)
    (h : (boundConn orgId began db).policy.Executes schema db
      [.delete .documents fun row => rowId .documents row == documentId] db') :
    documentsOf db' documentId = [] := by
  obtain ⟨_, hdelete, rfl⟩ := h
  obtain ⟨_, rfl⟩ := Policy.deleteRows_eq_ok hdelete
  refine List.eq_nil_iff_forall_not_mem.mpr fun document hdocument => ?_
  obtain ⟨hmem, hid⟩ := mem_documentsOf.mp hdocument
  rw [Schema.delete_of_cascades (by decide)] at hmem
  obtain ⟨hbefore, hkept⟩ := List.mem_filter.mp hmem
  have horg : document.orgId = orgId := Option.some.inj (hwithin document hbefore hid)
  have hselected : (rowId .documents document == documentId) = true := beq_iff_eq.mpr hid
  rw [removed_document, visible_document horg, hselected] at hkept
  cases hkept

/-- A deletion that succeeds takes the document away. -/
theorem absent_of_delete (hheld : Held world orgId .documents documentId)
    (hevent : event.Deletes documentId) (hstep : Step settings crypto world event world') :
    documentsOf world'.db documentId = [] := by
  cases hstep with
  | @served servedOrg _ _ request _ began _ conn' _ hrun =>
      obtain rfl : request = .deleteDocument documentId := hevent
      unfold serve at hrun
      obtain ⟨principal, middle, hguard, hhandle⟩ := Program.runs_bind.mp hrun
      obtain ⟨rfl, _⟩ := guardPrincipal_eq_ok hguard
      obtain ⟨_, hdelete, _⟩ := Program.runs_map.mp hhandle
      simp only [deleteDocument, getOwnedDocument, Program.runs_bind, runs_deleteById] at hdelete
      obtain ⟨document, _, hfound, hwrote⟩ := hdelete
      obtain ⟨rfl, hmem, rfl, hvisible⟩ := of_runs_getOr404 hfound
      -- the organization that deletes the document sees it, so it is its own
      have hseen : document.orgId = servedOrg :=
        Option.some.inj (@rowOrg_of_visible _ _ rfl rfl .documents _ hvisible)
      have howned : document.orgId = orgId := Option.some.inj (hheld.1 document hmem rfl)
      obtain rfl : servedOrg = orgId := hseen.symm.trans howned
      exact @documentsOf_delete _ _ _ conn'.db began hheld.1 hwrote.executes
  | auth | authenticated | asked | answered | ingesting | notIngested | stored | raised | failed
  | dispatched => exact absurd hevent id

/-- The storing transaction makes the document ready if it is there; otherwise there
was nothing to store. -/
theorem statusOf_of_stored {run : IngestionRun} {text : Str} {chunks : List Str}
    {vectors : List Embedding} (hheld : Held world run.orgId .documents run.documentId)
    (hstep : Step settings crypto world (.stored run text chunks vectors) world') :
    (documentsOf world.db run.documentId ≠ [] ∧ statusOf world'.db run.documentId = some .ready) ∨
      (documentsOf world.db run.documentId = [] ∧ chunks = []) := by
  obtain ⟨conn, writes, heffect, hexecutes⟩ := step_executes hstep
  cases heffect with
  | @stored _ _ _ _ _ draw began recorded ready _ hlength hrecorded hready =>
      obtain ⟨filled, hfilling, hrest⟩ := Policy.executes_append.mp hexecutes
      by_cases hthere : documentsOf world.db run.documentId = []
      · refine .inr ⟨hthere, ?_⟩
        by_contra hchunks
        obtain ⟨content, contents, rfl⟩ := List.exists_cons_of_ne_nil hchunks
        obtain ⟨embedding, embeddings, rfl⟩ : ∃ embedding embeddings,
            vectors = embedding :: embeddings :=
          List.exists_cons_of_ne_nil (by rintro rfl; cases hlength)
        -- the first chunk refers to the document
        obtain ⟨cleared, hclear, filled', hinsert, _⟩ := hfilling
        obtain ⟨_, _, _, _, _, hresolved⟩ := Policy.insertRow_eq_ok hinsert
        obtain ⟨document, hdocument, hid⟩ :=
          hresolved _ (List.mem_cons_of_mem _ List.mem_cons_self) run.documentId rfl
        have hdocuments : cleared .documents = world.db .documents :=
          @spares_filling run.documentId [] .documents (by decide) _ List.mem_cons_self _ _ _ hclear
        have hmem : document ∈ documentsOf world.db run.documentId :=
          mem_documentsOf.mpr ⟨hdocuments ▸ hdocument, hid⟩
        rw [hthere] at hmem
        cases hmem
      · obtain ⟨noted, hrecord, hstatus⟩ := Policy.executes_append.mp hrest
        rcases hready with ⟨_, hgone⟩ | rfl
        · exact absurd ((gone_iff hheld).mp hgone) hthere
        · have hdocuments : noted .documents = world.db .documents :=
            (Schema.apply_of_spares hrecord (spares_recorded (by decide) hrecorded)).trans
              (Schema.apply_of_spares hfilling (spares_filling (by decide)))
          have hsame : documentsOf noted run.documentId = documentsOf world.db run.documentId := by
            rw [documentsOf, documentsOf, hdocuments]
          have hwithin : schema.KeyWithin noted run.orgId .documents run.documentId := by
            intro document hmem hid
            exact hheld.1 document (hdocuments ▸ hmem) hid
          exact .inl ⟨hthere, statusOf_statusWrite began hwithin hstatus (hsame ▸ hthere)⟩

/-- The transaction after an exception makes the document failed if it is there. -/
theorem statusOf_of_failed {run : IngestionRun} {message : Str}
    (hheld : Held world run.orgId .documents run.documentId)
    (hstep : Step settings crypto world (.failed run message) world') :
    documentsOf world.db run.documentId = [] ∨
      statusOf world'.db run.documentId = some .failed := by
  obtain ⟨conn, writes, heffect, hexecutes⟩ := step_executes hstep
  by_cases hthere : documentsOf world.db run.documentId = []
  · exact .inl hthere
  · cases heffect with
    | @failed _ _ began _ hwrites =>
        rcases hwrites with ⟨_, hgone⟩ | rfl
        · exact absurd ((gone_iff hheld).mp hgone) hthere
        · exact .inr (statusOf_statusWrite began hheld.1 hexecutes hthere)

end Documents

/-! ## The task -/

/-- The payload of a webhook event about a document. -/
inductive DocumentPayload
  | ready (documentId : Uuid) (chunkCount : ℕ)
  | failed (documentId : Uuid) (error : Str)
  deriving DecidableEq

/-- How much of an exception's text is sent. -/
def maxSentErrorLength : ℕ := 500

/-- What `_run` sends after `run_ingestion` has returned or raised. -/
def webhookOf (documentId : Uuid) : Except Str ℕ → WebhookEvent × DocumentPayload
  | .error message => (.documentFailed, .failed documentId (message.take maxSentErrorLength))
  | .ok chunkCount => (.documentReady, .ready documentId chunkCount)

/-- How `run_ingestion` ends: the first transaction finds no document, the chunks are
stored, an exception is noted on the document, or an exception is not handled. -/
inductive Ending
  | missing
  | stored (chunkCount : ℕ)
  | noted (message : Str)
  | unnoted (message : Str)
  deriving DecidableEq

/-- What the caller sees of it. -/
def Ending.result : Ending → Except Str ℕ
  | .missing => .ok 0
  | .stored chunkCount => .ok chunkCount
  | .noted message | .unnoted message => .error message

/-- How far the task is. -/
inductive IngestPhase
  | queued
  | running (run : IngestionRun)
  | failing (run : IngestionRun) (message : Str)
  | ended (ending : Ending)
  | dispatched (ending : Ending)
  deriving DecidableEq

/-- A task in a platform, with the status its last transaction has left the document
in. -/
structure IngestTask where
  world : World
  phase : IngestPhase
  committed : Option DocumentStatus

inductive IngestEvent
  | begin
  | miss
  | beginRaises (message : Str)
  | store (chunks : List Str)
  | raise (message : Str)
  | note
  | noteRaises (message : Str)
  | dispatch (event : WebhookEvent) (payload : DocumentPayload)
  | others (event : Event)

variable (settings : Settings) (crypto : Crypto) (orgId documentId : Uuid)

/-- The transactions of the task are steps of the platform.  One that raises is
rolled back: a document without a storage key, a statement that fails or a
connection that is lost. -/
inductive IngestStep : IngestTask → IngestEvent → IngestTask → Prop
  | begin {world world' : World} {storageKey : Str} {committed : Option DocumentStatus} :
      Step settings crypto world (.ingesting ⟨orgId, documentId, storageKey⟩) world' →
      IngestStep ⟨world, .queued, committed⟩ .begin
        ⟨world', .running ⟨orgId, documentId, storageKey⟩, committed⟩
  | miss {world world' : World} {committed : Option DocumentStatus} :
      Step settings crypto world (.notIngested orgId documentId) world' →
      IngestStep ⟨world, .queued, committed⟩ .miss ⟨world', .ended .missing, committed⟩
  | beginRaises {world : World} {message : Str} {committed : Option DocumentStatus} :
      IngestStep ⟨world, .queued, committed⟩ (.beginRaises message)
        ⟨world, .ended (.unnoted message), committed⟩
  | store {world world' : World} {run : IngestionRun} {text : Str} {chunks : List Str}
      {vectors : List Embedding} {committed : Option DocumentStatus} :
      Step settings crypto world (.stored run text chunks vectors) world' →
      IngestStep ⟨world, .running run, committed⟩ (.store chunks)
        ⟨world', .ended (.stored chunks.length), statusOf world'.db documentId⟩
  | raise {world world' : World} {run : IngestionRun} {message : Str}
      {committed : Option DocumentStatus} :
      Step settings crypto world (.raised run message) world' →
      IngestStep ⟨world, .running run, committed⟩ (.raise message)
        ⟨world', .failing run message, committed⟩
  | note {world world' : World} {run : IngestionRun} {message : Str}
      {committed : Option DocumentStatus} :
      Step settings crypto world (.failed run message) world' →
      IngestStep ⟨world, .failing run message, committed⟩ .note
        ⟨world', .ended (.noted message), statusOf world'.db documentId⟩
  | noteRaises {world : World} {run : IngestionRun} {message message' : Str}
      {committed : Option DocumentStatus} :
      IngestStep ⟨world, .failing run message, committed⟩ (.noteRaises message')
        ⟨world, .ended (.unnoted message'), committed⟩
  | dispatch {world world' : World} {ending : Ending} {webhooks : List OrgWebhook}
      {committed : Option DocumentStatus} {event : WebhookEvent} {payload : DocumentPayload} :
      webhookOf documentId ending.result = (event, payload) →
      Step settings crypto world (.dispatched orgId event.value webhooks) world' →
      IngestStep ⟨world, .ended ending, committed⟩ (.dispatch event payload)
        ⟨world', .dispatched ending, committed⟩
  | others {world world' : World} {phase : IngestPhase} {committed : Option DocumentStatus}
      {event : Event} :
      Step settings crypto world event world' →
      IngestStep ⟨world, phase, committed⟩ (.others event) ⟨world', phase, committed⟩

/-- The task has been taken from the queue, of a platform in any state it can be in. -/
structure IngestStart (task : IngestTask) : Prop where
  reached : ∃ start trace, Initial start ∧ Runs settings crypto start trace task.world
  phase : task.phase = .queued
  committed : task.committed = none

/-- The event agrees with the document and with what this task has committed. -/
def Agrees (documentId : Uuid) (task : IngestTask) : WebhookEvent → Prop
  | .documentReady =>
      documentsOf task.world.db documentId ≠ [] ∧ task.committed = some .ready
  | .documentFailed =>
      task.committed = some .failed ∨ documentsOf task.world.db documentId = []
  | .budgetAlert => False

/-- The step keeps the event and the status together: the first transaction finds the
document, the last one finds it or has chunks to store, nobody deletes it between that
one and the event, and after an exception that was not handled it has been deleted
when the event is sent. -/
def Regular (documentId : Uuid) (task : IngestTask) : IngestEvent → Prop
  | .miss => False
  | .store chunks => documentsOf task.world.db documentId ≠ [] ∨ chunks ≠ []
  | .others event =>
      (∃ chunkCount, task.phase = .ended (.stored chunkCount)) → ¬event.Deletes documentId
  | .dispatch .. =>
      (∃ message, task.phase = .ended (.unnoted message)) →
        documentsOf task.world.db documentId = []
  | .begin | .beginRaises _ | .raise _ | .note | .noteRaises _ => True

/-- A step with the condition. -/
def RegularStep (task : IngestTask) (event : IngestEvent) (task' : IngestTask) : Prop :=
  IngestStep settings crypto orgId documentId task event task' ∧ Regular documentId task event

variable {settings crypto orgId documentId}

/-! ## What is known along a run -/

/-- What the task has committed so far, and whether its document was seen. -/
def IngestPhase.Known (orgId documentId : Uuid) (task : IngestTask) : IngestPhase → Prop
  | .queued | .ended .missing | .ended (.unnoted _) => task.committed = none
  | .running run | .failing run _ =>
      task.committed = none ∧ run.orgId = orgId ∧ run.documentId = documentId ∧
        Held task.world orgId .documents documentId
  | .ended (.stored _) => Held task.world orgId .documents documentId
  | .ended (.noted _) => Held task.world orgId .documents documentId ∧
      (task.committed = some .failed ∨ documentsOf task.world.db documentId = [])
  | .dispatched _ => True

/-- What holds along every run. -/
structure Followed (orgId documentId : Uuid) (task : IngestTask) : Prop where
  coherent : Coherent task.world
  known : task.phase.Known orgId documentId task

section Steps

variable {task task' : IngestTask} {event : IngestEvent}

theorem IngestStart.followed (h : IngestStart settings crypto task) :
    Followed orgId documentId task := by
  obtain ⟨⟨start, trace, hstart, hrun⟩, hphase, hcommitted⟩ := h
  refine ⟨coherent_of_runs hstart hrun, ?_⟩
  rw [hphase]
  exact hcommitted

/-- The others change neither the phase nor what the task has committed. -/
theorem IngestPhase.Known.of_step {world world' : World} {event : Event} {phase : IngestPhase}
    {committed : Option DocumentStatus} (h : phase.Known orgId documentId ⟨world, phase, committed⟩)
    (hstep : Step settings crypto world event world') :
    phase.Known orgId documentId ⟨world', phase, committed⟩ := by
  cases phase with
  | queued | dispatched => exact h
  | running | failing =>
      obtain ⟨hcommitted, horg, hid, hheld⟩ := h
      exact ⟨hcommitted, horg, hid, hheld.of_step hstep rfl⟩
  | ended ending =>
      cases ending with
      | missing | unnoted => exact h
      | stored => exact Held.of_step hstep rfl h
      | noted =>
          obtain ⟨hheld, hcommitted⟩ := h
          exact ⟨hheld.of_step hstep rfl, hcommitted.imp_right fun hnone =>
            absent_of_step hheld.2 hnone hstep⟩

/-- The first transaction has found the document. -/
theorem held_of_ingesting {world world' : World} {run : IngestionRun} (hcoherent : Coherent world)
    (hstep : Step settings crypto world (.ingesting run) world') :
    Held world' run.orgId .documents run.documentId := by
  have hlater := hcoherent.step hstep
  cases hstep with
  | ingesting => exact hlater.runs _ (.inl List.mem_cons_self)

theorem Followed.step (h : Followed orgId documentId task)
    (hstep : IngestStep settings crypto orgId documentId task event task') :
    Followed orgId documentId task' := by
  obtain ⟨hcoherent, hknown⟩ := h
  cases hstep with
  | begin hbegin =>
      exact ⟨hcoherent.step hbegin, hknown, rfl, rfl, held_of_ingesting hcoherent hbegin⟩
  | miss hmiss => exact ⟨hcoherent.step hmiss, hknown⟩
  | beginRaises => exact ⟨hcoherent, hknown⟩
  | store hstore =>
      obtain ⟨_, rfl, rfl, hheld⟩ := hknown
      exact ⟨hcoherent.step hstore, hheld.of_step hstore rfl⟩
  | raise hraise =>
      obtain ⟨hcommitted, horg, hid, hheld⟩ := hknown
      exact ⟨hcoherent.step hraise, hcommitted, horg, hid, hheld.of_step hraise rfl⟩
  | note hnote =>
      obtain ⟨_, rfl, rfl, hheld⟩ := hknown
      refine ⟨hcoherent.step hnote, hheld.of_step hnote rfl, ?_⟩
      rcases statusOf_of_failed hheld hnote with hnone | hfailed
      · exact .inr (absent_of_step hheld.2 hnone hnote)
      · exact .inl hfailed
  | noteRaises => exact ⟨hcoherent, hknown.1⟩
  | dispatch _ hdispatch => exact ⟨hcoherent.step hdispatch, trivial⟩
  | others hother => exact ⟨hcoherent.step hother, hknown.of_step hother⟩

/-- The event would agree so far. -/
def Fine (documentId : Uuid) (task : IngestTask) : Prop :=
  task.phase ≠ .ended .missing ∧ ∀ chunkCount, task.phase = .ended (.stored chunkCount) →
    documentsOf task.world.db documentId ≠ [] ∧ task.committed = some .ready

theorem Fine.step (h : Fine documentId task) (hfollowed : Followed orgId documentId task)
    (hstep : RegularStep settings crypto orgId documentId task event task') :
    Fine documentId task' := by
  obtain ⟨hstep, hregular⟩ := hstep
  obtain ⟨_, hknown⟩ := hfollowed
  cases hstep with
  | begin | beginRaises | raise | note | noteRaises | dispatch => exact ⟨by simp, by simp⟩
  | miss => exact absurd hregular id
  | store hstore =>
      obtain ⟨_, rfl, rfl, hheld⟩ := hknown
      refine ⟨by simp, fun _ _ => ?_⟩
      rcases statusOf_of_stored hheld hstore with ⟨hthere, hready⟩ | ⟨hnone, hempty⟩
      · exact ⟨present_of_step hheld.2 id hthere hstore, hready⟩
      · rcases hregular with hthere | hchunks
        · exact absurd hnone hthere
        · exact absurd hempty hchunks
  | @others _ _ phase _ _ hother =>
      refine ⟨h.1, fun chunkCount hphase => ?_⟩
      obtain rfl : phase = .ended (.stored chunkCount) := hphase
      obtain ⟨hthere, hready⟩ := h.2 chunkCount rfl
      exact ⟨present_of_step hknown.2 (hregular ⟨chunkCount, rfl⟩) hthere hother, hready⟩

/-- The event is sent, or will not agree. -/
def Doomed (documentId : Uuid) (task : IngestTask) : Prop :=
  (∃ ending, task.phase = .dispatched ending) ∨ task.phase = .ended .missing ∨
    ∃ chunkCount, task.phase = .ended (.stored chunkCount) ∧
      (task.committed = none ∨ documentsOf task.world.db documentId = [])

theorem doomed_of_not_regular (hfollowed : Followed orgId documentId task)
    (hstep : IngestStep settings crypto orgId documentId task event task')
    (hregular : ¬Regular documentId task event) : Doomed documentId task' := by
  obtain ⟨_, hknown⟩ := hfollowed
  cases hstep with
  | begin | beginRaises | raise | note | noteRaises => exact absurd trivial hregular
  | miss => exact .inr (.inl rfl)
  | dispatch => exact .inl ⟨_, rfl⟩
  | store hstore =>
      obtain ⟨_, rfl, rfl, hheld⟩ := hknown
      have hnone := not_not.mp (not_or.mp hregular).1
      exact .inr (.inr ⟨_, rfl, .inl (statusOf_eq_none.mpr (absent_of_step hheld.2 hnone hstore))⟩)
  | @others _ _ phase _ _ hother =>
      obtain ⟨⟨chunkCount, hphase⟩, hdeletes⟩ := Classical.not_imp.mp hregular
      obtain rfl : phase = .ended (.stored chunkCount) := hphase
      have hnone := absent_of_delete hknown (not_not.mp hdeletes) hother
      exact .inr (.inr ⟨chunkCount, rfl, .inr hnone⟩)

theorem Doomed.step (h : Doomed documentId task) (hfollowed : Followed orgId documentId task)
    (hstep : IngestStep settings crypto orgId documentId task event task') :
    Doomed documentId task' := by
  obtain ⟨_, hknown⟩ := hfollowed
  rcases h with ⟨ending, hphase⟩ | hphase | ⟨chunkCount, hphase, hwhy⟩
  · cases hstep with
    | others => exact .inl ⟨ending, hphase⟩
    | begin | miss | beginRaises | store | raise | note | noteRaises | dispatch => cases hphase
  · cases hstep with
    | others => exact .inr (.inl hphase)
    | dispatch => exact .inl ⟨_, rfl⟩
    | begin | miss | beginRaises | store | raise | note | noteRaises => cases hphase
  · cases hstep with
    | @others _ _ phase _ _ hother =>
        obtain rfl : phase = .ended (.stored chunkCount) := hphase
        exact .inr (.inr ⟨chunkCount, rfl, hwhy.imp_right fun hnone =>
          absent_of_step hknown.2 hnone hother⟩)
    | dispatch => exact .inl ⟨_, rfl⟩
    | begin | miss | beginRaises | store | raise | note | noteRaises => cases hphase

/-! ## Runs -/

theorem followed_of_run {start last : IngestTask} {trace : List IngestEvent}
    (hstart : IngestStart settings crypto start)
    (hrun : Run (IngestStep settings crypto orgId documentId) start trace last) :
    Followed orgId documentId last :=
  hrun.keeps (fun _ _ _ hfollowed hstep => hfollowed.step hstep) hstart.followed

/-- Along a run with regular steps the event would agree. -/
theorem fine_of_regular {start last : IngestTask} {trace : List IngestEvent}
    (hstart : IngestStart settings crypto start)
    (hrun : Run (RegularStep settings crypto orgId documentId) start trace last) :
    Followed orgId documentId last ∧ Fine documentId last := by
  refine hrun.keeps (P := fun task => Followed orgId documentId task ∧ Fine documentId task)
    (fun _ _ _ h hstep => ⟨h.1.step hstep.1, h.2.step h.1 hstep⟩) ⟨hstart.followed, ?_⟩
  simp [Fine, hstart.phase]

/-- A run has regular steps, or its event does not agree. -/
theorem regular_or_doomed {start last : IngestTask} {trace : List IngestEvent}
    (hstart : IngestStart settings crypto start)
    (hrun : Run (IngestStep settings crypto orgId documentId) start trace last) :
    Run (RegularStep settings crypto orgId documentId) start trace last ∨
      Doomed documentId last := by
  induction hrun with
  | nil => exact .inl .nil
  | @snoc _ middle last event hbefore hstep ih =>
      have hfollowed := followed_of_run hstart hbefore
      rcases ih with hregular | hdoomed
      · by_cases hcare : Regular documentId middle event
        · exact .inl (hregular.snoc ⟨hstep, hcare⟩)
        · exact .inr (doomed_of_not_regular hfollowed hstep hcare)
      · exact .inr (hdoomed.step hfollowed hstep)

section Dispatch

variable {middle last : IngestTask} {event : WebhookEvent} {payload : DocumentPayload}

/-- Sending an event only reads. -/
theorem db_of_dispatched {world world' : World} {eventType : Str} {webhooks : List OrgWebhook}
    (hstep : Step settings crypto world (.dispatched orgId eventType webhooks) world') :
    world'.db = world.db := by
  cases hstep with
  | dispatched hrun =>
      obtain ⟨rfl, _⟩ := subscribedWebhooks_eq_ok rfl hrun
      rfl

theorem agrees_of_dispatch
    (hdispatch : IngestStep settings crypto orgId documentId middle (.dispatch event payload)
      last) : Agrees documentId last event ↔ Agrees documentId middle event := by
  cases hdispatch with
  | dispatch _ hstep => cases event <;> simp only [Agrees, db_of_dispatched hstep]

theorem Fine.agrees (h : Fine documentId middle) (hfollowed : Followed orgId documentId middle)
    (hdispatch : RegularStep settings crypto orgId documentId middle (.dispatch event payload)
      last) : Agrees documentId middle event := by
  obtain ⟨hstep, hregular⟩ := hdispatch
  obtain ⟨_, hknown⟩ := hfollowed
  cases hstep with
  | @dispatch _ _ ending _ _ _ _ hwebhook =>
      cases ending with
      | missing => exact absurd rfl h.1
      | stored chunkCount =>
          cases hwebhook
          exact h.2 chunkCount rfl
      | noted message =>
          cases hwebhook
          exact hknown.2
      | unnoted message =>
          cases hwebhook
          exact .inr (hregular ⟨message, rfl⟩)

theorem Doomed.not_agrees (h : Doomed documentId middle)
    (hdispatch : IngestStep settings crypto orgId documentId middle (.dispatch event payload) last)
    (hfollowed : Followed orgId documentId middle) : ¬Agrees documentId middle event := by
  obtain ⟨_, hknown⟩ := hfollowed
  intro hagrees
  cases hdispatch with
  | @dispatch _ _ ending _ committed _ _ hwebhook =>
      rcases h with ⟨ending', hphase⟩ | hphase | ⟨chunkCount, hphase, hwhy⟩
      · cases hphase
      · cases hphase
        cases hwebhook
        obtain rfl : committed = none := hknown
        cases hagrees.2
      · cases hphase
        cases hwebhook
        rcases hwhy with hnone | hgone
        · cases hnone.symm.trans hagrees.2
        · exact hagrees.1 hgone

/-- After an exception that was not handled, nothing is committed. -/
theorem Followed.regular_dispatch (h : Followed orgId documentId middle)
    (hdispatch : IngestStep settings crypto orgId documentId middle (.dispatch event payload) last)
    (hagrees : Agrees documentId middle event) :
    Regular documentId middle (.dispatch event payload) := by
  obtain ⟨_, hknown⟩ := h
  rintro ⟨message, hphase⟩
  cases hdispatch with
  | @dispatch _ _ ending _ committed _ _ hwebhook =>
      cases hphase
      cases hwebhook
      obtain rfl : committed = none := hknown
      exact hagrees.resolve_left (by simp)

end Dispatch

/-- In every run of the task an event that is sent agrees with the document and its
status if and only if all steps of the run are regular. -/
theorem dispatch_agrees_iff {start middle last : IngestTask} {trace : List IngestEvent}
    {event : WebhookEvent} {payload : DocumentPayload}
    (hstart : IngestStart settings crypto start)
    (hrun : Run (IngestStep settings crypto orgId documentId) start trace middle)
    (hdispatch : IngestStep settings crypto orgId documentId middle (.dispatch event payload)
      last) : Agrees documentId middle event ↔
      Run (RegularStep settings crypto orgId documentId) start
        (trace ++ [.dispatch event payload]) last := by
  have hfollowed := followed_of_run hstart hrun
  constructor
  · intro hagrees
    rcases regular_or_doomed hstart hrun with hregular | hdoomed
    · exact hregular.snoc ⟨hdispatch, hfollowed.regular_dispatch hdispatch hagrees⟩
    · exact absurd hagrees (hdoomed.not_agrees hdispatch hfollowed)
  · intro hregular
    obtain ⟨before, hbefore, hlast⟩ := hregular.split
    obtain ⟨hfollowed', hfine⟩ := fine_of_regular hstart hbefore
    have hagrees := hfine.agrees hfollowed' hlast.of_single
    exact (agrees_of_dispatch hdispatch).mp ((agrees_of_dispatch hlast.of_single.1).mpr hagrees)

end Steps

/-- The organization 1 with its administrator 2. -/
def signedUp : List (Time × Action) :=
  [(0, .auth (.signup ⟨"A".toList, "a@x".toList, [], none⟩ [] ⟨1, 2, []⟩ ⟨"first".toList, 3⟩))]

def uploadEight : Action := .serve 1 2 false (.uploadDocument sampleUpload 8 (.ok ()))

theorem dispatch_agrees_iff_stored : ∃ start trace middle last payload,
    IngestStart wordSettings sampleCrypto start ∧
    Run (IngestStep wordSettings sampleCrypto 1 8) start trace middle ∧
    IngestStep wordSettings sampleCrypto 1 8 middle (.dispatch .documentReady payload) last ∧
    payload = .ready 8 2 ∧ Agrees 8 middle .documentReady := by
  have hprepare : prepareChunks wordSettings ⟨.ok "two words".toList, flatProvider⟩ =
      .ok (["two".toList, "words".toList], ["two".toList, "words".toList].map fun _ =>
        List.replicate embeddingDim 0) := by decide +kernel
  have hevaluate : ((performAll wordSettings sampleCrypto emptyWorld
      (signedUp ++ [(0, uploadEight)])).bind fun setup =>
        (transact .appUser 0 setup.2.db (beginIngestion 1 8)).bind fun begun =>
          (transact .appUser 0 begun.2 (storeChunks 1 8 flatProvider ["two".toList, "words".toList]
            (["two".toList, "words".toList].map fun _ => List.replicate embeddingDim 0)
            ⟨fun index => BitVec.ofNat 128 (100 + index), 30⟩ 0)).bind fun stored =>
              (transact .appUser 0 stored.2
                (subscribedWebhooks 1 WebhookEvent.documentReady.value)).map fun _ => begun.1) =
      some (some (buildKey 1 8 "a.pdf".toList)) := by decide +kernel
  obtain ⟨⟨trace, world⟩, hsetup, hrest⟩ := Option.bind_eq_some_iff.mp hevaluate
  obtain ⟨⟨found, db⟩, hbegin, hrest⟩ := Option.bind_eq_some_iff.mp hrest
  obtain ⟨⟨_, db'⟩, hstore, hrest⟩ := Option.bind_eq_some_iff.mp hrest
  obtain ⟨⟨webhooks, db''⟩, hsent, hfound⟩ := Option.map_eq_some_iff.mp hrest
  obtain rfl : found = _ := hfound
  obtain ⟨_, hbegins, rfl⟩ := transact_eq_some hbegin
  obtain ⟨_, hstores, rfl⟩ := transact_eq_some hstore
  obtain ⟨_, hsends, rfl⟩ := transact_eq_some hsent
  have hstart : IngestStart wordSettings sampleCrypto ⟨world, .queued, none⟩ :=
    ⟨⟨_, _, initial_emptyWorld, runs_of_performAll hsetup⟩, rfl, rfl⟩
  have hrunning : Run (RegularStep wordSettings sampleCrypto 1 8) ⟨world, .queued, none⟩ [.begin]
      _ := Run.single ⟨.begin (.ingesting hbegins), trivial⟩
  have hstored := hrunning.snoc
    ⟨.store (.stored List.mem_cons_self hprepare hstores), .inr (List.cons_ne_nil _ _)⟩
  have hsteps := hstored.mono fun _ _ _ hstep => hstep.1
  refine ⟨_, _, _, _, .ready 8 2, hstart, hsteps, .dispatch rfl (.dispatched hsends), rfl, ?_⟩
  refine (dispatch_agrees_iff hstart hsteps (.dispatch rfl (.dispatched hsends))).mpr ?_
  exact hstored.snoc ⟨.dispatch rfl (.dispatched hsends), by rintro ⟨_, ⟨⟩⟩⟩

/-- The worker is faster than the end of the upload: the task finds no document, the
upload commits, and the document that is still pending is announced as ready. -/
theorem earlyTask_announces_ready : ∃ start trace middle last payload,
    IngestStart {} sampleCrypto start ∧
    Run (IngestStep {} sampleCrypto 1 8) start trace middle ∧
    IngestStep {} sampleCrypto 1 8 middle (.dispatch .documentReady payload) last ∧
    (documentsOf middle.world.db 8).map Document.status = [.pending] ∧
    ¬Agrees 8 middle .documentReady := by
  have hevaluate : ((performAll {} sampleCrypto emptyWorld signedUp).bind fun setup =>
      (transact .appUser 0 setup.2.db (beginIngestion 1 8)).bind fun begun =>
        (perform {} sampleCrypto 0 { setup.2 with db := begun.2 } uploadEight).bind fun uploaded =>
          (transact .appUser 0 uploaded.2.db
            (subscribedWebhooks 1 WebhookEvent.documentReady.value)).map fun _ =>
              (begun.1, (documentsOf uploaded.2.db 8).map Document.status)) =
      some (none, [.pending]) := by decide +kernel
  obtain ⟨⟨trace, world⟩, hsetup, hrest⟩ := Option.bind_eq_some_iff.mp hevaluate
  obtain ⟨⟨found, db⟩, hbegin, hrest⟩ := Option.bind_eq_some_iff.mp hrest
  obtain ⟨⟨event, world'⟩, hupload, hrest⟩ := Option.bind_eq_some_iff.mp hrest
  obtain ⟨⟨webhooks, db'⟩, hsent, hfacts⟩ := Option.map_eq_some_iff.mp hrest
  obtain ⟨hfound, hstatus⟩ := by simpa only [Prod.mk.injEq] using hfacts
  cases hfound
  obtain ⟨_, hmiss, rfl⟩ := transact_eq_some hbegin
  obtain ⟨_, hdispatch, rfl⟩ := transact_eq_some hsent
  have hstart : IngestStart {} sampleCrypto ⟨world, .queued, none⟩ :=
    ⟨⟨_, _, initial_emptyWorld, runs_of_performAll hsetup⟩, rfl, rfl⟩
  have hmissed : Run (IngestStep {} sampleCrypto 1 8) ⟨world, .queued, none⟩ [.miss] _ :=
    Run.single (.miss (.notIngested hmiss))
  have hrun := hmissed.snoc (.others (step_of_perform hupload))
  refine ⟨_, _, _, _, .ready 8 0, hstart, hrun, .dispatch rfl (.dispatched hdispatch), hstatus, ?_⟩
  rintro ⟨_, hcommitted⟩
  cases hcommitted

end Platform
