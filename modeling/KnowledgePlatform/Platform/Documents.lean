import KnowledgePlatform.Api.Filenames
import KnowledgePlatform.Platform.History
import KnowledgePlatform.Platform.IngestionRuns

/-!
# Documents and their files

A document row names its file by the storage key and tells by its status how far
the ingestion came.  The rows are written by requests, which create, rename and
delete documents, and by ingestion runs, which set the status, in any order.
`origin_of_step` says once what a step can do to them:

* a row stays, apart from its title,
* a run marks the row of its document with the status and the error of the step,
* a request creates a row under a new id, pending, with the key of its upload or
  with none.

From it follow that every key is built from the organization, the id and the
filename of its row, so that no two documents share a file; that what is being
ingested or was ingested has a file; and that a row shows an error exactly when
its ingestion failed.
-/

open Api Core Foundations Python Relational Worker

namespace Platform

variable {settings : Settings} {crypto : Crypto}

/-- The key is that of an upload to this document of the organization. -/
def KeyOf (orgId documentId : Uuid) (filename : Option Str) (key : Str) : Prop :=
  ∃ name, filename = some (safeFilename name) ∧
    key = buildKey orgId documentId (safeFilename name)

/-- What holds of every document row. -/
structure Filed (document : Document) : Prop where
  key : ∀ key, document.storageKey = some key →
    KeyOf document.orgId document.id document.filename key
  ingested : document.status ≠ .pending → document.storageKey ≠ none
  error : document.error ≠ none ↔ document.status = .failed

/-- The rows are of one document with the same file. -/
structure SameFile (before after : Document) : Prop where
  id : after.id = before.id
  orgId : after.orgId = before.orgId
  filename : after.filename = before.filename
  storageKey : after.storageKey = before.storageKey

/-- The status and the error a step of a run leaves. -/
def Event.mark : Event → Option (DocumentStatus × Option Str)
  | .ingesting _ => some (.processing, none)
  | .stored .. => some (.ready, none)
  | .failed _ message => some (.failed, some (message.take maxErrorLength))
  | .auth .. | .authenticated .. | .served .. | .asked _ | .answered .. | .notIngested ..
  | .raised .. | .dispatched .. => none

/-- Where a document after a step comes from. -/
inductive Origin (db : Database) (event : Event) (document : Document) : Prop
  | kept (before : Document) : before ∈ db .documents → SameFile before document →
      document.status = before.status → document.error = before.error →
      Origin db event document
  | marked (before : Document) (run : IngestionRun) : before ∈ db .documents →
      event.run? = some run → before.id = run.documentId → SameFile before document →
      event.mark = some (document.status, document.error) → Origin db event document
  | created : document.id ∈ event.draws → document.status = .pending → document.error = none →
      (∀ key, document.storageKey = some key →
        KeyOf document.orgId document.id document.filename key) →
      Origin db event document

/-! ## What a step does to documents -/

theorem SameFile.refl (document : Document) : SameFile document document := ⟨rfl, rfl, rfl, rfl⟩

section Steps

variable {db db' : Database} {event : Event} {policy : Policy Row}

theorem origin_of_mem {document : Document} (h : document ∈ db .documents) :
    Origin db event document :=
  .kept document h (SameFile.refl document) rfl rfl

theorem origin_of_spares {writes : List (Write schema)} (h : policy.Executes schema db writes db')
    (hspares : ∀ write ∈ writes, schema.Spares .documents write) :
    ∀ document ∈ db' .documents, Origin db event document := by
  rw [Schema.apply_of_spares h hspares]
  exact fun document hdocument => origin_of_mem hdocument

/-- Statements that may end by setting the status of the document of the run. -/
theorem origin_of_status {run : IngestionRun} {status : DocumentStatus} {error : Option Str}
    (writes : List (Write schema)) {marks : List (Write schema)} (hrun : event.run? = some run)
    (hmark : event.mark = some (status, error))
    (hspares : ∀ write ∈ writes, schema.Spares .documents write)
    (hmarks : marks = [] ∨ marks = [statusWrite run.documentId status error])
    (h : policy.Executes schema db (writes ++ marks) db') :
    ∀ document ∈ db' .documents, Origin db event document := by
  intro document hdocument
  obtain ⟨middle, hfirst, hlast⟩ := Policy.executes_append.mp h
  have hsame := Schema.apply_of_spares hfirst hspares
  rcases hmarks with rfl | rfl
  · cases Policy.executes_nil.mp hlast
    exact origin_of_mem (hsame ▸ hdocument)
  · obtain ⟨_, hstatus, rfl⟩ := hlast
    obtain ⟨before, hbefore, rfl | ⟨_, hselected, rfl⟩⟩ := Policy.mem_of_updateRows hstatus hdocument
    · exact origin_of_mem (hsame ▸ hbefore)
    · exact .marked before run (hsame ▸ hbefore) hrun (eq_of_beq hselected) ⟨rfl, rfl, rfl, rfl⟩ hmark

/-- The two statements of an upload. -/
theorem origin_of_upload {orgId id : Uuid} {name : Option Str} {createdAt : Time}
    (hdrawn : id ∈ event.draws)
    (h : policy.Executes schema db
      [.insert .documents (uploadedDocument orgId id (safeFilename name) createdAt),
        .update .documents (withId .documents id)
          (assignStorageKey (buildKey orgId id (safeFilename name)))] db') :
    ∀ document ∈ db' .documents, Origin db event document := by
  intro document hdocument
  obtain ⟨_, hinsert, _, hupdate, rfl⟩ := h
  obtain ⟨rfl, _, _, _, hunique, _⟩ := Policy.insertRow_eq_ok hinsert
  obtain ⟨before, hbefore, hcases⟩ := Policy.mem_of_updateRows hupdate hdocument
  rw [Database.insert_self] at hbefore
  rcases List.mem_append.mp hbefore with hold | hnew
  · rcases hcases with rfl | ⟨_, hselected, _⟩
    · exact origin_of_mem hold
    -- the id is that of the inserted row, which no other row has
    · exact absurd (eq_of_beq hselected) (hunique before hold).1
  · cases List.mem_singleton.mp hnew
    rcases hcases with rfl | ⟨_, _, rfl⟩
    · exact .created hdrawn rfl rfl fun key hkey => by cases hkey
    · exact .created hdrawn rfl rfl fun key hkey =>
        ⟨name, rfl, (Option.some.inj hkey).symm⟩

/-- The statements of a request. -/
theorem origin_of_request {orgId userId : Uuid} {viaApiKey : Bool} {request : Request}
    {now began : Time} {response : Response} {principal : Principal}
    (h : policy.Executes schema db (request.writes settings crypto principal now began) db') :
    ∀ document ∈ db' .documents,
      Origin db (.served orgId userId viaApiKey request now response) document := by
  cases request
  case createDocument body id =>
    intro document hdocument
    obtain ⟨_, hinsert, rfl⟩ := h
    obtain ⟨rfl, _⟩ := Policy.insertRow_eq_ok hinsert
    rw [Database.insert_self] at hdocument
    rcases List.mem_append.mp hdocument with hold | hnew
    · exact origin_of_mem hold
    · cases List.mem_singleton.mp hnew
      exact .created List.mem_cons_self rfl rfl fun key hkey => by cases hkey
  case uploadDocument file id stored => exact origin_of_upload List.mem_cons_self h
  case updateDocument documentId title =>
    intro document hdocument
    obtain ⟨_, hupdate, rfl⟩ := h
    obtain ⟨before, hbefore, rfl | ⟨_, _, rfl⟩⟩ := Policy.mem_of_updateRows hupdate hdocument
    · exact origin_of_mem hbefore
    · exact .kept before hbefore ⟨rfl, rfl, rfl, rfl⟩ rfl rfl
  case deleteDocument documentId =>
    intro document hdocument
    obtain ⟨_, hdelete, rfl⟩ := h
    obtain ⟨_, rfl⟩ := Policy.deleteRows_eq_ok hdelete
    rw [Schema.delete_of_cascades (by decide)] at hdocument
    exact origin_of_mem (List.mem_filter.mp hdocument).1
  all_goals
    refine origin_of_spares h fun write hwrite => ?_
    simp only [Request.writes, List.mem_cons, List.not_mem_nil, or_false] at hwrite
  case createUser | createApiKey | createWebhook | createConversation =>
    subst hwrite
    exact Schema.spares_insert (by decide)
  case updateUser | revokeApiKey =>
    subst hwrite
    exact Schema.spares_update (by decide)
  case deleteUser | deleteWebhook =>
    subst hwrite
    exact Schema.spares_delete closedAbove_documentChunks (by decide) (by decide)
  case updateMyOrganization =>
    split at hwrite
    · cases hwrite
    · cases List.mem_singleton.mp hwrite
      exact Schema.spares_update (by decide)

/-- What a step does to the documents. -/
theorem origin_of_step {world world' : World} (hstep : Step settings crypto world event world') :
    ∀ document ∈ world'.db .documents, Origin world.db event document := by
  obtain ⟨conn, writes, heffect, hexecutes⟩ := step_executes hstep
  cases heffect with
  | auth hwrites =>
      refine origin_of_spares hexecutes fun write hwrite => ?_
      cases hwrites write hwrite with
      | organization | user | link | token => exact Schema.spares_insert (by decide)
      | revoke => exact Schema.spares_update (by decide)
  | authenticated =>
      refine origin_of_spares hexecutes fun write hwrite => ?_
      cases List.mem_singleton.mp hwrite
      exact Schema.spares_update (by decide)
  | served _ _ hwrites =>
      rcases hwrites with rfl | rfl
      · exact origin_of_spares hexecutes fun write hwrite => by cases hwrite
      · exact origin_of_request hexecutes
  | asked =>
      refine origin_of_spares hexecutes fun write hwrite => ?_
      cases List.mem_singleton.mp hwrite
      exact Schema.spares_insert (by decide)
  | answered =>
      refine origin_of_spares hexecutes fun write hwrite => ?_
      simp only [answerWrites, List.mem_cons, List.not_mem_nil, or_false] at hwrite
      rcases hwrite with rfl | rfl <;> exact Schema.spares_insert (by decide)
  | notIngested | raised | dispatched =>
      exact origin_of_spares hexecutes fun write hwrite => by cases hwrite
  | ingesting =>
      exact origin_of_status [] rfl rfl (fun write hwrite => absurd hwrite List.not_mem_nil)
        (.inr rfl) hexecutes
  | stored _ _ hbatch hready =>
      rw [← List.append_assoc] at hexecutes
      refine origin_of_status _ rfl rfl (fun write hwrite => ?_) (hready.imp_left And.left) hexecutes
      rcases List.mem_append.mp hwrite with hfilling | hrecorded
      · exact spares_filling (by decide) write hfilling
      · exact spares_recorded (by decide) hbatch write hrecorded
  | failed hwrites =>
      exact origin_of_status [] rfl rfl (fun write hwrite => absurd hwrite List.not_mem_nil)
        (hwrites.imp_left And.left) hexecutes

end Steps

/-! ## The invariant -/

/-- A run reads the file of its document, whatever happens to the document. -/
structure Reads (world : World) (run : IngestionRun) : Prop where
  key : ∃ filename, KeyOf run.orgId run.documentId filename run.storageKey
  document : ∀ document ∈ world.db .documents, document.id = run.documentId →
    document.storageKey = some run.storageKey

structure Files (world : World) : Prop where
  filed : ∀ document ∈ world.db .documents, Filed document
  apart : ∀ document ∈ world.db .documents, ∀ other ∈ world.db .documents,
    document.storageKey ≠ none → document.storageKey = other.storageKey → document = other
  reads : ∀ run, InFlight world run → Reads world run

/-- No two documents have the same file. -/
theorem apart_of_filed {db : Database} (sound : schema.Sound db)
    (hfiled : ∀ document ∈ db .documents, Filed document) :
    ∀ document ∈ db .documents, ∀ other ∈ db .documents,
      document.storageKey ≠ none → document.storageKey = other.storageKey → document = other := by
  intro document hdocument other hother hsome hsame
  obtain ⟨key, hkey⟩ := Option.ne_none_iff_exists'.mp hsome
  obtain ⟨name, _, hname⟩ := (hfiled document hdocument).key key hkey
  obtain ⟨name', _, hname'⟩ := (hfiled other hother).key key (hsame ▸ hkey)
  obtain ⟨_, hid, _⟩ := buildKey_inj (slash_not_mem_safeFilename name)
    (slash_not_mem_safeFilename name') (hname.symm.trans hname')
  exact sound.eq_of_key_eq hdocument hother hid

theorem Filed.kept {before document : Document} (h : Filed before) (hsame : SameFile before document)
    (hstatus : document.status = before.status) (herror : document.error = before.error) :
    Filed document := by
  refine ⟨fun key hkey => ?_, fun hne => ?_, ?_⟩
  · rw [hsame.orgId, hsame.id, hsame.filename]
    exact h.key key (hsame.storageKey ▸ hkey)
  · rw [hsame.storageKey]
    exact h.ingested (hstatus ▸ hne)
  · rw [hstatus, herror]
    exact h.error

/-- A step of a run marks a row of which the run knows that it has a file. -/
theorem Filed.marked {before document : Document} {event : Event} (h : Filed before)
    (hfile : before.storageKey ≠ none) (hsame : SameFile before document)
    (hmark : event.mark = some (document.status, document.error)) : Filed document := by
  refine ⟨fun key hkey => ?_, fun _ => ?_, ?_⟩
  · rw [hsame.orgId, hsame.id, hsame.filename]
    exact h.key key (hsame.storageKey ▸ hkey)
  · rw [hsame.storageKey]
    exact hfile
  · cases event <;> simp only [Event.mark, Option.some.injEq, Prod.mk.injEq, reduceCtorEq] at hmark
    all_goals
      rw [← hmark.1, ← hmark.2]
      simp

/-- The run that a step starts reads the file of its document. -/
theorem reads_of_ingesting {world world' : World} {run : IngestionRun} (hcoherent : Coherent world)
    (hfiled : ∀ document ∈ world.db .documents, Filed document)
    (hstep : Step settings crypto world (.ingesting run) world') : Reads world run := by
  cases hstep with
  | @ingesting orgId documentId storageKey _ _ hrun =>
      obtain ⟨_, document, hdocument, hid, hvisible, hkey, _⟩ := beginIngestion_eq_ok hrun
      have horg : rowOrg .documents document = some orgId :=
        @rowOrg_of_visible _ _ rfl rfl .documents _ hvisible
      refine ⟨⟨document.filename, ?_⟩, fun other hother hsame => ?_⟩
      · have hbuilt := (hfiled document hdocument).key storageKey hkey
        rwa [Option.some.inj horg, hid] at hbuilt
      · rw [hcoherent.sound.eq_of_key_eq hother hdocument (hsame.trans hid.symm)]
        exact hkey

/-- What a run knows of its document stays true of it. -/
theorem Reads.step {world world' : World} {event : Event} {run : IngestionRun}
    (h : Reads world run) (hissued : run.documentId ∈ world.issued)
    (hstep : Step settings crypto world event world') : Reads world' run := by
  refine ⟨h.key, fun document hdocument hid => ?_⟩
  cases origin_of_step hstep document hdocument with
  | kept before hbefore hsame | marked before _ hbefore _ _ hsame =>
      rw [hsame.storageKey]
      exact h.document before hbefore (hsame.id.symm.trans hid)
  | created hdrawn =>
      rw [hid] at hdrawn
      exact absurd hissued ((started_of_step hstep).2.1 _ hdrawn)

/-- The run a marking step belongs to reads the file of its document. -/
theorem reads_of_mark {world world' : World} {event : Event} {run : IngestionRun}
    (hcoherent : Coherent world) (h : Files world) (hstep : Step settings crypto world event world')
    (hrun : event.run? = some run) (hmark : event.mark ≠ none) : Reads world run := by
  obtain ⟨_, _, hstoring, hfailing⟩ := inFlight_of_step hstep
  cases event with
  | ingesting =>
      cases hrun
      exact reads_of_ingesting hcoherent h.filed hstep
  | stored =>
      cases hrun
      exact h.reads run (.inl (hstoring _ _ _ _ rfl))
  | failed =>
      cases hrun
      exact h.reads run (.inr ⟨_, hfailing _ _ rfl⟩)
  | raised => exact absurd rfl hmark
  | auth | authenticated | served | asked | answered | notIngested | dispatched => cases hrun

theorem Files.step {world world' : World} {event : Event} (hcoherent : Coherent world)
    (h : Files world) (hstep : Step settings crypto world event world') : Files world' := by
  have hfiled : ∀ document ∈ world'.db .documents, Filed document := by
    intro document hdocument
    cases origin_of_step hstep document hdocument with
    | kept before hbefore hsame hstatus herror =>
        exact (h.filed before hbefore).kept hsame hstatus herror
    | marked before run hbefore hrun hid hsame hmark =>
        have hreads := reads_of_mark hcoherent h hstep hrun (by rw [hmark]; simp)
        refine (h.filed before hbefore).marked ?_ hsame hmark
        rw [hreads.document before hbefore hid]
        exact Option.some_ne_none _
    | created _ hstatus herror hkey =>
        exact ⟨hkey, fun hne => absurd hstatus hne, by simp [hstatus, herror]⟩
  refine ⟨hfiled, apart_of_filed (hcoherent.step hstep).sound hfiled, fun run hrun => ?_⟩
  rcases (started_of_step hstep).2.2.2 run hrun with hbefore | rfl
  · exact (h.reads run hbefore).step (hcoherent.runs run hbefore).2 hstep
  · obtain ⟨document, hdocument, hid, _⟩ : ∃ document ∈ world.db .documents,
        document.id = run.documentId ∧ document.orgId = run.orgId := by
      obtain ⟨conn, writes, heffect, _⟩ := step_executes hstep
      cases heffect with
      | ingesting hfound => exact hfound
    refine (reads_of_ingesting hcoherent h.filed hstep).step ?_ hstep
    exact hid ▸ hcoherent.recorded .documents rfl document hdocument

/-- In every reachable state the key of a document is that of an upload to it, under
the folder of its own organization, and no two documents share a key; a document
that is not pending has one, and it shows an error exactly when it failed; and the
key a run in flight reads from is that of its document, while this exists. -/
theorem files_of_runs {start world : World} {trace : List Event} (hstart : Initial start)
    (hfiled : ∀ document ∈ start.db .documents, Filed document)
    (hrun : Runs settings crypto start trace world) : Files world := by
  have hinitial : Files start := by
    refine ⟨hfiled, apart_of_filed hstart.sound hfiled, fun run hrun => ?_⟩
    rcases hrun with hrun | ⟨message, hrun⟩
    · rw [hstart.ingesting] at hrun
      cases hrun
    · rw [hstart.failing] at hrun
      cases hrun
  exact (hrun.keeps (P := fun world => Coherent world ∧ Files world)
    (fun _ _ _ h hstep => ⟨h.1.step hstep, h.2.step h.1 hstep⟩) ⟨hstart.coherent, hinitial⟩).2

theorem files_of_runs_workday : ∃ trace world,
    performAll wordSettings sampleCrypto emptyWorld workday = some (trace, world) ∧
    dayCounts world.db = [2, 1, 2, 2, 2] ∧ Files world := by
  obtain ⟨trace, world, _, _, _, _, hsetup, _, _, hbefore, _⟩ := evaluate_workday
  exact ⟨trace, world, hsetup, hbefore, files_of_runs initial_emptyWorld
    (fun _ hdocument => absurd hdocument List.not_mem_nil) (runs_of_performAll hsetup)⟩

end Platform
