import KnowledgePlatform.Api.Chat
import KnowledgePlatform.Core.Ingestion
import KnowledgePlatform.Foundations.Noninterference
import KnowledgePlatform.Worker.Webhooks

/-!
# What an organization can tell apart

The transactions that are bound to an organization, run on two databases that
look alike to it: they give the same result, and the databases look alike
afterwards.  The statements come first, the functions of the routers, of the
retrieval and of the ingestion are put together from them.

The databases need not be sound for this, except where rows are deleted.  The scan of
the vector index has to be exact: the index is shared, and what an approximate scan
misses may depend on the chunks of the others.
-/

open Core Foundations Python Relational Worker

namespace Api

/-- Two transactions of `app_user`, begun at one time, on databases that look alike to
the organization. -/
structure Begun (orgId : Uuid) (conn conn' : Conn) : Prop where
  role : conn.role = .appUser
  role' : conn'.role = .appUser
  now : conn'.now = conn.now
  rows : schema.SameRows orgId conn.db conn'.db
  sound : schema.Sound conn.db
  sound' : schema.Sound conn'.db

/-- Both transactions are bound to the organization. -/
structure Bound (orgId : Uuid) (conn conn' : Conn) : Prop where
  role : conn.role = .appUser
  role' : conn'.role = .appUser
  org : conn.currentOrg = some orgId
  org' : conn'.currentOrg = some orgId
  now : conn'.now = conn.now
  rows : schema.SameRows orgId conn.db conn'.db

/-- Both are bound, and nothing was written yet. -/
def Fresh (orgId : Uuid) (conn conn' : Conn) : Prop :=
  Bound orgId conn conn' ∧ schema.Sound conn.db ∧ schema.Sound conn'.db

theorem rooted_schema : schema.Rooted := by
  intro table fk hfk parent
  have hparent : fk.parent = .organizations ∨ fk.parent = .users ∨ fk.parent = .documents ∨
      fk.parent = .conversations := by
    cases table <;>
      simp only [schema, rowForeignKeys, orgKey, List.mem_cons, List.not_mem_nil, or_false] at hfk <;>
      grind
  cases fk
  rcases hparent with rfl | rfl | rfl | rfl <;> exact Option.some_ne_none _

section Statements

variable {orgId : Uuid} {related : Conn → Conn → Prop} {table : Table} {conn conn' : Conn}

theorem Bound.policy (h : Bound orgId conn conn') : conn'.policy = conn.policy := by
  unfold Conn.policy
  rw [h.role, h.role', h.org, h.org']

theorem Bound.shows (h : Bound orgId conn conn') : conn.policy.Shows schema orgId := by
  intro table row
  unfold Conn.policy
  rw [h.role, h.org]
  exact beq_eq_decide (rowOrg table row) (some orgId)

theorem agrees_setOrgContext : (setOrgContext orgId).Agrees (Begun orgId) (Fresh orgId) := by
  intro before before' after after' value value' h hrun hrun'
  obtain rfl := runs_setOrgContext.mp hrun
  obtain rfl := runs_setOrgContext.mp hrun'
  exact ⟨rfl, ⟨h.role, h.role', rfl, rfl, h.now, h.rows⟩, h.sound, h.sound'⟩

theorem agrees_ofStatement {α : Type} {outcome : Except StatementError α} :
    (ofStatement outcome).Agrees related related := by
  cases outcome with
  | ok value => exact Program.agrees_pure
  | error error => exact Program.agrees_throw

theorem agrees_ofLibrary {α : Type} {outcome : Except Str α} :
    (ofLibrary outcome).Agrees related related := by
  cases outcome with
  | ok value => exact Program.agrees_pure
  | error message => exact Program.agrees_throw

/-! ### Statements that read -/

section Reads

variable (hrelated : ∀ conn conn', related conn conn' → Bound orgId conn conn')
include hrelated

theorem agrees_scalars {selected : Row table → Bool} :
    @Program.Agrees Conn Fault (List (Row table)) related related (scalars table selected) := by
  intro before before' after after' rows rows' h hrun hrun'
  obtain ⟨hrows, rfl⟩ := runs_scalars.mp hrun
  obtain ⟨hrows', rfl⟩ := runs_scalars.mp hrun'
  have hbound := hrelated _ _ h
  rw [hbound.policy, ← hbound.shows.selectRows hbound.rows, hrows] at hrows'
  exact ⟨Except.ok.inj hrows', h⟩

/-- An exact scan of an index. -/
theorem agrees_scanned {scan : List (Row table) → List (Row table)}
    (hexact : ∀ visible rows, (scan rows).filter visible = scan (rows.filter visible)) :
    @Program.Agrees Conn Fault (List (Row table)) related related (scanned table scan) := by
  intro before before' after after' rows rows' h hrun hrun'
  obtain ⟨hrows, rfl⟩ := runs_scanned.mp hrun
  obtain ⟨hrows', rfl⟩ := runs_scanned.mp hrun'
  have hbound := hrelated _ _ h
  rw [hbound.policy, ← hbound.shows.scanRows hbound.rows hexact, hrows] at hrows'
  exact ⟨Except.ok.inj hrows', h⟩

theorem agrees_scalar {selected : Row table → Bool} :
    (scalar table selected).Agrees related related :=
  (agrees_scalars hrelated).bind fun _ => Program.agrees_pure

theorem agrees_getById {id : Uuid} : (getById table id).Agrees related related :=
  agrees_scalar hrelated

theorem agrees_getOr404 {id : Uuid} {detail : Str} :
    @Program.Agrees Conn Fault (Row table) related related (getOr404 table id detail) :=
  (agrees_getById hrelated).bind fun _ => Program.agrees_orRaise

theorem agrees_transactionTime : transactionTime.Agrees related related := by
  intro before before' after after' time time' h hrun hrun'
  obtain ⟨rfl, rfl⟩ := runs_transactionTime.mp hrun
  obtain ⟨rfl, rfl⟩ := runs_transactionTime.mp hrun'
  exact ⟨(hrelated _ _ h).now.symm, h⟩

end Reads

/-! ### Statements that write -/

/-- The same statement on both sides. -/
theorem Bound.wrote {write : Write schema} (h : Bound orgId conn conn')
    (hdelete : ∀ table selected, write = .delete table selected →
      schema.Rooted ∧ schema.Sound conn.db ∧ schema.Sound conn'.db) {after after' : Conn}
    (hwrote : conn.Wrote [write] after) (hwrote' : conn'.Wrote [write] after') :
    Bound orgId after after' := by
  obtain ⟨_, hexecute, rfl⟩ := hwrote.executes
  obtain ⟨_, hexecute', rfl⟩ := hwrote'.executes
  rw [h.policy] at hexecute'
  exact ⟨hwrote.role.trans h.role, hwrote'.role.trans h.role', hwrote.currentOrg.trans h.org,
    hwrote'.currentOrg.trans h.org', (hwrote'.now.trans h.now).trans hwrote.now.symm,
    Policy.sameRows_execute h.rows hdelete hexecute hexecute'⟩

theorem agrees_add {row : Row table} : (add table row).Agrees (Bound orgId) (Bound orgId) := by
  intro before before' after after' value value' h hrun hrun'
  exact ⟨rfl, h.wrote (by simp) (runs_add.mp hrun) (runs_add.mp hrun')⟩

theorem agrees_save {id : Uuid} {clause : SetClause schema table} :
    (save table id clause).Agrees (Bound orgId) (Bound orgId) := by
  intro before before' after after' value value' h hrun hrun'
  exact ⟨rfl, h.wrote (by simp) (runs_save.mp hrun) (runs_save.mp hrun')⟩

theorem agrees_delete {selected : Row table → Bool} :
    (execute (.delete table selected)).Agrees (Fresh orgId) (Bound orgId) := by
  intro before before' after after' value value' h hrun hrun'
  obtain ⟨hbound, sound, sound'⟩ := h
  exact ⟨rfl, hbound.wrote (fun _ _ _ => ⟨rooted_schema, sound, sound'⟩) (runs_execute.mp hrun)
    (runs_execute.mp hrun')⟩

end Statements

/-! ## Retrieval, usage and prompts -/

section Core

variable {orgId : Uuid} {settings : Settings}

/-- Transactions bound to the organization, for statements that read. -/
theorem bound_of_bound (conn conn' : Conn) (h : Bound orgId conn conn') : Bound orgId conn conn' := h

theorem bound_of_fresh (conn conn' : Conn) (h : Fresh orgId conn conn') : Bound orgId conn conn' :=
  h.1

theorem agrees_vectorArm {engine : SearchEngine} {query : Str} (hexact : engine.ExactScan) :
    (vectorArm settings engine query).Agrees (Bound orgId) (Bound orgId) :=
  agrees_ofLibrary.bind fun _ => Program.agrees_orRaise.bind fun vector =>
    (@agrees_scanned _ _ .documentChunks bound_of_bound _ (hexact vector)).bind fun _ =>
      Program.agrees_pure

theorem agrees_lexicalRankedIds {engine : SearchEngine} {query : Str} {k : ℕ} :
    (lexicalRankedIds engine query k).Agrees (Bound orgId) (Bound orgId) :=
  (agrees_scalars bound_of_bound).bind fun _ => Program.agrees_pure

theorem agrees_armIf {asked : Prop} [Decidable asked] {arm : Tx (List Uuid)}
    (harm : arm.Agrees (Bound orgId) (Bound orgId)) :
    (armIf asked arm).Agrees (Bound orgId) (Bound orgId) := by
  unfold armIf
  split
  · exact harm.map
  · exact Program.agrees_pure

theorem agrees_hybridSearch {engine : SearchEngine} {query : Str} {mode : SearchMode}
    {limit : Option ℕ} (hexact : engine.ExactScan) :
    (hybridSearch settings engine query mode limit).Agrees (Bound orgId) (Bound orgId) := by
  refine (agrees_armIf (agrees_vectorArm hexact)).bind fun vectorRankings =>
    (agrees_armIf agrees_lexicalRankedIds).bind fun lexicalRankings => ?_
  dsimp only
  split
  · exact Program.agrees_pure
  · exact ((agrees_scalars bound_of_bound).bind fun _ => (agrees_scalars bound_of_bound).bind fun _ =>
      Program.agrees_pure).bind fun _ => Program.agrees_pure

theorem agrees_resolvePromptTemplate {name : Str} :
    (resolvePromptTemplate name).Agrees (Bound orgId) (Bound orgId) := by
  refine (agrees_scalar bound_of_bound).bind fun template => ?_
  cases template with
  | none => exact Program.agrees_pure
  | some template => exact Program.agrees_pure

theorem agrees_monthToDateCostUsd {other : Uuid} {now : Time} :
    (monthToDateCostUsd other now).Agrees (Bound orgId) (Bound orgId) :=
  (agrees_scalars bound_of_bound).bind fun _ => Program.agrees_pure

theorem agrees_recordUsage {other id : Uuid} {usage : UsageRecord} {costUsd : ℚ} {now : Time} :
    (recordUsage other usage costUsd id now).Agrees (Bound orgId) (Bound orgId) :=
  agrees_monthToDateCostUsd.bind fun _ => agrees_ofStatement.bind fun _ =>
    (agrees_transactionTime bound_of_bound).bind fun _ => agrees_add.bind fun _ =>
      (agrees_getById bound_of_bound).bind fun _ => Program.agrees_pure

end Core

/-! ## Ingestion and webhooks -/

section Ingestion

variable {orgId documentId : Uuid}

theorem agrees_setStatus {status : DocumentStatus} {error : Option Str} :
    (setStatus orgId documentId status error).Agrees (Begun orgId) (Bound orgId) := by
  refine (agrees_setOrgContext.mono (fun _ _ h => h) bound_of_fresh).bind fun _ =>
    (agrees_getById bound_of_bound).bind fun document => ?_
  cases document with
  | none => exact Program.agrees_pure
  | some document => exact agrees_save

theorem agrees_beginIngestion :
    (beginIngestion orgId documentId).Agrees (Begun orgId) (Bound orgId) := by
  refine (agrees_setOrgContext.mono (fun _ _ h => h) bound_of_fresh).bind fun _ =>
    (agrees_getById bound_of_bound).bind fun document => ?_
  cases document with
  | none => exact Program.agrees_pure
  | some document =>
      exact Program.agrees_orRaise.bind fun _ => agrees_save.bind fun _ => Program.agrees_pure

theorem agrees_addChunks {other : Uuid} {chunkIds : ℕ → Uuid} {contents : List Str}
    {embeddings : List Embedding} : ∀ index,
    (addChunks other documentId chunkIds index contents embeddings).Agrees (Bound orgId)
      (Bound orgId) := by
  induction contents generalizing embeddings with
  | nil =>
      intro index
      cases embeddings with
      | nil => exact Program.agrees_pure
      | cons embedding embeddings => exact Program.agrees_throw
  | cons content contents ih =>
      intro index
      cases embeddings with
      | nil => exact Program.agrees_throw
      | cons embedding embeddings =>
          exact (agrees_transactionTime bound_of_bound).bind fun _ => agrees_add.bind fun _ =>
            ih (index + 1)

theorem agrees_recordBatch {other eventId : Uuid} {provider : EmbeddingProvider}
    {chunks : List Str} {now : Time} :
    (recordBatch other documentId provider chunks eventId now).Agrees (Bound orgId)
      (Bound orgId) := by
  unfold recordBatch
  split
  · exact Program.agrees_pure
  · exact agrees_recordUsage.bind fun _ => Program.agrees_pure

theorem agrees_storeChunks {provider : EmbeddingProvider} {chunks : List Str}
    {vectors : List Embedding} {draw : StoreDraw} {now : Time} :
    (storeChunks orgId documentId provider chunks vectors draw now).Agrees (Begun orgId)
      (Bound orgId) := by
  refine agrees_setOrgContext.bind fun _ => agrees_delete.bind fun _ =>
    (agrees_addChunks 0).bind fun _ => agrees_recordBatch.bind fun _ =>
      (agrees_getById bound_of_bound).bind fun document => ?_
  cases document with
  | none => exact Program.agrees_pure
  | some document => exact agrees_save

theorem agrees_subscribedWebhooks {eventType : Str} :
    (subscribedWebhooks orgId eventType).Agrees (Begun orgId) (Bound orgId) :=
  (agrees_setOrgContext.mono (fun _ _ h => h) bound_of_fresh).bind fun _ =>
    (agrees_scalars bound_of_bound).bind fun _ => Program.agrees_pure

end Ingestion

/-! ## Chat turns -/

section Chat

variable {settings : Settings} {turn : ChatTurn}

theorem agrees_persistUserTurn {messageId : Uuid} :
    (persistUserTurn turn messageId).Agrees (Begun turn.orgId) (Bound turn.orgId) :=
  (agrees_setOrgContext.mono (fun _ _ h => h) bound_of_fresh).bind fun _ =>
    (agrees_transactionTime bound_of_bound).bind fun _ => agrees_add

theorem agrees_recordAnswer {orgId : Uuid} {answer : Str} {citations : List Citation}
    {generation : Generation} {draw : AnswerDraw} {now : Time} :
    (recordAnswer turn answer citations generation draw now).Agrees (Bound orgId) (Bound orgId) :=
  (agrees_transactionTime bound_of_bound).bind fun _ => agrees_add.bind fun _ =>
    agrees_recordUsage.bind fun _ => Program.agrees_pure

theorem agrees_answerTurn {engine : SearchEngine}
    {astream : Str → List (MessageRole × Str) → Except Str (List Str × Generation)}
    {draw : AnswerDraw} {now : Time} (hexact : engine.ExactScan) :
    (answerTurn settings engine astream turn draw now).Agrees (Begun turn.orgId)
      (Bound turn.orgId) :=
  (agrees_setOrgContext.mono (fun _ _ h => h) bound_of_fresh).bind fun _ =>
    ((agrees_hybridSearch hexact).bind fun _ => agrees_resolvePromptTemplate.bind fun _ =>
      Program.agrees_pure).bind fun _ => agrees_ofLibrary.bind fun _ => agrees_ofLibrary.bind fun _ =>
        agrees_recordAnswer.bind fun _ => Program.agrees_pure

end Chat

/-! ## Requests -/

section Requests

variable {settings : Settings} {crypto : Crypto} {now : Time} {orgId : Uuid}
  {principal : Principal}

theorem agrees_conversationMessages {conversationId : Uuid} :
    (conversationMessages conversationId).Agrees (Bound orgId) (Bound orgId) :=
  (agrees_scalars bound_of_bound).bind fun _ => Program.agrees_pure

/-- The handlers that delete. -/
theorem agrees_deleteUser {userId : Uuid} :
    (deleteUser principal userId).Agrees (Fresh orgId) (Bound orgId) :=
  (agrees_getOr404 bound_of_fresh).bind fun _ => Program.agrees_raiseIf.bind fun _ => agrees_delete

theorem agrees_deleteWebhook {webhookId : Uuid} :
    (deleteWebhook webhookId).Agrees (Fresh orgId) (Bound orgId) :=
  (agrees_getOr404 bound_of_fresh).bind fun _ => agrees_delete

theorem agrees_deleteDocument {documentId : Uuid} :
    (deleteDocument documentId).Agrees (Fresh orgId) (Bound orgId) :=
  (agrees_getOr404 bound_of_fresh).bind fun _ => agrees_delete

theorem agrees_updateUser {userId : Uuid} {body : UserUpdate} :
    (updateUser principal userId body).Agrees (Bound orgId) (Bound orgId) :=
  (agrees_getOr404 bound_of_bound).bind fun _ => Program.agrees_raiseIf.bind fun _ =>
    Program.agrees_raiseIf.bind fun _ => agrees_save.bind fun _ => Program.agrees_pure

theorem agrees_revokeApiKey {keyId : Uuid} :
    (revokeApiKey keyId now).Agrees (Bound orgId) (Bound orgId) := by
  refine (agrees_getOr404 bound_of_bound).bind fun key => ?_
  split
  · exact agrees_save
  · exact Program.agrees_pure

theorem agrees_updateMyOrganization {budget : Option ℚ} :
    (updateMyOrganization principal budget).Agrees (Bound orgId) (Bound orgId) :=
  (agrees_getById bound_of_bound).bind fun _ => Program.agrees_orRaise.bind fun _ =>
    agrees_ofStatement.bind fun _ => agrees_save.bind fun _ => Program.agrees_pure

theorem agrees_uploadDocument {file : UploadFile} {id : Uuid} {stored : Except Str Unit} :
    (uploadDocument settings principal file id stored).Agrees (Bound orgId) (Bound orgId) :=
  (Program.agrees_raiseIf.bind fun _ => Program.agrees_raiseIf.bind fun _ =>
    Program.agrees_raiseIf).bind fun _ => (agrees_transactionTime bound_of_bound).bind fun _ =>
      agrees_add.bind fun _ => agrees_ofLibrary.bind fun _ => agrees_save.bind fun _ =>
        Program.agrees_pure

theorem agrees_getUsageSummary :
    (getUsageSummary principal now).Agrees (Bound orgId) (Bound orgId) :=
  (agrees_getById bound_of_bound).bind fun _ => agrees_monthToDateCostUsd.bind fun _ =>
    (agrees_scalars bound_of_bound).bind fun _ => Program.agrees_pure

/-- A search of the request scans the vector index exactly. -/
def ScansExactly : Request → Prop
  | .search engine _ _ _ => engine.ExactScan
  | _ => True

/-- The handler of every request. -/
theorem agrees_handle (request : Request) (hexact : ScansExactly request) :
    (handle settings crypto now principal request).Agrees (Fresh orgId) (Bound orgId) := by
  cases request
  case deleteUser => exact agrees_deleteUser.map
  case deleteWebhook => exact agrees_deleteWebhook.map
  case deleteDocument => exact agrees_deleteDocument.map
  all_goals refine Program.Agrees.mono ?_ bound_of_fresh fun _ _ h => h
  case me => exact Program.agrees_pure
  case listUsers | listApiKeys | listWebhooks | listDocuments | listConversations | usageEvents =>
    exact ((agrees_scalars bound_of_bound).bind fun _ => Program.agrees_pure).map
  case getUser | getDocument => exact (agrees_getOr404 bound_of_bound).map
  case createUser =>
    exact ((agrees_transactionTime bound_of_bound).bind fun _ =>
      agrees_add.mapFault.bind fun _ => Program.agrees_pure).map
  case createApiKey | createWebhook | createDocument | createConversation =>
    exact ((agrees_transactionTime bound_of_bound).bind fun _ =>
      agrees_add.bind fun _ => Program.agrees_pure).map
  case updateUser => exact agrees_updateUser.map
  case revokeApiKey => exact agrees_revokeApiKey.map
  case getMyOrganization =>
    exact ((agrees_getById bound_of_bound).bind fun _ => Program.agrees_orRaise.bind fun _ =>
      Program.agrees_pure).map
  case updateMyOrganization => exact agrees_updateMyOrganization.map
  case uploadDocument => exact agrees_uploadDocument.map
  case listDocumentChunks =>
    exact ((agrees_getOr404 bound_of_bound).bind fun _ => (agrees_scalars bound_of_bound).bind fun _ =>
      Program.agrees_pure).map
  case updateDocument =>
    exact ((agrees_getOr404 bound_of_bound).bind fun _ => agrees_save.bind fun _ =>
      Program.agrees_pure).map
  case listMessages =>
    exact ((agrees_getOr404 bound_of_bound).bind fun _ => agrees_conversationMessages).map
  case chat =>
    exact ((agrees_getOr404 bound_of_bound).bind fun _ => agrees_conversationMessages.bind fun _ =>
      Program.agrees_pure).map
  case search => exact (agrees_hybridSearch hexact).map
  case usageSummary => exact agrees_getUsageSummary.map

/-- The transaction of a request of the organization. -/
theorem agrees_serve {userId : Uuid} {viaApiKey : Bool} {request : Request}
    (hexact : ScansExactly request) :
    (serve settings crypto now orgId userId viaApiKey request).Agrees (Begun orgId)
      (Bound orgId) := by
  have hprincipal : (getPrincipal orgId userId viaApiKey).Agrees (Begun orgId) (Fresh orgId) :=
    agrees_setOrgContext.bind fun _ => (agrees_getById bound_of_fresh).bind fun _ =>
      Program.agrees_orRaise.bind fun _ => Program.agrees_raiseIf.bind fun _ => Program.agrees_pure
  refine Program.Agrees.bind (hprincipal.bind fun principal => Program.Agrees.bind ?_ fun _ =>
    Program.agrees_pure) fun principal => agrees_handle request hexact
  unfold guardRoles
  split
  · exact Program.agrees_pure
  · exact Program.agrees_raiseIf

end Requests

end Api
