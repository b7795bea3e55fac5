import KnowledgePlatform.Foundations.Archives
import KnowledgePlatform.Platform.Isolation

/-!
# What the platform remembers

Organizations, conversations, messages, prompt templates, API keys and usage
events are archives: no operation deletes such a row.  The rows of these tables hardly
change either (`Ages`): a budget and the last use of a key do, a key is revoked once,
and a reference is set to NULL when the row it refers to goes.

Messages and usage events moreover come from the turns and the ingestion runs
only.  So the transcript and the ledger of a reachable database can be read off
the trace: they are what its steps said and what its steps are billed for, in
the order of their commits.
-/

open Api Core Foundations Python Relational Worker

namespace Platform

variable {settings : Settings} {crypto : Crypto}

/-! ## Archives -/

/-- The tables nothing is ever deleted from. -/
def isArchive : Table → Bool
  | .organizations | .conversations | .messages | .promptTemplates | .apiKeys | .usageEvents =>
      true
  | .users | .oauthAccounts | .refreshTokens | .documents | .documentChunks | .orgWebhooks => false

/-- The row of an archive without the columns that change: the budget of an
organization, the use and the revocation of an API key, and the references that
are set to NULL when a user, a conversation or a document goes. -/
def lasting : ∀ table, Row table → Row table
  | .organizations => fun row => { row with monthlyBudgetUsd := none }
  | .conversations => fun row => { row with userId := none }
  | .apiKeys => fun row =>
      { row with createdByUserId := none, lastUsedAt := none, revokedAt := none }
  | .usageEvents => fun row =>
      { row with userId := none, conversationId := none, documentId := none }
  | .users | .oauthAccounts | .refreshTokens | .documents | .documentChunks | .messages
  | .promptTemplates | .orgWebhooks => id

theorem anchored_isArchive : schema.Anchored fun table => isArchive table = true := by
  intro table htable fk hfk hcascade
  cases table <;> simp [isArchive] at htable <;>
    simp only [schema, rowForeignKeys, orgKey, List.mem_cons, List.not_mem_nil, or_false] at hfk <;>
    grind [isArchive]

/-- When an API key was revoked. -/
def revocation : ∀ table, Row table → Option Time
  | .apiKeys => fun key => key.revokedAt
  | .organizations | .users | .oauthAccounts | .refreshTokens | .documents | .documentChunks
  | .conversations | .messages | .promptTemplates | .usageEvents | .orgWebhooks => fun _ => none

/-- What may become of a row of an archive: the columns that last stay, a reference
stays or becomes NULL, and what is revoked stays so. -/
structure Ages (table : Table) (row later : Row table) : Prop where
  lasting : lasting table later = lasting table row
  references : ∀ fk ∈ schema.foreignKeys table, fk.ref later = fk.ref row ∨ fk.ref later = none
  revoked : revocation table row ≠ none → revocation table later = revocation table row

theorem ages_refl {table : Table} (row : Row table) : Ages table row row :=
  ⟨rfl, fun _ _ => .inl rfl, fun _ => rfl⟩

theorem Ages.trans {table : Table} {first second third : Row table}
    (h : Ages table first second) (hlater : Ages table second third) :
    Ages table first third := by
  refine ⟨hlater.lasting.trans h.lasting, fun fk hfk => ?_, fun hrevoked => ?_⟩
  · rcases hlater.references fk hfk with hsame | hnone
    · rw [hsame]
      exact h.references fk hfk
    · exact .inr hnone
  · have hsame := h.revoked hrevoked
    exact (hlater.revoked (hsame ▸ hrevoked)).trans hsame

theorem lasting_clear {table : Table} (htable : isArchive table = true) :
    ∀ fk ∈ schema.foreignKeys table, fk.onDelete = .setNull → ∀ row,
      lasting table (fk.clear row) = lasting table row ∧
        revocation table (fk.clear row) = revocation table row := by
  intro fk hfk hset row
  cases table <;> simp [isArchive] at htable <;>
    simp only [schema, rowForeignKeys, orgKey, List.mem_cons, List.not_mem_nil, or_false] at hfk <;>
    grind [lasting, revocation]

/-- A row ages when the row it refers to goes. -/
theorem ages_clear {table : Table} (htable : isArchive table = true) :
    ∀ fk ∈ schema.foreignKeys table, fk.onDelete = .setNull →
      ∀ row current, Ages table row current → Ages table row (fk.clear current) := by
  intro fk hfk hset row current h
  obtain ⟨hlasting, hrevocation⟩ := lasting_clear htable fk hfk hset current
  refine h.trans ⟨hlasting, fun other hother => ?_, fun _ => hrevocation⟩
  exact schema.ref_clear table fk hfk other hother current

/-- The statement inserts a row into the table, or lets its rows age. -/
def Records (table : Table) (write : Write schema) : Prop :=
  (∃ row, write = .insert table row) ∨ schema.Rewrites table (Ages table) write

/-- A statement that inserts no row appends nothing to what lasts. -/
theorem logs_of_ages {table : Table} {write : Write schema}
    (h : schema.Rewrites table (Ages table) write) : schema.Logs table (lasting table) write [] :=
  Schema.logs_of_rewrites h fun _ _ hages => hages.lasting

theorem records_insert {table other : Table} (row : Row other) :
    Records table (.insert other row) := by
  by_cases hother : table = other
  · subst hother
    exact .inl ⟨row, rfl⟩
  · exact .inr (Schema.rewrites_of_spares ages_refl (Schema.spares_insert hother))

theorem records_update {table other : Table} {selected : Row other → Bool}
    {clause : SetClause schema other} (hset : ∀ row, Ages other row (clause.set row)) :
    Records table (.update other selected clause) := by
  refine .inr ?_
  by_cases hother : table = other
  · subst hother
    exact Schema.rewrites_update ages_refl hset
  · exact Schema.rewrites_of_spares ages_refl (Schema.spares_update hother)

theorem records_update_of_ne {table other : Table} {selected : Row other → Bool}
    {clause : SetClause schema other} (hother : table ≠ other) :
    Records table (.update other selected clause) :=
  .inr (Schema.rewrites_of_spares ages_refl (Schema.spares_update hother))

theorem records_delete {table other : Table} (htable : isArchive table = true)
    (hother : isArchive other = false) {selected : Row other → Bool} :
    Records table (.delete other selected) := by
  refine .inr (Schema.rewrites_delete anchored_isArchive htable ages_refl (ages_clear htable) ?_)
  rw [hother]
  exact Bool.false_ne_true

/-- Using a key changes none of its references. -/
theorem ages_touchKey (now : Time) (key : ApiKey) :
    Ages .apiKeys key { key with lastUsedAt := some now } := by
  refine ⟨rfl, fun fk hfk => .inl ?_, fun _ => rfl⟩
  simp only [schema, rowForeignKeys, orgKey, List.mem_cons, List.not_mem_nil, or_false] at hfk
  rcases hfk with rfl | rfl <;> rfl

theorem records_of_authWrite {draws : List Uuid} {write : Write schema} (h : AuthWrite draws write)
    {table : Table} (htable : isArchive table = true) : Records table write := by
  cases h with
  | organization | user | link | token => exact records_insert _
  | revoke selected now => exact records_update_of_ne (by rintro rfl; cases htable)

/-- The step revokes an API key. -/
def Event.isRevocation : Event → Bool
  | .served _ _ _ (.revokeApiKey _) _ _ => true
  | _ => false

theorem records_of_requestWrite {principal : Principal} {now began : Time} {request : Request}
    {write : Write schema} (h : write ∈ request.writes settings crypto principal now began)
    {table : Table} (htable : isArchive table = true)
    (hkey : table = .apiKeys → ∀ keyId, request ≠ .revokeApiKey keyId) : Records table write := by
  cases request <;> simp only [Request.writes, List.mem_cons, List.not_mem_nil, or_false] at h
  case createUser | createApiKey | createWebhook | createDocument | createConversation =>
    subst h
    exact records_insert _
  case updateUser | updateDocument =>
    subst h
    exact records_update_of_ne (by rintro rfl; cases htable)
  case revokeApiKey =>
    subst h
    exact records_update_of_ne fun heq => hkey heq _ rfl
  case deleteUser | deleteWebhook | deleteDocument =>
    subst h
    exact records_delete htable rfl
  case uploadDocument =>
    rcases h with rfl | rfl
    · exact records_insert _
    · exact records_update_of_ne (by rintro rfl; cases htable)
  case updateMyOrganization =>
    split at h
    · cases h
    · cases List.mem_singleton.mp h
      refine records_update fun row => ⟨rfl, fun fk hfk => ?_, fun _ => rfl⟩
      cases hfk

/-- What the steps write to archives are insertions and changes that come with age; a
revocation is looked at apart. -/
theorem records_of_stepWrite {event : Event} {write : Write schema}
    (h : StepWrite settings crypto event write) {table : Table}
    (htable : isArchive table = true) (hkey : table = .apiKeys → event.isRevocation = false) :
    Records table write := by
  cases h with
  | auth hauth => exact records_of_authWrite hauth htable
  | touched keyId => exact records_update fun row => ages_touchKey _ row
  | served principal began hrequest =>
      refine records_of_requestWrite hrequest htable fun heq keyId hrevoke => ?_
      subst hrevoke
      cases hkey heq
  | message | usage | chunk => exact records_insert _
  | cleared documentId => exact records_delete htable rfl
  | status status error _ => exact records_update_of_ne (by rintro rfl; cases htable)

/-- A step lets the rows of an archive age, and appends. -/
theorem grows_of_step {world world' : World} {event : Event}
    (hstep : Step settings crypto world event world') {table : Table}
    (htable : isArchive table = true) (hkey : table = .apiKeys → event.isRevocation = false) :
    Grows (Ages table) (world.db table) (world'.db table) := by
  obtain ⟨conn, writes, heffect, hexecutes⟩ := step_executes hstep
  refine Schema.grows_of_executes ages_refl (fun _ _ _ => Ages.trans) hexecutes ?_
  intro write hwrite
  exact records_of_stepWrite (stepWrite_of_effect heffect write hwrite) htable hkey

/-- A step keeps what lasts of the rows of an archive, and appends. -/
theorem prefix_of_step {world world' : World} {event : Event}
    (hstep : Step settings crypto world event world') {table : Table}
    (htable : isArchive table = true) (hkey : table ≠ .apiKeys) :
    (world.db table).map (lasting table) <+: (world'.db table).map (lasting table) :=
  (grows_of_step hstep htable fun heq => absurd heq hkey).views_extend
    fun _ _ hages => hages.lasting

/-- A search engine that ranks chunks in the order in which they are stored. -/
def flatEngine : SearchEngine := ⟨flatProvider, fun _ chunks => chunks, fun _ chunks => chunks⟩

def workdayTurn : ChatTurn := ⟨1, 2, 9, [], "Why?".toList⟩

/-- An administrator signs up and invites a member, whose upload is ingested and then
quoted in the answer to a question. -/
def workday : List (Time × Action) :=
  [(0, .auth (.signup ⟨"A".toList, "a@x".toList, [], none⟩ [] ⟨1, 2, []⟩ ⟨"first".toList, 3⟩)),
    (1, .serve 1 2 false (.createUser ⟨"c@x".toList, [], none, .member⟩ 7 [])),
    (2, .serve 1 7 false (.uploadDocument sampleUpload 8 (.ok ()))),
    (3, .beginIngestion 1 8),
    (4, .store sampleRun "two words".toList flatProvider
      ⟨fun index => BitVec.ofNat 128 (100 + index), 30⟩),
    (5, .serve 1 2 false (.createConversation none 9)),
    (6, .serve 1 2 false (.chat 9 "Why?".toList)),
    (7, .ask workdayTurn 40),
    (8, .answer workdayTurn flatEngine
      (fun _ _ => .ok (["Rain ".toList, "[1].".toList], ⟨⟨5, 2⟩, "stub".toList, "stub".toList⟩))
      ⟨41, 31⟩)]

/-- The member deletes the upload. -/
def deletingUpload : Action := .serve 1 7 false (.deleteDocument 8)

/-- The administrator deletes the member. -/
def deletingUploader : Action := .serve 1 2 false (.deleteUser 7)

/-- How many rows of the kind a working day leaves there are in the database. -/
def dayCounts (db : Database) : List ℕ :=
  [(db .users).length, (db .documents).length, (db .documentChunks).length,
    (db .messages).length, (db .usageEvents).length]

theorem evaluate_workday : ∃ trace world event erased event' last,
    performAll wordSettings sampleCrypto emptyWorld workday = some (trace, world) ∧
    perform wordSettings sampleCrypto 9 world deletingUpload = some (event, erased) ∧
    perform wordSettings sampleCrypto 10 erased deletingUploader = some (event', last) ∧
    dayCounts world.db = [2, 1, 2, 2, 2] ∧ dayCounts last.db = [1, 0, 0, 2, 2] ∧
    (world.db .documents).any (fun document => document.orgId == 1) = true ∧
    (last.db .messages).any (fun message => message.citations.isSome) = true := by
  have hevaluate : ((performAll wordSettings sampleCrypto emptyWorld workday).bind fun setup =>
      (perform wordSettings sampleCrypto 9 setup.2 deletingUpload).bind fun first =>
        (perform wordSettings sampleCrypto 10 first.2 deletingUploader).map fun second =>
          (dayCounts setup.2.db, dayCounts second.2.db,
            (setup.2.db .documents).any fun document => document.orgId == 1,
            (second.2.db .messages).any fun message => message.citations.isSome)) =
      some ([2, 1, 2, 2, 2], [1, 0, 0, 2, 2], true, true) := by decide +kernel
  obtain ⟨⟨trace, world⟩, hsetup, hrest⟩ := Option.bind_eq_some_iff.mp hevaluate
  obtain ⟨⟨event, erased⟩, hupload, hrest⟩ := Option.bind_eq_some_iff.mp hrest
  obtain ⟨⟨event', last⟩, huploader, hfacts⟩ := Option.map_eq_some_iff.mp hrest
  obtain ⟨hbefore, hafter, howned, hcited⟩ : _ ∧ _ ∧ _ ∧ _ := by
    simpa only [Prod.mk.injEq] using hfacts
  exact ⟨trace, world, event, erased, event', last, hsetup, hupload, huploader, hbefore, hafter,
    howned, hcited⟩

/-- What the transcript of a conversation shows of a message. -/
def transcribe (message : Message) :
    Uuid × Uuid × MessageRole × Str × Option (List Citation) :=
  (message.orgId, message.conversationId, message.role, message.content, message.citations)

/-- What the ledger shows of a usage event: who is charged, for what, and the tokens
of an embedding batch, which the platform counts itself. -/
def charge (event : UsageEvent) : Uuid × UsageKind × Option ℤ :=
  (event.orgId, event.kind, if event.kind = .embedding then some event.inputTokens else none)

/-- What a step adds to the transcripts. -/
def Event.spoken : Event → List (Uuid × Uuid × MessageRole × Str × Option (List Citation))
  | .asked turn => [(turn.orgId, turn.conversationId, .user, turn.question, none)]
  | .answered turn out => [(turn.orgId, turn.conversationId, .assistant, out.tokens.flatten,
      storedCitations out.citations)]
  | .auth .. | .authenticated .. | .served .. | .ingesting _ | .notIngested .. | .stored ..
  | .raised .. | .failed .. | .dispatched .. => []

/-- What a step is billed for. -/
def Event.bills : Event → List (Uuid × UsageKind × Option ℤ)
  | .answered turn _ => [(turn.orgId, .generation, none)]
  | .stored run _ chunks _ =>
      if chunks = [] then []
      else [(run.orgId, .embedding, some ((chunks.map estimateTokens).sum : ℕ))]
  | .auth .. | .authenticated .. | .served .. | .asked _ | .ingesting _ | .notIngested ..
  | .raised .. | .failed .. | .dispatched .. => []

/-- The tables no request inserts into: only turns and ingestion runs write messages
and usage events, and nothing writes prompt templates. -/
def isJournal : Table → Bool
  | .messages | .usageEvents | .promptTemplates => true
  | .organizations | .users | .oauthAccounts | .apiKeys | .refreshTokens | .documents
  | .documentChunks | .conversations | .orgWebhooks => false

theorem isArchive_of_isJournal {table : Table} (htable : isJournal table = true) :
    isArchive table = true := by
  cases table <;> simp [isJournal, isArchive] at htable ⊢

theorem logs_of_authWrite {draws : List Uuid} {write : Write schema} (h : AuthWrite draws write)
    {table : Table} (htable : isJournal table = true) :
    schema.Logs table (lasting table) write [] := by
  rcases records_of_authWrite h (isArchive_of_isJournal htable) with ⟨row, rfl⟩ | hages
  · cases h <;> cases htable
  · exact logs_of_ages hages

theorem logs_of_requestWrite {principal : Principal} {now began : Time} {request : Request}
    {write : Write schema} (h : write ∈ request.writes settings crypto principal now began)
    {table : Table} (htable : isJournal table = true) :
    schema.Logs table (lasting table) write [] := by
  have hkey : table = .apiKeys → ∀ keyId, request ≠ .revokeApiKey keyId := by
    rintro rfl
    cases htable
  rcases records_of_requestWrite h (isArchive_of_isJournal htable) hkey with ⟨row, rfl⟩ | hages
  · cases request <;>
      simp only [Request.writes, List.mem_cons, List.not_mem_nil, or_false] at h
    case updateMyOrganization =>
      split at h
      · cases h
      · cases List.mem_singleton.mp h
    case uploadDocument => rcases h with h | h <;> cases h; cases htable
    all_goals cases h
    all_goals cases htable
  · exact logs_of_ages hages

/-- Clearing and inserting chunks adds to no journal, nor does setting a status. -/
theorem logs_of_runWrites (table : Table) (htable : isJournal table = true) (documentId : Uuid)
    (rows : List DocumentChunk) (status : DocumentStatus) (error : Option Str) :
    schema.LogsAll table (lasting table) (clearChunks documentId :: insertChunks rows) [] ∧
      schema.Logs table (lasting table) (statusWrite documentId status error) [] := by
  have hchunks : table ≠ .documentChunks := by rintro rfl; cases htable
  have hdocuments : table ≠ .documents := by rintro rfl; cases htable
  exact ⟨Schema.logsAll_of_forall fun write hwrite =>
      Schema.logs_of_spares (spares_filling hchunks write hwrite),
    Schema.logs_of_spares (Schema.spares_update hdocuments)⟩

/-- The steps that write to journals: both halves of a turn, and storing chunks. -/
def Event.isRecorded : Event → Bool
  | .asked _ | .answered .. | .stored .. => true
  | .auth .. | .authenticated .. | .served .. | .ingesting _ | .notIngested .. | .raised ..
  | .failed .. | .dispatched .. => false

theorem spoken_bills_of_quiet {event : Event} (h : event.isRecorded = false) :
    event.spoken = [] ∧ event.bills = [] := by
  cases event <;> simp_all [Event.isRecorded, Event.spoken, Event.bills]

/-- The other steps add to no journal. -/
theorem logsAll_of_quiet {db : Database} {event : Event} {conn : Conn}
    {writes : List (Write schema)}
    (h : Effect settings crypto db event conn writes) (hquiet : event.isRecorded = false)
    (table : Table) (htable : isJournal table = true) :
    schema.LogsAll table (lasting table) writes [] := by
  refine Schema.logsAll_of_forall fun write hwrite => ?_
  cases h with
  | auth hwrites => exact logs_of_authWrite (hwrites write hwrite) htable
  | authenticated =>
      cases List.mem_singleton.mp hwrite
      exact Schema.logs_of_spares (Schema.spares_update (by rintro rfl; cases htable))
  | served _ _ hwrites =>
      rcases hwrites with rfl | rfl
      · cases hwrite
      · exact logs_of_requestWrite hwrite htable
  | ingesting =>
      cases List.mem_singleton.mp hwrite
      exact (logs_of_runWrites _ htable _ [] _ _).2
  | notIngested | raised | dispatched => cases hwrite
  | failed hwrites =>
      rcases hwrites with ⟨rfl, _⟩ | rfl
      · cases hwrite
      · cases List.mem_singleton.mp hwrite
        exact (logs_of_runWrites _ htable _ [] _ _).2
  | asked | answered | stored => cases hquiet

/-- A storing transaction adds to a journal what it does between the chunks and the
status. -/
theorem logsAll_of_storing {Reading : Type} (table : Table) (htable : isJournal table = true)
    (reading : Row table → Reading) {documentId : Uuid} {rows : List DocumentChunk}
    {recorded ready : List (Write schema)} {entries : List Reading} {gone : Prop}
    (hrecorded : schema.LogsAll table (fun row => reading (lasting table row)) recorded entries)
    (hready : (ready = [] ∧ gone) ∨ ready = [statusWrite documentId .ready none]) :
    schema.LogsAll table (fun row => reading (lasting table row))
      (clearChunks documentId :: insertChunks rows ++ (recorded ++ ready)) entries := by
  obtain ⟨hfilled, hstatus⟩ := logs_of_runWrites table htable documentId rows .ready none
  have hmarked : schema.LogsAll table (lasting table) ready [] := by
    rcases hready with ⟨rfl, _⟩ | rfl
    · exact Schema.logsAll_nil
    · exact Schema.logsAll_single hstatus
  have hall := Schema.logsAll_append (Schema.logsAll_map hfilled reading)
    (Schema.logsAll_append hrecorded (Schema.logsAll_map hmarked reading))
  rw [List.map_nil, List.append_nil, List.nil_append] at hall
  exact hall

/-- What the statements of a step add to the transcripts. -/
theorem logsAll_messages {db : Database} {event : Event} {conn : Conn}
    {writes : List (Write schema)}
    (h : Effect settings crypto db event conn writes) :
    schema.LogsAll .messages transcribe writes event.spoken := by
  cases hrecorded : event.isRecorded with
  | false =>
      rw [(spoken_bills_of_quiet hrecorded).1]
      exact Schema.logsAll_map (logsAll_of_quiet h hrecorded .messages rfl) transcribe
  | true =>
      cases h with
      | asked => exact Schema.logsAll_single (Schema.logs_insert _)
      | answered =>
          exact Schema.logsAll_cons (Schema.logs_insert _)
            (Schema.logsAll_single (Schema.logs_of_spares (Schema.spares_insert (by decide))))
      | stored _ _ hbatch hready =>
          refine logsAll_of_storing .messages rfl transcribe ?_ hready
          rcases hbatch with ⟨_, rfl⟩ | ⟨_, costUsd, rfl⟩
          · exact Schema.logsAll_nil
          · exact Schema.logsAll_single (Schema.logs_of_spares (Schema.spares_insert (by decide)))
      | auth | authenticated | served | ingesting | notIngested | raised | failed | dispatched =>
          cases hrecorded

/-- What the statements of a step add to the ledger. -/
theorem logsAll_usageEvents {db : Database} {event : Event} {conn : Conn}
    {writes : List (Write schema)} (h : Effect settings crypto db event conn writes) :
    schema.LogsAll .usageEvents charge writes event.bills := by
  cases hrecorded : event.isRecorded with
  | false =>
      rw [(spoken_bills_of_quiet hrecorded).2]
      exact Schema.logsAll_map (logsAll_of_quiet h hrecorded .usageEvents rfl) charge
  | true =>
      cases h with
      | asked =>
          exact Schema.logsAll_single (Schema.logs_of_spares (Schema.spares_insert (by decide)))
      | answered =>
          exact Schema.logsAll_cons (Schema.logs_of_spares (Schema.spares_insert (by decide)))
            (Schema.logsAll_single (Schema.logs_insert _))
      | stored _ _ hbatch hready =>
          refine logsAll_of_storing .usageEvents rfl charge ?_ hready
          rcases hbatch with ⟨hempty, rfl⟩ | ⟨hchunks, costUsd, rfl⟩
          · rw [Event.bills, if_pos hempty]
            exact Schema.logsAll_nil
          · rw [Event.bills, if_neg hchunks]
            exact Schema.logsAll_single (Schema.logs_insert _)
      | auth | authenticated | served | ingesting | notIngested | raised | failed | dispatched =>
          cases hrecorded

/-- What the transcripts and the ledger show is what there was, and what the steps
said and are billed for. -/
theorem readings_of_runs {start world : World} {trace : List Event}
    (hrun : Runs settings crypto start trace world) :
    (world.db .messages).map transcribe =
        (start.db .messages).map transcribe ++ trace.flatMap Event.spoken ∧
      (world.db .usageEvents).map charge =
        (start.db .usageEvents).map charge ++ trace.flatMap Event.bills := by
  refine hrun.invariant (P := fun trace world =>
    (world.db .messages).map transcribe =
        (start.db .messages).map transcribe ++ trace.flatMap Event.spoken ∧
      (world.db .usageEvents).map charge =
        (start.db .usageEvents).map charge ++ trace.flatMap Event.bills) ?_ ?_
  · simp
  · rintro trace middle event last _ ⟨hmessages, hcharges⟩ hstep
    obtain ⟨conn, writes, heffect, hexecutes⟩ := step_executes hstep
    rw [logsAll_messages heffect _ _ _ hexecutes, logsAll_usageEvents heffect _ _ _ hexecutes,
      hmessages, hcharges]
    simp [List.flatMap_append]

/-- The rows of a journal stay and age. -/
theorem grows_of_runs {start world : World} {trace : List Event}
    (hrun : Runs settings crypto start trace world) {table : Table}
    (htable : isJournal table = true) :
    Grows (Ages table) (start.db table) (world.db table) := by
  refine hrun.preserves (R := fun first second => Grows (Ages table) (first.db table)
    (second.db table)) (fun _ => grows_refl ages_refl _) ?_ ?_
  · intro first second third hfirst hsecond
    exact hfirst.trans (fun _ _ _ => Ages.trans) hsecond
  · intro middle event last hstep
    refine grows_of_step hstep (isArchive_of_isJournal htable) ?_
    rintro rfl
    cases htable

/-- In every reachable state the messages are those there were at the start and then,
in the order of the commits, what the turns of the run asked and answered; and the
usage events are those there were, which have only lost references, and then one for
every answer and one for every batch of chunks that was stored. -/
theorem journals_eq_trace {start world : World} {trace : List Event}
    (hrun : Runs settings crypto start trace world) :
    (∃ added, world.db .messages = start.db .messages ++ added ∧
      added.map transcribe = trace.flatMap Event.spoken) ∧
    ∃ change added,
      world.db .usageEvents = (start.db .usageEvents).map change ++ added ∧
      (∀ event, Ages .usageEvents event (change event)) ∧
      added.map charge = trace.flatMap Event.bills := by
  obtain ⟨hmessages, hcharges⟩ := readings_of_runs hrun
  constructor
  · obtain ⟨change, added, hworld, hages⟩ := @grows_of_runs _ _ _ _ _ hrun .messages rfl
    have hkept : (start.db .messages).map change = start.db .messages := by
      refine (List.map_congr_left fun message _ => ?_).trans (List.map_id _)
      exact (hages message).lasting
    rw [hkept] at hworld
    rw [hworld, List.map_append] at hmessages
    exact ⟨added, hworld, List.append_cancel_left hmessages⟩
  · obtain ⟨change, added, hworld, hages⟩ := @grows_of_runs _ _ _ _ _ hrun .usageEvents rfl
    have hcharged : ((start.db .usageEvents).map change).map charge =
        (start.db .usageEvents).map charge := by
      rw [List.map_map]
      refine List.map_congr_left fun event _ => ?_
      have hlasting : lasting .usageEvents (change event) = lasting .usageEvents event :=
        (hages event).lasting
      show charge (lasting .usageEvents (change event)) = charge (lasting .usageEvents event)
      rw [hlasting]
    rw [hworld, List.map_append, hcharged] at hcharges
    exact ⟨change, added, hworld, hages, List.append_cancel_left hcharges⟩

theorem journals_eq_trace_workday : ∃ trace world,
    performAll wordSettings sampleCrypto emptyWorld workday = some (trace, world) ∧
    (world.db .messages).length = 2 ∧
    (world.db .messages).map transcribe = trace.flatMap Event.spoken ∧
    (world.db .usageEvents).map charge = trace.flatMap Event.bills := by
  obtain ⟨trace, world, _, _, _, _, hsetup, _, _, hbefore, _⟩ := evaluate_workday
  simp only [dayCounts, List.cons.injEq, and_true] at hbefore
  obtain ⟨_, _, _, hlength, _⟩ := hbefore
  obtain ⟨⟨messages, hmessages, hspoken⟩, _, events, hevents, _, hbills⟩ :=
    journals_eq_trace (runs_of_performAll hsetup)
  refine ⟨trace, world, hsetup, hlength, ?_, ?_⟩
  · rw [hmessages]
    exact hspoken
  · rw [hevents]
    exact hbills

end Platform
