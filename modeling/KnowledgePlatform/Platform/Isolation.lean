import KnowledgePlatform.Platform.World

/-!
# Tenant isolation

Row-level security confines what a session reads and writes, but not the
referential actions of its deletions.  That these stay within the organization
rests on an invariant: no foreign key links rows of two organizations.  It is
part of `Schema.Sound`, and every step keeps it (`Coherent.step`).

The steps that bind the organization themselves, long after the request, insert
references to rows they do not look up again.  The invariant therefore also says
that what the turns and runs in flight refer to belongs to their organization.
A reference may dangle by then; since ids are not drawn twice, no row of another
organization can have taken the place of the deleted one.
-/

open Api Core Foundations Python Relational Worker

namespace Platform

variable {settings : Settings} {crypto : Crypto}

/-! ## The parts of the claim -/

/-- The organization the step's session is bound to. -/
def Event.boundTo : Event → Option Uuid
  | .auth .. | .authenticated .. => none
  | .served orgId .. | .notIngested orgId _ | .dispatched orgId .. => some orgId
  | .asked turn | .answered turn _ => some turn.orgId
  | .ingesting run | .stored run .. | .raised run _ | .failed run _ => some run.orgId

/-- The citation shows a chunk and a document of the organization. -/
def CitationWithin (orgId : Uuid) (db : Database) (citation : Citation) : Prop :=
  ∃ hit, HitWithin orgId db hit ∧
    citation = citationOf citation.marker hit defaultSnippetChars

/-- What the step returns are rows of the organization. -/
def Event.Within (orgId : Uuid) (db : Database) : Event → Prop
  | .served _ _ _ _ _ response => response.Within orgId db
  | .answered _ out =>
      (∀ hit ∈ out.hits, HitWithin orgId db hit) ∧
        ∀ citation ∈ out.citations, CitationWithin orgId db citation
  | .dispatched _ _ webhooks => ∀ webhook ∈ webhooks, webhook.orgId = orgId
  | .auth .. | .authenticated .. | .asked _ | .ingesting _ | .notIngested .. | .stored ..
  | .raised .. | .failed .. => True

/-- No foreign key links rows of two organizations. -/
def NoCrossLinks (db : Database) : Prop :=
  ∀ table, ∀ row ∈ db table, ∀ fk ∈ rowForeignKeys table, ∀ parent ∈ db fk.parent,
    fk.ref row = some (rowId fk.parent parent) →
      ∀ orgId parentOrg, rowOrg table row = some orgId →
        rowOrg fk.parent parent = some parentOrg → orgId = parentOrg

theorem noCrossLinks_of_sound {db : Database} (sound : schema.Sound db) : NoCrossLinks db := by
  intro table row hrow fk hfk parent hparent href orgId parentOrg horg hparentOrg
  have hsame := sound.coherent table row hrow fk hfk parent hparent href parentOrg
  rw [@Schema.ownedBy_of_tenant _ _ _ _ schema _ _ _ _ _ horg,
    @Schema.ownedBy_of_tenant _ _ _ _ schema _ _ _ _ _ hparentOrg] at hsame
  simpa using hsame

/-! ## The invariant -/

/-- The id was drawn, and no row of another organization has it. -/
def Held (world : World) (orgId : Uuid) (table : Table) (id : Uuid) : Prop :=
  schema.KeyWithin world.db orgId table id ∧ id ∈ world.issued

/-- The run is between its transactions. -/
def InFlight (world : World) (run : IngestionRun) : Prop :=
  run ∈ world.ingesting ∨ ∃ message, (run, message) ∈ world.failing

structure Coherent (world : World) : Prop where
  sound : schema.Sound world.db
  recorded : ∀ table, isHeld table = true → ∀ row ∈ world.db table, rowId table row ∈ world.issued
  turns : ∀ turn, turn ∈ world.asked ∨ turn ∈ world.answering →
    Held world turn.orgId .users turn.userId ∧
      Held world turn.orgId .conversations turn.conversationId
  runs : ∀ run, InFlight world run → Held world run.orgId .documents run.documentId

theorem Initial.coherent {world : World} (h : Initial world) : Coherent world where
  sound := h.sound
  recorded := h.recorded
  turns := by
    rintro turn (hturn | hturn)
    · rw [h.asked] at hturn
      cases hturn
    · rw [h.answering] at hturn
      cases hturn
  runs := by
    rintro run (hrun | ⟨message, hrun⟩)
    · rw [h.ingesting] at hrun
      cases hrun
    · rw [h.failing] at hrun
      cases hrun

/-- The id of a stored row is held by the organization of the row. -/
theorem Coherent.held {world : World} (h : Coherent world) {table : Table}
    (htable : isHeld table = true) {row : Row table} (hrow : row ∈ world.db table) {orgId : Uuid}
    (horg : rowOrg table row = some orgId) : Held world orgId table (rowId table row) :=
  ⟨h.sound.keyWithin hrow horg, h.recorded table htable row hrow⟩

/-! ## What steps insert -/

/-- The ids a step draws for rows that later transactions refer to. -/
def Event.draws : Event → List Uuid
  | .auth request _ _ => request.draws
  | .served _ _ _ request _ _ => drawnIds request
  | _ => []

/-- An insertion into a table that later transactions refer to uses an id drawn
by the step. -/
def Draws (draws : List Uuid) : Write schema → Prop :=
  Write.Inserts fun table id => isHeld table = true → id ∈ draws

theorem draws_of_authWrite {draws : List Uuid} {write : Write schema}
    (h : AuthWrite draws write) : Draws draws write := by
  cases h with
  | organization row hfounds => exact fun _ => List.mem_of_head? hfounds
  | user row hid => exact fun _ => hid
  | link row => exact fun h => absurd h (by decide)
  | token row => exact fun h => absurd h (by decide)
  | revoke selected now => trivial

theorem draws_of_requestWrite {principal : Principal} {now began : Time} {request : Request} :
    ∀ write ∈ request.writes settings crypto principal now began,
      Draws (drawnIds request) write := by
  intro write hwrite
  cases request <;>
    simp only [Request.writes, List.mem_cons, List.not_mem_nil, or_false] at hwrite
  case createUser => subst hwrite; exact fun _ => List.mem_singleton_self _
  case createDocument => subst hwrite; exact fun _ => List.mem_singleton_self _
  case createConversation => subst hwrite; exact fun _ => List.mem_singleton_self _
  case createApiKey => subst hwrite; exact fun h => absurd h (by decide)
  case createWebhook => subst hwrite; exact fun h => absurd h (by decide)
  case uploadDocument =>
    rcases hwrite with rfl | rfl
    · exact fun _ => List.mem_singleton_self _
    · trivial
  case updateMyOrganization =>
    split at hwrite
    · cases hwrite
    · cases List.mem_singleton.mp hwrite
      trivial
  all_goals subst hwrite; trivial

theorem draws_of_effect {db : Database} {event : Event} {conn : Conn} {writes : List (Write schema)}
    (h : Effect settings crypto db event conn writes) :
    ∀ write ∈ writes, Draws event.draws write := by
  intro write hwrite
  cases stepWrite_of_effect h write hwrite with
  | auth hauth => exact draws_of_authWrite hauth
  | served _ _ hrequest => exact draws_of_requestWrite write hrequest
  | touched | cleared | status => trivial
  | message | usage | chunk => exact fun htable => absurd htable (by decide)

/-! ## What steps refer to -/

/-- The insertion refers only to rows of the organization, and to rows that are
not there. -/
abbrev Refers (orgId : Uuid) (db : Database) : Write schema → Prop :=
  Write.References (schema.KeyWithin db orgId)

/-- An organization is its own tenant. -/
theorem keyWithin_organization (orgId : Uuid) (db : Database) :
    schema.KeyWithin db orgId .organizations orgId := fun _ _ hid => congrArg some hid

theorem refers_of_requestWrite {db : Database} {principal : Principal} {now began : Time}
    {request : Request} (huser : schema.KeyWithin db principal.orgId .users principal.user.id) :
    ∀ write ∈ request.writes settings crypto principal now began,
      Refers principal.orgId db write := by
  have horg := keyWithin_organization principal.orgId db
  have honly : ∀ {Record : Type} {orgId : Record → Uuid} {row : Record},
      orgId row = principal.orgId → ∀ fk ∈ [orgKey orgId], ∀ key, fk.ref row = some key →
        schema.KeyWithin db principal.orgId fk.parent key := by
    rintro Record orgId row hrow fk hfk key href
    cases List.mem_singleton.mp hfk
    cases href
    exact hrow ▸ horg
  intro write hwrite
  cases request <;>
    simp only [Request.writes, List.mem_cons, List.not_mem_nil, or_false] at hwrite
  case createUser => subst hwrite; exact honly rfl
  case createDocument => subst hwrite; exact honly rfl
  case createWebhook => subst hwrite; exact honly rfl
  case createConversation =>
    subst hwrite
    intro fk hfk key href
    rcases List.mem_cons.mp hfk with rfl | hfk
    · cases href
      exact horg
    · cases List.mem_singleton.mp hfk
      cases href
      exact huser
  case createApiKey =>
    subst hwrite
    intro fk hfk key href
    rcases List.mem_cons.mp hfk with rfl | hfk
    · cases href
      exact horg
    · cases List.mem_singleton.mp hfk
      cases href
      exact huser
  case uploadDocument =>
    rcases hwrite with rfl | rfl
    · exact honly rfl
    · trivial
  case updateMyOrganization =>
    split at hwrite
    · cases hwrite
    · cases List.mem_singleton.mp hwrite
      trivial
  all_goals subst hwrite; trivial

/-- What a turn inserts refers to its conversation and its user. -/
theorem refers_message {db : Database} {turn : ChatTurn} {role : MessageRole} {content : Str}
    {citations : Option (List Citation)} {id : Uuid} {createdAt : Time}
    (hconversation : schema.KeyWithin db turn.orgId .conversations turn.conversationId) :
    Refers turn.orgId db
      (.insert .messages (messageRow turn role content citations id createdAt)) := by
  intro fk hfk key href
  rcases List.mem_cons.mp hfk with rfl | hfk
  · cases href
    exact keyWithin_organization turn.orgId db
  · cases List.mem_singleton.mp hfk
    cases href
    exact hconversation

theorem refers_usageEvent {db : Database} {orgId : Uuid} {usage : UsageRecord}
    {costUsd : Numeric 12 6} {id : Uuid} {createdAt : Time}
    (huser : ∀ userId, usage.userId = some userId → schema.KeyWithin db orgId .users userId)
    (hconversation : ∀ conversationId, usage.conversationId = some conversationId →
      schema.KeyWithin db orgId .conversations conversationId)
    (hdocument : ∀ documentId, usage.documentId = some documentId →
      schema.KeyWithin db orgId .documents documentId) :
    Refers orgId db (.insert .usageEvents (usage.event orgId costUsd id createdAt)) := by
  intro fk hfk key href
  change fk ∈ rowForeignKeys .usageEvents at hfk
  simp only [rowForeignKeys, List.mem_cons, List.not_mem_nil, or_false] at hfk
  rcases hfk with rfl | rfl | rfl | rfl
  · cases href
    exact keyWithin_organization orgId db
  · exact huser key href
  · exact hconversation key href
  · exact hdocument key href

theorem refers_chunk {db : Database} {run : IngestionRun} {row : DocumentChunk}
    (hrow : row.orgId = run.orgId ∧ row.documentId = run.documentId)
    (hdocument : schema.KeyWithin db run.orgId .documents run.documentId) :
    Refers run.orgId db (.insert .documentChunks row) := by
  intro fk hfk key href
  rcases List.mem_cons.mp hfk with rfl | hfk
  · cases href
    rw [hrow.1]
    exact keyWithin_organization run.orgId db
  · cases List.mem_singleton.mp hfk
    cases href
    rw [hrow.2]
    exact hdocument

/-! ## Steps in flight -/

/-- A step of a turn or a run that is in flight. -/
theorem inFlight_of_step {world world' : World} {event : Event}
    (h : Step settings crypto world event world') :
    (∀ turn, event = .asked turn → turn ∈ world.asked) ∧
    (∀ turn out, event = .answered turn out → turn ∈ world.answering) ∧
    (∀ run text chunks vectors, event = .stored run text chunks vectors →
      run ∈ world.ingesting) ∧
    ∀ run message, event = .failed run message → (run, message) ∈ world.failing := by
  cases h with
  | asked hturn => exact ⟨by rintro _ ⟨⟩; exact hturn, by simp, by simp, by simp⟩
  | answered hturn => exact ⟨by simp, by rintro _ _ ⟨⟩; exact hturn, by simp, by simp⟩
  | stored hrun => exact ⟨by simp, by simp, by rintro _ _ _ _ ⟨⟩; exact hrun, by simp⟩
  | failed hrun => exact ⟨by simp, by simp, by simp, by rintro _ _ ⟨⟩; exact hrun⟩
  | auth | authenticated | served | ingesting | notIngested | raised | dispatched =>
      exact ⟨by simp, by simp, by simp, by simp⟩

/-- What is in flight after a step was so before, or is started by it. -/
theorem started_of_step {world world' : World} {event : Event}
    (h : Step settings crypto world event world') :
    world'.issued = event.draws ++ world.issued ∧
    (∀ id ∈ event.draws, id ∉ world.issued) ∧
    (∀ turn, turn ∈ world'.asked ∨ turn ∈ world'.answering →
      (turn ∈ world.asked ∨ turn ∈ world.answering) ∨
        ∃ orgId userId viaApiKey request now,
          event = .served orgId userId viaApiKey request now (.streaming turn)) ∧
    ∀ run, InFlight world' run → InFlight world run ∨ event = .ingesting run := by
  cases h with
  | auth hfresh => exact ⟨rfl, hfresh, fun _ h => .inl h, fun _ h => .inl h⟩
  | authenticated => exact ⟨rfl, by simp [Event.draws], fun _ h => .inl h, fun _ h => .inl h⟩
  | @served orgId userId viaApiKey request now _ response _ hfresh =>
      refine ⟨rfl, hfresh, ?_, fun _ h => .inl h⟩
      rintro turn (hturn | hturn)
      · rcases List.mem_append.mp hturn with hstarted | hbefore
        · cases response <;> simp only [startedTurns, List.mem_singleton, List.not_mem_nil] at hstarted
          subst hstarted
          exact .inr ⟨orgId, userId, viaApiKey, request, now, rfl⟩
        · exact .inl (.inl hbefore)
      · exact .inl (.inr hturn)
  | asked hturn =>
      refine ⟨rfl, by simp [Event.draws], ?_, fun _ h => .inl h⟩
      rintro turn (hasked | hanswering)
      · exact .inl (.inl (List.mem_of_mem_erase hasked))
      · rcases List.mem_cons.mp hanswering with rfl | hbefore
        · exact .inl (.inl hturn)
        · exact .inl (.inr hbefore)
  | answered =>
      exact ⟨rfl, by simp [Event.draws],
        fun _ h => .inl (h.imp_right List.mem_of_mem_erase), fun _ h => .inl h⟩
  | ingesting =>
      refine ⟨rfl, by simp [Event.draws], fun _ h => .inl h, ?_⟩
      rintro run (hrun | hfailing)
      · rcases List.mem_cons.mp hrun with rfl | hbefore
        · exact .inr rfl
        · exact .inl (.inl hbefore)
      · exact .inl (.inr hfailing)
  | notIngested => exact ⟨rfl, by simp [Event.draws], fun _ h => .inl h, fun _ h => .inl h⟩
  | stored =>
      exact ⟨rfl, by simp [Event.draws], fun _ h => .inl h,
        fun _ h => .inl (h.imp_left List.mem_of_mem_erase)⟩
  | raised hrun =>
      refine ⟨rfl, by simp [Event.draws], fun _ h => .inl h, ?_⟩
      rintro run (hbefore | ⟨message, hfailing⟩)
      · exact .inl (.inl (List.mem_of_mem_erase hbefore))
      · rcases List.mem_cons.mp hfailing with heq | hbefore
        · cases heq
          exact .inl (.inl hrun)
        · exact .inl (.inr ⟨message, hbefore⟩)
  | failed =>
      exact ⟨rfl, by simp [Event.draws], fun _ h => .inl h,
        fun _ h => .inl (h.imp_right fun ⟨message, hfailing⟩ =>
          ⟨message, List.mem_of_mem_erase hfailing⟩)⟩
  | dispatched => exact ⟨rfl, by simp [Event.draws], fun _ h => .inl h, fun _ h => .inl h⟩

/-! ## Steps keep the database sound -/

/-- What a bound session inserts refers to its organization only. -/
theorem refers_of_effect {world world' : World} {event : Event} {conn : Conn}
    {writes : List (Write schema)} {orgId : Uuid} (hcoherent : Coherent world)
    (hstep : Step settings crypto world event world')
    (heffect : Effect settings crypto world.db event conn writes)
    (hbound : event.boundTo = some orgId) : ∀ write ∈ writes, Refers orgId world.db write := by
  obtain ⟨hasked, hanswering, hingesting, _⟩ := inFlight_of_step hstep
  intro write hwrite
  cases heffect with
  | auth | authenticated => cases hbound
  | @served _ _ _ _ _ _ _ principal _ hadmitted _ hwrites =>
      cases hbound
      obtain rfl := hadmitted.bound
      have huser : schema.KeyWithin world.db principal.orgId .users principal.user.id :=
        hcoherent.sound.keyWithin hadmitted.stored (congrArg some hadmitted.member)
      rcases hwrites with rfl | rfl
      · cases hwrite
      · exact refers_of_requestWrite huser write hwrite
  | asked =>
      cases hbound
      cases List.mem_singleton.mp hwrite
      exact refers_message (hcoherent.turns _ (.inl (hasked _ rfl))).2.1
  | answered =>
      cases hbound
      -- user and conversation were read by the request, two transactions ago
      obtain ⟨huser, hconversation⟩ := hcoherent.turns _ (.inr (hanswering _ _ rfl))
      simp only [answerWrites, List.mem_cons, List.not_mem_nil, or_false] at hwrite
      rcases hwrite with rfl | rfl
      · exact refers_message hconversation.1
      · refine refers_usageEvent ?_ ?_ ?_
        · rintro _ ⟨⟩
          exact huser.1
        · rintro _ ⟨⟩
          exact hconversation.1
        · rintro _ ⟨⟩
  | ingesting => cases List.mem_singleton.mp hwrite; trivial
  | notIngested | raised => cases hwrite
  | stored _ _ hbatch hready =>
      cases hbound
      -- the run found the document in an earlier transaction
      have hdocument := (hcoherent.runs _ (.inl (hingesting _ _ _ _ rfl))).1
      rcases List.mem_append.mp hwrite with hchunk | hlater
      · rcases List.mem_cons.mp hchunk with rfl | hinsert
        · trivial
        · obtain ⟨row, hrow, rfl⟩ := List.mem_map.mp hinsert
          exact refers_chunk (mem_chunkRows hrow) hdocument
      · rcases List.mem_append.mp hlater with hbatched | hstatus
        · rcases hbatch with ⟨_, rfl⟩ | ⟨_, costUsd, rfl⟩
          · cases hbatched
          · cases List.mem_singleton.mp hbatched
            refine refers_usageEvent ?_ ?_ ?_
            · rintro _ ⟨⟩
            · rintro _ ⟨⟩
            · rintro _ ⟨⟩
              exact hdocument
        · rcases hready with ⟨rfl, _⟩ | rfl
          · cases hstatus
          · cases List.mem_singleton.mp hstatus
            trivial
  | failed hwrites =>
      rcases hwrites with ⟨rfl, _⟩ | rfl
      · cases hwrite
      · cases List.mem_singleton.mp hwrite
        trivial
  | dispatched => cases hwrite

/-- The session of a bound step is confined to the organization. -/
theorem conn_of_effect {db : Database} {event : Event} {conn : Conn} {writes : List (Write schema)}
    {orgId : Uuid} (h : Effect settings crypto db event conn writes)
    (hbound : event.boundTo = some orgId) : conn.policy = Core.policy .appUser (some orgId) := by
  cases h with
  | auth | authenticated => cases hbound
  | served | asked | answered | ingesting | notIngested | stored | raised | failed | dispatched =>
      cases hbound
      rfl

/-- A step bound to an organization serves it. -/
theorem served_of_step {world world' : World} {event : Event} {orgId : Uuid}
    (hcoherent : Coherent world) (hstep : Step settings crypto world event world')
    (hbound : event.boundTo = some orgId) : schema.Served orgId world.db world'.db := by
  obtain ⟨conn, writes, heffect, hexecutes⟩ := step_executes hstep
  rw [conn_of_effect heffect hbound] at hexecutes
  exact (confines_policy orgId).executes hcoherent.sound hexecutes
    (refers_of_effect hcoherent hstep heffect hbound)

/-- The statements of the authentication router keep the database sound: what
they insert refers to the new organization, or has no tenant of its own. -/
theorem sound_authWrite {draws : List Uuid} {write : Write schema} {policy : Policy Row}
    {db db' : Database} (hwrite : AuthWrite draws write) (sound : schema.Sound db)
    (h : policy.execute schema db write = .ok db') : schema.Sound db' := by
  have husers : ∀ parent ∈ db .users, schema.tenant .users parent ≠ none := fun _ _ h => by cases h
  cases hwrite with
  | organization row =>
      obtain ⟨rfl, _, _, _, hfresh, hresolved⟩ := Policy.insertRow_eq_ok h
      refine Schema.sound_insert sound (Schema.insertable_of_within rfl hfresh
        hresolved ?_)
      rintro fk ⟨⟩
  | user row =>
      obtain ⟨rfl, _, _, _, hfresh, hresolved⟩ := Policy.insertRow_eq_ok h
      refine Schema.sound_insert sound (Schema.insertable_of_within rfl hfresh
        hresolved ?_)
      intro fk hfk key href
      cases List.mem_singleton.mp hfk
      cases href
      exact keyWithin_organization row.orgId db
  | link row =>
      obtain ⟨rfl, _, _, _, hfresh, hresolved⟩ := Policy.insertRow_eq_ok h
      exact Schema.sound_insert sound
        (Schema.insertable_of_tenantless sound rfl rfl husers hfresh hresolved)
  | token row =>
      obtain ⟨rfl, _, _, _, hfresh, hresolved⟩ := Policy.insertRow_eq_ok h
      exact Schema.sound_insert sound
        (Schema.insertable_of_tenantless sound rfl rfl husers hfresh hresolved)
  | revoke selected now =>
      obtain ⟨_, rfl⟩ := Policy.updateRows_eq_ok h
      exact Schema.sound_update sound _ _

theorem sound_of_authWrites {draws : List Uuid} {writes : List (Write schema)}
    {policy : Policy Row} {db db' : Database} (hwrites : ∀ write ∈ writes, AuthWrite draws write)
    (sound : schema.Sound db) (h : policy.Executes schema db writes db') : schema.Sound db' :=
  h.preserves (P := schema.Sound) (fun write hwrite _ _ hexecute hsound =>
    sound_authWrite (hwrites write hwrite) hsound hexecute) sound

theorem sound_of_step {world world' : World} {event : Event} (hcoherent : Coherent world)
    (hstep : Step settings crypto world event world') : schema.Sound world'.db := by
  cases hbound : event.boundTo with
  | some orgId => exact (served_of_step hcoherent hstep hbound).sound
  | none =>
      obtain ⟨conn, writes, heffect, hexecutes⟩ := step_executes hstep
      cases heffect with
      | auth hwrites => exact sound_of_authWrites hwrites hcoherent.sound hexecutes
      | authenticated =>
          obtain ⟨_, hupdate, rfl⟩ := hexecutes
          obtain ⟨_, heq⟩ := Policy.updateRows_eq_ok hupdate
          rw [heq]
          exact Schema.sound_update hcoherent.sound _ _
      | served | asked | answered | ingesting | notIngested | stored | raised | failed | dispatched =>
          cases hbound

/-! ## Steps keep the invariant -/

/-- What is held by an organization stays held: its id is drawn already. -/
theorem Held.of_step {world world' : World} {event : Event} {orgId id : Uuid} {table : Table}
    (hstep : Step settings crypto world event world') (htable : isHeld table = true)
    (hheld : Held world orgId table id) : Held world' orgId table id := by
  obtain ⟨hissued, hfresh, _⟩ := started_of_step hstep
  obtain ⟨conn, writes, heffect, hexecutes⟩ := step_executes hstep
  refine ⟨?_, ?_⟩
  · refine Schema.keyWithin_executes hexecutes (fun write hwrite => ?_) hheld.1
    have hdraws := draws_of_effect heffect write hwrite
    cases write with
    | insert other row =>
        intro hsame
        obtain ⟨rfl, rfl⟩ := Prod.mk.inj hsame
        exact hfresh _ (hdraws htable) hheld.2
    | update => trivial
    | delete => trivial
  · rw [hissued]
    exact List.mem_append_right _ hheld.2

/-- Every step keeps the invariant. -/
theorem Coherent.step {world world' : World} {event : Event} (hcoherent : Coherent world)
    (hstep : Step settings crypto world event world') : Coherent world' := by
  obtain ⟨hissued, _, hturns, hruns⟩ := started_of_step hstep
  obtain ⟨conn, writes, heffect, hexecutes⟩ := step_executes hstep
  refine ⟨sound_of_step hcoherent hstep, ?_, ?_, ?_⟩
  · intro table htable row' hrow'
    rw [hissued]
    rcases Schema.keys_executes hexecutes (draws_of_effect heffect) table row' hrow' with
      ⟨row, hrow, hkey, _⟩ | hdrawn
    · refine List.mem_append_right _ ?_
      have hmem := hcoherent.recorded table htable row hrow
      have hsame : rowId table row = rowId table row' := hkey
      exact hsame ▸ hmem
    · exact List.mem_append_left _ (hdrawn htable)
  · intro turn hturn
    rcases hturns turn hturn with hbefore | ⟨orgId, userId, viaApiKey, request, now, rfl⟩
    · obtain ⟨huser, hconversation⟩ := hcoherent.turns turn hbefore
      exact ⟨huser.of_step hstep rfl, hconversation.of_step hstep rfl⟩
    · -- the request that started the turn read its user and its conversation
      cases heffect with
      | served _ hwithin =>
          obtain ⟨rfl, ⟨user, huser, huserId, huserOrg⟩,
            ⟨conversation, hconversation, hid, horg⟩, _⟩ := hwithin
          have hheldUser := hcoherent.held rfl huser (congrArg some huserOrg)
          have hheldConversation := hcoherent.held rfl hconversation (congrArg some horg)
          exact ⟨huserId ▸ hheldUser.of_step hstep rfl,
            hid ▸ hheldConversation.of_step hstep rfl⟩
  · intro run hrun
    rcases hruns run hrun with hbefore | rfl
    · exact (hcoherent.runs run hbefore).of_step hstep rfl
    · cases heffect with
      | ingesting hfound =>
          obtain ⟨document, hdocument, hid, horg⟩ := hfound
          have hheld := hcoherent.held rfl hdocument (congrArg some horg)
          exact hid ▸ hheld.of_step hstep rfl

theorem coherent_of_runs {start world : World} {trace : List Event} (hstart : Initial start)
    (hrun : Runs settings crypto start trace world) : Coherent world :=
  hrun.keeps (fun _ _ _ hcoherent hstep => hcoherent.step hstep) hstart.coherent

/-- A bound step answers with rows of its organization. -/
theorem within_of_step {world world' : World} {event : Event} {orgId : Uuid}
    (hstep : Step settings crypto world event world') (hbound : event.boundTo = some orgId) :
    event.Within orgId world.db := by
  obtain ⟨conn, writes, heffect, _⟩ := step_executes hstep
  cases heffect with
  | auth | authenticated => cases hbound
  | served _ hwithin =>
      cases hbound
      exact hwithin
  | answered hhits hcite =>
      cases hbound
      refine ⟨hhits, fun citation hcitation => ?_⟩
      obtain ⟨hit, hhit, heq⟩ := mem_extractCitations hcite hcitation
      exact ⟨hit, hhits hit hhit, heq⟩
  | dispatched hwebhooks =>
      cases hbound
      exact hwebhooks
  | asked | ingesting | notIngested | stored | raised | failed => trivial

/-! ## Isolation -/

/-- In every reachable state no foreign key links rows of two organizations, and
this stays so.  A step bound to an organization answers with rows of that
organization only and leaves the rows of all others exactly as they were. -/
theorem tenantIsolation {start world world' : World} {trace : List Event} {event : Event}
    (hstart : Initial start) (hrun : Runs settings crypto start trace world)
    (hstep : Step settings crypto world event world') :
    NoCrossLinks world.db ∧ NoCrossLinks world'.db ∧
      ∀ orgId, event.boundTo = some orgId →
        event.Within orgId world.db ∧ schema.Isolated orgId world.db world'.db := by
  have hcoherent := coherent_of_runs hstart hrun
  refine ⟨noCrossLinks_of_sound hcoherent.sound,
    noCrossLinks_of_sound (hcoherent.step hstep).sound, fun orgId hbound => ?_⟩
  exact ⟨within_of_step hstep hbound, (served_of_step hcoherent hstep hbound).isolated⟩

/-- Two organizations: the first has a second user, the second a document. -/
def twoTenants : List (Time × Action) :=
  [(0, .auth (.signup ⟨"A".toList, "a@x".toList, [], none⟩ [] ⟨1, 2, []⟩ ⟨"first".toList, 3⟩)),
    (0, .auth (.signup ⟨"B".toList, "b@x".toList, [], none⟩ [] ⟨4, 5, []⟩ ⟨"second".toList, 6⟩)),
    (0, .serve 1 2 false (.createUser ⟨"c@x".toList, [], none, .member⟩ 7 [])),
    (0, .serve 4 5 false (.createDocument ⟨"D".toList, none, none⟩ 8))]

/-- The administrator of the first organization deletes its second user. -/
def deletingUser : Action := .serve 1 2 false (.deleteUser 7)

theorem tenantIsolation_deletingUser : ∃ trace world event world',
    performAll {} sampleCrypto emptyWorld twoTenants = some (trace, world) ∧
    perform {} sampleCrypto 0 world deletingUser = some (event, world') ∧
    ((world.db .users).length, (world'.db .users).length) = (3, 2) ∧
    NoCrossLinks world.db ∧ NoCrossLinks world'.db ∧
    event.Within 1 world.db ∧ schema.Isolated 1 world.db world'.db := by
  have hevaluate : ((performAll {} sampleCrypto emptyWorld twoTenants).bind fun setup =>
      (perform {} sampleCrypto 0 setup.2 deletingUser).map fun deleted =>
        (deleted.1.boundTo, (setup.2.db .users).length, (deleted.2.db .users).length)) =
      some (some 1, 3, 2) := by decide +kernel
  obtain ⟨⟨trace, world⟩, hsetup, hrest⟩ := Option.bind_eq_some_iff.mp hevaluate
  obtain ⟨⟨event, world'⟩, hdelete, hfacts⟩ := Option.map_eq_some_iff.mp hrest
  obtain ⟨hbound, hcounts⟩ := Prod.mk.inj hfacts
  obtain ⟨hbefore, hafter, hisolated⟩ := tenantIsolation initial_emptyWorld
    (runs_of_performAll hsetup) (step_of_perform hdelete)
  obtain ⟨hwithin, hothers⟩ := hisolated 1 hbound
  exact ⟨trace, world, event, world', hsetup, hdelete, hcounts, hbefore, hafter, hwithin, hothers⟩

end Platform
