import KnowledgePlatform.Platform.Isolation

/-!
# API keys over whole runs

A stored key stays in the table for good and keeps everything that identifies
it; only its last use, its revocation and the reference to its creator change
(`SameKey`), the latter two in one direction.  This is what a single statement
does to the table of keys, and so, by induction, what a run does.

With it the keys that are accepted in a reachable state are read off the trace:
they are the keys that were returned by a creation, as long as their row is
live.  Rows are found by their handle, which is unique, and the text of a key
determines its handle.
-/

open Api Core Foundations Python Relational

namespace Platform

variable {settings : Settings} {crypto : Crypto}

/-! ## Rows of keys -/

/-- `later` is the row of the same key at a later time. -/
structure SameKey (row later : ApiKey) : Prop where
  id : later.id = row.id
  orgId : later.orgId = row.orgId
  name : later.name = row.name
  keyPrefix : later.keyPrefix = row.keyPrefix
  hashedKey : later.hashedKey = row.hashedKey
  expiresAt : later.expiresAt = row.expiresAt
  createdAt : later.createdAt = row.createdAt
  creator : later.createdByUserId = row.createdByUserId ∨ later.createdByUserId = none
  revoked : row.revokedAt ≠ none → later.revokedAt ≠ none

theorem SameKey.refl (row : ApiKey) : SameKey row row :=
  ⟨rfl, rfl, rfl, rfl, rfl, rfl, rfl, .inl rfl, fun h => h⟩

theorem SameKey.trans {first second third : ApiKey} (hfirst : SameKey first second)
    (hsecond : SameKey second third) : SameKey first third where
  id := hsecond.id.trans hfirst.id
  orgId := hsecond.orgId.trans hfirst.orgId
  name := hsecond.name.trans hfirst.name
  keyPrefix := hsecond.keyPrefix.trans hfirst.keyPrefix
  hashedKey := hsecond.hashedKey.trans hfirst.hashedKey
  expiresAt := hsecond.expiresAt.trans hfirst.expiresAt
  createdAt := hsecond.createdAt.trans hfirst.createdAt
  creator := by
    rcases hsecond.creator with hsame | hnone
    · rw [hsame]
      exact hfirst.creator
    · exact .inr hnone
  revoked := fun h => hsecond.revoked (hfirst.revoked h)

/-- A key without creator stays without. -/
theorem SameKey.creator_none {row later : ApiKey} (h : SameKey row later)
    (hnone : row.createdByUserId = none) : later.createdByUserId = none :=
  h.creator.elim (fun hsame => hsame.trans hnone) fun hlater => hlater

/-- The table still holds every key, and nothing else. -/
def KeysStay (db db' : Database) : Prop :=
  ∃ later : ApiKey → ApiKey, db' .apiKeys = (db .apiKeys).map later ∧
    ∀ row, SameKey row (later row)

theorem KeysStay.of_eq {db db' : Database} (h : db' .apiKeys = db .apiKeys) : KeysStay db db' :=
  ⟨id, h.trans (List.map_id _).symm, SameKey.refl⟩

theorem KeysStay.trans {first second third : Database} (hfirst : KeysStay first second)
    (hsecond : KeysStay second third) : KeysStay first third := by
  obtain ⟨later, heq, hsame⟩ := hfirst
  obtain ⟨latest, heq', hsame'⟩ := hsecond
  refine ⟨latest ∘ later, ?_, fun row => (hsame row).trans (hsame' (later row))⟩
  rw [heq', heq, List.map_map]

/-! ## Statements and the table of keys -/

/-- The statement keeps every key. -/
def KeepsKeys (write : Write schema) : Prop :=
  ∀ (policy : Policy Row) (db db' : Database),
    policy.execute schema db write = .ok db' → KeysStay db db'

theorem keysStay_of_executes {policy : Policy Row} {writes : List (Write schema)}
    {db db' : Database} (h : policy.Executes schema db writes db')
    (hkeeps : ∀ write ∈ writes, KeepsKeys write) : KeysStay db db' :=
  h.rel (fun _ => KeysStay.of_eq rfl) KeysStay.trans fun write hwrite => hkeeps write hwrite policy

theorem keepsKeys_of_spares {write : Write schema} (h : schema.Spares .apiKeys write) :
    KeepsKeys write := fun policy db db' hwrite => KeysStay.of_eq (h policy db db' hwrite)

theorem keepsKeys_insert {table : Table} {row : Row table} (htable : Table.apiKeys ≠ table) :
    KeepsKeys (.insert table row) := keepsKeys_of_spares (Schema.spares_insert htable)

theorem keepsKeys_update {table : Table} {selected : Row table → Bool}
    {clause : SetClause schema table} (htable : Table.apiKeys ≠ table) :
    KeepsKeys (.update table selected clause) :=
  keepsKeys_of_spares (Schema.spares_update htable)

/-- Assignments that keep what identifies a key. -/
theorem keepsKeys_updateKeys {selected : ApiKey → Bool} {clause : SetClause schema .apiKeys}
    (hclause : ∀ row, SameKey row (clause.set row)) :
    KeepsKeys (.update .apiKeys selected clause) := by
  intro policy db db' h
  obtain ⟨_, rfl⟩ := Policy.updateRows_eq_ok h
  refine ⟨_, Database.update_self _, fun row => ?_⟩
  split
  · exact hclause row
  · exact SameKey.refl row

/-- As long as no organization and no key is deleted, a key loses its creator at
most. -/
theorem keysStay_delete {db : Database} {target : ∀ table, Row table → Bool}
    (horganizations : ∀ row, target .organizations row = false)
    (hkeys : ∀ row, target .apiKeys row = false) : KeysStay db (schema.delete db target) := by
  have hstays : ∀ row : ApiKey, schema.removed db target .apiKeys row = false := by
    intro row
    rw [Bool.eq_false_iff, Ne, Schema.removed_iff]
    rintro (htarget | ⟨fk, hfk, hcascade, parent, _, _, hremoved⟩)
    · rw [hkeys row] at htarget
      cases htarget
    · rcases List.mem_cons.mp hfk with rfl | hfk
      · have hkept : schema.removed db target .organizations parent = false :=
          Schema.removed_of_closedAbove closedAbove_organizations
            (by rintro _ rfl row; exact horganizations row) _ rfl parent
        exact absurd (hremoved.symm.trans hkept) (by simp)
      · cases List.mem_singleton.mp hfk
        cases hcascade
  refine ⟨schema.nullify db target .apiKeys, ?_, fun row => ?_⟩
  · unfold Schema.delete Database.prune
    rw [List.filter_eq_self.mpr]
    intro row _
    exact congrArg (!·) (hstays row)
  · refine @Schema.nullify_induction _ _ _ _ schema db target .apiKeys row (SameKey row) ?_
      (SameKey.refl row)
    intro fk hfk hset later hlater
    rcases List.mem_cons.mp hfk with rfl | hfk
    · cases hset
    · cases List.mem_singleton.mp hfk
      exact hlater.trans ⟨rfl, rfl, rfl, rfl, rfl, rfl, rfl, .inr rfl, fun h => h⟩

theorem keepsKeys_delete {table : Table} {selected : Row table → Bool}
    (horganizations : .organizations ≠ table) (hkeys : .apiKeys ≠ table) :
    KeepsKeys (.delete table selected) := by
  intro policy db db' h
  obtain ⟨_, rfl⟩ := Policy.deleteRows_eq_ok h
  refine keysStay_delete (fun row => ?_) fun row => ?_
  · rw [Schema.only, Function.update_of_ne horganizations]
  · rw [Schema.only, Function.update_of_ne hkeys]

theorem keepsKeys_authWrite {draws : List Uuid} {write : Write schema}
    (h : AuthWrite draws write) : KeepsKeys write := by
  cases h with
  | organization | user | link | token => exact keepsKeys_insert (by decide)
  | revoke => exact keepsKeys_update (by decide)

theorem keepsKeys_statusWrite {documentId : Uuid} {status : DocumentStatus} {error : Option Str} :
    KeepsKeys (statusWrite documentId status error) := keepsKeys_update (by decide)

theorem keepsKeys_requestWrite {principal : Principal} {now began : Time} {request : Request}
    (hrequest : ∀ body draw, request ≠ .createApiKey body draw) :
    ∀ write ∈ request.writes settings crypto principal now began, KeepsKeys write := by
  intro write hwrite
  cases request <;>
    simp only [Request.writes, List.mem_cons, List.not_mem_nil, or_false] at hwrite
  case createApiKey body draw => exact absurd rfl (hrequest body draw)
  case revokeApiKey =>
    subst hwrite
    exact keepsKeys_updateKeys fun row =>
      ⟨rfl, rfl, rfl, rfl, rfl, rfl, rfl, .inl rfl, fun _ => by simp [revokeKey]⟩
  case uploadDocument =>
    rcases hwrite with rfl | rfl
    · exact keepsKeys_insert (by decide)
    · exact keepsKeys_update (by decide)
  case updateMyOrganization =>
    split at hwrite
    · cases hwrite
    · cases List.mem_singleton.mp hwrite
      exact keepsKeys_update (by decide)
  case createUser | createWebhook | createDocument | createConversation =>
    subst hwrite
    exact keepsKeys_insert (by decide)
  case updateUser | updateDocument =>
    subst hwrite
    exact keepsKeys_update (by decide)
  case deleteUser | deleteWebhook | deleteDocument =>
    subst hwrite
    exact keepsKeys_delete (by decide) (by decide)

/-! ## Steps and the table of keys -/

/-- The key a step returned. -/
def Event.issuedKey : Event → Option ApiKeyCreated
  | .served _ _ _ _ _ (.apiKeyCreated created) => some created
  | _ => none

/-- The keys returned so far. -/
def issuedKeys (trace : List Event) : List ApiKeyCreated := trace.filterMap Event.issuedKey

/-- A creation adds the row of the key it returns, made of what it drew. -/
theorem created_of_step {world world' : World} {orgId userId : Uuid} {viaApiKey : Bool}
    {body : ApiKeyCreate} {draw : ApiKeyDraw} {now : Time} {response : Response}
    (h : Step settings crypto world
      (.served orgId userId viaApiKey (.createApiKey body draw) now response) world') :
    ∃ created : ApiKeyCreated, response = .apiKeyCreated created ∧
      world'.db .apiKeys = world.db .apiKeys ++ [created.row] ∧
      rowFits .apiKeys created.row = true ∧
      created.row.keyPrefix = draw.handle ∧
      created.row.hashedKey = hashSecret crypto draw.secret ∧
      created.key = settings.apiKeyPrefix ++ draw.handle ++ '_' :: draw.secret := by
  obtain ⟨principal, began, conn', _, hhandle, hdb⟩ := handled_of_step h
  obtain ⟨created, hcreate, rfl⟩ := Program.runs_map.mp hhandle
  obtain ⟨rfl, hwrote⟩ := createApiKey_eq_ok hcreate
  obtain ⟨hinserted, _, _, hfits, _⟩ := hwrote.insert
  exact ⟨_, rfl, by rw [hdb, hinserted, Database.insert_self]; rfl, hfits, rfl, rfl, rfl⟩

/-- No other request answers with a key. -/
theorem issues_of_handle {principal : Principal} {now : Time} {request : Request}
    {created : ApiKeyCreated} {conn conn' : Conn}
    (h : (handle settings crypto now principal request).Runs conn (.apiKeyCreated created) conn') :
    ∃ body draw, request = .createApiKey body draw := by
  cases request
  case createApiKey body draw => exact ⟨body, draw, rfl⟩
  all_goals simp [handle, rowsOf, rowOf] at h

/-- Every other step returns no key, and keeps those there are. -/
theorem keysStay_of_step {world world' : World} {event : Event}
    (hstep : Step settings crypto world event world')
    (hevent : ∀ orgId userId viaApiKey body draw now response,
      event ≠ .served orgId userId viaApiKey (.createApiKey body draw) now response) :
    event.issuedKey = none ∧ KeysStay world.db world'.db := by
  constructor
  · rw [Option.eq_none_iff_forall_ne_some]
    intro created hissued
    cases event
    case served orgId userId viaApiKey request now response =>
      cases response
      case apiKeyCreated =>
        obtain ⟨principal, began, conn', _, hhandle, _⟩ := handled_of_step hstep
        obtain ⟨body, draw, rfl⟩ := issues_of_handle hhandle
        exact hevent _ _ _ _ _ _ _ rfl
      all_goals cases hissued
    all_goals cases hissued
  · obtain ⟨conn, writes, heffect, hexecutes⟩ := step_executes hstep
    refine keysStay_of_executes hexecutes fun write hwrite => ?_
    cases stepWrite_of_effect heffect write hwrite with
    | auth hauth => exact keepsKeys_authWrite hauth
    | touched =>
        exact keepsKeys_updateKeys fun row =>
          ⟨rfl, rfl, rfl, rfl, rfl, rfl, rfl, .inl rfl, fun h => h⟩
    | served _ _ hrequest =>
        refine keepsKeys_requestWrite (fun body draw => ?_) write hrequest
        rintro rfl
        exact hevent _ _ _ _ _ _ _ rfl
    | message | usage | chunk => exact keepsKeys_insert (by decide)
    | cleared documentId =>
        exact keepsKeys_of_spares (@spares_filling documentId [] _ (by decide) _
          List.mem_cons_self)
    | status => exact keepsKeys_statusWrite

/-! ## Accepted keys -/

/-- The key is accepted, for this organization and this user. -/
def Accepts (settings : Settings) (crypto : Crypto) (db : Database) (now : Time) (rawKey : Str)
    (orgId : Uuid) (creator : User) : Prop :=
  ∃ began conn', (resolveApiKey settings crypto now rawKey).Runs (.start .appAuth began db)
    (orgId, creator) conn'

/-- The key of the row may be used: it is neither revoked nor expired, and its
creator is still there and active. -/
structure Live (db : Database) (now : Time) (row : ApiKey) (creator : User) : Prop where
  unrevoked : row.revokedAt = none
  unexpired : ∀ expiresAt, row.expiresAt = some expiresAt → now < expiresAt
  created : row.createdByUserId = some creator.id
  stored : creator ∈ db .users
  active : creator.isActive = true

/-- Handles are unique. -/
theorem eq_of_keyPrefix_eq {db : Database} (sound : schema.Sound db) {row other : ApiKey}
    (hrow : row ∈ db .apiKeys) (hother : other ∈ db .apiKeys)
    (hsame : other.keyPrefix = row.keyPrefix) : other = row := by
  have hnodup : ((db .apiKeys).map ApiKey.keyPrefix).Nodup :=
    List.pairwise_map.mpr ((sound.distinct .apiKeys).imp fun h hequal => by
      simp [schema, rowClash, hequal] at h)
  exact List.inj_on_of_nodup_map hnodup hother hrow hsame

/-- The keys that are accepted are those of a live row: they parse to its handle
and to the secret that was hashed. -/
theorem accepts_iff {db : Database} {now : Time} {rawKey : Str} {orgId : Uuid} {creator : User}
    (sound : schema.Sound db) (hfits : ∀ row ∈ db .apiKeys, rowFits .apiKeys row = true) :
    Accepts settings crypto db now rawKey orgId creator ↔
      ∃ row ∈ db .apiKeys, ∃ secret, parseApiKey settings rawKey = some (row.keyPrefix, secret) ∧
        row.hashedKey = hashSecret crypto secret ∧ Live db now row creator ∧ row.orgId = orgId := by
  constructor
  · rintro ⟨began, conn', hrun⟩
    obtain ⟨row, hrow, secret, hparse, hrevoked, hexpired, hhash, hcreator, hstored, hactive, horg,
      _⟩ := resolveApiKey_eq_ok hrun
    exact ⟨row, hrow, secret, hparse, hhash, ⟨hrevoked, hexpired, hcreator, hstored, hactive⟩, horg⟩
  · rintro ⟨row, hrow, secret, hparse, hhash, hlive, rfl⟩
    -- the row is the first one with its handle, since handles are unique
    have hkey : (scalar .apiKeys fun key => key.keyPrefix == row.keyPrefix).Runs
        (.start .appAuth 0 db) (some row) (.start .appAuth 0 db) := by
      have hfound := find_of_unique hrow (beq_self_eq_true row.keyPrefix) fun other hother hsame =>
        eq_of_keyPrefix_eq sound hrow hother (eq_of_beq hsame)
      exact hfound ▸ runs_scalar_of_appAuth rfl rfl
    have hcreator : (getById .users creator.id).Runs (.start .appAuth 0 db) (some creator)
        (.start .appAuth 0 db) := by
      have hfound := find_of_unique hlive.stored (beq_self_eq_true creator.id)
        fun other hother hsame => sound.eq_of_key_eq hother hlive.stored (eq_of_beq hsame)
      exact hfound ▸ runs_scalar_of_appAuth rfl rfl
    -- noting the use cannot fail, or a live key would be refused
    obtain ⟨db', hupdate⟩ : ∃ db', (policy .appAuth none).updateRows schema db .apiKeys
        (fun other => rowId .apiKeys other == row.id) (touchKey now) = .ok db' := by
      refine Policy.updateRows_of_fits rfl fun other hother _ => ⟨?_, rfl⟩
      exact hfits other hother
    have hwrote : (Conn.start .appAuth 0 db).Wrote
        [.update .apiKeys (fun other => rowId .apiKeys other == row.id) (touchKey now)]
        ⟨.appAuth, none, 0, db'⟩ := ⟨rfl, rfl, rfl, db', hupdate, rfl⟩
    refine ⟨0, ⟨.appAuth, none, 0, db'⟩, ?_⟩
    simp only [resolveApiKey, Program.runs_bind, Program.runs_orRaise, Program.runs_raiseIf,
      runs_save, Program.runs_pure]
    refine ⟨_, _, ⟨hparse, rfl⟩, _, _, hkey, row, _, ⟨rfl, rfl⟩, (), _, ⟨?_, rfl⟩, _, _,
      ⟨hlive.created, rfl⟩, _, _, hcreator, creator, _, ⟨rfl, rfl⟩, (), _, ⟨?_, rfl⟩, (), _, hwrote,
      rfl, rfl⟩
    · rintro (hrevoked | hexpired | hhashed)
      · rw [hlive.unrevoked] at hrevoked
        cases hrevoked
      · cases hexpires : row.expiresAt with
        | none => simp [hexpires] at hexpired
        | some expiresAt =>
            have hlater := hlive.unexpired expiresAt hexpires
            rw [hexpires, Option.any_some, decide_eq_true_eq] at hexpired
            exact absurd hexpired (Nat.not_le.mpr hlater)
      · exact hhashed hhash
    · rw [hlive.active]
      decide

/-! ## Keys and the trace -/

/-- The key was put together from a handle of eight hexadecimal digits and a
secret from this set. -/
structure Generated (settings : Settings) (crypto : Crypto) (secrets : Set Str)
    (created : ApiKeyCreated) : Prop where
  fits : rowFits .apiKeys created.row = true
  handle : IsHandle created.row.keyPrefix
  secret : ∃ secret ∈ secrets, secret ≠ [] ∧
    created.row.hashedKey = hashSecret crypto secret ∧
    created.key = settings.apiKeyPrefix ++ created.row.keyPrefix ++ '_' :: secret

/-- A returned key parses to its own handle. -/
theorem Generated.parses {secrets : Set Str} {created : ApiKeyCreated} {handle secret : Str}
    (h : Generated settings crypto secrets created)
    (hparse : parseApiKey settings created.key = some (handle, secret)) :
    handle = created.row.keyPrefix := by
  obtain ⟨drawn, _, hne, _, htext⟩ := h.secret
  rw [parseApiKey_eq_some.mpr ⟨htext, h.handle.underscore_not_mem, h.handle.ne_nil, hne⟩] at hparse
  exact (Prod.mk.inj (Option.some.inj hparse)).1.symm

/-- A creation draws a handle of eight hexadecimal digits and a secret from this
set. -/
def Event.DrawsFrom (secrets : Set Str) : Event → Prop
  | .served _ _ _ (.createApiKey _ draw) _ _ =>
      IsHandle draw.handle ∧ draw.secret ≠ [] ∧ draw.secret ∈ secrets
  | _ => True

/-- The stored keys are the keys returned so far. -/
structure KeysIssued (settings : Settings) (crypto : Crypto) (secrets : Set Str)
    (trace : List Event) (db : Database) : Prop where
  issued : ∀ row ∈ db .apiKeys, ∃ created ∈ issuedKeys trace, SameKey created.row row
  stored : ∀ created ∈ issuedKeys trace, ∃ row ∈ db .apiKeys, SameKey created.row row
  generated : ∀ created ∈ issuedKeys trace, Generated settings crypto secrets created

theorem issuedKeys_append {trace : List Event} {event : Event} :
    issuedKeys (trace ++ [event]) = issuedKeys trace ++ event.issuedKey.toList := by
  unfold issuedKeys
  rw [List.filterMap_append]
  cases hissued : event.issuedKey <;> simp [hissued]

/-- Every step keeps the correspondence. -/
theorem KeysIssued.step {secrets : Set Str} {trace : List Event} {world world' : World}
    {event : Event} (h : KeysIssued settings crypto secrets trace world.db)
    (hdraws : event.DrawsFrom secrets) (hstep : Step settings crypto world event world') :
    KeysIssued settings crypto secrets (trace ++ [event]) world'.db := by
  by_cases hevent : ∃ orgId userId viaApiKey body draw now response,
      event = .served orgId userId viaApiKey (.createApiKey body draw) now response
  · obtain ⟨orgId, userId, viaApiKey, body, draw, now, response, rfl⟩ := hevent
    obtain ⟨created, rfl, hrows, hfits, hhandle, hhash, hkey⟩ := created_of_step hstep
    obtain ⟨hisHandle, hne, hsecret⟩ := hdraws
    have hissued : issuedKeys (trace ++ [Event.served orgId userId viaApiKey
        (.createApiKey body draw) now (.apiKeyCreated created)]) = issuedKeys trace ++ [created] :=
      issuedKeys_append
    refine ⟨fun row hrow => ?_, fun other hother => ?_, fun other hother => ?_⟩
    · rw [hrows] at hrow
      rw [hissued]
      rcases List.mem_append.mp hrow with hold | hnew
      · obtain ⟨earlier, hearlier, hsame⟩ := h.issued row hold
        exact ⟨earlier, List.mem_append_left _ hearlier, hsame⟩
      · rw [List.mem_singleton.mp hnew]
        exact ⟨created, List.mem_append_right _ List.mem_cons_self, SameKey.refl _⟩
    · rw [hissued] at hother
      rw [hrows]
      rcases List.mem_append.mp hother with hold | hnew
      · obtain ⟨row, hrow, hsame⟩ := h.stored other hold
        exact ⟨row, List.mem_append_left _ hrow, hsame⟩
      · rw [List.mem_singleton.mp hnew]
        exact ⟨created.row, List.mem_append_right _ List.mem_cons_self, SameKey.refl _⟩
    · rw [hissued] at hother
      rcases List.mem_append.mp hother with hold | hnew
      · exact h.generated other hold
      · rw [List.mem_singleton.mp hnew]
        exact ⟨hfits, hhandle ▸ hisHandle, draw.secret, hsecret, hne, hhash, hhandle ▸ hkey⟩
  · obtain ⟨hnone, later, hrows, hsame⟩ := keysStay_of_step hstep
      fun _ _ _ _ _ _ _ heq => hevent ⟨_, _, _, _, _, _, _, heq⟩
    have hissued : issuedKeys (trace ++ [event]) = issuedKeys trace := by
      rw [issuedKeys_append, hnone]
      exact List.append_nil _
    refine ⟨fun row' hrow' => ?_, fun created hcreated => ?_, ?_⟩
    · rw [hrows] at hrow'
      obtain ⟨row, hrow, rfl⟩ := List.mem_map.mp hrow'
      obtain ⟨created, hcreated, hfirst⟩ := h.issued row hrow
      exact ⟨created, hissued ▸ hcreated, hfirst.trans (hsame row)⟩
    · obtain ⟨row, hrow, hfirst⟩ := h.stored created (hissued ▸ hcreated)
      rw [hrows]
      exact ⟨later row, List.mem_map_of_mem hrow, hfirst.trans (hsame row)⟩
    · rw [hissued]
      exact h.generated

theorem keysIssued_of_runs {secrets : Set Str} {start world : World} {trace : List Event}
    (hempty : start.db .apiKeys = []) (hdraws : ∀ event ∈ trace, event.DrawsFrom secrets)
    (hrun : Runs settings crypto start trace world) :
    KeysIssued settings crypto secrets trace world.db := by
  have hstart : KeysIssued settings crypto secrets [] start.db := by
    refine ⟨fun row hrow => ?_, fun _ hcreated => ?_, fun _ hcreated => ?_⟩
    · rw [hempty] at hrow
      cases hrow
    · cases hcreated
    · cases hcreated
  refine hrun.invariant (P := fun trace world => (∀ event ∈ trace, event.DrawsFrom secrets) →
    KeysIssued settings crypto secrets trace world.db) (fun _ => hstart) ?_ hdraws
  intro earlier before event after _ ih hstep hdraws
  have hearlier := ih fun other hother => hdraws other (List.mem_append_left _ hother)
  exact hearlier.step (hdraws event (List.mem_append_right _ List.mem_cons_self)) hstep

/-! ## Dead keys -/

/-- The row of a returned key stays, whatever happens. -/
theorem stays_of_runs {start world : World} {trace : List Event} {row : ApiKey}
    (hrow : row ∈ start.db .apiKeys) (hrun : Runs settings crypto start trace world) :
    ∃ later ∈ world.db .apiKeys, SameKey row later := by
  refine hrun.preserves (R := fun world world' => ∀ row ∈ world.db .apiKeys,
    ∃ later ∈ world'.db .apiKeys, SameKey row later) ?_ ?_ ?_ row hrow
  · exact fun _ row hrow => ⟨row, hrow, SameKey.refl row⟩
  · intro first second third hfirst hsecond row hrow
    obtain ⟨between, hbetween, hsame⟩ := hfirst row hrow
    obtain ⟨later, hlater, hsame'⟩ := hsecond between hbetween
    exact ⟨later, hlater, hsame.trans hsame'⟩
  · intro before event after hstep row hrow
    -- only the request that creates a key adds a row
    by_cases hevent : ∃ orgId userId viaApiKey body draw now response,
        event = .served orgId userId viaApiKey (.createApiKey body draw) now response
    · obtain ⟨_, _, _, _, _, _, _, rfl⟩ := hevent
      obtain ⟨created, _, hrows, _⟩ := created_of_step hstep
      rw [hrows]
      exact ⟨row, List.mem_append_left _ hrow, SameKey.refl row⟩
    · obtain ⟨_, later, hrows, hsame⟩ := keysStay_of_step hstep
        fun _ _ _ _ _ _ _ heq => hevent ⟨_, _, _, _, _, _, _, heq⟩
      rw [hrows]
      exact ⟨later row, List.mem_map_of_mem hrow, hsame row⟩

/-- A returned key that is revoked, or whose creator is not there any more. -/
def Dead (db : Database) (created : ApiKeyCreated) : Prop :=
  (∃ row ∈ db .apiKeys, SameKey created.row row ∧ row.revokedAt ≠ none) ∨
    ∀ user ∈ db .users, created.row.createdByUserId ≠ some user.id

/-- A dead key has no live row, now and later. -/
theorem Dead.not_accepts {secrets : Set Str} {world last : World} {trace after : List Event}
    {created : ApiKeyCreated} (hcoherent : Coherent world) (hlast : Coherent last)
    (hissued : KeysIssued settings crypto secrets trace world.db)
    (hcreated : created ∈ issuedKeys trace) (hdead : Dead world.db created)
    (hrun : Runs settings crypto world after last) (now : Time) (orgId : Uuid) (creator : User) :
    ¬Accepts settings crypto last.db now created.key orgId creator := by
  obtain ⟨row, hrow, hsame, hended⟩ : ∃ row ∈ world.db .apiKeys, SameKey created.row row ∧
      (row.revokedAt ≠ none ∨ row.createdByUserId = none) := by
    rcases hdead with ⟨row, hrow, hsame, hrevoked⟩ | hgone
    · exact ⟨row, hrow, hsame, .inl hrevoked⟩
    · obtain ⟨row, hrow, hsame⟩ := hissued.stored created hcreated
      refine ⟨row, hrow, hsame, .inr ?_⟩
      rw [Option.eq_none_iff_forall_ne_some]
      intro userId hcreator
      -- a reference that is not NULL resolves, and is the one of the creation
      have hfk : _ ∈ rowForeignKeys .apiKeys := List.mem_cons_of_mem _ List.mem_cons_self
      obtain ⟨user, huser, hid⟩ :=
        hcoherent.sound.resolved .apiKeys row hrow _ hfk userId hcreator
      rcases hsame.creator with hkept | hnone
      · exact hgone user huser (hkept.symm.trans (hcreator.trans (congrArg some hid.symm)))
      · rw [hcreator] at hnone
        cases hnone
  obtain ⟨later, hlater, hfollows⟩ := stays_of_runs hrow hrun
  rintro ⟨began, conn', haccepts⟩
  obtain ⟨key, hkey, secret, hparse, hrevoked, _, _, hcreator, _⟩ := resolveApiKey_eq_ok haccepts
  have hhandle := (hissued.generated created hcreated).parses hparse
  have heq : key = later := eq_of_keyPrefix_eq hlast.sound hlater hkey
    (hhandle.trans (hsame.trans hfollows).keyPrefix.symm)
  subst heq
  rcases hended with hrevokedBefore | hnone
  · exact hfollows.revoked hrevokedBefore hrevoked
  · rw [hfollows.creator_none hnone] at hcreator
    cases hcreator

/-- The step revokes the key, or deletes its creator. -/
def Event.Ends (created : ApiKeyCreated) : Event → Prop
  | .served _ _ _ (.revokeApiKey keyId) _ _ => keyId = created.row.id
  | .served _ _ _ (.deleteUser userId) _ _ => created.row.createdByUserId = some userId
  | _ => False

/-- The users that are left after a deletion were not selected. -/
theorem mem_users_of_delete {policy : Policy Row} {db db' : Database} {selected : User → Bool}
    (h : policy.Executes schema db [.delete .users selected] db') {user : User}
    (huser : user ∈ db' .users) :
    user ∈ db .users ∧ (policy.visible .users user && selected user) = false := by
  obtain ⟨_, hdelete, rfl⟩ := h
  obtain ⟨_, rfl⟩ := Policy.deleteRows_eq_ok hdelete
  rw [users_of_delete] at huser
  obtain ⟨hmem, hkept⟩ := List.mem_filter.mp huser
  exact ⟨hmem, Bool.not_eq_true' _ ▸ hkept⟩

theorem dead_of_step {secrets : Set Str} {world world' : World} {trace : List Event}
    {event : Event} {created : ApiKeyCreated} (hcoherent : Coherent world)
    (hissued : KeysIssued settings crypto secrets trace world.db)
    (hcreated : created ∈ issuedKeys trace) (hstep : Step settings crypto world event world')
    (hends : event.Ends created) : Dead world'.db created := by
  obtain ⟨row, hrow, hsame⟩ := hissued.stored created hcreated
  cases event
  case served orgId userId viaApiKey request now response =>
    cases request
    case revokeApiKey keyId =>
      obtain rfl : keyId = created.row.id := hends
      obtain ⟨principal, began, conn', _, hhandle, hdb⟩ := handled_of_step hstep
      obtain ⟨_, hrevoke, _⟩ := Program.runs_map.mp hhandle
      obtain ⟨key, hkey, hid, hvisible, hwrote⟩ := revokeApiKey_eq_ok hrevoke
      have heq : key = row := hcoherent.sound.eq_of_key_eq hkey hrow (hid.trans hsame.id.symm)
      subst heq
      -- a key that is revoked already keeps the time it was revoked at
      rcases hwrote with ⟨hunchanged, hrevoked⟩ | ⟨hwrote, _⟩
      · refine .inl ⟨key, ?_, hsame, hrevoked⟩
        rw [hdb, ← hunchanged]
        exact hrow
      · refine .inl ⟨(revokeKey now).set key, ?_,
          hsame.trans ⟨rfl, rfl, rfl, rfl, rfl, rfl, rfl, .inl rfl, fun _ => by simp [revokeKey]⟩,
          by simp [revokeKey]⟩
        rw [hdb, hwrote.update.2, Database.update_self]
        refine List.mem_map.mpr ⟨key, hrow, if_pos ?_⟩
        rw [hvisible, Bool.true_and]
        exact beq_iff_eq.mpr hid
    case deleteUser deletedId =>
      have hcreator : created.row.createdByUserId = some deletedId := hends
      obtain ⟨principal, began, conn', _, hhandle, hdb⟩ := handled_of_step hstep
      obtain ⟨_, hdelete, _⟩ := Program.runs_map.mp hhandle
      obtain ⟨hwrote, found, hfound, hid, hvisible⟩ := deleteUser_eq_ok hdelete
      refine .inr fun user huser hsameUser => ?_
      rw [hdb] at huser
      obtain ⟨hmem, hkept⟩ := mem_users_of_delete hwrote.executes huser
      have huserId : user.id = found.id :=
        (Option.some.inj (hcreator.symm.trans hsameUser)).symm.trans hid.symm
      have heq : user = found := hcoherent.sound.eq_of_key_eq hmem hfound huserId
      rw [heq, hvisible, Bool.true_and, withId, rowId, hid, beq_self_eq_true] at hkept
      cases hkept
    all_goals cases hends
  all_goals cases hends

/-! ## The life of API keys -/

/-- In every reachable state the accepted keys are exactly the returned ones
whose row is live, each for the organization and the creator of its row; a key
that is dead is never accepted again, and revoking a key or deleting its creator
makes it dead. -/
theorem apiKey_lifecycle {secrets : Set Str} {start world : World} {trace : List Event}
    (hstart : Initial start) (hempty : start.db .apiKeys = [])
    (hdraws : ∀ event ∈ trace, event.DrawsFrom secrets)
    (hinjective : Set.InjOn crypto.sha256 secrets)
    (hrun : Runs settings crypto start trace world) :
    (∀ now rawKey orgId creator,
      (∀ handle secret, parseApiKey settings rawKey = some (handle, secret) → secret ∈ secrets) →
      (Accepts settings crypto world.db now rawKey orgId creator ↔
        ∃ created ∈ issuedKeys trace, created.key = rawKey ∧ ∃ row ∈ world.db .apiKeys,
          SameKey created.row row ∧ Live world.db now row creator ∧ row.orgId = orgId)) ∧
    (∀ created ∈ issuedKeys trace, Dead world.db created →
      ∀ after last, Runs settings crypto world after last →
        ∀ now orgId creator, ¬Accepts settings crypto last.db now created.key orgId creator) ∧
    ∀ created ∈ issuedKeys trace, ∀ event world', Step settings crypto world event world' →
      event.Ends created → Dead world'.db created := by
  have hcoherent := coherent_of_runs hstart hrun
  have hissued := keysIssued_of_runs hempty hdraws hrun
  have hfits : ∀ row ∈ world.db .apiKeys, rowFits .apiKeys row = true := by
    intro row hrow
    obtain ⟨created, hcreated, hsame⟩ := hissued.issued row hrow
    have hfits := (hissued.generated created hcreated).fits
    simpa [rowFits, hsame.name, hsame.keyPrefix, hsame.hashedKey] using hfits
  refine ⟨fun now rawKey orgId creator hpresented => ?_,
    fun created hcreated hdead after last hafter now orgId creator => ?_,
    fun created hcreated event world' hstep hends =>
      dead_of_step hcoherent hissued hcreated hstep hends⟩
  · rw [accepts_iff hcoherent.sound hfits]
    constructor
    · rintro ⟨row, hrow, secret, hparse, hhash, hlive, horg⟩
      obtain ⟨created, hcreated, hsame⟩ := hissued.issued row hrow
      obtain ⟨drawn, hdrawn, _, hhashed, htext⟩ := (hissued.generated created hcreated).secret
      -- two secrets with one hash are the same secret
      have hsecret : drawn = secret := hinjective hdrawn (hpresented _ _ hparse)
        (hhashed.symm.trans (hsame.hashedKey.symm.trans hhash))
      obtain ⟨hrawKey, _⟩ := parseApiKey_eq_some.mp hparse
      refine ⟨created, hcreated, ?_, row, hrow, hsame, hlive, horg⟩
      rw [htext, hrawKey, hsecret, hsame.keyPrefix]
    · rintro ⟨created, hcreated, rfl, row, hrow, hsame, hlive, horg⟩
      obtain ⟨drawn, _, hne, hhashed, htext⟩ := (hissued.generated created hcreated).secret
      have hhandle := (hissued.generated created hcreated).handle
      refine ⟨row, hrow, drawn, ?_, hsame.hashedKey.trans hhashed, hlive, horg⟩
      rw [parseApiKey_eq_some, hsame.keyPrefix]
      exact ⟨htext, hhandle.underscore_not_mem, hhandle.ne_nil, hne⟩
  · exact hdead.not_accepts hcoherent (hafter.keeps (fun _ _ _ h hstep => h.step hstep) hcoherent)
      hissued hcreated hafter now orgId creator

def sampleDraw : ApiKeyDraw := ⟨9, "0a1b2c3d".toList, "second".toList⟩

def sampleKey : Str := "akp_0a1b2c3d_second".toList

/-- An administrator creates a key. -/
def creatingKey : List (Time × Action) :=
  [(0, .auth (.signup ⟨"A".toList, "a@x".toList, [], none⟩ [] ⟨1, 2, []⟩ ⟨"first".toList, 3⟩)),
    (0, .serve 1 2 false (.createApiKey ⟨"k".toList, none⟩ sampleDraw))]

/-- Whether the step draws for a key what the sample draws. -/
def Event.drawsSample : Event → Bool
  | .served _ _ _ (.createApiKey _ draw) _ _ => draw == sampleDraw
  | _ => true

theorem drawsFrom_of_drawsSample {event : Event} (h : event.drawsSample = true) :
    event.DrawsFrom {sampleDraw.secret} := by
  unfold Event.DrawsFrom
  split
  · next draw _ _ =>
      cases eq_of_beq h
      have hhex : sampleDraw.handle.all (fun c => (Uuid.hexValue c).isSome) = true := by decide
      exact ⟨⟨by decide, List.all_eq_true.mp hhex⟩, by decide, rfl⟩
  · trivial

/-- The key is accepted, until the administrator revokes it. -/
theorem apiKey_lifecycle_revoked : ∃ trace world event world',
    performAll {} sampleCrypto emptyWorld creatingKey = some (trace, world) ∧
    perform {} sampleCrypto 5 world (.serve 1 2 false (.revokeApiKey 9)) = some (event, world') ∧
    (∃ orgId creator, Accepts {} sampleCrypto world.db 5 sampleKey orgId creator ∧
      ∃ created ∈ issuedKeys trace, created.key = sampleKey ∧ ∃ row ∈ world.db .apiKeys,
        SameKey created.row row ∧ Live world.db 5 row creator ∧ row.orgId = orgId) ∧
    ∀ after last, Runs {} sampleCrypto world' after last →
      ∀ now orgId creator, ¬Accepts {} sampleCrypto last.db now sampleKey orgId creator := by
  have hevaluate : ((performAll {} sampleCrypto emptyWorld creatingKey).bind fun setup =>
      (perform {} sampleCrypto 5 setup.2 (.serve 1 2 false (.revokeApiKey 9))).bind
        fun revoked =>
          (transact .appAuth 5 setup.2.db (resolveApiKey {} sampleCrypto 5 sampleKey)).map fun _ =>
            ((issuedKeys setup.1).map fun created => created.row.id,
              (setup.1 ++ [revoked.1]).all Event.drawsSample)) =
      some ([9], true) := by decide +kernel
  obtain ⟨⟨trace, world⟩, hsetup, hrest⟩ := Option.bind_eq_some_iff.mp hevaluate
  obtain ⟨⟨event, world'⟩, hrevoke, hrest⟩ := Option.bind_eq_some_iff.mp hrest
  obtain ⟨⟨⟨orgId, creator⟩, db⟩, haccept, hfacts⟩ := Option.map_eq_some_iff.mp hrest
  obtain ⟨hids, hsample⟩ := Prod.mk.inj hfacts
  have hdraws : ∀ event' ∈ trace ++ [event], event'.DrawsFrom {sampleDraw.secret} :=
    fun event' hevent => drawsFrom_of_drawsSample (List.all_eq_true.mp hsample event' hevent)
  have hinjective : Set.InjOn sampleCrypto.sha256 {sampleDraw.secret} := Set.injOn_singleton _ _
  have hstep := step_of_perform hrevoke
  have hrun := runs_of_performAll hsetup
  obtain ⟨hiff, _, hends⟩ := apiKey_lifecycle initial_emptyWorld rfl
    (fun event' hevent => hdraws event' (List.mem_append_left _ hevent)) hinjective hrun
  obtain ⟨_, hdead, _⟩ := apiKey_lifecycle initial_emptyWorld rfl hdraws hinjective
    (hrun.snoc hstep)
  have hpresented : ∀ handle secret, parseApiKey {} sampleKey = some (handle, secret) →
      secret ∈ ({sampleDraw.secret} : Set Str) := by
    intro handle secret hparse
    have hsample : parseApiKey {} sampleKey = some (sampleDraw.handle, sampleDraw.secret) := by
      decide
    rw [hsample] at hparse
    exact (Prod.mk.inj (Option.some.inj hparse)).2.symm
  have haccepts : Accepts {} sampleCrypto world.db 5 sampleKey orgId creator := by
    obtain ⟨conn', hresolve, _⟩ := transact_eq_some haccept
    exact ⟨5, conn', hresolve⟩
  obtain ⟨created, hcreated, hkey, hlive⟩ := (hiff 5 sampleKey orgId creator hpresented).mp haccepts
  refine ⟨trace, world, event, world', hsetup, hrevoke,
    ⟨orgId, creator, haccepts, created, hcreated, hkey, hlive⟩, fun after last hafter => ?_⟩
  have hid : created.row.id = 9 := by
    have hmem := List.mem_map_of_mem (f := fun created => created.row.id) hcreated
    rw [hids] at hmem
    exact List.mem_singleton.mp hmem
  have hended : event.Ends created := by
    obtain ⟨response, rfl⟩ := event_of_serve hrevoke
    exact hid.symm
  have hstays : created ∈ issuedKeys (trace ++ [event]) := by
    rw [issuedKeys_append]
    exact List.mem_append_left _ hcreated
  have hnever := hdead created hstays (hends created hcreated event world' hstep hended) after last
    hafter
  rwa [hkey] at hnever

end Platform
