import KnowledgePlatform.Api.AuthEffects
import KnowledgePlatform.Api.OAuthClients
import KnowledgePlatform.Platform.ApiKeys

/-!
# Accounts and the tokens issued for them

Tokens are issued by six branches of the authentication router.  Five of them issue
tokens to an active user only; the sixth, in which an OAuth callback finds the user
by the address of the identity, looks at nothing but the address.  So tokens go to
active users only as long as this branch is not taken with an inactive user, and a
stranger's account is linked to a user only as long as it is not taken with an
address that the provider has not verified.
-/

open Api Core Foundations Python Relational

namespace Platform

variable {settings : Settings} {crypto : Crypto} {world world' : World} {event : Event}

/-! ## Steps on refresh tokens -/

/-- What an authentication request did. -/
theorem authEffect_of_step {request : AuthRequest} {now : Time} {tokens : Option TokenResponse}
    (h : Step settings crypto world (.auth request now tokens) world') :
    ∃ createdAt, AuthEffect settings crypto now createdAt world.db request tokens
      (world'.db .users) (world'.db .oauthAccounts) (world'.db .refreshTokens) := by
  cases h with
  | auth _ hrun => exact ⟨_, AuthRequest.effect_of_run rfl hrun⟩

/-- A session without privileges for refresh tokens deletes some with their users,
at most. -/
theorem refreshTokens_of_executes {policy : Policy Row} {writes : List (Write schema)}
    {db db' : Database} (hgrants : ∀ verb, policy.grants verb .refreshTokens = false)
    (h : policy.Executes schema db writes db') :
    (db' .refreshTokens).Sublist (db .refreshTokens) := by
  refine h.rel (R := fun first second =>
    (second .refreshTokens).Sublist (first .refreshTokens)) (fun _ => List.Sublist.refl _)
    (fun hfirst hsecond => hsecond.trans hfirst) fun write _ first second hwrite => ?_
  have hother : ∀ table verb, policy.grants verb table = true → .refreshTokens ≠ table := by
    rintro _ verb hgrant rfl
    exact absurd hgrant (by simp [hgrants verb])
  cases write with
  | insert table row =>
      obtain ⟨rfl, hgrant, _⟩ := Policy.insertRow_eq_ok hwrite
      rw [Database.insert_of_ne _ (hother table _ hgrant)]
  | update table selected clause =>
      obtain ⟨hgrant, rfl⟩ := Policy.updateRows_eq_ok hwrite
      rw [Database.update_of_ne _ (hother table _ hgrant)]
  | delete table selected =>
      -- no grant is asked for rows that go with their user
      obtain ⟨_, rfl⟩ := Policy.deleteRows_eq_ok hwrite
      have hcascades : ∀ fk ∈ schema.foreignKeys .refreshTokens, fk.onDelete = .cascade := by
        intro fk hfk
        cases List.mem_singleton.mp hfk
        rfl
      rw [Schema.delete_of_cascades hcascades]
      exact List.filter_sublist

/-- The authentication router apart, no step adds or rewrites a refresh token. -/
theorem refreshTokens_of_step (hstep : Step settings crypto world event world')
    (hevent : ∀ request now tokens, event ≠ .auth request now tokens) :
    (world'.db .refreshTokens).Sublist (world.db .refreshTokens) := by
  obtain ⟨conn, writes, heffect, hexecutes⟩ := step_executes hstep
  cases hbound : event.boundTo with
  | some orgId =>
      refine refreshTokens_of_executes (fun verb => ?_) hexecutes
      rw [conn_of_effect heffect hbound]
      rfl
  | none =>
      cases heffect with
      | auth => exact absurd rfl (hevent _ _ _)
      | authenticated =>
          have hspares : world'.db .refreshTokens = world.db .refreshTokens := by
            refine Schema.apply_of_spares hexecutes fun write hwrite => ?_
            cases List.mem_singleton.mp hwrite
            exact Schema.spares_update (by decide)
          rw [hspares]
      | served | asked | answered | ingesting | notIngested | stored | raised | failed | dispatched =>
          cases hbound

/-! ## Steps on users -/

/-- The only statement that updates users is that of `update_user`. -/
theorem updateUser_of_effect {db : Database} {conn : Conn} {writes : List (Write schema)}
    (h : Effect settings crypto db event conn writes) {selected : User → Bool}
    {clause : SetClause schema .users} (hwrite : .update .users selected clause ∈ writes) :
    ∃ orgId userId viaApiKey target body now response,
      event = .served orgId userId viaApiKey (.updateUser target body) now response ∧
        selected = withId .users target ∧ clause = assignUser body := by
  cases stepWrite_of_effect h _ hwrite with
  | auth hauth => cases hauth
  | @served orgId userId viaApiKey request now response principal began _ hrequest =>
      cases request <;>
        simp only [Request.writes, List.mem_cons, List.not_mem_nil, or_false] at hrequest
      case updateUser target body =>
        cases hrequest
        exact ⟨orgId, userId, viaApiKey, target, body, now, response, rfl, rfl, rfl⟩
      case uploadDocument =>
        rcases hrequest with hinsert | hupdate
        · cases hinsert
        · cases hupdate
      case updateMyOrganization =>
        split at hrequest
        · cases hrequest
        · cases List.mem_singleton.mp hrequest
      all_goals cases hrequest

/-- The users after some statements: users with these ids, or users that were there,
active ones only if they were so or the statements activate them. -/
theorem users_of_executes {policy : Policy Row} {writes : List (Write schema)} {db db' : Database}
    {draws : List Uuid} {P : Uuid → Prop} (h : policy.Executes schema db writes db')
    (hdraws : ∀ write ∈ writes, Draws draws write)
    (hrevived : ∀ selected clause, .update .users selected clause ∈ writes → ∀ user : User,
      selected user = true → (clause.set user).isActive = true →
        user.isActive = true ∨ P user.id) :
    ∀ user' ∈ db' .users, user'.id ∈ draws ∨ ∃ user ∈ db .users, user.id = user'.id ∧
      (user'.isActive = true → user.isActive = true ∨ P user.id) := by
  refine h.rel (R := fun first second : Database => ∀ user' ∈ second .users, user'.id ∈ draws ∨
    ∃ user ∈ first .users, user.id = user'.id ∧
      (user'.isActive = true → user.isActive = true ∨ P user.id)) ?_ ?_ ?_
  · exact fun _ user huser => .inr ⟨user, huser, rfl, .inl⟩
  · intro first second third hfirst hsecond user' huser'
    rcases hsecond user' huser' with hdrawn | ⟨between, hbetween, hid, hactive⟩
    · exact .inl hdrawn
    · rcases hfirst between hbetween with hdrawn | ⟨user, huser, hsame, hactive'⟩
      · exact .inl (hid ▸ hdrawn)
      · refine .inr ⟨user, huser, hsame.trans hid, fun h => ?_⟩
        rcases hactive h with hwas | hrevives
        · exact hactive' hwas
        · exact .inr (hsame ▸ hrevives)
  · intro write hmem first second hwrite user' huser'
    have hdrawn := hdraws write hmem
    cases write with
    | insert table row =>
        obtain ⟨rfl, _⟩ := Policy.insertRow_eq_ok hwrite
        rcases Database.mem_insert.mp huser' with hold | hnew
        · exact .inr ⟨user', hold, rfl, .inl⟩
        · cases hnew
          exact .inl (hdrawn rfl)
    | update table selected clause =>
        obtain ⟨_, rfl⟩ := Policy.updateRows_eq_ok hwrite
        by_cases htable : .users = table
        · subst htable
          rw [Database.update_self] at huser'
          obtain ⟨user, huser, rfl⟩ := List.mem_map.mp huser'
          right
          split
          · next hselected =>
              refine ⟨user, huser, (clause.key_set user).symm, fun hactive => ?_⟩
              exact hrevived selected clause hmem user (Bool.and_eq_true_iff.mp hselected).2 hactive
          · exact ⟨user, huser, rfl, .inl⟩
        · rw [Database.update_of_ne _ htable] at huser'
          exact .inr ⟨user', huser', rfl, .inl⟩
    | delete table selected =>
        obtain ⟨_, rfl⟩ := Policy.deleteRows_eq_ok hwrite
        have hcascades : ∀ fk ∈ schema.foreignKeys .users, fk.onDelete = .cascade := by
          intro fk hfk
          cases List.mem_singleton.mp hfk
          rfl
        rw [Schema.delete_of_cascades hcascades] at huser'
        exact .inr ⟨user', (List.mem_filter.mp huser').1, rfl, .inl⟩

/-- An administrator reactivates the user. -/
def Event.Reactivates (userId : Uuid) : Event → Prop
  | .served _ _ _ (.updateUser target body) _ _ => target = userId ∧ body.isActive = some true
  | _ => False

/-- The users after a step: drawn by it, or there before, and then active only if they
were so or are reactivated. -/
theorem users_of_step (hstep : Step settings crypto world event world') :
    ∀ user' ∈ world'.db .users, user'.id ∈ event.draws ∨ ∃ user ∈ world.db .users,
      user.id = user'.id ∧
        (user'.isActive = true → user.isActive = true ∨ event.Reactivates user.id) := by
  obtain ⟨conn, writes, heffect, hexecutes⟩ := step_executes hstep
  refine users_of_executes (P := event.Reactivates) hexecutes (draws_of_effect heffect) ?_
  intro selected clause hwrite user hselected hactive
  obtain ⟨_, _, _, target, body, _, _, rfl, rfl, rfl⟩ := updateUser_of_effect heffect hwrite
  have htarget : user.id = target := eq_of_beq hselected
  change body.isActive.getD user.isActive = true at hactive
  cases hbody : body.isActive with
  | none =>
      rw [hbody, Option.getD_none] at hactive
      exact .inl hactive
  | some active =>
      rw [hbody, Option.getD_some] at hactive
      subst hactive
      exact .inr ⟨htarget.symm, hbody⟩

/-! ## Tokens of active users -/

/-- The token was there before, with the same user. -/
def WasThere (world : World) (token : RefreshToken) : Prop :=
  ∃ old ∈ world.db .refreshTokens, old.id = token.id ∧ old.userId = token.userId

/-- The step created the refresh token. -/
def Created (world world' : World) (token : RefreshToken) : Prop :=
  token ∈ world'.db .refreshTokens ∧ ∀ old ∈ world.db .refreshTokens, old.id ≠ token.id

/-- Tokens are issued by the step to an active user only, who gets both of them. -/
def IssuesToActive (settings : Settings) (crypto : Crypto) (world : World) (event : Event)
    (world' : World) : Prop :=
  match event with
  | .auth _ now (some tokens) => ∃ user ∈ world'.db .users, user.isActive = true ∧
      tokens.IssuedFor settings crypto now user ∧
        ∀ token, Created world world' token → token.userId = user.id
  | _ => ∀ token, ¬Created world world' token

/-- An OAuth callback finds an inactive user by the address of an identity that is not
linked yet. -/
def MatchesInactive (db : Database) : AuthRequest → Prop
  | .oauthCallback identity _ _ _ =>
      (db .oauthAccounts).find? identity.isLinkedBy = none ∧ ∃ email user,
        identity.email = some email ∧
          (db .users).find? (fun user => user.email == email) = some user ∧ user.isActive = false
  | _ => False

/-- The step does so. -/
def Event.MatchesInactive (db : Database) : Event → Prop
  | .auth request _ _ => Platform.MatchesInactive db request
  | _ => False

/-- The id of a token and its user: what no statement rewrites. -/
def holder (token : RefreshToken) : Uuid × Uuid := (token.id, token.userId)

theorem holders_revokeStored {stored : RefreshToken} {now : Time} {tokens : List RefreshToken} :
    (revokeStored stored now tokens).map holder = tokens.map holder := by
  rw [revokeStored, List.map_map]
  refine List.map_congr_left fun token _ => ?_
  rw [Function.comp_apply]
  split <;> rfl

/-- A request issues no tokens and creates none, or it issues them to a user and
creates the one. -/
theorem issued_of_effect {now createdAt : Time} {db : Database} {request : AuthRequest}
    {tokens : Option TokenResponse} {users : List User} {accounts : List OAuthAccount}
    {refreshTokens : List RefreshToken}
    (h : AuthEffect settings crypto now createdAt db request tokens users accounts
      refreshTokens) :
    (tokens = none ∧ ¬MatchesInactive db request ∧
      refreshTokens.map holder = (db .refreshTokens).map holder) ∨
    ∃ issued user draw kept, tokens = some issued ∧ user ∈ users ∧
      issued.IssuedFor settings crypto now user ∧
      kept.map holder = (db .refreshTokens).map holder ∧
      refreshTokens = kept ++ [newRefreshToken settings crypto user.id draw now createdAt] ∧
      (MatchesInactive db request ↔ user.isActive = false) := by
  have hactive : ∀ user : User, user.isActive = true → (False ↔ user.isActive = false) := by
    intro user h
    simp [h]
  cases h with
  | @signup _ _ _ draw user issued huser _ hissued =>
      have hadmin : user.isActive = true := by rw [huser]; rfl
      exact .inr ⟨issued, user, draw, _, rfl, List.mem_append_right _ List.mem_cons_self, hissued,
        rfl, rfl, hactive user hadmin⟩
  | @login _ _ draw user issued hfound hlogin hissued =>
      exact .inr ⟨issued, user, draw, _, rfl, List.mem_of_find?_eq_some hfound, hissued, rfl, rfl,
        hactive user hlogin⟩
  | @refresh _ draw stored user issued _ _ hfound hrefresh hissued =>
      exact .inr ⟨issued, user, draw, _, rfl, List.mem_of_find?_eq_some hfound, hissued,
        holders_revokeStored, rfl, hactive user hrefresh⟩
  | logoutUnknown => exact .inl ⟨rfl, id, rfl⟩
  | logout => exact .inl ⟨rfl, id, holders_revokeStored⟩
  | @linked _ _ _ draw account user issued hlinked hfound hlogin hissued =>
      refine .inr ⟨issued, user, draw, _, rfl, List.mem_of_find?_eq_some hfound, hissued, rfl, rfl,
        ?_⟩
      rw [hlogin]
      refine iff_of_false ?_ (by decide)
      rintro ⟨hunlinked, _⟩
      rw [hlinked] at hunlinked
      cases hunlinked
  | @matched _ _ _ draw email user issued hunlinked hemail hfound hissued =>
      refine .inr ⟨issued, user, draw, _, rfl, List.mem_of_find?_eq_some hfound, hissued, rfl, rfl,
        ?_, fun hinactive => ⟨hunlinked, email, user, hemail, hfound, hinactive⟩⟩
      rintro ⟨_, other, found, hother, hfoundOther, hinactive⟩
      cases hemail.symm.trans hother
      cases hfound.symm.trans hfoundOther
      exact hinactive
  | @provisioned _ _ _ draw email user issued huser _ hemail hnone hissued =>
      have hadmin : user.isActive = true := by rw [huser]; rfl
      refine .inr ⟨issued, user, draw, _, rfl, List.mem_append_right _ List.mem_cons_self, hissued,
        rfl, rfl, ?_⟩
      rw [hadmin]
      refine iff_of_false ?_ (by decide)
      rintro ⟨_, other, found, hother, hfoundOther, _⟩
      cases hemail.symm.trans hother
      rw [hnone] at hfoundOther
      cases hfoundOther

/-- A token of a list is in every list with the same holders. -/
theorem exists_of_holders {tokens others : List RefreshToken}
    (h : tokens.map holder = others.map holder) {token : RefreshToken} (htoken : token ∈ tokens) :
    ∃ other ∈ others, other.id = token.id ∧ other.userId = token.userId := by
  have hmem : holder token ∈ others.map holder := h ▸ List.mem_map_of_mem htoken
  obtain ⟨other, hother, hsame⟩ := List.mem_map.mp hmem
  exact ⟨other, hother, (Prod.mk.inj hsame).1, (Prod.mk.inj hsame).2⟩

theorem WasThere.not_created {token : RefreshToken} (h : WasThere world token) :
    ¬Created world world' token := by
  obtain ⟨old, hold, hid, _⟩ := h
  exact fun hcreated => hcreated.2 old hold hid

/-- A row added to rows that were there before is created. -/
theorem created_of_append {kept : List RefreshToken} {new : RefreshToken}
    (sound : schema.Sound world'.db)
    (hkept : kept.map holder = (world.db .refreshTokens).map holder)
    (htokens : world'.db .refreshTokens = kept ++ [new]) : Created world world' new := by
  refine ⟨htokens ▸ List.mem_append_right _ List.mem_cons_self, fun old hold hid => ?_⟩
  obtain ⟨other, hother, hsame, _⟩ := exists_of_holders hkept.symm hold
  have hdistinct := sound.distinct .refreshTokens
  rw [htokens] at hdistinct
  have hkeys := (List.pairwise_append.mp hdistinct).2.2 other hother new List.mem_cons_self
  exact hkeys.1 (hsame.trans hid)

/-- A step creates no tokens, or one, for the user it issues tokens to. -/
theorem issued_of_step (hcoherent : Coherent world)
    (hstep : Step settings crypto world event world') :
    ((∀ request now issued, event ≠ .auth request now (some issued)) ∧
      ¬event.MatchesInactive world.db ∧
      ∀ token ∈ world'.db .refreshTokens, WasThere world token) ∨
    ∃ request now issued user new, event = .auth request now (some issued) ∧
      user ∈ world'.db .users ∧ issued.IssuedFor settings crypto now user ∧
      (MatchesInactive world.db request ↔ user.isActive = false) ∧
      new.userId = user.id ∧ Created world world' new ∧
      ∀ token ∈ world'.db .refreshTokens, token = new ∨ WasThere world token := by
  by_cases hauth : ∃ request now tokens, event = .auth request now tokens
  · obtain ⟨request, now, tokens, rfl⟩ := hauth
    obtain ⟨createdAt, heffect⟩ := authEffect_of_step hstep
    rcases issued_of_effect heffect with ⟨rfl, hmatches, hholders⟩ |
      ⟨issued, user, draw, kept, rfl, huser, hissued, hkept, htokens, hmatches⟩
    · exact .inl ⟨by simp, hmatches, fun token htoken => exists_of_holders hholders htoken⟩
    · refine .inr ⟨request, now, issued, user, _, rfl, huser, hissued, hmatches, rfl,
        created_of_append (hcoherent.step hstep).sound hkept htokens, fun token htoken => ?_⟩
      rw [htokens] at htoken
      rcases List.mem_append.mp htoken with hmem | hmem
      · exact .inr (exists_of_holders hkept hmem)
      · exact .inl (List.mem_singleton.mp hmem)
  · have hother : ∀ request now tokens, event ≠ .auth request now tokens :=
      fun request now tokens heq => hauth ⟨request, now, tokens, heq⟩
    refine .inl ⟨fun request now issued => hother _ _ _, ?_, fun token htoken =>
      ⟨token, (refreshTokens_of_step hstep hother).subset htoken, rfl, rfl⟩⟩
    cases event with
    | auth => exact absurd rfl (hother _ _ _)
    | authenticated | served | asked | answered | ingesting | notIngested | stored | raised | failed
    | dispatched => exact id

/-- A step issues tokens to an active user only, unless it matches an inactive one. -/
theorem issuesToActive_iff (hcoherent : Coherent world)
    (hstep : Step settings crypto world event world') :
    IssuesToActive settings crypto world event world' ↔ ¬event.MatchesInactive world.db := by
  rcases issued_of_step hcoherent hstep with ⟨hnone, hmatches, hthere⟩ |
    ⟨request, now, issued, user, new, rfl, huser, hissued, hmatches, hnew, hcreated, hthere⟩
  · refine iff_of_true ?_ hmatches
    unfold IssuesToActive
    split
    · exact absurd rfl (hnone _ _ _)
    · exact fun token hcreated => (hthere token hcreated.1).not_created hcreated
  · change _ ↔ ¬MatchesInactive world.db request
    rw [hmatches, Bool.not_eq_false]
    constructor
    · rintro ⟨other, hother, hactive, _, htokensOf⟩
      have hid : user.id = other.id := hnew.symm.trans (htokensOf new hcreated)
      rw [(hcoherent.step hstep).sound.eq_of_key_eq huser hother hid]
      exact hactive
    · intro hactive
      refine ⟨user, huser, hactive, hissued, fun token htoken => ?_⟩
      rcases hthere token htoken.1 with rfl | hold
      · exact hnew
      · exact absurd htoken hold.not_created

/-! ## Deactivated users -/

/-- The user is not active, and its id is not drawn again. -/
structure Deactivated (world : World) (userId : Uuid) : Prop where
  drawn : userId ∈ world.issued
  inactive : ∀ user ∈ world.db .users, user.id = userId → user.isActive = false

theorem deactivated_of_stored (hcoherent : Coherent world) {user : User}
    (huser : user ∈ world.db .users) (hinactive : user.isActive = false) :
    Deactivated world user.id where
  drawn := hcoherent.recorded .users rfl user huser
  inactive := fun other hother hid => by
    rw [hcoherent.sound.eq_of_key_eq hother huser hid]
    exact hinactive

/-- A deactivated user stays so until it is reactivated. -/
theorem Deactivated.step {userId : Uuid} (h : Deactivated world userId)
    (hstep : Step settings crypto world event world') (hevent : ¬event.Reactivates userId) :
    Deactivated world' userId := by
  obtain ⟨hissued, hfresh, _⟩ := started_of_step hstep
  refine ⟨hissued ▸ List.mem_append_right _ h.drawn, fun user' huser' hid => ?_⟩
  rcases users_of_step hstep user' huser' with hdrawn | ⟨user, huser, hsame, hactive⟩
  · exact absurd h.drawn (hfresh userId (hid ▸ hdrawn))
  · rw [← Bool.not_eq_true]
    intro hrevived
    have huserId : user.id = userId := hsame.trans hid
    rcases hactive hrevived with hwas | hreactivated
    · rw [h.inactive user huser huserId] at hwas
      cases hwas
    · exact hevent (huserId ▸ hreactivated)

/-- A careful step creates no tokens for a deactivated user. -/
theorem Deactivated.wasThere {userId : Uuid} (h : Deactivated world' userId)
    (hcoherent : Coherent world) (hstep : Step settings crypto world event world')
    (hcareful : ¬event.MatchesInactive world.db) {token : RefreshToken}
    (htoken : token ∈ world'.db .refreshTokens) (huser : token.userId = userId) :
    WasThere world token := by
  rcases issued_of_step hcoherent hstep with ⟨_, _, hthere⟩ |
    ⟨request, now, issued, user, new, rfl, hmem, _, hmatches, hnew, _, hthere⟩
  · exact hthere token htoken
  · rcases hthere token htoken with rfl | hold
    · have hinactive := h.inactive user hmem (hnew.symm.trans huser)
      exact absurd (hmatches.mpr hinactive) hcareful
    · exact hold

/-- The runs in which no OAuth callback matches an inactive user. -/
abbrev CarefulRuns (settings : Settings) (crypto : Crypto) (start : World) (trace : List Event)
    (last : World) : Prop :=
  Run (fun world event world' =>
    Step settings crypto world event world' ∧ ¬event.MatchesInactive world.db) start trace last

/-- The runs in which tokens are issued to active users only. -/
abbrev IssuingRuns (settings : Settings) (crypto : Crypto) (start : World) (trace : List Event)
    (last : World) : Prop :=
  Run (fun world event world' => Step settings crypto world event world' ∧
    IssuesToActive settings crypto world event world') start trace last

/-- Along a careful run a deactivated user that is not reactivated gets no tokens. -/
theorem Deactivated.run {last : World} {after : List Event} {userId : Uuid}
    (h : Deactivated world userId) (hcoherent : Coherent world)
    (hrun : CarefulRuns settings crypto world after last)
    (hafter : ∀ event ∈ after, ¬event.Reactivates userId) :
    Coherent last ∧ Deactivated last userId ∧
      ∀ token ∈ last.db .refreshTokens, token.userId = userId → WasThere world token := by
  induction hrun with
  | nil => exact ⟨hcoherent, h, fun token htoken _ => ⟨token, htoken, rfl, rfl⟩⟩
  | @snoc _ middle _ event _ hlast ih =>
      obtain ⟨hstep, hcareful⟩ := hlast
      obtain ⟨hmiddle, hdeactivated, hthere⟩ :=
        ih fun event hevent => hafter event (List.mem_append_left _ hevent)
      have hlater := hdeactivated.step hstep
        (hafter event (List.mem_append_right _ List.mem_cons_self))
      refine ⟨hmiddle.step hstep, hlater, fun token htoken huser => ?_⟩
      obtain ⟨between, hbetween, hid, hsame⟩ := hlater.wasThere hmiddle hstep hcareful htoken huser
      obtain ⟨old, hold, hid', hsame'⟩ := hthere between hbetween (hsame.trans huser)
      exact ⟨old, hold, hid'.trans hid, hsame'.trans hsame⟩

/-! ## Who gets tokens -/

/-- The runs in which tokens go to active users only are those in which no OAuth
callback matches an inactive user; in these a user who was deactivated gets no tokens
until reactivated. -/
theorem tokens_onlyToActive {start : World} (hstart : Initial start) :
    (∀ trace last, IssuingRuns settings crypto start trace last ↔
      CarefulRuns settings crypto start trace last) ∧
    ∀ trace world after last, Runs settings crypto start trace world →
      CarefulRuns settings crypto world after last →
      ∀ user ∈ world.db .users, user.isActive = false →
        (∀ event ∈ after, ¬event.Reactivates user.id) →
        ∀ token ∈ last.db .refreshTokens, token.userId = user.id → WasThere world token := by
  refine ⟨fun trace last => ⟨fun hrun => ?_, fun hrun => ?_⟩,
    fun trace world after last hrun hcareful user huser hinactive hafter => ?_⟩
  · refine (hrun.transfer (P := Coherent) hstart.coherent fun middle event last hmiddle hstep => ?_).2
    exact ⟨hmiddle.step hstep.1, hstep.1, (issuesToActive_iff hmiddle hstep.1).mp hstep.2⟩
  · refine (hrun.transfer (P := Coherent) hstart.coherent fun middle event last hmiddle hstep => ?_).2
    exact ⟨hmiddle.step hstep.1, hstep.1, (issuesToActive_iff hmiddle hstep.1).mpr hstep.2⟩
  · have hcoherent := coherent_of_runs hstart hrun
    exact ((deactivated_of_stored hcoherent huser hinactive).run hcoherent hcareful hafter).2.2

/-- A second administrator deactivates the founder of the organization. -/
def deactivatedFounder : List (Time × Action) :=
  [(0, .auth (.signup ⟨"A".toList, "a@x".toList, [], none⟩ [] ⟨1, 2, []⟩ ⟨"first".toList, 3⟩)),
    (0, .serve 1 2 false (.createUser ⟨"c@x".toList, [], none, .admin⟩ 7 [])),
    (0, .serve 1 7 false (.updateUser 2 ⟨none, none, some false⟩))]

/-- Another organization signs up. -/
def laterSignup : AuthRequest :=
  .signup ⟨"B".toList, "b@x".toList, [], none⟩ [] ⟨4, 5, []⟩ ⟨"second".toList, 6⟩

/-- Google tells the address of the founder. -/
def founderIdentity : OAuthIdentity := ⟨.google, "g".toList, some "a@x".toList, none⟩

/-- The founder returns by way of Google. -/
def founderCallback : AuthRequest :=
  .oauthCallback founderIdentity 8 ⟨9, 10, []⟩ ⟨"third".toList, 11⟩

theorem tokens_onlyToActive_laterSignup : ∃ trace world event last,
    performAll {} sampleCrypto emptyWorld deactivatedFounder = some (trace, world) ∧
    perform {} sampleCrypto 0 world (.auth laterSignup) = some (event, last) ∧
    (world.db .refreshTokens).length = 1 ∧ (last.db .refreshTokens).length = 2 ∧
    ∃ user ∈ world.db .users, user.id = 2 ∧ user.isActive = false ∧
      ∀ token ∈ last.db .refreshTokens, token.userId = user.id → WasThere world token := by
  have hevaluate : ((performAll {} sampleCrypto emptyWorld deactivatedFounder).bind fun setup =>
      (perform {} sampleCrypto 0 setup.2 (.auth laterSignup)).map fun later =>
        ((setup.2.db .users).any fun user => user.id == 2 && !user.isActive,
          (setup.2.db .refreshTokens).length, (later.2.db .refreshTokens).length)) =
      some (true, 1, 2) := by decide +kernel
  obtain ⟨⟨trace, world⟩, hsetup, hrest⟩ := Option.bind_eq_some_iff.mp hevaluate
  obtain ⟨⟨event, last⟩, hlater, hfacts⟩ := Option.map_eq_some_iff.mp hrest
  obtain ⟨hany, hcounts⟩ := Prod.mk.inj hfacts
  obtain ⟨hbefore, hafter⟩ := Prod.mk.inj hcounts
  obtain ⟨user, huser, hfounder⟩ := List.any_eq_true.mp hany
  obtain ⟨hid, hinactive⟩ := Bool.and_eq_true_iff.mp hfounder
  obtain ⟨tokens, rfl⟩ := event_of_auth hlater
  refine ⟨trace, world, _, last, hsetup, hlater, hbefore, hafter, user, huser, eq_of_beq hid,
    Bool.not_eq_true' _ ▸ hinactive, ?_⟩
  refine (tokens_onlyToActive initial_emptyWorld).2 trace world _ last (runs_of_performAll hsetup)
    (Run.single ⟨step_of_perform hlater, id⟩) user huser (Bool.not_eq_true' _ ▸ hinactive) ?_
  intro event hevent
  cases List.mem_singleton.mp hevent
  exact id

/-- The founder is deactivated and gets tokens. -/
theorem deactivatedFounder_getsTokens : ∃ trace world event last token,
    performAll {} sampleCrypto emptyWorld deactivatedFounder = some (trace, world) ∧
    perform {} sampleCrypto 0 world (.auth founderCallback) = some (event, last) ∧
    (∀ user ∈ last.db .users, user.id = 2 → user.isActive = false) ∧
    Created world last token ∧ token.userId = 2 ∧
    ¬IssuesToActive {} sampleCrypto world event last := by
  have hevaluate : ((performAll {} sampleCrypto emptyWorld deactivatedFounder).bind fun setup =>
      (perform {} sampleCrypto 0 setup.2 (.auth founderCallback)).map fun later =>
        ((later.2.db .users).all (fun user => user.id != 2 || !user.isActive),
          (setup.2.db .refreshTokens).all (fun token => token.id != 11),
          (later.2.db .refreshTokens).any (fun token => token.id == 11 && token.userId == 2))) =
      some (true, true, true) := by decide +kernel
  obtain ⟨⟨trace, world⟩, hsetup, hrest⟩ := Option.bind_eq_some_iff.mp hevaluate
  obtain ⟨⟨event, last⟩, hlater, hfacts⟩ := Option.map_eq_some_iff.mp hrest
  obtain ⟨husers, htokens⟩ := Prod.mk.inj hfacts
  obtain ⟨hold, hnew⟩ := Prod.mk.inj htokens
  have hinactive : ∀ user ∈ last.db .users, user.id = 2 → user.isActive = false := by
    intro user huser hid
    simpa [hid] using List.all_eq_true.mp husers user huser
  obtain ⟨token, htoken, hsame⟩ := List.any_eq_true.mp hnew
  obtain ⟨htokenId, htokenUser⟩ := Bool.and_eq_true_iff.mp hsame
  have hcreated : Created world last token := by
    refine ⟨htoken, fun old hmem hid => ?_⟩
    simpa [hid, eq_of_beq htokenId] using List.all_eq_true.mp hold old hmem
  refine ⟨trace, world, event, last, token, hsetup, hlater, hinactive, hcreated,
    eq_of_beq htokenUser, ?_⟩
  -- whoever is active is not the user of the token
  obtain ⟨tokens, rfl⟩ := event_of_auth hlater
  cases tokens with
  | none => exact fun hnone => hnone token hcreated
  | some issued =>
      rintro ⟨user, huser, hactive, _, htokensOf⟩
      have hid : user.id = 2 := (htokensOf token hcreated).symm.trans (eq_of_beq htokenUser)
      rw [hinactive user huser hid] at hactive
      cases hactive

/-! ## Accounts linked by address -/

/-- The step links the account of an identity, which was not linked, to a user who was
there before, and issues tokens for the user. -/
structure HandsOver (world world' : World) (identity : OAuthIdentity) (user : User) : Prop where
  stored : user ∈ world.db .users
  unlinked : (world.db .oauthAccounts).find? identity.isLinkedBy = none
  linked : ∃ account ∈ world'.db .oauthAccounts,
    identity.isLinkedBy account = true ∧ account.userId = user.id
  issued : ∃ token, Created world world' token ∧ token.userId = user.id

/-- The account is not linked, and its address is that of a user but not verified. -/
structure MatchesUnverified (db : Database) (payload : ProviderPayload)
    (identity : OAuthIdentity) : Prop where
  unverified : payload.isUnverified = true
  unlinked : (db .oauthAccounts).find? identity.isLinkedBy = none
  matched : ∃ user ∈ db .users, identity.email = some user.email

/-- An account is linked by a new row where it was not linked before. -/
theorem userId_of_newLink {identity : OAuthIdentity} {accounts : List OAuthAccount}
    {linkId userId : Uuid} {createdAt : Time} {account : OAuthAccount}
    (hunlinked : accounts.find? identity.isLinkedBy = none)
    (haccount : account ∈ accounts ++ [newLink identity linkId userId createdAt])
    (hlinks : identity.isLinkedBy account = true) : account.userId = userId := by
  rcases List.mem_append.mp haccount with hold | hnew
  · exact absurd hlinks (List.find?_eq_none.mp hunlinked account hold)
  · rw [List.mem_singleton.mp hnew]
    rfl

theorem isLinkedBy_newLink {identity : OAuthIdentity} {linkId userId : Uuid} {createdAt : Time} :
    identity.isLinkedBy (newLink identity linkId userId createdAt) = true := by
  simp [OAuthIdentity.isLinkedBy, newLink]

/-- A callback hands the account of a user over to the identity only if the provider has
verified its address, unless the identity has the address of a user, is not linked, and
Google says that the address is not verified. -/
theorem handsOver_verified_iff {start : World} {trace : List Event} {payload : ProviderPayload}
    {identity : OAuthIdentity} {linkId : Uuid} {provisioned : ProvisionDraw} {draw : TokenDraw}
    {now : Time} {tokens : Option TokenResponse} (hstart : Initial start)
    (hrun : Runs settings crypto start trace world)
    (hidentity : extractIdentity payload = .ok identity)
    (hstep : Step settings crypto world
      (.auth (.oauthCallback identity linkId provisioned draw) now tokens) world') :
    (∀ user, HandsOver world world' identity user → payload.Verifies user.email) ↔
      ¬MatchesUnverified world.db payload identity := by
  have hcoherent := coherent_of_runs hstart hrun
  obtain ⟨_, hfresh, _⟩ := started_of_step hstep
  obtain ⟨createdAt, heffect⟩ := authEffect_of_step hstep
  have sound := (hcoherent.step hstep).sound
  generalize husers : world'.db .users = users at heffect
  generalize haccounts : world'.db .oauthAccounts = accounts at heffect
  generalize htokens : world'.db .refreshTokens = refreshTokens at heffect
  cases heffect with
  | linked hlinked =>
      refine iff_of_true (fun user h => ?_) fun h => ?_
      · rw [h.unlinked] at hlinked
        cases hlinked
      · rw [h.unlinked] at hlinked
        cases hlinked
  | @matched _ _ _ _ email found issued hunlinked hemail hfound hissued =>
      have hselected := List.find?_some hfound
      have hfoundEmail : found.email = email := eq_of_beq hselected
      have hverifies : payload.Verifies found.email ↔ payload.isUnverified = false := by
        rw [hfoundEmail]
        exact verifies_iff hidentity hemail
      constructor
      · intro hverified hmatches
        have hhandsOver : HandsOver world world' identity found := by
          refine ⟨List.mem_of_find?_eq_some hfound, hunlinked,
            ⟨newLink identity linkId found.id createdAt, ?_, isLinkedBy_newLink, rfl⟩,
            _, created_of_append sound rfl htokens, rfl⟩
          rw [haccounts]
          exact List.mem_append_right _ List.mem_cons_self
        have hflag := hverifies.mp (hverified found hhandsOver)
        rw [hmatches.unverified] at hflag
        cases hflag
      · intro hmatches user h
        obtain ⟨account, haccount, hlinks, hid⟩ := h.linked
        rw [haccounts] at haccount
        have hsame : user.id = found.id :=
          hid.symm.trans (userId_of_newLink hunlinked haccount hlinks)
        obtain rfl : user = found :=
          hcoherent.sound.eq_of_key_eq h.stored (List.mem_of_find?_eq_some hfound) hsame
        refine hverifies.mpr ?_
        rw [← Bool.not_eq_true]
        intro hunverified
        exact hmatches ⟨hunverified, hunlinked, user, h.stored, hfoundEmail.symm ▸ hemail⟩
  | @provisioned _ _ _ _ email newcomer issued hnew hunlinked hemail hnone hissued =>
      refine iff_of_true (fun user h => ?_) fun h => ?_
      · -- the link is to a user whose id was not drawn before
        obtain ⟨account, haccount, hlinks, hid⟩ := h.linked
        rw [haccounts] at haccount
        have hsame : user.id = newcomer.id :=
          hid.symm.trans (userId_of_newLink hunlinked haccount hlinks)
        refine absurd (hcoherent.recorded .users rfl user h.stored) (hfresh _ ?_)
        change user.id ∈ _
        rw [hsame, hnew]
        exact List.mem_cons_of_mem _ List.mem_cons_self
      · obtain ⟨user, huser, hsame⟩ := h.matched
        cases hemail.symm.trans hsame
        exact absurd (beq_self_eq_true user.email) (List.find?_eq_none.mp hnone user huser)

/-- A founder, and a user who was invited. -/
def invitedUser : List (Time × Action) :=
  [(0, .auth (.signup ⟨"A".toList, "a@x".toList, [], none⟩ [] ⟨1, 2, []⟩ ⟨"first".toList, 3⟩)),
    (0, .serve 1 2 false (.createUser ⟨"c@x".toList, [], none, .member⟩ 7 []))]

/-- Google tells the address of the founder, verified or not. -/
def founderPayload (emailVerified : Option Bool) : ProviderPayload :=
  .google ⟨some "g".toList, some "a@x".toList, emailVerified, none⟩

/-- The founder returns by way of Google, and the account is linked. -/
theorem founder_handsOver : ∃ trace world event world',
    performAll {} sampleCrypto emptyWorld invitedUser = some (trace, world) ∧
    perform {} sampleCrypto 0 world (.auth founderCallback) = some (event, world') ∧
    ∃ user, HandsOver world world' founderIdentity user ∧ user.id = 2 ∧
      user.email = "a@x".toList := by
  have hevaluate : ((performAll {} sampleCrypto emptyWorld invitedUser).bind fun setup =>
      (perform {} sampleCrypto 0 setup.2 (.auth founderCallback)).map fun later =>
        ((setup.2.db .users).any (fun user => user.id == 2 && user.email == "a@x".toList),
          (setup.2.db .oauthAccounts).isEmpty,
          (later.2.db .oauthAccounts).any (fun account =>
            founderIdentity.isLinkedBy account && account.userId == 2),
          (setup.2.db .refreshTokens).all (fun token => token.id != 11),
          (later.2.db .refreshTokens).any (fun token => token.id == 11 && token.userId == 2))) =
      some (true, true, true, true, true) := by decide +kernel
  obtain ⟨⟨trace, world⟩, hsetup, hrest⟩ := Option.bind_eq_some_iff.mp hevaluate
  obtain ⟨⟨event, world'⟩, hlater, hfacts⟩ := Option.map_eq_some_iff.mp hrest
  obtain ⟨huser, hrest⟩ := Prod.mk.inj hfacts
  obtain ⟨hempty, hrest⟩ := Prod.mk.inj hrest
  obtain ⟨hlinked, hrest⟩ := Prod.mk.inj hrest
  obtain ⟨hold, hnew⟩ := Prod.mk.inj hrest
  obtain ⟨user, hmem, hfounder⟩ := List.any_eq_true.mp huser
  obtain ⟨hid, hemail⟩ := Bool.and_eq_true_iff.mp hfounder
  obtain ⟨account, haccount, hlinks⟩ := List.any_eq_true.mp hlinked
  obtain ⟨hlinks, haccountUser⟩ := Bool.and_eq_true_iff.mp hlinks
  obtain ⟨token, htoken, hsame⟩ := List.any_eq_true.mp hnew
  obtain ⟨htokenId, htokenUser⟩ := Bool.and_eq_true_iff.mp hsame
  refine ⟨trace, world, event, world', hsetup, hlater, user, ⟨hmem, ?_, ?_, token, ⟨htoken, ?_⟩, ?_⟩,
    eq_of_beq hid, eq_of_beq hemail⟩
  · rw [List.isEmpty_iff.mp hempty]
    rfl
  · exact ⟨account, haccount, hlinks, (eq_of_beq haccountUser).trans (eq_of_beq hid).symm⟩
  · intro old hmem hid
    simpa [hid, eq_of_beq htokenId] using List.all_eq_true.mp hold old hmem
  · exact (eq_of_beq htokenUser).trans (eq_of_beq hid).symm

theorem handsOver_verified_founder : ∃ trace world event world',
    performAll {} sampleCrypto emptyWorld invitedUser = some (trace, world) ∧
    perform {} sampleCrypto 0 world (.auth founderCallback) = some (event, world') ∧
    (∃ user, HandsOver world world' founderIdentity user ∧ user.id = 2) ∧
    ∀ user, HandsOver world world' founderIdentity user →
      (founderPayload (some true)).Verifies user.email := by
  obtain ⟨trace, world, event, world', hsetup, hlater, user, hhandsOver, hid, _⟩ :=
    founder_handsOver
  obtain ⟨tokens, rfl⟩ := event_of_auth hlater
  refine ⟨trace, world, _, world', hsetup, hlater, ⟨user, hhandsOver, hid⟩, ?_⟩
  have hidentity : extractIdentity (founderPayload (some true)) = .ok founderIdentity := rfl
  have hiff := handsOver_verified_iff initial_emptyWorld (runs_of_performAll hsetup) hidentity
    (step_of_perform hlater)
  exact hiff.mpr fun h => absurd h.unverified (by decide)

/-- Google says that the address is not verified, and the account of the founder is
handed over. -/
theorem handsOver_unverified : ∃ trace world event world',
    performAll {} sampleCrypto emptyWorld invitedUser = some (trace, world) ∧
    perform {} sampleCrypto 0 world (.auth founderCallback) = some (event, world') ∧
    extractIdentity (founderPayload (some false)) = .ok founderIdentity ∧
    ∃ user, HandsOver world world' founderIdentity user ∧
      ¬(founderPayload (some false)).Verifies user.email := by
  obtain ⟨trace, world, event, world', hsetup, hlater, user, hhandsOver, _, _⟩ :=
    founder_handsOver
  refine ⟨trace, world, event, world', hsetup, hlater, rfl, user, hhandsOver, ?_⟩
  rintro ⟨_, hverified⟩
  cases hverified

end Platform
