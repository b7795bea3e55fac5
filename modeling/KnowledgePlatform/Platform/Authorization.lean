import KnowledgePlatform.Platform.ApiKeys

/-!
# Authorization follows the database

A request is authenticated in two parts.  First its credential is resolved to
an organization and a user id: a token by its claims, an API key by a lookup in
a transaction of its own.  Then, in the transaction of the request and possibly
after other transactions have committed, the user is read again, and the guard
of the endpoint looks at the role found there.

So the role in a token does not matter.  What does matter is that a credential
resolves to nobody but the user it was issued to, which for keys is a property
of whole runs (`Platform.ApiKeys`).
-/

open Api Core Foundations Python Relational

namespace Platform

variable {settings : Settings} {crypto : Crypto}

/-! ## Credentials -/

/-- The credential of the request resolves to this organization and this user;
the last argument tells keys from tokens. -/
inductive Resolves (settings : Settings) (crypto : Crypto) (db : Database) (now : Time)
    (headers : Headers) : Uuid → Uuid → Bool → Prop
  | bearer {token : Str} {orgId userId : Uuid} :
      headers.credential = some (.bearer token) →
      resolveBearer crypto now token = some (orgId, userId) →
      Resolves settings crypto db now headers orgId userId false
  | apiKey {rawKey : Str} {orgId : Uuid} {creator : User} :
      headers.credential = some (.apiKey rawKey) →
      Accepts settings crypto db now rawKey orgId creator →
      Resolves settings crypto db now headers orgId creator.id true

/-- The credential was issued in this organization to this user. -/
inductive IssuedTo (settings : Settings) (crypto : Crypto) (trace : List Event) :
    Credential → Uuid → Uuid → Prop
  | token {request : AuthRequest} {issuedAt : Time} {tokens : TokenResponse} {orgId userId : Uuid}
      {role : UserRole} :
      .auth request issuedAt (some tokens) ∈ trace →
      tokens.accessToken = createAccessToken settings crypto userId orgId role issuedAt →
      IssuedTo settings crypto trace (.bearer tokens.accessToken) orgId userId
  | key {created : ApiKeyCreated} {userId : Uuid} :
      created ∈ issuedKeys trace → created.row.createdByUserId = some userId →
      IssuedTo settings crypto trace (.apiKey created.key) created.row.orgId userId

/-- A token resolves to whom its claims name. -/
theorem resolveBearer_createAccessToken {now issuedAt : Time} {orgId userId holderOrg holder : Uuid}
    {role : UserRole}
    (hdecode : ∀ now claims decoded, crypto.decode now (crypto.encode claims) = some decoded →
      decoded = claims)
    (h : resolveBearer crypto now (createAccessToken settings crypto holder holderOrg role
      issuedAt) = some (orgId, userId)) : holderOrg = orgId ∧ holder = userId := by
  simp only [resolveBearer, decodeAccessToken, Option.bind_eq_bind, Option.bind_eq_some_iff] at h
  obtain ⟨claims, ⟨decoded, hdecoded, haccess⟩, found, ⟨sub, hsub, huser⟩, foundOrg,
    ⟨org, horg, hfound⟩, heq⟩ := h
  obtain rfl := hdecode _ _ _ hdecoded
  split at haccess
  · cases haccess
    have hsubject : holder.str = sub := Option.some.inj hsub
    have horganization : holderOrg.str = org := Option.some.inj horg
    rw [← hsubject, Uuid.parse_str] at huser
    rw [← horganization, Uuid.parse_str] at hfound
    obtain ⟨hsameOrg, hsameUser⟩ := Prod.mk.inj (Option.some.inj heq)
    exact ⟨(Option.some.inj hfound).trans hsameOrg, (Option.some.inj huser).trans hsameUser⟩
  · cases haccess

/-- An API key resolves to its creator. -/
theorem accepts_issued {secrets : Set Str} {world : World} {trace : List Event} {now : Time}
    {orgId holder : Uuid} {creator : User} {created : ApiKeyCreated} (hcoherent : Coherent world)
    (hissued : KeysIssued settings crypto secrets trace world.db)
    (hcreated : created ∈ issuedKeys trace) (hholder : created.row.createdByUserId = some holder)
    (haccepts : Accepts settings crypto world.db now created.key orgId creator) :
    created.row.orgId = orgId ∧ holder = creator.id := by
  obtain ⟨began, conn', hresolve⟩ := haccepts
  obtain ⟨key, hkey, secret, hparse, _, _, _, hcreator, _, _, horg, _⟩ :=
    resolveApiKey_eq_ok hresolve
  obtain ⟨row, hrow, hsame⟩ := hissued.stored created hcreated
  have hhandle := (hissued.generated created hcreated).parses hparse
  have heq : key = row :=
    eq_of_keyPrefix_eq hcoherent.sound hrow hkey (hhandle.trans hsame.keyPrefix.symm)
  subst heq
  refine ⟨hsame.orgId.symm.trans horg, ?_⟩
  rcases hsame.creator with hkept | hnone
  · exact Option.some.inj (hholder.symm.trans (hkept.symm.trans hcreator))
  · rw [hcreator] at hnone
    cases hnone

/-- A credential resolves to nobody but the user it was issued to. -/
theorem resolves_issued {secrets : Set Str} {world : World} {trace : List Event} {now : Time}
    {headers : Headers} {credential : Credential} {orgId userId holderOrg holder : Uuid}
    {viaApiKey : Bool} (hcoherent : Coherent world)
    (hkeys : KeysIssued settings crypto secrets trace world.db)
    (hdecode : ∀ now claims decoded, crypto.decode now (crypto.encode claims) = some decoded →
      decoded = claims)
    (hpresented : headers.credential = some credential)
    (hissued : IssuedTo settings crypto trace credential holderOrg holder)
    (hresolves : Resolves settings crypto world.db now headers orgId userId viaApiKey) :
    holderOrg = orgId ∧ holder = userId := by
  cases hresolves with
  | bearer hcredential hbearer =>
      rw [hpresented] at hcredential
      cases hissued with
      | token _ htoken =>
          cases hcredential
          rw [htoken] at hbearer
          exact resolveBearer_createAccessToken hdecode hbearer
      | key => cases hcredential
  | apiKey hcredential haccepts =>
      rw [hpresented] at hcredential
      cases hissued with
      | token => cases hcredential
      | key hcreated hholder =>
          cases hcredential
          exact accepts_issued hcoherent hkeys hcreated hholder haccepts

/-! ## Guards -/

/-- The user may pass the guard as the database is now: stored under this id,
active, of this organization, and of one of the roles. -/
structure MayPass (roles : List UserRole) (orgId userId : Uuid) (db : Database) (user : User) :
    Prop where
  stored : user ∈ db .users
  userId : user.id = userId
  active : user.isActive = true
  orgId : user.orgId = orgId
  role : user.role ∈ roles

/-- Whoever passes a guard may pass it as the database is when the user is read,
which is some time after the credential was resolved.  So a credential issued to
a user who may not pass now does not get past the guard, whenever it was issued
and whatever its claims say. -/
theorem authorization_followsDatabase {secrets : Set Str} {start middle world : World}
    {before between : List Event} (hstart : Initial start) (hempty : start.db .apiKeys = [])
    (hdraws : ∀ event ∈ before, event.DrawsFrom secrets)
    (hdecode : ∀ now claims decoded, crypto.decode now (crypto.encode claims) = some decoded →
      decoded = claims)
    (hbefore : Runs settings crypto start before middle)
    (hbetween : Runs settings crypto middle between world)
    {now : Time} {headers : Headers} {orgId userId : Uuid} {viaApiKey : Bool}
    (hresolves : Resolves settings crypto middle.db now headers orgId userId viaApiKey)
    (roles : List UserRole) :
    (∀ began principal conn', (guardPrincipal (some roles) orgId userId viaApiKey).Runs
        (.start .appUser began world.db) principal conn' →
      conn'.currentOrg = some orgId ∧ MayPass roles orgId userId world.db principal.user ∧
        ∀ user ∈ world.db .users, user.id = userId → user = principal.user) ∧
    ∀ credential holderOrg holder, headers.credential = some credential →
      IssuedTo settings crypto before credential holderOrg holder →
      (∀ user, ¬MayPass roles holderOrg holder world.db user) →
      ∀ began principal conn', ¬(guardPrincipal (some roles) orgId userId viaApiKey).Runs
        (.start .appUser began world.db) principal conn' := by
  have hcoherent := coherent_of_runs hstart hbefore
  have hlast := coherent_of_runs hstart (hbefore.append hbetween)
  have hpass : ∀ began principal conn', (guardPrincipal (some roles) orgId userId viaApiKey).Runs
      (.start .appUser began world.db) principal conn' →
      conn'.currentOrg = some orgId ∧ MayPass roles orgId userId world.db principal.user := by
    intro began principal conn' hguard
    obtain ⟨rfl, hadmitted⟩ := guardPrincipal_eq_ok hguard
    exact ⟨rfl, hadmitted.stored, hadmitted.userId, hadmitted.active, hadmitted.member,
      hadmitted.allowed roles rfl⟩
  refine ⟨fun began principal conn' hguard => ?_,
    fun credential holderOrg holder hpresented hissued hmay began principal conn' hguard => ?_⟩
  · obtain ⟨hbound, hmay⟩ := hpass began principal conn' hguard
    refine ⟨hbound, hmay, fun user huser hid => ?_⟩
    exact hlast.sound.eq_of_key_eq huser hmay.stored (hid.trans hmay.userId.symm)
  · obtain ⟨rfl, rfl⟩ := resolves_issued hcoherent (keysIssued_of_runs hempty hdraws hbefore)
      hdecode hpresented hissued hresolves
    exact hmay principal.user (hpass began principal conn' hguard).2

/-- The claims of the administrator of the sample run. -/
def sampleClaims : Claims := accessClaims {} 2 1 .admin 0

/-- These claims, signed with the default secret. -/
def sampleToken : Str :=
  ["eyJhbGciOiJIUzI", "1NiIsInR5cCI6Ik", "pXVCJ9.eyJzdWIi", "OiIwMDAwMDAwMC0",
    "wMDAwLTAwMDAtMD", "AwMC0wMDAwMDAwM", "DAwMDIiLCJvcmci", "OiIwMDAwMDAwMC0",
    "wMDAwLTAwMDAtMD", "AwMC0wMDAwMDAwM", "DAwMDEiLCJyb2xl", "IjoiYWRtaW4iLCJ",
    "0eXBlIjoiYWNjZX", "NzIiwiaWF0IjowL", "CJleHAiOjkwMH0.", "NzXcE9RmmnsoDNe",
    "rdDwOaI2EKLmqTZ", "LEVSQL0Vv_Tik"].flatMap String.toList

/-- Library functions that know this token, until it expires. -/
def tokenCrypto : Crypto where
  sha256 := sampleCrypto.sha256
  verifyPassword := fun _ _ => false
  encode := fun claims => if claims = sampleClaims then sampleToken else []
  decode := fun now token =>
    if token = sampleToken ∧ now < 900 * Time.second then some sampleClaims else none

theorem decode_tokenCrypto {now : Time} {claims decoded : Claims}
    (h : tokenCrypto.decode now (tokenCrypto.encode claims) = some decoded) : decoded = claims := by
  simp only [tokenCrypto, Option.ite_none_right_eq_some] at h
  obtain ⟨⟨htoken, _⟩, hsample⟩ := h
  split at htoken
  · next hclaims => rw [hclaims, ← Option.some.inj hsample]
  · exact absurd htoken (by decide +kernel)

/-- The access token a step returned, and when. -/
def Event.token : Event → Option (Time × Str)
  | .auth _ now (some tokens) => some (now, tokens.accessToken)
  | _ => none

theorem issuedTo_of_token {trace : List Event} {issuedAt : Time} {orgId userId : Uuid}
    {role : UserRole} (h : (issuedAt, createAccessToken settings crypto userId orgId role issuedAt) ∈
      trace.filterMap Event.token) :
    IssuedTo settings crypto trace
      (.bearer (createAccessToken settings crypto userId orgId role issuedAt)) orgId userId := by
  obtain ⟨event, hevent, htoken⟩ := List.mem_filterMap.mp h
  unfold Event.token at htoken
  split at htoken
  · next request now tokens =>
      obtain ⟨rfl, hsame⟩ := Prod.mk.inj (Option.some.inj htoken)
      rw [← hsame]
      exact .token hevent hsame
  · cases htoken

/-- An administrator signs up and creates a second one. -/
def twoAdmins : List (Time × Action) :=
  [(0, .auth (.signup ⟨"A".toList, "a@x".toList, [], none⟩ [] ⟨1, 2, []⟩ ⟨"first".toList, 3⟩)),
    (0, .serve 1 2 false (.createUser ⟨"b@x".toList, [], none, .admin⟩ 7 []))]

/-- The second administrator demotes the first. -/
def demotingAdmin : List (Time × Action) :=
  [(0, .serve 1 7 false (.updateUser 2 ⟨none, some .readOnly, none⟩))]

/-- The token still names an administrator, but does not get past the guard. -/
theorem authorization_followsDatabase_demoted : ∃ before middle between world,
    performAll {} tokenCrypto emptyWorld twoAdmins = some (before, middle) ∧
    performAll {} tokenCrypto middle demotingAdmin = some (between, world) ∧
    Resolves {} tokenCrypto middle.db 60 ⟨some sampleToken, none⟩ 1 2 false ∧
    (transact .appUser 60 middle.db (guardPrincipal (some [.admin]) 1 2 false)).isSome = true ∧
    ∀ began principal conn', ¬(guardPrincipal (some [.admin]) 1 2 false).Runs
      (.start .appUser began world.db) principal conn' := by
  have hevaluate : ((performAll {} tokenCrypto emptyWorld twoAdmins).bind fun setup =>
      (performAll {} tokenCrypto setup.2 demotingAdmin).map fun demoted =>
        (setup.1.all Event.drawsSample, setup.1.filterMap Event.token,
          (demoted.2.db .users).all fun user => user.id != 2 || user.role == .readOnly,
          (transact .appUser 60 setup.2.db (guardPrincipal (some [.admin]) 1 2 false)).isSome)) =
      some (true, [(0, createAccessToken {} tokenCrypto 2 1 .admin 0)], true, true) := by
    decide +kernel
  obtain ⟨⟨before, middle⟩, hsetup, hrest⟩ := Option.bind_eq_some_iff.mp hevaluate
  obtain ⟨⟨between, world⟩, hdemote, hfacts⟩ := Option.map_eq_some_iff.mp hrest
  simp only [Prod.mk.injEq] at hfacts
  obtain ⟨hsample, htokens, hdemoted, hpasses⟩ := hfacts
  have htoken : createAccessToken {} tokenCrypto 2 1 .admin 0 = sampleToken := by decide +kernel
  have hpresented : (⟨some sampleToken, none⟩ : Headers).credential =
      some (.bearer sampleToken) := by decide +kernel
  have hbearer : resolveBearer tokenCrypto 60 sampleToken = some (1, 2) := by decide +kernel
  have hissued : IssuedTo {} tokenCrypto before
      (.bearer (createAccessToken {} tokenCrypto 2 1 .admin 0)) 1 2 := by
    refine issuedTo_of_token ?_
    rw [htokens]
    exact List.mem_singleton_self _
  rw [htoken] at hissued
  have hresolves := @Resolves.bearer {} tokenCrypto middle.db 60 _ _ _ _ hpresented hbearer
  obtain ⟨_, hnever⟩ := authorization_followsDatabase initial_emptyWorld rfl
    (fun event hevent => drawsFrom_of_drawsSample (List.all_eq_true.mp hsample event hevent))
    (fun _ _ _ => decode_tokenCrypto) (runs_of_performAll hsetup) (runs_of_performAll hdemote)
    hresolves [.admin]
  refine ⟨before, middle, between, world, hsetup, hdemote, hresolves, hpasses,
    hnever _ 1 2 hpresented hissued ?_⟩
  rintro user ⟨hstored, hid, _, _, hrole⟩
  have hreadOnly := List.all_eq_true.mp hdemoted user hstored
  simp only [hid, bne_self_eq_false, Bool.false_or, beq_iff_eq] at hreadOnly
  rw [hreadOnly] at hrole
  exact absurd hrole (by decide)

end Platform
