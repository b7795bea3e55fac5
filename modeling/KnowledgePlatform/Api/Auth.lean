import KnowledgePlatform.Api.Deps

/-!
# Sign-up, login and token refresh

The transactions of the authentication router, on the auth role.  Values drawn
at random (ids, raw tokens, suffixes) and readings of the clock are arguments.
-/

open Core Foundations Python Relational

namespace Api

structure TokenResponse where
  accessToken : Str
  refreshToken : Str
  tokenType : Str
  expiresIn : ℕ
  deriving DecidableEq

structure SignupRequest where
  orgName : Str
  email : Str
  password : Str
  fullName : Option Str
  deriving DecidableEq

/-- What an OAuth provider says about an account. -/
structure OAuthIdentity where
  provider : OAuthProvider
  providerAccountId : Str
  email : Option Str
  fullName : Option Str
  deriving DecidableEq

/-- What a request that issues tokens draws: the raw refresh token and the id of
its row. -/
structure TokenDraw where
  raw : Str
  id : Uuid
  deriving DecidableEq

/-- What provisioning a new organization draws. -/
structure ProvisionDraw where
  orgId : Uuid
  userId : Uuid
  suffix : Str
  deriving DecidableEq

/-- The slug of an organization name. -/
def slugify (name : Str) : Str :=
  let keep := fun c : Char => (97 ≤ c.toNat && c.toNat ≤ 122) || (48 ≤ c.toNat && c.toNat ≤ 57)
  let slug := ((hyphenateFrom keep false (name.flatMap lower)).dropWhile (· == '-')).rdropWhile
    (· == '-')
  if slug = [] then "org".toList else slug

/-! ## Tokens -/

/-- The row of a new refresh token. -/
def newRefreshToken (settings : Settings) (crypto : Crypto) (userId : Uuid) (draw : TokenDraw)
    (now createdAt : Time) : RefreshToken where
  id := draw.id
  userId := userId
  tokenHash := (generateRefreshToken crypto draw.raw).2
  expiresAt := now + settings.refreshTokenTtlSeconds * Time.second
  revokedAt := none
  createdAt := createdAt

def issueTokens (settings : Settings) (crypto : Crypto) (user : User) (draw : TokenDraw)
    (now : Time) : Tx TokenResponse := do
  let createdAt ← transactionTime
  add .refreshTokens (newRefreshToken settings crypto user.id draw now createdAt)
  pure {
    accessToken := createAccessToken settings crypto user.id user.orgId user.role now
    refreshToken := (generateRefreshToken crypto draw.raw).1
    tokenType := "bearer".toList
    expiresIn := settings.accessTokenTtlSeconds }

/-- `stored.revoked_at = now` -/
def revokeToken (now : Time) : SetClause schema .refreshTokens where
  set := fun token => { token with revokedAt := some now }
  key_set := fun _ => rfl
  tenant_set := fun _ => rfl
  clash_set := fun _ _ => ⟨rfl, rfl⟩
  ref_set := by simp [schema, rowForeignKeys]

/-- Whether a stored token may be exchanged. -/
def isUsable (stored : RefreshToken) (now : Time) : Bool :=
  stored.revokedAt.isNone && decide (now < stored.expiresAt)

/-! ## Requests -/

/-- Insert an organization and its first administrator. -/
def provision (name slug email : Str) (hashedPassword fullName : Option Str)
    (draw : ProvisionDraw) : Tx User := do
  let createdAt ← transactionTime
  let found ← scalar .organizations fun org => org.slug == slug
  let slug := if found.isSome then slug ++ '-' :: draw.suffix else slug
  add .organizations { id := draw.orgId, name, slug, monthlyBudgetUsd := none, createdAt }
  let user : User := { id := draw.userId, orgId := draw.orgId, email, hashedPassword, fullName,
                       role := .admin, isActive := true, createdAt }
  add .users user
  pure user

/-- `POST /auth/signup`; the hash of the password is salted and so an argument. -/
def signup (settings : Settings) (crypto : Crypto) (body : SignupRequest) (hashedPassword : Str)
    (provisioned : ProvisionDraw) (draw : TokenDraw) (now : Time) : Tx TokenResponse := do
  let existing ← scalar .users fun user => user.email == body.email
  Program.raiseIf (existing.isSome = true) (.http 409 "Email already registered".toList)
  let user ← provision body.orgName (slugify body.orgName) body.email (some hashedPassword)
    body.fullName provisioned
  issueTokens settings crypto user draw now

/-- `POST /auth/login` -/
def login (settings : Settings) (crypto : Crypto) (email password : Str) (draw : TokenDraw)
    (now : Time) : Tx TokenResponse := do
  let found ← scalar .users fun user => user.email == email
  let user ← Program.orRaise (.http 401 "Invalid credentials".toList) <| found.filter fun user =>
    user.hashedPassword.any (crypto.verifyPassword password)
  Program.raiseIf (user.isActive = false) (.http 403 "User is inactive".toList)
  issueTokens settings crypto user draw now

def invalidRefreshToken : Fault := .http 401 "Invalid refresh token".toList

/-- `POST /auth/refresh` -/
def refresh (settings : Settings) (crypto : Crypto) (refreshToken : Str) (draw : TokenDraw)
    (now : Time) : Tx TokenResponse := do
  let found ← scalar .refreshTokens fun token => token.tokenHash == hashSecret crypto refreshToken
  let stored ← Program.orRaise invalidRefreshToken found
  Program.raiseIf (isUsable stored now = false) invalidRefreshToken
  let found ← getById .users stored.userId
  let user ← Program.orRaise invalidRefreshToken found
  Program.raiseIf (user.isActive = false) invalidRefreshToken
  -- rotate: revoke the presented token and issue a fresh pair
  save .refreshTokens stored.id (revokeToken now)
  issueTokens settings crypto user draw now

/-- `POST /auth/logout` -/
def logout (crypto : Crypto) (refreshToken : Str) (now : Time) : Tx Unit := do
  let found ← scalar .refreshTokens fun token => token.tokenHash == hashSecret crypto refreshToken
  match found.filter fun stored => stored.revokedAt.isNone with
  | none => pure ()
  | some stored => save .refreshTokens stored.id (revokeToken now)

/-- The user with the address of an identity that is not linked yet; a first login
provisions an organization. -/
def userForIdentity (identity : OAuthIdentity) (email : Str) (provisioned : ProvisionDraw) :
    Tx User := do
  let existing ← scalar .users fun user => user.email == email
  match existing with
  | some user => pure user
  | none =>
      let localPart := email.takeWhile (· != '@')
      let fullName := identity.fullName.filter (· != [])
      provision (fullName.getD (localPart ++ "'s Organization".toList))
        (slugify (fullName.getD localPart)) email none identity.fullName provisioned

/-- `GET /auth/oauth/{provider}/callback`, once the provider has told the
identity. -/
def oauthCallback (settings : Settings) (crypto : Crypto) (identity : OAuthIdentity)
    (linkId : Uuid) (provisioned : ProvisionDraw) (draw : TokenDraw) (now : Time) :
    Tx TokenResponse := do
  let linked ← scalar .oauthAccounts fun account =>
    account.provider == identity.provider && account.providerAccountId == identity.providerAccountId
  match linked with
  | some account => do
      -- an already linked account logs in
      let found ← getById .users account.userId
      let user ← Program.orRaise (.http 403 "User is inactive".toList) <| found.filter fun user =>
        user.isActive
      issueTokens settings crypto user draw now
  | none => do
      let email ← Program.orRaise
        (.http 400 "OAuth provider did not return a usable email".toList) identity.email
      let user ← userForIdentity identity email provisioned
      let createdAt ← transactionTime
      add .oauthAccounts { id := linkId, userId := user.id, provider := identity.provider,
                           providerAccountId := identity.providerAccountId, createdAt }
      issueTokens settings crypto user draw now

/-! ## What the requests write -/

/-- A request to the authentication router, with what it draws at random. -/
inductive AuthRequest
  | signup (body : SignupRequest) (hashedPassword : Str) (provisioned : ProvisionDraw)
      (draw : TokenDraw)
  | login (email password : Str) (draw : TokenDraw)
  | refresh (refreshToken : Str) (draw : TokenDraw)
  | logout (refreshToken : Str)
  | oauthCallback (identity : OAuthIdentity) (linkId : Uuid) (provisioned : ProvisionDraw)
      (draw : TokenDraw)

namespace AuthRequest

/-- The transaction of a request; logging out issues no tokens. -/
def run (settings : Settings) (crypto : Crypto) (now : Time) :
    AuthRequest → Tx (Option TokenResponse)
  | .signup body hashedPassword provisioned draw =>
      some <$> Api.signup settings crypto body hashedPassword provisioned draw now
  | .login email password draw => some <$> Api.login settings crypto email password draw now
  | .refresh refreshToken draw => some <$> Api.refresh settings crypto refreshToken draw now
  | .logout refreshToken => (fun _ => none) <$> Api.logout crypto refreshToken now
  | .oauthCallback identity linkId provisioned draw =>
      some <$> Api.oauthCallback settings crypto identity linkId provisioned draw now

/-- The ids drawn for an organization and a user. -/
def draws : AuthRequest → List Uuid
  | .signup _ _ provisioned _ | .oauthCallback _ _ provisioned _ =>
      [provisioned.orgId, provisioned.userId]
  | .login .. | .refresh .. | .logout _ => []

/-- The organization that is founded, should the request sign somebody up. -/
def founds : AuthRequest → Option Uuid
  | .signup _ _ provisioned _ | .oauthCallback _ _ provisioned _ => some provisioned.orgId
  | .login .. | .refresh .. | .logout _ => none

@[simp] theorem head?_draws (request : AuthRequest) : request.draws.head? = request.founds := by
  cases request <;> rfl

end AuthRequest

/-- The statements of the authentication router: it inserts an organization and its
user, links and tokens, and revokes tokens. -/
inductive AuthWrite (draws : List Uuid) : Write schema → Prop
  | organization (row : Organization) : draws.head? = some row.id →
      AuthWrite draws (.insert .organizations row)
  | user (row : User) : row.id ∈ draws → draws.head? = some row.orgId →
      AuthWrite draws (.insert .users row)
  | link (row : OAuthAccount) : AuthWrite draws (.insert .oauthAccounts row)
  | token (row : RefreshToken) : AuthWrite draws (.insert .refreshTokens row)
  | revoke (selected : RefreshToken → Bool) (now : Time) :
      AuthWrite draws (.update .refreshTokens selected (revokeToken now))

/-- The access token of a response was issued for this user. -/
def TokenResponse.IssuedFor (settings : Settings) (crypto : Crypto) (now : Time) (user : User)
    (tokens : TokenResponse) : Prop :=
  tokens.accessToken = createAccessToken settings crypto user.id user.orgId user.role now

section Spec

variable {conn conn' : Conn} {settings : Settings} {crypto : Crypto} {now : Time}
  {draws : List Uuid}

theorem issueTokens_eq_ok {user : User} {draw : TokenDraw} {tokens : TokenResponse}
    (h : (issueTokens settings crypto user draw now).Runs conn tokens conn') :
    tokens.IssuedFor settings crypto now user ∧ conn.Wrote
      [.insert .refreshTokens (newRefreshToken settings crypto user.id draw now conn.now)] conn' := by
  simp only [issueTokens, Program.runs_bind, runs_transactionTime, runs_add,
    Program.runs_pure] at h
  obtain ⟨_, _, ⟨rfl, rfl⟩, _, _, hwrote, rfl, rfl⟩ := h
  exact ⟨rfl, hwrote⟩

/-- What a request of the authentication router leaves behind: tokens, if any,
for a stored user. -/
def AuthAnswered (settings : Settings) (crypto : Crypto) (now : Time) (draws : List Uuid)
    (conn : Conn) (tokens : TokenResponse) (conn' : Conn) : Prop :=
  (∃ writes, (∀ write ∈ writes, AuthWrite draws write) ∧ conn.Wrote writes conn') ∧
    ∃ user ∈ conn'.db .users, tokens.IssuedFor settings crypto now user

/-- Tokens are issued last, for a user stored by then. -/
theorem authAnswered_of_issueTokens {middle : Conn} {user : User} {draw : TokenDraw}
    {tokens : TokenResponse} {writes : List (Write schema)}
    (hwrites : ∀ write ∈ writes, AuthWrite draws write) (hwrote : conn.Wrote writes middle)
    (huser : user ∈ middle.db .users)
    (h : (issueTokens settings crypto user draw now).Runs middle tokens conn') :
    AuthAnswered settings crypto now draws conn tokens conn' := by
  obtain ⟨hissued, htoken⟩ := issueTokens_eq_ok h
  refine ⟨⟨_, fun write hwrite => ?_, hwrote.append htoken⟩, user, ?_, hissued⟩
  · rcases List.mem_append.mp hwrite with hbefore | hlast
    · exact hwrites write hbefore
    · cases List.mem_singleton.mp hlast
      exact .token _
  · rw [htoken.insert.1, Database.insert_of_ne _ (by decide)]
    exact huser

theorem provision_eq_ok {name slug email : Str} {hashedPassword fullName : Option Str}
    {draw : ProvisionDraw} {user : User}
    (h : (provision name slug email hashedPassword fullName draw).Runs conn user conn') :
    user ∈ conn'.db .users ∧ ∃ writes,
      (∀ write ∈ writes, AuthWrite [draw.orgId, draw.userId] write) ∧ conn.Wrote writes conn' := by
  simp only [provision, Program.runs_bind, runs_transactionTime, runs_add, Program.runs_pure] at h
  obtain ⟨_, _, ⟨rfl, rfl⟩, _, _, hslug, _, _, horg, _, _, huser, rfl, rfl⟩ := h
  obtain ⟨rfl, _⟩ := of_runs_scalar hslug
  refine ⟨?_, _, fun write hwrite => ?_, horg.append huser⟩
  · rw [huser.insert.1, Database.insert_self]
    exact List.mem_append_right _ List.mem_cons_self
  · simp only [List.cons_append, List.nil_append, List.mem_cons, List.not_mem_nil, or_false]
      at hwrite
    rcases hwrite with rfl | rfl
    · exact .organization _ rfl
    · exact .user _ (by simp) rfl

theorem signup_eq_ok {body : SignupRequest} {hashedPassword : Str} {provisioned : ProvisionDraw}
    {draw : TokenDraw} {tokens : TokenResponse}
    (h : (signup settings crypto body hashedPassword provisioned draw now).Runs conn tokens conn') :
    AuthAnswered settings crypto now [provisioned.orgId, provisioned.userId] conn tokens conn' := by
  simp only [signup, Program.runs_bind, Program.runs_raiseIf] at h
  obtain ⟨_, _, hexisting, _, _, ⟨_, rfl⟩, user, middle, hprovision, hissue⟩ := h
  obtain ⟨rfl, _⟩ := of_runs_scalar hexisting
  obtain ⟨huser, writes, hwrites, hwrote⟩ := provision_eq_ok hprovision
  exact authAnswered_of_issueTokens hwrites hwrote huser hissue

theorem login_eq_ok {email password : Str} {draw : TokenDraw} {tokens : TokenResponse}
    (h : (login settings crypto email password draw now).Runs conn tokens conn') :
    AuthAnswered settings crypto now [] conn tokens conn' := by
  simp only [login, Program.runs_bind, Program.runs_orRaise, Program.runs_raiseIf] at h
  obtain ⟨found, _, hfound, user, _, ⟨huser, rfl⟩, _, _, ⟨_, rfl⟩, hissue⟩ := h
  obtain ⟨rfl, hrow⟩ := of_runs_scalar hfound
  have hmem := (hrow user (Option.filter_eq_some_iff.mp huser).1).1
  exact authAnswered_of_issueTokens (fun _ h => absurd h List.not_mem_nil) (Conn.wrote_nil.mpr rfl)
    hmem hissue

theorem refresh_eq_ok {refreshToken : Str} {draw : TokenDraw} {tokens : TokenResponse}
    (h : (refresh settings crypto refreshToken draw now).Runs conn tokens conn') :
    AuthAnswered settings crypto now [] conn tokens conn' := by
  simp only [refresh, Program.runs_bind, Program.runs_orRaise, Program.runs_raiseIf,
    runs_save] at h
  obtain ⟨_, _, hstored, stored, _, ⟨rfl, rfl⟩, _, _, ⟨_, rfl⟩, _, _, hfound, user, _, ⟨rfl, rfl⟩, _,
    _, ⟨_, rfl⟩, _, middle, hrevoke, hissue⟩ := h
  obtain ⟨rfl, _⟩ := of_runs_scalar hstored
  obtain ⟨rfl, hrow⟩ := of_runs_getById hfound
  refine authAnswered_of_issueTokens (fun write hwrite => ?_) hrevoke ?_ hissue
  · cases List.mem_singleton.mp hwrite
    exact .revoke _ now
  · rw [hrevoke.update.2, Database.update_of_ne _ (by decide)]
    exact (hrow user rfl).1

theorem logout_eq_ok {refreshToken : Str} {result : Unit}
    (h : (logout crypto refreshToken now).Runs conn result conn') :
    ∃ writes, (∀ write ∈ writes, AuthWrite [] write) ∧ conn.Wrote writes conn' := by
  simp only [logout, Program.runs_bind] at h
  obtain ⟨found, _, hfound, h⟩ := h
  obtain ⟨rfl, _⟩ := of_runs_scalar hfound
  split at h
  · exact ⟨[], fun _ h => absurd h List.not_mem_nil,
      Conn.wrote_nil.mpr (Program.runs_pure.mp h).2⟩
  · refine ⟨_, fun write hwrite => ?_, runs_save.mp h⟩
    cases List.mem_singleton.mp hwrite
    exact .revoke _ now

theorem userForIdentity_eq_ok {identity : OAuthIdentity} {email : Str}
    {provisioned : ProvisionDraw} {user : User}
    (h : (userForIdentity identity email provisioned).Runs conn user conn') :
    user ∈ conn'.db .users ∧ ∃ writes,
      (∀ write ∈ writes, AuthWrite [provisioned.orgId, provisioned.userId] write) ∧
        conn.Wrote writes conn' := by
  simp only [userForIdentity, Program.runs_bind] at h
  obtain ⟨existing, _, hexisting, h⟩ := h
  obtain ⟨rfl, hrow⟩ := of_runs_scalar hexisting
  cases existing with
  | some found =>
      obtain ⟨rfl, rfl⟩ := Program.runs_pure.mp h
      exact ⟨(hrow found rfl).1, [], fun _ h => absurd h List.not_mem_nil, Conn.wrote_nil.mpr rfl⟩
  | none => exact provision_eq_ok h

theorem oauthCallback_eq_ok {identity : OAuthIdentity} {linkId : Uuid}
    {provisioned : ProvisionDraw} {draw : TokenDraw} {tokens : TokenResponse}
    (h : (oauthCallback settings crypto identity linkId provisioned draw now).Runs conn tokens
      conn') :
    AuthAnswered settings crypto now [provisioned.orgId, provisioned.userId] conn tokens conn' := by
  simp only [oauthCallback, Program.runs_bind] at h
  obtain ⟨linked, _, hlinked, h⟩ := h
  obtain ⟨rfl, _⟩ := of_runs_scalar hlinked
  cases linked with
  | some account =>
      simp only [Program.runs_bind, Program.runs_orRaise] at h
      obtain ⟨found, _, hfound, user, _, ⟨huser, rfl⟩, hissue⟩ := h
      obtain ⟨rfl, hrow⟩ := of_runs_getById hfound
      have hmem := (hrow user (Option.filter_eq_some_iff.mp huser).1).1
      exact authAnswered_of_issueTokens (fun _ h => absurd h List.not_mem_nil)
        (Conn.wrote_nil.mpr rfl) hmem hissue
  | none =>
      simp only [Program.runs_bind, Program.runs_orRaise, runs_transactionTime, runs_add] at h
      obtain ⟨email, _, ⟨_, rfl⟩, user, _, hidentity, _, _, ⟨rfl, rfl⟩, _, _, hlink, hissue⟩ := h
      obtain ⟨huser, writes, hwrites, hwrote⟩ := userForIdentity_eq_ok hidentity
      refine authAnswered_of_issueTokens (fun write hwrite => ?_) (hwrote.append hlink) ?_ hissue
      · rcases List.mem_append.mp hwrite with hbefore | hlast
        · exact hwrites write hbefore
        · cases List.mem_singleton.mp hlast
          exact .link _
      · rw [hlink.insert.1, Database.insert_of_ne _ (by decide)]
        exact huser

/-- What every request of the authentication router writes, and for whom it
issues tokens. -/
theorem AuthRequest.run_eq_ok {request : AuthRequest} {tokens : Option TokenResponse}
    (h : (request.run settings crypto now).Runs conn tokens conn') :
    (∃ writes, (∀ write ∈ writes, AuthWrite request.draws write) ∧ conn.Wrote writes conn') ∧
      ∀ issued, tokens = some issued →
        ∃ user ∈ conn'.db .users, issued.IssuedFor settings crypto now user := by
  cases request with
  | signup body hashedPassword provisioned draw =>
      obtain ⟨issued, hrun, rfl⟩ := Program.runs_map.mp h
      obtain ⟨hwrites, huser⟩ := signup_eq_ok hrun
      exact ⟨hwrites, fun _ hissued => Option.some.inj hissued ▸ huser⟩
  | login email password draw =>
      obtain ⟨issued, hrun, rfl⟩ := Program.runs_map.mp h
      obtain ⟨hwrites, huser⟩ := login_eq_ok hrun
      exact ⟨hwrites, fun _ hissued => Option.some.inj hissued ▸ huser⟩
  | refresh refreshToken draw =>
      obtain ⟨issued, hrun, rfl⟩ := Program.runs_map.mp h
      obtain ⟨hwrites, huser⟩ := refresh_eq_ok hrun
      exact ⟨hwrites, fun _ hissued => Option.some.inj hissued ▸ huser⟩
  | logout refreshToken =>
      obtain ⟨_, hrun, rfl⟩ := Program.runs_map.mp h
      exact ⟨logout_eq_ok hrun, fun _ hissued => by cases hissued⟩
  | oauthCallback identity linkId provisioned draw =>
      obtain ⟨issued, hrun, rfl⟩ := Program.runs_map.mp h
      obtain ⟨hwrites, huser⟩ := oauthCallback_eq_ok hrun
      exact ⟨hwrites, fun _ hissued => Option.some.inj hissued ▸ huser⟩

end Spec

end Api
