import KnowledgePlatform.Api.Auth

/-!
# What a request for tokens does

A request of the authentication router issues tokens for one user, and the branches
of the router differ in which user this is and in what was checked of them.
`AuthEffect` lists the branches with what they found in the database and what they
add to the users, the linked accounts and the refresh tokens;
`AuthRequest.effect_of_run` says that there are no others.
-/

open Core Foundations Python Relational

namespace Api

/-- The first administrator of a new organization. -/
def firstAdmin (email : Str) (hashedPassword fullName : Option Str) (draw : ProvisionDraw)
    (createdAt : Time) : User where
  id := draw.userId
  orgId := draw.orgId
  email := email
  hashedPassword := hashedPassword
  fullName := fullName
  role := .admin
  isActive := true
  createdAt := createdAt

/-- The row that links the account of an identity to a user. -/
def newLink (identity : OAuthIdentity) (linkId userId : Uuid) (createdAt : Time) :
    OAuthAccount where
  id := linkId
  userId := userId
  provider := identity.provider
  providerAccountId := identity.providerAccountId
  createdAt := createdAt

/-- The account of the identity is linked by this row. -/
def OAuthIdentity.isLinkedBy (identity : OAuthIdentity) (account : OAuthAccount) : Bool :=
  account.provider == identity.provider && account.providerAccountId == identity.providerAccountId

/-- The refresh tokens after one of them was revoked. -/
def revokeStored (stored : RefreshToken) (now : Time) (tokens : List RefreshToken) :
    List RefreshToken :=
  tokens.map fun token => if token.id == stored.id then (revokeToken now).set token else token

/-- The branches of the authentication router: what a request found, and the users,
linked accounts and refresh tokens it leaves. -/
inductive AuthEffect (settings : Settings) (crypto : Crypto) (now createdAt : Time)
    (db : Database) : AuthRequest → Option TokenResponse →
      List User → List OAuthAccount → List RefreshToken → Prop
  | signup {body : SignupRequest} {hashedPassword : Str} {provisioned : ProvisionDraw}
      {draw : TokenDraw} {user : User} {tokens : TokenResponse} :
      user = firstAdmin body.email (some hashedPassword) body.fullName provisioned createdAt →
      (db .users).find? (fun user => user.email == body.email) = none →
      tokens.IssuedFor settings crypto now user →
      AuthEffect settings crypto now createdAt db
        (.signup body hashedPassword provisioned draw) (some tokens) (db .users ++ [user])
        (db .oauthAccounts)
        (db .refreshTokens ++ [newRefreshToken settings crypto user.id draw now createdAt])
  | login {email password : Str} {draw : TokenDraw} {user : User} {tokens : TokenResponse} :
      (db .users).find? (fun user => user.email == email) = some user → user.isActive = true →
      tokens.IssuedFor settings crypto now user →
      AuthEffect settings crypto now createdAt db (.login email password draw) (some tokens)
        (db .users) (db .oauthAccounts)
        (db .refreshTokens ++ [newRefreshToken settings crypto user.id draw now createdAt])
  | refresh {refreshToken : Str} {draw : TokenDraw} {stored : RefreshToken} {user : User}
      {tokens : TokenResponse} :
      (db .refreshTokens).find? (fun token =>
        token.tokenHash == hashSecret crypto refreshToken) = some stored →
      isUsable stored now = true →
      (db .users).find? (fun user => user.id == stored.userId) = some user → user.isActive = true →
      tokens.IssuedFor settings crypto now user →
      AuthEffect settings crypto now createdAt db (.refresh refreshToken draw) (some tokens)
        (db .users) (db .oauthAccounts) (revokeStored stored now (db .refreshTokens) ++
          [newRefreshToken settings crypto user.id draw now createdAt])
  | logoutUnknown {refreshToken : Str} :
      (∀ stored, (db .refreshTokens).find? (fun token =>
        token.tokenHash == hashSecret crypto refreshToken) = some stored →
          stored.revokedAt ≠ none) →
      AuthEffect settings crypto now createdAt db (.logout refreshToken) none
        (db .users) (db .oauthAccounts) (db .refreshTokens)
  | logout {refreshToken : Str} {stored : RefreshToken} :
      (db .refreshTokens).find? (fun token =>
        token.tokenHash == hashSecret crypto refreshToken) = some stored →
      stored.revokedAt = none →
      AuthEffect settings crypto now createdAt db (.logout refreshToken) none
        (db .users) (db .oauthAccounts) (revokeStored stored now (db .refreshTokens))
  | linked {identity : OAuthIdentity} {linkId : Uuid} {provisioned : ProvisionDraw}
      {draw : TokenDraw} {account : OAuthAccount} {user : User} {tokens : TokenResponse} :
      (db .oauthAccounts).find? identity.isLinkedBy = some account →
      (db .users).find? (fun user => user.id == account.userId) = some user →
      user.isActive = true → tokens.IssuedFor settings crypto now user →
      AuthEffect settings crypto now createdAt db
        (.oauthCallback identity linkId provisioned draw) (some tokens)
        (db .users) (db .oauthAccounts)
        (db .refreshTokens ++ [newRefreshToken settings crypto user.id draw now createdAt])
  | matched {identity : OAuthIdentity} {linkId : Uuid} {provisioned : ProvisionDraw}
      {draw : TokenDraw} {email : Str} {user : User} {tokens : TokenResponse} :
      (db .oauthAccounts).find? identity.isLinkedBy = none → identity.email = some email →
      (db .users).find? (fun user => user.email == email) = some user →
      tokens.IssuedFor settings crypto now user →
      AuthEffect settings crypto now createdAt db
        (.oauthCallback identity linkId provisioned draw) (some tokens)
        (db .users) (db .oauthAccounts ++ [newLink identity linkId user.id createdAt])
        (db .refreshTokens ++ [newRefreshToken settings crypto user.id draw now createdAt])
  | provisioned {identity : OAuthIdentity} {linkId : Uuid} {provisioned : ProvisionDraw}
      {draw : TokenDraw} {email : Str} {user : User} {tokens : TokenResponse} :
      user = firstAdmin email none identity.fullName provisioned createdAt →
      (db .oauthAccounts).find? identity.isLinkedBy = none → identity.email = some email →
      (db .users).find? (fun user => user.email == email) = none →
      tokens.IssuedFor settings crypto now user →
      AuthEffect settings crypto now createdAt db
        (.oauthCallback identity linkId provisioned draw) (some tokens)
        (db .users ++ [user]) (db .oauthAccounts ++ [newLink identity linkId user.id createdAt])
        (db .refreshTokens ++ [newRefreshToken settings crypto user.id draw now createdAt])

section Spec

variable {conn conn' : Conn} {settings : Settings} {crypto : Crypto} {now : Time}

/-- Issuing adds one refresh token, and nothing to the other tables. -/
theorem issueTokens_db {user : User} {draw : TokenDraw} {tokens : TokenResponse}
    (h : (issueTokens settings crypto user draw now).Runs conn tokens conn') :
    tokens.IssuedFor settings crypto now user ∧ conn'.db .users = conn.db .users ∧
      conn'.db .oauthAccounts = conn.db .oauthAccounts ∧
      conn'.db .refreshTokens =
        conn.db .refreshTokens ++ [newRefreshToken settings crypto user.id draw now conn.now] := by
  obtain ⟨hissued, hwrote⟩ := issueTokens_eq_ok h
  rw [hwrote.insert.1]
  refine ⟨hissued, ?_, ?_, Database.insert_self _⟩
  · exact Database.insert_of_ne _ (by decide)
  · exact Database.insert_of_ne _ (by decide)

/-- Provisioning adds the first administrator of a new organization. -/
theorem provision_db {name slug email : Str} {hashedPassword fullName : Option Str}
    {draw : ProvisionDraw} {user : User}
    (h : (provision name slug email hashedPassword fullName draw).Runs conn user conn') :
    user = firstAdmin email hashedPassword fullName draw conn.now ∧ conn'.now = conn.now ∧
      conn'.role = conn.role ∧ conn'.db .users = conn.db .users ++ [user] ∧
      conn'.db .oauthAccounts = conn.db .oauthAccounts ∧
      conn'.db .refreshTokens = conn.db .refreshTokens := by
  simp only [provision, Program.runs_bind, runs_transactionTime, runs_add, Program.runs_pure] at h
  obtain ⟨_, _, ⟨rfl, rfl⟩, _, _, hslug, _, _, horg, _, _, huser, rfl, rfl⟩ := h
  obtain ⟨rfl, _⟩ := of_runs_scalar hslug
  refine ⟨rfl, huser.now.trans horg.now, huser.role.trans horg.role, ?_, ?_, ?_⟩
  · rw [huser.insert.1, Database.insert_self, horg.insert.1, Database.insert_of_ne _ (by decide)]
  · rw [huser.insert.1, Database.insert_of_ne _ (by decide), horg.insert.1,
      Database.insert_of_ne _ (by decide)]
  · rw [huser.insert.1, Database.insert_of_ne _ (by decide), horg.insert.1,
      Database.insert_of_ne _ (by decide)]

/-- The auth role revokes a stored token. -/
theorem revoke_db (hrole : conn.role = .appAuth) {stored : RefreshToken}
    (h : conn.Wrote [.update .refreshTokens (fun row => row.id == stored.id) (revokeToken now)]
      conn') :
    conn'.db .users = conn.db .users ∧ conn'.db .oauthAccounts = conn.db .oauthAccounts ∧
      conn'.db .refreshTokens = revokeStored stored now (conn.db .refreshTokens) := by
  rw [h.update.2]
  refine ⟨Database.update_of_ne _ (by decide), Database.update_of_ne _ (by decide), ?_⟩
  rw [Database.update_self]
  refine List.map_congr_left fun token _ => ?_
  rw [Conn.visible_of_appAuth hrole, Bool.true_and]

/-- The user for an identity that is not linked: found by the address, or new. -/
theorem userForIdentity_db (hrole : conn.role = .appAuth) {identity : OAuthIdentity} {email : Str}
    {provisioned : ProvisionDraw} {user : User}
    (h : (userForIdentity identity email provisioned).Runs conn user conn') :
    conn'.now = conn.now ∧ conn'.db .oauthAccounts = conn.db .oauthAccounts ∧
      conn'.db .refreshTokens = conn.db .refreshTokens ∧
      ((conn.db .users).find? (fun user => user.email == email) = some user ∧
          conn'.db .users = conn.db .users ∨
        (conn.db .users).find? (fun user => user.email == email) = none ∧
          user = firstAdmin email none identity.fullName provisioned conn.now ∧
          conn'.db .users = conn.db .users ++ [user]) := by
  simp only [userForIdentity, Program.runs_bind] at h
  obtain ⟨existing, _, hexisting, h⟩ := h
  obtain ⟨rfl, hfound⟩ := of_runs_scalar_of_appAuth hrole hexisting
  cases existing with
  | some found =>
      obtain ⟨rfl, rfl⟩ := Program.runs_pure.mp h
      exact ⟨rfl, rfl, rfl, .inl ⟨hfound.symm, rfl⟩⟩
  | none =>
      obtain ⟨huser, hnow, _, husers, haccounts, htokens⟩ := provision_db h
      exact ⟨hnow, haccounts, htokens, .inr ⟨hfound.symm, huser, husers⟩⟩

/-- A committed request took one of the branches. -/
theorem AuthRequest.effect_of_run (hrole : conn.role = .appAuth) {request : AuthRequest}
    {tokens : Option TokenResponse}
    (h : (request.run settings crypto now).Runs conn tokens conn') :
    AuthEffect settings crypto now conn.now conn.db request tokens (conn'.db .users)
      (conn'.db .oauthAccounts) (conn'.db .refreshTokens) := by
  cases request with
  | signup body hashedPassword provisioned draw =>
      obtain ⟨issued, hrun, rfl⟩ := Program.runs_map.mp h
      simp only [Api.signup, Program.runs_bind, Program.runs_raiseIf] at hrun
      obtain ⟨_, _, hexisting, _, _, ⟨hnone, rfl⟩, user, middle, hprovision, hissue⟩ := hrun
      obtain ⟨rfl, rfl⟩ := of_runs_scalar_of_appAuth hrole hexisting
      obtain ⟨huser, hnow, _, husers, haccounts, htokens⟩ := provision_db hprovision
      obtain ⟨hissued, husers', haccounts', htokens'⟩ := issueTokens_db hissue
      rw [husers', haccounts', htokens', husers, haccounts, htokens, hnow]
      exact .signup huser (by simpa using hnone) hissued
  | login email password draw =>
      obtain ⟨issued, hrun, rfl⟩ := Program.runs_map.mp h
      simp only [Api.login, Program.runs_bind, Program.runs_orRaise, Program.runs_raiseIf] at hrun
      obtain ⟨found, _, hfound, user, _, ⟨huser, rfl⟩, _, _, ⟨hactive, rfl⟩, hissue⟩ := hrun
      obtain ⟨rfl, rfl⟩ := of_runs_scalar_of_appAuth hrole hfound
      obtain ⟨hissued, husers, haccounts, htokens⟩ := issueTokens_db hissue
      rw [husers, haccounts, htokens]
      exact .login (Option.filter_eq_some_iff.mp huser).1 (by simpa using hactive) hissued
  | refresh refreshToken draw =>
      obtain ⟨issued, hrun, rfl⟩ := Program.runs_map.mp h
      simp only [Api.refresh, Program.runs_bind, Program.runs_orRaise, Program.runs_raiseIf,
        runs_save] at hrun
      obtain ⟨_, _, hstored, stored, _, ⟨rfl, rfl⟩, _, _, ⟨husable, rfl⟩, _, _, hfound, user, _,
        ⟨rfl, rfl⟩, _, _, ⟨hactive, rfl⟩, _, middle, hrevoke, hissue⟩ := hrun
      obtain ⟨rfl, hselected⟩ := of_runs_scalar_of_appAuth hrole hstored
      obtain ⟨rfl, huser⟩ := of_runs_scalar_of_appAuth hrole hfound
      obtain ⟨husers, haccounts, htokens⟩ := revoke_db hrole hrevoke
      obtain ⟨hissued, husers', haccounts', htokens'⟩ := issueTokens_db hissue
      rw [husers', haccounts', htokens', husers, haccounts, htokens, hrevoke.now]
      exact .refresh hselected.symm (by simpa using husable) huser.symm (by simpa using hactive)
        hissued
  | logout refreshToken =>
      obtain ⟨_, hrun, rfl⟩ := Program.runs_map.mp h
      simp only [Api.logout, Program.runs_bind] at hrun
      obtain ⟨found, _, hfound, hrun⟩ := hrun
      obtain ⟨rfl, rfl⟩ := of_runs_scalar_of_appAuth hrole hfound
      -- an unknown or revoked token is answered like a known one
      split at hrun
      · next hnone =>
          obtain ⟨_, rfl⟩ := Program.runs_pure.mp hrun
          refine .logoutUnknown fun stored hstored hunrevoked => ?_
          rw [hstored] at hnone
          simp [hunrevoked] at hnone
      · next stored hstored =>
          obtain ⟨hstored, hunrevoked⟩ := Option.filter_eq_some_iff.mp hstored
          obtain ⟨husers, haccounts, htokens⟩ := revoke_db hrole (runs_save.mp hrun)
          rw [husers, haccounts, htokens]
          exact .logout hstored (by simpa using hunrevoked)
  | oauthCallback identity linkId provisioned draw =>
      obtain ⟨issued, hrun, rfl⟩ := Program.runs_map.mp h
      simp only [Api.oauthCallback, Program.runs_bind] at hrun
      obtain ⟨linked, _, hlinked, hrun⟩ := hrun
      obtain ⟨rfl, haccount⟩ := of_runs_scalar_of_appAuth hrole hlinked
      cases linked with
      | some account =>
          simp only [Program.runs_bind, Program.runs_orRaise] at hrun
          obtain ⟨found, _, hfound, user, _, ⟨huser, rfl⟩, hissue⟩ := hrun
          obtain ⟨rfl, rfl⟩ := of_runs_scalar_of_appAuth hrole hfound
          obtain ⟨huser, hactive⟩ := Option.filter_eq_some_iff.mp huser
          obtain ⟨hissued, husers, haccounts, htokens⟩ := issueTokens_db hissue
          rw [husers, haccounts, htokens]
          exact .linked haccount.symm huser hactive hissued
      | none =>
          simp only [Program.runs_bind, Program.runs_orRaise, runs_transactionTime, runs_add]
            at hrun
          obtain ⟨email, _, ⟨hemail, rfl⟩, user, _, hidentity, _, _, ⟨rfl, rfl⟩, _, _, hlink,
            hissue⟩ := hrun
          obtain ⟨hnow, haccounts, htokens, hbranch⟩ := userForIdentity_db hrole hidentity
          obtain ⟨hissued, husers', haccounts', htokens'⟩ := issueTokens_db hissue
          rw [husers', haccounts', htokens', hlink.now, hlink.insert.1,
            Database.insert_of_ne _ (by decide), Database.insert_self,
            Database.insert_of_ne _ (by decide), haccounts, htokens, hnow]
          -- the address belongs to a user, or a first administrator is provisioned
          rcases hbranch with ⟨hfound, husers⟩ | ⟨hfound, huser, husers⟩
          · rw [husers]
            exact .matched haccount.symm hemail hfound hissued
          · rw [husers]
            exact .provisioned huser haccount.symm hemail hfound hissued

end Spec

end Api
