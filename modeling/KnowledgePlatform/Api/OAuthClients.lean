import KnowledgePlatform.Api.Auth

/-!
# Identities from OAuth providers

What the providers tell of an account, and the identity that `extract_identity`
makes of it.  Google tells the address of the account and whether it is verified;
of GitHub the public profile has an address or not, and a second request lists all
addresses of the account.
-/

open Core Python

namespace Api

/-- `userinfo` of Google, from the id token or the endpoint. -/
structure GoogleUserinfo where
  sub : Option Str
  email : Option Str
  emailVerified : Option Bool
  name : Option Str
  deriving DecidableEq

/-- `/user` of GitHub. -/
structure GithubProfile where
  id : Option Str
  email : Option Str
  name : Option Str
  login : Option Str
  deriving DecidableEq

/-- An entry of `/user/emails` of GitHub. -/
structure GithubEmail where
  email : Option Str
  primary : Bool
  verified : Bool
  deriving DecidableEq

inductive ProviderPayload
  | google (userinfo : GoogleUserinfo)
  | github (profile : GithubProfile) (emails : List GithubEmail)
  deriving DecidableEq

/-- `a or b` of texts that may be missing. -/
def orElse (first second : Option Str) : Option Str :=
  match first.filter (· ≠ []) with
  | some text => some text
  | none => second

/-- The primary address if it is verified, else the first verified one. -/
def verifiedEmail (emails : List GithubEmail) : Option GithubEmail :=
  match emails.find? fun e => e.primary && e.verified with
  | some primary => some primary
  | none => emails.find? fun e => e.verified

def subKey : Str := "'sub'".toList

def idKey : Str := "'id'".toList

/-- The value of a key, which raises when it is missing. -/
def getItem (key : Str) : Option Str → Except Str Str
  | none => .error key
  | some value => .ok value

def extractIdentity : ProviderPayload → Except Str OAuthIdentity
  | .google userinfo => do
      let sub ← getItem subKey userinfo.sub
      pure { provider := .google, providerAccountId := sub, email := userinfo.email,
             fullName := userinfo.name }
  | .github profile emails => do
      let id ← getItem idKey profile.id
      let email := orElse profile.email ((verifiedEmail emails).bind GithubEmail.email)
      pure { provider := .github, providerAccountId := id, email,
             fullName := orElse profile.name profile.login }

/-- The provider vouches for the address: Google by a flag, GitHub by the entry of
the address or by showing it in the public profile. -/
def ProviderPayload.Verifies (email : Str) : ProviderPayload → Prop
  | .google userinfo => userinfo.email = some email ∧ userinfo.emailVerified = some true
  | .github profile emails => profile.email = some email ∨
      ∃ entry ∈ emails, entry.email = some email ∧ entry.verified = true

/-- Google does not vouch for the address it tells. -/
def ProviderPayload.isUnverified : ProviderPayload → Bool
  | .google userinfo => userinfo.emailVerified != some true
  | .github .. => false

theorem orElse_eq_some {first second : Option Str} {text : Str}
    (h : orElse first second = some text) : first = some text ∨ second = some text := by
  unfold orElse at h
  split at h
  · next hfirst =>
      cases h
      exact .inl (Option.filter_eq_some_iff.mp hfirst).1
  · exact .inr h

theorem verifiedEmail_eq_some {emails : List GithubEmail} {entry : GithubEmail}
    (h : verifiedEmail emails = some entry) : entry ∈ emails ∧ entry.verified = true := by
  unfold verifiedEmail at h
  split at h
  · next hfound =>
      cases h
      have hselected := List.find?_some hfound
      exact ⟨List.mem_of_find?_eq_some hfound, (Bool.and_eq_true_iff.mp hselected).2⟩
  · exact ⟨List.mem_of_find?_eq_some h, List.find?_some h⟩

/-- The provider vouches for the address of an identity, unless it is Google and
says that it does not. -/
theorem verifies_iff {payload : ProviderPayload} {identity : OAuthIdentity} {email : Str}
    (h : extractIdentity payload = .ok identity) (hemail : identity.email = some email) :
    payload.Verifies email ↔ payload.isUnverified = false := by
  cases payload with
  | google userinfo =>
      have htold : identity.email = userinfo.email := by
        cases hsub : getItem subKey userinfo.sub <;> simp only [extractIdentity, hsub] at h <;> cases h
        rfl
      simp [ProviderPayload.Verifies, ProviderPayload.isUnverified, ← htold, hemail]
  | github profile emails =>
      have htold : identity.email =
          orElse profile.email ((verifiedEmail emails).bind GithubEmail.email) := by
        cases hid : getItem idKey profile.id <;> simp only [extractIdentity, hid] at h <;> cases h
        rfl
      refine iff_of_true ?_ rfl
      rcases orElse_eq_some (htold.symm.trans hemail) with hprofile | hlisted
      · exact .inl hprofile
      · obtain ⟨entry, hentry, hsome⟩ := Option.bind_eq_some_iff.mp hlisted
        obtain ⟨hmem, hverified⟩ := verifiedEmail_eq_some hentry
        exact .inr ⟨entry, hmem, hsome, hverified⟩

end Api
