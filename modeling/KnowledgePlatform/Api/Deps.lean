import KnowledgePlatform.Api.Security
import KnowledgePlatform.Core.Db

/-!
# Authentication and authorization

A request presents an API key or a bearer token.  Either resolves to an
organization and a user id (`resolveApiKey`, `resolveBearer`), and
`getPrincipal` then binds the session to the organization and reads the user
from the database: the role that the guards check is the one stored now,
whatever the credential says.
-/

open Core Foundations Python Relational

namespace Api

/-- The authenticated caller of a request. -/
structure Principal where
  orgId : Uuid
  role : UserRole
  user : User
  viaApiKey : Bool
  deriving DecidableEq

def unauthorized : Fault := .http 401 "Not authenticated".toList

/-- `key.last_used_at = now` -/
def touchKey (now : Time) : SetClause schema .apiKeys where
  set := fun key => { key with lastUsedAt := some now }
  key_set := fun _ => rfl
  tenant_set := fun _ => rfl
  clash_set := fun _ _ => ⟨rfl, rfl⟩
  ref_set := by simp [schema, rowForeignKeys, orgKey]

/-- Verify an API key on the auth role; returns its organization and its active
creator. -/
def resolveApiKey (settings : Settings) (crypto : Crypto) (now : Time) (rawKey : Str) :
    Tx (Uuid × User) := do
  let (handle, secret) ← Program.orRaise unauthorized (parseApiKey settings rawKey)
  let found ← scalar .apiKeys fun key => key.keyPrefix == handle
  let key ← Program.orRaise unauthorized found
  Program.raiseIf (key.revokedAt.isSome = true ∨ key.expiresAt.any (· ≤ now) = true ∨
    key.hashedKey ≠ hashSecret crypto secret) unauthorized
  let creatorId ← Program.orRaise unauthorized key.createdByUserId
  let found ← getById .users creatorId
  let creator ← Program.orRaise unauthorized found
  Program.raiseIf (creator.isActive = false) unauthorized
  save .apiKeys key.id (touchKey now)
  pure (key.orgId, creator)

/-- The organization and the user id an access token was issued for. -/
def resolveBearer (crypto : Crypto) (now : Time) (token : Str) : Option (Uuid × Uuid) := do
  let claims ← decodeAccessToken crypto now token
  let userId ← claims.sub.bind Uuid.parse
  let orgId ← claims.org.bind Uuid.parse
  some (orgId, userId)

/-- What a request presents: a bearer token, and the header `X-API-Key`. -/
structure Headers where
  bearer : Option Str
  xApiKey : Option Str
  deriving DecidableEq

inductive Credential
  | bearer (token : Str)
  | apiKey (rawKey : Str)
  deriving DecidableEq

/-- The credential a request is authenticated by: a key takes precedence, and
empty ones do not count. -/
def Headers.credential (headers : Headers) : Option Credential :=
  match headers.xApiKey.filter (· ≠ []) with
  | some rawKey => some (.apiKey rawKey)
  | none => (headers.bearer.filter (· ≠ [])).map .bearer

/-- Bind the session to the caller's organization and read the caller. -/
def getPrincipal (orgId userId : Uuid) (viaApiKey : Bool) : Tx Principal := do
  setOrgContext orgId
  let found ← getById .users userId
  let user ← Program.orRaise unauthorized found
  Program.raiseIf (user.isActive = false ∨ user.orgId ≠ orgId) unauthorized
  pure { orgId, role := user.role, user, viaApiKey }

/-- Guard an endpoint to the given roles. -/
def requireRole (roles : List UserRole) (principal : Principal) : Tx Unit :=
  Program.raiseIf (principal.role ∉ roles) (.http 403 "Insufficient role".toList)

/-! ## Specifications -/

section Spec

variable {conn conn' : Conn}

/-- The principal is the user stored now, active and of the bound organization. -/
theorem getPrincipal_eq_ok {orgId userId : Uuid} {viaApiKey : Bool} {principal : Principal}
    (h : (getPrincipal orgId userId viaApiKey).Runs conn principal conn') :
    conn' = { conn with currentOrg := some orgId } ∧ principal.orgId = orgId ∧
      principal.viaApiKey = viaApiKey ∧ principal.role = principal.user.role ∧
      principal.user ∈ conn.db .users ∧ principal.user.id = userId ∧
      principal.user.isActive = true ∧ principal.user.orgId = orgId := by
  simp only [getPrincipal, Program.runs_bind, runs_setOrgContext, Program.runs_orRaise,
    Program.runs_raiseIf, Program.runs_pure, not_or, Bool.not_eq_false, not_not] at h
  obtain ⟨_, _, rfl, found, _, hfound, user, _, ⟨rfl, rfl⟩, _, _, ⟨⟨hactive, horg⟩, rfl⟩, rfl,
    rfl⟩ := h
  obtain ⟨rfl, hrow⟩ := of_runs_getById hfound
  obtain ⟨hmem, hid, _⟩ := hrow user rfl
  exact ⟨rfl, rfl, rfl, rfl, hmem, hid, hactive, horg⟩

@[simp] theorem runs_requireRole {roles : List UserRole} {principal : Principal} {result : Unit} :
    (requireRole roles principal).Runs conn result conn' ↔
      principal.role ∈ roles ∧ conn = conn' := by
  simp [requireRole]

/-- What an accepted API key says about the stored keys and users. -/
theorem resolveApiKey_eq_ok {settings : Settings} {crypto : Crypto} {now : Time} {rawKey : Str}
    {orgId : Uuid} {creator : User}
    (h : (resolveApiKey settings crypto now rawKey).Runs conn (orgId, creator) conn') :
    ∃ key ∈ conn.db .apiKeys, ∃ secret,
      parseApiKey settings rawKey = some (key.keyPrefix, secret) ∧ key.revokedAt = none ∧
      (∀ expiresAt, key.expiresAt = some expiresAt → now < expiresAt) ∧
      key.hashedKey = hashSecret crypto secret ∧ key.createdByUserId = some creator.id ∧
      creator ∈ conn.db .users ∧ creator.isActive = true ∧ key.orgId = orgId ∧
      conn.Wrote [.update .apiKeys (fun row => row.id == key.id) (touchKey now)] conn' := by
  simp only [resolveApiKey, Program.runs_bind, Program.runs_orRaise, Program.runs_raiseIf,
    runs_save, Program.runs_pure, not_or, Bool.not_eq_true, not_not, Prod.mk.injEq,
    Bool.not_eq_false] at h
  obtain ⟨⟨handle, secret⟩, _, ⟨hparse, rfl⟩, _, _, hkey, key, _, ⟨rfl, rfl⟩, _, _,
    ⟨⟨hrevoked, hexpired, hhash⟩, rfl⟩, creatorId, _, ⟨hcreatorId, rfl⟩, _, _, hcreator, creator, _,
    ⟨rfl, rfl⟩, _, _, ⟨hactive, rfl⟩, _, _, hwrote, ⟨rfl, rfl⟩, rfl⟩ := h
  obtain ⟨rfl, hkeyrow⟩ := of_runs_scalar hkey
  obtain ⟨hkeymem, hhandle, _⟩ := hkeyrow key rfl
  obtain ⟨rfl, hcreatorrow⟩ := of_runs_getById hcreator
  obtain ⟨hcreatormem, rfl, _⟩ := hcreatorrow creator rfl
  refine ⟨key, hkeymem, secret, ?_, ?_, ?_, hhash, hcreatorId, hcreatormem, hactive, rfl,
    hwrote⟩
  · rw [hparse, beq_iff_eq.mp hhandle]
  · simpa using hrevoked
  · intro expiresAt hexpires
    rw [hexpires] at hexpired
    simpa using hexpired

end Spec

end Api
