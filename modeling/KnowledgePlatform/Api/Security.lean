import KnowledgePlatform.Core.Config
import KnowledgePlatform.Core.Models

/-!
# Tokens and keys

Access tokens are signed claims, refresh tokens and API-key secrets are opaque
and stored hashed.  Hashing, signing and password verification come from
libraries and are parameters here (`Crypto`).

An API key is the configured prefix, a public handle of eight hexadecimal
digits, an underscore and the secret.  Parsing cuts at the first underscore
after the prefix; this inverts the generation because the handle has no
underscore, whatever the prefix and the secret contain (`parseApiKey_eq_some`).
-/

open Core Python

namespace Api

/-- The claims of an access token.  A token with a valid signature may lack any
of them. -/
structure Claims where
  sub : Option Str
  org : Option Str
  role : Option Str
  type : Option Str
  iat : Option ℕ
  exp : Option ℕ
  deriving DecidableEq

/-- The library functions: SHA-256 as hexadecimal digits, password verification,
and the signing and verification of claims at a given time. -/
structure Crypto where
  sha256 : Str → Str
  verifyPassword : Str → Str → Bool
  encode : Claims → Str
  decode : Time → Str → Option Claims

/-- The SHA-256 digests of three raw tokens, for concrete runs. -/
def sampleDigests : List (Str × Str) :=
  [("first".toList, "a7937b64b8caa58f03721bb6bacf5c78cb235febe0e70b1b84cd99541461a08e".toList),
    ("second".toList, "16367aacb67a4a017c8da8ab95682ccb390863780f7114dda0a0e0c55644c7c4".toList),
    ("third".toList, "b1e99324505bd32da0e1f85dcf5e19a09db0481e8a15f62c41eb320304a8e927".toList)]

/-- Library functions that know these digests, no password and no signature. -/
def sampleCrypto : Crypto where
  sha256 := fun raw => (sampleDigests.lookup raw).getD raw
  verifyPassword := fun _ _ => false
  encode := fun _ => []
  decode := fun _ _ => none

/-- SHA-256 for high-entropy opaque tokens. -/
def hashSecret (crypto : Crypto) (raw : Str) : Str := crypto.sha256 raw

/-! ## Access tokens -/

/-- The payload of a new access token. -/
def accessClaims (settings : Settings) (userId orgId : Uuid) (role : UserRole) (now : Time) :
    Claims where
  sub := some userId.str
  org := some orgId.str
  role := some role.value
  type := some "access".toList
  iat := some (now / Time.second)
  exp := some ((now + settings.accessTokenTtlSeconds * Time.second) / Time.second)

def createAccessToken (settings : Settings) (crypto : Crypto) (userId orgId : Uuid)
    (role : UserRole) (now : Time) : Str :=
  crypto.encode (accessClaims settings userId orgId role now)

/-- Decode and validate an access token; `none` on a signature that does not
verify, an expired token or one of another type. -/
def decodeAccessToken (crypto : Crypto) (now : Time) (token : Str) : Option Claims := do
  let claims ← crypto.decode now token
  if claims.type = some "access".toList then some claims else none

/-! ## Refresh tokens and API keys -/

/-- The raw refresh token and its hash; only the hash is persisted. -/
def generateRefreshToken (crypto : Crypto) (raw : Str) : Str × Str := (raw, hashSecret crypto raw)

/-- The full key, its public handle and the hash of its secret, from the handle
and the secret drawn at random. -/
def generateApiKey (settings : Settings) (crypto : Crypto) (handle secret : Str) :
    Str × Str × Str :=
  (settings.apiKeyPrefix ++ handle ++ '_' :: secret, handle, hashSecret crypto secret)

/-- Split a presented key into handle and secret; `none` if malformed. -/
def parseApiKey (settings : Settings) (fullKey : Str) : Option (Str × Str) := do
  let body ← dropStart settings.apiKeyPrefix fullKey
  match partition '_' body with
  | (handle, true, secret) => if handle = [] ∨ secret = [] then none else some (handle, secret)
  | (_, false, _) => none

/-- The handles drawn by `secrets.token_hex(4)`. -/
def IsHandle (handle : Str) : Prop :=
  handle.length = 8 ∧ ∀ c ∈ handle, (Uuid.hexValue c).isSome = true

theorem IsHandle.ne_nil {handle : Str} (h : IsHandle handle) : handle ≠ [] := by
  rintro rfl
  exact absurd h.1 (by decide)

theorem IsHandle.underscore_not_mem {handle : Str} (h : IsHandle handle) : '_' ∉ handle :=
  fun hmem => absurd (h.2 '_' hmem) (by decide)

/-- The keys that parse are the prefix, a handle without underscore, an
underscore and a secret. -/
theorem parseApiKey_eq_some {settings : Settings} {fullKey handle secret : Str} :
    parseApiKey settings fullKey = some (handle, secret) ↔
      fullKey = settings.apiKeyPrefix ++ handle ++ '_' :: secret ∧ '_' ∉ handle ∧
        handle ≠ [] ∧ secret ≠ [] := by
  unfold parseApiKey
  simp only [Option.bind_eq_bind, Option.bind_eq_some_iff, dropStart_eq_some]
  constructor
  · rintro ⟨body, rfl, hbody⟩
    split at hbody
    · next handle' secret' hpartition =>
        obtain ⟨rfl, hhandle⟩ := partition_eq_found.mp hpartition
        simp only [Option.ite_none_left_eq_some, not_or, Option.some_inj, Prod.mk.injEq] at hbody
        obtain ⟨⟨hne, hne'⟩, rfl, rfl⟩ := hbody
        exact ⟨(List.append_assoc _ _ _).symm, hhandle, hne, hne'⟩
    · cases hbody
  · rintro ⟨rfl, hhandle, hne, hne'⟩
    refine ⟨handle ++ '_' :: secret, List.append_assoc _ _ _, ?_⟩
    rw [partition_eq_found.mpr ⟨rfl, hhandle⟩]
    simp [hne, hne']

example : parseApiKey {} "akp_0a1b2c3d_x_y".toList =
    some ("0a1b2c3d".toList, "x_y".toList) := by decide

end Api
