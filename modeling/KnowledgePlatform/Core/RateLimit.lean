import KnowledgePlatform.Core.Db
import KnowledgePlatform.Foundations.Counters
import KnowledgePlatform.Python.Text

/-!
# The rate limit

`enforceRateLimit` counts a call under a key that is made of the name of the
endpoint, the address of the client and the number of the window.  The count is
one command of Redis; the deadline of a new counter is set by another one, which
is sent after the count is known.

The parts of a key can be read off it, whatever the address looks like
(`redisKey_inj`).
-/

open Foundations Python

namespace Core

structure RateLimitSettings where
  rateLimitEnabled : Bool := true
  authRateLimitPerMinute : ℕ := 20
  authRateLimitWindowSeconds : ℕ := 60
  deriving DecidableEq, Repr

/-- What is read of a request: the header `x-forwarded-for` and the host of the
client. -/
structure HttpRequest where
  forwardedFor : Option Str
  clientHost : Option Str
  deriving DecidableEq, Repr

def clientIp (request : HttpRequest) : Str :=
  let forwarded := request.forwardedFor.getD []
  if forwarded ≠ [] then strip ((forwarded.splitOn ',').headD [])
  else request.clientHost.getD "unknown".toList

def tooManyRequests : Fault :=
  .http 429 "Too many requests, please try again later".toList

def redisKey (key client : Str) (bucket : ℤ) : Str :=
  "ratelimit:".toList ++ key ++ ':' :: client ++ ':' :: ofInt bucket

/-- A call: the counters it leaves, the `EXPIRE` it sends afterwards, and how it
ends. -/
structure Hit where
  redis : Counters Str ℚ
  expire : Option (Str × ℕ)
  outcome : Except Fault Unit

/-- A call at a time. -/
def enforceRateLimit (settings : RateLimitSettings) (request : HttpRequest) (key : Str)
    (limit windowSeconds : ℕ) (now : ℚ) (redis : Counters Str ℚ) : Hit :=
  if settings.rateLimitEnabled = false then ⟨redis, none, .ok ()⟩
  else
    let bucket := windowOf (windowSeconds : ℚ) now
    let redisKey := redisKey key (clientIp request) bucket
    let (count, redis) := redis.incr now redisKey
    { redis
      expire := if count = 1 then some (redisKey, windowSeconds) else none
      outcome := if count > limit then .error tooManyRequests else .ok () }

/-- What a call does if the limit is on. -/
theorem enforceRateLimit_eq {settings : RateLimitSettings}
    (henabled : settings.rateLimitEnabled = true) {request : HttpRequest} {key slot : Str}
    {limit windowSeconds : ℕ} {now : ℚ} {redis : Counters Str ℚ}
    (hslot : slot = redisKey key (clientIp request) (windowOf (windowSeconds : ℚ) now)) :
    enforceRateLimit settings request key limit windowSeconds now redis =
      { redis := (redis.incr now slot).2
        expire := if redis.value now slot = 0 then some (slot, windowSeconds) else none
        outcome := if redis.value now slot < limit then .ok () else .error tooManyRequests } := by
  subst hslot
  unfold enforceRateLimit
  rw [henabled, if_neg (by decide)]
  simp only [Counters.incr, Nat.add_eq_right, gt_iff_lt, Hit.mk.injEq, true_and]
  split <;> split <;> first | rfl | omega

/-- A text is cut in one way at its last colon. -/
theorem eq_of_append_colon {front front' last last' : Str} (hlast : ':' ∉ last)
    (hlast' : ':' ∉ last') (h : front ++ ':' :: last = front' ++ ':' :: last') :
    front = front' ∧ last = last' := by
  have hcut : ∀ front last : Str, ':' ∉ last →
      partition ':' (front ++ ':' :: last).reverse = (last.reverse, true, front.reverse) := by
    intro front last hnone
    refine partition_eq_found.mpr ⟨by simp, ?_⟩
    rwa [List.mem_reverse]
  have hsame := hcut front last hlast
  rw [h, hcut front' last' hlast'] at hsame
  simp only [Prod.mk.injEq, List.reverse_inj, true_and] at hsame
  exact ⟨hsame.2.symm, hsame.1.symm⟩

theorem colon_notMem_ofInt (number : ℤ) : ':' ∉ ofInt number := by
  intro hmem
  rcases eq_minus_or_isDigit_of_mem_ofInt hmem with hsign | hdigit
  · exact absurd hsign (by decide)
  · exact absurd hdigit (by decide)

/-- A key is cut at its last colon, since the number of a window has none. -/
theorem redisKey_inj {key key' client client' : Str} {bucket bucket' : ℤ}
    (h : redisKey key client bucket = redisKey key' client' bucket') :
    key ++ ':' :: client = key' ++ ':' :: client' ∧ bucket = bucket' := by
  obtain ⟨hfront, hlast⟩ :=
    eq_of_append_colon (colon_notMem_ofInt bucket) (colon_notMem_ofInt bucket') h
  simp only [List.append_assoc, List.append_cancel_left_eq] at hfront
  exact ⟨hfront, ofInt_injective hlast⟩

end Core
