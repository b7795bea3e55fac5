import KnowledgePlatform.Core.RateLimit
import KnowledgePlatform.Foundations.Runs

/-!
# The rate limits of the auth endpoints

Any number of replicas call `enforce_rate_limit` for the three endpoints and share
one clock and one Redis.  A call takes the time and counts at one instant; the
`EXPIRE` it owes then is sent later, or is lost.

A window is named by its endpoint, client and number.  No counter disappears in
its own window (`Counted`), because its deadline lies a window's width after an
increment within the window.  So a call knows how many came before it.
-/

open Core Foundations Python

namespace Api

/-! ## The endpoints -/

def rateLimit (settings : RateLimitSettings) (request : HttpRequest) (key : Str) :
    ℚ → Counters Str ℚ → Hit :=
  enforceRateLimit settings request key settings.authRateLimitPerMinute
    settings.authRateLimitWindowSeconds

inductive LimitedEndpoint
  | signup
  | login
  | refresh
  deriving DecidableEq, Repr

namespace LimitedEndpoint

def key : LimitedEndpoint → Str
  | signup => "auth:signup".toList
  | login => "auth:login".toList
  | refresh => "auth:refresh".toList

/-- `_signup_rate_limit`, `_login_rate_limit` and `_refresh_rate_limit`. -/
def enforce (endpoint : LimitedEndpoint) (settings : RateLimitSettings) (request : HttpRequest) :
    ℚ → Counters Str ℚ → Hit :=
  rateLimit settings request endpoint.key

/-- The endpoint can be read off the beginning of the key. -/
theorem key_inj {endpoint endpoint' : LimitedEndpoint} {client client' : Str}
    (h : endpoint.key ++ ':' :: client = endpoint'.key ++ ':' :: client') :
    endpoint = endpoint' ∧ client = client' := by
  have hlong : ∀ endpoint : LimitedEndpoint, 6 ≤ endpoint.key.length := by
    intro endpoint
    cases endpoint <;> decide +kernel
  have hstart : ∀ endpoint endpoint' : LimitedEndpoint,
      endpoint.key.take 6 = endpoint'.key.take 6 → endpoint = endpoint' := by
    intro endpoint endpoint'
    cases endpoint <;> cases endpoint' <;> decide +kernel
  have hsame := congrArg (List.take 6) h
  rw [List.take_append_of_le_length (hlong _), List.take_append_of_le_length (hlong _)] at hsame
  obtain rfl := hstart endpoint endpoint' hsame
  exact ⟨rfl, List.tail_eq_of_cons_eq (List.append_cancel_left h)⟩

end LimitedEndpoint

/-! ## Runs -/

structure LimitState where
  clock : ℚ
  redis : Counters Str ℚ
  /-- The `EXPIRE` commands that are not sent yet. -/
  owed : List (Str × ℕ)

/-- Redis is empty. -/
def LimitState.initial (clock : ℚ) : LimitState := ⟨clock, fun _ => none, []⟩

inductive LimitEvent
  | call (time : ℚ) (endpoint : LimitedEndpoint) (request : HttpRequest)
      (outcome : Except Fault Unit)
  | expire (time : ℚ) (key : Str) (windowSeconds : ℕ)
  | lose (key : Str) (windowSeconds : ℕ)

/-- What the replicas do, in any order. -/
inductive LimitStep (settings : RateLimitSettings) :
    LimitState → LimitEvent → LimitState → Prop
  | call {s : LimitState} {time : ℚ} {endpoint : LimitedEndpoint} {request : HttpRequest}
      {hit : Hit} (hclock : s.clock ≤ time)
      (hhit : endpoint.enforce settings request time s.redis = hit) :
      LimitStep settings s (.call time endpoint request hit.outcome)
        { clock := time, redis := hit.redis, owed := hit.expire.toList ++ s.owed }
  | expire {s : LimitState} {time : ℚ} {key : Str} {windowSeconds : ℕ} (hclock : s.clock ≤ time)
      (howed : (key, windowSeconds) ∈ s.owed) :
      LimitStep settings s (.expire time key windowSeconds)
        { clock := time
          redis := s.redis.expire time key windowSeconds
          owed := s.owed.erase (key, windowSeconds) }
  | lose {s : LimitState} {key : Str} {windowSeconds : ℕ}
      (howed : (key, windowSeconds) ∈ s.owed) :
      LimitStep settings s (.lose key windowSeconds)
        { s with owed := s.owed.erase (key, windowSeconds) }

/-- The calls of a client to an endpoint, with their times and how they end. -/
def callsOf (endpoint : LimitedEndpoint) (client : Str) (trace : List LimitEvent) :
    List (ℚ × Except Fault Unit) :=
  trace.filterMap fun
    | .call time endpoint' request outcome =>
        if endpoint' = endpoint ∧ clientIp request = client then some (time, outcome) else none
    | _ => none

/-! ## Windows -/

/-- A window of a client at an endpoint. -/
structure LimitSlot where
  endpoint : LimitedEndpoint
  client : Str
  bucket : ℤ

namespace LimitSlot

/-- The key the window is counted under. -/
def key (slot : LimitSlot) : Str := redisKey slot.endpoint.key slot.client slot.bucket

/-- The end of the window. -/
def stop (windowSeconds : ℕ) (slot : LimitSlot) : ℚ := (slot.bucket + 1) * windowSeconds

theorem key_injective : Function.Injective key := by
  rintro ⟨endpoint, client, bucket⟩ ⟨endpoint', client', bucket'⟩ h
  obtain ⟨hfront, rfl⟩ := redisKey_inj h
  obtain ⟨rfl, rfl⟩ := LimitedEndpoint.key_inj hfront
  rfl

end LimitSlot

/-- The calls in a window. -/
def callsIn (windowSeconds : ℕ) (slot : LimitSlot) (trace : List LimitEvent) :
    List (ℚ × Except Fault Unit) :=
  (callsOf slot.endpoint slot.client trace).filter fun call =>
    windowOf (windowSeconds : ℚ) call.1 = slot.bucket

section Snoc

variable {windowSeconds : ℕ} {trace : List LimitEvent} {time : ℚ} {endpoint : LimitedEndpoint}
  {request : HttpRequest} {outcome : Except Fault Unit} {slot : LimitSlot}

theorem callsIn_call_self
    (hslot : slot = ⟨endpoint, clientIp request, windowOf (windowSeconds : ℚ) time⟩) :
    callsIn windowSeconds slot (trace ++ [.call time endpoint request outcome]) =
      callsIn windowSeconds slot trace ++ [(time, outcome)] := by
  subst hslot
  simp [callsIn, callsOf]

theorem callsIn_call_of_ne
    (hslot : slot ≠ ⟨endpoint, clientIp request, windowOf (windowSeconds : ℚ) time⟩) :
    callsIn windowSeconds slot (trace ++ [.call time endpoint request outcome]) =
      callsIn windowSeconds slot trace := by
  unfold callsIn callsOf
  rw [List.filterMap_append, List.filter_append]
  by_cases hpair : endpoint = slot.endpoint ∧ clientIp request = slot.client
  · have hbucket : ¬windowOf (windowSeconds : ℚ) time = slot.bucket := by
      obtain ⟨rfl, hclient⟩ := hpair
      intro hbucket
      exact hslot (by rw [hclient, hbucket])
    simp [hpair, hbucket]
  · simp [hpair]

end Snoc

/-! ## What the counters know -/

/-- The counters have the calls of their windows, a command that is owed comes
within or after the window of its key, and each window has admitted the first. -/
structure Counted (settings : RateLimitSettings) (trace : List LimitEvent) (s : LimitState) :
    Prop where
  counting : Counters.Counting LimitSlot.key
    (LimitSlot.stop settings.authRateLimitWindowSeconds)
    (fun slot => (callsIn settings.authRateLimitWindowSeconds slot trace).length) s.redis s.clock
  owed : ∀ key windowSeconds, (key, windowSeconds) ∈ s.owed →
    windowSeconds = settings.authRateLimitWindowSeconds ∧
      ∀ slot : LimitSlot, slot.key = key → slot.stop windowSeconds ≤ s.clock + windowSeconds
  outcomes : ∀ slot, (callsIn settings.authRateLimitWindowSeconds slot trace).map Prod.snd =
    firstAdmitted (.ok ()) (.error tooManyRequests) settings.authRateLimitPerMinute
      (callsIn settings.authRateLimitWindowSeconds slot trace).length

section Step

variable {settings : RateLimitSettings} {trace : List LimitEvent} {s last : LimitState}

theorem counted_initial (clock : ℚ) : Counted settings [] (.initial clock) where
  counting := .empty clock
  owed key windowSeconds howed := by cases howed
  outcomes slot := by simp [callsIn, callsOf, firstAdmitted]

/-- A command that is owed may wait. -/
theorem Counted.owed_wait (h : Counted settings trace s) {time : ℚ} (hclock : s.clock ≤ time)
    {key : Str} {windowSeconds : ℕ} (howed : (key, windowSeconds) ∈ s.owed) :
    windowSeconds = settings.authRateLimitWindowSeconds ∧
      ∀ slot : LimitSlot, slot.key = key → slot.stop windowSeconds ≤ time + windowSeconds := by
  obtain ⟨hwindow, hstop⟩ := h.owed key windowSeconds howed
  refine ⟨hwindow, fun slot hslot => (hstop slot hslot).trans ?_⟩
  gcongr

/-- What is not a call leaves the calls as they are. -/
theorem Counted.snoc (h : Counted settings trace s) {event : LimitEvent}
    (hevent : ∀ endpoint client, callsOf endpoint client [event] = []) :
    Counted settings (trace ++ [event]) s := by
  have hsame : ∀ slot, callsIn settings.authRateLimitWindowSeconds slot (trace ++ [event]) =
      callsIn settings.authRateLimitWindowSeconds slot trace := by
    intro slot
    have hcalls := hevent slot.endpoint slot.client
    unfold callsOf at hcalls
    rw [callsIn, callsOf, List.filterMap_append, hcalls, List.append_nil, callsIn, callsOf]
  obtain ⟨hcounting, howed, houtcomes⟩ := h
  simp only [← hsame] at hcounting houtcomes
  exact ⟨hcounting, howed, houtcomes⟩

theorem Counted.call (henabled : settings.rateLimitEnabled = true)
    (hwindow : 0 < settings.authRateLimitWindowSeconds) (h : Counted settings trace s) {time : ℚ}
    (hclock : s.clock ≤ time) {endpoint : LimitedEndpoint} {request : HttpRequest} {hit : Hit}
    (hhit : endpoint.enforce settings request time s.redis = hit) :
    Counted settings (trace ++ [.call time endpoint request hit.outcome])
      { clock := time, redis := hit.redis, owed := hit.expire.toList ++ s.owed } := by
  have hpositive : (0 : ℚ) < settings.authRateLimitWindowSeconds := by exact_mod_cast hwindow
  obtain ⟨slot, hslot⟩ : ∃ slot : LimitSlot, slot = ⟨endpoint, clientIp request,
    windowOf (settings.authRateLimitWindowSeconds : ℚ) time⟩ := ⟨_, rfl⟩
  have hkey : slot.key = redisKey endpoint.key (clientIp request)
      (windowOf (settings.authRateLimitWindowSeconds : ℚ) time) := by
    rw [hslot]
    rfl
  have hstop : time < slot.stop settings.authRateLimitWindowSeconds := by
    rw [hslot]
    exact lt_windowOf_add_one_mul hpositive
  have hstart : slot.stop settings.authRateLimitWindowSeconds ≤
      time + settings.authRateLimitWindowSeconds := by
    rw [hslot, LimitSlot.stop, add_one_mul]
    gcongr
    exact windowOf_mul_le hpositive
  -- the counter has the calls before this one
  have hnow := h.counting.wait hclock
  rw [LimitedEndpoint.enforce, rateLimit, enforceRateLimit_eq henabled hkey,
    hnow.counts slot hstop] at hhit
  subst hhit
  have hself := fun outcome => @callsIn_call_self settings.authRateLimitWindowSeconds trace time
    endpoint request outcome slot hslot
  have hothers := fun outcome other (hne : other ≠ slot) =>
    @callsIn_call_of_ne settings.authRateLimitWindowSeconds trace time endpoint request outcome
      other (hslot ▸ hne)
  refine ⟨?_, ?_, ?_⟩
  · refine hnow.incr LimitSlot.key_injective ?_ fun other hne => ?_
    · rw [hself, List.length_append, List.length_singleton]
    · rw [hothers _ other hne]
  · intro key windowSeconds howed
    rcases List.mem_append.mp howed with hnew | hearlier
    · simp only [Option.mem_toList] at hnew
      split at hnew
      · cases hnew
        refine ⟨rfl, fun other hother => ?_⟩
        rw [LimitSlot.key_injective hother]
        exact hstart
      · cases hnew
    · exact h.owed_wait hclock hearlier
  · intro other
    by_cases hne : other = slot
    · subst hne
      rw [hself, List.map_append, h.outcomes other, List.length_append, List.length_singleton,
        firstAdmitted_succ]
      rfl
    · rw [hothers _ other hne, h.outcomes other]

theorem Counted.step (henabled : settings.rateLimitEnabled = true)
    (hwindow : 0 < settings.authRateLimitWindowSeconds) (h : Counted settings trace s)
    {event : LimitEvent} (hstep : LimitStep settings s event last) :
    Counted settings (trace ++ [event]) last := by
  cases hstep with
  | call hclock hhit => exact h.call henabled hwindow hclock hhit
  | @expire time key windowSeconds hclock howed =>
      obtain ⟨rfl, hstop⟩ := h.owed_wait hclock howed
      refine Counted.snoc ⟨(h.counting.wait hclock).expire hstop, ?_, h.outcomes⟩ ?_
      · intro _ _ howed'
        exact h.owed_wait hclock (List.mem_of_mem_erase howed')
      · exact fun _ _ => rfl
  | @lose key windowSeconds howed =>
      have hkept : Counted settings trace
          { s with owed := s.owed.erase (key, windowSeconds) } := by
        refine ⟨h.counting, fun _ _ howed' => ?_, h.outcomes⟩
        exact h.owed _ _ (List.mem_of_mem_erase howed')
      exact hkept.snoc fun _ _ => rfl

theorem counted_of_run (henabled : settings.rateLimitEnabled = true)
    (hwindow : 0 < settings.authRateLimitWindowSeconds) {clock : ℚ}
    (hrun : Run (LimitStep settings) (.initial clock) trace last) :
    Counted settings trace last :=
  hrun.invariant (counted_initial clock) fun _ _ _ _ _ h hstep => h.step henabled hwindow hstep

end Step

/-- In every run, a window admits its first calls up to the limit and refuses the
others, an interval as long as a window admits at most twice the limit, and how the
calls of a client to an endpoint end depends on their times only. -/
theorem limit_admits_first {settings : RateLimitSettings}
    (henabled : settings.rateLimitEnabled = true)
    (hwindow : 0 < settings.authRateLimitWindowSeconds) {clock : ℚ} {trace : List LimitEvent}
    {last : LimitState} (hrun : Run (LimitStep settings) (.initial clock) trace last)
    (endpoint : LimitedEndpoint) (client : Str) :
    (∀ bucket : ℤ, ∃ calls, calls = (callsOf endpoint client trace).filter (fun call =>
        windowOf (settings.authRateLimitWindowSeconds : ℚ) call.1 = bucket) ∧
      calls.map Prod.snd =
        List.replicate (min settings.authRateLimitPerMinute calls.length) (.ok ()) ++
        List.replicate (calls.length - settings.authRateLimitPerMinute)
          (.error tooManyRequests)) ∧
    (∀ start : ℚ, (callsOf endpoint client trace).countP (fun call => start ≤ call.1 ∧
        call.1 ≤ start + settings.authRateLimitWindowSeconds ∧ call.2 = .ok ()) ≤
      2 * settings.authRateLimitPerMinute) ∧
    (∀ clock' trace' last', Run (LimitStep settings) (.initial clock') trace' last' →
      (callsOf endpoint client trace').map Prod.fst =
        (callsOf endpoint client trace).map Prod.fst →
      callsOf endpoint client trace' = callsOf endpoint client trace) := by
  have hpositive : (0 : ℚ) < settings.authRateLimitWindowSeconds := by exact_mod_cast hwindow
  have hcounted := counted_of_run henabled hwindow hrun
  refine ⟨fun bucket => ⟨_, rfl, hcounted.outcomes ⟨endpoint, client, bucket⟩⟩, ?_, ?_⟩
  · intro start
    have hwindows : ∀ bucket, ((callsOf endpoint client trace).filter fun call =>
        windowOf (settings.authRateLimitWindowSeconds : ℚ) call.1 = bucket).countP
          (fun call => call.2 = .ok ()) ≤ settings.authRateLimitPerMinute := by
      intro bucket
      have hcount := @count_firstAdmitted_le _ _ (.ok () : Except Fault Unit)
        (.error tooManyRequests) (by simp) settings.authRateLimitPerMinute
        (callsIn settings.authRateLimitWindowSeconds ⟨endpoint, client, bucket⟩ trace).length
      rw [← hcounted.outcomes ⟨endpoint, client, bucket⟩, List.count, List.countP_map] at hcount
      exact hcount
    have hinterval := countP_interval_le hpositive hwindows start
    simpa using hinterval
  · intro clock' trace' last' hrun' htimes
    have hcounted' := counted_of_run henabled hwindow hrun'
    refine eq_of_classes (windowOf (settings.authRateLimitWindowSeconds : ℚ)) htimes ?_
    intro bucket
    have hlength : ∀ trace, (callsIn settings.authRateLimitWindowSeconds
        ⟨endpoint, client, bucket⟩ trace).length = (((callsOf endpoint client trace).map
          Prod.fst).filter fun time => windowOf (settings.authRateLimitWindowSeconds : ℚ) time =
            bucket).length := by
      intro trace
      rw [List.filter_map, List.length_map]
      rfl
    calc (callsIn settings.authRateLimitWindowSeconds ⟨endpoint, client, bucket⟩ trace').map
          Prod.snd
        = firstAdmitted (.ok ()) (.error tooManyRequests) settings.authRateLimitPerMinute _ :=
          hcounted'.outcomes _
      _ = firstAdmitted (.ok ()) (.error tooManyRequests) settings.authRateLimitPerMinute _ := by
          rw [hlength, hlength, htimes]
      _ = (callsIn settings.authRateLimitWindowSeconds ⟨endpoint, client, bucket⟩ trace).map
          Prod.snd := (hcounted.outcomes _).symm

theorem limit_admits_first_third : ∃ trace last,
    Run (LimitStep { authRateLimitPerMinute := 2 }) (.initial 0) trace last ∧
    ∃ calls, calls = (callsOf .login "::1".toList trace).filter (fun call =>
        windowOf ((60 : ℕ) : ℚ) call.1 = 0) ∧
      calls.map Prod.snd = [.ok (), .ok (), .error tooManyRequests] := by
  have hrun := ((Run.nil.snoc (@LimitStep.call { authRateLimitPerMinute := 2 } (.initial 0) 1
      .login ⟨none, some "::1".toList⟩ _ (by decide) rfl)).snoc
    (@LimitStep.call _ _ 2 .login ⟨none, some "::1".toList⟩ _ (by decide) rfl)).snoc
    (@LimitStep.call _ _ 30 .login ⟨none, some "::1".toList⟩ _ (by decide) rfl)
  obtain ⟨calls, hcalls, houtcomes⟩ :=
    (limit_admits_first rfl (by decide) hrun .login "::1".toList).1 0
  refine ⟨_, _, hrun, calls, hcalls, ?_⟩
  have hlength : calls.length = 3 := by
    rw [hcalls]
    change (List.filter _ [(1, _), (2, _), (30, _)]).length = 3
    simp [windowOf]
    norm_num
  rw [houtcomes, hlength]
  rfl

end Api
