import KnowledgePlatform.Foundations.Runs
import KnowledgePlatform.Python.Text

/-!
# The client and its tokens

The client keeps its tokens in `tokenStore`.  A request that is answered with 401
has them refreshed and is sent again: `apiFetch` through `refreshAccessToken`,
whose promise all its callers share, and `streamChatMessage` by a request to
`/auth/refresh` of its own.

`Client.next` is what the client does between two suspensions.  For the store and
the refreshes in flight a step does one of few things, which `effect_of_next` lists;
the results about sessions are derived from it.
-/

open Foundations Python

namespace Web

/-- The tokens of `tokenStore`; they are set and removed together. -/
structure Tokens where
  accessToken : Str
  refreshToken : Str
  deriving DecidableEq

/-- The shared refresh: its request is under way, or its promise is settled and
not yet forgotten. -/
inductive SharedRefresh
  | fetching (refreshToken : Str)
  | settled (refreshed : Bool)
  deriving DecidableEq

/-- The token that is being presented. -/
def SharedRefresh.token : SharedRefresh → Option Str
  | .fetching refreshToken => some refreshToken
  | .settled _ => none

/-- A call of `apiFetch`.  `owner` marks the caller that set `refreshPromise`. -/
inductive CallPhase
  | idle
  | sent (retried : Bool)
  | awaiting (owner : Bool)
  | resolved (owner refreshed : Bool)
  | over
  deriving DecidableEq

/-- A call of `streamChatMessage`. -/
inductive StreamPhase
  | idle
  | sent
  | refreshing (refreshToken : Str)
  | resent
  | over
  deriving DecidableEq

/-- The token that is being presented. -/
def StreamPhase.token : StreamPhase → Option Str
  | .refreshing refreshToken => some refreshToken
  | .idle | .sent | .resent | .over => none

structure Client where
  store : Option Tokens
  refreshPromise : Option SharedRefresh
  calls : ℕ → CallPhase
  streams : ℕ → StreamPhase

/-- Whose request to `/auth/refresh` it is. -/
inductive Requester
  | shared
  | stream (id : ℕ)
  deriving DecidableEq

/-- How a request to `/auth/refresh` ends: answered with tokens or with an error
status, or it fails. -/
inductive RefreshAnswer
  | ok (tokens : Tokens)
  | rejected
  | failed
  deriving DecidableEq

inductive ClientEvent
  | call (id : ℕ)
  | answered (id : ℕ) (unauthorized : Bool)
  | resume (id : ℕ)
  | stream (id : ℕ)
  | streamAnswered (id : ℕ) (unauthorized : Bool)
  | refreshed (who : Requester) (answer : RefreshAnswer)
  | login (tokens : Tokens)
  | logout
  | loadFailed
  deriving DecidableEq

/-- The events of calls and streams. -/
def ClientEvent.isRequest : ClientEvent → Bool
  | .call _ | .answered .. | .resume _ | .stream _ | .streamAnswered .. => true
  | .refreshed .. | .login _ | .logout | .loadFailed => false

/-- What the answer does to the store: only the shared refresh clears it. -/
def RefreshAnswer.apply (store : Option Tokens) : Requester → RefreshAnswer → Option Tokens
  | _, .ok tokens => some tokens
  | .shared, .rejected => none
  | .stream _, .rejected => store
  | _, .failed => store

def RefreshAnswer.isOk : RefreshAnswer → Bool
  | .ok _ => true
  | .rejected | .failed => false

/-- The call made the promise and has not forgotten it. -/
def CallPhase.owns : CallPhase → Bool
  | .awaiting owner | .resolved owner _ => owner
  | .idle | .sent _ | .over => false

/-- The settled promise resumes every call that awaits it. -/
def CallPhase.settle (refreshed : Bool) : CallPhase → CallPhase
  | .awaiting owner => .resolved owner refreshed
  | phase => phase

namespace Client

/-- `tokenStore.getRefreshToken()`, where an empty token does not count. -/
def getRefreshToken (client : Client) : Option Str :=
  (client.store.map Tokens.refreshToken).filter (· ≠ [])

def setCall (client : Client) (id : ℕ) (phase : CallPhase) : Client :=
  { client with calls := Function.update client.calls id phase }

def setStream (client : Client) (id : ℕ) (phase : StreamPhase) : Client :=
  { client with streams := Function.update client.streams id phase }

/-- A call enters `refreshAccessToken`. -/
def refreshAccessToken (client : Client) (id : ℕ) : Client :=
  match client.refreshPromise with
  | some (.fetching _) => client.setCall id (.awaiting false)
  | some (.settled refreshed) => client.setCall id (.resolved false refreshed)
  | none =>
      match client.getRefreshToken with
      | none => { client.setCall id (.resolved true false) with
                  refreshPromise := some (.settled false) }
      | some token => { client.setCall id (.awaiting true) with
                        refreshPromise := some (.fetching token) }

/-- One step of the client. -/
def next (client : Client) : ClientEvent → Option Client
  | .call id =>
      match client.calls id with
      | .idle => some (client.setCall id (.sent false))
      | _ => none
  | .answered id unauthorized =>
      match client.calls id with
      | .sent retried =>
          -- the second attempt passes `_retried: true` and does not refresh again
          if unauthorized && !retried then some (client.refreshAccessToken id)
          else some (client.setCall id .over)
      | _ => none
  | .resume id =>
      match client.calls id with
      | .resolved owner refreshed =>
          let client := client.setCall id (if refreshed then .sent true else .over)
          -- `finally { refreshPromise = null }` runs in the call that made the promise
          some (if owner then { client with refreshPromise := none } else client)
      | _ => none
  | .stream id =>
      match client.streams id with
      | .idle => some (client.setStream id .sent)
      | _ => none
  | .streamAnswered id unauthorized =>
      match client.streams id with
      | .sent =>
          match unauthorized, client.getRefreshToken with
          | true, some token => some (client.setStream id (.refreshing token))
          | _, _ => some (client.setStream id .over)
      -- the repeated request is not examined for 401
      | .resent => some (client.setStream id .over)
      | _ => none
  | .refreshed .shared answer =>
      match client.refreshPromise with
      | some (.fetching _) =>
          some { client with
                 store := answer.apply client.store .shared
                 refreshPromise := some (.settled answer.isOk)
                 -- every call that awaits the promise may go on
                 calls := fun id => (client.calls id).settle answer.isOk }
      | _ => none
  | .refreshed (.stream id) answer =>
      match client.streams id with
      | .refreshing _ =>
          some { client.setStream id (if answer.isOk then .resent else .over) with
                 store := answer.apply client.store (.stream id) }
      | _ => none
  | .login tokens => some { client with store := some tokens }
  | .logout | .loadFailed => some { client with store := none }

/-- The refresh token of a refresh in flight. -/
def inFlight (client : Client) : Requester → Option Str
  | .shared => client.refreshPromise.bind SharedRefresh.token
  | .stream id => (client.streams id).token

/-- The refresh that a step begins, with the token it sends to `/auth/refresh`. -/
def starts (client : Client) : ClientEvent → Option (Requester × Str)
  | .answered id true =>
      match client.calls id, client.refreshPromise with
      | .sent false, none => client.getRefreshToken.map fun token => (.shared, token)
      | _, _ => none
  | .streamAnswered id true =>
      match client.streams id with
      | .sent => client.getRefreshToken.map fun token => (.stream id, token)
      | _ => none
  | _ => none

/-- What a step does to the store and to the refreshes in flight. -/
inductive Effect (client : Client) : ClientEvent → Client → Prop
  | quiet {event : ClientEvent} {client' : Client} : event.isRequest = true →
      client.starts event = none →
      client'.store = client.store → client'.inFlight = client.inFlight →
      Effect client event client'
  | start {event : ClientEvent} {client' : Client} {who : Requester} {token : Str} :
      client.starts event = some (who, token) → client.getRefreshToken = some token →
      client.inFlight who = none → client'.store = client.store →
      client'.inFlight = Function.update client.inFlight who (some token) →
      Effect client event client'
  | refreshed {client' : Client} {who : Requester} {token : Str} {answer : RefreshAnswer} :
      client.inFlight who = some token → client'.store = answer.apply client.store who →
      client'.inFlight = Function.update client.inFlight who none →
      Effect client (.refreshed who answer) client'
  | login {tokens : Tokens} {client' : Client} : client'.store = some tokens →
      client'.inFlight = client.inFlight → Effect client (.login tokens) client'
  | logout {client' : Client} : client'.store = none →
      client'.inFlight = client.inFlight → Effect client .logout client'
  | loadFailed {client' : Client} : client'.store = none →
      client'.inFlight = client.inFlight → Effect client .loadFailed client'

/-- The promise belongs to one call, which forgets it once it is settled. -/
structure Coherent (client : Client) : Prop where
  awaiting : ∀ id, client.calls id = .awaiting true →
    ∃ token, client.refreshPromise = some (.fetching token)
  resolved : ∀ id refreshed, client.calls id = .resolved true refreshed →
    ∃ refreshed, client.refreshPromise = some (.settled refreshed)
  alone : ∀ id other, (client.calls id).owns = true → (client.calls other).owns = true → id = other

section Spec

variable {client client' : Client} {event : ClientEvent} {id : ℕ}

@[simp] theorem setCall_self (phase : CallPhase) : (client.setCall id phase).calls id = phase :=
  Function.update_self ..

@[simp] theorem setCall_of_ne {other : ℕ} (phase : CallPhase) (hne : other ≠ id) :
    (client.setCall id phase).calls other = client.calls other :=
  Function.update_of_ne hne ..

/-- Without a promise no call owns one. -/
theorem Coherent.owns_of_none (h : client.Coherent) (hnone : client.refreshPromise = none) :
    (client.calls id).owns = false := by
  cases hphase : client.calls id with
  | awaiting owner =>
      cases owner with
      | false => rfl
      | true =>
          obtain ⟨_, hpromise⟩ := h.awaiting id hphase
          cases hnone.symm.trans hpromise
  | resolved owner refreshed =>
      cases owner with
      | false => rfl
      | true =>
          obtain ⟨_, hpromise⟩ := h.resolved id refreshed hphase
          cases hnone.symm.trans hpromise
  | _ => rfl

/-- A call that moves on without the promise. -/
theorem Coherent.setCall (h : client.Coherent) {phase : CallPhase} (hphase : phase.owns = false) :
    (client.setCall id phase).Coherent := by
  have hkept : ∀ other, ((client.setCall id phase).calls other).owns = true →
      other ≠ id ∧ (client.setCall id phase).calls other = client.calls other := by
    intro other howns
    rcases eq_or_ne other id with rfl | hne
    · rw [setCall_self, hphase] at howns
      cases howns
    · exact ⟨hne, setCall_of_ne _ hne⟩
  refine ⟨fun other hawaiting => ?_, fun other refreshed hresolved => ?_, ?_⟩
  · obtain ⟨_, hsame⟩ := hkept other (by rw [hawaiting]; rfl)
    exact h.awaiting other (hsame ▸ hawaiting)
  · obtain ⟨_, hsame⟩ := hkept other (by rw [hresolved]; rfl)
    exact h.resolved other refreshed (hsame ▸ hresolved)
  · intro first second hfirst hsecond
    refine h.alone first second ?_ ?_
    · rw [← (hkept first hfirst).2]
      exact hfirst
    · rw [← (hkept second hsecond).2]
      exact hsecond

/-- A call that makes a promise. -/
theorem Coherent.makePromise (h : client.Coherent) (hnone : client.refreshPromise = none)
    {phase : CallPhase} {promise : SharedRefresh}
    (hawaiting : phase = .awaiting true → ∃ token, promise = .fetching token)
    (hresolved : ∀ refreshed, phase = .resolved true refreshed →
      ∃ refreshed, promise = .settled refreshed) :
    Coherent { client.setCall id phase with refreshPromise := some promise } := by
  have honly : ∀ other, ((client.setCall id phase).calls other).owns = true → other = id := by
    intro other howns
    by_contra hne
    rw [setCall_of_ne _ hne, h.owns_of_none hnone] at howns
    cases howns
  refine ⟨fun other hother => ?_, fun other refreshed hother => ?_,
    fun first second hfirst hsecond => (honly first hfirst).trans (honly second hsecond).symm⟩
  · replace hother : (client.setCall id phase).calls other = .awaiting true := hother
    obtain rfl := honly other (by rw [hother]; rfl)
    obtain ⟨token, rfl⟩ := hawaiting ((setCall_self phase).symm.trans hother)
    exact ⟨token, rfl⟩
  · replace hother : (client.setCall id phase).calls other = .resolved true refreshed := hother
    obtain rfl := honly other (by rw [hother]; rfl)
    obtain ⟨result, rfl⟩ := hresolved refreshed ((setCall_self phase).symm.trans hother)
    exact ⟨result, rfl⟩

theorem Coherent.refreshAccessToken (h : client.Coherent) :
    (client.refreshAccessToken id).Coherent := by
  unfold Client.refreshAccessToken
  split
  · exact h.setCall rfl
  · exact h.setCall rfl
  · next hnone =>
    split
    · exact h.makePromise hnone (fun hphase => by cases hphase) fun _ _ => ⟨false, rfl⟩
    · next token _ =>
      exact h.makePromise hnone (fun _ => ⟨token, rfl⟩) fun _ hphase => by cases hphase

/-- The promise is settled, for its owner and all that await it. -/
theorem Coherent.settle (h : client.Coherent) (store : Option Tokens) (refreshed : Bool) :
    Coherent { client with store, refreshPromise := some (.settled refreshed),
                           calls := fun id => (client.calls id).settle refreshed } := by
  have howns : ∀ id, ((client.calls id).settle refreshed).owns = (client.calls id).owns := by
    intro id
    cases client.calls id <;> rfl
  refine ⟨fun id hawaiting => ?_, fun _ _ _ => ⟨refreshed, rfl⟩, fun first second => ?_⟩
  · exfalso
    cases hphase : client.calls id <;> simp [CallPhase.settle, hphase] at hawaiting
  · intro hfirst hsecond
    exact h.alone first second (howns first ▸ hfirst) (howns second ▸ hsecond)

/-- The owner forgets the promise. -/
theorem Coherent.forget (h : client.Coherent) (howns : (client.calls id).owns = true)
    {phase : CallPhase} (hphase : phase.owns = false) :
    Coherent { client.setCall id phase with refreshPromise := none } := by
  have hnone : ∀ other, ((client.setCall id phase).calls other).owns = false := by
    intro other
    rcases eq_or_ne other id with rfl | hne
    · rw [setCall_self]
      exact hphase
    · rw [setCall_of_ne _ hne]
      by_contra hother
      exact hne (h.alone other id (Bool.not_eq_false _ ▸ hother) howns)
  refine ⟨fun other hother => ?_, fun other refreshed hother => ?_, fun other _ hother => ?_⟩
  · have hclosed := hnone other
    rw [show (client.setCall id phase).calls other = _ from hother] at hclosed
    cases hclosed
  · have hclosed := hnone other
    rw [show (client.setCall id phase).calls other = _ from hother] at hclosed
    cases hclosed
  · cases (hnone other).symm.trans hother

theorem Coherent.next (h : client.Coherent) (hnext : client.next event = some client') :
    client'.Coherent := by
  cases event with
  | call id =>
      simp only [Client.next] at hnext
      split at hnext
      · cases hnext
        exact h.setCall rfl
      · cases hnext
  | answered id unauthorized =>
      simp only [Client.next] at hnext
      split at hnext
      · split at hnext
        · cases hnext
          exact h.refreshAccessToken
        · cases hnext
          exact h.setCall rfl
      · cases hnext
  | resume id =>
      simp only [Client.next] at hnext
      split at hnext
      · next owner refreshed hphase =>
        have hclosed : (if refreshed then CallPhase.sent true else .over).owns = false := by
          cases refreshed <;> rfl
        split at hnext
        · next howner =>
          cases hnext
          exact h.forget (by rw [hphase, howner]; rfl) hclosed
        · cases hnext
          exact h.setCall hclosed
      · cases hnext
  | stream id =>
      simp only [Client.next] at hnext
      split at hnext
      · cases hnext
        exact ⟨h.awaiting, h.resolved, h.alone⟩
      · cases hnext
  | streamAnswered id unauthorized =>
      simp only [Client.next] at hnext
      split at hnext
      · split at hnext
        · cases hnext
          exact ⟨h.awaiting, h.resolved, h.alone⟩
        · cases hnext
          exact ⟨h.awaiting, h.resolved, h.alone⟩
      · cases hnext
        exact ⟨h.awaiting, h.resolved, h.alone⟩
      · cases hnext
  | refreshed who answer =>
      cases who with
      | shared =>
          simp only [Client.next] at hnext
          split at hnext
          · cases hnext
            exact h.settle _ _
          · cases hnext
      | stream id =>
          simp only [Client.next] at hnext
          split at hnext
          · cases hnext
            exact ⟨h.awaiting, h.resolved, h.alone⟩
          · cases hnext
  | login tokens =>
      cases hnext
      exact ⟨h.awaiting, h.resolved, h.alone⟩
  | logout =>
      cases hnext
      exact ⟨h.awaiting, h.resolved, h.alone⟩
  | loadFailed =>
      cases hnext
      exact ⟨h.awaiting, h.resolved, h.alone⟩

/-! ## Effects -/

theorem inFlight_setCall (phase : CallPhase) :
    (client.setCall id phase).inFlight = client.inFlight := by
  funext who
  cases who <;> rfl

/-- A change of the promise, whatever happens to the store and the calls. -/
theorem inFlight_promise (store : Option Tokens) (promise : Option SharedRefresh)
    (calls : ℕ → CallPhase) :
    inFlight { client with store, refreshPromise := promise, calls } =
      Function.update client.inFlight .shared (promise.bind SharedRefresh.token) := by
  funext who
  cases who with
  | shared =>
      rw [Function.update_self]
      rfl
  | stream id =>
      rw [Function.update_of_ne (by simp)]
      rfl

theorem inFlight_setStream (phase : StreamPhase) (store : Option Tokens) :
    inFlight { client.setStream id phase with store } =
      Function.update client.inFlight (.stream id) phase.token := by
  funext who
  cases who with
  | shared =>
      rw [Function.update_of_ne (by simp)]
      rfl
  | stream other =>
      show (Function.update client.streams id phase other).token = _
      rcases eq_or_ne other id with rfl | hne
      · rw [Function.update_self, Function.update_self]
      · rw [Function.update_of_ne hne, Function.update_of_ne (by simpa using hne)]
        rfl

/-- The promise is made or forgotten while none is under way. -/
theorem inFlight_promise_idle {promise : Option SharedRefresh} (calls : ℕ → CallPhase)
    (hnow : client.refreshPromise.bind SharedRefresh.token = none)
    (hthen : promise.bind SharedRefresh.token = none) :
    inFlight { client with refreshPromise := promise, calls } = client.inFlight := by
  have hidle : client.inFlight .shared = none := hnow
  rw [show inFlight { client with refreshPromise := promise, calls } = _ from
    inFlight_promise client.store promise calls, hthen, ← hidle, Function.update_eq_self]

/-- A stream that goes on without a refresh. -/
theorem inFlight_setStream_idle {phase : StreamPhase} (hnow : (client.streams id).token = none)
    (hthen : phase.token = none) : (client.setStream id phase).inFlight = client.inFlight := by
  have hidle : client.inFlight (.stream id) = none := hnow
  rw [show inFlight (client.setStream id phase) = _ from inFlight_setStream phase client.store,
    hthen, ← hidle, Function.update_eq_self]

/-- The effect of entering `refreshAccessToken`. -/
theorem effect_refreshAccessToken (hphase : client.calls id = .sent false) :
    Effect client (.answered id true) (client.refreshAccessToken id) := by
  unfold Client.refreshAccessToken
  split
  · next hpromise =>
    exact .quiet rfl (by simp [starts, hphase, hpromise]) rfl (inFlight_setCall _)
  · next hpromise =>
    exact .quiet rfl (by simp [starts, hphase, hpromise]) rfl (inFlight_setCall _)
  · next hpromise =>
    have hidle : client.inFlight .shared = none := by simp [inFlight, hpromise]
    split
    · next htoken =>
      exact .quiet rfl (by simp [starts, hphase, hpromise, htoken]) rfl
        (inFlight_promise_idle _ hidle rfl)
    · next token htoken =>
      exact .start (by simp [starts, hphase, hpromise, htoken]) htoken hidle rfl
        (inFlight_promise _ _ _)

/-- What a step of the client does. -/
theorem effect_of_next (h : client.Coherent) (hnext : client.next event = some client') :
    Effect client event client' := by
  cases event with
  | call id =>
      simp only [Client.next] at hnext
      split at hnext
      · cases hnext
        exact .quiet rfl rfl rfl (inFlight_setCall _)
      · cases hnext
  | answered id unauthorized =>
      simp only [Client.next] at hnext
      split at hnext
      · next retried hphase =>
        split at hnext
        · next hrefresh =>
          obtain ⟨rfl, hretried⟩ := Bool.and_eq_true_iff.mp hrefresh
          obtain rfl : retried = false := by simpa using hretried
          cases hnext
          exact effect_refreshAccessToken hphase
        · next hrefresh =>
          cases hnext
          refine .quiet rfl ?_ rfl (inFlight_setCall _)
          cases unauthorized <;> cases retried <;> simp_all [starts]
      · cases hnext
  | resume id =>
      simp only [Client.next] at hnext
      split at hnext
      · next owner refreshed hphase =>
        split at hnext
        · next howner =>
          cases hnext
          -- the promise the owner forgets is settled, so no request runs under it
          obtain ⟨_, hpromise⟩ := h.resolved id refreshed (by rw [hphase, howner])
          have hsettled : client.refreshPromise.bind SharedRefresh.token = none := by
            rw [hpromise]
            rfl
          exact .quiet rfl rfl rfl (inFlight_promise_idle _ hsettled rfl)
        · cases hnext
          exact .quiet rfl rfl rfl (inFlight_setCall _)
      · cases hnext
  | stream id =>
      simp only [Client.next] at hnext
      split at hnext
      · next hphase =>
        cases hnext
        exact .quiet rfl rfl rfl (inFlight_setStream_idle (by rw [hphase]; rfl) rfl)
      · cases hnext
  | streamAnswered id unauthorized =>
      simp only [Client.next] at hnext
      split at hnext
      · next hphase =>
        have hidle : client.inFlight (.stream id) = none :=
          show (client.streams id).token = none by rw [hphase]; rfl
        split at hnext
        · next token htoken =>
          cases hnext
          exact .start (by simp [starts, hphase, htoken]) htoken hidle rfl
            (inFlight_setStream _ _)
        · next unauthorized _ _ hnone =>
          cases hnext
          have hstarts : client.starts (.streamAnswered id unauthorized) = none := by
            cases unauthorized with
            | false => rfl
            | true =>
                cases htoken : client.getRefreshToken with
                | none => simp [starts, hphase, htoken]
                | some token => exact absurd htoken (hnone token rfl)
          exact .quiet rfl hstarts rfl (inFlight_setStream_idle hidle rfl)
      · next hphase =>
        cases hnext
        refine .quiet rfl ?_ rfl (inFlight_setStream_idle (by rw [hphase]; rfl) rfl)
        cases unauthorized <;> simp [starts, hphase]
      · cases hnext
  | refreshed who answer =>
      cases who with
      | shared =>
          simp only [Client.next] at hnext
          split at hnext
          · next token hpromise =>
            cases hnext
            exact .refreshed (show client.refreshPromise.bind _ = some token by rw [hpromise]; rfl)
              rfl (inFlight_promise _ _ _)
          · cases hnext
      | stream id =>
          simp only [Client.next] at hnext
          split at hnext
          · next token hphase =>
            cases hnext
            refine .refreshed (show (client.streams id).token = some token by rw [hphase]; rfl)
              rfl ?_
            rw [inFlight_setStream]
            cases answer <;> rfl
          · cases hnext
  | login tokens =>
      cases hnext
      exact .login rfl rfl
  | logout =>
      cases hnext
      exact .logout rfl rfl
  | loadFailed =>
      cases hnext
      exact .loadFailed rfl rfl

end Spec

end Client

end Web
