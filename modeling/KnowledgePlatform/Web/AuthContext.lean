import KnowledgePlatform.Core.Models
import KnowledgePlatform.Web.Sessions

/-!
# The session on the page

`AuthProvider` shows who is signed in.  `loadSession` asks for the user and the
organization with the tokens of the store, and the page shows what comes back; a
listener of the store makes it anonymous when the tokens are gone.  In between,
requests are answered late, tokens are refreshed, and sessions end and begin.  The store
is the `localStorage` of the browser, which other tabs write too; of that no listener is
told.

The page shows the account of the tokens in the store, unless one of three things
happens (`AuthRun.Timely` excludes them).

* Another tab clears the store or signs in to another account.
* An answer that `loadSession` or `refreshOrganization` waits for arrives in a later
  session than the one it was asked in.
* So does the answer of a refresh, which brings back the tokens of the session before.

Signing in again is no exception: the page shows the former account until it has
loaded the new one.
-/

open Core Foundations Python

namespace Web

/-! ## What is shown -/

structure UserOut where
  id : Str
  orgId : Str
  email : Str
  fullName : Option Str
  role : UserRole
  isActive : Bool
  createdAt : Str
  deriving DecidableEq

structure OrganizationOut where
  id : Str
  name : Str
  slug : Str
  monthlyBudgetUsd : Option Str
  createdAt : Str
  deriving DecidableEq

inductive AuthStatus
  | loading
  | authenticated
  | anonymous
  deriving DecidableEq

/-- What an answer is read as. -/
inductive ApiBody
  | me (user : UserOut)
  | organizationsMe (organization : OrganizationOut)
  | other

/-- A call of `loadSession` that waits for its two requests, with the answers so far. -/
structure SessionLoad where
  me : ℕ
  organizationsMe : ℕ
  user : Option UserOut
  organization : Option OrganizationOut
  deriving DecidableEq

namespace SessionLoad

def waitsFor (load : SessionLoad) (id : ℕ) : Bool := load.me == id || load.organizationsMe == id

def receive (load : SessionLoad) (id : ℕ) : ApiBody → SessionLoad
  | .me user => if load.me = id then { load with user := some user } else load
  | .organizationsMe organization =>
      if load.organizationsMe = id then { load with organization := some organization } else load
  | .other => load

/-- What `Promise.all` is resolved to. -/
def both (load : SessionLoad) : Option (UserOut × OrganizationOut) :=
  match load.user, load.organization with
  | some user, some organization => some (user, organization)
  | _, _ => none

end SessionLoad

/-- `tokenStore.getAccessToken()`, where an empty token does not count. -/
def Client.getAccessToken (client : Client) : Option Str :=
  (client.store.map Tokens.accessToken).filter (· ≠ [])

/-- Whether the answer is stored or has the store cleared, of which listeners are told. -/
def RefreshAnswer.notifies : Requester → RefreshAnswer → Bool
  | _, .ok _ | .shared, .rejected => true
  | .stream _, .rejected | _, .failed => false

/-- The state of the provider, with the token each request was last sent with, the calls
of `loadSession` and the requests of `refreshOrganization` that wait. -/
structure AuthProvider where
  client : Client
  attached : ℕ → Option Str
  user : Option UserOut
  organization : Option OrganizationOut
  status : AuthStatus
  loads : List SessionLoad
  refreshing : List ℕ

/-- What happens to the provider between two suspensions.  A request is answered with
401 (`unauthorized`) or otherwise; `none` is an answer that `apiFetch` throws for.
`elsewhere` is another tab that writes the store. -/
inductive AuthEvent
  | loadSession (me organizationsMe : ℕ)
  | login (tokens : Tokens) (me organizationsMe : ℕ)
  | logout
  | refreshOrganization (id : ℕ)
  | call (id : ℕ)
  | responded (id : ℕ) (body : Option ApiBody)
  | unauthorized (id : ℕ)
  | resume (id : ℕ)
  | stream (id : ℕ)
  | streamAnswered (id : ℕ) (unauthorized : Bool)
  | refreshed (who : Requester) (answer : RefreshAnswer)
  | elsewhere (store : Option Tokens)

namespace AuthProvider

def anonymous (provider : AuthProvider) : AuthProvider :=
  { provider with user := none, organization := none, status := .anonymous }

def setStore (provider : AuthProvider) (store : Option Tokens) : AuthProvider :=
  { provider with client := { provider.client with store } }

/-- The listener of `tokenStore`. -/
def notified (provider : AuthProvider) : AuthProvider :=
  if provider.client.getAccessToken = none then provider.anonymous else provider

/-- A request with the access token of the store. -/
def apiFetch (provider : AuthProvider) (id : ℕ) : Option AuthProvider :=
  (provider.client.next (.call id)).map fun client =>
    { provider with
      client
      attached := Function.update provider.attached id provider.client.getAccessToken }

def loadSession (provider : AuthProvider) (me organizationsMe : ℕ) : Option AuthProvider :=
  if provider.client.getAccessToken = none then some provider.anonymous
  else do
    let provider ← provider.apiFetch me
    let provider ← provider.apiFetch organizationsMe
    some { provider with loads := provider.loads ++ [⟨me, organizationsMe, none, none⟩] }

/-- The promise of a call is rejected. -/
def rejected (provider : AuthProvider) (id : ℕ) : AuthProvider :=
  if provider.loads.any (·.waitsFor id) then
    -- the `catch` block of `loadSession`
    { (provider.setStore none).anonymous with
      loads := provider.loads.filter fun load => !load.waitsFor id }
  else { provider with refreshing := provider.refreshing.filter (· ≠ id) }

/-- The answers of a call of `loadSession` are shown once both are there. -/
def showLoaded (provider : AuthProvider) (loads : List SessionLoad) : AuthProvider :=
  let provider := match loads.findSome? SessionLoad.both with
    | some (user, organization) =>
        { provider with
          user := some user
          organization := some organization
          status := .authenticated }
    | none => provider
  { provider with loads := loads.filter fun load => load.both.isNone }

/-- `refreshOrganization` after its request. -/
def showOrganization (provider : AuthProvider) (id : ℕ) : ApiBody → AuthProvider
  | .organizationsMe organization =>
      if id ∈ provider.refreshing then
        { provider with
          organization := some organization
          refreshing := provider.refreshing.filter (· ≠ id) }
      else provider
  | .me _ | .other => provider

def received (provider : AuthProvider) (id : ℕ) (body : ApiBody) : List SessionLoad :=
  provider.loads.map fun load => load.receive id body

/-- The promise of a call is resolved. -/
def resolved (provider : AuthProvider) (id : ℕ) (body : ApiBody) : AuthProvider :=
  (provider.showLoaded (provider.received id body)).showOrganization id body

/-- A call goes on without an answer: its promise is rejected, it is sent again, or it
waits. -/
def continued (provider : AuthProvider) (id : ℕ) : AuthProvider :=
  match provider.client.calls id with
  | .over => provider.rejected id
  | .sent _ =>
      { provider with
        attached := Function.update provider.attached id provider.client.getAccessToken }
  | .idle | .awaiting _ | .resolved .. => provider

/-- One step of the provider. -/
def next (provider : AuthProvider) : AuthEvent → Option AuthProvider
  | .loadSession me organizationsMe => provider.loadSession me organizationsMe
  | .login tokens me organizationsMe =>
      (provider.setStore (some tokens)).notified.loadSession me organizationsMe
  | .logout => some (provider.setStore none).anonymous
  | .refreshOrganization id =>
      (provider.apiFetch id).map fun provider =>
        { provider with refreshing := provider.refreshing ++ [id] }
  | .call id => provider.apiFetch id
  | .responded id body =>
      (provider.client.next (.answered id false)).map fun client =>
        match body with
        | none => { provider with client }.rejected id
        | some body => { provider with client }.resolved id body
  | .unauthorized id =>
      (provider.client.next (.answered id true)).map fun client =>
        { provider with client }.continued id
  | .resume id =>
      (provider.client.next (.resume id)).map fun client =>
        { provider with client }.continued id
  | .stream id => (provider.client.next (.stream id)).map fun client => { provider with client }
  | .streamAnswered id unauthorized =>
      (provider.client.next (.streamAnswered id unauthorized)).map fun client =>
        { provider with client }
  | .refreshed who answer =>
      (provider.client.next (.refreshed who answer)).map fun client =>
        if answer.notifies who then { provider with client }.notified else { provider with client }
  | .elsewhere store => some (provider.setStore store)

/-- The provider when the page is opened. -/
def opened (store : Option Tokens) : AuthProvider :=
  ⟨.loaded store, fun _ => none, none, none, .loading, [], []⟩

end AuthProvider

/-! ## Sessions -/

def AuthEvent.isLogin : AuthEvent → Bool
  | .login .. => true
  | .loadSession .. | .logout | .refreshOrganization _ | .call _ | .responded .. | .unauthorized _
  | .resume _ | .stream _ | .streamAnswered .. | .refreshed .. | .elsewhere _ => false

/-- The provider with a count of its sessions.  One begins with every login, and one ends
when the store is cleared; `began` and `refreshBegan` tell in which session a request was
first sent and in which a refresh was begun. -/
structure AuthRun where
  provider : AuthProvider
  session : ℕ
  began : ℕ → ℕ
  refreshBegan : Requester → ℕ

/-- The account that a token was issued to. -/
structure Account where
  userId : Str
  orgId : Str
  deriving DecidableEq

def UserOut.account (user : UserOut) : Account := ⟨user.id, user.orgId⟩

/-- The tokens of the store belong to the account. -/
def Client.Holds (account : Str → Account) (client : Client) (owner : Account) : Prop :=
  ∃ tokens, client.store = some tokens ∧ account tokens.accessToken = owner ∧
    account tokens.refreshToken = owner

namespace AuthRun

/-- The session after a step. -/
def sessionAfter (run : AuthRun) (event : AuthEvent) (provider : AuthProvider) : ℕ :=
  if event.isLogin || (run.provider.client.store.isSome && provider.client.store.isNone) then
    run.session + 1
  else run.session

/-- The run after a step of the provider. -/
def after (run : AuthRun) (event : AuthEvent) (provider : AuthProvider) : AuthRun where
  provider
  session := run.sessionAfter event provider
  began id :=
    if run.provider.client.calls id = .idle ∧ provider.client.calls id ≠ .idle then
      run.sessionAfter event provider
    else run.began id
  refreshBegan who :=
    if run.provider.client.inFlight who = none ∧ provider.client.inFlight who ≠ none then
      run.sessionAfter event provider
    else run.refreshBegan who

def next (run : AuthRun) (event : AuthEvent) : Option AuthRun :=
  (run.provider.next event).map (run.after event)

/-- What the server answers: an access token gets its own user and organization, and a
refresh token a pair of tokens of the same account. -/
def Served (account : Str → Account) (provider : AuthProvider) : AuthEvent → Prop
  | .login tokens _ _ => account tokens.accessToken = account tokens.refreshToken
  | .responded id (some (.me user)) =>
      ∃ token, provider.attached id = some token ∧ account token = user.account
  | .responded id (some (.organizationsMe organization)) =>
      ∃ token, provider.attached id = some token ∧ (account token).orgId = organization.id
  | .refreshed who (.ok tokens) => ∀ token, provider.client.inFlight who = some token →
      account tokens.accessToken = account token ∧ account tokens.refreshToken = account token
  | .elsewhere (some tokens) => account tokens.accessToken = account tokens.refreshToken
  | _ => True

/-- The runs of a provider that was opened with the tokens of the store. -/
abbrev Runs (account : Str → Account) : AuthRun → List AuthEvent → AuthRun → Prop :=
  Run fun run event run' => run.next event = some run' ∧ Served account run.provider event

/-- `loadSession` or `refreshOrganization` waits for the request. -/
def Awaits (provider : AuthProvider) (id : ℕ) : Prop :=
  (∃ load ∈ provider.loads, load.waitsFor id = true) ∨ id ∈ provider.refreshing

/-- An answer that is used arrives in the session in which it was asked for, and another
tab leaves the account of the store as it is. -/
def InTime (run : AuthRun) (account : Str → Account) : AuthEvent → Prop
  | .responded id (some _) => Awaits run.provider id → run.began id = run.session
  | .refreshed who (.ok _) => run.refreshBegan who = run.session
  | .elsewhere store => ∀ owner, run.provider.client.Holds account owner →
      (run.provider.setStore store).client.Holds account owner
  | _ => True

/-- No answer that is used arrives late, and no other tab changes the account. -/
def Timely (account : Str → Account) (start : AuthRun) (trace : List AuthEvent) : Prop :=
  ∀ before event run, before ++ [event] <+: trace → Runs account start before run →
    run.InTime account event

def opened (store : Option Tokens) : AuthRun := ⟨.opened store, 0, fun _ => 0, fun _ => 0⟩

/-! ## What holds in time -/

/-- What the load has got belongs to the account of the store. -/
structure Owned (account : Str → Account) (client : Client) (load : SessionLoad) : Prop where
  held : ∃ tokens, client.store = some tokens
  user : ∀ user, load.user = some user → client.Holds account user.account
  organization : ∀ organization, load.organization = some organization →
    ∃ owner, client.Holds account owner ∧ owner.orgId = organization.id

/-- The page shows the account of the tokens in the store. -/
def ShowsStored (account : Str → Account) (provider : AuthProvider) : Prop :=
  ∃ user organization, provider.user = some user ∧ provider.organization = some organization ∧
    provider.client.Holds account user.account ∧ organization.id = user.orgId

/-- What began in the session belongs to the account of the store, and so does what is
shown, unless a load of the session is under way. -/
structure Sound (account : Str → Account) (run : AuthRun) : Prop where
  coherent : run.provider.client.Coherent
  paired : ∀ tokens, run.provider.client.store = some tokens →
    account tokens.accessToken = account tokens.refreshToken
  began_le : ∀ id, run.began id ≤ run.session
  refreshBegan_le : ∀ who, run.refreshBegan who ≤ run.session
  refreshes : ∀ who token, run.provider.client.inFlight who = some token →
    run.refreshBegan who = run.session → run.provider.client.Holds account (account token)
  attached : ∀ id token, run.provider.attached id = some token →
    run.provider.client.calls id ≠ .idle ∧
      (run.began id = run.session → run.provider.client.Holds account (account token))
  loads : ∀ load ∈ run.provider.loads, run.provider.client.calls load.me ≠ .idle ∧
    run.provider.client.calls load.organizationsMe ≠ .idle ∧
    run.began load.organizationsMe = run.began load.me ∧
    (run.began load.me = run.session → Owned account run.provider.client load)
  waiting : ∀ load ∈ run.provider.loads, load.both = none
  shown : run.provider.status = .authenticated →
    (∃ load ∈ run.provider.loads, run.began load.me = run.session) ∨
      ShowsStored account run.provider

section Spec

variable {account : Str → Account} {run run' : AuthRun} {event : AuthEvent}
  {provider' : AuthProvider} {client client' : Client}

theorem Holds.unique {owner other : Account} (h : client.Holds account owner)
    (hother : client.Holds account other) : owner = other := by
  obtain ⟨tokens, hstore, rfl, _⟩ := h
  obtain ⟨tokens', hstore', rfl, _⟩ := hother
  cases hstore.symm.trans hstore'
  rfl

/-- What is held depends on the store only. -/
theorem holds_congr {owner : Account} (h : client'.store = client.store) :
    client'.Holds account owner ↔ client.Holds account owner := by
  rw [Client.Holds, Client.Holds, h]

theorem holds_of_store {tokens : Tokens} (hstore : client.store = some tokens)
    (hpaired : ∀ tokens, client.store = some tokens →
      account tokens.accessToken = account tokens.refreshToken) :
    client.Holds account (account tokens.accessToken) :=
  ⟨tokens, hstore, rfl, (hpaired tokens hstore).symm⟩

/-- A load keeps what it has got as long as the account is held. -/
theorem Owned.mono {load : SessionLoad} (h : Owned account client load)
    (hpaired : ∀ tokens, client.store = some tokens →
      account tokens.accessToken = account tokens.refreshToken)
    (hkeeps : ∀ owner, client.Holds account owner → client'.Holds account owner) :
    Owned account client' load := by
  obtain ⟨tokens, hstore⟩ := h.held
  obtain ⟨tokens', hstore', _⟩ := hkeeps _ (holds_of_store hstore hpaired)
  refine ⟨⟨tokens', hstore'⟩, fun user huser => hkeeps _ (h.user user huser), ?_⟩
  intro organization horganization
  obtain ⟨owner, howner, hid⟩ := h.organization organization horganization
  exact ⟨owner, hkeeps owner howner, hid⟩

/-! ### What a step has to keep -/

/-- What a step does to the parts that the account of the store is about. -/
structure Carries (account : Str → Account) (run : AuthRun) (event : AuthEvent)
    (provider : AuthProvider) : Prop where
  coherent : provider.client.Coherent
  calls : ∀ id, run.provider.client.calls id ≠ .idle → provider.client.calls id ≠ .idle
  paired : ∀ tokens, provider.client.store = some tokens →
    account tokens.accessToken = account tokens.refreshToken
  keeps : run.sessionAfter event provider = run.session → ∀ owner,
    run.provider.client.Holds account owner → provider.client.Holds account owner
  refreshes : ∀ who token, provider.client.inFlight who = some token →
    run.provider.client.inFlight who = some token ∨
      provider.client.Holds account (account token)
  attached : ∀ id token, provider.attached id = some token →
    run.provider.attached id = some token ∨
      provider.client.calls id ≠ .idle ∧ provider.client.Holds account (account token)
  loads : ∀ load ∈ provider.loads,
    (∃ old ∈ run.provider.loads, load.me = old.me ∧ load.organizationsMe = old.organizationsMe ∧
      (run.sessionAfter event provider = run.session → run.began old.me = run.session →
        Owned account run.provider.client old → Owned account provider.client load)) ∨
      run.provider.client.calls load.me = .idle ∧
        run.provider.client.calls load.organizationsMe = .idle ∧
        provider.client.calls load.me ≠ .idle ∧
        provider.client.calls load.organizationsMe ≠ .idle ∧ Owned account provider.client load
  waiting : ∀ load ∈ provider.loads, load.both = none

theorem sessionAfter_cases (run : AuthRun) (event : AuthEvent) (provider : AuthProvider) :
    run.sessionAfter event provider = run.session ∨
      run.sessionAfter event provider = run.session + 1 := by
  unfold sessionAfter
  split
  · exact .inr rfl
  · exact .inl rfl

/-- Without a login, the session goes on as long as the store has tokens. -/
theorem sessionAfter_of_store (hlogin : event.isLogin = false)
    (hstore : run.provider.client.store.isSome = true →
      provider'.client.store.isSome = true) :
    run.sessionAfter event provider' = run.session := by
  refine if_neg fun hnew => ?_
  rw [hlogin, Bool.false_or, Bool.and_eq_true] at hnew
  have hsome := hstore hnew.1
  rw [Option.isNone_iff_eq_none] at hnew
  rw [hnew.2] at hsome
  cases hsome

theorem began_after_of_ne_idle {id : ℕ} (h : run.provider.client.calls id ≠ .idle) :
    (run.after event provider').began id = run.began id :=
  if_neg fun hnew => h hnew.1

theorem began_after_of_idle {id : ℕ} (hidle : run.provider.client.calls id = .idle)
    (hsent : provider'.client.calls id ≠ .idle) :
    (run.after event provider').began id = run.sessionAfter event provider' :=
  if_pos ⟨hidle, hsent⟩

/-- Something of the session before is not of this one. -/
theorem session_of_began {began : ℕ} (hle : began ≤ run.session)
    (h : began = run.sessionAfter event provider') :
    run.sessionAfter event provider' = run.session ∧ began = run.session := by
  rcases sessionAfter_cases run event provider' with hsame | hnew
  · exact ⟨hsame, h.trans hsame⟩
  · omega

/-- A step that carries the parts on is sound if it shows what it should. -/
theorem Sound.after (h : Sound account run) (hcarries : Carries account run event provider')
    (hshown : provider'.status = .authenticated →
      (∃ load ∈ provider'.loads, (run.after event provider').began load.me =
        run.sessionAfter event provider') ∨ ShowsStored account provider') :
    Sound account (run.after event provider') := by
  have hle : run.session ≤ run.sessionAfter event provider' := by
    rcases sessionAfter_cases run event provider' with hsame | hnew <;> omega
  refine ⟨hcarries.coherent, hcarries.paired, fun id => ?_, fun who => ?_,
    fun who token hflight hbegan => ?_, fun id token hattached => ?_, fun load hload => ?_,
    hcarries.waiting, hshown⟩
  · unfold AuthRun.after
    dsimp only
    split
    · exact le_rfl
    · exact (h.began_le id).trans hle
  · unfold AuthRun.after
    dsimp only
    split
    · exact le_rfl
    · exact (h.refreshBegan_le who).trans hle
  · rcases hcarries.refreshes who token hflight with hearlier | hholds
    · have hold : (run.after event provider').refreshBegan who = run.refreshBegan who := by
        refine if_neg fun hnew => ?_
        rw [hnew.1] at hearlier
        cases hearlier
      rw [hold] at hbegan
      obtain ⟨hsame, hcurrent⟩ := session_of_began (h.refreshBegan_le who) hbegan
      exact hcarries.keeps hsame _ (h.refreshes who token hearlier hcurrent)
    · exact hholds
  · rcases hcarries.attached id token hattached with hearlier | ⟨hsent, hholds⟩
    · obtain ⟨hsent, hholds⟩ := h.attached id token hearlier
      refine ⟨hcarries.calls id hsent, fun hbegan => ?_⟩
      rw [began_after_of_ne_idle hsent] at hbegan
      obtain ⟨hsame, hcurrent⟩ := session_of_began (h.began_le id) hbegan
      exact hcarries.keeps hsame _ (hholds hcurrent)
    · exact ⟨hsent, fun _ => hholds⟩
  · rcases hcarries.loads load hload with
      ⟨old, hold, hme, horganization, howned⟩ | ⟨hidle, hidle', hsent, hsent', howned⟩
    · obtain ⟨hsent, hsent', hbegan, holdOwned⟩ := h.loads old hold
      rw [hme, horganization]
      refine ⟨hcarries.calls _ hsent, hcarries.calls _ hsent', ?_, fun hcurrent => ?_⟩
      · rw [began_after_of_ne_idle hsent, began_after_of_ne_idle hsent', hbegan]
      · rw [began_after_of_ne_idle hsent] at hcurrent
        obtain ⟨hsame, hcurrent⟩ := session_of_began (h.began_le _) hcurrent
        exact howned hsame hcurrent (holdOwned hcurrent)
    · refine ⟨hsent, hsent', ?_, fun _ => howned⟩
      rw [began_after_of_idle hidle hsent, began_after_of_idle hidle' hsent']

/-! ### Requests of the client -/

theorem calls_setCall_ne_idle {id other : ℕ} {phase : CallPhase} (hphase : phase ≠ .idle)
    (h : client.calls other ≠ .idle) : (client.setCall id phase).calls other ≠ .idle := by
  rcases eq_or_ne other id with rfl | hne
  · rwa [Client.setCall_self]
  · rwa [Client.setCall_of_ne _ hne]

/-- What was called stays called. -/
theorem calls_ne_idle_of_next {event : ClientEvent} {id : ℕ}
    (hnext : client.next event = some client') (h : client.calls id ≠ .idle) :
    client'.calls id ≠ .idle := by
  cases event with
  | call other =>
      simp only [Client.next] at hnext
      split at hnext
      · cases hnext
        exact calls_setCall_ne_idle (by simp) h
      · cases hnext
  | answered other unauthorized =>
      simp only [Client.next] at hnext
      split at hnext
      · split at hnext
        · cases hnext
          unfold Client.refreshAccessToken
          split
          · exact calls_setCall_ne_idle (by simp) h
          · exact calls_setCall_ne_idle (by simp) h
          · split
            · have hphase : CallPhase.resolved true false ≠ .idle := by simp
              exact calls_setCall_ne_idle hphase h
            · have hphase : CallPhase.awaiting true ≠ .idle := by simp
              exact calls_setCall_ne_idle hphase h
        · cases hnext
          exact calls_setCall_ne_idle (by simp) h
      · cases hnext
  | resume other =>
      simp only [Client.next] at hnext
      split at hnext
      · next owner refreshed _ =>
          have hphase : (if refreshed then CallPhase.sent true else .over) ≠ .idle := by
            cases refreshed <;> simp
          split at hnext
          · cases hnext
            exact calls_setCall_ne_idle hphase h
          · cases hnext
            exact calls_setCall_ne_idle hphase h
      · cases hnext
  | stream other =>
      simp only [Client.next] at hnext
      split at hnext
      · cases hnext
        exact h
      · cases hnext
  | streamAnswered other unauthorized =>
      simp only [Client.next] at hnext
      split at hnext
      · split at hnext
        · cases hnext
          exact h
        · cases hnext
          exact h
      · cases hnext
        exact h
      · cases hnext
  | refreshed who answer =>
      cases who with
      | shared =>
          simp only [Client.next] at hnext
          split at hnext
          · cases hnext
            change (client.calls id).settle answer.isOk ≠ .idle
            cases hphase : client.calls id with
            | idle => exact absurd hphase h
            | _ =>
                intro hsettled
                cases hsettled
          · cases hnext
      | stream other =>
          simp only [Client.next] at hnext
          split at hnext
          · cases hnext
            exact h
          · cases hnext
  | login tokens =>
      cases hnext
      exact h
  | logout =>
      cases hnext
      exact h
  | loadFailed =>
      cases hnext
      exact h

/-- What requests of the client change: refreshes may have begun, with the token of the
store. -/
structure Requests (client client' : Client) : Prop where
  coherent : client'.Coherent
  store : client'.store = client.store
  calls : ∀ id, client.calls id ≠ .idle → client'.calls id ≠ .idle
  refreshes : ∀ who token, client'.inFlight who = some token →
    client.inFlight who = some token ∨ client.getRefreshToken = some token

theorem requests_of_next {event : ClientEvent} (h : client.Coherent)
    (hrequest : event.isRequest = true) (hnext : client.next event = some client') :
    Requests client client' := by
  have hcalls : ∀ id, client.calls id ≠ .idle → client'.calls id ≠ .idle :=
    fun id hid => calls_ne_idle_of_next hnext hid
  cases Client.effect_of_next h hnext with
  | quiet _ _ hstore hflights =>
      exact ⟨h.next hnext, hstore, hcalls, fun who token hflight => .inl (hflights ▸ hflight)⟩
  | @start _ _ who token _ htoken _ hstore hflights =>
      refine ⟨h.next hnext, hstore, hcalls, fun other token' hflight => ?_⟩
      rw [hflights] at hflight
      rcases eq_or_ne other who with rfl | hne
      · rw [Function.update_self] at hflight
        cases hflight
        exact .inr htoken
      · rw [Function.update_of_ne hne] at hflight
        exact .inl hflight
  | refreshed => cases hrequest
  | login => cases hrequest
  | logout => cases hrequest
  | loadFailed => cases hrequest

theorem Requests.refl (h : client.Coherent) : Requests client client :=
  ⟨h, rfl, fun _ hcall => hcall, fun _ _ hflight => .inl hflight⟩

theorem Requests.trans {client'' : Client} (hfirst : Requests client client')
    (hsecond : Requests client' client'') : Requests client client'' := by
  refine ⟨hsecond.coherent, hsecond.store.trans hfirst.store,
    fun id hcall => hsecond.calls id (hfirst.calls id hcall), fun who token hflight => ?_⟩
  rcases hsecond.refreshes who token hflight with hearlier | htoken
  · exact hfirst.refreshes who token hearlier
  · rw [Client.getRefreshToken, hfirst.store] at htoken
    exact .inr htoken

theorem next_call {id : ℕ} (hnext : client.next (.call id) = some client') :
    client.calls id = .idle ∧ client' = client.setCall id (.sent false) := by
  simp only [Client.next] at hnext
  split at hnext
  · next hidle =>
      cases hnext
      exact ⟨hidle, rfl⟩
  · cases hnext

/-- A step that sets the store and sends requests. -/
theorem Sound.carries (h : Sound account run) {store : Option Tokens}
    (hpaired : ∀ tokens, store = some tokens →
      account tokens.accessToken = account tokens.refreshToken)
    (hkeeps : run.sessionAfter event provider' = run.session →
      ∀ owner, run.provider.client.Holds account owner → store = run.provider.client.store)
    (hrequests : Requests { run.provider.client with store } provider'.client)
    (hattached : ∀ id token, provider'.attached id = some token →
      run.provider.attached id = some token ∨
        provider'.client.calls id ≠ .idle ∧ provider'.client.getAccessToken = some token)
    (hloads : ∀ load ∈ provider'.loads,
      (∃ old ∈ run.provider.loads, load.me = old.me ∧
        load.organizationsMe = old.organizationsMe ∧
        (run.began old.me = run.session → Owned account run.provider.client old →
          Owned account run.provider.client load)) ∨
      run.provider.client.calls load.me = .idle ∧
        run.provider.client.calls load.organizationsMe = .idle ∧
        provider'.client.calls load.me ≠ .idle ∧
        provider'.client.calls load.organizationsMe ≠ .idle ∧ Owned account provider'.client load)
    (hwaiting : ∀ load ∈ provider'.loads, load.both = none) :
    Carries account run event provider' := by
  have hstore : provider'.client.store = store := hrequests.store
  have hpaired' : ∀ tokens, provider'.client.store = some tokens →
      account tokens.accessToken = account tokens.refreshToken := by
    rw [hstore]
    exact hpaired
  have hkept : run.sessionAfter event provider' = run.session → ∀ owner,
      run.provider.client.Holds account owner → provider'.client.Holds account owner := by
    intro hsame owner howner
    exact (holds_congr (hstore.trans (hkeeps hsame owner howner))).mpr howner
  refine ⟨hrequests.coherent, hrequests.calls, hpaired', hkept, fun who token hflight => ?_,
    fun id token hattach => ?_, fun load hload => ?_, hwaiting⟩
  · rcases hrequests.refreshes who token hflight with hearlier | htoken
    · exact .inl hearlier
    · obtain ⟨tokens, htokens, rfl⟩ := Client.getRefreshToken_eq_some htoken
      refine .inr ⟨tokens, hstore.trans htokens, ?_, rfl⟩
      exact hpaired tokens htokens
  · rcases hattached id token hattach with hearlier | ⟨hsent, htoken⟩
    · exact .inl hearlier
    · obtain ⟨hfound, _⟩ := Option.filter_eq_some_iff.mp htoken
      obtain ⟨tokens, htokens, rfl⟩ := Option.map_eq_some_iff.mp hfound
      exact .inr ⟨hsent, holds_of_store htokens hpaired'⟩
  · rcases hloads load hload with ⟨old, hold, hme, horganization, howned⟩ | hnew
    · refine .inl ⟨old, hold, hme, horganization, fun hsame hcurrent holdOwned => ?_⟩
      exact (howned hcurrent holdOwned).mono h.paired (hkept hsame)
    · exact .inr hnew

/-! ### Steps of the provider -/

/-- A step that shows what was shown. -/
theorem Sound.shown_of_kept (h : Sound account run)
    (hsame : run.sessionAfter event provider' = run.session)
    (hstatus : provider'.status = run.provider.status)
    (huser : provider'.user = run.provider.user)
    (horganization : provider'.organization = run.provider.organization)
    (hloads : ∀ load ∈ run.provider.loads, load ∈ provider'.loads)
    (hkeeps : ∀ owner, run.provider.client.Holds account owner →
      provider'.client.Holds account owner) :
    provider'.status = .authenticated →
      (∃ load ∈ provider'.loads, (run.after event provider').began load.me =
        run.sessionAfter event provider') ∨ ShowsStored account provider' := by
  intro hshown
  rcases h.shown (hstatus.symm.trans hshown) with ⟨load, hload, hcurrent⟩ | hstored
  · refine .inl ⟨load, hloads load hload, ?_⟩
    rw [began_after_of_ne_idle (h.loads load hload).1, hcurrent, hsame]
  · obtain ⟨user, organization, hold, hold', howner, hid⟩ := hstored
    exact .inr ⟨user, organization, huser.trans hold, horganization.trans hold',
      hkeeps _ howner, hid⟩

/-- Requests, with what is attached to them, change nothing that is shown. -/
theorem Sound.request (h : Sound account run) (hlogin : event.isLogin = false)
    {attached : ℕ → Option Str} {refreshing : List ℕ}
    (hrequests : Requests run.provider.client client')
    (hattached : ∀ id token, attached id = some token → run.provider.attached id = some token ∨
      client'.calls id ≠ .idle ∧ client'.getAccessToken = some token) :
    Sound account (run.after event
      { run.provider with client := client', attached, refreshing }) := by
  have hsame : run.sessionAfter event
      { run.provider with client := client', attached, refreshing } = run.session := by
    refine sessionAfter_of_store hlogin fun hsome => ?_
    exact hrequests.store ▸ hsome
  refine h.after (h.carries h.paired (fun _ _ _ => rfl) hrequests hattached
    (fun load hload => .inl ⟨load, hload, rfl, rfl, fun _ howned => howned⟩) h.waiting) ?_
  exact h.shown_of_kept hsame rfl rfl rfl (fun _ hload => hload)
    fun owner howner => (holds_congr hrequests.store).mpr howner

/-- A request that is sent. -/
theorem Sound.called (h : Sound account run) (hlogin : event.isLogin = false) {id : ℕ}
    {refreshing : List ℕ} (hnext : run.provider.client.next (.call id) = some client') :
    Sound account (run.after event
      { run.provider with
        client := client'
        attached := Function.update run.provider.attached id run.provider.client.getAccessToken
        refreshing }) := by
  have hrequests := requests_of_next h.coherent rfl hnext
  obtain ⟨_, hclient⟩ := next_call hnext
  refine h.request hlogin hrequests fun other token hattach => ?_
  rcases eq_or_ne other id with rfl | hne
  · rw [Function.update_self] at hattach
    refine .inr ⟨?_, ?_⟩
    · rw [hclient, Client.setCall_self]
      exact fun hidle => nomatch hidle
    · rw [Client.getAccessToken, hrequests.store]
      exact hattach
  · rw [Function.update_of_ne hne] at hattach
    exact .inl hattach

/-- When the store is cleared, a session with an account is over. -/
theorem store_of_cleared {owner : Account} (hstore : provider'.client.store = none)
    (hsame : run.sessionAfter event provider' = run.session)
    (howner : run.provider.client.Holds account owner) : none = run.provider.client.store := by
  obtain ⟨tokens, htokens, _⟩ := howner
  have hnew : run.sessionAfter event provider' = run.session + 1 := by
    refine if_pos ?_
    rw [htokens, hstore]
    exact Bool.or_true _
  omega

/-- A rejected call, whose step begins no refresh. -/
theorem Sound.rejected (h : Sound account run) (hlogin : event.isLogin = false)
    (hrequests : Requests run.provider.client client')
    (hflights : client'.inFlight = run.provider.client.inFlight) (id : ℕ) :
    Sound account (run.after event ({ run.provider with client := client' }.rejected id)) := by
  unfold AuthProvider.rejected
  split
  · refine h.after ?_ fun hshown => by cases hshown
    have hcleared : Requests { run.provider.client with store := none }
        { client' with store := none } := by
      refine ⟨⟨hrequests.coherent.awaiting, hrequests.coherent.resolved,
        hrequests.coherent.alone⟩, rfl, hrequests.calls, fun who token hflight => .inl ?_⟩
      have hsame : Client.inFlight { client' with store := none } who = client'.inFlight who := by
        cases who <;> rfl
      rw [hsame, hflights] at hflight
      rw [← hflight]
      cases who <;> rfl
    refine h.carries (fun _ hnone => by cases hnone)
      (fun hsame _ howner => store_of_cleared rfl hsame howner) hcleared
      (fun _ _ hattach => .inl hattach)
      (fun load hload => .inl ⟨load, ?_, rfl, rfl, fun _ howned => howned⟩) fun load hload => ?_
    · exact List.mem_of_mem_filter hload
    · exact h.waiting load (List.mem_of_mem_filter hload)
  · exact h.request hlogin hrequests fun _ _ hattach => .inl hattach

/-- A call that goes on after a step that begins no refresh unless the call waits. -/
theorem Sound.continued (h : Sound account run) (hlogin : event.isLogin = false)
    (hrequests : Requests run.provider.client client') (id : ℕ)
    (hflights : client'.calls id = .over → client'.inFlight = run.provider.client.inFlight) :
    Sound account (run.after event ({ run.provider with client := client' }.continued id)) := by
  unfold AuthProvider.continued
  dsimp only
  split
  · next hover => exact h.rejected hlogin hrequests (hflights hover) id
  · next hsent =>
      refine h.request hlogin hrequests fun other token hattach => ?_
      rcases eq_or_ne other id with rfl | hne
      · rw [Function.update_self] at hattach
        refine .inr ⟨fun hidle => ?_, hattach⟩
        cases hsent.symm.trans hidle
      · rw [Function.update_of_ne hne] at hattach
        exact .inl hattach
  · exact h.request hlogin hrequests fun _ _ hattach => .inl hattach
  · exact h.request hlogin hrequests fun _ _ hattach => .inl hattach
  · exact h.request hlogin hrequests fun _ _ hattach => .inl hattach

/-- A second 401 ends the call, and begins no refresh. -/
theorem inFlight_of_answered_over {id : ℕ} (hnext : client.next (.answered id true) = some client')
    (hover : client'.calls id = .over) : client'.inFlight = client.inFlight := by
  simp only [Client.next] at hnext
  split at hnext
  · split at hnext
    · cases hnext
      unfold Client.refreshAccessToken at hover
      split at hover
      · rw [Client.setCall_self] at hover
        cases hover
      · rw [Client.setCall_self] at hover
        cases hover
      · split at hover
        · cases (Client.setCall_self _).symm.trans hover
        · cases (Client.setCall_self _).symm.trans hover
    · cases hnext
      exact Client.inFlight_setCall _
  · cases hnext

/-- Neither does an answer of another status, nor the end of a refresh. -/
theorem inFlight_of_quiet {event : ClientEvent} (h : client.Coherent)
    (hrequest : event.isRequest = true) (hquiet : client.starts event = none)
    (hnext : client.next event = some client') : client'.inFlight = client.inFlight := by
  cases Client.effect_of_next h hnext with
  | quiet _ _ _ hflights => exact hflights
  | start hstarts => cases hquiet.symm.trans hstarts
  | refreshed => cases hrequest
  | login => cases hrequest
  | logout => cases hrequest
  | loadFailed => cases hrequest

theorem coherent_setStore (h : client.Coherent) (store : Option Tokens) :
    Client.Coherent { client with store } :=
  ⟨h.awaiting, h.resolved, h.alone⟩

/-- A load begins with two requests, if there is a token. -/
theorem loadSession_eq_some {provider : AuthProvider} {me organizationsMe : ℕ}
    (hload : provider.loadSession me organizationsMe = some provider') :
    provider' = provider.anonymous ∨
      ∃ middle, provider.client.next (.call me) = some middle ∧
        middle.next (.call organizationsMe) = some provider'.client ∧
        provider'.attached = Function.update
          (Function.update provider.attached me provider.client.getAccessToken) organizationsMe
            middle.getAccessToken ∧
        provider.client.getAccessToken ≠ none ∧
        provider'.loads = provider.loads ++ [⟨me, organizationsMe, none, none⟩] := by
  unfold AuthProvider.loadSession at hload
  split at hload
  · cases hload
    exact .inl rfl
  · next htoken =>
      obtain ⟨first, hfirst, hload⟩ := Option.bind_eq_some_iff.mp hload
      obtain ⟨second, hsecond, hload⟩ := Option.bind_eq_some_iff.mp hload
      obtain ⟨middle, hmiddle, rfl⟩ := Option.map_eq_some_iff.mp hfirst
      obtain ⟨last, hlast, rfl⟩ := Option.map_eq_some_iff.mp hsecond
      cases hload
      exact .inr ⟨middle, hmiddle, hlast, rfl, htoken, rfl⟩

/-- A load that begins, perhaps with new tokens. -/
theorem Sound.loaded (h : Sound account run) {base : AuthProvider} {store : Option Tokens}
    {me organizationsMe : ℕ} (hclient : base.client = { run.provider.client with store })
    (hattached : base.attached = run.provider.attached)
    (hloads : base.loads = run.provider.loads)
    (hpaired : ∀ tokens, store = some tokens →
      account tokens.accessToken = account tokens.refreshToken)
    (hkeeps : run.sessionAfter event provider' = run.session →
      ∀ owner, run.provider.client.Holds account owner → store = run.provider.client.store)
    (hload : base.loadSession me organizationsMe = some provider') :
    Sound account (run.after event provider') := by
  have hcoherent : base.client.Coherent := hclient ▸ coherent_setStore h.coherent store
  rcases loadSession_eq_some hload with
    rfl | ⟨middle, hmiddle, hlast, hattach, htoken, hadded⟩
  · refine h.after (h.carries hpaired hkeeps ?_ ?_ ?_ ?_) fun hshown => by cases hshown
    · exact hclient ▸ Requests.refl hcoherent
    · exact fun _ _ hattach => .inl (hattached ▸ hattach)
    · exact fun load hload => .inl ⟨load, hloads ▸ hload, rfl, rfl, fun _ howned => howned⟩
    · exact fun load hload => h.waiting load (hloads ▸ hload)
  · have hfirst := requests_of_next hcoherent rfl hmiddle
    have hsecond := requests_of_next hfirst.coherent rfl hlast
    have hrequests := hfirst.trans hsecond
    obtain ⟨hidle, rfl⟩ := next_call hmiddle
    obtain ⟨hidle', hclient'⟩ := next_call hlast
    have hne : organizationsMe ≠ me := by
      rintro rfl
      rw [Client.setCall_self] at hidle'
      cases hidle'
    rw [Client.setCall_of_ne _ hne] at hidle'
    have hsent : provider'.client.calls me ≠ .idle := by
      rw [hclient', Client.setCall_of_ne _ hne.symm, Client.setCall_self]
      exact fun hidle => nomatch hidle
    have hsent' : provider'.client.calls organizationsMe ≠ .idle := by
      rw [hclient', Client.setCall_self]
      exact fun hidle => nomatch hidle
    have hsame : provider'.client.getAccessToken = base.client.getAccessToken := by
      rw [Client.getAccessToken, hrequests.store, Client.getAccessToken]
    rw [hclient] at hidle hidle'
    refine h.after (h.carries hpaired hkeeps (hclient ▸ hrequests) ?_ ?_ ?_) fun _ => .inl ?_
    · intro id token htokenId
      rw [hattach, hattached] at htokenId
      rcases eq_or_ne id organizationsMe with rfl | hid
      · rw [Function.update_self] at htokenId
        exact .inr ⟨hsent', hsame.trans htokenId⟩
      · rw [Function.update_of_ne hid] at htokenId
        rcases eq_or_ne id me with rfl | hid
        · rw [Function.update_self] at htokenId
          exact .inr ⟨hsent, hsame.trans htokenId⟩
        · rw [Function.update_of_ne hid] at htokenId
          exact .inl htokenId
    · intro load hmem
      rw [hadded, hloads] at hmem
      rcases List.mem_append.mp hmem with hold | hnew
      · exact .inl ⟨load, hold, rfl, rfl, fun _ howned => howned⟩
      · cases List.mem_singleton.mp hnew
        have hnothing : ∀ {α : Type} {item : α}, (none : Option α) ≠ some item :=
          fun hnone => nomatch hnone
        refine .inr ⟨hidle, hidle', hsent, hsent', ?_, fun _ hnone => absurd hnone hnothing,
          fun _ hnone => absurd hnone hnothing⟩
        obtain ⟨token, htoken⟩ := Option.ne_none_iff_exists'.mp htoken
        obtain ⟨hfound, _⟩ := Option.filter_eq_some_iff.mp htoken
        obtain ⟨tokens, htokens, _⟩ := Option.map_eq_some_iff.mp hfound
        exact ⟨tokens, hrequests.store.trans htokens⟩
    · intro load hmem
      rw [hadded, hloads] at hmem
      rcases List.mem_append.mp hmem with hold | hnew
      · exact h.waiting load hold
      · cases List.mem_singleton.mp hnew
        rfl
    · refine ⟨⟨me, organizationsMe, none, none⟩, ?_, began_after_of_idle hidle hsent⟩
      rw [hadded]
      exact List.mem_append_right _ (List.mem_singleton_self _)

theorem Sound.logout (h : Sound account run) :
    Sound account (run.after .logout (run.provider.setStore none).anonymous) := by
  refine h.after (h.carries (fun _ hnone => by cases hnone)
    (fun hsame _ howner => store_of_cleared rfl hsame howner) ?_ (fun _ _ hattach => .inl hattach)
    (fun load hload => .inl ⟨load, hload, rfl, rfl, fun _ howned => howned⟩) h.waiting)
    fun hshown => by cases hshown
  exact Requests.refl (coherent_setStore h.coherent none)

/-- Another tab exchanges the tokens for others of the account, or fills an empty store. -/
theorem Sound.elsewhere (h : Sound account run) {store : Option Tokens}
    (hserved : Served account run.provider (.elsewhere store))
    (htime : run.InTime account (.elsewhere store)) :
    Sound account (run.after (.elsewhere store) (run.provider.setStore store)) := by
  have hpaired : ∀ tokens, store = some tokens →
      account tokens.accessToken = account tokens.refreshToken := by
    rintro tokens rfl
    exact hserved
  have hsame : run.sessionAfter (.elsewhere store) (run.provider.setStore store) = run.session := by
    refine sessionAfter_of_store rfl fun hsome => ?_
    obtain ⟨tokens, htokens⟩ := Option.isSome_iff_exists.mp hsome
    obtain ⟨later, hlater, _⟩ := htime _ (holds_of_store htokens h.paired)
    exact Option.isSome_of_eq_some hlater
  have hflights : ∀ who, (run.provider.setStore store).client.inFlight who =
      run.provider.client.inFlight who := by
    intro who
    cases who <;> rfl
  refine h.after ⟨coherent_setStore h.coherent store, fun _ hcalled => hcalled, hpaired,
    fun _ => htime, fun who token hflight => .inl ((hflights who).symm.trans hflight),
    fun _ _ hattach => .inl hattach, fun load hload => .inl ⟨load, hload, rfl, rfl, ?_⟩,
    h.waiting⟩ ?_
  · exact fun _ _ howned => howned.mono h.paired htime
  · exact h.shown_of_kept hsame rfl rfl rfl (fun _ hload => hload) htime

/-! ### Answers -/

/-- What the listener makes of the answer of a refresh. -/
theorem refreshed_cases {who : Requester} {answer : RefreshAnswer}
    (hnext : run.provider.next (.refreshed who answer) = some provider') :
    ∃ client', run.provider.client.next (.refreshed who answer) = some client' ∧
      (provider' = { run.provider with client := client' }.anonymous ∨
        provider' = { run.provider with client := client' } ∧
          (answer.notifies who = true → client'.store.isSome = true)) := by
  obtain ⟨client', hclient, rfl⟩ := Option.map_eq_some_iff.mp hnext
  refine ⟨client', hclient, ?_⟩
  split
  · unfold AuthProvider.notified
    split
    · exact .inl rfl
    · next htoken =>
        refine .inr ⟨rfl, fun _ => ?_⟩
        obtain ⟨token, htoken⟩ := Option.ne_none_iff_exists'.mp htoken
        obtain ⟨hfound, _⟩ := Option.filter_eq_some_iff.mp htoken
        obtain ⟨tokens, htokens, _⟩ := Option.map_eq_some_iff.mp hfound
        exact Option.isSome_of_eq_some htokens
  · next hquiet => exact .inr ⟨rfl, fun hnotifies => absurd hnotifies hquiet⟩

/-- The answer of a refresh, which is stored only in the session it was begun in. -/
theorem Sound.refreshed (h : Sound account run) {who : Requester} {answer : RefreshAnswer}
    (hserved : Served account run.provider (.refreshed who answer))
    (htime : run.InTime account (.refreshed who answer))
    (hnext : run.provider.next (.refreshed who answer) = some provider') :
    Sound account (run.after (.refreshed who answer) provider') := by
  obtain ⟨client', hclient', hprovider⟩ := refreshed_cases hnext
  have hparts : provider'.client = client' ∧ provider'.attached = run.provider.attached ∧
      provider'.loads = run.provider.loads := by
    rcases hprovider with rfl | ⟨rfl, _⟩
    · exact ⟨rfl, rfl, rfl⟩
    · exact ⟨rfl, rfl, rfl⟩
  obtain ⟨rfl, hattached, hloads⟩ := hparts
  cases Client.effect_of_next h.coherent hclient' with
  | quiet hrequest => cases hrequest
  | start hstarts => cases hstarts
  | @refreshed _ _ token _ hflight hstore hflights =>
      -- the tokens of the answer belong to the account of the token that was presented
      have hpaired : ∀ tokens, provider'.client.store = some tokens →
          account tokens.accessToken = account tokens.refreshToken := by
        intro tokens htokens
        rw [hstore] at htokens
        cases answer with
        | ok issued =>
            have hissued : issued = tokens := by cases who <;> cases htokens <;> rfl
            obtain ⟨haccess, hrefresh⟩ := hserved token hflight
            rw [← hissued, haccess, hrefresh]
        | rejected =>
            cases who with
            | shared => cases htokens
            | stream id => exact h.paired tokens htokens
        | failed => cases who <;> exact h.paired tokens htokens
      have hkeeps : run.sessionAfter (.refreshed who answer) provider' = run.session →
          ∀ owner, run.provider.client.Holds account owner →
            provider'.client.Holds account owner := by
        intro hsame owner howner
        cases answer with
        | ok issued =>
            have hheld := h.refreshes who token hflight htime
            obtain ⟨haccess, hrefresh⟩ := hserved token hflight
            rw [Holds.unique howner hheld]
            refine ⟨issued, ?_, haccess, hrefresh⟩
            rw [hstore]
            cases who <;> rfl
        | rejected =>
            cases who with
            | shared =>
                have hempty := store_of_cleared hstore hsame howner
                obtain ⟨tokens, htokens, _⟩ := howner
                cases hempty.trans htokens
            | stream id => exact (holds_congr hstore).mpr howner
        | failed => cases who <;> exact (holds_congr hstore).mpr howner
      refine h.after ⟨h.coherent.next hclient', fun id hid => calls_ne_idle_of_next hclient' hid,
        hpaired, hkeeps, fun other token' hother => ?_,
        fun _ _ hattach => .inl (hattached ▸ hattach), fun load hload => ?_,
        fun load hload => h.waiting load (hloads ▸ hload)⟩ fun hshown => ?_
      · rw [hflights] at hother
        rcases eq_or_ne other who with rfl | hne
        · rw [Function.update_self] at hother
          cases hother
        · rw [Function.update_of_ne hne] at hother
          exact .inl hother
      · exact .inl ⟨load, hloads ▸ hload, rfl, rfl,
          fun hsame _ howned => howned.mono h.paired (hkeeps hsame)⟩
      · rcases hprovider with hanonymous | ⟨hkept, hsome⟩
        · rw [hanonymous] at hshown
          cases hshown
        · have hsame : run.sessionAfter (.refreshed who answer) provider' = run.session := by
            refine sessionAfter_of_store rfl fun hheld => ?_
            rw [hstore]
            cases answer with
            | ok issued => cases who <;> rfl
            | rejected =>
                cases who with
                | shared => exact hstore ▸ hsome rfl
                | stream id => exact hheld
            | failed => cases who <;> exact hheld
          refine h.shown_of_kept hsame ?_ ?_ ?_ (fun _ hload => hloads.symm ▸ hload) (hkeeps hsame)
            hshown
          · rw [hkept]
          · rw [hkept]
          · rw [hkept]

theorem receive_ids (load : SessionLoad) (id : ℕ) (body : ApiBody) :
    (load.receive id body).me = load.me ∧
      (load.receive id body).organizationsMe = load.organizationsMe := by
  unfold SessionLoad.receive
  split
  · split
    · exact ⟨rfl, rfl⟩
    · exact ⟨rfl, rfl⟩
  · split
    · exact ⟨rfl, rfl⟩
    · exact ⟨rfl, rfl⟩
  · exact ⟨rfl, rfl⟩

theorem receive_of_not_waitsFor {load : SessionLoad} {id : ℕ} (body : ApiBody)
    (h : load.waitsFor id = false) : load.receive id body = load := by
  obtain ⟨hme, horganization⟩ := Bool.or_eq_false_iff.mp h
  unfold SessionLoad.receive
  split
  · exact if_neg (beq_eq_false_iff_ne.mp hme)
  · exact if_neg (beq_eq_false_iff_ne.mp horganization)
  · rfl

/-- What a load of the session receives belongs to the account of the store. -/
theorem Sound.owned_receive (h : Sound account run) {id : ℕ} {body : ApiBody}
    (hserved : Served account run.provider (.responded id (some body))) {load : SessionLoad}
    (hload : load ∈ run.provider.loads) (hcurrent : run.began load.me = run.session) :
    Owned account run.provider.client (load.receive id body) := by
  obtain ⟨_, _, hbegan, howned⟩ := h.loads load hload
  have hload := howned hcurrent
  cases body with
  | me user =>
      simp only [SessionLoad.receive]
      split
      · next hid =>
          obtain ⟨token, htoken, howner⟩ := hserved
          have hholds := (h.attached id token htoken).2 (hid ▸ hcurrent)
          refine ⟨hload.held, fun other hother => ?_, hload.organization⟩
          cases hother
          exact howner ▸ hholds
      · exact hload
  | organizationsMe organization =>
      simp only [SessionLoad.receive]
      split
      · next hid =>
          obtain ⟨token, htoken, howner⟩ := hserved
          have hholds := (h.attached id token htoken).2 (hid ▸ hbegan.trans hcurrent)
          refine ⟨hload.held, hload.user, fun other hother => ?_⟩
          cases hother
          exact ⟨account token, hholds, howner⟩
      · exact hload
  | other => exact hload

/-- A load that is complete in time shows the account of the store. -/
theorem Sound.owned_both (h : Sound account run) {id : ℕ} {body : ApiBody}
    (hserved : Served account run.provider (.responded id (some body)))
    (htime : run.InTime account (.responded id (some body))) {load : SessionLoad}
    (hload : load ∈ run.provider.loads) {user : UserOut} {organization : OrganizationOut}
    (hboth : (load.receive id body).both = some (user, organization)) :
    run.provider.client.Holds account user.account ∧ organization.id = user.orgId := by
  have hwaits : load.waitsFor id = true := by
    by_contra hnot
    rw [receive_of_not_waitsFor body (Bool.not_eq_true _ ▸ hnot), h.waiting load hload] at hboth
    cases hboth
  have hcurrent : run.began load.me = run.session := by
    have hanswered := htime (.inl ⟨load, hload, hwaits⟩)
    rcases Bool.or_eq_true_iff.mp hwaits with hme | horganization
    · rw [eq_of_beq hme, hanswered]
    · rw [← (h.loads load hload).2.2.1, eq_of_beq horganization, hanswered]
  have howned := h.owned_receive hserved hload hcurrent
  unfold SessionLoad.both at hboth
  split at hboth
  · next huser horganization =>
      cases hboth
      obtain ⟨owner, howner, hid⟩ := howned.organization _ horganization
      have hholds := howned.user _ huser
      rw [Holds.unique howner hholds] at hid
      exact ⟨hholds, hid.symm⟩
  · cases hboth

theorem parts_resolved (provider : AuthProvider) (id : ℕ) (body : ApiBody) :
    (provider.resolved id body).client = provider.client ∧
      (provider.resolved id body).attached = provider.attached ∧
      (provider.resolved id body).loads =
        (provider.received id body).filter fun load => load.both.isNone := by
  have hloaded : ∀ loads, (provider.showLoaded loads).client = provider.client ∧
      (provider.showLoaded loads).attached = provider.attached ∧
      (provider.showLoaded loads).loads = loads.filter fun load => load.both.isNone := by
    intro loads
    unfold AuthProvider.showLoaded
    cases loads.findSome? SessionLoad.both <;> exact ⟨rfl, rfl, rfl⟩
  obtain ⟨hclient, hattached, hloads⟩ := hloaded (provider.received id body)
  unfold AuthProvider.resolved AuthProvider.showOrganization
  split
  · split
    · exact ⟨hclient, hattached, hloads⟩
    · exact ⟨hclient, hattached, hloads⟩
  · exact ⟨hclient, hattached, hloads⟩
  · exact ⟨hclient, hattached, hloads⟩

/-- The page after the answers of a call of `loadSession` are shown, if both are there. -/
theorem Sound.shown_showLoaded (h : Sound account run) {id : ℕ} {body : ApiBody}
    (hserved : Served account run.provider (.responded id (some body)))
    (htime : run.InTime account (.responded id (some body)))
    (hstore : client'.store = run.provider.client.store)
    (hshown : ({ run.provider with client := client' }.showLoaded
      (run.provider.received id body)).status = .authenticated) :
    (∃ load ∈ run.provider.loads, (load.receive id body).both = none ∧
        run.began load.me = run.session) ∨
      ShowsStored account ({ run.provider with client := client' }.showLoaded
        (run.provider.received id body)) := by
  unfold AuthProvider.showLoaded at hshown ⊢
  cases hfound : (run.provider.received id body).findSome? SessionLoad.both with
  | none =>
      rw [hfound] at hshown
      rcases h.shown hshown with ⟨load, hload, hcurrent⟩ | hstored
      · refine .inl ⟨load, hload, ?_, hcurrent⟩
        exact List.findSome?_eq_none_iff.mp hfound _ (List.mem_map_of_mem hload)
      · obtain ⟨user, organization, huser, horganization, howner, hid⟩ := hstored
        exact .inr ⟨user, organization, huser, horganization, (holds_congr hstore).mpr howner, hid⟩
  | some found =>
      obtain ⟨user, organization⟩ := found
      obtain ⟨load, hload, hboth⟩ := List.exists_of_findSome?_eq_some hfound
      obtain ⟨old, hold, rfl⟩ := List.mem_map.mp hload
      obtain ⟨howner, hid⟩ := h.owned_both hserved htime hold hboth
      exact .inr ⟨user, organization, rfl, rfl, (holds_congr hstore).mpr howner, hid⟩

/-- `refreshOrganization` changes the organization for that of the same account. -/
theorem Sound.shows_showOrganization (h : Sound account run) {id : ℕ} {body : ApiBody}
    (hserved : Served account run.provider (.responded id (some body)))
    (htime : run.InTime account (.responded id (some body))) {provider : AuthProvider}
    (hstore : provider.client.store = run.provider.client.store)
    (hrefreshing : provider.refreshing = run.provider.refreshing)
    (hshown : ShowsStored account provider) :
    ShowsStored account (provider.showOrganization id body) := by
  obtain ⟨user, organization, huser, horganization, howner, hid⟩ := hshown
  unfold AuthProvider.showOrganization
  split
  · next found =>
      split
      · next hmem =>
          obtain ⟨token, htoken, horg⟩ := hserved
          have hcurrent := htime (.inr (hrefreshing ▸ hmem))
          have hholds := (h.attached id token htoken).2 hcurrent
          have hsame := Holds.unique ((holds_congr hstore).mp howner) hholds
          refine ⟨user, found, huser, rfl, howner, ?_⟩
          rw [← horg, ← hsame]
          rfl
      · exact ⟨user, organization, huser, horganization, howner, hid⟩
  · exact ⟨user, organization, huser, horganization, howner, hid⟩
  · exact ⟨user, organization, huser, horganization, howner, hid⟩

theorem status_showOrganization (provider : AuthProvider) (id : ℕ) (body : ApiBody) :
    (provider.showOrganization id body).status = provider.status := by
  unfold AuthProvider.showOrganization
  split
  · split
    · rfl
    · rfl
  · rfl
  · rfl

theorem refreshing_showLoaded (provider : AuthProvider) (loads : List SessionLoad) :
    (provider.showLoaded loads).client = provider.client ∧
      (provider.showLoaded loads).refreshing = provider.refreshing := by
  unfold AuthProvider.showLoaded
  cases loads.findSome? SessionLoad.both <;> exact ⟨rfl, rfl⟩

/-- An answer in time. -/
theorem Sound.resolved (h : Sound account run) {id : ℕ} {body : ApiBody}
    (hserved : Served account run.provider (.responded id (some body)))
    (htime : run.InTime account (.responded id (some body)))
    (hnext : run.provider.client.next (.answered id false) = some client') :
    Sound account (run.after (.responded id (some body))
      ({ run.provider with client := client' }.resolved id body)) := by
  have hrequests := requests_of_next h.coherent rfl hnext
  obtain ⟨hclient, hattached, hloads⟩ :=
    parts_resolved { run.provider with client := client' } id body
  have hsame : run.sessionAfter (.responded id (some body))
      ({ run.provider with client := client' }.resolved id body) = run.session := by
    refine sessionAfter_of_store rfl fun hsome => ?_
    rw [hclient]
    exact hrequests.store ▸ hsome
  refine h.after (h.carries h.paired (fun _ _ _ => rfl) (hclient ▸ hrequests)
    (fun _ _ hattach => .inl (hattached ▸ hattach)) ?_ ?_) ?_
  · intro load hload
    rw [hloads] at hload
    obtain ⟨old, hold, rfl⟩ := List.mem_map.mp (List.mem_of_mem_filter hload)
    obtain ⟨hme, horganization⟩ := receive_ids old id body
    exact .inl ⟨old, hold, hme, horganization, fun hcurrent _ =>
      h.owned_receive hserved hold hcurrent⟩
  · intro load hload
    rw [hloads] at hload
    exact Option.isNone_iff_eq_none.mp (List.mem_filter.mp hload).2
  · intro hshown
    unfold AuthProvider.resolved at hshown
    rw [status_showOrganization] at hshown
    obtain ⟨hclient', hrefreshing⟩ := refreshing_showLoaded { run.provider with client := client' }
      (run.provider.received id body)
    rcases h.shown_showLoaded hserved htime hrequests.store hshown with
      ⟨load, hload, hwaits, hcurrent⟩ | hstored
    · refine .inl ⟨load.receive id body, ?_, ?_⟩
      · rw [hloads]
        exact List.mem_filter.mpr ⟨List.mem_map_of_mem hload, Option.isNone_iff_eq_none.mpr hwaits⟩
      · rw [(receive_ids load id body).1, began_after_of_ne_idle (h.loads load hload).1, hcurrent,
          hsame]
    · refine .inr (h.shows_showOrganization hserved htime ?_ hrefreshing hstored)
      exact (congrArg Client.store hclient').trans hrequests.store

/-! ## The account of the store -/

/-- Every step in time keeps the parts sound. -/
theorem Sound.next (h : Sound account run) (hserved : Served account run.provider event)
    (htime : run.InTime account event) (hnext : run.next event = some run') :
    Sound account run' := by
  obtain ⟨provider', hprovider, rfl⟩ := Option.map_eq_some_iff.mp hnext
  cases event with
  | loadSession me organizationsMe =>
      exact h.loaded rfl rfl rfl h.paired (fun _ _ _ => rfl) hprovider
  | login tokens me organizationsMe =>
      have hpaired : ∀ issued, some tokens = some issued →
          account issued.accessToken = account issued.refreshToken := by
        intro issued hissued
        cases hissued
        exact hserved
      have hkeeps : run.sessionAfter (.login tokens me organizationsMe) provider' = run.session →
          ∀ owner, run.provider.client.Holds account owner →
            some tokens = run.provider.client.store := by
        intro hsame
        have hnew : run.sessionAfter (.login tokens me organizationsMe) provider' =
            run.session + 1 := rfl
        omega
      have hbase : (run.provider.setStore (some tokens)).notified.client =
            { run.provider.client with store := some tokens } ∧
          (run.provider.setStore (some tokens)).notified.attached = run.provider.attached ∧
          (run.provider.setStore (some tokens)).notified.loads = run.provider.loads := by
        unfold AuthProvider.notified
        split
        · exact ⟨rfl, rfl, rfl⟩
        · exact ⟨rfl, rfl, rfl⟩
      obtain ⟨hclient, hattached, hloads⟩ := hbase
      exact h.loaded hclient hattached hloads hpaired hkeeps hprovider
  | logout =>
      cases hprovider
      exact h.logout
  | refreshOrganization id =>
      obtain ⟨middle, hmiddle, rfl⟩ := Option.map_eq_some_iff.mp hprovider
      obtain ⟨client', hclient, rfl⟩ := Option.map_eq_some_iff.mp hmiddle
      exact h.called rfl hclient
  | call id =>
      obtain ⟨client', hclient, rfl⟩ := Option.map_eq_some_iff.mp hprovider
      exact h.called rfl hclient
  | responded id body =>
      obtain ⟨client', hclient, rfl⟩ := Option.map_eq_some_iff.mp hprovider
      cases body with
      | none =>
          refine h.rejected rfl (requests_of_next h.coherent rfl hclient) ?_ id
          exact inFlight_of_quiet h.coherent rfl rfl hclient
      | some body => exact h.resolved hserved htime hclient
  | unauthorized id =>
      obtain ⟨client', hclient, rfl⟩ := Option.map_eq_some_iff.mp hprovider
      exact h.continued rfl (requests_of_next h.coherent rfl hclient) id
        (inFlight_of_answered_over hclient)
  | resume id =>
      obtain ⟨client', hclient, rfl⟩ := Option.map_eq_some_iff.mp hprovider
      exact h.continued rfl (requests_of_next h.coherent rfl hclient) id
        fun _ => inFlight_of_quiet h.coherent rfl rfl hclient
  | stream id =>
      obtain ⟨client', hclient, rfl⟩ := Option.map_eq_some_iff.mp hprovider
      exact h.request rfl (requests_of_next h.coherent rfl hclient) fun _ _ hattach => .inl hattach
  | streamAnswered id unauthorized =>
      obtain ⟨client', hclient, rfl⟩ := Option.map_eq_some_iff.mp hprovider
      exact h.request rfl (requests_of_next h.coherent rfl hclient) fun _ _ hattach => .inl hattach
  | refreshed who answer => exact h.refreshed hserved htime hprovider
  | elsewhere store =>
      cases hprovider
      exact h.elsewhere hserved htime

theorem sound_opened (store : Option Tokens) (hpaired : ∀ tokens, store = some tokens →
    account tokens.accessToken = account tokens.refreshToken) :
    Sound account (opened store) := by
  have hnothing : ∀ who, (Client.loaded store).inFlight who = none := Client.inFlight_loaded store
  refine ⟨Client.coherent_loaded store, hpaired, fun _ => le_rfl, fun _ => le_rfl,
    fun who token hflight => ?_, fun id token hattach => ?_, fun load hload => ?_,
    fun load hload => ?_, fun hshown => ?_⟩
  · cases (hnothing who).symm.trans hflight
  · cases hattach
  · cases hload
  · cases hload
  · cases hshown

theorem Timely.earlier {start : AuthRun} {trace events : List AuthEvent}
    (h : Timely account start (trace ++ events)) : Timely account start trace :=
  fun before event run hearlier => h before event run (hearlier.trans (List.prefix_append _ _))

theorem sound_of_runs {store : Option Tokens} {trace : List AuthEvent}
    (hpaired : ∀ tokens, store = some tokens →
      account tokens.accessToken = account tokens.refreshToken)
    (hrun : Runs account (opened store) trace run)
    (htimely : Timely account (opened store) trace) : Sound account run := by
  refine hrun.invariant (P := fun trace run => Timely account (opened store) trace →
    Sound account run) (fun _ => sound_opened store hpaired) ?_ htimely
  intro trace middle event last hmiddle ih hstep hwhole
  refine (ih hwhole.earlier).next hstep.2 ?_ hstep.1
  exact hwhole trace event middle (List.prefix_refl _) hmiddle

/-- If no answer that is used arrives late and no other tab changes the account: a page
that shows an account shows that of the tokens in the store, or the load of the session is
under way; and without tokens it shows none. -/
theorem shows_stored {store : Option Tokens} {trace : List AuthEvent}
    (hpaired : ∀ tokens, store = some tokens →
      account tokens.accessToken = account tokens.refreshToken)
    (hrun : Runs account (opened store) trace run)
    (htimely : Timely account (opened store) trace)
    (hshown : run.provider.status = .authenticated) :
    (∃ tokens, run.provider.client.store = some tokens) ∧
      ((∃ load ∈ run.provider.loads, run.began load.me = run.session) ∨
        ShowsStored account run.provider) := by
  have hsound := sound_of_runs hpaired hrun htimely
  have hcases := hsound.shown hshown
  refine ⟨?_, hcases⟩
  rcases hcases with ⟨load, hload, hcurrent⟩ | ⟨user, organization, _, _, ⟨tokens, hstore, _⟩, _⟩
  · exact ((hsound.loads load hload).2.2.2 hcurrent).held
  · exact ⟨tokens, hstore⟩

/-- One more event in time. -/
theorem Timely.snoc {start : AuthRun} {trace : List AuthEvent} (h : Timely account start trace)
    (hrun : Runs account start trace run) (htime : run.InTime account event) :
    Timely account start (trace ++ [event]) := by
  intro before other last hearlier hlast
  rcases List.prefix_concat_iff.mp hearlier with heq | hprefix
  · obtain ⟨rfl, hevent⟩ := List.append_inj' heq rfl
    cases hevent
    have hsame := Run.unique (hrun.mono fun _ _ _ hstep => hstep.1)
      (hlast.mono fun _ _ _ hstep => hstep.1)
    exact hsame ▸ htime
  · exact h before other last hprefix hlast

end Spec

/-! ### Signing in -/

/-- The tokens of Ann. -/
def annTokens : Tokens := ⟨"a1".toList, "r1".toList⟩

def annAccount (token : Str) : Account :=
  if token = annTokens.accessToken ∨ token = annTokens.refreshToken then
    ⟨"u1".toList, "o1".toList⟩
  else ⟨"u2".toList, "o2".toList⟩

def annUser : UserOut where
  id := "u1".toList
  orgId := "o1".toList
  email := "ann@acme.io".toList
  fullName := none
  role := .admin
  isActive := true
  createdAt := "2026-01-01T00:00:00Z".toList

def acme : OrganizationOut :=
  ⟨"o1".toList, "Acme".toList, "acme".toList, none, "2026-01-01T00:00:00Z".toList⟩

/-- Ann signs in, and her load is answered. -/
def signingIn : List AuthEvent :=
  [.login annTokens 0 1, .responded 0 (some (.me annUser)),
    .responded 1 (some (.organizationsMe acme))]

theorem shows_stored_signingIn : ∃ run,
    Runs annAccount (opened none) signingIn run ∧ run.provider.status = .authenticated ∧
    (∃ tokens, run.provider.client.store = some tokens) ∧
      ((∃ load ∈ run.provider.loads, run.began load.me = run.session) ∨
        ShowsStored annAccount run.provider) := by
  obtain ⟨first, second, last, hfirst, hsecond, hlast, hme, hattached, horganization, hattached',
      hshown⟩ : ∃ first second last, (opened none).next (.login annTokens 0 1) = some first ∧
        first.next (.responded 0 (some (.me annUser))) = some second ∧
        second.next (.responded 1 (some (.organizationsMe acme))) = some last ∧
        first.began 0 = first.session ∧
        first.provider.attached 0 = some annTokens.accessToken ∧
        second.began 1 = second.session ∧
        second.provider.attached 1 = some annTokens.accessToken ∧
        last.provider.status = .authenticated :=
    ⟨_, _, _, rfl, rfl, rfl, rfl, rfl, rfl, rfl, rfl⟩
  have haccount : annAccount annTokens.accessToken = annUser.account := by decide
  have hstart : Timely annAccount (opened none) [] := fun before event _ hearlier _ => by
    cases (List.append_eq_nil_iff.mp (List.prefix_nil.mp hearlier)).2
  have hpaired : annAccount annTokens.accessToken = annAccount annTokens.refreshToken := by decide
  have hrun : Runs annAccount (opened none) [.login annTokens 0 1] first :=
    Run.nil.snoc ⟨hfirst, hpaired⟩
  have hrun' := hrun.snoc ⟨hsecond, annTokens.accessToken, hattached, haccount⟩
  have hwhole : Runs annAccount (opened none) signingIn last :=
    hrun'.snoc ⟨hlast, annTokens.accessToken, hattached', congrArg Account.orgId haccount⟩
  have hlogin : (opened none).InTime annAccount (.login annTokens 0 1) := trivial
  have hfirstTime : first.InTime annAccount (.responded 0 (some (.me annUser))) := fun _ => hme
  have hsecondTime : second.InTime annAccount (.responded 1 (some (.organizationsMe acme))) :=
    fun _ => horganization
  have htimely : Timely annAccount (opened none) signingIn :=
    ((hstart.snoc .nil hlogin).snoc hrun hfirstTime).snoc hrun' hsecondTime
  have hnothing : ∀ tokens : Tokens, none = some tokens →
      annAccount tokens.accessToken = annAccount tokens.refreshToken :=
    fun _ hnone => nomatch hnone
  exact ⟨last, hwhole, hshown, shows_stored hnothing hwhole htimely hshown⟩

/-- The answers arrive after she has signed out. -/
example : (replay next (opened none) [.login annTokens 0 1, .logout,
      .responded 0 (some (.me annUser)), .responded 1 (some (.organizationsMe acme))]).map
    (fun run => (run.provider.status, run.provider.client.store)) =
      some (.authenticated, none) := rfl

/-- She signs out in another tab. -/
example : (replay next (opened none) (signingIn ++ [.elsewhere none])).map
    (fun run => (run.provider.status, run.provider.client.store)) =
      some (.authenticated, none) := rfl

end AuthRun

end Web
