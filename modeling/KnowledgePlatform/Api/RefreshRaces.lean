import KnowledgePlatform.Api.Auth
import KnowledgePlatform.Foundations.Runs

/-!
# Concurrent refreshes and logouts

The statements of `refresh` and `logout`, interleaved.  A `SELECT` reads what is
committed and takes no lock; an `UPDATE` waits for the row lock, works on the
row as it is committed then, and keeps the lock until its transaction ends.

Whether tokens are exchanged once only depends on what the `UPDATE` of a refresh
overwrites.  If it finds the row unrevoked, the lock keeps it so until the
commit; if it finds it revoked, another request for the token has committed
since the `SELECT`, and the commit exchanges the token again.

Executed in one go the statements do what the handlers of `Api.Auth` do
(`refresh_refines`, `logout_refines`).
-/

open Core Foundations Python Relational

namespace Api

/-- The two requests that revoke a refresh token. -/
inductive RevokeKind
  | refresh
  | logout
  deriving DecidableEq, Repr

/-- How far a request has come.  After its `UPDATE` it knows the value of
`revoked_at` that was overwritten. -/
inductive RevokePhase
  | idle
  | selected (kind : RevokeKind) (stored : RefreshToken) (now : Time)
  | cleared (stored : RefreshToken) (user : User) (now : Time)
  | revoked (kind : RevokeKind) (stored : RefreshToken) (now : Time) (overwritten : Option Time)
  | issued (stored : RefreshToken) (now : Time) (overwritten : Option Time)
      (successor : RefreshToken)
  | ended
  deriving DecidableEq

/-- The committed refresh tokens, the requests, the row locks, and the committed
refreshes and logouts in the order of their commits. -/
structure TokenStore where
  tokens : List RefreshToken
  requests : ℕ → RevokePhase
  lockedBy : Uuid → Option ℕ
  history : List (RevokeKind × Uuid)

/-- The statements of the requests. -/
inductive RevokeEvent
  | select (request : ℕ) (kind : RevokeKind) (refreshToken : Str) (now : Time)
  | findUser (request : ℕ)
  | update (request : ℕ)
  | insert (request : ℕ) (draw : TokenDraw) (createdAt : Time)
  | commit (request : ℕ)
  | abort (request : ℕ)

namespace TokenStore

/-- A request moves on. -/
def move (store : TokenStore) (request : ℕ) (phase : RevokePhase) : TokenStore :=
  { store with requests := Function.update store.requests request phase }

/-- The row lock of a token is taken or released. -/
def setLock (store : TokenStore) (id : Uuid) (holder : Option ℕ) : TokenStore :=
  { store with lockedBy := Function.update store.lockedBy id holder }

@[simp] theorem move_self (store : TokenStore) (request : ℕ) (phase : RevokePhase) :
    (store.move request phase).requests request = phase :=
  Function.update_self ..

@[simp] theorem move_of_ne (store : TokenStore) {request other : ℕ} (phase : RevokePhase)
    (hne : other ≠ request) :
    (store.move request phase).requests other = store.requests other :=
  Function.update_of_ne hne ..

@[simp] theorem setLock_self (store : TokenStore) (id : Uuid) (holder : Option ℕ) :
    (store.setLock id holder).lockedBy id = holder :=
  Function.update_self ..

@[simp] theorem setLock_of_ne (store : TokenStore) {id other : Uuid} (holder : Option ℕ)
    (hne : other ≠ id) : (store.setLock id holder).lockedBy other = store.lockedBy other :=
  Function.update_of_ne hne ..

/-- Whether a request of this kind goes on with the token it found. -/
def accepts (kind : RevokeKind) (stored : RefreshToken) (now : Time) : Bool :=
  match kind with
  | .refresh => isUsable stored now
  | .logout => stored.revokedAt.isNone

/-- A request gets the row lock and has revoked the token. -/
def lock (store : TokenStore) (request : ℕ) (kind : RevokeKind) (stored : RefreshToken)
    (now : Time) : Option TokenStore :=
  match store.lockedBy stored.id, store.tokens.find? fun token => token.id == stored.id with
  | none, some found => some
      ((store.move request (.revoked kind stored now found.revokedAt)).setLock stored.id
        (some request))
  | _, _ => none

/-- The changes of a request become visible and its lock is released. -/
def release (store : TokenStore) (request : ℕ) (kind : RevokeKind) (stored : RefreshToken)
    (now : Time) (successors : List RefreshToken) : TokenStore where
  tokens := (store.tokens.map fun token =>
    if token.id == stored.id then (revokeToken now).set token else token) ++ successors
  requests := Function.update store.requests request .ended
  lockedBy := Function.update store.lockedBy stored.id none
  history := store.history ++ [(kind, stored.id)]

/-- Whether a new token violates no unique constraint. -/
def isNew (store : TokenStore) (token : RefreshToken) : Bool :=
  store.tokens.all fun other => other.id != token.id && !rowClash .refreshTokens other token

/-- One statement. -/
def next (settings : Settings) (crypto : Crypto) (users : List User) (store : TokenStore) :
    RevokeEvent → Option TokenStore
  | .select request kind refreshToken now =>
      match store.requests request with
      | .idle =>
          match store.tokens.find? fun token =>
              token.tokenHash == hashSecret crypto refreshToken with
          | none => some (store.move request .ended)
          | some stored =>
              if accepts kind stored now then some (store.move request (.selected kind stored now))
              else some (store.move request .ended)
      | _ => none
  | .findUser request =>
      match store.requests request with
      | .selected .refresh stored now =>
          match users.find? fun user => user.id == stored.userId with
          | none => some (store.move request .ended)
          | some user =>
              if user.isActive then some (store.move request (.cleared stored user now))
              else some (store.move request .ended)
      | _ => none
  | .update request =>
      match store.requests request with
      | .selected .logout stored now => store.lock request .logout stored now
      | .cleared stored _ now => store.lock request .refresh stored now
      | _ => none
  | .insert request draw createdAt =>
      match store.requests request with
      | .revoked .refresh stored now overwritten =>
          some (store.move request (.issued stored now overwritten
            (newRefreshToken settings crypto stored.userId draw now createdAt)))
      | _ => none
  -- the unique constraints of the new token are checked against what is committed by then
  | .commit request =>
      match store.requests request with
      | .revoked .logout stored now _ => some (store.release request .logout stored now [])
      | .issued stored now _ successor =>
          if store.isNew successor then
            some (store.release request .refresh stored now [successor])
          else none
      | _ => none
  | .abort request =>
      match store.requests request with
      | .idle | .ended => none
      | .selected _ _ _ | .cleared _ _ _ => some (store.move request .ended)
      -- the rollback gives the row lock back
      | .revoked _ stored _ _ | .issued stored _ _ _ =>
          some ((store.move request .ended).setLock stored.id none)

/-- The requests have not begun. -/
structure Start (store : TokenStore) : Prop where
  distinct : (store.tokens.map RefreshToken.id).Nodup
  idle : ∀ request, store.requests request = .idle
  unlocked : ∀ id, store.lockedBy id = none
  history : store.history = []

/-- Every token is exchanged at most once, and not after its logout. -/
structure SingleUse (store : TokenStore) : Prop where
  exchanged : ∀ id, store.history.count (.refresh, id) ≤ 1
  afterLogout : ∀ before id after, store.history = before ++ (.logout, id) :: after →
    (.refresh, id) ∉ after

/-- If the request is a refresh about to commit, its `UPDATE` found the token
unrevoked. -/
def FoundUnrevoked (store : TokenStore) (request : ℕ) : Prop :=
  ∀ stored now overwritten successor,
    store.requests request = .issued stored now overwritten successor → overwritten = none

/-- The runs of the requests. -/
abbrev Runs (settings : Settings) (crypto : Crypto) (users : List User) :
    TokenStore → List RevokeEvent → TokenStore → Prop :=
  Run fun store event store' => next settings crypto users store event = some store'

variable {settings : Settings} {crypto : Crypto} {users : List User}
  {store store' start last : TokenStore} {trace : List RevokeEvent}

/-! ## What holds of every run -/

/-- The token with this id is revoked. -/
def Revoked (store : TokenStore) (id : Uuid) : Prop :=
  ∃ token ∈ store.tokens, token.id = id ∧ token.revokedAt ≠ none

/-- A refresh or logout of the token with this id has committed. -/
def Spent (store : TokenStore) (id : Uuid) : Prop := ∃ kind, (kind, id) ∈ store.history

/-- The request holds the row lock, and its `UPDATE` overwrote a revocation only if
another request for the token has committed. -/
structure Holds (store : TokenStore) (request : ℕ) (stored : RefreshToken)
    (overwritten : Option Time) : Prop where
  lockedBy : store.lockedBy stored.id = some request
  present : stored.id ∈ store.tokens.map RefreshToken.id
  unrevoked : overwritten = none → ¬store.Revoked stored.id
  spent : overwritten ≠ none → store.Spent stored.id

/-- What an open request knows.  Until its `UPDATE`, a revocation of its token is
the work of a request that has committed. -/
def PhaseSane (store : TokenStore) (request : ℕ) : RevokePhase → Prop
  | .idle | .ended => True
  | .selected _ stored _ | .cleared stored _ _ => store.Revoked stored.id → store.Spent stored.id
  | .revoked _ stored _ overwritten => Holds store request stored overwritten
  | .issued stored _ overwritten successor =>
      Holds store request stored overwritten ∧ successor.revokedAt = none

structure Sane (store : TokenStore) : Prop where
  distinct : (store.tokens.map RefreshToken.id).Nodup
  spent : ∀ id, store.Spent id → store.Revoked id
  phases : ∀ request, PhaseSane store request (store.requests request)

theorem Start.sane (hstart : Start start) : Sane start where
  distinct := hstart.distinct
  spent := by
    rintro id ⟨kind, hmem⟩
    rw [hstart.history] at hmem
    cases hmem
  phases := by
    intro request
    rw [hstart.idle request]
    trivial

/-- What a request knows depends on the tokens, the history and its own locks. -/
theorem PhaseSane.congr {request : ℕ} {phase : RevokePhase}
    (h : PhaseSane store request phase) (htokens : store'.tokens = store.tokens)
    (hhistory : store'.history = store.history)
    (hlocks : ∀ id, store.lockedBy id = some request → store'.lockedBy id = some request) :
    PhaseSane store' request phase := by
  have hrevoked : ∀ id, store'.Revoked id ↔ store.Revoked id := by
    intro id
    rw [Revoked, htokens, Revoked]
  have hspent : ∀ id, store'.Spent id ↔ store.Spent id := by
    intro id
    rw [Spent, hhistory, Spent]
  have hholds : ∀ stored overwritten, Holds store request stored overwritten →
      Holds store' request stored overwritten := by
    intro stored overwritten hold
    exact ⟨hlocks _ hold.lockedBy, htokens ▸ hold.present,
      fun hnone hrev => hold.unrevoked hnone ((hrevoked _).mp hrev),
      fun hsome => (hspent _).mpr (hold.spent hsome)⟩
  cases phase with
  | idle | ended => trivial
  | selected _ stored _ | cleared stored _ _ =>
      exact fun hrev => (hspent _).mpr (h ((hrevoked _).mp hrev))
  | revoked _ stored _ overwritten => exact hholds _ _ h
  | issued stored _ overwritten _ => exact ⟨hholds _ _ h.1, h.2⟩

theorem Sane.move (h : Sane store) {request : ℕ} {phase : RevokePhase}
    (hphase : PhaseSane store request phase) : Sane (store.move request phase) where
  distinct := h.distinct
  spent := h.spent
  phases := by
    intro other
    by_cases hother : other = request
    · subst hother
      rw [move_self]
      exact hphase.congr rfl rfl fun _ hheld => hheld
    · rw [move_of_ne _ _ hother]
      exact (h.phases other).congr rfl rfl fun _ hheld => hheld

/-- A token that was found unrevoked is not revoked under its id. -/
theorem Sane.not_revoked (h : Sane store) {stored : RefreshToken} (hmem : stored ∈ store.tokens)
    (hunrevoked : stored.revokedAt = none) : ¬store.Revoked stored.id := by
  rintro ⟨token, htoken, hid, hrevoked⟩
  rw [List.inj_on_of_nodup_map h.distinct htoken hmem hid] at hrevoked
  exact hrevoked hunrevoked

/-- A request goes on, and a lock that no other request holds is set. -/
theorem Sane.moveLock (h : Sane store) {request : ℕ} {phase : RevokePhase} {id : Uuid}
    {holder : Option ℕ}
    (hphase : PhaseSane ((store.move request phase).setLock id holder) request phase)
    (hfree : ∀ other, other ≠ request → ∀ held, store.lockedBy held = some other → held ≠ id) :
    Sane ((store.move request phase).setLock id holder) := by
  refine ⟨h.distinct, h.spent, fun other => ?_⟩
  by_cases hother : other = request
  · subst hother
    change PhaseSane _ other ((store.move other _).requests other)
    rw [move_self]
    exact hphase
  · change PhaseSane _ other ((store.move request _).requests other)
    rw [move_of_ne _ _ hother]
    refine (h.phases other).congr rfl rfl fun held hheld => ?_
    rw [setLock_of_ne _ _ (hfree other hother held hheld)]
    exact hheld

/-- An `UPDATE` that gets the lock knows whether it overwrites a revocation. -/
theorem Sane.lock (h : Sane store) {request : ℕ} {kind : RevokeKind} {stored : RefreshToken}
    {now : Time} (hphase : store.Revoked stored.id → store.Spent stored.id)
    (hlock : store.lock request kind stored now = some store') : Sane store' := by
  unfold TokenStore.lock at hlock
  split at hlock
  · next found hfree hfound =>
      cases hlock
      have hmem := List.mem_of_find?_eq_some hfound
      have hid : found.id = stored.id := by simpa using List.find?_some hfound
      refine h.moveLock ⟨setLock_self .., hid ▸ List.mem_map_of_mem hmem, ?_, ?_⟩ ?_
      · intro hunrevoked
        exact hid ▸ h.not_revoked hmem hunrevoked
      · intro hrevoked
        exact hphase ⟨found, hmem, hid, hrevoked⟩
      · -- the row was not locked, so the other requests hold other locks
        rintro other _ held hheld rfl
        rw [hfree] at hheld
        cases hheld
  · cases hlock

/-- The locks of the other requests outlast the release of a lock. -/
theorem lockedBy_of_ne {request other : ℕ} {id held : Uuid} (hother : other ≠ request)
    (hheld : store.lockedBy held = some request) (hid : store.lockedBy id = some other) :
    id ≠ held := by
  rintro rfl
  rw [hheld] at hid
  exact hother (Option.some.inj hid).symm

/-- An aborted request releases its lock and leaves nothing else behind. -/
theorem Sane.abort (h : Sane store) {request : ℕ} {stored : RefreshToken}
    (hheld : store.lockedBy stored.id = some request) :
    Sane ((store.move request .ended).setLock stored.id none) :=
  h.moveLock trivial fun _ hother _ hid => lockedBy_of_ne hother hheld hid

/-! ## Commits -/

variable {request : ℕ} {kind : RevokeKind} {stored : RefreshToken} {now : Time}
  {successors : List RefreshToken}

theorem release_self :
    (store.release request kind stored now successors).requests request = .ended :=
  Function.update_self ..

theorem release_of_ne {other : ℕ} (hne : other ≠ request) :
    (store.release request kind stored now successors).requests other = store.requests other :=
  Function.update_of_ne hne ..

theorem spent_release {id : Uuid} : (store.release request kind stored now successors).Spent id ↔
    store.Spent id ∨ id = stored.id := by
  simp only [Spent, release, List.mem_append, List.mem_singleton, Prod.mk.injEq]
  constructor
  · rintro ⟨kind', hold | ⟨_, rfl⟩⟩
    · exact .inl ⟨kind', hold⟩
    · exact .inr rfl
  · rintro (⟨kind', hold⟩ | rfl)
    · exact ⟨kind', .inl hold⟩
    · exact ⟨kind, .inr ⟨rfl, rfl⟩⟩

/-- A commit revokes the token of the request and no other. -/
theorem revoked_release (hsuccessors : ∀ token ∈ successors, token.revokedAt = none)
    (hstored : stored.id ∈ store.tokens.map RefreshToken.id) {id : Uuid} :
    (store.release request kind stored now successors).Revoked id ↔
      store.Revoked id ∨ id = stored.id := by
  simp only [Revoked, release, List.mem_append, List.mem_map]
  constructor
  · rintro ⟨token, ⟨old, hold, rfl⟩ | hnew, hid, hrevoked⟩
    · by_cases hsame : old.id = stored.id
      · rw [if_pos (beq_iff_eq.mpr hsame)] at hid
        exact .inr (hid.symm.trans hsame)
      · rw [if_neg (mt beq_iff_eq.mp hsame)] at hid hrevoked
        exact .inl ⟨old, hold, hid, hrevoked⟩
    · exact absurd (hsuccessors token hnew) hrevoked
  · rintro (⟨token, htoken, hid, hrevoked⟩ | rfl)
    · refine ⟨_, .inl ⟨token, htoken, rfl⟩, ?_, ?_⟩
      · split
        · exact hid
        · exact hid
      · split
        · simp [revokeToken]
        · exact hrevoked
    · obtain ⟨token, htoken, hid⟩ := List.mem_map.mp hstored
      refine ⟨_, .inl ⟨token, htoken, rfl⟩, ?_, ?_⟩
      · rw [if_pos (beq_iff_eq.mpr hid)]
        exact hid
      · rw [if_pos (beq_iff_eq.mpr hid)]
        simp [revokeToken]

theorem map_id_release : (store.release request kind stored now successors).tokens.map
    RefreshToken.id = store.tokens.map RefreshToken.id ++ successors.map RefreshToken.id := by
  rw [release, List.map_append, List.map_map]
  congr 1
  refine List.map_congr_left fun token _ => ?_
  rw [Function.comp_apply]
  split <;> rfl

theorem Sane.release (h : Sane store) {overwritten : Option Time}
    (hheld : Holds store request stored overwritten)
    (hsuccessors : ∀ token ∈ successors, token.revokedAt = none)
    (hdistinct : (store.tokens.map RefreshToken.id ++
      successors.map RefreshToken.id).Nodup) :
    Sane (store.release request kind stored now successors) where
  distinct := by
    rw [map_id_release]
    exact hdistinct
  spent := by
    intro id hspent
    rw [revoked_release hsuccessors hheld.present]
    rcases spent_release.mp hspent with hold | rfl
    · exact .inl (h.spent id hold)
    · exact .inr rfl
  phases := by
    intro other
    by_cases hother : other = request
    · subst hother
      rw [release_self]
      trivial
    rw [release_of_ne hother]
    have hsane := h.phases other
    have hholds : ∀ stored' overwritten', Holds store other stored' overwritten' →
        Holds (store.release request kind stored now successors) other stored' overwritten' := by
      intro stored' overwritten' hold
      have hne := lockedBy_of_ne hother hheld.lockedBy hold.lockedBy
      refine ⟨?_, ?_, fun hnone hrevoked => ?_, fun hsome => ?_⟩
      · exact (Function.update_of_ne hne ..).trans hold.lockedBy
      · rw [map_id_release]
        exact List.mem_append_left _ hold.present
      · -- the lock keeps the row as the `UPDATE` found it
        rcases (revoked_release hsuccessors hheld.present).mp hrevoked with hbefore | hnew
        · exact hold.unrevoked hnone hbefore
        · exact hne hnew
      · exact spent_release.mpr (.inl (hold.spent hsome))
    cases hphase : store.requests other with
    | idle | ended => trivial
    | selected kind' stored' _ | cleared stored' _ _ =>
        rw [hphase] at hsane
        intro hrevoked
        rcases (revoked_release hsuccessors hheld.present).mp hrevoked with hold | hnew
        · exact spent_release.mpr (.inl (hsane hold))
        · exact spent_release.mpr (.inr hnew)
    | revoked kind' stored' _ overwritten' =>
        rw [hphase] at hsane
        exact hholds _ _ hsane
    | issued stored' _ overwritten' _ =>
        rw [hphase] at hsane
        exact ⟨hholds _ _ hsane.1, hsane.2⟩

theorem revokedAt_of_accepts (h : accepts kind stored now = true) : stored.revokedAt = none := by
  cases kind <;> simp_all [accepts, isUsable]

/-! ## Effects -/

/-- What a statement does: a request moves on, gets a row lock, rolls back or
commits. -/
inductive Effect (store : TokenStore) : RevokeEvent → TokenStore → Prop
  | moved {event : RevokeEvent} {request : ℕ} {phase : RevokePhase}
      (hcommit : ∀ request, event ≠ .commit request) (hphase : PhaseSane store request phase) :
      Effect store event (store.move request phase)
  | locked {request : ℕ} {kind : RevokeKind} {stored : RefreshToken} {now : Time}
      {store' : TokenStore} (hphase : store.Revoked stored.id → store.Spent stored.id)
      (hlock : store.lock request kind stored now = some store') :
      Effect store (.update request) store'
  | rolledBack {request : ℕ} {stored : RefreshToken}
      (hheld : store.lockedBy stored.id = some request) :
      Effect store (.abort request) ((store.move request .ended).setLock stored.id none)
  | committed {request : ℕ} {kind : RevokeKind} {stored : RefreshToken} {now : Time}
      {successors : List RefreshToken} {overwritten : Option Time}
      (hheld : Holds store request stored overwritten)
      (hsuccessors : ∀ token ∈ successors, token.revokedAt = none)
      (hdistinct : (store.tokens.map RefreshToken.id ++ successors.map RefreshToken.id).Nodup)
      (hfound : kind = .refresh → store.FoundUnrevoked request → overwritten = none) :
      Effect store (.commit request) (store.release request kind stored now successors)

theorem nodup_of_isNew {token : RefreshToken} (hdistinct : (store.tokens.map RefreshToken.id).Nodup)
    (hnew : store.isNew token = true) :
    (store.tokens.map RefreshToken.id ++ [token].map RefreshToken.id).Nodup := by
  simp only [isNew, List.all_eq_true, Bool.and_eq_true, bne_iff_ne] at hnew
  rw [List.map_singleton, ← List.concat_eq_append, List.nodup_concat]
  refine ⟨fun hmem => ?_, hdistinct⟩
  obtain ⟨other, hother, hid⟩ := List.mem_map.mp hmem
  exact (hnew other hother).1 hid

theorem effect_of_next (h : Sane store) {event : RevokeEvent}
    (hnext : next settings crypto users store event = some store') : Effect store event store' := by
  cases event with
  | select request kind refreshToken now =>
      simp only [TokenStore.next] at hnext
      split at hnext
      · split at hnext
        · cases hnext
          exact .moved nofun trivial
        · next stored hfound =>
            split at hnext
            · next haccepts =>
                cases hnext
                -- the `SELECT` found the token unrevoked
                refine .moved nofun fun hrevoked => absurd hrevoked ?_
                exact h.not_revoked (List.mem_of_find?_eq_some hfound)
                  (revokedAt_of_accepts haccepts)
            · cases hnext
              exact .moved nofun trivial
      · cases hnext
  | findUser request =>
      have hsane := h.phases request
      simp only [TokenStore.next] at hnext
      split at hnext
      · next stored now hphase =>
          rw [hphase] at hsane
          split at hnext
          · cases hnext
            exact .moved nofun trivial
          · split at hnext
            · cases hnext
              exact .moved nofun hsane
            · cases hnext
              exact .moved nofun trivial
      · cases hnext
  | update request =>
      have hsane := h.phases request
      simp only [TokenStore.next] at hnext
      split at hnext
      · next stored now hphase =>
          rw [hphase] at hsane
          exact .locked hsane hnext
      · next stored user now hphase =>
          rw [hphase] at hsane
          exact .locked hsane hnext
      · cases hnext
  | insert request draw createdAt =>
      have hsane := h.phases request
      simp only [TokenStore.next] at hnext
      split at hnext
      · next stored now overwritten hphase =>
          rw [hphase] at hsane
          cases hnext
          exact .moved nofun ⟨hsane, rfl⟩
      · cases hnext
  | commit request =>
      have hsane := h.phases request
      simp only [TokenStore.next] at hnext
      split at hnext
      · next stored now overwritten hphase =>
          rw [hphase] at hsane
          cases hnext
          exact .committed hsane nofun (by simpa using h.distinct) nofun
      · next stored now overwritten successor hphase =>
          rw [hphase] at hsane
          simp only [Option.ite_none_right_eq_some] at hnext
          obtain ⟨hnew, hnext⟩ := hnext
          cases hnext
          refine .committed hsane.1 (fun token hmem => ?_) (nodup_of_isNew h.distinct hnew)
            fun _ hfound => hfound stored now overwritten successor hphase
          cases List.mem_singleton.mp hmem
          exact hsane.2
      · cases hnext
  | abort request =>
      have hsane := h.phases request
      simp only [TokenStore.next] at hnext
      split at hnext
      · cases hnext
      · cases hnext
      · cases hnext
        exact .moved nofun trivial
      · cases hnext
        exact .moved nofun trivial
      · next kind stored now overwritten hphase =>
          rw [hphase] at hsane
          cases hnext
          exact .rolledBack hsane.lockedBy
      · next stored now overwritten successor hphase =>
          rw [hphase] at hsane
          cases hnext
          exact .rolledBack hsane.1.lockedBy

theorem Sane.next (h : Sane store) {event : RevokeEvent}
    (hnext : next settings crypto users store event = some store') : Sane store' := by
  cases effect_of_next h hnext with
  | moved _ hphase => exact h.move hphase
  | locked hphase hlock => exact h.lock hphase hlock
  | rolledBack hheld => exact h.abort hheld
  | committed hheld hsuccessors hdistinct _ => exact h.release hheld hsuccessors hdistinct

theorem sane_of_runs (hstart : Start start) (hrun : Runs settings crypto users start trace last) :
    Sane last :=
  hrun.keeps (P := Sane) (fun _ _ _ h hnext => h.next hnext) hstart.sane

/-! ## Single use -/

/-- A commit keeps tokens single-use unless it is a refresh of a spent token. -/
theorem SingleUse.release (h : SingleUse store)
    (hunspent : kind = .refresh → ¬store.Spent stored.id) :
    SingleUse (store.release request kind stored now successors) where
  exchanged := by
    intro id
    have hcount := h.exchanged id
    rw [TokenStore.release, List.count_append]
    by_cases hsame : (kind, stored.id) = (RevokeKind.refresh, id)
    · cases hsame
      have hzero : store.history.count (.refresh, stored.id) = 0 :=
        List.count_eq_zero.mpr fun hmem => hunspent rfl ⟨.refresh, hmem⟩
      rw [hzero, List.count_singleton_self]
    · rw [List.count_singleton, if_neg (by simpa using hsame)]
      exact hcount
  afterLogout := by
    intro before id after hhistory hmem
    rcases List.eq_nil_or_concat after with rfl | ⟨after, commit, rfl⟩
    · cases hmem
    rw [List.concat_eq_append] at hhistory hmem
    rw [TokenStore.release, ← List.cons_append, ← List.append_assoc] at hhistory
    obtain ⟨hbefore, hcommit⟩ := List.append_inj' hhistory rfl
    rcases List.mem_append.mp hmem with hold | hnew
    · exact h.afterLogout before id after hbefore hold
    · cases List.mem_singleton.mp hnew
      cases hcommit
      exact hunspent rfl ⟨.logout, by simp [hbefore]⟩

/-- The commit of a refresh of a spent token exchanges it again, or after its
logout. -/
theorem not_singleUse_release (hspent : store.Spent stored.id) :
    ¬SingleUse (store.release request .refresh stored now successors) := by
  intro h
  obtain ⟨kind, hmem⟩ := hspent
  cases kind with
  | refresh =>
      have hcount := h.exchanged stored.id
      rw [TokenStore.release, List.count_append, List.count_singleton_self] at hcount
      have hpositive := List.count_pos_iff.mpr hmem
      omega
  | logout =>
      obtain ⟨before, after, hsplit⟩ := List.append_of_mem hmem
      refine h.afterLogout before stored.id (after ++ [(.refresh, stored.id)]) ?_ (by simp)
      rw [TokenStore.release, hsplit, List.append_assoc, List.cons_append]

theorem history_of_lock (hlock : store.lock request kind stored now = some store') :
    store'.history = store.history := by
  unfold lock at hlock
  split at hlock
  · cases hlock
    rfl
  · cases hlock

/-- A commit is clean if it is no refresh, or one that found its token unrevoked. -/
theorem SingleUse.next (h : SingleUse store) (hsane : Sane store) {event : RevokeEvent}
    (hnext : next settings crypto users store event = some store')
    (hclean : ∀ request, event = .commit request → FoundUnrevoked store request) :
    SingleUse store' := by
  cases effect_of_next hsane hnext with
  | moved => exact ⟨h.exchanged, h.afterLogout⟩
  | locked _ hlock =>
      have hhistory := history_of_lock hlock
      exact ⟨hhistory ▸ h.exchanged, hhistory ▸ h.afterLogout⟩
  | rolledBack => exact ⟨h.exchanged, h.afterLogout⟩
  | committed hheld _ _ hfound =>
      -- the lock has kept unrevoked what the `UPDATE` found so
      refine h.release fun hrefresh hspent => ?_
      exact hheld.unrevoked (hfound hrefresh (hclean _ rfl)) (hsane.spent _ hspent)

theorem Start.singleUse (hstart : Start start) : SingleUse start where
  exchanged := by
    intro id
    rw [hstart.history]
    exact Nat.zero_le _
  afterLogout := by
    intro before id after hhistory
    rw [hstart.history] at hhistory
    simp at hhistory

/-- Tokens are single-use in every state of a run, and no refresh of a token
commits after its logout, if and only if the `UPDATE` of every refresh that
commits found `revoked_at` still null. -/
theorem singleUse_iff_foundUnrevoked (hstart : Start start)
    (hrun : Runs settings crypto users start trace last) :
    (∀ before state, before <+: trace → Runs settings crypto users start before state →
      SingleUse state) ↔
      ∀ before request state, before ++ [.commit request] <+: trace →
        Runs settings crypto users start before state → FoundUnrevoked state request := by
  constructor
  · intro hsingle before request state hbefore hstate stored now overwritten successor hissued
    by_contra hoverwritten
    obtain ⟨committed, _, hnext, _⟩ := hrun.next_of_prefix hbefore hstate
    have hcommitted := hsingle _ _ hbefore (hstate.snoc hnext)
    have hphase := (sane_of_runs hstart hstate).phases request
    rw [hissued] at hphase
    simp only [TokenStore.next, hissued, Option.ite_none_right_eq_some] at hnext
    obtain ⟨_, hnext⟩ := hnext
    cases hnext
    exact not_singleUse_release (hphase.1.spent hoverwritten) hcommitted
  · intro hclean before state hbefore hstate
    induction hstate with
    | nil => exact hstart.singleUse
    | @snoc before middle last event hearlier hlast ih =>
        refine (ih ((List.prefix_append _ _).trans hbefore)).next (sane_of_runs hstart hearlier)
          hlast fun request hcommit => ?_
        subst hcommit
        exact hclean before request middle hbefore hearlier

/-- An active user. -/
def sampleUser : User := ⟨2, 1, "a@acme.io".toList, none, none, .admin, true, 0⟩

/-- A store that holds one unexpired token of the user. -/
def sampleStore : TokenStore where
  tokens := [⟨3, 2, hashSecret sampleCrypto "first".toList, 1000, none, 0⟩]
  requests := fun _ => .idle
  lockedBy := fun _ => none
  history := []

theorem start_sampleStore : Start sampleStore where
  distinct := by decide
  idle := fun _ => rfl
  unlocked := fun _ => rfl
  history := rfl

/-- A refresh from its check on. -/
def finishRefresh (request : ℕ) (raw : Str) (id : Uuid) : List RevokeEvent :=
  [.update request, .insert request ⟨raw, id⟩ 20, .commit request]

/-- Two refreshes of one token; both have checked it before either revokes it. -/
def overlappingRefreshes : List RevokeEvent :=
  [.select 0 .refresh "first".toList 10, .findUser 0, .select 1 .refresh "first".toList 10,
    .findUser 1] ++ finishRefresh 0 "second".toList 4 ++ finishRefresh 1 "third".toList 5

/-- A refresh that has checked its token before the logout of the token commits. -/
def refreshAcrossLogout : List RevokeEvent :=
  [.select 0 .refresh "first".toList 10, .findUser 0, .select 1 .logout "first".toList 11,
    .update 1, .commit 1] ++ finishRefresh 0 "second".toList 4

theorem singleUse_iff_foundUnrevoked_overlapping : ∃ last,
    Runs {} sampleCrypto [sampleUser] sampleStore overlappingRefreshes last ∧
    ((∀ before state, before <+: overlappingRefreshes →
      Runs {} sampleCrypto [sampleUser] sampleStore before state → SingleUse state) ↔
      ∀ before request state, before ++ [.commit request] <+: overlappingRefreshes →
        Runs {} sampleCrypto [sampleUser] sampleStore before state →
          FoundUnrevoked state request) := by
  have hreplay : (replay (next {} sampleCrypto [sampleUser]) sampleStore
      overlappingRefreshes).isSome = true := by decide +kernel
  obtain ⟨last, hlast⟩ := Option.isSome_iff_exists.mp hreplay
  have hrun := run_of_replay _ _ _ _ hlast
  exact ⟨last, hrun, singleUse_iff_foundUnrevoked start_sampleStore hrun⟩

/-- Overlapping refreshes exchange a token twice, and a refresh that overlaps
with a logout commits after it. -/
theorem overlapping_requests_reuse_token : Start sampleStore ∧
    (∃ last, Runs {} sampleCrypto [sampleUser] sampleStore overlappingRefreshes last ∧
      last.history = [(.refresh, 3), (.refresh, 3)] ∧ ¬SingleUse last) ∧
    ∃ last, Runs {} sampleCrypto [sampleUser] sampleStore refreshAcrossLogout last ∧
      last.history = [(.logout, 3), (.refresh, 3)] ∧ ¬SingleUse last := by
  refine ⟨start_sampleStore, ?_, ?_⟩
  · have hreplay : (replay (next {} sampleCrypto [sampleUser]) sampleStore
        overlappingRefreshes).map TokenStore.history =
          some [(.refresh, 3), (.refresh, 3)] := by decide +kernel
    obtain ⟨last, hlast, hhistory⟩ := Option.map_eq_some_iff.mp hreplay
    refine ⟨last, run_of_replay _ _ _ _ hlast, hhistory, fun hsingle => ?_⟩
    have hcount := hsingle.exchanged 3
    rw [hhistory] at hcount
    exact absurd hcount (by decide)
  · have hreplay : (replay (next {} sampleCrypto [sampleUser]) sampleStore
        refreshAcrossLogout).map TokenStore.history =
          some [(.logout, 3), (.refresh, 3)] := by decide +kernel
    obtain ⟨last, hlast, hhistory⟩ := Option.map_eq_some_iff.mp hreplay
    refine ⟨last, run_of_replay _ _ _ _ hlast, hhistory, fun hsingle => ?_⟩
    exact hsingle.afterLogout [] 3 [(.refresh, 3)] hhistory List.mem_cons_self

/-! ## The statements of `refresh` and `logout` -/

section Steps

variable {row successor : RefreshToken} {user : User} {overwritten : Option Time}

theorem next_select {kind : RevokeKind} {refreshToken : Str}
    (hphase : store.requests request = .idle)
    (hfound : (store.tokens.find? fun token =>
      token.tokenHash == hashSecret crypto refreshToken) = some stored)
    (haccepts : accepts kind stored now = true) :
    next settings crypto users store (.select request kind refreshToken now) =
      some (store.move request (.selected kind stored now)) := by
  simp [TokenStore.next, hphase, hfound, haccepts]

/-- A request whose token is not there, or not live, ends. -/
theorem next_select_none {kind : RevokeKind} {refreshToken : Str}
    (hphase : store.requests request = .idle)
    (hnone : (store.tokens.find? fun token =>
      token.tokenHash == hashSecret crypto refreshToken).filter (accepts kind · now) = none) :
    next settings crypto users store (.select request kind refreshToken now) =
      some (store.move request .ended) := by
  cases hfound : store.tokens.find? fun token =>
      token.tokenHash == hashSecret crypto refreshToken with
  | none => simp [TokenStore.next, hphase, hfound]
  | some stored =>
      rw [hfound] at hnone
      have hrejects : accepts kind stored now = false := by simpa using hnone
      simp [TokenStore.next, hphase, hfound, hrejects]

theorem next_findUser (hphase : store.requests request = .selected .refresh stored now)
    (hfound : (users.find? fun user => user.id == stored.userId) = some user)
    (hactive : user.isActive = true) :
    next settings crypto users store (.findUser request) =
      some (store.move request (.cleared stored user now)) := by
  simp [TokenStore.next, hphase, hfound, hactive]

/-- A row that nobody locks is locked and revoked. -/
theorem lock_eq_some {kind : RevokeKind} (hfree : store.lockedBy stored.id = none)
    (hrow : (store.tokens.find? fun token => token.id == stored.id) = some row) :
    store.lock request kind stored now =
      some ((store.move request (.revoked kind stored now row.revokedAt)).setLock stored.id
        (some request)) := by
  simp [TokenStore.lock, hfree, hrow]

theorem next_update (hphase : store.requests request = .cleared stored user now)
    (hfree : store.lockedBy stored.id = none)
    (hrow : (store.tokens.find? fun token => token.id == stored.id) = some row) :
    next settings crypto users store (.update request) =
      some ((store.move request (.revoked .refresh stored now row.revokedAt)).setLock stored.id
        (some request)) := by
  simp only [TokenStore.next, hphase]
  exact lock_eq_some hfree hrow

theorem next_update_logout (hphase : store.requests request = .selected .logout stored now)
    (hfree : store.lockedBy stored.id = none)
    (hrow : (store.tokens.find? fun token => token.id == stored.id) = some row) :
    next settings crypto users store (.update request) =
      some ((store.move request (.revoked .logout stored now row.revokedAt)).setLock stored.id
        (some request)) := by
  simp only [TokenStore.next, hphase]
  exact lock_eq_some hfree hrow

theorem next_insert (draw : TokenDraw) (createdAt : Time)
    (hphase : store.requests request = .revoked .refresh stored now overwritten) :
    next settings crypto users store (.insert request draw createdAt) =
      some (store.move request (.issued stored now overwritten
        (newRefreshToken settings crypto stored.userId draw now createdAt))) := by
  simp [TokenStore.next, hphase]

theorem next_commit (hphase : store.requests request = .issued stored now overwritten successor)
    (hnew : store.isNew successor = true) :
    next settings crypto users store (.commit request) =
      some (store.release request .refresh stored now [successor]) := by
  simp [TokenStore.next, hphase, hnew]

theorem next_commit_logout
    (hphase : store.requests request = .revoked .logout stored now overwritten) :
    next settings crypto users store (.commit request) =
      some (store.release request .logout stored now []) := by
  simp [TokenStore.next, hphase]

/-- A token that was found is found by its id. -/
theorem exists_row {selected : RefreshToken → Bool}
    (hfound : store.tokens.find? selected = some stored) :
    ∃ row, (store.tokens.find? fun token => token.id == stored.id) = some row := by
  rw [← Option.isSome_iff_exists, List.find?_isSome]
  exact ⟨stored, List.mem_of_find?_eq_some hfound, beq_self_eq_true _⟩

/-- The tokens after the `UPDATE`. -/
theorem refreshTokens_of_save {conn conn' : Conn} (hrole : conn.role = .appAuth)
    (htokens : store.tokens = conn.db .refreshTokens)
    (hupdate : (save .refreshTokens stored.id (revokeToken now)).Runs conn () conn') :
    conn'.db .refreshTokens = store.tokens.map fun token =>
      if token.id == stored.id then (revokeToken now).set token else token := by
  rw [(runs_save.mp hupdate).update.2, Database.update_self, ← htokens]
  refine List.map_congr_left fun token _ => ?_
  rw [Conn.visible_of_appAuth hrole, Bool.true_and]
  rfl

end Steps

/-- Executed without interruption, the statements of a refresh do to the tokens
what `refresh` does. -/
theorem refresh_refines {conn conn' : Conn} {refreshToken : Str} {draw : TokenDraw}
    {response : TokenResponse} (hrole : conn.role = .appAuth)
    (hrun : (refresh settings crypto refreshToken draw now).Runs conn response conn')
    (htokens : store.tokens = conn.db .refreshTokens) (hidle : store.requests request = .idle)
    (hunlocked : ∀ id, store.lockedBy id = none) : ∃ store',
      Runs settings crypto (conn.db .users) store
        [.select request .refresh refreshToken now, .findUser request, .update request,
          .insert request draw conn.now, .commit request] store' ∧
      store'.tokens = conn'.db .refreshTokens := by
  simp only [refresh, issueTokens, Program.runs_bind, Program.runs_orRaise, Program.runs_raiseIf,
    runs_save, runs_add, runs_transactionTime, Program.runs_pure, Bool.not_eq_false] at hrun
  obtain ⟨_, _, hfound, stored, _, ⟨rfl, rfl⟩, _, _, ⟨husable, rfl⟩, _, _, huser, user, _,
    ⟨rfl, rfl⟩, _, _, ⟨hactive, rfl⟩, _, middle, hupdate, _, _, ⟨rfl, rfl⟩, _, _, hinsert,
    _, rfl⟩ := hrun
  obtain ⟨rfl, hselect⟩ := of_runs_scalar_of_appAuth hrole hfound
  obtain ⟨rfl, hfindUser⟩ := of_runs_scalar_of_appAuth hrole huser
  rw [← htokens] at hselect
  obtain ⟨row, hrow⟩ := exists_row hselect.symm
  have hfindUser : ((conn.db .users).find? fun user => user.id == stored.userId) = some user :=
    hfindUser.symm
  have huserId : user.id = stored.userId := by simpa using List.find?_some hfindUser
  have hmiddle := refreshTokens_of_save hrole htokens (runs_save.mpr hupdate)
  obtain ⟨hinserted, _, _, _, hfresh, _⟩ := hinsert.insert
  rw [hupdate.now, huserId] at hinserted hfresh
  have hnew : store.isNew (newRefreshToken settings crypto stored.userId draw now conn.now) =
      true := by
    simp only [isNew, List.all_eq_true, Bool.and_eq_true, bne_iff_ne, Bool.not_eq_true']
    intro token htoken
    have hafter := hfresh (if token.id == stored.id then (revokeToken now).set token else token)
      (by rw [hmiddle]; exact List.mem_map_of_mem htoken)
    split at hafter <;> exact hafter
  have haccepts : accepts .refresh stored now = true := husable
  have hselected : Runs settings crypto (conn.db .users) store _ _ :=
    Run.single (next_select hidle hselect.symm haccepts)
  have hcleared := hselected.snoc (next_findUser (move_self ..) hfindUser hactive)
  have hrevoked := hcleared.snoc (next_update (move_self ..) (hunlocked stored.id) hrow)
  have hissued := hrevoked.snoc (next_insert draw conn.now (move_self ..))
  refine ⟨_, hissued.snoc (next_commit (move_self ..) hnew), ?_⟩
  rw [hinserted, Database.insert_self, hmiddle]
  rfl

/-- Executed without interruption, the statements of a logout do to the tokens what
`logout` does. -/
theorem logout_refines {conn conn' : Conn} {refreshToken : Str} {result : Unit}
    (hrole : conn.role = .appAuth)
    (hrun : (logout crypto refreshToken now).Runs conn result conn')
    (htokens : store.tokens = conn.db .refreshTokens) (hidle : store.requests request = .idle)
    (hunlocked : ∀ id, store.lockedBy id = none) : ∃ events store',
      Runs settings crypto users store
        (.select request .logout refreshToken now :: events) store' ∧
      store'.tokens = conn'.db .refreshTokens := by
  simp only [logout, Program.runs_bind] at hrun
  obtain ⟨found, _, hfound, hrun⟩ := hrun
  obtain ⟨rfl, hselect⟩ := of_runs_scalar_of_appAuth hrole hfound
  rw [← htokens] at hselect
  split at hrun
  · next hnone =>
      -- no token to revoke: the request ends with its `SELECT`
      obtain ⟨_, rfl⟩ := Program.runs_pure.mp hrun
      rw [hselect] at hnone
      exact ⟨[], _, Run.single (next_select_none hidle hnone), htokens⟩
  · next stored hstored =>
      obtain ⟨hstored, hlive⟩ := Option.filter_eq_some_iff.mp hstored
      rw [hselect] at hstored
      obtain ⟨row, hrow⟩ := exists_row hstored
      have haccepts : accepts .logout stored now = true := hlive
      have hselected : Runs settings crypto users store _ _ :=
        Run.single (next_select hidle hstored haccepts)
      have hrevoked := hselected.snoc (next_update_logout (move_self ..) (hunlocked stored.id) hrow)
      refine ⟨[.update request, .commit request], _,
        hrevoked.snoc (next_commit_logout (move_self ..)), ?_⟩
      rw [refreshTokens_of_save hrole htokens hrun]
      exact List.append_nil _

end TokenStore

end Api
