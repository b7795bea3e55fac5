import KnowledgePlatform.Foundations.Lineage
import KnowledgePlatform.Platform.Accounts

/-!
# Session lineages

A sign-up, a login or an OAuth callback starts a session, and every refresh replaces its
refresh token by a new one.  The tokens of a session form a lineage, which is stored
nowhere: it is read off the requests that were answered with tokens.

In every reachable state the only unrevoked token of a lineage is its newest
(`Lined.newest`).  A refresh needs an unrevoked token, so a lineage whose newest token
is revoked or has expired is never continued again (`Ended.run`).  All of this rests on
the rotation: the branch that issues the next token revokes the presented one in the same
transaction.
-/

open Api Core Foundations Python Relational

namespace Platform

variable {settings : Settings} {crypto : Crypto} {world world' : World} {event : Event}

/-! ## Lineages of a trace -/

/-- The hash of the token that is issued with a draw. -/
def issuedHash (crypto : Crypto) (draw : TokenDraw) : Str := (generateRefreshToken crypto draw.raw).2

/-- The token that a request issues starts a lineage, or succeeds the presented one. -/
def tokenLink (crypto : Crypto) : AuthRequest → Option (Link Str)
  | .signup _ _ _ draw | .login _ _ draw | .oauthCallback _ _ _ draw =>
      some (.root (issuedHash crypto draw))
  | .refresh presented draw => some (.next (hashSecret crypto presented) (issuedHash crypto draw))
  | .logout _ => none

/-- What a step adds to the lineages. -/
def Event.link (crypto : Crypto) : Event → Option (Link Str)
  | .auth request _ (some _) => tokenLink crypto request
  | _ => none

def sessionLinks (crypto : Crypto) (trace : List Event) : List (Link Str) :=
  trace.filterMap (Event.link crypto)

/-- The lineages of refresh tokens, each by the hashes of its tokens, newest first. -/
def sessionLineages (crypto : Crypto) (trace : List Event) : List (List Str) :=
  lineages (sessionLinks crypto trace)

/-- The hashes of the tokens that were issued. -/
def issuedHashes (crypto : Crypto) (trace : List Event) : List Str :=
  (sessionLinks crypto trace).map Link.key

/-! ## What a step does to the tokens -/

/-- The request presents a token of the lineage. -/
def Presents (crypto : Crypto) (lineage : List Str) : AuthRequest → Prop
  | .refresh presented _ | .logout presented => hashSecret crypto presented ∈ lineage
  | .signup .. | .login .. | .oauthCallback .. => False

/-- What a step does to the stored refresh tokens. -/
inductive TokenChange (crypto : Crypto) (tokens : List RefreshToken) :
    Event → List RefreshToken → Prop
  | lost {event : Event} {left : List RefreshToken} :
      (∀ request now issued, event ≠ .auth request now issued) → left.Sublist tokens →
      TokenChange crypto tokens event left
  | unknown {presented : Str} {now : Time} :
      (∀ token ∈ tokens, token.tokenHash = hashSecret crypto presented → token.revokedAt ≠ none) →
      TokenChange crypto tokens (.auth (.logout presented) now none) tokens
  | revoked {presented : Str} {now : Time} {stored : RefreshToken} :
      stored ∈ tokens → stored.tokenHash = hashSecret crypto presented → stored.revokedAt = none →
      TokenChange crypto tokens (.auth (.logout presented) now none)
        (revokeStored stored now tokens)
  | started {event : Event} {new : RefreshToken} :
      event.link crypto = some (.root new.tokenHash) → TokenChange crypto tokens event
        (tokens ++ [new])
  | continued {presented : Str} {draw : TokenDraw} {now : Time} {issued : TokenResponse}
      {stored new : RefreshToken} :
      stored ∈ tokens → stored.tokenHash = hashSecret crypto presented →
      isUsable stored now = true → new.tokenHash = issuedHash crypto draw →
      TokenChange crypto tokens (.auth (.refresh presented draw) now (some issued))
        (revokeStored stored now tokens ++ [new])

/-- Hashes of refresh tokens are unique. -/
theorem eq_of_tokenHash_eq {db : Database} (sound : schema.Sound db) {token other : RefreshToken}
    (htoken : token ∈ db .refreshTokens) (hother : other ∈ db .refreshTokens)
    (hsame : other.tokenHash = token.tokenHash) : other = token := by
  have hnodup : ((db .refreshTokens).map RefreshToken.tokenHash).Nodup :=
    List.pairwise_map.mpr ((sound.distinct .refreshTokens).imp fun h hequal => by
      simp [schema, rowClash, hequal] at h)
  exact List.inj_on_of_nodup_map hnodup hother htoken hsame

theorem tokenChange_of_step (sound : schema.Sound world.db)
    (hstep : Step settings crypto world event world') :
    TokenChange crypto (world.db .refreshTokens) event (world'.db .refreshTokens) := by
  by_cases hauth : ∃ request now tokens, event = .auth request now tokens
  · obtain ⟨request, now, tokens, rfl⟩ := hauth
    obtain ⟨createdAt, heffect⟩ := authEffect_of_step hstep
    generalize world'.db .users = users at heffect
    generalize world'.db .oauthAccounts = accounts at heffect
    generalize world'.db .refreshTokens = refreshTokens at heffect
    cases heffect with
    | signup | login | linked | matched | provisioned => exact .started rfl
    | refresh hstored husable =>
        have hhash := List.find?_some hstored
        exact .continued (List.mem_of_find?_eq_some hstored) (eq_of_beq hhash) husable rfl
    | logoutUnknown hunknown =>
        refine .unknown fun token htoken hhash => hunknown token ?_
        refine find_of_unique htoken (beq_iff_eq.mpr hhash) fun other hother hsame => ?_
        exact eq_of_tokenHash_eq sound htoken hother ((eq_of_beq hsame).trans hhash.symm)
    | logout hstored hunrevoked =>
        have hhash := List.find?_some hstored
        exact .revoked (List.mem_of_find?_eq_some hstored) (eq_of_beq hhash) hunrevoked
  · have hother : ∀ request now tokens, event ≠ .auth request now tokens :=
      fun request now tokens heq => hauth ⟨request, now, tokens, heq⟩
    exact .lost hother (refreshTokens_of_step hstep hother)

/-- Logging out issues no tokens. -/
theorem issued_of_logout {presented : Str} {now : Time} {issued : Option TokenResponse}
    (hstep : Step settings crypto world (.auth (.logout presented) now issued) world') :
    issued = none := by
  obtain ⟨createdAt, heffect⟩ := authEffect_of_step hstep
  generalize world'.db .users = users at heffect
  generalize world'.db .oauthAccounts = accounts at heffect
  generalize world'.db .refreshTokens = refreshTokens at heffect
  cases heffect with
  | logoutUnknown | logout => rfl

/-- Steps other than authentication requests do not add to the lineages. -/
theorem link_of_not_auth (hevent : ∀ request now issued, event ≠ .auth request now issued) :
    event.link crypto = none := by
  cases event with
  | auth => exact absurd rfl (hevent _ _ _)
  | authenticated | served | asked | answered | ingesting | notIngested | stored | raised | failed
  | dispatched => rfl

/-- `later` is the row of the same token at a later time. -/
structure SameToken (token later : RefreshToken) : Prop where
  id : later.id = token.id
  userId : later.userId = token.userId
  tokenHash : later.tokenHash = token.tokenHash
  expiresAt : later.expiresAt = token.expiresAt
  revokedAt : token.revokedAt ≠ none → later.revokedAt = token.revokedAt

theorem SameToken.refl (token : RefreshToken) : SameToken token token :=
  ⟨rfl, rfl, rfl, rfl, fun _ => rfl⟩

theorem SameToken.trans {first second third : RefreshToken} (hfirst : SameToken first second)
    (hsecond : SameToken second third) : SameToken first third where
  id := hsecond.id.trans hfirst.id
  userId := hsecond.userId.trans hfirst.userId
  tokenHash := hsecond.tokenHash.trans hfirst.tokenHash
  expiresAt := hsecond.expiresAt.trans hfirst.expiresAt
  revokedAt := fun h => by
    have hsame := hfirst.revokedAt h
    rw [← hsame] at h ⊢
    exact hsecond.revokedAt h

/-- A token that is not revoked was not revoked before. -/
theorem SameToken.unrevoked {token later : RefreshToken} (h : SameToken token later)
    (hlater : later.revokedAt = none) : token.revokedAt = none := by
  by_contra hrevoked
  exact hrevoked ((h.revokedAt hrevoked).symm.trans hlater)

section Revoked

variable {db : Database} {stored later : RefreshToken} {now : Time}

/-- Revoking a token rewrites its row and no other. -/
theorem of_mem_revokeStored (sound : schema.Sound db) (hstored : stored ∈ db .refreshTokens)
    (hlater : later ∈ revokeStored stored now (db .refreshTokens)) :
    later = (revokeToken now).set stored ∨
      later ∈ db .refreshTokens ∧ later.tokenHash ≠ stored.tokenHash := by
  obtain ⟨token, htoken, rfl⟩ := List.mem_map.mp hlater
  split
  · next hid =>
      rw [sound.eq_of_key_eq htoken hstored (eq_of_beq hid)]
      exact .inl rfl
  · next hid =>
      refine .inr ⟨htoken, fun hsame => hid ?_⟩
      rw [eq_of_tokenHash_eq sound hstored htoken hsame]
      exact beq_self_eq_true _

theorem same_of_mem_revokeStored (sound : schema.Sound db) (hstored : stored ∈ db .refreshTokens)
    (hunrevoked : stored.revokedAt = none)
    (hlater : later ∈ revokeStored stored now (db .refreshTokens)) :
    ∃ token ∈ db .refreshTokens, SameToken token later := by
  rcases of_mem_revokeStored sound hstored hlater with rfl | ⟨hmem, _⟩
  · exact ⟨stored, hstored, rfl, rfl, rfl, rfl, fun h => absurd hunrevoked h⟩
  · exact ⟨later, hmem, SameToken.refl later⟩

/-- The tokens with other hashes stay as they are. -/
theorem mem_revokeStored_iff (sound : schema.Sound db) (hstored : stored ∈ db .refreshTokens)
    (hne : later.tokenHash ≠ stored.tokenHash) :
    later ∈ revokeStored stored now (db .refreshTokens) ↔ later ∈ db .refreshTokens := by
  constructor
  · intro hlater
    rcases of_mem_revokeStored sound hstored hlater with rfl | ⟨hmem, _⟩
    · exact absurd rfl hne
    · exact hmem
  · intro hmem
    refine List.mem_map.mpr ⟨later, hmem, if_neg fun hid => hne ?_⟩
    rw [sound.eq_of_key_eq hmem hstored (eq_of_beq hid)]

end Revoked

namespace TokenChange

variable {db : Database} {tokens : List RefreshToken}

/-- A token after the step was there before, or is the one issued. -/
theorem same_or_issued (h : TokenChange crypto (db .refreshTokens) event tokens)
    (sound : schema.Sound db) {later : RefreshToken} (hlater : later ∈ tokens) :
    (∃ token ∈ db .refreshTokens, SameToken token later) ∨
      ∃ link, event.link crypto = some link ∧ later.tokenHash = link.key := by
  cases h with
  | lost _ hleft => exact .inl ⟨later, hleft.subset hlater, SameToken.refl later⟩
  | unknown => exact .inl ⟨later, hlater, SameToken.refl later⟩
  | revoked hstored _ hunrevoked =>
      exact .inl (same_of_mem_revokeStored sound hstored hunrevoked hlater)
  | started hlink =>
      rcases List.mem_append.mp hlater with hmem | hmem
      · exact .inl ⟨later, hmem, SameToken.refl later⟩
      · exact .inr ⟨_, hlink, by rw [List.mem_singleton.mp hmem]; rfl⟩
  | continued hstored _ husable hnew =>
      rcases List.mem_append.mp hlater with hmem | hmem
      · have hunrevoked := (Bool.and_eq_true_iff.mp husable).1
        exact .inl (same_of_mem_revokeStored sound hstored (Option.isNone_iff_eq_none.mp hunrevoked)
          hmem)
      · exact .inr ⟨_, rfl, by rw [List.mem_singleton.mp hmem]; exact hnew⟩

/-- The presented token is a stored one. -/
theorem exists_parent (h : TokenChange crypto (db .refreshTokens) event tokens)
    {parent key : Str} (hlink : event.link crypto = some (.next parent key)) :
    ∃ stored ∈ db .refreshTokens, stored.tokenHash = parent := by
  cases h with
  | lost hevent =>
      rw [link_of_not_auth hevent] at hlink
      cases hlink
  | unknown | revoked => cases hlink
  | started hstarted =>
      rw [hstarted] at hlink
      cases hlink
  | continued hstored hhash =>
      cases hlink
      exact ⟨_, hstored, hhash⟩

/-- A lineage is continued by a refresh of an unrevoked token of it, which is revoked. -/
theorem of_continues (h : TokenChange crypto (db .refreshTokens) event tokens)
    (sound : schema.Sound db) {link : Link Str} {lineage : List Str}
    (hlink : event.link crypto = some link) (hcontinues : link.Continues lineage) :
    ∃ presented draw now issued stored, event = .auth (.refresh presented draw) now (some issued) ∧
      stored ∈ db .refreshTokens ∧ stored.tokenHash ∈ lineage ∧ stored.revokedAt = none ∧
      now < stored.expiresAt ∧ ∀ later ∈ tokens, later.tokenHash = stored.tokenHash →
        later.revokedAt = none → later.tokenHash = link.key := by
  cases h with
  | lost hevent =>
      rw [link_of_not_auth hevent] at hlink
      cases hlink
  | unknown | revoked => cases hlink
  | started hstarted =>
      rw [hstarted] at hlink
      cases hlink
      cases hcontinues
  | @continued presented draw now issued stored new hstored hhash husable hnew =>
      cases hlink
      obtain ⟨hunrevoked, hunexpired⟩ := Bool.and_eq_true_iff.mp husable
      refine ⟨presented, draw, now, issued, stored, rfl, hstored, hhash ▸ hcontinues,
        Option.isNone_iff_eq_none.mp hunrevoked, of_decide_eq_true hunexpired, ?_⟩
      intro later hlater hsame hnone
      rcases List.mem_append.mp hlater with hmem | hmem
      · rcases of_mem_revokeStored sound hstored hmem with rfl | ⟨_, hne⟩
        · cases hnone
        · exact absurd hsame hne
      · rw [List.mem_singleton.mp hmem]
        exact hnew

/-- Logging out leaves the presented token revoked. -/
theorem revoked_of_logout {presented : Str} {now : Time} {issued : Option TokenResponse}
    (h : TokenChange crypto (db .refreshTokens) (.auth (.logout presented) now issued) tokens)
    (sound : schema.Sound db) {later : RefreshToken} (hlater : later ∈ tokens)
    (hhash : later.tokenHash = hashSecret crypto presented) : later.revokedAt ≠ none := by
  cases h with
  | lost hevent => exact absurd rfl (hevent _ _ _)
  | unknown hrevoked => exact hrevoked later hlater hhash
  | started hlink => cases issued <;> cases hlink
  | revoked hstored hpresented =>
      rcases of_mem_revokeStored sound hstored hlater with rfl | ⟨_, hne⟩
      · exact fun hnone => by cases hnone
      · exact absurd (hhash.trans hpresented.symm) hne

/-- A request that presents no token of a lineage, and issues none, leaves its tokens as
they are. -/
theorem mem_iff_of_not_presents {request : AuthRequest} {now : Time}
    {issued : Option TokenResponse} {lineage : List Str}
    (h : TokenChange crypto (db .refreshTokens) (.auth request now issued) tokens)
    (sound : schema.Sound db) (hpresents : ¬Presents crypto lineage request)
    (hkey : ∀ link, (Event.auth request now issued).link crypto = some link → link.key ∉ lineage)
    {token : RefreshToken} (htoken : token.tokenHash ∈ lineage) :
    token ∈ tokens ↔ token ∈ db .refreshTokens := by
  cases h with
  | lost hevent => exact absurd rfl (hevent _ _ _)
  | unknown => rfl
  | revoked hstored hhash =>
      refine mem_revokeStored_iff sound hstored fun hsame => hpresents ?_
      show hashSecret crypto _ ∈ lineage
      rwa [← hhash, ← hsame]
  | started hlink =>
      rw [List.mem_append, List.mem_singleton]
      refine or_iff_left ?_
      rintro rfl
      exact hkey _ hlink htoken
  | continued hstored hhash _ hnew =>
      rw [List.mem_append, List.mem_singleton, or_iff_left]
      · refine mem_revokeStored_iff sound hstored fun hsame => hpresents ?_
        show hashSecret crypto _ ∈ lineage
        rwa [← hhash, ← hsame]
      · rintro rfl
        exact hkey _ rfl (hnew ▸ htoken)

end TokenChange

/-! ## The newest token of a lineage -/

/-- Every stored token is in a lineage, and if it is not revoked it is the newest
there. -/
structure Lined (crypto : Crypto) (trace : List Event) (tokens : List RefreshToken) : Prop where
  traced : ∀ token ∈ tokens, ∃ lineage ∈ sessionLineages crypto trace, token.tokenHash ∈ lineage
  newest : ∀ token ∈ tokens, token.revokedAt = none → ∀ lineage ∈ sessionLineages crypto trace,
    token.tokenHash ∈ lineage → lineage.head? = some token.tokenHash

section Traces

variable {trace after : List Event} {lineage other : List Str} {hash : Str} {link : Link Str}

theorem sessionLinks_append :
    sessionLinks crypto (trace ++ after) = sessionLinks crypto trace ++ sessionLinks crypto after :=
  List.filterMap_append

theorem sessionLinks_of_link (hlink : event.link crypto = some link) :
    sessionLinks crypto (trace ++ [event]) = sessionLinks crypto trace ++ [link] := by
  rw [sessionLinks_append]
  exact congrArg _ (List.filterMap_cons_some hlink)

theorem sessionLineages_of_none (hlink : event.link crypto = none) :
    sessionLineages crypto (trace ++ [event]) = sessionLineages crypto trace := by
  unfold sessionLineages
  rw [sessionLinks_append]
  have hnone : sessionLinks crypto [event] = [] := List.filterMap_cons_none hlink
  rw [hnone, List.append_nil]

/-- The hashes of a lineage were issued. -/
theorem mem_issuedHashes (hlineage : lineage ∈ sessionLineages crypto trace)
    (hhash : hash ∈ lineage) : hash ∈ issuedHashes crypto trace :=
  mem_keys_of_mem_lineages hlineage hhash

/-- The hash of a new token was not issued before. -/
theorem key_not_mem_issuedHashes (hdistinct : (issuedHashes crypto (trace ++ [event])).Nodup)
    (hlink : event.link crypto = some link) : link.key ∉ issuedHashes crypto trace := by
  intro hmem
  unfold issuedHashes at hdistinct
  rw [sessionLinks_of_link hlink, List.map_append] at hdistinct
  exact (List.nodup_append.mp hdistinct).2.2 _ hmem _ List.mem_cons_self rfl

theorem distinct_of_append (h : (issuedHashes crypto (trace ++ after)).Nodup) :
    (issuedHashes crypto trace).Nodup := by
  unfold issuedHashes at h
  rw [sessionLinks_append, List.map_append] at h
  exact (List.nodup_append.mp h).1

/-- A link grows the lineage it continues, or starts one. -/
theorem sessionLineages_of_link (hlink : event.link crypto = some link) :
    sessionLineages crypto (trace ++ [event]) = grow (sessionLineages crypto trace) link := by
  unfold sessionLineages
  rw [sessionLinks_of_link hlink, lineages_append_singleton]

end Traces

/-- Every step keeps the invariant. -/
theorem Lined.step {trace : List Event} (h : Lined crypto trace (world.db .refreshTokens))
    (sound : schema.Sound world.db) (hstep : Step settings crypto world event world')
    (hdistinct : (issuedHashes crypto (trace ++ [event])).Nodup) :
    Lined crypto (trace ++ [event]) (world'.db .refreshTokens) := by
  have hchange := tokenChange_of_step sound hstep
  cases hlink : event.link crypto with
  | none =>
      have hsame : ∀ later ∈ world'.db .refreshTokens, ∃ token ∈ world.db .refreshTokens,
          SameToken token later := by
        intro later hlater
        rcases hchange.same_or_issued sound hlater with hold | ⟨link, hissued, _⟩
        · exact hold
        · rw [hlink] at hissued
          cases hissued
      refine ⟨fun later hlater => ?_, fun later hlater hunrevoked => ?_⟩
      -- every token was there before, and the lineages are the same
      · obtain ⟨token, htoken, hsame⟩ := hsame later hlater
        rw [sessionLineages_of_none hlink, hsame.tokenHash]
        exact h.traced token htoken
      · obtain ⟨token, htoken, hsame⟩ := hsame later hlater
        rw [sessionLineages_of_none hlink, hsame.tokenHash]
        exact h.newest token htoken (hsame.unrevoked hunrevoked)
  | some link =>
      have hgrow := @sessionLineages_of_link crypto event trace link hlink
      have hfresh : ∀ lineage ∈ sessionLineages crypto trace, link.key ∉ lineage :=
        fun lineage hlineage hmem =>
          key_not_mem_issuedHashes hdistinct hlink (mem_issuedHashes hlineage hmem)
      refine ⟨fun later hlater => ?_, fun later hlater hunrevoked lineage hlineage hhash => ?_⟩
      · rw [hgrow]
        rcases hchange.same_or_issued sound hlater with ⟨token, htoken, hsame⟩ | ⟨_, hissued, hkey⟩
        · obtain ⟨lineage, hlineage, hmem⟩ := h.traced token htoken
          rw [hsame.tokenHash]
          exact ⟨link.extend lineage, mem_grow.mpr (.inr ⟨lineage, hlineage, rfl⟩),
            Link.mem_extend.mpr (.inr hmem)⟩
        · cases hlink.symm.trans hissued
          rw [hkey]
          cases link with
          | root key => exact ⟨_, mem_grow.mpr (.inl ⟨rfl, rfl⟩), List.mem_cons_self⟩
          | next parent key =>
              -- the presented token was stored, so its lineage is the one that grows
              obtain ⟨stored, hstored, rfl⟩ := hchange.exists_parent hlink
              obtain ⟨lineage, hlineage, hmem⟩ := h.traced stored hstored
              exact ⟨_, mem_grow.mpr (.inr ⟨lineage, hlineage, rfl⟩),
                Link.mem_extend.mpr (.inl ⟨hmem, rfl⟩)⟩
      · rw [hgrow] at hlineage
        rcases mem_grow.mp hlineage with ⟨_, rfl⟩ | ⟨older, holder, rfl⟩
        · rw [List.mem_singleton.mp hhash]
          rfl
        · rcases Link.mem_extend.mp hhash with ⟨hcontinues, hkey⟩ | hmem
          · rw [Link.extend_of_continues hcontinues, hkey]
            rfl
          · rcases hchange.same_or_issued sound hlater with ⟨token, htoken, hsame⟩ |
              ⟨_, hissued, hkey⟩
            · have hhead := h.newest token htoken (hsame.unrevoked hunrevoked) older holder
                (hsame.tokenHash ▸ hmem)
              by_cases hcontinues : link.Continues older
              · -- the newest token was presented, and is revoked
                obtain ⟨_, _, _, _, stored, rfl, hstored, hinside, hwas, _, hnow⟩ :=
                  hchange.of_continues sound hlink hcontinues
                have hnewest := h.newest stored hstored hwas older holder hinside
                have hstoredHash : later.tokenHash = stored.tokenHash :=
                  hsame.tokenHash.trans (Option.some.inj (hhead.symm.trans hnewest))
                have hkey := hnow later hlater hstoredHash hunrevoked
                exact absurd (hkey ▸ hmem) (hfresh older holder)
              · rw [Link.extend_of_not_continues hcontinues, hsame.tokenHash]
                exact hhead
            · cases hlink.symm.trans hissued
              exact absurd (hkey ▸ hmem) (hfresh older holder)

theorem lined_of_runs {start : World} {trace : List Event} (hstart : Initial start)
    (hempty : start.db .refreshTokens = []) (hrun : Runs settings crypto start trace world)
    (hdistinct : (issuedHashes crypto trace).Nodup) :
    Coherent world ∧ Lined crypto trace (world.db .refreshTokens) := by
  induction hrun with
  | nil =>
      refine ⟨hstart.coherent, fun token htoken => ?_, fun token htoken => ?_⟩
      · rw [hempty] at htoken
        cases htoken
      · rw [hempty] at htoken
        cases htoken
  | snoc _ hstep ih =>
      obtain ⟨hcoherent, hlined⟩ := ih (distinct_of_append hdistinct)
      exact ⟨hcoherent.step hstep, hlined.step hcoherent.sound hstep hdistinct⟩

/-! ## Revoked tokens -/

/-- A stored token whose hash was issued earlier was stored then. -/
theorem same_of_run {trace after : List Event} {last : World} (hcoherent : Coherent world)
    (hrun : Runs settings crypto world after last)
    (hdistinct : (issuedHashes crypto (trace ++ after)).Nodup) {later : RefreshToken}
    (hlater : later ∈ last.db .refreshTokens)
    (hissued : later.tokenHash ∈ issuedHashes crypto trace) :
    ∃ token ∈ world.db .refreshTokens, SameToken token later := by
  induction hrun generalizing later with
  | nil => exact ⟨later, hlater, SameToken.refl later⟩
  | @snoc before middle last event hbefore hstep ih =>
      rw [← List.append_assoc] at hdistinct
      have hmiddle : Coherent middle := hbefore.keeps (fun _ _ _ h hstep => h.step hstep) hcoherent
      rcases (tokenChange_of_step hmiddle.sound hstep).same_or_issued hmiddle.sound hlater with
        ⟨between, hbetween, hsame⟩ | ⟨link, hlink, hkey⟩
      · have hold : between.tokenHash ∈ issuedHashes crypto trace := hsame.tokenHash ▸ hissued
        obtain ⟨token, htoken, hsame'⟩ := ih (distinct_of_append hdistinct) hbetween hold
        exact ⟨token, htoken, hsame'.trans hsame⟩
      · refine absurd ?_ (key_not_mem_issuedHashes hdistinct hlink)
        rw [← hkey]
        unfold issuedHashes
        rw [sessionLinks_append, List.map_append]
        exact List.mem_append_left _ hissued

/-! ## Ended lineages -/

/-- The newest token of the lineage is revoked, has expired, or is not stored any more. -/
def Ended (lineage : List Str) (db : Database) (now : Time) : Prop :=
  ∀ token ∈ db .refreshTokens, lineage.head? = some token.tokenHash →
    token.revokedAt ≠ none ∨ token.expiresAt ≤ now

/-- A refresh of a token of the lineage is answered with tokens. -/
def Event.Refreshes (crypto : Crypto) (lineage : List Str) : Event → Prop
  | .auth (.refresh presented _) _ (some _) => hashSecret crypto presented ∈ lineage
  | _ => False

/-- The request reads the clock at this time or later. -/
def Event.NotBefore (now : Time) : Event → Prop
  | .auth _ later _ => now ≤ later
  | _ => True

/-- What continues a lineage is a refresh of it. -/
theorem refreshes_iff {lineage : List Str} : event.Refreshes crypto lineage ↔
    ∃ link, event.link crypto = some link ∧ link.Continues lineage := by
  cases event with
  | auth request now tokens =>
      cases tokens with
      | none =>
          cases request <;> simp [Event.Refreshes, Event.link]
      | some issued =>
          cases request <;>
            simp [Event.Refreshes, Event.link, tokenLink, Link.Continues]
  | authenticated | served | asked | answered | ingesting | notIngested | stored | raised | failed
  | dispatched => simp [Event.Refreshes, Event.link]

/-- An ended lineage is not continued, and stays ended. -/
theorem Ended.step {trace : List Event} {lineage : List Str} {now : Time}
    (h : Ended lineage world.db now) (hlined : Lined crypto trace (world.db .refreshTokens))
    (sound : schema.Sound world.db) (hlineage : lineage ∈ sessionLineages crypto trace)
    (hstep : Step settings crypto world event world') (htime : event.NotBefore now)
    (hdistinct : (issuedHashes crypto (trace ++ [event])).Nodup) :
    ¬event.Refreshes crypto lineage ∧ lineage ∈ sessionLineages crypto (trace ++ [event]) ∧
      Ended lineage world'.db now := by
  have hchange := tokenChange_of_step sound hstep
  have hcontinues : ∀ link, event.link crypto = some link → ¬link.Continues lineage := by
    intro link hlink hcontinues
    obtain ⟨_, _, later, _, stored, rfl, hstored, hinside, hunrevoked, hunexpired, _⟩ :=
      hchange.of_continues sound hlink hcontinues
    have hhead := hlined.newest stored hstored hunrevoked lineage hlineage hinside
    have hnow : now ≤ later := htime
    rcases h stored hstored hhead with hrevoked | hexpired
    · exact hrevoked hunrevoked
    · exact Nat.not_lt.mpr (Nat.le_trans hexpired hnow) hunexpired
  refine ⟨fun hrefreshes => ?_, ?_, fun later hlater hhead => ?_⟩
  · obtain ⟨link, hlink, hlinks⟩ := refreshes_iff.mp hrefreshes
    exact hcontinues link hlink hlinks
  · unfold sessionLineages
    rw [sessionLinks_append]
    refine mem_lineages_append hlineage fun link hlink => ?_
    obtain ⟨other, hother, hlink⟩ := List.mem_filterMap.mp hlink
    cases List.mem_singleton.mp hother
    exact hcontinues link hlink
  · rcases hchange.same_or_issued sound hlater with ⟨token, htoken, hsame⟩ | ⟨link, hlink, hkey⟩
    · rw [hsame.tokenHash] at hhead
      rw [hsame.expiresAt]
      refine (h token htoken hhead).imp_left fun hrevoked => ?_
      rw [hsame.revokedAt hrevoked]
      exact hrevoked
    · have hinside : later.tokenHash ∈ lineage := List.mem_of_mem_head? hhead
      rw [hkey] at hinside
      exact absurd (mem_issuedHashes hlineage hinside) (key_not_mem_issuedHashes hdistinct hlink)

/-- An ended lineage is never continued again. -/
theorem Ended.run {trace after : List Event} {last : World} {lineage : List Str} {now : Time}
    (h : Ended lineage world.db now) (hlined : Lined crypto trace (world.db .refreshTokens))
    (hcoherent : Coherent world) (hlineage : lineage ∈ sessionLineages crypto trace)
    (hrun : Runs settings crypto world after last) (htime : ∀ event ∈ after, event.NotBefore now)
    (hdistinct : (issuedHashes crypto (trace ++ after)).Nodup) :
    (∀ event ∈ after, ¬event.Refreshes crypto lineage) ∧ Ended lineage last.db now ∧
      lineage ∈ sessionLineages crypto (trace ++ after) ∧ Coherent last ∧
      Lined crypto (trace ++ after) (last.db .refreshTokens) := by
  induction hrun with
  | nil =>
      rw [List.append_nil]
      exact ⟨fun _ hevent => absurd hevent List.not_mem_nil, h, hlineage, hcoherent, hlined⟩
  | @snoc before middle last event _ hstep ih =>
      rw [← List.append_assoc] at hdistinct ⊢
      obtain ⟨hnone, hended, hstays, hmiddle, hlined⟩ :=
        ih (fun event hevent => htime event (List.mem_append_left _ hevent))
          (distinct_of_append hdistinct)
      obtain ⟨hevent, hkept, hlast⟩ := hended.step hlined hmiddle.sound hstays hstep
        (htime event (List.mem_append_right _ List.mem_cons_self)) hdistinct
      refine ⟨fun other hother => ?_, hlast, hkept, hmiddle.step hstep,
        hlined.step hmiddle.sound hstep hdistinct⟩
      rcases List.mem_append.mp hother with hbefore | hnow
      · exact hnone other hbefore
      · cases List.mem_singleton.mp hnow
        exact hevent

/-- A logout ends the lineage whose newest token it presents. -/
theorem Lined.not_refreshed_of_logout {trace after : List Event} {last : World}
    {presented : Str} {now : Time} {lineage : List Str}
    (h : Lined crypto trace (world.db .refreshTokens)) (hcoherent : Coherent world)
    (hdistinct : (issuedHashes crypto trace).Nodup)
    (hstep : Step settings crypto world (.auth (.logout presented) now none) world')
    (hlineage : lineage ∈ sessionLineages crypto trace)
    (hhead : lineage.head? = some (hashSecret crypto presented))
    (hrun : Runs settings crypto world' after last)
    (hlater : (issuedHashes crypto (trace ++ after)).Nodup) :
    ∀ event ∈ after, ¬event.Refreshes crypto lineage := by
  -- a logout adds no link, so the lineages and the hashes are the same after it
  have hlinks : sessionLinks crypto (trace ++ [.auth (.logout presented) now none]) =
      sessionLinks crypto trace := by
    rw [sessionLinks_append]
    exact List.append_nil _
  have hsame : sessionLineages crypto (trace ++ [.auth (.logout presented) now none]) =
      sessionLineages crypto trace := congrArg lineages hlinks
  have hhashes : issuedHashes crypto (trace ++ [.auth (.logout presented) now none] ++ after) =
      issuedHashes crypto (trace ++ after) := by
    unfold issuedHashes
    rw [sessionLinks_append, hlinks, sessionLinks_append]
  have hdistinct' : (issuedHashes crypto
      (trace ++ [.auth (.logout presented) now none])).Nodup := by
    unfold issuedHashes
    rw [hlinks]
    exact hdistinct
  -- the newest token is revoked, so the lineage has ended at whatever time
  have hended : Ended lineage world'.db 0 := by
    intro token htoken hnewest
    exact .inl ((tokenChange_of_step hcoherent.sound hstep).revoked_of_logout hcoherent.sound htoken
      (Option.some.inj (hnewest.symm.trans hhead)))
  refine (hended.run (h.step hcoherent.sound hstep hdistinct') (hcoherent.step hstep)
    (hsame ▸ hlineage) hrun (fun event _ => ?_) (hhashes ▸ hlater)).1
  cases event with
  | auth => exact Nat.zero_le _
  | authenticated | served | asked | answered | ingesting | notIngested | stored | raised | failed
  | dispatched => trivial

/-! ## Sessions -/

/-- In every reachable state the stored tokens are tokens of the lineages, and a lineage
has at most one unrevoked token, which is its newest.  A revocation is for good.  A
lineage whose newest token has expired, or was presented to log out, is never refreshed
again; a request that presents no token of a lineage leaves its tokens as they are. -/
theorem session_lineages {start : World} {trace : List Event} (hstart : Initial start)
    (hempty : start.db .refreshTokens = []) (hrun : Runs settings crypto start trace world)
    (hdistinct : (issuedHashes crypto trace).Nodup) :
    (∀ token ∈ world.db .refreshTokens,
      ∃ lineage ∈ sessionLineages crypto trace, token.tokenHash ∈ lineage) ∧
    (∀ lineage ∈ sessionLineages crypto trace, ∀ token ∈ world.db .refreshTokens,
      token.tokenHash ∈ lineage → token.revokedAt = none →
        lineage.head? = some token.tokenHash ∧ ∀ other ∈ world.db .refreshTokens,
          other.tokenHash ∈ lineage → other.revokedAt = none → other = token) ∧
    (∀ after last, Runs settings crypto world after last →
      (issuedHashes crypto (trace ++ after)).Nodup →
      (∀ token ∈ world.db .refreshTokens, token.revokedAt ≠ none →
        ∀ later ∈ last.db .refreshTokens, later.tokenHash = token.tokenHash →
          later.revokedAt = token.revokedAt) ∧
      ∀ lineage ∈ sessionLineages crypto trace, ∀ now, Ended lineage world.db now →
        (∀ event ∈ after, event.NotBefore now) → ∀ event ∈ after, ¬event.Refreshes crypto lineage) ∧
    (∀ presented now world', Step settings crypto world (.auth (.logout presented) now none) world' →
      ∀ lineage ∈ sessionLineages crypto trace, lineage.head? = some (hashSecret crypto presented) →
        ∀ after last, Runs settings crypto world' after last →
          (issuedHashes crypto (trace ++ after)).Nodup →
          ∀ event ∈ after, ¬event.Refreshes crypto lineage) ∧
    ∀ request now issued world', Step settings crypto world (.auth request now issued) world' →
      (issuedHashes crypto (trace ++ [.auth request now issued])).Nodup →
      ∀ lineage ∈ sessionLineages crypto trace, ¬Presents crypto lineage request →
        ∀ token, token.tokenHash ∈ lineage →
          (token ∈ world'.db .refreshTokens ↔ token ∈ world.db .refreshTokens) := by
  obtain ⟨hcoherent, hlined⟩ := lined_of_runs hstart hempty hrun hdistinct
  have sound := hcoherent.sound
  refine ⟨hlined.traced, fun lineage hlineage token htoken hmem hunrevoked => ?_,
    fun after last hafter hlater => ⟨fun token htoken hrevoked later hmem hsame => ?_,
      fun lineage hlineage now hended htime => ?_⟩,
    fun presented now world' hstep lineage hlineage hhead after last hafter hlater => ?_,
    fun request now issued world' hstep hlater lineage hlineage hpresents token htoken => ?_⟩
  · have hnewest := hlined.newest token htoken hunrevoked lineage hlineage hmem
    refine ⟨hnewest, fun other hother hinside hnone => ?_⟩
    have hnewest' := hlined.newest other hother hnone lineage hlineage hinside
    exact eq_of_tokenHash_eq sound htoken hother (Option.some.inj (hnewest'.symm.trans hnewest))
  · obtain ⟨lineage, hlineage, hinside⟩ := hlined.traced token htoken
    obtain ⟨old, hold, hfollows⟩ := same_of_run hcoherent hafter hlater hmem
      (hsame ▸ mem_issuedHashes hlineage hinside)
    have heq : old = token :=
      eq_of_tokenHash_eq sound htoken hold (hfollows.tokenHash.symm.trans hsame)
    rw [heq] at hfollows
    exact hfollows.revokedAt hrevoked
  · exact (hended.run hlined hcoherent hlineage hafter htime hlater).1
  · exact hlined.not_refreshed_of_logout hcoherent hdistinct hstep hlineage hhead hafter hlater
  · refine (tokenChange_of_step sound hstep).mem_iff_of_not_presents sound hpresents ?_ htoken
    intro link hlink hinside
    exact key_not_mem_issuedHashes hlater hlink (mem_issuedHashes hlineage hinside)

/-- A founder signs up, refreshes the session, and signs up another organization. -/
def twoSessions : List (Time × Action) :=
  [(0, .auth (.signup ⟨"A".toList, "a@x".toList, [], none⟩ [] ⟨1, 2, []⟩ ⟨"first".toList, 3⟩)),
    (0, .auth (.refresh "first".toList ⟨"second".toList, 4⟩)),
    (0, .auth (.signup ⟨"B".toList, "b@x".toList, [], none⟩ [] ⟨5, 6, []⟩ ⟨"third".toList, 7⟩))]

theorem session_lineages_logout : ∃ trace world event world' lineage,
    performAll {} sampleCrypto emptyWorld twoSessions = some (trace, world) ∧
    perform {} sampleCrypto 0 world (.auth (.logout "second".toList)) = some (event, world') ∧
    lineage ∈ sessionLineages sampleCrypto trace ∧
    lineage.head? = some (hashSecret sampleCrypto "second".toList) ∧ lineage.length = 2 ∧
    ∀ after last, Runs {} sampleCrypto world' after last →
      (issuedHashes sampleCrypto (trace ++ after)).Nodup →
      ∀ event ∈ after, ¬event.Refreshes sampleCrypto lineage := by
  have hevaluate : ((performAll {} sampleCrypto emptyWorld twoSessions).bind fun setup =>
      (perform {} sampleCrypto 0 setup.2 (.auth (.logout "second".toList))).map fun _ =>
        (decide (issuedHashes sampleCrypto setup.1).Nodup,
          (sessionLineages sampleCrypto setup.1).any (fun lineage => lineage.length == 2 &&
            lineage.head? == some (hashSecret sampleCrypto "second".toList)))) =
      some (true, true) := by decide +kernel
  obtain ⟨⟨trace, world⟩, hsetup, hrest⟩ := Option.bind_eq_some_iff.mp hevaluate
  obtain ⟨⟨event, world'⟩, hlogout, hfacts⟩ := Option.map_eq_some_iff.mp hrest
  obtain ⟨hnodup, hany⟩ := Prod.mk.inj hfacts
  obtain ⟨lineage, hlineage, hshape⟩ := List.any_eq_true.mp hany
  obtain ⟨hlength, hhead⟩ := Bool.and_eq_true_iff.mp hshape
  have hstep := step_of_perform hlogout
  obtain ⟨issued, rfl⟩ := event_of_auth hlogout
  obtain rfl := issued_of_logout hstep
  obtain ⟨_, _, _, hlogouts, _⟩ := session_lineages initial_emptyWorld rfl
    (runs_of_performAll hsetup) (of_decide_eq_true hnodup)
  exact ⟨trace, world, _, world', lineage, hsetup, hlogout, hlineage, eq_of_beq hhead,
    eq_of_beq hlength, hlogouts _ _ world' hstep lineage hlineage (eq_of_beq hhead)⟩

end Platform
