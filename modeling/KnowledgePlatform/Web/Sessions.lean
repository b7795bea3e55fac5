import KnowledgePlatform.Web.Client

/-!
# Refreshes and sessions of the client

Two things go wrong when refreshes of the client overlap with each other, or with
the end of a session.

* A server that rotates refresh tokens accepts each of them once.  The client
  presents none twice exactly when no refresh begins while another is in flight;
  the shared promise sees to that among the calls of `apiFetch`, but nothing does
  for the streams.
* The answer of a refresh is stored whenever it arrives.  Logging out is final, and
  the tokens of a login stay, as long as no refresh is in flight at that moment.
-/

open Foundations Python

namespace Web

/-- The client after the page was loaded. -/
def Client.loaded (store : Option Tokens) : Client :=
  ⟨store, none, fun _ => .idle, fun _ => .idle⟩

theorem Client.coherent_loaded (store : Option Tokens) : (Client.loaded store).Coherent :=
  ⟨fun _ h => (nomatch h), fun _ _ h => (nomatch h), fun _ _ h => (nomatch h)⟩

theorem Client.inFlight_loaded (store : Option Tokens) (who : Requester) :
    (Client.loaded store).inFlight who = none := by
  cases who <;> rfl

/-- A refresh begins with the refresh token of the store. -/
theorem Client.getRefreshToken_eq_some {client : Client} {token : Str}
    (h : client.getRefreshToken = some token) :
    ∃ tokens, client.store = some tokens ∧ tokens.refreshToken = token := by
  obtain ⟨hfound, _⟩ := Option.filter_eq_some_iff.mp h
  exact Option.map_eq_some_iff.mp hfound

/-! ## Rotating refresh tokens -/

/-- The client, what it has sent to `/auth/refresh`, and a server that accepts a
refresh token once: the tokens it has seen, the ones it has issued, and its answers
on their way. -/
structure Browsing where
  client : Client
  sent : List Str
  used : List Str
  issued : List Str
  answers : Requester → Option RefreshAnswer

inductive BrowsingEvent
  | client (event : ClientEvent)
  | serve (who : Requester) (tokens : Tokens)
  | deliver (who : Requester)
  deriving DecidableEq

namespace Browsing

/-- One step of the client, of the server, or of the network between them. -/
def next (browsing : Browsing) : BrowsingEvent → Option Browsing
  | .client event =>
      if event.isRequest then
        (browsing.client.next event).map fun client =>
          { browsing with
            client
            sent := browsing.sent ++ ((browsing.client.starts event).map Prod.snd).toList }
      else none
  | .serve who tokens =>
      match browsing.client.inFlight who, browsing.answers who with
      | some token, none =>
          if token ∈ browsing.used then
            some { browsing with answers := Function.update browsing.answers who (some .rejected) }
          else if tokens.refreshToken ∈ browsing.issued then none
          else
            some { browsing with
                   used := token :: browsing.used
                   issued := tokens.refreshToken :: browsing.issued
                   answers := Function.update browsing.answers who (some (.ok tokens)) }
      | _, _ => none
  | .deliver who =>
      match browsing.answers who with
      | some answer =>
          (browsing.client.next (.refreshed who answer)).map fun client =>
            { browsing with client, answers := Function.update browsing.answers who none }
      | none => none

abbrev Runs : Browsing → List BrowsingEvent → Browsing → Prop :=
  Run fun browsing event browsing' => browsing.next event = some browsing'

/-- A client that has just been loaded holds tokens the server will accept. -/
structure Holding (tokens : Tokens) (browsing : Browsing) : Prop where
  loaded : browsing.client = .loaded (some tokens)
  nothing : browsing.sent = []
  valid : tokens.refreshToken ∈ browsing.issued ∧ tokens.refreshToken ∉ browsing.used
  rotated : ∀ token ∈ browsing.used, token ∈ browsing.issued
  unanswered : ∀ who, browsing.answers who = none

/-- Every refresh began when none was in flight. -/
def NonOverlapping (start : Browsing) (trace : List BrowsingEvent) : Prop :=
  ∀ before event browsing, before ++ [.client event] <+: trace → Runs start before browsing →
    (browsing.client.starts event).isSome = true →
      ∀ other, browsing.client.inFlight other = none

/-- What holds as long as refreshes do not overlap: the one in flight presents the
token of the store, for the first time. -/
structure Single (browsing : Browsing) : Prop where
  coherent : browsing.client.Coherent
  rotated : ∀ token ∈ browsing.used, token ∈ browsing.issued
  sent : ∀ token ∈ browsing.sent, token ∈ browsing.issued
  nodup : browsing.sent.Nodup
  held : ∃ tokens, browsing.client.store = some tokens ∧ tokens.refreshToken ∈ browsing.issued ∧
    ((∀ who, browsing.client.inFlight who = none) →
      tokens.refreshToken ∉ browsing.sent ∧ tokens.refreshToken ∉ browsing.used) ∧
    ∀ who token, browsing.client.inFlight who = some token → token = tokens.refreshToken
  alone : ∀ who other, browsing.client.inFlight who ≠ none →
    browsing.client.inFlight other ≠ none → who = other
  presented : ∀ who token, browsing.client.inFlight who = some token →
    token ∈ browsing.sent ∧ (browsing.answers who = none → token ∉ browsing.used)
  answered : ∀ who answer, browsing.answers who = some answer →
    browsing.client.inFlight who ≠ none ∧ ∃ tokens, answer = .ok tokens ∧
      tokens.refreshToken ∈ browsing.issued ∧ tokens.refreshToken ∉ browsing.sent ∧
      tokens.refreshToken ∉ browsing.used

section Spec

variable {start browsing browsing' : Browsing} {tokens : Tokens} {trace : List BrowsingEvent}

theorem Holding.single (h : Holding tokens start) : start.Single := by
  have hquiet : ∀ who, start.client.inFlight who = none := by
    rw [h.loaded]
    exact Client.inFlight_loaded _
  refine ⟨?_, h.rotated, ?_, ?_, ⟨tokens, ?_, h.valid.1, fun _ => ⟨?_, h.valid.2⟩, ?_⟩, ?_, ?_, ?_⟩
  · rw [h.loaded]
    exact Client.coherent_loaded _
  · rw [h.nothing]
    exact fun _ hmem => absurd hmem List.not_mem_nil
  · rw [h.nothing]
    exact .nil
  · rw [h.loaded]
    rfl
  · rw [h.nothing]
    exact List.not_mem_nil
  · exact fun who _ hfound => absurd hfound (by simp [hquiet who])
  · exact fun who _ hfound => absurd (hquiet who) hfound
  · exact fun who _ hfound => absurd hfound (by simp [hquiet who])
  · exact fun who _ hfound => absurd hfound (by simp [h.unanswered who])

/-- A step of a call or a stream. -/
theorem Single.request (h : browsing.Single) {event : ClientEvent}
    (halone : (browsing.client.starts event).isSome = true →
      ∀ other, browsing.client.inFlight other = none)
    (hnext : browsing.next (.client event) = some browsing') : browsing'.Single := by
  simp only [next] at hnext
  split at hnext
  · next hrequest =>
    obtain ⟨client, hclient, rfl⟩ := Option.map_eq_some_iff.mp hnext
    have hcoherent := h.coherent.next hclient
    obtain ⟨tokens, hheld, hissued, hunused, hsame⟩ := h.held
    cases Client.effect_of_next h.coherent hclient with
    | quiet _ hstarts hstore hinFlight =>
        rw [hstarts, Option.map_none, Option.toList_none, List.append_nil]
        refine ⟨hcoherent, h.rotated, h.sent, h.nodup, ⟨tokens, hstore.trans hheld, hissued, ?_⟩,
          ?_, ?_, ?_⟩ <;> rw [hinFlight]
        · exact ⟨hunused, hsame⟩
        · exact h.alone
        · exact h.presented
        · exact h.answered
    | @start _ _ who token hstarts htoken hidle hstore hinFlight =>
        have hquiet := halone (by rw [hstarts]; rfl)
        obtain ⟨hunsent, hfresh⟩ := hunused hquiet
        obtain ⟨_, hfound, rfl⟩ := Client.getRefreshToken_eq_some htoken
        cases hheld.symm.trans hfound
        -- nobody was refreshing, so this is the only refresh from now on
        have honly : ∀ other, client.inFlight other ≠ none → other = who := by
          intro other hother
          by_contra hne
          rw [hinFlight, Function.update_of_ne hne] at hother
          exact hother (hquiet other)
        have hself : client.inFlight who = some tokens.refreshToken := by
          rw [hinFlight, Function.update_self]
        rw [hstarts, Option.map_some, Option.toList_some]
        refine ⟨hcoherent, h.rotated, ?_, ?_, ⟨tokens, hstore.trans hheld, hissued, ?_, ?_⟩,
          ?_, ?_, ?_⟩
        · intro found hfound
          rcases List.mem_append.mp hfound with hold | hnew
          · exact h.sent found hold
          · rw [List.mem_singleton.mp hnew]
            exact hissued
        · exact List.concat_eq_append ▸ h.nodup.concat hunsent
        · exact fun hnone => absurd (hnone who) (by simp [hself])
        · intro other found hother
          obtain rfl := honly other (by simp [hother])
          exact Option.some.inj (hother.symm.trans hself)
        · exact fun first second hfirst hsecond => (honly first hfirst).trans (honly second hsecond).symm
        · intro other found hother
          obtain rfl := honly other (by simp [hother])
          cases hother.symm.trans hself
          exact ⟨List.mem_append_right _ (List.mem_singleton_self _), fun _ => hfresh⟩
        · exact fun other answer hanswer => absurd (hquiet other) (h.answered other answer hanswer).1
    | refreshed => cases hrequest
    | login => cases hrequest
    | logout => cases hrequest
    | loadFailed => cases hrequest
  · cases hnext

/-- The server answers a refresh. -/
theorem Single.serve (h : browsing.Single) {who : Requester} {tokens : Tokens}
    (hnext : browsing.next (.serve who tokens) = some browsing') : browsing'.Single := by
  simp only [next] at hnext
  split at hnext
  · next token hflight hunanswered =>
    obtain ⟨hsent, hunused⟩ := h.presented who token hflight
    -- the token was presented once, so the server has not rotated it
    rw [if_neg (hunused hunanswered)] at hnext
    split at hnext
    · cases hnext
    · next hnew =>
      cases hnext
      have honly : ∀ other, browsing.client.inFlight other ≠ none → other = who :=
        fun other hother => h.alone other who hother (by simp [hflight])
      obtain ⟨held, hheld, hissued, _, hsame⟩ := h.held
      refine ⟨h.coherent, ?_, fun found hfound => List.mem_cons_of_mem _ (h.sent found hfound),
        h.nodup, ⟨held, hheld, List.mem_cons_of_mem _ hissued, ?_, hsame⟩, h.alone, ?_, ?_⟩
      · intro found hfound
        rcases List.mem_cons.mp hfound with rfl | hold
        · exact List.mem_cons_of_mem _ (h.sent found hsent)
        · exact List.mem_cons_of_mem _ (h.rotated found hold)
      · exact fun hnone => absurd (hnone who) (by simp [hflight])
      · intro other found hother
        obtain rfl := honly other (by simp [hother])
        have hanswered : Function.update browsing.answers other (some (.ok tokens)) other ≠ none := by
          simp
        exact ⟨(h.presented other found hother).1, fun hnone => absurd hnone hanswered⟩
      · intro other answer hanswer
        replace hanswer : Function.update browsing.answers who (some (.ok tokens)) other =
          some answer := hanswer
        rcases eq_or_ne other who with rfl | hne
        · rw [Function.update_self] at hanswer
          cases hanswer
          refine ⟨by simp [hflight], tokens, rfl, List.mem_cons_self,
            fun hmem => hnew (h.sent _ hmem), fun hmem => ?_⟩
          rcases List.mem_cons.mp hmem with heq | hold
          · exact hnew (heq ▸ h.sent token hsent)
          · exact hnew (h.rotated _ hold)
        · rw [Function.update_of_ne hne] at hanswer
          exact absurd (honly other (h.answered other answer hanswer).1) hne
  · cases hnext

/-- An answer arrives at the client. -/
theorem Single.deliver (h : browsing.Single) {who : Requester}
    (hnext : browsing.next (.deliver who) = some browsing') : browsing'.Single := by
  simp only [next] at hnext
  split at hnext
  · next answer hanswer =>
    obtain ⟨client, hclient, rfl⟩ := Option.map_eq_some_iff.mp hnext
    obtain ⟨hflight, tokens, rfl, hissued, hunsent, hunused⟩ := h.answered who answer hanswer
    have honly : ∀ other, browsing.client.inFlight other ≠ none → other = who :=
      fun other hother => h.alone other who hother hflight
    cases Client.effect_of_next h.coherent hclient with
    | quiet hrequest => cases hrequest
    | start hstarts => cases hstarts
    | refreshed _ hstore hinFlight =>
        have hquiet : ∀ other, client.inFlight other = none := by
          intro other
          rw [hinFlight]
          rcases eq_or_ne other who with rfl | hne
          · exact Function.update_self ..
          · rw [Function.update_of_ne hne]
            by_contra hother
            exact hne (honly other hother)
        refine ⟨h.coherent.next hclient, h.rotated, h.sent, h.nodup,
          ⟨tokens, hstore, hissued, fun _ => ⟨hunsent, hunused⟩, ?_⟩, ?_, ?_, ?_⟩
        · exact fun other _ hother => absurd hother (by simp [hquiet other])
        · exact fun other _ hother => absurd (hquiet other) hother
        · exact fun other _ hother => absurd hother (by simp [hquiet other])
        · intro other found hother
          replace hother : Function.update browsing.answers who none other = some found := hother
          rcases eq_or_ne other who with rfl | hne
          · rw [Function.update_self] at hother
            cases hother
          · rw [Function.update_of_ne hne] at hother
            exact absurd (honly other (h.answered other found hother).1) hne
  · cases hnext

theorem Single.next (h : browsing.Single) {event : BrowsingEvent}
    (halone : ∀ request, event = .client request →
      (browsing.client.starts request).isSome = true →
        ∀ other, browsing.client.inFlight other = none)
    (hnext : browsing.next event = some browsing') : browsing'.Single := by
  cases event with
  | client request => exact h.request (halone request rfl) hnext
  | serve who tokens => exact h.serve hnext
  | deliver who => exact h.deliver hnext

theorem NonOverlapping.earlier {events : List BrowsingEvent}
    (h : NonOverlapping start (trace ++ events)) : NonOverlapping start trace :=
  fun before event browsing hearlier =>
    h before event browsing (hearlier.trans (List.prefix_append _ _))

theorem single_of_runs (hstart : Holding tokens start) (hrun : Runs start trace browsing)
    (halone : NonOverlapping start trace) : browsing.Single := by
  refine hrun.invariant (P := fun trace browsing => NonOverlapping start trace → browsing.Single)
    (fun _ => hstart.single) ?_ halone
  intro trace middle event last hmiddle ih hnext hwhole
  refine (ih hwhole.earlier).next ?_ hnext
  rintro request rfl
  exact hwhole trace request middle (List.prefix_refl _) hmiddle

/-- A refresh that begins while another is in flight presents the same token. -/
theorem Single.presents_again (h : browsing.Single) {event : ClientEvent} {other : Requester}
    (hother : browsing.client.inFlight other ≠ none)
    (hstarts : (browsing.client.starts event).isSome = true)
    (hnext : browsing.next (.client event) = some browsing') : ¬browsing'.sent.Nodup := by
  obtain ⟨⟨who, token⟩, hstarts⟩ := Option.isSome_iff_exists.mp hstarts
  obtain ⟨shown, hshown⟩ := Option.ne_none_iff_exists'.mp hother
  obtain ⟨tokens, hheld, _, _, hsame⟩ := h.held
  simp only [Browsing.next] at hnext
  split at hnext
  · next hrequest =>
    obtain ⟨client, hclient, rfl⟩ := Option.map_eq_some_iff.mp hnext
    cases Client.effect_of_next h.coherent hclient with
    | quiet _ hnone => cases hnone.symm.trans hstarts
    | start hsame' htoken =>
        cases hsame'.symm.trans hstarts
        obtain ⟨_, hstore, rfl⟩ := Client.getRefreshToken_eq_some htoken
        cases hheld.symm.trans hstore
        obtain rfl := hsame other shown hshown
        rw [hstarts]
        exact fun hnodup => (List.nodup_append.mp hnodup).2.2 _ (h.presented other _ hshown).1 _
          (List.mem_singleton_self _) rfl
    | refreshed => cases hrequest
    | login => cases hrequest
    | logout => cases hrequest
    | loadFailed => cases hrequest
  · cases hnext

/-- What has been sent stays sent. -/
theorem sent_of_next {event : BrowsingEvent} (hnext : browsing.next event = some browsing') :
    browsing.sent <+: browsing'.sent := by
  cases event with
  | client request =>
      simp only [Browsing.next] at hnext
      split at hnext
      · obtain ⟨client, _, rfl⟩ := Option.map_eq_some_iff.mp hnext
        exact List.prefix_append _ _
      · cases hnext
  | serve who tokens =>
      simp only [Browsing.next] at hnext
      split at hnext
      · split at hnext
        · cases hnext
          exact List.prefix_refl _
        · split at hnext
          · cases hnext
          · cases hnext
            exact List.prefix_refl _
      · cases hnext
  | deliver who =>
      simp only [Browsing.next] at hnext
      split at hnext
      · obtain ⟨client, _, rfl⟩ := Option.map_eq_some_iff.mp hnext
        exact List.prefix_refl _
      · cases hnext

/-- No refresh token is presented twice, and none of the client's own requests logs
it out, in exactly the runs in which refreshes do not overlap. -/
theorem presentedOnce_iff (hstart : Holding tokens start) (hrun : Runs start trace browsing) :
    (browsing.sent.Nodup ∧ browsing.client.store ≠ none) ↔ NonOverlapping start trace := by
  constructor
  · rintro ⟨hnodup, _⟩
    refine hrun.invariant (P := fun trace browsing =>
      browsing.sent.Nodup → NonOverlapping start trace) ?_ ?_ hnodup
    · intro _ before event _ hearlier
      simp at hearlier
    · intro trace middle event last hmiddle ih hnext hlast before request browsing hearlier hrun
        hstarts other
      have halone := ih (hlast.sublist (sent_of_next hnext).sublist)
      rcases List.prefix_concat_iff.mp hearlier with hwhole | hbefore
      · obtain ⟨rfl, hevent⟩ := List.append_inj' hwhole rfl
        cases hevent
        cases hmiddle.unique hrun
        by_contra hother
        exact (single_of_runs hstart hmiddle halone).presents_again hother hstarts hnext hlast
      · exact halone before request browsing hbefore hrun hstarts other
  · intro halone
    have hsingle := single_of_runs hstart hrun halone
    obtain ⟨tokens, hheld, _⟩ := hsingle.held
    exact ⟨hsingle.nodup, by simp [hheld]⟩

end Spec

/-- A client that holds the token `r1`. -/
def holding : Browsing :=
  ⟨.loaded (some ⟨"a1".toList, "r1".toList⟩), [], [], ["r1".toList], fun _ => none⟩

/-- A call is answered with 401, the tokens are refreshed and it is sent again. -/
def refreshedCall : List BrowsingEvent :=
  [.client (.call 0), .client (.answered 0 true),
    .serve .shared ⟨"a2".toList, "r2".toList⟩, .deliver .shared, .client (.resume 0),
    .client (.answered 0 false)]

/-- A call and a stream are answered with 401 before either has refreshed. -/
def overlappingRefreshes : List BrowsingEvent :=
  [.client (.call 0), .client (.stream 0), .client (.answered 0 true),
    .client (.streamAnswered 0 true), .serve (.stream 0) ⟨"a2".toList, "r2".toList⟩,
    .deliver (.stream 0), .serve .shared ⟨[], []⟩, .deliver .shared]

theorem holding_start : Holding ⟨"a1".toList, "r1".toList⟩ holding :=
  ⟨rfl, rfl, by simp [holding], fun _ h => (nomatch h), fun _ => rfl⟩

theorem presentedOnce_iff_refreshedCall : ∃ last, Runs holding refreshedCall last ∧
    ((last.sent.Nodup ∧ last.client.store ≠ none) ↔ NonOverlapping holding refreshedCall) := by
  have hreplay : (replay next holding refreshedCall).isSome = true := by decide +kernel
  obtain ⟨last, hlast⟩ := Option.isSome_iff_exists.mp hreplay
  have hrun := run_of_replay _ _ _ _ hlast
  exact ⟨last, hrun, presentedOnce_iff holding_start hrun⟩

/-- The token is presented twice, and the client that holds the new one logs itself
out. -/
theorem overlappingRefreshes_logOut : ∃ last, Runs holding overlappingRefreshes last ∧
    last.sent = ["r1".toList, "r1".toList] ∧ last.client.store = none := by
  have hreplay : (replay next holding overlappingRefreshes).map (fun last =>
      (last.sent, last.client.store)) = some (["r1".toList, "r1".toList], none) := by
    decide +kernel
  obtain ⟨last, hlast, hsent⟩ := Option.map_eq_some_iff.mp hreplay
  obtain ⟨hsent, hstore⟩ := Prod.mk.inj hsent
  exact ⟨last, run_of_replay _ _ _ _ hlast, hsent, hstore⟩

end Browsing

/-! ## Logging out -/

/-- The event ends the session of the client, or begins one. -/
def ClientEvent.isSession : ClientEvent → Bool
  | .login _ | .logout => true
  | .call _ | .answered .. | .resume _ | .stream _ | .streamAnswered .. | .refreshed ..
  | .loadFailed => false

/-- The client with a count of its sessions.  `ended` tells that the last one was
ended by a logout, and `began` in which session a refresh was begun. -/
structure Watched where
  client : Client
  session : ℕ
  ended : Bool
  began : Requester → ℕ

namespace Watched

/-- Whether a logout is the last event of a session, login or logout. -/
def endedAfter (ended : Bool) : ClientEvent → Bool
  | .login _ => false
  | .logout => true
  | .call _ | .answered .. | .resume _ | .stream _ | .streamAnswered .. | .refreshed ..
  | .loadFailed => ended

/-- The sessions of the refreshes after a step that may begin one. -/
def beganAfter (watched : Watched) : Option (Requester × Str) → Requester → ℕ
  | some (who, _) => Function.update watched.began who watched.session
  | none => watched.began

/-- One step of the client, whose answers from `/auth/refresh` may be any. -/
def next (watched : Watched) (event : ClientEvent) : Option Watched :=
  (watched.client.next event).map fun client =>
    { client
      session := if event.isSession then watched.session + 1 else watched.session
      ended := endedAfter watched.ended event
      began := watched.beganAfter (watched.client.starts event) }

abbrev Runs : Watched → List ClientEvent → Watched → Prop :=
  Run fun watched event watched' => watched.next event = some watched'

def start (store : Option Tokens) : Watched := ⟨.loaded store, 0, false, fun _ => 0⟩

/-- Sessions ended and began when no refresh was in flight. -/
def Undisturbed (store : Option Tokens) (trace : List ClientEvent) : Prop :=
  ∀ before event watched, before ++ [event] <+: trace → Runs (start store) before watched →
    event.isSession = true → ∀ who, watched.client.inFlight who = none

/-- The refreshes in flight were begun in the session, and there is none after a
logout. -/
structure Current (watched : Watched) : Prop where
  coherent : watched.client.Coherent
  began : ∀ who, watched.client.inFlight who ≠ none → watched.began who = watched.session
  ended : watched.ended = true →
    watched.client.store = none ∧ ∀ who, watched.client.inFlight who = none

section Spec

variable {store : Option Tokens} {watched watched' : Watched} {trace : List ClientEvent}
  {event : ClientEvent}

theorem current_start (store : Option Tokens) : (start store).Current := by
  refine ⟨Client.coherent_loaded store, fun who hflight => ?_, fun hended => nomatch hended⟩
  exact absurd (Client.inFlight_loaded store who) hflight

theorem isSession_of_isRequest (h : event.isRequest = true) : event.isSession = false := by
  cases event <;> trivial

theorem endedAfter_of_isRequest (h : event.isRequest = true) (ended : Bool) :
    endedAfter ended event = ended := by
  cases event <;> trivial

theorem isRequest_of_starts {client : Client} {who : Requester} {token : Str}
    (h : client.starts event = some (who, token)) : event.isRequest = true := by
  cases event <;> trivial

theorem Current.next (h : watched.Current)
    (hquiet : event.isSession = true → ∀ who, watched.client.inFlight who = none)
    (hnext : watched.next event = some watched') : watched'.Current := by
  obtain ⟨client, hclient, rfl⟩ := Option.map_eq_some_iff.mp hnext
  have hcoherent := h.coherent.next hclient
  cases Client.effect_of_next h.coherent hclient with
  | quiet hrequest hstarts hstore hinFlight =>
      refine ⟨hcoherent, fun who hflight => ?_, fun hlast => ?_⟩
      · rw [isSession_of_isRequest hrequest, hstarts]
        exact h.began who (hinFlight ▸ hflight)
      · rw [hstore, hinFlight]
        exact h.ended ((endedAfter_of_isRequest hrequest _).symm.trans hlast)
  | @start _ _ who token hstarts htoken hidle hstore hinFlight =>
      have hrequest := isRequest_of_starts hstarts
      obtain ⟨tokens, hheld, _⟩ := Client.getRefreshToken_eq_some htoken
      refine ⟨hcoherent, fun other hflight => ?_, fun hlast => ?_⟩
      · rw [isSession_of_isRequest hrequest, hstarts]
        show Function.update watched.began who watched.session other = watched.session
        rcases eq_or_ne other who with rfl | hne
        · exact Function.update_self ..
        · rw [Function.update_of_ne hne]
          rw [hinFlight, Function.update_of_ne hne] at hflight
          exact h.began other hflight
      · -- after a logout there is no token to refresh with
        cases hheld.symm.trans (h.ended ((endedAfter_of_isRequest hrequest _).symm.trans hlast)).1
  | @refreshed _ who token answer hflight hstore hinFlight =>
      refine ⟨hcoherent, fun other hother => ?_, fun hlast => ?_⟩
      · rw [hinFlight] at hother
        rcases eq_or_ne other who with rfl | hne
        · exact absurd (Function.update_self ..) hother
        · rw [Function.update_of_ne hne] at hother
          exact h.began other hother
      · exact absurd ((h.ended hlast).2 who) (by simp [hflight])
  | login hstore hinFlight =>
      refine ⟨hcoherent, fun who hflight => ?_, fun hlast => nomatch hlast⟩
      exact absurd (hquiet rfl who) (hinFlight ▸ hflight)
  | logout hstore hinFlight =>
      refine ⟨hcoherent, fun who hflight => ?_, fun _ => ⟨hstore, ?_⟩⟩
      · exact absurd (hquiet rfl who) (hinFlight ▸ hflight)
      · exact fun who => hinFlight ▸ hquiet rfl who
  | loadFailed hstore hinFlight =>
      refine ⟨hcoherent, fun who hflight => ?_, fun hlast => ⟨hstore, ?_⟩⟩
      · exact h.began who (hinFlight ▸ hflight)
      · exact fun who => hinFlight ▸ (h.ended hlast).2 who

theorem Undisturbed.earlier {events : List ClientEvent}
    (h : Undisturbed store (trace ++ events)) : Undisturbed store trace :=
  fun before event watched hearlier =>
    h before event watched (hearlier.trans (List.prefix_append _ _))

theorem current_of_runs (hrun : Runs (start store) trace watched)
    (hquiet : Undisturbed store trace) : watched.Current := by
  refine hrun.invariant (P := fun trace watched => Undisturbed store trace → watched.Current)
    (fun _ => current_start store) ?_ hquiet
  intro trace middle event last hmiddle ih hnext hwhole
  exact (ih hwhole.earlier).next
    (fun hsession => hwhole trace event middle (List.prefix_refl _) hmiddle hsession) hnext

/-- No refresh was begun in a session to come. -/
theorem began_le_session (hrun : Runs (start store) trace watched) (who : Requester) :
    watched.began who ≤ watched.session := by
  refine hrun.keeps (P := fun watched => ∀ who, watched.began who ≤ watched.session) ?_
    (fun _ => le_rfl) who
  intro middle event last h hnext who
  obtain ⟨client, _, rfl⟩ := Option.map_eq_some_iff.mp hnext
  have hsession : middle.session ≤ if event.isSession then middle.session + 1 else middle.session := by
    split <;> omega
  refine le_trans ?_ hsession
  show middle.beganAfter (middle.client.starts event) who ≤ middle.session
  cases middle.client.starts event with
  | none => exact h who
  | some begun =>
      show Function.update middle.began begun.1 middle.session who ≤ middle.session
      rcases eq_or_ne who begun.1 with rfl | hne
      · rw [Function.update_self]
      · rw [Function.update_of_ne hne]
        exact h who

/-- The answer of a refresh in flight is applied whenever it arrives. -/
theorem next_refreshed {client : Client} {who : Requester} (hflight : client.inFlight who ≠ none)
    (answer : RefreshAnswer) : ∃ client', client.next (.refreshed who answer) = some client' ∧
      client'.store = answer.apply client.store who := by
  cases who with
  | shared =>
      cases hpromise : client.refreshPromise with
      | none => exact absurd (by simp [Client.inFlight, hpromise]) hflight
      | some promise =>
          cases promise with
          | fetching token =>
              simp only [Client.next, hpromise]
              exact ⟨_, rfl, rfl⟩
          | settled => exact absurd (by simp [Client.inFlight, hpromise, SharedRefresh.token]) hflight
  | stream id =>
      cases hphase : client.streams id with
      | refreshing token =>
          simp only [Client.next, hphase]
          exact ⟨_, rfl, rfl⟩
      | _ => exact absurd (by simp [Client.inFlight, hphase, StreamPhase.token]) hflight

/-- A logout is final, and the tokens of a login stay, if no refresh is in flight
then; if one is, its answer brings tokens back after the logout, and replaces the
tokens of the login. -/
theorem logout_final (hrun : Runs (start store) trace watched) :
    (Undisturbed store trace →
      (watched.ended = true → watched.client.store = none) ∧
      ∀ who answer watched', watched.next (.refreshed who answer) = some watched' →
        watched.began who ≠ watched.session → watched'.client.store = watched.client.store) ∧
    ∀ who tokens, watched.client.inFlight who ≠ none →
      (∃ left last, watched.next .logout = some left ∧
        left.next (.refreshed who (.ok tokens)) = some last ∧
        last.ended = true ∧ last.client.store = some tokens) ∧
      ∀ later, ∃ entered last, watched.next (.login later) = some entered ∧
        entered.next (.refreshed who (.ok tokens)) = some last ∧
        entered.began who ≠ entered.session ∧ entered.client.store = some later ∧
        last.client.store = some tokens := by
  refine ⟨fun hquiet => ?_, fun who tokens hflight => ⟨?_, fun later => ?_⟩⟩
  · have h := current_of_runs hrun hquiet
    refine ⟨fun hended => (h.ended hended).1, fun who answer watched' hnext hstale => ?_⟩
    obtain ⟨client, hclient, rfl⟩ := Option.map_eq_some_iff.mp hnext
    cases Client.effect_of_next h.coherent hclient with
    | quiet hrequest => cases hrequest
    | start hstarts => cases hstarts
    | refreshed hflight => exact absurd (h.began who (by simp [hflight])) hstale
  · have hleft : Client.inFlight { watched.client with store := none } who ≠ none := by
      cases who <;> exact hflight
    obtain ⟨client, hclient, hstore⟩ := next_refreshed hleft (.ok tokens)
    have happlied : client.store = some tokens := hstore.trans (by cases who <;> rfl)
    exact ⟨_, _, rfl, Option.map_eq_some_iff.mpr ⟨client, hclient, rfl⟩, rfl, happlied⟩
  · have hentered : Client.inFlight { watched.client with store := some later } who ≠ none := by
      cases who <;> exact hflight
    obtain ⟨client, hclient, hstore⟩ := next_refreshed hentered (.ok tokens)
    have happlied : client.store = some tokens := hstore.trans (by cases who <;> rfl)
    -- the login opens a session of its own
    have hearlier : watched.began who ≠ watched.session + 1 :=
      (Nat.lt_succ_of_le (began_le_session hrun who)).ne
    exact ⟨_, _, rfl, Option.map_eq_some_iff.mpr ⟨client, hclient, rfl⟩, hearlier, rfl, happlied⟩

end Spec

/-- A refresh is in flight when the user logs out. -/
def lateRefresh : List ClientEvent :=
  [.call 0, .answered 0 true, .logout, .refreshed .shared (.ok ⟨"a2".toList, "r2".toList⟩)]

theorem logout_final_lateRefresh : ∃ last,
    Runs (start (some ⟨"a1".toList, "r1".toList⟩)) (lateRefresh.take 2) last ∧
    ∃ left last', last.next .logout = some left ∧
      left.next (.refreshed .shared (.ok ⟨"a2".toList, "r2".toList⟩)) = some last' ∧
      last'.ended = true ∧ last'.client.store = some ⟨"a2".toList, "r2".toList⟩ := by
  have hreplay : (replay next (start (some ⟨"a1".toList, "r1".toList⟩)) (lateRefresh.take 2)).map
      (fun last => last.client.inFlight .shared) = some (some "r1".toList) := by
    decide +kernel
  obtain ⟨last, hlast, hflight⟩ := Option.map_eq_some_iff.mp hreplay
  have hrun := run_of_replay _ _ _ _ hlast
  exact ⟨last, hrun, ((logout_final hrun).2 .shared _ (by simp [hflight])).1⟩

/-- The client is logged in again by the answer that arrives after the logout. -/
theorem lateRefresh_returns : ∃ last,
    Runs (start (some ⟨"a1".toList, "r1".toList⟩)) lateRefresh last ∧
    last.ended = true ∧ last.client.store = some ⟨"a2".toList, "r2".toList⟩ := by
  have hreplay : (replay next (start (some ⟨"a1".toList, "r1".toList⟩)) lateRefresh).map
      (fun last => (last.ended, last.client.store)) =
        some (true, some ⟨"a2".toList, "r2".toList⟩) := by
    decide +kernel
  obtain ⟨last, hlast, hstate⟩ := Option.map_eq_some_iff.mp hreplay
  obtain ⟨hended, hstore⟩ := Prod.mk.inj hstate
  exact ⟨last, run_of_replay _ _ _ _ hlast, hended, hstore⟩

end Watched

end Web
