import KnowledgePlatform.Web.Sends

/-!
# From a send to a stream of the client

`Client` knows a call of `streamChatMessage` by its phase, and by what it does to the
tokens of the store; the results about sessions rest on that.  `Sending` goes into all
the code does between these phases.

Both describe the same function: every step of a send is a step of a stream of the
client, or none (`Matches.next`), and every run of a send a run of the client
(`exists_run_of_sends`).

What a send has more of than a stream is lost on the way: its page, the body it reads,
and the response it keeps while the tokens are refreshed.
-/

open Api Core Foundations Python

namespace Web

/-- The phases of a stream that stand for a phase of a send. -/
def SendPhase.Shown : SendPhase → StreamPhase → Prop
  | .creating, stream => stream = .idle
  | .opening .requested, stream => stream = .sent
  | .opening (.refreshing _), stream | .opening .readingTokens, stream =>
      ∃ refreshToken, stream = .refreshing refreshToken
  | .opening .requestedAgain, stream => stream = .resent
  | .opening (.readingDetail _), stream | .streaming _, stream => stream = .over
  | .settled, stream => stream = .over ∨ stream = .idle

/-- The stream of the client is this send. -/
structure Sending.Matches (id : ℕ) (sending : Sending) (client : Client) : Prop where
  store : client.store = sending.store
  phase : sending.phase.Shown (client.streams id)

/-- The runs of the client. -/
abbrev Client.Runs : Client → List ClientEvent → Client → Prop :=
  Run fun client event client' => client.next event = some client'

section Spec

variable {json : JsonText} {str : Option Json → Str} {sending sending' : Sending}
  {client client' : Client} {id : ℕ} {event : SendEvent}

/-! ## Steps of the stream -/

namespace Client

@[simp] theorem setStream_self (phase : StreamPhase) :
    (client.setStream id phase).streams id = phase := Function.update_self ..

theorem next_stream (h : client.streams id = .idle) :
    client.next (.stream id) = some (client.setStream id .sent) := by
  simp only [next, h]

/-- A first answer of 401 begins a refresh, if there is a token to present. -/
theorem next_unauthorized {refreshToken : Str} (h : client.streams id = .sent)
    (htoken : client.getRefreshToken = some refreshToken) :
    client.next (.streamAnswered id true) =
      some (client.setStream id (.refreshing refreshToken)) := by
  simp only [next, h, htoken]

theorem next_unrefreshed (h : client.streams id = .sent)
    (hnone : client.getRefreshToken = none) (unauthorized : Bool) :
    client.next (.streamAnswered id unauthorized) = some (client.setStream id .over) := by
  cases unauthorized <;> simp only [next, h, hnone]

theorem next_answered (h : client.streams id = .sent ∨ client.streams id = .resent) :
    client.next (.streamAnswered id false) = some (client.setStream id .over) := by
  rcases h with h | h
  · simp only [next, h]
  · simp only [next, h]

theorem next_refreshed_stream {refreshToken : Str}
    (h : client.streams id = .refreshing refreshToken) (answer : RefreshAnswer) :
    client.next (.refreshed (.stream id) answer) =
      some { client.setStream id (if answer.isOk then .resent else .over) with
             store := answer.apply client.store (.stream id) } := by
  simp only [next, h]

end Client

namespace Sending

/-- Some run of the client matches the next state of the send. -/
def MatchedBy (id : ℕ) (client : Client) (sending : Sending) : Prop :=
  ∃ events client', Client.Runs client events client' ∧ sending.Matches id client'

/-- Nothing happens to the stream. -/
theorem Matches.matchedBy (h : sending.Matches id client) : sending.MatchedBy id client :=
  ⟨[], client, .nil, h⟩

/-- The stream takes one step. -/
theorem matchedBy_of_next {event : ClientEvent} (hnext : client.next event = some client')
    (hstore : client'.store = sending.store) (hphase : sending.phase.Shown (client'.streams id)) :
    sending.MatchedBy id client :=
  ⟨[event], client', .single hnext, hstore, hphase⟩

/-- The stream may end, and the send examine a response or fail. -/
structure MayEnd (id : ℕ) (client : Client) (sending : Sending) : Prop where
  examine : ∀ res, (sending.examine res).MatchedBy id client
  fail : ∀ err, (sending.fail err).MatchedBy id client

theorem mayEnd_of_next {event : ClientEvent} (hnext : client.next event = some client')
    (hstore : client'.store = sending.store) (hover : client'.streams id = .over) :
    sending.MayEnd id client := by
  refine ⟨fun res => ?_, fun err => matchedBy_of_next hnext hstore (.inl hover)⟩
  unfold examine
  split
  · exact matchedBy_of_next hnext hstore hover
  · exact matchedBy_of_next hnext hstore hover

theorem store_foldl_handle (calls : List HandlerCall) :
    (calls.foldl (handle str) sending).store = sending.store := by
  induction calls generalizing sending with
  | nil => rfl
  | cons call calls ih =>
      rw [List.foldl_cons, ih]
      cases call <;> rfl

namespace Matches

theorem getRefreshToken (h : sending.Matches id client) :
    client.getRefreshToken = (sending.store.map Tokens.refreshToken).filter (· ≠ []) := by
  rw [Client.getRefreshToken, h.store]

/-! ## A send is a stream -/

/-- The stream ends with an answer. -/
theorem ends (h : sending.Matches id client)
    (hphase : client.streams id = .sent ∨ client.streams id = .resent) :
    sending.MayEnd id client :=
  mayEnd_of_next (Client.next_answered hphase) h.store (Client.setStream_self _)

/-- The stream ends with a refresh that brings no tokens. -/
theorem notRefreshed {refreshToken : Str} (h : sending.Matches id client)
    (hrefreshing : client.streams id = .refreshing refreshToken) :
    sending.MayEnd id client :=
  mayEnd_of_next (Client.next_refreshed_stream hrefreshing .rejected) h.store
    (Client.setStream_self _)

/-- The first response. -/
theorem examineFirst (h : sending.Matches id client) (hsent : client.streams id = .sent)
    (res : Response) : (sending.examineFirst res).MatchedBy id client := by
  unfold Sending.examineFirst
  split
  · split
    · next hnone =>
        have hnext := Client.next_unrefreshed hsent (h.getRefreshToken.trans hnone) true
        exact (mayEnd_of_next hnext h.store (Client.setStream_self _)).examine res
    · next refreshToken htoken =>
        have hnext := Client.next_unauthorized hsent (h.getRefreshToken.trans htoken)
        exact matchedBy_of_next hnext h.store ⟨refreshToken, Client.setStream_self _⟩
  · exact (h.ends (.inl hsent)).examine res

/-- The steps before a stream is read. -/
theorem openNext {opening : Opening} (h : sending.Matches id client)
    (hphase : sending.phase = .opening opening)
    (hnext : sending.openNext str opening event = some sending') :
    sending'.MatchedBy id client := by
  have hshown := h.phase
  rw [hphase] at hshown
  unfold Sending.openNext at hnext
  split at hnext
  · cases hnext
    exact h.examineFirst hshown _
  · cases hnext
    obtain ⟨refreshToken, hrefreshing⟩ := hshown
    split
    · exact Matches.matchedBy ⟨h.store, refreshToken, hrefreshing⟩
    · exact (h.notRefreshed hrefreshing).examine _
  · obtain ⟨refreshToken, hrefreshing⟩ := hshown
    split at hnext
    · cases hnext
      exact (h.notRefreshed hrefreshing).fail _
    · next tokens _ =>
        cases hnext
        exact matchedBy_of_next (Client.next_refreshed_stream hrefreshing (.ok tokens)) rfl
          (Client.setStream_self _)
  · cases hnext
    exact (h.ends (.inr hshown)).examine _
  · cases hnext
    exact Matches.matchedBy ⟨h.store, .inl hshown⟩
  · cases hnext
    exact (h.ends (.inl hshown)).fail _
  · cases hnext
    obtain ⟨refreshToken, hrefreshing⟩ := hshown
    exact (h.notRefreshed hrefreshing).fail _
  · cases hnext
    exact (h.ends (.inr hshown)).fail _
  · cases hnext

/-- The steps of `handleSend` itself. -/
theorem advance (h : sending.Matches id client)
    (hnext : sending.advance json str event = some sending') : sending'.MatchedBy id client := by
  have hshown := h.phase
  unfold Sending.advance at hnext
  split at hnext
  · next hphase =>
      rw [hphase] at hshown
      cases hnext
      exact Matches.matchedBy ⟨h.store, .inr hshown⟩
  · next hphase =>
      rw [hphase] at hshown
      cases hnext
      exact matchedBy_of_next (Client.next_stream hshown) h.store (Client.setStream_self _)
  · next hphase => exact h.openNext hphase hnext
  · next hphase =>
      rw [hphase] at hshown
      cases hnext
      exact Matches.matchedBy ⟨h.store.trans (store_foldl_handle _).symm, hshown⟩
  · next hphase =>
      rw [hphase] at hshown
      cases hnext
      exact Matches.matchedBy ⟨h.store, .inl hshown⟩
  · next hphase =>
      rw [hphase] at hshown
      cases hnext
      exact Matches.matchedBy ⟨h.store, .inl hshown⟩
  · cases hnext

/-- Every step of a send is matched by the client. -/
theorem next (h : sending.Matches id client)
    (hnext : sending.next json str event = some sending') : sending'.MatchedBy id client := by
  unfold Sending.next at hnext
  split at hnext
  · next store =>
      cases hnext
      -- tokens come and go by a login and a logout, whatever changed them
      cases store with
      | none => exact matchedBy_of_next (show client.next .logout = _ from rfl) rfl h.phase
      | some tokens =>
          exact matchedBy_of_next (show client.next (.login tokens) = _ from rfl) rfl h.phase
  · split at hnext
    · cases hnext
    · cases hnext
      exact Matches.matchedBy ⟨h.store, h.phase⟩
  · exact h.advance hnext

end Matches

/-- A send begins as an idle stream, or with its request. -/
theorem matchedBy_handleSend (hidle : client.streams id = .idle) (page : ChatPage)
    (message : Str) : (handleSend page client.store message).MatchedBy id client := by
  unfold handleSend
  cases page.conversationId.filter (· ≠ []) with
  | none => exact Matches.matchedBy ⟨rfl, hidle⟩
  | some conversationId =>
      exact matchedBy_of_next (Client.next_stream hidle) rfl (Client.setStream_self _)

end Sending

/-- Every run of a send is a run of the client, with the same tokens in the store. -/
theorem exists_run_of_sends {page : ChatPage} {message : Str} {trace : List SendEvent}
    {last : Sending} (hidle : client.streams id = .idle)
    (hrun : Sends json str (handleSend page client.store message) trace last) :
    last.MatchedBy id client := by
  obtain ⟨before, start', hbefore, hstart⟩ := Sending.matchedBy_handleSend hidle page message
  obtain ⟨after, last', hafter, hlast⟩ := hrun.simulate (R := Sending.Matches id)
    (fun _ _ _ _ hmatches hnext => hmatches.next hnext) hstart
  exact ⟨before ++ after, last', hbefore.append hafter, hlast⟩

end Spec

end Web
