import KnowledgePlatform.Api.Chat
import KnowledgePlatform.Core.Llm

/-!
# Offline chat turns

With the offline provider a chat turn is a computation: the prompt is rendered,
the answer quotes the question and cites the sources found in the prompt, the
tokens join to it, and the markers of the joined text are mapped back to the
sources.  Whatever the template, the hits and the question hold, each source is
cited once; numbers that are no source are ignored.  The one thing that stops the
turn is a bracketed run of digits `int` does not accept (`citesAll_iff_short`).
-/

open Core Foundations Python Relational

namespace Api

/-- `StubLLMProvider` as the provider of a turn. -/
def offlineStream (system : Str) (messages : List (MessageRole × Str)) :
    Except Str (List Str × Generation) :=
  .ok (StubLLMProvider.astream system messages,
    { usage :=
        { inputTokens := StubLLMProvider.inputTokens system messages
          outputTokens := StubLLMProvider.outputTokens system messages }
      llmProvider := StubLLMProvider.name
      llmModel := StubLLMProvider.model })

/-- The nodes `retrieve`, `generate` and `cite` once the template and the hits are
there. -/
def offlineAnswer (template : Str) (hits : List SearchHit) (turn : ChatTurn) :
    Except Str (List Str × List Citation) := do
  let (tokens, _) ← offlineStream (buildSystemPrompt template hits) (promptMessages turn)
  let citations ← cite tokens.flatten hits
  .ok (tokens, citations)

/-- A turn with the offline provider answers this way. -/
theorem offlineAnswer_of_answerTurn {settings : Settings} {engine : SearchEngine} {turn : ChatTurn}
    {draw : AnswerDraw} {now : Time} {conn conn' : Conn} {out : AnswerOut}
    (h : (answerTurn settings engine offlineStream turn draw now).Runs conn out conn') :
    ∃ template, offlineAnswer template out.hits turn = .ok (out.tokens, out.citations) := by
  simp only [answerTurn, retrieve, Program.runs_bind, runs_setOrgContext, runs_ofLibrary,
    Program.runs_pure] at h
  obtain ⟨_, _, rfl, ⟨hits, prompt⟩, _, ⟨_, _, _, template, _, _, ⟨rfl, rfl⟩, _⟩,
    ⟨tokens, generation⟩, _, ⟨hstream, rfl⟩, citations, _, ⟨hcite, rfl⟩, _, _, _, rfl, _⟩ := h
  refine ⟨template, ?_⟩
  rw [offlineAnswer, hstream]
  show (cite tokens.flatten _ >>= fun citations => Except.ok (tokens, citations)) = _
  rw [hcite]
  rfl

/-- The citations of all sources, in order. -/
def allCitations (hits : List SearchHit) : List Citation :=
  hits.zipIdx.map fun source => citationOf (source.2 + 1) source.1 defaultSnippetChars

/-- No bracketed run of digits is too long for `int`: not in the question, not at
the beginning of a line of the template, nor of a later line of a title or of a
content, and the number of a source is not. -/
structure ShortRuns (template : Str) (hits : List SearchHit) (question : Str) : Prop where
  question : ShortMarkers (findMarkers question)
  template : ShortMarkers (findSources template)
  sources : ∀ hit ∈ hits, ShortMarkers (innerSourcesOf hit)
  numbers : hits.length < 10 ^ maxStrDigits

section Offline

variable (template : Str) (hits : List SearchHit) (turn : ChatTurn)

theorem lastQuestion_promptMessages :
    StubLLMProvider.lastQuestion (promptMessages turn) = turn.question := by
  simp [StubLLMProvider.lastQuestion, promptMessages]

/-- The markers of the answer. -/
theorem findMarkers_offline : findMarkers (StubLLMProvider.astream
      (buildSystemPrompt template hits) (promptMessages turn)).flatten =
    findMarkers turn.question ++ (findSources template ++ hits.zipIdx.flatMap fun source =>
      ofNat (source.2 + 1) :: innerSourcesOf source.1) := by
  rw [StubLLMProvider.astream, flatten_streamWords, StubLLMProvider.findMarkers_text,
    lastQuestion_promptMessages, findSources_buildSystemPrompt]

/-- The runs of digits of the answer are short if and only if those of its parts
are. -/
theorem shortMarkers_offline_iff : ShortMarkers (findMarkers (StubLLMProvider.astream
      (buildSystemPrompt template hits) (promptMessages turn)).flatten) ↔
    ShortRuns template hits turn.question := by
  rw [findMarkers_offline]
  constructor
  · intro h
    have hsource : ∀ source ∈ hits.zipIdx, ∀ raw ∈ ofNat (source.2 + 1) :: innerSourcesOf source.1,
        raw.length ≤ maxStrDigits := fun source hsource raw hraw =>
      h raw (List.mem_append_right _ (List.mem_append_right _
        (List.mem_flatMap.mpr ⟨source, hsource, hraw⟩)))
    refine ⟨fun raw hraw => h raw (List.mem_append_left _ hraw),
      fun raw hraw => h raw (List.mem_append_right _ (List.mem_append_left _ hraw)),
      fun hit hhit raw hraw => ?_, ?_⟩
    · obtain ⟨index, hindex⟩ := List.getElem?_of_mem hhit
      exact hsource (hit, index) (List.mk_mem_zipIdx_iff_getElem?.mpr hindex) raw
        (List.mem_cons_of_mem _ hraw)
    · rcases Nat.eq_zero_or_pos hits.length with hnone | hsome
      · rw [hnone]
        exact Nat.pow_pos (by decide)
      · -- the number of the last source
        obtain ⟨hit, hhit⟩ : ∃ hit, hits[hits.length - 1]? = some hit :=
          ⟨_, List.getElem?_eq_getElem (Nat.sub_lt hsome Nat.one_pos)⟩
        have hlast := hsource _ (List.mk_mem_zipIdx_iff_getElem?.mpr hhit) _ List.mem_cons_self
        rw [Nat.sub_add_cancel hsome] at hlast
        exact length_ofNat_le_iff.mp hlast
  · rintro ⟨hquestion, htemplate, hhits, hcount⟩ raw hraw
    rcases List.mem_append.mp hraw with hraw | hraw
    · exact hquestion raw hraw
    · rcases List.mem_append.mp hraw with hraw | hraw
      · exact htemplate raw hraw
      · obtain ⟨source, hsource, hraw⟩ := List.mem_flatMap.mp hraw
        rcases List.mem_cons.mp hraw with rfl | hraw
        · have hindex := List.snd_lt_of_mem_zipIdx hsource
          exact length_ofNat_le_iff.mpr (by omega)
        · exact hhits _ (List.fst_mem_of_mem_zipIdx hsource) raw hraw

/-- Every source is cited. -/
theorem citationsOf_offline : citationsOf hits defaultSnippetChars (citedNumbers
    (StubLLMProvider.astream (buildSystemPrompt template hits) (promptMessages turn)).flatten) =
      allCitations hits := by
  unfold citationsOf allCitations
  congr 1
  refine List.filter_eq_self.mpr fun source hsource => ?_
  rw [List.contains_iff_mem, citedNumbers, findMarkers_offline]
  refine List.mem_map.mpr ⟨ofNat (source.2 + 1), ?_, valueOf_ofNat _⟩
  exact List.mem_append_right _ (List.mem_append_right _
    (List.mem_flatMap.mpr ⟨source, hsource, List.mem_cons_self⟩))

theorem offlineAnswer_eq : offlineAnswer template hits turn =
    (fun citations => (StubLLMProvider.astream (buildSystemPrompt template hits)
      (promptMessages turn), citations)) <$> cite (StubLLMProvider.astream
        (buildSystemPrompt template hits) (promptMessages turn)).flatten hits := by
  simp only [offlineAnswer, offlineStream, bind, Except.bind]
  cases cite _ hits <;> rfl

variable {template hits turn}

/-- A turn that comes to an end has met no run of digits that is too long. -/
theorem shortRuns_of_offlineAnswer {tokens : List Str} {citations : List Citation}
    (h : offlineAnswer template hits turn = .ok (tokens, citations)) :
    ShortRuns template hits turn.question := by
  rw [offlineAnswer_eq] at h
  rw [← shortMarkers_offline_iff]
  cases hcite : cite (StubLLMProvider.astream (buildSystemPrompt template hits)
      (promptMessages turn)).flatten hits with
  | error message =>
      rw [hcite] at h
      cases h
  | ok citations => exact shortMarkers_of_extractCitations hcite

variable (template hits turn)

/-- The turn cites every source once and in order, if and only if no bracketed run
of digits is too long. -/
theorem citesAll_iff_short : (∃ tokens,
    offlineAnswer template hits turn = .ok (tokens, allCitations hits)) ↔
      ShortRuns template hits turn.question := by
  constructor
  · rintro ⟨tokens, h⟩
    exact shortRuns_of_offlineAnswer h
  · intro hshort
    rw [← shortMarkers_offline_iff] at hshort
    refine ⟨StubLLMProvider.astream (buildSystemPrompt template hits) (promptMessages turn), ?_⟩
    rw [offlineAnswer_eq, cite, extractCitations_eq_ok hshort, citationsOf_offline]
    rfl

end Offline

/-- A question with a number of 4301 digits in brackets. -/
def longNumberTurn : ChatTurn where
  orgId := 1
  userId := 2
  conversationId := 3
  question := '[' :: List.replicate 4301 '1' ++ [']']
  history := []

/-- The question is short enough for a chat request, and its turn raises. -/
theorem longNumber_stops_turn :
    1 ≤ longNumberTurn.question.length ∧ longNumberTurn.question.length ≤ 8000 ∧
    ¬∃ tokens citations, offlineAnswer defaultRagPrompt [rainHit "a.pdf".toList] longNumberTurn =
      .ok (tokens, citations) := by
  have hlength : longNumberTurn.question.length = 4303 := by
    rw [longNumberTurn, List.length_append, List.length_cons, List.length_replicate]
    rfl
  have hdigits : markerDigits (List.replicate 4301 '1' ++ [']']) =
      some (List.replicate 4301 '1') := by
    have hpositive : 0 < (List.replicate 4301 '1').length := by
      rw [List.length_replicate]
      decide
    refine markerDigits_eq_some.mpr ⟨List.ne_nil_of_length_pos hpositive, fun c hc => ?_, [], rfl⟩
    rw [List.eq_of_mem_replicate hc]
    decide
  have hmarker : List.replicate 4301 '1' ∈ findMarkers longNumberTurn.question := by
    rw [longNumberTurn, List.cons_append, findMarkers, if_pos rfl, hdigits]
    exact List.mem_cons_self
  refine ⟨by omega, by omega, ?_⟩
  rintro ⟨tokens, citations, h⟩
  have hshort := (shortRuns_of_offlineAnswer h).question _ hmarker
  rw [List.length_replicate] at hshort
  exact absurd hshort (by decide)

end Api
