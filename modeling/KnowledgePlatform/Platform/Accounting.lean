import KnowledgePlatform.Api.ChatStream
import KnowledgePlatform.Platform.IngestionRuns

/-!
# Accounting for provider calls

The usage event of a generation is inserted by the transaction that stores the
answer, and that of an embedding batch by the one that stores the chunks.  A
provider that has delivered has been paid by then, so a turn or a run that breaks
off before the commit leaves no record of it.

A turn or run that is over has recorded its provider call exactly if nothing
broke it off between the first token, or the vectors, and the commit.
-/

open Api Core Foundations Python Relational

namespace Platform

variable {settings : Settings} {engine : SearchEngine} {turn : ChatTurn} {db : Database}
  {orgId documentId : Uuid}

/-! ## Generations -/

/-- The provider yields a token. -/
def YieldsToken (event : TurnEvent) : Prop := ∃ text, event = .token text

/-- A usage event for the generation was added to the committed ones. -/
def GenerationRecorded (turn : ChatTurn) (db db' : Database) : Prop :=
  ∃ event : UsageEvent, event.kind = .generation ∧ event.orgId = turn.orgId ∧
    event.conversationId = some turn.conversationId ∧
      db' .usageEvents = db .usageEvents ++ [event]

section Turns

variable {trace : List TurnEvent} {state state' : TurnState} {event : TurnEvent}

/-- A turn that runs on is neither over nor aborted, and changes the usage events
only by its commit. -/
theorem quiet_of_runTurn (hrun : runTurn settings engine turn state event = some state') :
    state.stage.isOver = false ∧ state'.stage ≠ .aborted ∧
      (event ≠ .commit → state'.db .usageEvents = state.db .usageEvents) := by
  unfold runTurn at hrun
  split at hrun
  · next hstage =>
      refine ⟨by rw [hstage]; rfl, ?_⟩
      split at hrun
      · split at hrun
        · next hask =>
            cases hrun
            refine ⟨by simp, fun _ => ?_⟩
            show (_ : Conn).db .usageEvents = _
            rw [db_of_persistUserTurn hask]
            exact Database.insert_of_ne _ (by decide)
        · cases hrun
      · cases hrun
  · next hstage =>
      refine ⟨by rw [hstage]; rfl, ?_⟩
      split at hrun
      · split at hrun
        · split_ifs at hrun
          cases hrun
          exact ⟨by simp [TurnState.moveTo], fun _ => rfl⟩
        · cases hrun
      · cases hrun
  · next hstage =>
      refine ⟨by rw [hstage]; rfl, ?_⟩
      split at hrun
      · split at hrun
        · cases hrun
        · cases hrun
          exact ⟨by simp [TurnState.send], fun _ => rfl⟩
        · cases hrun
          exact ⟨by simp [TurnState.moveTo], fun _ => rfl⟩
      · split at hrun
        · cases hrun
          exact ⟨by simp [TurnState.moveTo], fun _ => rfl⟩
        · cases hrun
      · obtain ⟨_, _, rfl⟩ := Option.map_eq_some_iff.mp hrun
        exact ⟨by simp [TurnState.moveTo], fun _ => rfl⟩
  · next hstage =>
      refine ⟨by rw [hstage]; rfl, ?_⟩
      split at hrun
      · split at hrun
        · cases hrun
          exact ⟨by simp [TurnState.moveTo], fun _ => rfl⟩
        · cases hrun
      · cases hrun
  · next hstage =>
      refine ⟨by rw [hstage]; rfl, ?_⟩
      split at hrun
      -- the commit, the one step that is not quiet
      · cases hrun
        exact ⟨by simp, fun hevent => absurd rfl hevent⟩
      · cases hrun
  · next hstage =>
      refine ⟨by rw [hstage]; rfl, ?_⟩
      split at hrun
      · split_ifs at hrun
        cases hrun
        exact ⟨by simp, fun _ => rfl⟩
      · split_ifs at hrun
        cases hrun
        exact ⟨by simp [TurnState.send], fun _ => rfl⟩
      · cases hrun
  · next hstage =>
      refine ⟨by rw [hstage]; rfl, ?_⟩
      split at hrun
      · cases hrun
        exact ⟨by simp [TurnState.send], fun _ => rfl⟩
      · cases hrun
  · cases hrun
  · cases hrun

/-- The usage events change with the commit, and the turn is aborted by an abort. -/
structure Tallied (turn : ChatTurn) (db : Database) (trace : List TurnEvent) (state : TurnState) :
    Prop where
  recorded : .commit ∈ trace → GenerationRecorded turn db state.db
  unrecorded : .commit ∉ trace → state.db .usageEvents = db .usageEvents
  aborted : state.stage = .aborted → .abort ∈ trace

theorem generationRecorded_of_made (made : MadeAnswer) :
    GenerationRecorded turn db (made.db turn db) := by
  refine ⟨made.usageEvent turn, rfl, rfl, rfl, ?_⟩
  rw [MadeAnswer.db, Database.insert_self, Database.insert_of_ne _ (by decide), askedDb,
    Database.insert_of_ne _ (by decide)]

/-- The commit follows the recording of an answer. -/
theorem stage_of_commit (hrun : runTurn settings engine turn state .commit = some state') :
    ∃ answer citations crossed, state'.stage = .committed answer citations crossed := by
  unfold runTurn at hrun
  split at hrun
  case h_3 => cases hrun
  case h_5 =>
    cases hrun
    exact ⟨_, _, _, rfl⟩
  all_goals cases hrun

theorem Tallied.next (h : Tallied turn db trace state)
    (hsane : StageSane settings engine turn db (trace ++ [event]) state')
    (hnext : nextTurn settings engine turn state event = some state') :
    Tallied turn db (trace ++ [event]) state' := by
  rcases nextTurn_eq_some hnext with ⟨rfl, _, rfl⟩ | ⟨_, hrun⟩
  · have hcommit : (TurnEvent.commit ∈ trace ++ [.abort]) ↔ .commit ∈ trace := by simp
    refine ⟨fun hmem => h.recorded (hcommit.mp hmem), fun hmem => h.unrecorded ?_, fun _ => by simp⟩
    exact fun hearlier => hmem (hcommit.mpr hearlier)
  · obtain ⟨_, hstage, hquiet⟩ := quiet_of_runTurn hrun
    by_cases hevent : event = .commit
    · subst hevent
      obtain ⟨answer, citations, crossed, hcommitted⟩ := stage_of_commit hrun
      simp only [StageSane, hcommitted] at hsane
      obtain ⟨made, _, _, hanswered⟩ := hsane
      refine ⟨fun _ => ?_, fun hmem => absurd (by simp) hmem, fun haborted => absurd haborted hstage⟩
      rw [hanswered.db]
      exact generationRecorded_of_made made
    · have hcommit : (TurnEvent.commit ∈ trace ++ [event]) ↔ .commit ∈ trace := by
        simp [Ne.symm hevent]
      have hevents := hquiet hevent
      refine ⟨fun hmem => ?_, fun hmem => ?_, fun haborted => absurd haborted hstage⟩
      · obtain ⟨recorded, hkind, horg, hconversation, hrecorded⟩ := h.recorded (hcommit.mp hmem)
        exact ⟨recorded, hkind, horg, hconversation, hevents.trans hrecorded⟩
      · exact hevents.trans (h.unrecorded fun hearlier => hmem (hcommit.mpr hearlier))

theorem tallied_of_runs (hrun : TurnRuns settings engine turn db trace state) :
    Tallied turn db trace state := by
  have hstart : Tallied turn db [] (openedTurn db) :=
    ⟨fun hmem => absurd hmem List.not_mem_nil, fun _ => rfl, fun haborted => by cases haborted⟩
  refine hrun.invariant (P := Tallied turn db) hstart ?_
  intro earlier middle event last hmiddle htallied hstep
  exact htallied.next ((stageSane_of_runs hmiddle).next hstep) hstep

/-- The usage of a generation is recorded by the commit, and by nothing else. -/
theorem generationRecorded_iff (hrun : TurnRuns settings engine turn db trace state) :
    GenerationRecorded turn db state.db ↔ ∃ event ∈ trace, event = .commit := by
  have htallied := tallied_of_runs hrun
  constructor
  · rintro ⟨recorded, _, _, _, hrecorded⟩
    by_contra hcommit
    have hsame := htallied.unrecorded fun hmem => hcommit ⟨_, hmem, rfl⟩
    rw [hrecorded] at hsame
    simp at hsame
  · rintro ⟨_, hmem, rfl⟩
    exact htallied.recorded hmem

/-- A turn that is over has committed or was aborted. -/
theorem committed_or_aborted (hrun : TurnRuns settings engine turn db trace state)
    (hover : state.stage.isOver = true) :
    (∃ event ∈ trace, event = .commit) ∨ ∃ event ∈ trace, event = .abort := by
  cases hstage : state.stage with
  | aborted => exact .inr ⟨_, (tallied_of_runs hrun).aborted hstage, rfl⟩
  | finished =>
      have hsane := stageSane_of_runs hrun
      simp only [StageSane, hstage] at hsane
      obtain ⟨made, hanswered⟩ := hsane
      refine .inl ((generationRecorded_iff hrun).mp ?_)
      rw [hanswered.db]
      exact generationRecorded_of_made made
  | _ =>
      rw [hstage] at hover
      cases hover

/-- After an abort a turn takes no step. -/
theorem stuck_of_abort (hnext : nextTurn settings engine turn state event = some state')
    (hevent : event = .abort) (later : TurnEvent) (next : TurnState) :
    ¬nextTurn settings engine turn state' later = some next := by
  subst hevent
  intro hlater
  obtain ⟨_, _, rfl⟩ | ⟨hne, _⟩ := nextTurn_eq_some hnext
  · rcases nextTurn_eq_some hlater with ⟨_, hover, _⟩ | ⟨_, hrun⟩
    · cases hover
    · cases (quiet_of_runTurn hrun).1
  · exact hne rfl

end Turns

/-! ## Embedding batches -/

/-- How far `run_ingestion` has come after its first transaction. -/
inductive BatchStage
  | working
  | embedded (provider : EmbeddingProvider) (chunks : List Str) (vectors : List Embedding)
  | stored
  | aborted

structure BatchState where
  stage : BatchStage
  db : Database

/-- The work up to the embedding call, the storing transaction, and an exception or
the end of the process. -/
inductive BatchEvent
  | embed (work : IngestionWork)
  | store (draw : StoreDraw) (now began : Time)
  | abort

/-- One step of `run_ingestion` after its first transaction. -/
def nextBatch (settings : Settings) (orgId documentId : Uuid) (state : BatchState) :
    BatchEvent → Option BatchState
  | .embed work =>
      match state.stage, prepareChunks settings work with
      | .working, .ok (chunks, vectors) =>
          some { state with stage := .embedded work.provider chunks vectors }
      | _, _ => none
  | .store draw now began =>
      match state.stage with
      | .embedded provider chunks vectors =>
          match storeChunks orgId documentId provider chunks vectors draw now
              (.start .appUser began state.db) with
          | .ok (_, conn) => some ⟨.stored, conn.db⟩
          | .error _ => none
      | _ => none
  | .abort =>
      match state.stage with
      | .stored | .aborted => none
      | _ => some { state with stage := .aborted }

abbrev BatchRuns (settings : Settings) (orgId documentId : Uuid) (db : Database)
    (trace : List BatchEvent) (last : BatchState) : Prop :=
  Run (fun state event state' => nextBatch settings orgId documentId state event = some state')
    ⟨.working, db⟩ trace last

/-- Whether a run takes no further step. -/
def BatchStage.isOver : BatchStage → Bool
  | .stored | .aborted => true
  | _ => false

/-- The provider returns vectors for some chunks. -/
def ReturnsVectors (settings : Settings) (event : BatchEvent) : Prop :=
  ∃ work chunks vectors, event = .embed work ∧
    prepareChunks settings work = .ok (chunks, vectors) ∧ chunks ≠ []

/-- The chunks are stored. -/
def StoresBatch (event : BatchEvent) : Prop := ∃ draw now began, event = .store draw now began

/-- A usage event for the batch was added to the committed ones. -/
def EmbeddingRecorded (orgId documentId : Uuid) (db db' : Database) : Prop :=
  ∃ event : UsageEvent, event.kind = .embedding ∧ event.orgId = orgId ∧
    event.documentId = some documentId ∧ db' .usageEvents = db .usageEvents ++ [event]

section Batches

variable {trace : List BatchEvent} {state state' : BatchState} {event : BatchEvent}

/-- The usage event a storing transaction adds, when there are chunks. -/
theorem embeddingRecorded_of_storeChunks {provider : EmbeddingProvider} {chunks : List Str}
    {vectors : List Embedding} {draw : StoreDraw} {now began : Time} {result : Unit} {conn : Conn}
    (hchunks : chunks ≠ [])
    (h : (storeChunks orgId documentId provider chunks vectors draw now).Runs
      (.start .appUser began db) result conn) : EmbeddingRecorded orgId documentId db conn.db := by
  obtain ⟨_, filled, recorded, hfilled, hrecorded, hready⟩ := storeChunks_eq_ok rfl h
  obtain ⟨hempty, _⟩ | ⟨_, costUsd, hrecorded⟩ := hrecorded
  · exact absurd hempty hchunks
  obtain ⟨ready, hready, hwrote⟩ : ∃ ready, (ready = [] ∨
      ready = [statusWrite documentId .ready none]) ∧ recorded.Wrote ready conn := by
    rcases hready with ⟨rfl, _⟩ | ⟨hwrote, _⟩
    · exact ⟨[], .inl rfl, Conn.wrote_nil.mpr rfl⟩
    · exact ⟨_, .inr rfl, hwrote⟩
  have hexecutes := (hfilled.append (hrecorded.append hwrote)).executes
  exact ⟨_, rfl, rfl, rfl, @usageEvents_of_stored _ ⟨orgId, documentId, []⟩ _ _ _ _ _ [_]
    (spares_filling (by decide)) hready rfl hexecutes⟩

/-- The runs are so short that the stage tells the trace. -/
def BatchSane (settings : Settings) (orgId documentId : Uuid) (db : Database)
    (trace : List BatchEvent) (state : BatchState) : Prop :=
  match state.stage with
  | .working => trace = [] ∧ state.db = db
  | .embedded _ chunks vectors => ∃ work, trace = [.embed work] ∧
      prepareChunks settings work = .ok (chunks, vectors) ∧ state.db = db
  | .stored => ∃ work chunks vectors draw now began, trace = [.embed work, .store draw now began] ∧
      prepareChunks settings work = .ok (chunks, vectors) ∧
      (chunks ≠ [] → EmbeddingRecorded orgId documentId db state.db)
  | .aborted => (∃ before, trace = before ++ [.abort]) ∧ (∀ event ∈ trace, ¬StoresBatch event) ∧
      state.db = db

theorem BatchSane.next (h : BatchSane settings orgId documentId db trace state)
    (hnext : nextBatch settings orgId documentId state event = some state') :
    BatchSane settings orgId documentId db (trace ++ [event]) state' := by
  obtain ⟨stage, now⟩ := state
  cases event with
  | embed work =>
      cases stage with
      | working =>
          obtain ⟨rfl, rfl⟩ := h
          simp only [nextBatch] at hnext
          split at hnext
          · next chunks vectors _ hprepared =>
              cases hnext
              exact ⟨work, rfl, hprepared, rfl⟩
          · cases hnext
      | _ => cases hnext
  | store draw _ began =>
      cases stage with
      | embedded provider chunks vectors =>
          obtain ⟨work, rfl, hprepared, rfl⟩ := h
          simp only [nextBatch] at hnext
          split at hnext
          · next conn hstore =>
              cases hnext
              exact ⟨work, chunks, vectors, draw, _, began, rfl, hprepared,
                fun hchunks => embeddingRecorded_of_storeChunks hchunks hstore⟩
          · cases hnext
      | _ => cases hnext
  | abort =>
      cases stage with
      | working =>
          obtain ⟨rfl, rfl⟩ := h
          cases hnext
          refine ⟨⟨[], rfl⟩, ?_, rfl⟩
          simp [StoresBatch]
      | embedded provider chunks vectors =>
          obtain ⟨work, rfl, _, rfl⟩ := h
          cases hnext
          refine ⟨⟨[.embed work], rfl⟩, ?_, rfl⟩
          simp [StoresBatch]
      | stored => cases hnext
      | aborted => cases hnext

theorem batchSane_of_runs (hrun : BatchRuns settings orgId documentId db trace state) :
    BatchSane settings orgId documentId db trace state := by
  have hstart : BatchSane settings orgId documentId db [] ⟨.working, db⟩ := ⟨rfl, rfl⟩
  refine hrun.invariant (P := BatchSane settings orgId documentId db) hstart ?_
  intro earlier middle event last _ hmiddle hstep
  exact hmiddle.next hstep

/-- After an abort a run takes no step. -/
theorem stuck_of_abortBatch (hnext : nextBatch settings orgId documentId state event = some state')
    (hevent : event = .abort) (later : BatchEvent) (next : BatchState) :
    ¬nextBatch settings orgId documentId state' later = some next := by
  subst hevent
  have hstage : state'.stage = .aborted := by
    obtain ⟨stage, now⟩ := state
    cases stage <;> cases hnext <;> rfl
  obtain ⟨stage, now⟩ := state'
  obtain rfl := hstage
  cases later <;> rintro ⟨⟩

/-- For a batch of chunks, the usage is recorded by the storing transaction, and by
nothing else. -/
theorem embeddingRecorded_iff (hrun : BatchRuns settings orgId documentId db trace state)
    (hover : state.stage.isOver = true) (hvectors : ∃ event ∈ trace, ReturnsVectors settings event) :
    EmbeddingRecorded orgId documentId db state.db ↔ ∃ event ∈ trace, StoresBatch event := by
  have hsane := batchSane_of_runs hrun
  obtain ⟨stage, now⟩ := state
  cases stage with
  | stored =>
      obtain ⟨work, chunks, vectors, draw, readAt, began, rfl, hprepared, hrecorded⟩ := hsane
      obtain ⟨_, hmem, work', chunks', vectors', rfl, hprepared', hchunks⟩ := hvectors
      have hwork : work' = work := by simpa using hmem
      subst hwork
      rw [hprepared] at hprepared'
      cases hprepared'
      exact ⟨fun _ => ⟨.store draw readAt began, by simp, draw, readAt, began, rfl⟩,
        fun _ => hrecorded hchunks⟩
  | aborted =>
      obtain ⟨_, hnone, rfl⟩ := hsane
      constructor
      · rintro ⟨recorded, _, _, _, hrecorded⟩
        simp at hrecorded
      · rintro ⟨event, hmem, hstores⟩
        exact absurd hstores (hnone event hmem)
  | working => cases hover
  | embedded => cases hover

/-- A run that is over has stored its chunks or was aborted. -/
theorem stored_or_aborted (hrun : BatchRuns settings orgId documentId db trace state)
    (hover : state.stage.isOver = true) :
    (∃ event ∈ trace, StoresBatch event) ∨ ∃ event ∈ trace, event = .abort := by
  have hsane := batchSane_of_runs hrun
  obtain ⟨stage, now⟩ := state
  cases stage with
  | stored =>
      obtain ⟨work, chunks, vectors, draw, readAt, began, rfl, _⟩ := hsane
      exact .inl ⟨.store draw readAt began, by simp, draw, readAt, began, rfl⟩
  | aborted =>
      obtain ⟨⟨before, rfl⟩, _⟩ := hsane
      exact .inr ⟨.abort, by simp, rfl⟩
  | working => cases hover
  | embedded => cases hover

end Batches

/-! ## Both -/

/-- What a turn or a run that is over has used is recorded exactly if nothing broke
it off between the first token, or the vectors, and the commit. -/
theorem usageRecorded_iff_uninterrupted (settings : Settings) (db : Database) :
    (∀ (engine : SearchEngine) (turn : ChatTurn) (trace : List TurnEvent) (last : TurnState),
      TurnRuns settings engine turn db trace last → last.stage.isOver = true →
      (((∃ event ∈ trace, YieldsToken event) → GenerationRecorded turn db last.db) ↔
        Uninterrupted YieldsToken (· = .commit) (· = .abort) trace)) ∧
    ∀ (orgId documentId : Uuid) (trace : List BatchEvent) (last : BatchState),
      BatchRuns settings orgId documentId db trace last → last.stage.isOver = true →
      (((∃ event ∈ trace, ReturnsVectors settings event) →
        EmbeddingRecorded orgId documentId db last.db) ↔
        Uninterrupted (ReturnsVectors settings) StoresBatch (· = .abort) trace) := by
  constructor
  · intro engine turn trace last hrun hover
    rw [generationRecorded_iff hrun]
    refine recorded_iff_uninterrupted (fun before event hearlier hevent => ?_)
      (committed_or_aborted hrun hover) ?_
    · exact hrun.last_of_stuck (fun _ _ _ hnext => stuck_of_abort hnext) hearlier hevent
    · rintro _ rfl
      exact ⟨by simp [YieldsToken], by simp⟩
  · intro orgId documentId trace last hrun hover
    have hrecorded : ((∃ event ∈ trace, ReturnsVectors settings event) →
        EmbeddingRecorded orgId documentId db last.db) ↔
        ((∃ event ∈ trace, ReturnsVectors settings event) → ∃ event ∈ trace, StoresBatch event) :=
      imp_congr_right fun hvectors => embeddingRecorded_iff hrun hover hvectors
    rw [hrecorded]
    refine recorded_iff_uninterrupted (fun before event hearlier hevent => ?_)
      (stored_or_aborted hrun hover) ?_
    · exact hrun.last_of_stuck (fun _ _ _ hnext => stuck_of_abortBatch hnext) hearlier hevent
    · rintro _ rfl
      exact ⟨by simp [ReturnsVectors], by simp [StoresBatch]⟩

/-- The vectors of two words are returned, and the process ends before they are stored. -/
def unstoredBatch : List BatchEvent := [.embed ⟨.ok "two words".toList, flatProvider⟩, .abort]

theorem usageRecorded_iff_uninterrupted_complete : (∃ last,
    TurnRuns {} plainEngine sampleTurn talkingDb completeTurn last ∧
    (((∃ event ∈ completeTurn, YieldsToken event) →
      GenerationRecorded sampleTurn talkingDb last.db) ↔
        Uninterrupted YieldsToken (· = .commit) (· = .abort) completeTurn)) ∧
    ∃ last, BatchRuns {} 1 8 talkingDb unstoredBatch last ∧
    (((∃ event ∈ unstoredBatch, ReturnsVectors {} event) →
      EmbeddingRecorded 1 8 talkingDb last.db) ↔
        Uninterrupted (ReturnsVectors {}) StoresBatch (· = .abort) unstoredBatch) := by
  constructor
  · have hreplay : (replay (nextTurn {} plainEngine sampleTurn) (openedTurn talkingDb)
        completeTurn).map (fun last => last.stage.isOver) = some true := by decide +kernel
    obtain ⟨last, hlast, hover⟩ := Option.map_eq_some_iff.mp hreplay
    have hrun := run_of_replay _ _ _ _ hlast
    exact ⟨last, hrun, (usageRecorded_iff_uninterrupted _ _).1 _ _ _ _ hrun hover⟩
  · have hreplay : (replay (nextBatch {} 1 8) ⟨.working, talkingDb⟩ unstoredBatch).map
        (fun last => last.stage.isOver) = some true := by decide +kernel
    obtain ⟨last, hlast, hover⟩ := Option.map_eq_some_iff.mp hreplay
    have hrun := run_of_replay _ _ _ _ hlast
    exact ⟨last, hrun, (usageRecorded_iff_uninterrupted _ _).2 _ _ _ _ hrun hover⟩

/-- The client of the sample turn goes away after the first token. -/
def interruptedTurn : List TurnEvent :=
  [.ask 5 10, .retrieve 11 [sampleHit], .token "Rain [".toList, .abort]

/-- The generation that had begun is not recorded. -/
theorem interruptedTurn_unrecorded : ∃ last,
    TurnRuns {} plainEngine sampleTurn talkingDb interruptedTurn last ∧
    last.stage.isOver = true ∧ (∃ event ∈ interruptedTurn, YieldsToken event) ∧
    ¬GenerationRecorded sampleTurn talkingDb last.db := by
  have hreplay : (replay (nextTurn {} plainEngine sampleTurn) (openedTurn talkingDb)
      interruptedTurn).map (fun last => last.stage.isOver) = some true := by decide +kernel
  obtain ⟨last, hlast, hover⟩ := Option.map_eq_some_iff.mp hreplay
  have hrun := run_of_replay _ _ _ _ hlast
  refine ⟨last, hrun, hover, ⟨.token "Rain [".toList, by simp [interruptedTurn], _, rfl⟩, ?_⟩
  rw [generationRecorded_iff hrun]
  simp [interruptedTurn]

end Platform
