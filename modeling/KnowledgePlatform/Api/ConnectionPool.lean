import KnowledgePlatform.Api.ChatStream
import KnowledgePlatform.Foundations.Pool

/-!
# Chat requests on the connection pool

A chat request uses two sessions of `get_sessionmaker()`, and with them up to two
connections of one pool.  The session of `get_principal` begins a transaction with
its first statement and ends it when the dependency exits, which is after the
response has been sent; the generator that streams the response runs two
transactions on a session of its own.  A session holds a connection from the first
statement of a transaction to its end.

So a request that streams holds one connection when it asks for the second.
`Traffic` is the pool with the requests on it, one in each slot: the slots are the
requests that are served at a time.

The phases of a request that streams are those of `Api.ChatStream`, seen from the pool
(`phases_of_turnRuns`): the stream holds a connection while its turn is inside a
transaction (`holds_stream_iff`), and asks for one before each of the two.
-/

open Core Foundations Relational

namespace Api

/-- The sessions of a chat request: of `get_principal`, and of `event_stream`. -/
inductive ChatSession
  | principal
  | stream
  deriving DecidableEq

/-- How far the request of a slot has come with its transactions. -/
inductive ChatPhase
  | gone
  | entering
  | handling
  | asking
  | storing
  | answering
  | generating
  | leaving
  deriving DecidableEq

/-- The request session is inside its transaction. -/
def ChatPhase.inPrincipal : ChatPhase → Bool
  | .gone | .entering => false
  | .handling | .asking | .storing | .answering | .generating | .leaving => true

/-- The session of the stream is inside one of its transactions. -/
def ChatPhase.inStream : ChatPhase → Bool
  | .storing | .generating => true
  | .gone | .entering | .handling | .asking | .answering | .leaving => false

/-- The sessions inside a transaction. -/
def ChatPhase.holds (phase : ChatPhase) : ChatSession → Bool
  | .principal => phase.inPrincipal
  | .stream => phase.inStream

/-- The steps of a chat request: it arrives; `get_principal` executes its first
statement; it or the handler raises; the handler returns its `StreamingResponse`;
the stream executes the first statement of a transaction; this commits; the
generator raises or is closed; the body is sent and `get_principal` exits. -/
inductive ChatStep
  | arrive
  | enter
  | reject
  | respond
  | begin
  | commit
  | abort
  | leave
  deriving DecidableEq

/-- What a step does with the connections. -/
inductive PoolUse
  | none
  | checkout (session : ChatSession)
  | release (session : ChatSession)
  deriving DecidableEq

/-- The transitions of a chat request. -/
def ChatPhase.next : ChatStep → ChatPhase → Option (PoolUse × ChatPhase)
  | .arrive, .gone => some (.none, .entering)
  | .enter, .entering => some (.checkout .principal, .handling)
  | .reject, .entering => some (.none, .gone)
  | .reject, .handling => some (.release .principal, .gone)
  | .respond, .handling => some (.none, .asking)
  | .begin, .asking => some (.checkout .stream, .storing)
  | .commit, .storing => some (.release .stream, .answering)
  | .begin, .answering => some (.checkout .stream, .generating)
  | .commit, .generating => some (.release .stream, .leaving)
  | .abort, .asking | .abort, .answering => some (.none, .leaving)
  | .abort, .storing | .abort, .generating => some (.release .stream, .leaving)
  -- the dependency exits only now, with the connection it took first
  | .leave, .leaving => some (.release .principal, .gone)
  | _, _ => none

/-- The request holds a connection and can go on with a further one. -/
def ChatPhase.Waits (phase : ChatPhase) : Prop :=
  (∃ session, phase.holds session = true) ∧
    ∃ step session phase', phase.next step = some (.checkout session, phase')

theorem ChatPhase.waits_iff {phase : ChatPhase} :
    phase.Waits ↔ phase = .asking ∨ phase = .answering := by
  constructor
  · rintro ⟨⟨held, hheld⟩, step, session, phase', hnext⟩
    cases phase <;> cases step <;> cases held <;> simp_all [next, holds, inPrincipal, inStream]
  · rintro (rfl | rfl)
    · exact ⟨⟨.principal, rfl⟩, .begin, .stream, .storing, rfl⟩
    · exact ⟨⟨.principal, rfl⟩, .begin, .stream, .generating, rfl⟩

/-! ## The stream of a request -/

/-- The phases through which a request goes by some steps. -/
abbrev ChatPhase.Runs : ChatPhase → List ChatStep → ChatPhase → Prop :=
  Run fun phase step phase' => ∃ use, phase.next step = some (use, phase')

/-- The phase of a request whose turn has come so far. -/
def TurnStage.phase : TurnStage → ChatPhase
  | .opened => .asking
  | .asked => .answering
  | .streaming _ | .answered .. | .recorded .. => .generating
  | .committed .. | .cited _ | .finished | .aborted => .leaving

/-- The transaction the turn is inside of. -/
def TurnStage.conn? : TurnStage → Option Conn
  | .streaming stream => some stream.conn
  | .answered conn .. | .recorded conn .. => some conn
  | .opened | .asked | .committed .. | .cited _ | .finished | .aborted => none

/-- What the pool sees of an event of the turn. -/
def TurnStage.poolSteps (stage : TurnStage) : TurnEvent → List ChatStep
  -- the first transaction stores the question and commits
  | .ask .. => [.begin, .commit]
  | .retrieve .. => [.begin]
  | .commit => [.commit]
  | .abort => if stage.phase = .leaving then [] else [.abort]
  | _ => []

/-- The stream holds a connection exactly while its turn is inside a transaction. -/
theorem holds_stream_iff {stage : TurnStage} :
    stage.phase.holds .stream = true ↔ stage.conn?.isSome = true := by
  cases stage <;> exact Iff.rfl

/-- It waits for a connection before each of its transactions. -/
theorem waits_turn_iff {stage : TurnStage} :
    stage.phase.Waits ↔ stage = .opened ∨ stage = .asked := by
  rw [ChatPhase.waits_iff]
  cases stage <;> simp [TurnStage.phase]

section Turns

variable {settings : Settings} {engine : SearchEngine} {turn : ChatTurn} {db : Database}
  {state state' last : TurnState} {trace : List TurnEvent} {event : TurnEvent}

/-- The nodes of the graph run inside the second transaction. -/
theorem poolSteps_of_nextNode {stream stream' : Streaming}
    (h : nextNode stream event = some stream') (stage : TurnStage) :
    stage.poolSteps event = [] := by
  cases event with
  | token | generated | cite => rfl
  | _ => cases h

theorem mem_poolSteps {stage : TurnStage} {step : ChatStep} (h : step ∈ stage.poolSteps event) :
    step = .begin ∨ step = .commit ∨ step = .abort := by
  cases event with
  | ask =>
      rcases List.mem_pair.mp h with rfl | rfl
      · exact .inl rfl
      · exact .inr (.inl rfl)
  | retrieve => exact .inl (List.mem_singleton.mp h)
  | commit => exact .inr (.inl (List.mem_singleton.mp h))
  | abort =>
      simp only [TurnStage.poolSteps] at h
      split_ifs at h
      · cases h
      · exact .inr (.inr (List.mem_singleton.mp h))
  | _ => cases h

/-- A stream that is broken off gives back the connection it holds. -/
theorem phases_of_abort (stage : TurnStage) :
    stage.phase.Runs (stage.poolSteps .abort) .leaving := by
  cases stage with
  | opened | asked | streaming | answered | recorded => exact Run.single ⟨_, rfl⟩
  | committed | cited | finished | aborted => exact .nil

/-- A step of the turn takes the request through the phases the pool sees. -/
theorem phases_of_runTurn (h : runTurn settings engine turn state event = some state') :
    state.stage.phase.Runs (state.stage.poolSteps event) state'.stage.phase := by
  cases hstage : state.stage with
  | opened =>
      simp only [runTurn, hstage] at h
      split at h
      · split at h
        · cases h
          exact (Run.single ⟨_, rfl⟩ : ChatPhase.Runs .asking [.begin] .storing).snoc ⟨_, rfl⟩
        · cases h
      · cases h
  | asked =>
      simp only [runTurn, hstage] at h
      split at h
      · split at h
        · split at h
          · cases h
            exact Run.single ⟨_, rfl⟩
          · cases h
        · cases h
      · cases h
  | streaming stream =>
      simp only [runTurn, hstage] at h
      split at h
      · split at h
        · cases h
        · cases h
          exact .nil
        · cases h
          exact .nil
      · split at h
        · cases h
          exact .nil
        · cases h
      · obtain ⟨later, hlater, rfl⟩ := Option.map_eq_some_iff.mp h
        rw [poolSteps_of_nextNode hlater]
        exact .nil
  | answered conn answer final =>
      simp only [runTurn, hstage] at h
      split at h
      · split at h
        · cases h
          exact .nil
        · cases h
      · cases h
  | recorded conn answer citations crossed =>
      simp only [runTurn, hstage] at h
      split at h
      · cases h
        exact Run.single ⟨_, rfl⟩
      · cases h
  | committed answer citations crossed =>
      simp only [runTurn, hstage] at h
      split at h
      · split_ifs at h
        cases h
        exact .nil
      · split_ifs at h
        cases h
        exact .nil
      · cases h
  | cited answer =>
      simp only [runTurn, hstage] at h
      split at h
      · cases h
        exact .nil
      · cases h
  | finished | aborted =>
      simp only [runTurn, hstage] at h
      cases h

theorem phases_of_nextTurn (h : nextTurn settings engine turn state event = some state') :
    state.stage.phase.Runs (state.stage.poolSteps event) state'.stage.phase := by
  rcases nextTurn_eq_some h with ⟨rfl, _, rfl⟩ | ⟨_, hrun⟩
  · exact phases_of_abort state.stage
  · exact phases_of_runTurn hrun

/-- A run of the turn takes its request, from the moment it streams, through phases of
the pool by the steps of a stream only. -/
theorem phases_of_turnRuns (hrun : TurnRuns settings engine turn db trace last) :
    ∃ steps, ChatPhase.Runs .asking steps last.stage.phase ∧
      ∀ step ∈ steps, step = .begin ∨ step = .commit ∨ step = .abort := by
  induction hrun with
  | nil => exact ⟨[], .nil, fun _ hstep => absurd hstep List.not_mem_nil⟩
  | @snoc _ middle _ event _ hlast ih =>
      obtain ⟨steps, hsteps, hown⟩ := ih
      refine ⟨_, hsteps.append (phases_of_nextTurn hlast), fun step hstep => ?_⟩
      rcases List.mem_append.mp hstep with hearlier | hnew
      · exact hown step hearlier
      · exact mem_poolSteps hnew

end Turns

/-! ## Traffic -/

/-- The pool of the engine of `app_user`, and the chat requests by their slots. -/
structure Traffic (Slot : Type) (capacity : ℕ) where
  pool : Pool (Slot × ChatSession) capacity
  phase : Slot → ChatPhase

namespace Traffic

variable {Slot : Type} [DecidableEq Slot] {capacity : ℕ}

def empty : Traffic Slot capacity := ⟨.empty, fun _ => .gone⟩

/-- The pool after a step of the request of a slot; a checkout waits while no
connection is left. -/
def use (traffic : Traffic Slot capacity) (slot : Slot) :
    PoolUse → Option (Pool (Slot × ChatSession) capacity)
  | .none => some traffic.pool
  | .checkout session => traffic.pool.checkout (slot, session)
  | .release session => some (traffic.pool.release (slot, session))

/-- One step of one of the chat requests. -/
def next (traffic : Traffic Slot capacity) (event : Slot × ChatStep) :
    Option (Traffic Slot capacity) := do
  let (use, phase) ← (traffic.phase event.1).next event.2
  let pool ← traffic.use event.1 use
  some { pool, phase := Function.update traffic.phase event.1 phase }

abbrev Runs : Traffic Slot capacity → List (Slot × ChatStep) → Traffic Slot capacity → Prop :=
  Run fun traffic event traffic' => traffic.next event = some traffic'

/-- All connections are held by requests that wait for a further one. -/
def Deadlocked (traffic : Traffic Slot capacity) : Prop :=
  traffic.pool.Stuck Prod.fst fun slot => (traffic.phase slot).Waits

/-! ## Who holds a connection -/

/-- The connections are held by the sessions inside a transaction. -/
def Consistent (traffic : Traffic Slot capacity) : Prop :=
  ∀ slot session, (slot, session) ∈ traffic.pool.holders ↔
    (traffic.phase slot).holds session = true

section Spec

variable {traffic traffic' : Traffic Slot capacity} {trace : List (Slot × ChatStep)}

/-- A transition changes what is held by the use it makes of the pool. -/
theorem holds_of_next {phase phase' : ChatPhase} {step : ChatStep} {use : PoolUse}
    (h : phase.next step = some (use, phase')) (session : ChatSession) :
    phase'.holds session = true ↔ match use with
      | .none => phase.holds session = true
      | .checkout taken => session = taken ∨ phase.holds session = true
      | .release given => session ≠ given ∧ phase.holds session = true := by
  cases phase <;> cases step <;> cases h <;> cases session <;> decide

theorem next_eq_some {event : Slot × ChatStep} (h : traffic.next event = some traffic') :
    ∃ use phase pool, (traffic.phase event.1).next event.2 = some (use, phase) ∧
      traffic.use event.1 use = some pool ∧
      traffic' = ⟨pool, Function.update traffic.phase event.1 phase⟩ := by
  unfold next at h
  obtain ⟨⟨use, phase⟩, hphase, h⟩ := Option.bind_eq_some_iff.mp h
  obtain ⟨pool, hpool, h⟩ := Option.bind_eq_some_iff.mp h
  cases h
  exact ⟨use, phase, pool, hphase, hpool, rfl⟩

/-- The holders after a use of the pool. -/
theorem mem_of_use {slot other : Slot} {session : ChatSession} {use : PoolUse}
    {pool : Pool (Slot × ChatSession) capacity} (h : traffic.use slot use = some pool) :
    (other, session) ∈ pool.holders ↔ match use with
      | .none => (other, session) ∈ traffic.pool.holders
      | .checkout taken => (other = slot ∧ session = taken) ∨
          (other, session) ∈ traffic.pool.holders
      | .release given => ¬(other = slot ∧ session = given) ∧
          (other, session) ∈ traffic.pool.holders := by
  cases use with
  | none =>
      cases h
      rfl
  | checkout taken => rw [Pool.mem_of_checkout h, Prod.mk.injEq]
  | release given =>
      cases h
      rw [Pool.mem_release, ne_eq, Prod.mk.injEq]

theorem Consistent.step (h : traffic.Consistent) {event : Slot × ChatStep}
    (hnext : traffic.next event = some traffic') : traffic'.Consistent := by
  obtain ⟨use, phase, pool, hphase, hpool, rfl⟩ := next_eq_some hnext
  intro other session
  show (other, session) ∈ pool.holders ↔
    (Function.update traffic.phase event.1 phase other).holds session = true
  rw [mem_of_use hpool]
  rcases eq_or_ne other event.1 with rfl | hne
  · rw [Function.update_self, holds_of_next hphase]
    cases use <;> simp [h event.1 session]
  · rw [Function.update_of_ne hne, ← h other session]
    cases use <;> simp [hne]

theorem consistent_of_runs (hrun : Runs (empty : Traffic Slot capacity) trace traffic) :
    traffic.Consistent := by
  refine hrun.keeps (fun _ _ _ h hnext => h.step hnext) ?_
  intro slot session
  cases session <;> simp [empty, Pool.empty, ChatPhase.holds, ChatPhase.inPrincipal,
    ChatPhase.inStream]

/-! ## Deadlocks -/

/-- A waiting request holds the connection of `get_principal` and no other. -/
theorem Consistent.card_le_one (h : traffic.Consistent) {slot : Slot}
    (hwaits : (traffic.phase slot).Waits) :
    (traffic.pool.holders.filter fun held => held.1 = slot).card ≤ 1 := by
  have honly : traffic.pool.holders.filter (fun held => held.1 = slot) ⊆ {(slot, .principal)} := by
    rintro ⟨owner, session⟩ hheld
    obtain ⟨hmem, rfl⟩ := Finset.mem_filter.mp hheld
    have hholds := (h _ session).mp hmem
    cases session with
    | principal => exact Finset.mem_singleton_self _
    | stream =>
        rcases ChatPhase.waits_iff.mp hwaits with hphase | hphase
        · rw [show traffic.phase owner = .asking from hphase] at hholds
          cases hholds
        · rw [show traffic.phase owner = .answering from hphase] at hholds
          cases hholds
  exact (Finset.card_le_card honly).trans (Finset.card_singleton _).le

/-- A request that arrives and goes on until it streams. -/
theorem asking_of_gone {slot : Slot} (hgone : traffic.phase slot = .gone)
    (hfree : traffic.pool.holders.card < capacity) :
    ∃ traffic', Runs traffic [(slot, .arrive), (slot, .enter), (slot, .respond)] traffic' ∧
      traffic'.phase = Function.update traffic.phase slot .asking ∧
      traffic'.pool.holders = insert (slot, .principal) traffic.pool.holders := by
  obtain ⟨pool, hpool, hholders⟩ := Pool.exists_checkout hfree (slot, ChatSession.principal)
  refine ⟨⟨pool, Function.update traffic.phase slot .asking⟩, run_of_replay _ _ _ _ ?_, rfl,
    hholders⟩
  simp [replay, next, hgone, ChatPhase.next, use, hpool]

/-- Requests in as many slots as the pool has connections, all of which stream. -/
theorem asking_of_slots : ∀ slots : List Slot, slots.Nodup → slots.length ≤ capacity →
    ∃ trace, ∃ traffic : Traffic Slot capacity, Runs empty trace traffic ∧
      (∀ slot, traffic.phase slot = if slot ∈ slots then .asking else .gone) ∧
      traffic.pool.holders = slots.toFinset.image fun slot => (slot, .principal) := by
  intro slots
  induction slots with
  | nil => exact fun _ _ => ⟨[], empty, .nil, by simp [empty], rfl⟩
  | cons slot rest ih =>
      intro hnodup hlength
      obtain ⟨hnew, hnodup⟩ := List.nodup_cons.mp hnodup
      obtain ⟨trace, traffic, hrun, hphase, hholders⟩ :=
        ih hnodup ((Nat.le_succ _).trans hlength)
      have hgone : traffic.phase slot = .gone := (hphase slot).trans (if_neg hnew)
      have hfree : traffic.pool.holders.card < capacity := by
        calc traffic.pool.holders.card ≤ rest.toFinset.card := by
              rw [hholders]
              exact Finset.card_image_le
          _ ≤ rest.length := rest.toFinset_card_le
          _ < capacity := hlength
      obtain ⟨traffic', hrun', hphase', hholders'⟩ := asking_of_gone hgone hfree
      refine ⟨_, traffic', hrun.append hrun', fun other => ?_, ?_⟩
      · rw [hphase']
        rcases eq_or_ne other slot with rfl | hne
        · rw [Function.update_self, if_pos List.mem_cons_self]
        · rw [Function.update_of_ne hne, hphase other]
          simp only [List.mem_cons, hne, false_or]
      · rw [hholders', hholders, List.toFinset_cons, Finset.image_insert]

/-- The requests of as many slots as there are connections can block each other. -/
theorem deadlock_of_slots {slots : List Slot} (hnodup : slots.Nodup)
    (hlength : slots.length = capacity) :
    ∃ trace, ∃ traffic : Traffic Slot capacity, Runs empty trace traffic ∧ traffic.Deadlocked := by
  obtain ⟨trace, traffic, hrun, hphase, hholders⟩ := asking_of_slots slots hnodup hlength.le
  refine ⟨trace, traffic, hrun, ?_, fun held hheld => ?_⟩
  · have hinjective : Function.Injective fun slot : Slot => (slot, ChatSession.principal) :=
      fun _ _ heq => congrArg Prod.fst heq
    rw [Pool.Exhausted, hholders, Finset.card_image_of_injective _ hinjective,
      List.toFinset_card_of_nodup hnodup, hlength]
  · rw [hholders] at hheld
    obtain ⟨slot, hslot, rfl⟩ := Finset.mem_image.mp hheld
    refine ChatPhase.waits_iff.mpr (.inl ?_)
    exact (hphase slot).trans (if_pos (List.mem_toFinset.mp hslot))

/-- Chat requests never deadlock on the pool if and only if fewer are served at a
time than the pool has connections. -/
theorem deadlockFree_iff [Fintype Slot] :
    (∀ trace, ∀ traffic : Traffic Slot capacity, Runs empty trace traffic → ¬traffic.Deadlocked) ↔
      Fintype.card Slot < capacity := by
  constructor
  · intro hfree
    by_contra hmany
    have hlength : ((Finset.univ : Finset Slot).toList.take capacity).length = capacity := by
      rw [List.length_take, Finset.length_toList, Finset.card_univ]
      omega
    obtain ⟨trace, traffic, hrun, hdeadlocked⟩ := deadlock_of_slots
      ((Finset.nodup_toList Finset.univ).sublist (List.take_sublist _ _)) hlength
    exact hfree trace traffic hrun hdeadlocked
  · intro hfew trace traffic hrun
    refine Pool.not_stuck_of_card_lt
      (fun slot hwaits => (consistent_of_runs hrun).card_le_one hwaits) ?_
    rwa [Nat.one_mul]

/-- Fifteen requests at a time block each other on a pool of fifteen connections. -/
theorem deadlock_of_fifteen :
    ∃ trace, ∃ traffic : Traffic (Fin 15) 15, Runs empty trace traffic ∧ traffic.Deadlocked :=
  deadlock_of_slots (List.nodup_finRange 15) (List.length_finRange)

end Spec

end Traffic

end Api
