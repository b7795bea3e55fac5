import Mathlib.Data.List.Induction
import Mathlib.Order.Basic

/-!
# Runs of a labelled transition system

A run is a list of events together with the state they lead to.  Safety
properties are proved by `Run.invariant`, which carries the trace along: an
invariant may relate the state to everything that happened before it.
Properties of the form "once so, always so" are proved by `Run.preserves` on
the part of the run after the event in question, which `Run.split` cuts off.

A step given by a partial function can be replayed with `replay`; that is how
concrete runs are exhibited.
-/

namespace Foundations

variable {State Event : Type*}

/-- The runs of `step` from `start`: the events in order and the last state. -/
inductive Run (step : State → Event → State → Prop) (start : State) :
    List Event → State → Prop
  | nil : Run step start [] start
  | snoc {trace : List Event} {middle last : State} {event : Event} :
      Run step start trace middle → step middle event last →
        Run step start (trace ++ [event]) last

namespace Run

variable {step : State → Event → State → Prop} {start middle last : State}
  {trace before after : List Event}

/-- An assertion about trace and state that holds at the start and survives
every step taken from a reachable state holds at the end of every run. -/
theorem invariant {P : List Event → State → Prop} (hstart : P [] start)
    (hstep : ∀ trace middle event last, Run step start trace middle → P trace middle →
      step middle event last → P (trace ++ [event]) last)
    (hrun : Run step start trace last) : P trace last := by
  induction hrun with
  | nil => exact hstart
  | snoc hearlier hlast ih => exact hstep _ _ _ _ hearlier ih hlast

/-- As long as an assertion holds that every step keeps, the steps of a run may be
seen as steps of another system. -/
theorem transfer {step' : State → Event → State → Prop} {P : State → Prop} (hstart : P start)
    (hstep : ∀ middle event last, P middle → step middle event last →
      P last ∧ step' middle event last)
    (hrun : Run step start trace last) : P last ∧ Run step' start trace last := by
  induction hrun with
  | nil => exact ⟨hstart, nil⟩
  | snoc _ hlast ih =>
      obtain ⟨hlater, hlast'⟩ := hstep _ _ _ ih.1 hlast
      exact ⟨hlater, ih.2.snoc hlast'⟩

/-- The runs of a system are runs of a larger one. -/
theorem mono {step' : State → Event → State → Prop}
    (hstep : ∀ middle event last, step middle event last → step' middle event last)
    (hrun : Run step start trace last) : Run step' start trace last := by
  induction hrun with
  | nil => exact nil
  | snoc _ hlast ih => exact ih.snoc (hstep _ _ _ hlast)

/-- The runs that take one event are the steps. -/
theorem single {event : Event} (hstep : step start event last) :
    Run step start [event] last := by
  have hrun := nil.snoc hstep
  exact hrun

theorem of_single {event : Event} (hrun : Run step start [event] last) : step start event last := by
  generalize hwhole : [event] = whole at hrun
  cases hrun with
  | nil => cases hwhole
  | @snoc earlier _ _ _ hearlier hlast =>
      obtain ⟨rfl, hevent⟩ := List.append_inj' (show [] ++ [event] = _ from hwhole) rfl
      cases hevent
      generalize hnone : ([] : List Event) = before at hearlier
      cases hearlier with
      | nil => exact hlast
      | snoc => simp at hnone

theorem append (hbefore : Run step start before middle) (hafter : Run step middle after last) :
    Run step start (before ++ after) last := by
  induction hafter with
  | nil => simpa using hbefore
  | snoc _ hlast ih =>
      rw [← List.append_assoc]
      exact ih.snoc hlast

/-- A run is cut at any point of its trace. -/
theorem split (hrun : Run step start (before ++ after) last) :
    ∃ middle, Run step start before middle ∧ Run step middle after last := by
  induction after using List.reverseRecOn generalizing last with
  | nil => exact ⟨last, by simpa using hrun, nil⟩
  | append_singleton events event ih =>
      rw [← List.append_assoc] at hrun
      generalize hwhole : before ++ events ++ [event] = whole at hrun
      cases hrun with
      | nil => simp at hwhole
      | snoc hearlier hlast =>
          obtain ⟨rfl, hevent⟩ := List.append_inj' hwhole rfl
          cases hevent
          obtain ⟨middle, hbefore, hafter⟩ := ih hearlier
          exact ⟨middle, hbefore, hafter.snoc hlast⟩

/-- A reflexive and transitive relation kept by every step relates the ends of
every run. -/
theorem preserves {R : State → State → Prop} (hrefl : ∀ state, R state state)
    (htrans : ∀ first second third, R first second → R second third → R first third)
    (hstep : ∀ middle event last, step middle event last → R middle last)
    (hrun : Run step start trace last) : R start last := by
  induction hrun with
  | nil => exact hrefl _
  | snoc _ hlast ih => exact htrans _ _ _ ih (hstep _ _ _ hlast)

/-- Nothing follows where no step leads on. -/
theorem eq_nil_of_stuck (hstuck : ∀ event next, ¬step start event next)
    (hrun : Run step start trace last) : trace = [] := by
  have hsame : trace = [] ∧ last = start := by
    induction hrun with
    | nil => exact ⟨rfl, rfl⟩
    | snoc _ hlast ih =>
        obtain ⟨_, rfl⟩ := ih
        exact absurd hlast (hstuck _ _)
  exact hsame.1

/-- An event after which no step leads on is the last of its run. -/
theorem last_of_stuck {breaks : Event → Prop}
    (hstuck : ∀ state event state', step state event state' → breaks event →
      ∀ later next, ¬step state' later next)
    (hrun : Run step start trace last) {event : Event} (hearlier : before ++ [event] <+: trace)
    (hevent : breaks event) : trace = before ++ [event] := by
  obtain ⟨after, rfl⟩ := hearlier
  obtain ⟨state', hbroken, hafter⟩ := hrun.split
  obtain ⟨state, _, hlast⟩ := hbroken.split
  rw [hafter.eq_nil_of_stuck (hstuck state event state' hlast.of_single hevent), List.append_nil]

/-- A system whose steps are runs of another one: related states stay related. -/
theorem simulate {State' Event' : Type*} {step' : State' → Event' → State' → Prop}
    {R : State → State' → Prop}
    (hstep : ∀ state event next state', R state state' → step state event next →
      ∃ trace' next', Run step' state' trace' next' ∧ R next next')
    (hrun : Run step start trace last) {start' : State'} (hstart : R start start') :
    ∃ trace' last', Run step' start' trace' last' ∧ R last last' := by
  induction hrun with
  | nil => exact ⟨[], start', nil, hstart⟩
  | snoc _ hlast ih =>
      obtain ⟨before, middle', hbefore, hmiddle⟩ := ih
      obtain ⟨after, last', hafter, hrelated⟩ := hstep _ _ _ _ hmiddle hlast
      exact ⟨before ++ after, last', hbefore.append hafter, hrelated⟩

/-- A property of states kept by every step is kept by every run. -/
theorem keeps {P : State → Prop}
    (hstep : ∀ middle event last, P middle → step middle event last → P last)
    (hrun : Run step start trace last) (hstart : P start) : P last := by
  induction hrun with
  | nil => exact hstart
  | snoc _ hlast ih => exact hstep _ _ _ ih hlast

end Run

/-- The state a partial step function reaches on a list of events. -/
def replay (next : State → Event → Option State) : State → List Event → Option State
  | state, [] => some state
  | state, event :: rest => (next state event).bind fun state => replay next state rest

/-- A successful replay is a run. -/
theorem run_of_replay (next : State → Event → Option State) :
    ∀ (events : List Event) (start last : State), replay next start events = some last →
      Run (fun state event state' => next state event = some state') start events last := by
  intro events
  induction events with
  | nil =>
      intro start last h
      cases h
      exact Run.nil
  | cons event rest ih =>
      intro start last h
      simp only [replay, Option.bind_eq_some_iff] at h
      obtain ⟨middle, hfirst, hrest⟩ := h
      exact Run.append (Run.single hfirst) (ih _ _ hrest)

/-- A run of a partial function is its replay. -/
theorem replay_of_run {next : State → Event → Option State} {start last : State}
    {trace : List Event}
    (hrun : Run (fun state event state' => next state event = some state') start trace last) :
    replay next start trace = some last := by
  have hsnoc : ∀ (events : List Event) (event : Event) (first : State),
      replay next first (events ++ [event]) =
        (replay next first events).bind fun state => next state event := by
    intro events event
    induction events with
    | nil =>
        intro first
        cases hnext : next first event <;> simp [replay, hnext]
    | cons head rest ih =>
        intro first
        cases hnext : next first head <;> simp [replay, hnext, ih]
  induction hrun with
  | nil => rfl
  | snoc _ hlast ih => rw [hsnoc, ih, Option.bind_some, hlast]

/-- A partial function leads from a state along a trace to one state at most. -/
theorem Run.unique {next : State → Event → Option State} {start first second : State}
    {trace : List Event}
    (hfirst : Run (fun state event state' => next state event = some state') start trace first)
    (hsecond : Run (fun state event state' => next state event = some state') start trace second) :
    first = second :=
  Option.some.inj ((replay_of_run hfirst).symm.trans (replay_of_run hsecond))

/-- The step a run takes after a part of its trace, and the rest of the run. -/
theorem Run.next_of_prefix {next : State → Event → Option State} {start state last : State}
    {before trace : List Event} {event : Event}
    (hrun : Run (fun state event state' => next state event = some state') start trace last)
    (hearlier : before ++ [event] <+: trace)
    (hstate : Run (fun state event state' => next state event = some state') start before state) :
    ∃ after rest, next state event = some after ∧ trace = before ++ [event] ++ rest ∧
      Run (fun state event state' => next state event = some state') after rest last := by
  obtain ⟨rest, rfl⟩ := hearlier
  obtain ⟨after, hafter, hrest⟩ := hrun.split
  obtain ⟨middle, hmiddle, hevent⟩ := hafter.split
  cases hmiddle.unique hstate
  refine ⟨after, rest, ?_, rfl, hrest⟩
  have hreplay := replay_of_run hevent
  cases hnext : next state event with
  | none => simp [replay, hnext] at hreplay
  | some found => simpa [replay, hnext] using hreplay

/-! ## Interruptions -/

/-- Whenever a trace breaks off after an event that costs something, the record of
it was made before. -/
def Uninterrupted (costs records breaks : Event → Prop) (trace : List Event) : Prop :=
  ∀ before event, before ++ [event] <+: trace → breaks event → (∃ cost ∈ before, costs cost) →
    ∃ record ∈ before, records record

/-- In a trace that is over, what costs is recorded exactly if nothing breaks off
in between. -/
theorem recorded_iff_uninterrupted {costs records breaks : Event → Prop} {trace : List Event}
    (hfinal : ∀ before event, before ++ [event] <+: trace → breaks event → trace = before ++ [event])
    (hover : (∃ event ∈ trace, records event) ∨ ∃ event ∈ trace, breaks event)
    (hbreaks : ∀ event, breaks event → ¬costs event ∧ ¬records event) :
    ((∃ cost ∈ trace, costs cost) → ∃ record ∈ trace, records record) ↔
      Uninterrupted costs records breaks trace := by
  constructor
  · intro hrecorded before event hearlier hevent hcost
    have htrace := hfinal before event hearlier hevent
    obtain ⟨cost, hcost, hcosts⟩ := hcost
    obtain ⟨record, hrecord, hrecords⟩ :=
      hrecorded ⟨cost, hearlier.subset (List.mem_append_left _ hcost), hcosts⟩
    rw [htrace] at hrecord
    rcases List.mem_append.mp hrecord with hbefore | hlast
    · exact ⟨record, hbefore, hrecords⟩
    · cases List.mem_singleton.mp hlast
      exact absurd hrecords (hbreaks _ hevent).2
  · rintro huninterrupted ⟨cost, hcost, hcosts⟩
    rcases hover with hrecorded | ⟨event, hmem, hevent⟩
    · exact hrecorded
    · obtain ⟨before, after, rfl⟩ := List.append_of_mem hmem
      have hearlier : before ++ [event] <+: before ++ event :: after := ⟨after, by simp⟩
      have htrace := hfinal before event hearlier hevent
      rw [htrace] at hcost
      rcases List.mem_append.mp hcost with hbefore | hlast
      · obtain ⟨record, hrecord, hrecords⟩ :=
          huninterrupted before event hearlier hevent ⟨cost, hbefore, hcosts⟩
        exact ⟨record, List.mem_append_left _ hrecord, hrecords⟩
      · cases List.mem_singleton.mp hlast
        exact absurd hcosts (hbreaks _ hevent).1

end Foundations
