import KnowledgePlatform.Core.Usage
import KnowledgePlatform.Foundations.Runs

/-!
# Budget alerts

The alerts an organization receives in one calendar month, first for chat turns
whose transactions interleave, then for chat turns and ingestions one after the
other.

Concurrent turns read the total of the month in one statement and commit their
event in a later one.  A commit is *timely* when the crossing test on the total
the turn has read agrees with the test on the total committed by then.  The
alerts are exactly the crossing of the budget as long as every commit is timely
(`Ledger.Matches`), and the first commit that is not timely breaks this for good:
it loses the alert or sends a second one.

In the sequential part only chat turns look at the crossing, and they test the
cost as computed while the column stores it rounded.  A step is *aligned* when
neither makes a difference.
-/

open Foundations Python Relational

namespace Core

/-! ## Interleaved chat turns -/

/-- How far the transaction of a turn has come. -/
inductive TurnPhase
  | idle
  | summed (priorCost : ℚ)
  | inserted (priorCost : ℚ) (event : UsageEvent)
  | ended
  deriving DecidableEq

/-- The committed usage events, the transactions of the turns, the turns that
have to enqueue an alert and those that have enqueued one. -/
structure Ledger where
  events : List UsageEvent
  turns : ℕ → TurnPhase
  due : List ℕ
  alerts : List ℕ

/-- The statements of the turns. -/
inductive LedgerEvent
  | sum (turn : ℕ) (now : Time)
  | insert (turn : ℕ) (usage : UsageRecord) (costUsd : Numeric 12 6) (id : Uuid) (createdAt : Time)
  | commit (turn : ℕ)
  | enqueue (turn : ℕ)
  | abort (turn : ℕ)

namespace Ledger

/-- The committed cost of the month. -/
def total (orgId : Uuid) (month : Time) (ledger : Ledger) : ℚ :=
  monthToDate orgId month ledger.events

/-- The transaction of a turn moves on. -/
def move (ledger : Ledger) (turn : ℕ) (phase : TurnPhase) : Ledger :=
  { ledger with turns := Function.update ledger.turns turn phase }

/-- The transaction of a turn commits; a turn that crossed the budget has an
alert to enqueue. -/
def commit (ledger : Ledger) (turn : ℕ) (event : UsageEvent) (crossed : Bool) : Ledger where
  events := ledger.events ++ [event]
  turns := Function.update ledger.turns turn .ended
  due := if crossed then ledger.due ++ [turn] else ledger.due
  alerts := ledger.alerts

/-- One statement.  A statement sees what is committed and what its own
transaction has written; an event of an open transaction counts for no other. -/
def next (orgId : Uuid) (month : Time) (budget : Numeric 12 2) (ledger : Ledger) :
    LedgerEvent → Option Ledger
  | .sum turn now =>
      if ledger.turns turn = .idle ∧ now.monthStart = month then
        some (ledger.move turn (.summed (monthToDate orgId now.monthStart ledger.events)))
      else none
  | .insert turn usage costUsd id createdAt =>
      match ledger.turns turn with
      | .summed priorCost =>
          if 0 ≤ costUsd.unscaled ∧ createdAt.monthStart = month then
            some (ledger.move turn (.inserted priorCost (usage.event orgId costUsd id createdAt)))
          else none
      | _ => none
  | .commit turn =>
      match ledger.turns turn with
      | .inserted priorCost event =>
          some (ledger.commit turn event
            (budgetCrossed (some budget) priorCost event.costUsd.toRat))
      | _ => none
  | .enqueue turn =>
      if turn ∈ ledger.due then
        some { ledger with due := ledger.due.erase turn, alerts := ledger.alerts ++ [turn] }
      else none
  | .abort turn =>
      match ledger.turns turn with
      | .summed _ | .inserted _ _ => some (ledger.move turn .ended)
      | _ => none

/-- The month before any of the turns, with the budget not reached. -/
structure Start (orgId : Uuid) (month : Time) (budget : Numeric 12 2) (ledger : Ledger) : Prop where
  idle : ∀ turn, ledger.turns turn = .idle
  due : ledger.due = []
  alerts : ledger.alerts = []
  below : ledger.total orgId month < budget.toRat

/-- At most one alert, and exactly one once the budget is reached and no alert
is still to be enqueued. -/
def ExactlyOnce (orgId : Uuid) (month : Time) (budget : Numeric 12 2) (ledger : Ledger) : Prop :=
  ledger.alerts.length ≤ 1 ∧
    (ledger.due = [] → budget.toRat ≤ ledger.total orgId month → ledger.alerts.length = 1)

/-- If the turn commits now, its crossing test agrees with the test on what is
committed. -/
def Timely (orgId : Uuid) (month : Time) (budget : Numeric 12 2) (ledger : Ledger) (turn : ℕ) :
    Prop :=
  ∀ priorCost event, ledger.turns turn = .inserted priorCost event →
    budgetCrossed (some budget) priorCost event.costUsd.toRat =
      budgetCrossed (some budget) (ledger.total orgId month) event.costUsd.toRat

/-- The runs of the turns. -/
abbrev Runs (orgId : Uuid) (month : Time) (budget : Numeric 12 2) :
    Ledger → List LedgerEvent → Ledger → Prop :=
  Run fun ledger event ledger' => next orgId month budget ledger event = some ledger'

section Next

variable {orgId : Uuid} {month : Time} {budget : Numeric 12 2} {ledger ledger' : Ledger} {turn : ℕ}

theorem next_sum {now : Time} : next orgId month budget ledger (.sum turn now) = some ledger' ↔
    ledger.turns turn = .idle ∧ now.monthStart = month ∧
      ledger' = ledger.move turn (.summed (ledger.total orgId month)) := by
  simp only [next, Option.ite_none_right_eq_some, Option.some_inj, and_assoc, total]
  refine and_congr_right fun _ => and_congr_right fun hmonth => ?_
  rw [hmonth, eq_comm]

theorem next_insert {usage : UsageRecord} {costUsd : Numeric 12 6} {id : Uuid} {createdAt : Time} :
    next orgId month budget ledger (.insert turn usage costUsd id createdAt) = some ledger' ↔
      ∃ priorCost, ledger.turns turn = .summed priorCost ∧ 0 ≤ costUsd.unscaled ∧
        createdAt.monthStart = month ∧ ledger' =
          ledger.move turn (.inserted priorCost (usage.event orgId costUsd id createdAt)) := by
  cases hphase : ledger.turns turn <;> simp [next, hphase, and_assoc, @eq_comm _ ledger']

theorem next_commit : next orgId month budget ledger (.commit turn) = some ledger' ↔
    ∃ priorCost event, ledger.turns turn = .inserted priorCost event ∧
      ledger' = ledger.commit turn event
        (budgetCrossed (some budget) priorCost event.costUsd.toRat) := by
  cases hphase : ledger.turns turn with
  | inserted priorCost event => simp [next, hphase, @eq_comm _ ledger']
  | _ => simp [next, hphase]

theorem next_enqueue : next orgId month budget ledger (.enqueue turn) = some ledger' ↔
    turn ∈ ledger.due ∧ ledger' = { ledger with
      due := ledger.due.erase turn
      alerts := ledger.alerts ++ [turn] } := by
  simp [next, @eq_comm _ ledger']

theorem next_abort (h : next orgId month budget ledger (.abort turn) = some ledger') :
    ledger' = ledger.move turn .ended := by
  cases hphase : ledger.turns turn <;> simp_all [next]

end Next

/-! ### What holds of every run -/

/-- What an open transaction has read is at most what is committed, and the
event it has inserted has a cost and counts. -/
def PhaseSane (orgId : Uuid) (month : Time) (total : ℚ) : TurnPhase → Prop
  | .summed priorCost => priorCost ≤ total
  | .inserted priorCost event => priorCost ≤ total ∧ 0 ≤ event.costUsd.toRat ∧
      countsToward orgId month event = true
  | .idle | .ended => True

/-- Every transaction is sane. -/
def Sane (orgId : Uuid) (month : Time) (ledger : Ledger) : Prop :=
  ∀ turn, PhaseSane orgId month (ledger.total orgId month) (ledger.turns turn)

variable {orgId : Uuid} {month : Time} {budget : Numeric 12 2} {ledger ledger' start last : Ledger}
  {trace : List LedgerEvent}

theorem PhaseSane.mono {total total' : ℚ} (hle : total ≤ total') {phase : TurnPhase}
    (h : PhaseSane orgId month total phase) : PhaseSane orgId month total' phase := by
  cases phase with
  | idle => trivial
  | summed priorCost => exact h.trans hle
  | inserted priorCost event => exact ⟨h.1.trans hle, h.2⟩
  | ended => trivial

theorem Sane.move (h : Sane orgId month ledger) {turn : ℕ} {phase : TurnPhase}
    (hphase : PhaseSane orgId month (ledger.total orgId month) phase) :
    Sane orgId month (ledger.move turn phase) := by
  intro other
  by_cases hother : other = turn
  · subst hother
    simpa [Ledger.move, Ledger.total] using hphase
  · simpa [Ledger.move, Ledger.total, hother] using h other

/-- A commit adds the cost of the event to the total of the month. -/
theorem total_commit {turn : ℕ} {event : UsageEvent} {crossed : Bool}
    (hcounts : countsToward orgId month event = true) :
    (ledger.commit turn event crossed).total orgId month =
      ledger.total orgId month + event.costUsd.toRat := by
  rw [total, commit, monthToDate_append, monthToDate_singleton hcounts, total]

theorem Sane.next (h : Sane orgId month ledger) {event : LedgerEvent}
    (hnext : next orgId month budget ledger event = some ledger') : Sane orgId month ledger' := by
  cases event with
  | sum turn now =>
      obtain ⟨_, _, rfl⟩ := next_sum.mp hnext
      exact h.move le_rfl
  | insert turn usage costUsd id createdAt =>
      obtain ⟨priorCost, hphase, hcost, rfl, rfl⟩ := next_insert.mp hnext
      have hprior := h turn
      rw [hphase] at hprior
      refine h.move ⟨hprior, ?_, countsToward_event⟩
      exact div_nonneg (by exact_mod_cast hcost) (by positivity)
  | commit turn =>
      obtain ⟨priorCost, event, hphase, rfl⟩ := next_commit.mp hnext
      have hturn := h turn
      rw [hphase] at hturn
      obtain ⟨_, hcost, hcounts⟩ := hturn
      intro other
      rw [total_commit hcounts]
      have hmoved : Sane orgId month (ledger.move turn .ended) := h.move trivial
      exact (hmoved other).mono (le_add_of_nonneg_right hcost)
  | enqueue turn =>
      obtain ⟨_, rfl⟩ := next_enqueue.mp hnext
      exact h
  | abort turn =>
      rw [next_abort hnext]
      exact h.move trivial

theorem Start.sane (hstart : Start orgId month budget start) : Sane orgId month start := by
  intro turn
  rw [hstart.idle turn]
  trivial

theorem sane_of_runs (hstart : Start orgId month budget start)
    (hrun : Runs orgId month budget start trace last) : Sane orgId month last :=
  hrun.keeps (P := Sane orgId month) (fun _ _ _ h hnext => h.next hnext) hstart.sane

/-! ### Timely commits -/

/-- The alerts, enqueued or due, are the crossing of the budget. -/
def Matches (orgId : Uuid) (month : Time) (budget : Numeric 12 2) (ledger : Ledger) : Prop :=
  ledger.alerts.length + ledger.due.length =
    if budget.toRat ≤ ledger.total orgId month then 1 else 0

theorem Matches.exactlyOnce (h : Matches orgId month budget ledger) :
    ExactlyOnce orgId month budget ledger := by
  unfold Matches at h
  constructor
  · split at h <;> omega
  · intro hdue hreached
    rw [if_pos hreached, hdue] at h
    exact h

/-- Every commit of the trace is timely in the state it is made in. -/
def TimelyTrace (orgId : Uuid) (month : Time) (budget : Numeric 12 2) (start : Ledger)
    (trace : List LedgerEvent) : Prop :=
  ∀ before turn state, before ++ [.commit turn] <+: trace →
    Runs orgId month budget start before state → Timely orgId month budget state turn

/-- A timely commit adds an alert when it crosses the budget, and only then. -/
theorem Matches.next (h : Matches orgId month budget ledger) (hsane : Sane orgId month ledger)
    {event : LedgerEvent} (hnext : next orgId month budget ledger event = some ledger')
    (htimely : ∀ turn, event = .commit turn → Timely orgId month budget ledger turn) :
    Matches orgId month budget ledger' := by
  cases event with
  | sum turn now =>
      obtain ⟨_, _, rfl⟩ := next_sum.mp hnext
      exact h
  | insert turn usage costUsd id createdAt =>
      obtain ⟨priorCost, _, _, _, rfl⟩ := next_insert.mp hnext
      exact h
  | commit turn =>
      obtain ⟨priorCost, event, hphase, rfl⟩ := next_commit.mp hnext
      have hturn := hsane turn
      rw [hphase] at hturn
      obtain ⟨_, hcost, hcounts⟩ := hturn
      rw [htimely turn rfl priorCost event hphase]
      unfold Matches at h ⊢
      rw [total_commit hcounts]
      by_cases hcrossed : budgetCrossed (some budget) (ledger.total orgId month)
          event.costUsd.toRat = true
      · obtain ⟨hbelow, hreached⟩ := budgetCrossed_iff.mp hcrossed
        rw [if_neg (not_le.mpr hbelow)] at h
        simp only [commit, if_pos hcrossed, if_pos hreached, List.length_append,
          List.length_singleton]
        omega
      · simp only [commit, if_neg hcrossed, h]
        rw [budgetCrossed_iff, not_and, not_le] at hcrossed
        by_cases hreached : budget.toRat ≤ ledger.total orgId month
        · rw [if_pos hreached, if_pos (hreached.trans (le_add_of_nonneg_right hcost))]
        · rw [if_neg hreached, if_neg (not_le.mpr (hcrossed (not_le.mp hreached)))]
  | enqueue turn =>
      obtain ⟨hdue, rfl⟩ := next_enqueue.mp hnext
      have hpositive := List.length_pos_of_mem hdue
      unfold Matches at h ⊢
      change (ledger.alerts ++ [turn]).length + (ledger.due.erase turn).length =
        if budget.toRat ≤ ledger.total orgId month then 1 else 0
      rw [← h, List.length_append, List.length_singleton, List.length_erase_of_mem hdue]
      omega
  | abort turn =>
      rw [next_abort hnext]
      exact h

theorem Start.matches (hstart : Start orgId month budget start) :
    Matches orgId month budget start := by
  unfold Matches
  rw [hstart.alerts, hstart.due, if_neg (not_le.mpr hstart.below)]
  rfl

theorem matches_of_timelyTrace (hstart : Start orgId month budget start)
    (hrun : Runs orgId month budget start trace last)
    (htimely : TimelyTrace orgId month budget start trace) : Matches orgId month budget last := by
  induction hrun with
  | nil => exact hstart.matches
  | @snoc trace middle last event hearlier hlast ih =>
      have hmatches := ih fun before turn state hbefore =>
        htimely before turn state (hbefore.trans (List.prefix_append _ _))
      refine hmatches.next (sane_of_runs hstart hearlier) hlast fun turn hcommit => ?_
      subst hcommit
      exact htimely trace turn middle List.prefix_rfl hearlier

/-- The alerts that are due can be enqueued one after the other. -/
theorem exists_settled (ledger : Ledger) : ∃ settled,
    Runs orgId month budget ledger (ledger.due.map LedgerEvent.enqueue) settled ∧
      settled.due = [] ∧ settled.alerts = ledger.alerts ++ ledger.due ∧
      settled.events = ledger.events := by
  obtain ⟨events, turns, due, alerts⟩ := ledger
  induction due generalizing alerts with
  | nil => exact ⟨_, Run.nil, rfl, by simp, rfl⟩
  | cons turn due ih =>
      obtain ⟨settled, hrun, hdue, halerts, hevents⟩ := ih (alerts ++ [turn])
      have hfirst : next orgId month budget ⟨events, turns, turn :: due, alerts⟩ (.enqueue turn) =
          some ⟨events, turns, due, alerts ++ [turn]⟩ := by
        simp [Ledger.next]
      exact ⟨settled, (Run.single hfirst).append hrun, hdue, by simpa using halerts, hevents⟩

/-- A commit that is not timely makes too many alerts, or too few. -/
theorem not_exactlyOnce_of_not_timely (hsane : Sane orgId month ledger)
    (hmatches : Matches orgId month budget ledger) {turn : ℕ}
    (hnext : next orgId month budget ledger (.commit turn) = some ledger')
    (hlate : ¬Timely orgId month budget ledger turn) : ∃ settled,
      Runs orgId month budget ledger' (ledger'.due.map LedgerEvent.enqueue) settled ∧
        ¬ExactlyOnce orgId month budget settled := by
  obtain ⟨priorCost, event, hphase, rfl⟩ := next_commit.mp hnext
  obtain ⟨settled, hrun, hdue, halerts, hevents⟩ := exists_settled
    (ledger.commit turn event (budgetCrossed (some budget) priorCost event.costUsd.toRat))
  refine ⟨settled, hrun, fun hexact => ?_⟩
  have hturn := hsane turn
  rw [hphase] at hturn
  obtain ⟨hprior, _, hcounts⟩ := hturn
  have htotal : settled.total orgId month = ledger.total orgId month + event.costUsd.toRat := by
    rw [total, hevents]
    exact total_commit hcounts
  have hlength : settled.alerts.length = ledger.alerts.length +
      if budgetCrossed (some budget) priorCost event.costUsd.toRat then ledger.due.length + 1
      else ledger.due.length := by
    rw [halerts, List.length_append]
    cases budgetCrossed (some budget) priorCost event.costUsd.toRat <;> simp [commit]
  have hdiffer : budgetCrossed (some budget) priorCost event.costUsd.toRat ≠
      budgetCrossed (some budget) (ledger.total orgId month) event.costUsd.toRat := by
    intro hagrees
    refine hlate fun priorCost' event' hphase' => ?_
    rw [hphase] at hphase'
    cases hphase'
    exact hagrees
  unfold Matches at hmatches
  cases hcrossed : budgetCrossed (some budget) priorCost event.costUsd.toRat with
  | true =>
      -- the turn sees itself crossing a budget that was reached before
      obtain ⟨_, hreached⟩ := budgetCrossed_iff.mp hcrossed
      have hbefore : budget.toRat ≤ ledger.total orgId month := by
        by_contra hbelow
        refine hdiffer (hcrossed.trans (budgetCrossed_iff.mpr ⟨not_le.mp hbelow, ?_⟩).symm)
        exact hreached.trans (add_le_add_left hprior _)
      rw [if_pos hbefore] at hmatches
      rw [if_pos hcrossed] at hlength
      have honce := hexact.1
      omega
  | false =>
      -- the turn crosses the budget without seeing it
      rw [hcrossed] at hdiffer hlength
      obtain ⟨hbelow, hreached⟩ := budgetCrossed_iff.mp (Bool.eq_true_of_not_eq_false hdiffer.symm)
      rw [if_neg (not_le.mpr hbelow)] at hmatches
      have honce := hexact.2 hdue (htotal ▸ hreached)
      simp only [Bool.false_eq_true, if_false] at hlength
      omega

/-- If every state passed through is right once its due alerts are enqueued,
every commit was timely. -/
theorem timelyTrace_of_exactlyOnce (hstart : Start orgId month budget start)
    (hrun : Runs orgId month budget start trace last)
    (hexact : ∀ before enqueues state, before <+: trace →
      (∀ event ∈ enqueues, ∃ turn, event = .enqueue turn) →
        Runs orgId month budget start (before ++ enqueues) state →
          ExactlyOnce orgId month budget state) :
    TimelyTrace orgId month budget start trace := by
  intro before
  induction hlength : before.length using Nat.strong_induction_on generalizing before with
  | _ length ih =>
      intro turn state hbefore hstate
      by_contra hlate
      -- the commits before this one are timely
      have hearlier : TimelyTrace orgId month budget start before := by
        intro before' turn' state' hbefore' hstate'
        refine ih before'.length ?_ before' rfl turn' state' ?_ hstate'
        · have hle := hbefore'.length_le
          rw [List.length_append, List.length_singleton] at hle
          omega
        · exact hbefore'.trans ((List.prefix_append _ _).trans hbefore)
      obtain ⟨committed, rest, hnext, rfl, _⟩ := hrun.next_of_prefix hbefore hstate
      obtain ⟨settled, hsettled, hnot⟩ := not_exactlyOnce_of_not_timely
        (sane_of_runs hstart hstate) (matches_of_timelyTrace hstart hstate hearlier) hnext hlate
      refine hnot (hexact (before ++ [.commit turn]) _ settled (List.prefix_append _ _) ?_
        ((hstate.snoc hnext).append hsettled))
      intro event hevent
      obtain ⟨due, _, rfl⟩ := List.mem_map.mp hevent
      exact ⟨due, rfl⟩

/-- Alerts are exactly-once in every state a run passes through, once the due
alerts are enqueued, if and only if each of its commits is timely: the crossing
test on the total the turn has read gives what it gives on the total committed
at that moment. -/
theorem exactlyOnce_iff_timely (hstart : Start orgId month budget start)
    (hrun : Runs orgId month budget start trace last) :
    (∀ before enqueues state, before <+: trace →
      (∀ event ∈ enqueues, ∃ turn, event = LedgerEvent.enqueue turn) →
        Runs orgId month budget start (before ++ enqueues) state →
          ExactlyOnce orgId month budget state) ↔
      ∀ before turn state, before ++ [.commit turn] <+: trace →
        Runs orgId month budget start before state → Timely orgId month budget state turn := by
  constructor
  · exact timelyTrace_of_exactlyOnce hstart hrun
  · intro htimely before enqueues state hbefore henqueues hstate
    refine (matches_of_timelyTrace hstart hstate ?_).exactlyOnce
    intro earlier turn middle hshorter hmiddle
    refine htimely earlier turn middle (List.IsPrefix.trans ?_ hbefore) hmiddle
    -- the commit lies before the enqueues
    rcases List.prefix_or_prefix_of_prefix hshorter (List.prefix_append before enqueues) with
      hwithin | hbeyond
    · exact hwithin
    rcases List.prefix_concat_iff.mp hbeyond with rfl | ⟨skipped, rfl⟩
    · exact List.prefix_rfl
    rw [List.append_assoc, List.prefix_append_right_inj] at hshorter
    obtain ⟨due, hdue⟩ := henqueues (.commit turn) (hshorter.subset (by simp))
    cases hdue

/-- A month without events. -/
def empty : Ledger := ⟨[], fun _ => .idle, [], []⟩

theorem start_empty (hbudget : 0 < budget.toRat) : Start orgId month budget empty where
  idle := fun _ => rfl
  due := rfl
  alerts := rfl
  below := hbudget

/-- A generation of the free model. -/
def stubUsage : UsageRecord where
  userId := none
  kind := .generation
  provider := "stub".toList
  model := "stub".toList
  inputTokens := 1
  outputTokens := 1

/-- A budget of ten dollars. -/
def tenDollars : Numeric 12 2 := ⟨1000, by decide⟩

/-- Six dollars, and twelve. -/
def sixDollars : Numeric 12 6 := ⟨6000000, by decide⟩

def twelveDollars : Numeric 12 6 := ⟨12000000, by decide⟩

/-- Two turns of one cost that both read the total before either commits. -/
def overlappingTurns (costUsd : Numeric 12 6) : List LedgerEvent :=
  [.sum 0 0, .sum 1 0, .insert 0 stubUsage costUsd 2 0, .insert 1 stubUsage costUsd 3 0, .commit 0,
    .commit 1]

/-- The turns one after the other. -/
def consecutiveTurns (costUsd : Numeric 12 6) : List LedgerEvent :=
  [.sum 0 0, .insert 0 stubUsage costUsd 2 0, .commit 0, .sum 1 0,
    .insert 1 stubUsage costUsd 3 0, .commit 1]

theorem exactlyOnce_iff_timely_consecutive : ∃ last,
    Runs 1 0 tenDollars empty (consecutiveTurns sixDollars) last ∧
    ((∀ before enqueues state, before <+: consecutiveTurns sixDollars →
      (∀ event ∈ enqueues, ∃ turn, event = LedgerEvent.enqueue turn) →
        Runs 1 0 tenDollars empty (before ++ enqueues) state →
          ExactlyOnce 1 0 tenDollars state) ↔
      ∀ before turn state, before ++ [.commit turn] <+: consecutiveTurns sixDollars →
        Runs 1 0 tenDollars empty before state → Timely 1 0 tenDollars state turn) := by
  have hreplay : (replay (next 1 0 tenDollars) empty (consecutiveTurns sixDollars)).isSome =
      true := by decide +kernel
  obtain ⟨last, hlast⟩ := Option.isSome_iff_exists.mp hreplay
  have hrun := run_of_replay _ _ _ _ hlast
  exact ⟨last, hrun, exactlyOnce_iff_timely (start_empty (by decide +kernel)) hrun⟩

/-- Two overlapping turns of six dollars lose the alert of a budget of ten; two
of twelve dollars send it twice. -/
theorem overlappingTurns_break_alerts :
    Start 1 0 tenDollars empty ∧
    (∃ last, Runs 1 0 tenDollars empty (overlappingTurns sixDollars) last ∧
      ¬ExactlyOnce 1 0 tenDollars last) ∧
    ∃ last, Runs 1 0 tenDollars empty
        (overlappingTurns twelveDollars ++ [.enqueue 0, .enqueue 1]) last ∧
      ¬ExactlyOnce 1 0 tenDollars last := by
  refine ⟨start_empty (by decide +kernel), ?_, ?_⟩
  · have hreplay : (replay (next 1 0 tenDollars) empty (overlappingTurns sixDollars)).map
        (fun last => (last.alerts, last.due, decide (tenDollars.toRat ≤ last.total 1 0))) =
          some ([], [], true) := by decide +kernel
    obtain ⟨last, hlast, hfinal⟩ := Option.map_eq_some_iff.mp hreplay
    simp only [Prod.mk.injEq, decide_eq_true_eq] at hfinal
    obtain ⟨halerts, hdue, hreached⟩ := hfinal
    refine ⟨last, run_of_replay _ _ _ _ hlast, fun hexact => ?_⟩
    have honce := hexact.2 hdue hreached
    rw [halerts] at honce
    cases honce
  · have hreplay : (replay (next 1 0 tenDollars) empty
        (overlappingTurns twelveDollars ++ [.enqueue 0, .enqueue 1])).map
          (fun last => last.alerts) = some [0, 1] := by decide +kernel
    obtain ⟨last, hlast, halerts⟩ := Option.map_eq_some_iff.mp hreplay
    refine ⟨last, run_of_replay _ _ _ _ hlast, fun hexact => ?_⟩
    have honce := hexact.1
    rw [halerts] at honce
    exact absurd honce (by decide)

/-! ### The statements of `recordUsage` -/

/-- Executed without interruption, the statements of a turn do what
`recordUsage` and the commit do. -/
theorem recordUsage_refines {conn conn' : Conn} {usage : UsageRecord} {costUsd : Numeric 12 6}
    {id : Uuid} {now : Time} {event : UsageEvent} {crossed : Bool} {turn : ℕ}
    (hrole : conn.role = .appUser) (horg : conn.currentOrg = some orgId)
    (hrun : (recordUsage orgId usage costUsd.toRat id now).Runs conn (event, crossed) conn')
    (hbudget : storedBudget orgId conn.db = some budget) (hcost : 0 ≤ costUsd.unscaled)
    (hnow : now.monthStart = month) (hstarted : conn.now.monthStart = month)
    (hevents : ledger.events = conn.db .usageEvents) (hidle : ledger.turns turn = .idle) :
    ∃ ledger', Runs orgId month budget ledger
        [.sum turn now, .insert turn usage costUsd id conn.now, .commit turn] ledger' ∧
      ledger'.events = conn'.db .usageEvents ∧
      ledger'.due = if crossed then ledger.due ++ [turn] else ledger.due := by
  obtain ⟨stored, hstored, rfl, hwrote, rfl⟩ := recordUsage_eq_ok hrole horg hrun
  rw [Numeric.ofRat?_toRat] at hstored
  cases hstored
  have hsum : next orgId month budget ledger (.sum turn now) = some _ :=
    next_sum.mpr ⟨hidle, hnow, rfl⟩
  have hinsert : next orgId month budget (ledger.move turn (.summed (ledger.total orgId month)))
      (.insert turn usage costUsd id conn.now) = some _ :=
    next_insert.mpr ⟨_, Function.update_self .., hcost, hstarted, rfl⟩
  have hcommit : next orgId month budget (((ledger.move turn (.summed
      (ledger.total orgId month)))).move turn (.inserted (ledger.total orgId month)
        (usage.event orgId costUsd id conn.now))) (.commit turn) = some _ :=
    next_commit.mpr ⟨_, _, Function.update_self .., rfl⟩
  refine ⟨_, ((Run.single hsum).snoc hinsert).snoc hcommit, ?_, ?_⟩
  · rw [hwrote.insert.1, Database.insert_self, ← hevents]
    rfl
  · rw [hbudget, hnow, ← hevents]
    rfl

end Ledger

/-! ## Chat turns and ingestions in sequence -/

/-- The database and the number of alerts enqueued so far in the month. -/
structure Account where
  db : Database
  alerts : ℕ

/-- The storing transaction of a chat turn or of an ingestion. -/
inductive Activity
  | chatTurn (userId conversationId : Uuid) (provider model : Str) (inputTokens outputTokens : ℕ)
      (id : Uuid) (started now : Time)
  | ingestion (documentId : Uuid) (provider model : Str) (totalTokens : ℕ)
      (id : Uuid) (started now : Time)

namespace Activity

/-- Whether the activity is a chat turn. -/
def isChat : Activity → Bool
  | chatTurn .. => true
  | ingestion .. => false

/-- What is recorded. -/
def usage : Activity → UsageRecord
  | chatTurn userId conversationId provider model inputTokens outputTokens _ _ _ =>
      { userId := some userId, kind := .generation, provider, model, inputTokens, outputTokens,
        conversationId := some conversationId }
  | ingestion documentId provider model totalTokens _ _ _ =>
      { userId := none, kind := .embedding, provider, model, inputTokens := totalTokens,
        outputTokens := 0, documentId := some documentId }

/-- The cost as computed. -/
def costUsd : Activity → ℚ
  | chatTurn _ _ provider model inputTokens outputTokens _ _ _ =>
      generationCostUsd provider model inputTokens outputTokens
  | ingestion _ provider model totalTokens _ _ _ => embeddingCostUsd provider model totalTokens

def id : Activity → Uuid
  | chatTurn _ _ _ _ _ _ id _ _ | ingestion _ _ _ _ id _ _ => id

/-- When the transaction began. -/
def started : Activity → Time
  | chatTurn _ _ _ _ _ _ _ started _ | ingestion _ _ _ _ _ started _ => started

/-- The clock when the total is summed. -/
def now : Activity → Time
  | chatTurn _ _ _ _ _ _ _ _ now | ingestion _ _ _ _ _ _ now => now

theorem costUsd_nonneg (activity : Activity) : 0 ≤ activity.costUsd := by
  cases activity with
  | chatTurn => exact generationCostUsd_nonneg (Int.natCast_nonneg _) (Int.natCast_nonneg _)
  | ingestion => exact embeddingCostUsd_nonneg (Int.natCast_nonneg _)

/-- The part of the transaction that records the usage. -/
def record (orgId : Uuid) (activity : Activity) : Tx (UsageEvent × Bool) := do
  setOrgContext orgId
  recordUsage orgId activity.usage activity.costUsd activity.id activity.now

end Activity

namespace Account

/-- The stored cost of the month. -/
def total (orgId : Uuid) (month : Time) (account : Account) : ℚ :=
  monthToDate orgId month (account.db .usageEvents)

/-- An activity within the month.  Ingestion discards the crossing flag; a
transaction that fails is no activity. -/
def next (orgId : Uuid) (month : Time) (account : Account) (activity : Activity) :
    Option Account :=
  if activity.started.monthStart = month ∧ activity.now.monthStart = month then
    match activity.record orgId (.start .appUser activity.started account.db) with
    | .ok ((_, crossed), conn) =>
        some ⟨conn.db, account.alerts + if activity.isChat && crossed then 1 else 0⟩
    | .error _ => none
  else none

/-- The runs of an organization within the month. -/
abbrev Runs (orgId : Uuid) (month : Time) : Account → List Activity → Account → Prop :=
  Run fun account activity account' => next orgId month account activity = some account'

/-- The month begins: nothing spent, no alert, a stored budget. -/
structure Start (orgId : Uuid) (month : Time) (budget : Numeric 12 2) (account : Account) :
    Prop where
  stored : storedBudget orgId account.db = some budget
  positive : 0 < budget.toRat
  unspent : account.total orgId month = 0
  alerts : account.alerts = 0

/-- Exactly one alert if the stored total has reached the budget, none otherwise. -/
def AlertsMatch (orgId : Uuid) (month : Time) (budget : Numeric 12 2) (account : Account) : Prop :=
  account.alerts = if budget.toRat ≤ account.total orgId month then 1 else 0

/-- Whether the value stored for a cost takes the total to the budget. -/
def storedCrossing (orgId : Uuid) (month : Time) (budget : Numeric 12 2) (account : Account)
    (activity : Activity) : Bool :=
  match Numeric.ofRat? 12 6 activity.costUsd with
  | none => false
  | some stored => budgetCrossed (some budget) (account.total orgId month) stored.toRat

/-- A chat turn tests the crossing that the stored cost makes; an ingestion, which
does not test, makes none. -/
def Aligned (orgId : Uuid) (month : Time) (budget : Numeric 12 2) (account : Account)
    (activity : Activity) : Prop :=
  storedCrossing orgId month budget account activity =
    (activity.isChat &&
      budgetCrossed (some budget) (account.total orgId month) activity.costUsd)

variable {orgId : Uuid} {month : Time} {budget : Numeric 12 2}
  {account account' start last : Account} {activity : Activity} {trace : List Activity}

/-- What an activity does to the total, the alerts and the stored budget. -/
theorem next_eq_some (hbudget : storedBudget orgId account.db = some budget)
    (hnext : next orgId month account activity = some account') :
    ∃ stored, Numeric.ofRat? 12 6 activity.costUsd = some stored ∧
      storedBudget orgId account'.db = some budget ∧
      account'.total orgId month = account.total orgId month + stored.toRat ∧
      account'.alerts = account.alerts + if activity.isChat &&
        budgetCrossed (some budget) (account.total orgId month) activity.costUsd then 1 else 0 := by
  simp only [next, Option.ite_none_right_eq_some] at hnext
  obtain ⟨⟨hstarted, hnow⟩, hnext⟩ := hnext
  split at hnext
  · next event crossed conn hrecord =>
      cases hnext
      have hrun : (activity.record orgId).Runs (.start .appUser activity.started account.db)
        (event, crossed) conn := hrecord
      simp only [Activity.record, Program.runs_bind, runs_setOrgContext] at hrun
      obtain ⟨_, _, rfl, hrun⟩ := hrun
      obtain ⟨stored, hstored, hevent, hwrote, hcrossed⟩ := recordUsage_eq_ok rfl rfl hrun
      have hdb : conn.db = account.db.insert .usageEvents event := hwrote.insert.1
      have hcounts : countsToward orgId month event = true := by
        rw [hevent, ← hstarted]
        exact countsToward_event
      have htotal : monthToDate orgId month (conn.db .usageEvents) =
          account.total orgId month + event.costUsd.toRat := by
        rw [hdb, Database.insert_self, monthToDate_append, monthToDate_singleton hcounts, total]
      refine ⟨stored, hstored, ?_, ?_, ?_⟩
      · rw [← hbudget, ← storedBudget_insert orgId account.db event, ← hdb]
      · rw [hevent] at htotal
        exact htotal
      · simp only [hcrossed, Conn.start, hbudget, hnow]
        rfl
  · cases hnext

theorem stored_nonneg {stored : Numeric 12 6}
    (hstored : Numeric.ofRat? 12 6 activity.costUsd = some stored) : 0 ≤ stored.toRat :=
  Numeric.toRat_nonneg_of_ofRat? activity.costUsd_nonneg hstored

theorem storedBudget_of_runs (hrun : Runs orgId month start trace last)
    (hbudget : storedBudget orgId start.db = some budget) :
    storedBudget orgId last.db = some budget :=
  hrun.keeps (P := fun account => storedBudget orgId account.db = some budget)
    (fun _ _ _ h hnext =>
      have ⟨_, _, hkept, _⟩ := next_eq_some h hnext
      hkept) hbudget

/-- An aligned activity keeps alerts and total in step. -/
theorem AlertsMatch.next (h : AlertsMatch orgId month budget account)
    (hbudget : storedBudget orgId account.db = some budget)
    (hnext : next orgId month account activity = some account')
    (haligned : Aligned orgId month budget account activity) :
    AlertsMatch orgId month budget account' := by
  obtain ⟨stored, hstored, _, htotal, halerts⟩ := next_eq_some hbudget hnext
  have hnonneg := stored_nonneg hstored
  unfold Aligned storedCrossing at haligned
  simp only [hstored] at haligned
  unfold AlertsMatch at h ⊢
  rw [htotal, halerts, ← haligned, h]
  by_cases hcrossed : budgetCrossed (some budget) (account.total orgId month) stored.toRat = true
  · obtain ⟨hbelow, hreached⟩ := budgetCrossed_iff.mp hcrossed
    rw [if_pos hcrossed, if_neg (not_le.mpr hbelow), if_pos hreached]
  · rw [if_neg hcrossed]
    rw [budgetCrossed_iff, not_and, not_le] at hcrossed
    by_cases hreached : budget.toRat ≤ account.total orgId month
    · rw [if_pos hreached, if_pos (hreached.trans (le_add_of_nonneg_right hnonneg))]
    · rw [if_neg hreached, if_neg (not_le.mpr (hcrossed (not_le.mp hreached)))]

/-- Once the total has reached the budget it stays there, and no alert follows. -/
theorem reached_of_runs (hbudget : storedBudget orgId start.db = some budget)
    (hreached : budget.toRat ≤ start.total orgId month) (hrun : Runs orgId month start trace last) :
    budget.toRat ≤ last.total orgId month ∧ last.alerts = start.alerts := by
  induction hrun with
  | nil => exact ⟨hreached, rfl⟩
  | snoc hearlier hlast ih =>
      obtain ⟨hreached, hsame⟩ := ih
      obtain ⟨stored, hstored, _, htotal, halerts⟩ :=
        next_eq_some (storedBudget_of_runs hearlier hbudget) hlast
      refine ⟨htotal ▸ hreached.trans (le_add_of_nonneg_right (stored_nonneg hstored)), ?_⟩
      rw [halerts, hsame, if_neg, Nat.add_zero]
      rw [Bool.and_eq_true, budgetCrossed_iff]
      exact fun hcrossed => absurd hcrossed.2.1 (not_lt.mpr hreached)

/-- Every activity of the trace is aligned in the state it happens in. -/
def AlignedTrace (orgId : Uuid) (month : Time) (budget : Numeric 12 2) (start : Account)
    (trace : List Activity) : Prop :=
  ∀ before activity account, before ++ [activity] <+: trace →
    Runs orgId month start before account → Aligned orgId month budget account activity

theorem Start.alertsMatch (hstart : Start orgId month budget start) :
    AlertsMatch orgId month budget start := by
  unfold AlertsMatch
  rw [hstart.alerts, hstart.unspent, if_neg (not_le.mpr hstart.positive)]

theorem alertsMatch_of_alignedTrace (hstart : Start orgId month budget start)
    (hrun : Runs orgId month start trace last)
    (haligned : AlignedTrace orgId month budget start trace) :
    AlertsMatch orgId month budget last := by
  induction hrun with
  | nil => exact hstart.alertsMatch
  | @snoc trace middle last activity hearlier hlast ih =>
      have hmatch := ih fun before activity account hbefore =>
        haligned before activity account (hbefore.trans (List.prefix_append _ _))
      exact hmatch.next (storedBudget_of_runs hearlier hstart.stored) hlast
        (haligned trace activity middle List.prefix_rfl hearlier)

/-- After an activity that is not aligned, alerts and total are out of step: at
once after a chat turn, and after every later chat turn after an ingestion. -/
theorem not_alertsMatch_of_not_aligned (hbudget : storedBudget orgId account.db = some budget)
    (hmatch : AlertsMatch orgId month budget account)
    (hnext : next orgId month account activity = some account')
    (hnot : ¬Aligned orgId month budget account activity) :
    ¬AlertsMatch orgId month budget account' ∧
      (activity.isChat = false → budget.toRat ≤ account'.total orgId month ∧
        account'.alerts = 0) := by
  obtain ⟨stored, hstored, _, htotal, halerts⟩ := next_eq_some hbudget hnext
  unfold Aligned storedCrossing at hnot
  simp only [hstored] at hnot
  unfold AlertsMatch at hmatch ⊢
  rw [htotal, halerts, hmatch]
  cases htested : activity.isChat &&
      budgetCrossed (some budget) (account.total orgId month) activity.costUsd with
  | true =>
      -- an alert although the stored total stays below the budget
      rw [htested, Bool.not_eq_true, Bool.eq_false_iff, Ne, budgetCrossed_iff, not_and, not_le]
        at hnot
      obtain ⟨hchat, hcrossed⟩ := Bool.and_eq_true_iff.mp htested
      have hbelow := (budgetCrossed_iff.mp hcrossed).1
      refine ⟨?_, fun hingestion => ?_⟩
      · rw [if_neg (not_le.mpr hbelow), if_pos rfl, if_neg (not_le.mpr (hnot hbelow))]
        decide
      · rw [hingestion] at hchat
        cases hchat
  | false =>
      -- no alert although the stored total reaches the budget
      rw [htested, Bool.not_eq_false, budgetCrossed_iff] at hnot
      obtain ⟨hbelow, hreached⟩ := hnot
      rw [if_neg (not_le.mpr hbelow), if_pos hreached]
      exact ⟨by decide, fun _ => ⟨hreached, rfl⟩⟩

/-- If alerts and total are in step after every chat turn of a trace that ends
with one, every activity was aligned. -/
theorem alignedTrace_of_alertsMatch {before : List Activity} {chat : Activity}
    (hstart : Start orgId month budget start) (hchat : chat.isChat = true)
    (hrun : Runs orgId month start (before ++ [chat]) last)
    (hmatch : ∀ earlier chat' account, earlier ++ [chat'] <+: before ++ [chat] →
      chat'.isChat = true → Runs orgId month start (earlier ++ [chat']) account →
        AlertsMatch orgId month budget account) :
    AlignedTrace orgId month budget start (before ++ [chat]) := by
  intro earlier
  induction hlength : earlier.length using Nat.strong_induction_on generalizing earlier with
  | _ length ih =>
      intro activity account hearlier haccount
      by_contra hnot
      have haligned : AlignedTrace orgId month budget start earlier := by
        intro first activity' account' hfirst haccount'
        refine ih first.length ?_ first rfl activity' account' ?_ haccount'
        · have hle := hfirst.length_le
          rw [List.length_append, List.length_singleton] at hle
          omega
        · exact hfirst.trans ((List.prefix_append _ _).trans hearlier)
      obtain ⟨after, rest, hnext, _, hremaining⟩ := hrun.next_of_prefix hearlier haccount
      have hafter := haccount.snoc hnext
      obtain ⟨hbroken, hingestion⟩ := not_alertsMatch_of_not_aligned
        (storedBudget_of_runs haccount hstart.stored)
        (alertsMatch_of_alignedTrace hstart haccount haligned) hnext hnot
      cases hactivity : activity.isChat with
      | true => exact hbroken (hmatch earlier activity after hearlier hactivity hafter)
      | false =>
          -- the alert the ingestion left out is missing after the last chat turn
          obtain ⟨hreached, hnone⟩ := hingestion hactivity
          obtain ⟨hstays, hsame⟩ := reached_of_runs
            (storedBudget_of_runs hafter hstart.stored) hreached hremaining
          have hfinal := hmatch before chat last List.prefix_rfl hchat hrun
          unfold AlertsMatch at hfinal
          rw [if_pos hstays, hsame, hnone] at hfinal
          cases hfinal

/-- After every chat turn there has been exactly one alert if the stored total
has reached the budget, and none otherwise, if and only if every chat turn tests
the crossing its stored cost makes and no ingestion that a chat turn follows
makes the crossing. -/
theorem alertsMatch_iff_aligned (hstart : Start orgId month budget start)
    (hrun : Runs orgId month start trace last) :
    (∀ before chat account, before ++ [chat] <+: trace → chat.isChat = true →
      Runs orgId month start (before ++ [chat]) account →
        AlertsMatch orgId month budget account) ↔
      ∀ before activity account, before ++ [activity] <+: trace →
        (activity.isChat = true ∨ ∃ between chat, chat.isChat = true ∧
          before ++ [activity] ++ between ++ [chat] <+: trace) →
          Runs orgId month start before account → Aligned orgId month budget account activity := by
  constructor
  · intro hmatch before activity account hbefore hfollowed haccount
    -- the activity lies in a part of the trace that ends with a chat turn
    obtain ⟨shorter, chat, hchat, hshorter, hwithin⟩ : ∃ shorter chat, chat.isChat = true ∧
        shorter ++ [chat] <+: trace ∧ before ++ [activity] <+: shorter ++ [chat] := by
      rcases hfollowed with hchat | ⟨between, chat, hchat, hearlier⟩
      · exact ⟨before, activity, hchat, hbefore, List.prefix_rfl⟩
      · exact ⟨before ++ [activity] ++ between, chat, hchat, hearlier, by simp⟩
    obtain ⟨rest, rfl⟩ := id hshorter
    obtain ⟨middle, hmiddle, _⟩ := hrun.split
    refine alignedTrace_of_alertsMatch hstart hchat hmiddle ?_ before activity account hwithin
      haccount
    exact fun earlier chat' account' hearlier => hmatch earlier chat' account'
      (hearlier.trans hshorter)
  · intro haligned before chat account hbefore hchat haccount
    refine alertsMatch_of_alignedTrace hstart haccount ?_
    intro earlier activity middle hearlier hmiddle
    refine haligned earlier activity middle (hearlier.trans hbefore) ?_ hmiddle
    rcases List.prefix_concat_iff.mp hearlier with heq | ⟨between, hbetween⟩
    · obtain ⟨rfl, hlast⟩ := List.append_inj' heq rfl
      cases hlast
      exact .inl hchat
    · exact .inr ⟨between, chat, hchat, hbetween ▸ hbefore⟩

/-- An organization with a budget of one cent, a user, a conversation and a
document. -/
def centDb : Database
  | .organizations => [⟨1, "Acme".toList, "acme".toList, some ⟨1, by decide⟩, 0⟩]
  | .users => [⟨2, 1, "a@acme.io".toList, none, none, .admin, true, 0⟩]
  | .conversations => [⟨3, 1, some 2, none, 0⟩]
  | .documents => [⟨4, 1, "a.pdf".toList, none, none, none, none, .ready, 0⟩]
  | _ => []

/-- A chat turn of a priced model. -/
def pricedTurn (inputTokens : ℕ) (id : Uuid) : Activity :=
  .chatTurn 2 3 "openai".toList "gpt-4o-mini".toList inputTokens 0 id 0 0

/-- An ingestion of half a million tokens, for one cent, and a free chat turn. -/
def embeddedCrossing : List Activity :=
  [.ingestion 4 "openai".toList "text-embedding-3-small".toList 500000 5 0 0,
    .chatTurn 2 3 "stub".toList "stub".toList 1 1 6 0 0]

/-- Two chat turns whose stored costs add up to one cent, while the cost of the
second as computed is below what is missing. -/
def roundedCrossing : List Activity := [pricedTurn 66660 5, pricedTurn 4 6]

theorem start_centDb : Start 1 0 ⟨1, by decide⟩ ⟨centDb, 0⟩ where
  stored := by decide
  positive := by decide +kernel
  unspent := rfl
  alerts := rfl

theorem alertsMatch_iff_aligned_rounded : ∃ last,
    Runs 1 0 ⟨centDb, 0⟩ roundedCrossing last ∧
    ((∀ before chat account, before ++ [chat] <+: roundedCrossing → chat.isChat = true →
      Runs 1 0 ⟨centDb, 0⟩ (before ++ [chat]) account →
        AlertsMatch 1 0 ⟨1, by decide⟩ account) ↔
      ∀ before activity account, before ++ [activity] <+: roundedCrossing →
        (activity.isChat = true ∨ ∃ between chat, chat.isChat = true ∧
          before ++ [activity] ++ between ++ [chat] <+: roundedCrossing) →
          Runs 1 0 ⟨centDb, 0⟩ before account →
            Aligned 1 0 ⟨1, by decide⟩ account activity) := by
  have hreplay : (replay (next 1 0) ⟨centDb, 0⟩ roundedCrossing).isSome = true := by
    decide +kernel
  obtain ⟨last, hlast⟩ := Option.isSome_iff_exists.mp hreplay
  have hrun := run_of_replay _ _ _ _ hlast
  exact ⟨last, hrun, alertsMatch_iff_aligned start_centDb hrun⟩

/-- The crossing made by an ingestion, and the crossing made by rounding, are
lost. -/
theorem lost_crossings : Start 1 0 ⟨1, by decide⟩ ⟨centDb, 0⟩ ∧
    ∀ trace ∈ [embeddedCrossing, roundedCrossing], ∃ last, Runs 1 0 ⟨centDb, 0⟩ trace last ∧
      ¬AlertsMatch 1 0 ⟨1, by decide⟩ last := by
  refine ⟨start_centDb, ?_⟩
  have hreplay : ∀ trace ∈ [embeddedCrossing, roundedCrossing],
      (replay (next 1 0) ⟨centDb, 0⟩ trace).map (fun last =>
        (last.alerts, decide ((⟨1, by decide⟩ : Numeric 12 2).toRat ≤ last.total 1 0))) =
          some (0, true) := by decide +kernel
  intro trace htrace
  obtain ⟨last, hlast, hfinal⟩ := Option.map_eq_some_iff.mp (hreplay trace htrace)
  simp only [Prod.mk.injEq, decide_eq_true_eq] at hfinal
  refine ⟨last, run_of_replay _ _ _ _ hlast, fun hmatch => ?_⟩
  unfold AlertsMatch at hmatch
  rw [hfinal.1, if_pos hfinal.2] at hmatch
  cases hmatch

end Account

end Core
