import KnowledgePlatform.Api.Chat
import KnowledgePlatform.Api.ChatStream
import KnowledgePlatform.Core.BudgetAlerts

/-!
# The crossing flag and what is reported

`recordUsage` tells whether an event takes its organization to the budget.  The
usage summary tells whether the budget is reached.  The two are computed from
different numbers: the flag from the cost as computed and the total since the
first of the month the clock reads, the summary from the costs as stored.  And
the event itself is stamped with the time its transaction began, which may lie
in an earlier month than the clock.

The first half compares the flag with the summary within a month.  The second
compares the flag of a chat turn with the month its event is stamped in: the two
clocks have to pick the same stored events (`Aligned`).
-/

open Core Foundations Python Relational

namespace Api

/-! ## The flag and the usage summary -/

/-- What the summary reports about the budget. -/
theorem overBudget_of_runs {principal : Principal} {conn conn' : Conn} {now : Time}
    {out : UsageSummaryOut} (hrole : conn.role = .appUser)
    (horg : conn.currentOrg = some principal.orgId)
    (h : (getUsageSummary principal now).Runs conn out conn') :
    out.overBudget = (storedBudget principal.orgId conn.db).any fun budget =>
      budget.toRat ≤ monthToDate principal.orgId now.monthStart (conn.db .usageEvents) := by
  simp only [getUsageSummary, Program.runs_bind, runs_scalars, Program.runs_pure] at h
  obtain ⟨org, _, horgRow, cost, _, hcost, events, _, ⟨_, rfl⟩, rfl, rfl⟩ := h
  obtain ⟨rfl, rfl⟩ := runs_getById_organization hrole horg horgRow
  obtain ⟨rfl, rfl⟩ := runs_monthToDateCostUsd hrole horg hcost
  rfl

/-- Totals are whole micro-dollars. -/
theorem exists_monthToDate_eq (orgId : Uuid) (since : Time) (events : List UsageEvent) :
    ∃ n : ℤ, monthToDate orgId since events = n / 10 ^ 6 := by
  induction events with
  | nil => exact ⟨0, by simp [monthToDate]⟩
  | cons event events ih =>
      obtain ⟨n, hn⟩ := ih
      have hcons : monthToDate orgId since (event :: events) =
          monthToDate orgId since [event] + monthToDate orgId since events :=
        monthToDate_append orgId since [event] events
      rw [hcons, hn]
      by_cases hcounts : countsToward orgId since event = true
      · refine ⟨event.costUsd.unscaled + n, ?_⟩
        rw [monthToDate_singleton hcounts, Numeric.toRat, Int.cast_add, add_div]
      · exact ⟨n, by simp [monthToDate, hcounts]⟩

/-- What is missing to a budget is a whole number of micro-dollars. -/
theorem exists_missing_eq (budget : Numeric 12 2) (orgId : Uuid) (since : Time)
    (events : List UsageEvent) :
    ∃ n : ℤ, budget.toRat - monthToDate orgId since events = n / 10 ^ 6 := by
  obtain ⟨n, hn⟩ := exists_monthToDate_eq orgId since events
  refine ⟨budget.unscaled * 10 ^ 4 - n, ?_⟩
  rw [hn, Numeric.toRat]
  push_cast
  ring

/-- The budget is not reached, the cost does not reach it, and half a micro-dollar
more would. -/
def WithinHalfMicro (budget total costUsd : ℚ) : Prop :=
  total < budget ∧ 0 < budget - total - costUsd ∧ budget - total - costUsd ≤ 5 / 10 ^ 7

/-- The stored cost takes the total to the budget if and only if the cost does, or
is less than half a micro-dollar short of it. -/
theorem reaches_stored_iff {budget total costUsd : ℚ} {stored : Numeric 12 6}
    (hstored : Numeric.ofRat? 12 6 costUsd = some stored) {n : ℤ}
    (hmissing : budget - total = n / 10 ^ 6) (hbelow : total < budget) :
    budget ≤ total + stored.toRat ↔ budget ≤ total + costUsd + 5 / 10 ^ 7 := by
  have hpositive : 0 < n := by
    have hdiv : (0 : ℚ) < n / 10 ^ 6 := hmissing ▸ sub_pos.mpr hbelow
    have hcast : (0 : ℚ) < n := by simpa using hdiv
    exact_mod_cast hcast
  have hiff := Numeric.le_toRat_iff_of_ofRat? hstored hpositive
  rw [← hmissing] at hiff
  constructor
  · intro hreached
    have hcost := hiff.mp (by linarith)
    linarith
  · intro hreached
    have hcost := hiff.mpr (by linarith)
    linarith

theorem budgetCrossed_agrees_iff {budget : Numeric 12 2} {total costUsd : ℚ}
    {stored : Numeric 12 6} (hstored : Numeric.ofRat? 12 6 costUsd = some stored) {n : ℤ}
    (hmissing : budget.toRat - total = n / 10 ^ 6) :
    (budgetCrossed (some budget) total costUsd = true ↔
      ¬budget.toRat ≤ total ∧ budget.toRat ≤ total + stored.toRat) ↔
        ¬WithinHalfMicro budget.toRat total costUsd := by
  rw [budgetCrossed_iff, not_le]
  unfold WithinHalfMicro
  by_cases hbelow : total < budget.toRat
  · have hreaches := reaches_stored_iff hstored hmissing hbelow
    simp only [hbelow, true_and, hreaches]
    constructor
    · rintro hagrees ⟨hshort, hclose⟩
      have hcost := hagrees.mpr (by linarith)
      linarith
    · intro hnot
      constructor
      · intro hcost
        linarith
      · intro hclose
        by_contra hcost
        exact hnot ⟨by linarith, by linarith⟩
  · simp [hbelow]

/-- Within a month, the flag is set by exactly the calls between which the summary
begins to report the budget as reached, unless the cost of a call is short of the
budget by half a micro-dollar or less. -/
theorem crossed_iff_status_flips_iff {principal : Principal} {conn conn' : Conn}
    {usage : UsageRecord} {costUsd : ℚ} {id : Uuid} {now : Time} {event : UsageEvent}
    {crossed : Bool} {budget : Numeric 12 2} {started clock started' clock' : Time}
    {before after : UsageSummaryOut} {session session' : Conn}
    (hrole : conn.role = .appUser) (horg : conn.currentOrg = some principal.orgId)
    (hbudget : storedBudget principal.orgId conn.db = some budget)
    (hrecord : (recordUsage principal.orgId usage costUsd id now).Runs conn (event, crossed) conn')
    (hbefore : (getUsageSummary principal clock).Runs
      ⟨.appUser, some principal.orgId, started, conn.db⟩ before session)
    (hafter : (getUsageSummary principal clock').Runs
      ⟨.appUser, some principal.orgId, started', conn'.db⟩ after session')
    (hmonth : now.SameMonth conn.now) (hclock : now.SameMonth clock)
    (hclock' : now.SameMonth clock') :
    (crossed = true ↔ before.overBudget = false ∧ after.overBudget = true) ↔
      ¬WithinHalfMicro budget.toRat
        (monthToDate principal.orgId now.monthStart (conn.db .usageEvents)) costUsd := by
  obtain ⟨stored, hstored, hevent, hwrote, hcrossed⟩ := recordUsage_eq_ok hrole horg hrecord
  have hdb : conn'.db = conn.db.insert .usageEvents event := hwrote.insert.1
  have hcounts : countsToward principal.orgId now.monthStart event = true := by
    rw [hevent, hmonth]
    exact countsToward_event
  have htotal : monthToDate principal.orgId now.monthStart (conn'.db .usageEvents) =
      monthToDate principal.orgId now.monthStart (conn.db .usageEvents) + stored.toRat := by
    rw [hdb, Database.insert_self, monthToDate_append, monthToDate_singleton hcounts, hevent]
    rfl
  have hkept : storedBudget principal.orgId conn'.db = some budget := by
    rw [hdb, storedBudget_insert, hbudget]
  have hstatus := overBudget_of_runs rfl rfl hbefore
  have hstatus' := overBudget_of_runs rfl rfl hafter
  simp only [hbudget, hkept, htotal, Option.any_some,
    ← (show now.monthStart = clock.monthStart from hclock),
    ← (show now.monthStart = clock'.monthStart from hclock')] at hstatus hstatus'
  obtain ⟨n, hn⟩ := exists_missing_eq budget principal.orgId now.monthStart (conn.db .usageEvents)
  rw [hcrossed, hbudget, hstatus, hstatus', decide_eq_false_iff_not, decide_eq_true_iff]
  exact budgetCrossed_agrees_iff hstored hn

/-- The administrator of the organization with a budget of one cent. -/
def centAdmin : Principal where
  orgId := 1
  role := .admin
  user := ⟨2, 1, "a@acme.io".toList, none, none, .admin, true, 0⟩
  viaApiKey := false

/-- The organization with a budget of one cent, and what a generation for this
cost has left of it. -/
def spentDb (costUsd : Numeric 12 6) (createdAt : Time) : Database :=
  Account.centDb.insert .usageEvents
    ((Account.pricedTurn 0 5).usage.event 1 costUsd 5 createdAt)

/-- Recording a priced turn between two summaries: the flag and the two reports. -/
def flagBetweenSummaries (inputTokens : ℕ) (db : Database) : Option (Bool × Bool × Bool) :=
  let activity := Account.pricedTurn inputTokens 6
  let summary := fun db => (getUsageSummary centAdmin 0 ⟨.appUser, some 1, 0, db⟩).toOption
  (summary db).bind fun before =>
    (recordUsage 1 activity.usage activity.costUsd 6 0 ⟨.appUser, some 1, 0, db⟩).toOption.bind
      fun recorded => (summary recorded.2.db).map fun after =>
        (recorded.1.2, before.1.overBudget, after.1.overBudget)

theorem runs_of_flagBetweenSummaries {inputTokens : ℕ} {db : Database} {flag : Bool}
    {status : Bool × Bool} (h : flagBetweenSummaries inputTokens db = some (flag, status)) :
    ∃ (before after : UsageSummaryOut) (event : UsageEvent) (conn session session' : Conn),
      (getUsageSummary centAdmin 0).Runs ⟨.appUser, some 1, 0, db⟩ before session ∧
      (recordUsage 1 (Account.pricedTurn inputTokens 6).usage
        (Account.pricedTurn inputTokens 6).costUsd 6 0).Runs ⟨.appUser, some 1, 0, db⟩ (event, flag)
          conn ∧
      (getUsageSummary centAdmin 0).Runs ⟨.appUser, some 1, 0, conn.db⟩ after session' ∧
      before.overBudget = status.1 ∧ after.overBudget = status.2 := by
  simp only [flagBetweenSummaries, Option.bind_eq_some_iff, Option.map_eq_some_iff] at h
  obtain ⟨⟨before, session⟩, hbefore, ⟨⟨event, crossed⟩, conn⟩, hrecord, ⟨after, session'⟩,
    hafter, hflags⟩ := h
  cases hflags
  exact ⟨before, after, event, conn, session, session', Program.runs_of_toOption hbefore,
    Program.runs_of_toOption hrecord, Program.runs_of_toOption hafter, rfl, rfl⟩

/-- A turn that takes an unspent cent. -/
theorem crossed_iff_status_flips_iff_cent : ∃ (before after : UsageSummaryOut) (event : UsageEvent)
    (conn session session' : Conn),
    (getUsageSummary centAdmin 0).Runs ⟨.appUser, some 1, 0, Account.centDb⟩ before session ∧
    (getUsageSummary centAdmin 0).Runs ⟨.appUser, some 1, 0, conn.db⟩ after session' ∧
    (recordUsage 1 (Account.pricedTurn 66667 6).usage (Account.pricedTurn 66667 6).costUsd 6 0).Runs
      ⟨.appUser, some 1, 0, Account.centDb⟩ (event, true) conn ∧
    (((true = true) ↔ before.overBudget = false ∧ after.overBudget = true) ↔
      ¬WithinHalfMicro (⟨1, by decide⟩ : Numeric 12 2).toRat
        (monthToDate 1 (Time.monthStart 0) (Account.centDb .usageEvents))
        (Account.pricedTurn 66667 6).costUsd) := by
  have hflag : flagBetweenSummaries 66667 Account.centDb = some (true, false, true) := by
    decide +kernel
  obtain ⟨before, after, event, conn, session, session', hbefore, hrecord, hafter, _, _⟩ :=
    runs_of_flagBetweenSummaries hflag
  exact ⟨before, after, event, conn, session, session', hbefore, hafter, hrecord,
    @crossed_iff_status_flips_iff centAdmin _ _ _ _ _ _ _ _ _ _ _ _ _ _ _ _ _ rfl rfl
      (by decide +kernel) hrecord hbefore hafter rfl rfl rfl⟩

/-- A turn for six tenths of a micro-dollar, one micro-dollar short of a cent: the
summary turns to over budget, and the flag is not set. -/
theorem roundedTurn_flips_status : ∃ (before after : UsageSummaryOut) (event : UsageEvent)
    (conn session session' : Conn),
    (getUsageSummary centAdmin 0).Runs ⟨.appUser, some 1, 0, spentDb ⟨9999, by decide⟩ 0⟩ before
      session ∧
    (recordUsage 1 (Account.pricedTurn 4 6).usage (Account.pricedTurn 4 6).costUsd 6 0).Runs
      ⟨.appUser, some 1, 0, spentDb ⟨9999, by decide⟩ 0⟩ (event, false) conn ∧
    (getUsageSummary centAdmin 0).Runs ⟨.appUser, some 1, 0, conn.db⟩ after session' ∧
    before.overBudget = false ∧ after.overBudget = true := by
  have hflag : flagBetweenSummaries 4 (spentDb ⟨9999, by decide⟩ 0) =
      some (false, false, true) := by decide +kernel
  exact runs_of_flagBetweenSummaries hflag

/-! ## The flag and the month of the event -/

/-- The event is the organization's, and stamped in the month that began at `month`. -/
def stampedIn (orgId : Uuid) (month : Time) (event : UsageEvent) : Bool :=
  event.orgId == orgId && event.createdAt.monthStart == month

/-- The stored cost of the organization's events stamped in the month. -/
def monthTotal (orgId : Uuid) (month : Time) (events : List UsageEvent) : ℚ :=
  ((events.filter (stampedIn orgId month)).map fun event => event.costUsd.toRat).sum

theorem stampedIn_iff {orgId : Uuid} {month : Time} {event : UsageEvent} :
    stampedIn orgId month event = true ↔
      event.orgId = orgId ∧ event.createdAt.monthStart = month := by
  simp [stampedIn]

/-- The cost takes the total to the budget. -/
def Reaches (budget total costUsd : ℚ) : Prop := total < budget ∧ budget ≤ total + costUsd

/-- The two clocks pick the same events: those of the organization that are stamped on
or after the first of the month the clock reads are the ones stamped in the month the
transaction began in. -/
def Aligned (orgId : Uuid) (began now : Time) (events : List UsageEvent) : Prop :=
  ∀ event ∈ events, event.orgId = orgId →
    (now.monthStart ≤ event.createdAt ↔ event.createdAt.monthStart = began.monthStart)

/-- The event at another price. -/
def repriced (price : UsageEvent → Numeric 12 6) (event : UsageEvent) : UsageEvent :=
  { event with costUsd := price event }

/-- Whatever the stored events and the new one cost, and whatever the budget is, the
test of `record_usage` agrees with the month the transaction began in. -/
def CrossingsAgree (orgId : Uuid) (began now : Time) (events : List UsageEvent) : Prop :=
  ∀ (price : UsageEvent → Numeric 12 6) (budget : Numeric 12 2) (costUsd : ℚ),
    budgetCrossed (some budget)
        (monthToDate orgId now.monthStart (events.map (repriced price))) costUsd = true ↔
      Reaches budget.toRat
        (monthTotal orgId began.monthStart (events.map (repriced price))) costUsd

theorem monthToDate_eq_monthTotal {orgId : Uuid} {began now : Time} {events : List UsageEvent}
    (haligned : Aligned orgId began now events) :
    monthToDate orgId now.monthStart events = monthTotal orgId began.monthStart events := by
  unfold monthToDate monthTotal
  congr 2
  refine List.filter_congr fun event hevent => ?_
  unfold countsToward stampedIn
  by_cases horg : event.orgId = orgId
  · rw [beq_iff_eq.mpr horg, Bool.true_and, Bool.true_and, Bool.eq_iff_iff, decide_eq_true_iff,
      beq_iff_eq]
    exact haligned event hevent horg
  · rw [beq_eq_false_iff_ne.mpr horg, Bool.false_and, Bool.false_and]

/-- Within a month the clocks pick the same events, as none is stamped later than the
clock reads. -/
theorem aligned_of_sameMonth {orgId : Uuid} {began now : Time} {events : List UsageEvent}
    (hmonth : now.SameMonth began) (hpast : ∀ event ∈ events, event.createdAt ≤ now) :
    Aligned orgId began now events := by
  intro event hevent _
  rw [← show now.monthStart = began.monthStart from hmonth]
  constructor
  · intro hsince
    exact Time.monthStart_eq_of_le hsince (hpast event hevent)
  · intro hstamped
    rw [← hstamped]
    exact Time.monthStart_le _

/-- A dollar for every event stamped at the time, and nothing for the others. -/
def dollarAt (time : Time) (event : UsageEvent) : Numeric 12 6 :=
  if event.createdAt = time then ⟨10 ^ 6, by decide⟩ else ⟨0, by decide⟩

theorem toRat_dollarAt (time : Time) (event : UsageEvent) :
    (dollarAt time event).toRat = if event.createdAt = time then 1 else 0 := by
  unfold dollarAt
  split
  · norm_num [Numeric.toRat]
  · norm_num [Numeric.toRat]

theorem sum_dollarAt_eq_zero {time : Time} {events : List UsageEvent}
    (h : ∀ event ∈ events, event.createdAt ≠ time) :
    (events.map fun event => (dollarAt time event).toRat).sum = 0 := by
  refine List.sum_eq_zero fun cost hcost => ?_
  obtain ⟨event, hevent, rfl⟩ := List.mem_map.mp hcost
  rw [toRat_dollarAt, if_neg (h event hevent)]

theorem one_le_sum_dollarAt {events : List UsageEvent} {event : UsageEvent}
    (h : event ∈ events) :
    1 ≤ (events.map fun stored => (dollarAt event.createdAt stored).toRat).sum := by
  refine List.single_le_sum (fun cost hcost => ?_) 1 (List.mem_map.mpr ⟨event, h, ?_⟩)
  · obtain ⟨stored, _, rfl⟩ := List.mem_map.mp hcost
    rw [toRat_dollarAt]
    split
    · exact zero_le_one
    · exact le_rfl
  · rw [toRat_dollarAt, if_pos rfl]

/-- A total that does not look at the costs, of events at another price. -/
theorem sum_repriced {picks : UsageEvent → Bool}
    (hpicks : ∀ price event, picks (repriced price event) = picks event)
    (price : UsageEvent → Numeric 12 6) (events : List UsageEvent) :
    (((events.map (repriced price)).filter picks).map fun event => event.costUsd.toRat).sum =
      ((events.filter picks).map fun event => (price event).toRat).sum := by
  rw [List.filter_map, List.map_map, show picks ∘ repriced price = picks from funext (hpicks price)]
  rfl

/-- A dollar crosses a budget of one dollar only if nothing was spent. -/
theorem reaches_dollar_iff {total : ℚ} :
    Reaches (⟨100, by decide⟩ : Numeric 12 2).toRat total 1 ↔ 0 ≤ total ∧ total < 1 := by
  have hbudget : (⟨100, by decide⟩ : Numeric 12 2).toRat = 1 := by norm_num [Numeric.toRat]
  unfold Reaches
  rw [hbudget]
  constructor
  · rintro ⟨hlt, hle⟩
    exact ⟨by linarith, hlt⟩
  · rintro ⟨hle, hlt⟩
    exact ⟨hlt, by linarith⟩

/-- The clocks have to pick the same events: an event that only one of them picks may be
the only one that cost anything. -/
theorem aligned_iff_crossingsAgree {orgId : Uuid} {began now : Time} {events : List UsageEvent} :
    Aligned orgId began now events ↔ CrossingsAgree orgId began now events := by
  constructor
  · intro haligned price budget costUsd
    have hrepriced : Aligned orgId began now (events.map (repriced price)) := by
      intro event hevent
      obtain ⟨stored, hstored, rfl⟩ := List.mem_map.mp hevent
      exact haligned stored hstored
    rw [budgetCrossed_iff, monthToDate_eq_monthTotal hrepriced]
    rfl
  · intro hagree event hevent horg
    have hcrossings := hagree (dollarAt event.createdAt) ⟨100, by decide⟩ 1
    rw [budgetCrossed_iff, ← Reaches, reaches_dollar_iff, reaches_dollar_iff, monthToDate,
      monthTotal, sum_repriced fun _ _ => rfl, sum_repriced fun _ _ => rfl] at hcrossings
    constructor
    · intro hsince
      by_contra hother
      have hpicked : event ∈ events.filter (countsToward orgId now.monthStart) :=
        List.mem_filter.mpr ⟨hevent, by simp [countsToward, horg, hsince]⟩
      have hmissed : ∀ stored ∈ events.filter (stampedIn orgId began.monthStart),
          stored.createdAt ≠ event.createdAt := by
        intro stored hstored hsame
        have hstamped := (stampedIn_iff.mp (List.mem_filter.mp hstored).2).2
        exact hother (hsame ▸ hstamped)
      rw [sum_dollarAt_eq_zero hmissed] at hcrossings
      have hless := (hcrossings.mpr ⟨le_rfl, zero_lt_one⟩).2
      exact absurd hless (not_lt.mpr (one_le_sum_dollarAt hpicked))
    · intro hstamped
      by_contra hbefore
      have hpicked : event ∈ events.filter (stampedIn orgId began.monthStart) :=
        List.mem_filter.mpr ⟨hevent, stampedIn_iff.mpr ⟨horg, hstamped⟩⟩
      have hmissed : ∀ stored ∈ events.filter (countsToward orgId now.monthStart),
          stored.createdAt ≠ event.createdAt := by
        intro stored hstored hsame
        have hcounts := (List.mem_filter.mp hstored).2
        simp only [countsToward, Bool.and_eq_true, decide_eq_true_eq] at hcounts
        exact hbefore (hsame ▸ hcounts.2)
      rw [sum_dollarAt_eq_zero hmissed] at hcrossings
      have hless := (hcrossings.mp ⟨le_rfl, zero_lt_one⟩).2
      exact absurd hless (not_lt.mpr (one_le_sum_dollarAt hpicked))

/-- What the transaction that answers a question records: the event and the flag. -/
theorem answerTurn_records {settings : Settings} {engine : SearchEngine}
    {astream : Str → List (MessageRole × Str) → Except Str (List Str × Generation)}
    {turn : ChatTurn} {draw : AnswerDraw} {now : Time} {conn conn' : Conn} {out : AnswerOut}
    (hrole : conn.role = .appUser)
    (h : (answerTurn settings engine astream turn draw now).Runs conn out conn') :
    ∃ prompt generation event,
      astream prompt (promptMessages turn) = .ok (out.tokens, generation) ∧
      conn'.db .usageEvents = conn.db .usageEvents ++ [event] ∧ event.createdAt = conn.now ∧
      out.crossed = budgetCrossed (storedBudget turn.orgId conn.db)
        (monthToDate turn.orgId now.monthStart (conn.db .usageEvents))
        (generationCostUsd generation.llmProvider generation.llmModel generation.usage.inputTokens
          generation.usage.outputTokens) := by
  simp only [answerTurn, recordAnswer, Program.runs_bind, runs_setOrgContext, runs_ofLibrary,
    runs_transactionTime, runs_add, Program.runs_pure] at h
  obtain ⟨_, _, rfl, ⟨hits, prompt⟩, _, hretrieve, ⟨tokens, generation⟩, _, ⟨hstream, rfl⟩,
    citations, _, ⟨_, rfl⟩, _, _, ⟨_, _, ⟨rfl, rfl⟩, _, stored, hmessage, ⟨event, crossed⟩, _,
      hrecord, rfl, rfl⟩, rfl, rfl⟩ := h
  obtain ⟨rfl, _⟩ := retrieve_eq_ok hretrieve
  obtain ⟨_, _, hevent, hwrote, hcrossed⟩ := recordUsage_eq_ok (hmessage.role.trans hrole)
    hmessage.currentOrg hrecord
  have hmessages := hmessage.insert.1
  have hevents : stored.db .usageEvents = conn.db .usageEvents := by
    rw [hmessages]
    exact Database.insert_of_ne _ (by decide)
  have hbudget : storedBudget turn.orgId stored.db = storedBudget turn.orgId conn.db := by
    rw [hmessages, storedBudget, Database.insert_of_ne _ (by decide), storedBudget]
  refine ⟨prompt, generation, event, hstream, ?_, ?_, ?_⟩
  · rw [hwrote.insert.1, Database.insert_self, hevents]
  · rw [hevent]
    exact hmessage.now
  · rw [hevents, hbudget] at hcrossed
    exact hcrossed

/-- A chat turn sets the flag exactly when its cost takes the month its event is stamped
in to the budget, if the clock that dates the total and the one that stamps the event
pick the same stored events; and no weaker condition on the clocks and the stamps is
enough for all prices. -/
theorem crossed_iff_month_crossed_of_aligned {settings : Settings} {engine : SearchEngine}
    {astream : Str → List (MessageRole × Str) → Except Str (List Str × Generation)}
    {turn : ChatTurn} {draw : AnswerDraw} {now : Time} {conn conn' : Conn} {out : AnswerOut}
    {budget : Numeric 12 2} (hrole : conn.role = .appUser)
    (hbudget : storedBudget turn.orgId conn.db = some budget)
    (h : (answerTurn settings engine astream turn draw now).Runs conn out conn') :
    (∃ prompt generation event,
      astream prompt (promptMessages turn) = .ok (out.tokens, generation) ∧
      conn'.db .usageEvents = conn.db .usageEvents ++ [event] ∧ event.createdAt = conn.now ∧
      (Aligned turn.orgId conn.now now (conn.db .usageEvents) →
        (out.crossed = true ↔ Reaches budget.toRat
          (monthTotal turn.orgId event.createdAt.monthStart (conn.db .usageEvents))
          (generationCostUsd generation.llmProvider generation.llmModel
            generation.usage.inputTokens generation.usage.outputTokens)))) ∧
    (Aligned turn.orgId conn.now now (conn.db .usageEvents) ↔
      CrossingsAgree turn.orgId conn.now now (conn.db .usageEvents)) ∧
    (now.SameMonth conn.now → (∀ stored ∈ conn.db .usageEvents, stored.createdAt ≤ now) →
      Aligned turn.orgId conn.now now (conn.db .usageEvents)) := by
  refine ⟨?_, aligned_iff_crossingsAgree, aligned_of_sameMonth⟩
  obtain ⟨prompt, generation, event, hstream, hevents, hcreated, hcrossed⟩ :=
    answerTurn_records hrole h
  refine ⟨prompt, generation, event, hstream, hevents, hcreated, fun haligned => ?_⟩
  rw [hcrossed, hbudget, budgetCrossed_iff, hcreated, monthToDate_eq_monthTotal haligned]
  exact Iff.rfl

/-- A question in the conversation of the organization with a budget of one cent. -/
def centTurn : ChatTurn where
  orgId := 1
  userId := 2
  conversationId := 3
  question := "Why?".toList
  history := []

/-- A provider whose answer takes forty thousand tokens of a priced model, for six
tenths of a cent. -/
def pricedStream (_ : Str) (_ : List (MessageRole × Str)) :
    Except Str (List Str × Generation) :=
  .ok (["So.".toList], ⟨⟨40000, 0⟩, "openai".toList, "gpt-4o-mini".toList⟩)

/-- 2026-07-31T23:59:59Z, and two seconds later. -/
def lastSecond : Time := 1785542399 * Time.second

def nextMonth : Time := 1785542401 * Time.second

/-- The transaction of the answer begins in the last second of a month in which six
tenths of a cent are spent. -/
def monthEnd : Conn := .start .appUser lastSecond (spentDb ⟨6000, by decide⟩ lastSecond)

/-- The event of the answer takes the ending month to the budget. -/
theorem reaches_monthEnd : Reaches (⟨1, by decide⟩ : Numeric 12 2).toRat
    (monthTotal 1 lastSecond.monthStart (monthEnd.db .usageEvents))
    (generationCostUsd "openai".toList "gpt-4o-mini".toList 40000 0) := by
  constructor <;> decide +kernel

theorem crossed_iff_month_crossed_of_aligned_monthEnd : ∃ (out : AnswerOut) (conn : Conn),
    (answerTurn {} plainEngine pricedStream centTurn ⟨6, 7⟩ lastSecond).Runs monthEnd out conn ∧
    (out.crossed = true ↔ Reaches (⟨1, by decide⟩ : Numeric 12 2).toRat
      (monthTotal 1 lastSecond.monthStart (monthEnd.db .usageEvents))
      (generationCostUsd "openai".toList "gpt-4o-mini".toList 40000 0)) := by
  have hsome : (answerTurn {} plainEngine pricedStream centTurn ⟨6, 7⟩ lastSecond
      monthEnd).toOption.isSome = true := by decide +kernel
  obtain ⟨⟨out, conn⟩, hresult⟩ := Option.isSome_iff_exists.mp hsome
  have hrun := Program.runs_of_toOption hresult
  have hbudget : storedBudget centTurn.orgId monthEnd.db = some ⟨1, by decide⟩ := by
    decide +kernel
  obtain ⟨⟨_, _, event, hstream, _, hcreated, hproperty⟩, _, haligned⟩ :=
    crossed_iff_month_crossed_of_aligned rfl hbudget hrun
  obtain ⟨_, rfl⟩ := Prod.mk.inj (Except.ok.inj hstream)
  have hmonth := hproperty (haligned rfl (by decide +kernel))
  rw [hcreated] at hmonth
  exact ⟨out, conn, hrun, hmonth⟩

/-- The usage is recorded two seconds later, in the next month: the event takes the
month it is stamped in to the budget, and the flag is not set. -/
theorem answer_over_monthEnd_loses_crossing : ∃ (out : AnswerOut) (conn : Conn)
    (event : UsageEvent),
    (answerTurn {} plainEngine pricedStream centTurn ⟨6, 7⟩ nextMonth).Runs monthEnd out conn ∧
    storedBudget 1 monthEnd.db = some ⟨1, by decide⟩ ∧
    conn.db .usageEvents = monthEnd.db .usageEvents ++ [event] ∧
    out.crossed = false ∧
    Reaches (⟨1, by decide⟩ : Numeric 12 2).toRat
      (monthTotal 1 event.createdAt.monthStart (monthEnd.db .usageEvents))
      (generationCostUsd "openai".toList "gpt-4o-mini".toList 40000 0) := by
  have hflag : (answerTurn {} plainEngine pricedStream centTurn ⟨6, 7⟩ nextMonth
      monthEnd).toOption.map (fun result => result.1.crossed) = some false := by decide +kernel
  obtain ⟨⟨out, conn⟩, hresult, hcrossed⟩ := Option.map_eq_some_iff.mp hflag
  have hrun := Program.runs_of_toOption hresult
  obtain ⟨_, _, event, _, hevents, hcreated, _⟩ := answerTurn_records rfl hrun
  refine ⟨out, conn, event, hrun, by decide +kernel, hevents, hcrossed, ?_⟩
  rw [hcreated]
  exact reaches_monthEnd

end Api
