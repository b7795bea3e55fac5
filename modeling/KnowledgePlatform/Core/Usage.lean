import KnowledgePlatform.Core.Db

/-!
# Usage events and budgets

`recordUsage` sums the stored costs of the month, inserts the new event and
tells whether the event takes the organization from below its budget to the
budget or above.  The test uses the cost as computed; the column stores it
rounded to six decimals.

`recordUsage_eq_ok` is the specification the callers use.
-/

open Foundations Python Relational

namespace Core

/-! ## Pricing -/

/-- A million tokens, the unit prices are given for. -/
def perMillion : ℚ := 1000000

/-- Prices of a generation model for a million input and output tokens. -/
structure GenerationPrice where
  provider : Str
  model : Str
  input : ℚ
  output : ℚ

/-- Price of an embedding model for a million tokens. -/
structure EmbeddingPrice where
  provider : Str
  model : Str
  input : ℚ

def generationPricing : List GenerationPrice :=
  [⟨"anthropic".toList, "claude-opus-4-8".toList, 15, 75⟩,
    ⟨"openai".toList, "gpt-4o-mini".toList, 15 / 100, 60 / 100⟩,
    ⟨"gemini".toList, "gemini-2.5-flash".toList, 30 / 100, 250 / 100⟩]

def embeddingPricing : List EmbeddingPrice :=
  [⟨"openai".toList, "text-embedding-3-small".toList, 2 / 100⟩,
    ⟨"gemini".toList, "gemini-embedding-001".toList, 15 / 100⟩]

/-- The price of a generation; an unknown model is free. -/
def generationCostUsd (provider model : Str) (inputTokens outputTokens : ℤ) : ℚ :=
  match generationPricing.find? fun price => price.provider == provider && price.model == model with
  | none => 0
  | some price => (inputTokens * price.input + outputTokens * price.output) / perMillion

/-- The price of an embedding batch; an unknown model is free. -/
def embeddingCostUsd (provider model : Str) (tokens : ℤ) : ℚ :=
  match embeddingPricing.find? fun price => price.provider == provider && price.model == model with
  | none => 0
  | some price => tokens * price.input / perMillion

theorem generationCostUsd_nonneg {provider model : Str} {inputTokens outputTokens : ℤ}
    (hinput : 0 ≤ inputTokens) (houtput : 0 ≤ outputTokens) :
    0 ≤ generationCostUsd provider model inputTokens outputTokens := by
  unfold generationCostUsd
  split
  · exact le_rfl
  · next price hfind =>
      have hprice : 0 ≤ price.input ∧ 0 ≤ price.output := by
        have hmem := List.mem_of_find?_eq_some hfind
        simp only [generationPricing, List.mem_cons, List.not_mem_nil, or_false] at hmem
        rcases hmem with rfl | rfl | rfl <;> norm_num
      have hin : (0 : ℚ) ≤ inputTokens := by exact_mod_cast hinput
      have hout : (0 : ℚ) ≤ outputTokens := by exact_mod_cast houtput
      have hmillion : (0 : ℚ) ≤ perMillion := by norm_num [perMillion]
      exact div_nonneg (add_nonneg (mul_nonneg hin hprice.1) (mul_nonneg hout hprice.2)) hmillion

theorem embeddingCostUsd_nonneg {provider model : Str} {tokens : ℤ} (htokens : 0 ≤ tokens) :
    0 ≤ embeddingCostUsd provider model tokens := by
  unfold embeddingCostUsd
  split
  · exact le_rfl
  · next price hfind =>
      have hprice : 0 ≤ price.input := by
        have hmem := List.mem_of_find?_eq_some hfind
        simp only [embeddingPricing, List.mem_cons, List.not_mem_nil, or_false] at hmem
        rcases hmem with rfl | rfl <;> norm_num
      have hin : (0 : ℚ) ≤ tokens := by exact_mod_cast htokens
      exact div_nonneg (mul_nonneg hin hprice) (by norm_num [perMillion])

/-! ## Recording -/

/-- What `recordUsage` is told about the work besides its cost. -/
structure UsageRecord where
  userId : Option Uuid
  kind : UsageKind
  provider : Str
  model : Str
  inputTokens : ℤ
  outputTokens : ℤ
  conversationId : Option Uuid := none
  documentId : Option Uuid := none
  deriving DecidableEq

/-- The row of a usage event. -/
def UsageRecord.event (usage : UsageRecord) (orgId : Uuid) (costUsd : Numeric 12 6) (id : Uuid)
    (createdAt : Time) : UsageEvent where
  id := id
  orgId := orgId
  userId := usage.userId
  kind := usage.kind
  provider := usage.provider
  model := usage.model
  inputTokens := usage.inputTokens
  outputTokens := usage.outputTokens
  costUsd := costUsd
  conversationId := usage.conversationId
  documentId := usage.documentId
  createdAt := createdAt

/-- Whether an event counts toward the month that began at `since`. -/
def countsToward (orgId : Uuid) (since : Time) (event : UsageEvent) : Bool :=
  event.orgId == orgId && decide (since ≤ event.createdAt)

/-- The stored cost of the events that count. -/
def monthToDate (orgId : Uuid) (since : Time) (events : List UsageEvent) : ℚ :=
  ((events.filter (countsToward orgId since)).map fun event => event.costUsd.toRat).sum

/-- `func.sum(UsageEvent.cost_usd)`, with zero for no events. -/
def monthToDateCostUsd (orgId : Uuid) (now : Time) : Tx ℚ := do
  let events ← scalars .usageEvents (countsToward orgId now.monthStart)
  pure (events.map fun event => event.costUsd.toRat).sum

/-- `budget is not None and prior_cost < budget <= (prior_cost + cost_usd)` -/
def budgetCrossed (budget : Option (Numeric 12 2)) (priorCost costUsd : ℚ) : Bool :=
  match budget with
  | none => false
  | some budget => decide (priorCost < budget.toRat) && decide (budget.toRat ≤ priorCost + costUsd)

/-- The value a `cost_usd` column stores. -/
def storeCost (costUsd : ℚ) : Except StatementError (Numeric 12 6) :=
  match Numeric.ofRat? 12 6 costUsd with
  | none => .error .dataError
  | some stored => .ok stored

/-- Insert a usage event; returns the event and whether it crossed the budget. -/
def recordUsage (orgId : Uuid) (usage : UsageRecord) (costUsd : ℚ) (id : Uuid) (now : Time) :
    Tx (UsageEvent × Bool) := do
  let priorCost ← monthToDateCostUsd orgId now
  let stored ← ofStatement (storeCost costUsd)
  let createdAt ← transactionTime
  let event := usage.event orgId stored id createdAt
  add .usageEvents event
  let org ← getById .organizations orgId
  let budget := org.bind Organization.monthlyBudgetUsd
  pure (event, budgetCrossed budget priorCost costUsd)

/-! ## Specification -/

theorem storeCost_eq_ok {costUsd : ℚ} {stored : Numeric 12 6} :
    storeCost costUsd = .ok stored ↔ Numeric.ofRat? 12 6 costUsd = some stored := by
  unfold storeCost
  cases Numeric.ofRat? 12 6 costUsd <;> simp

theorem monthToDate_append (orgId : Uuid) (since : Time) (before after : List UsageEvent) :
    monthToDate orgId since (before ++ after) =
      monthToDate orgId since before + monthToDate orgId since after := by
  simp [monthToDate]

theorem monthToDate_singleton {orgId : Uuid} {since : Time} {event : UsageEvent}
    (hcounts : countsToward orgId since event = true) :
    monthToDate orgId since [event] = event.costUsd.toRat := by
  simp [monthToDate, hcounts]

/-- The event of a turn of the month counts toward it. -/
theorem countsToward_event {usage : UsageRecord} {orgId : Uuid} {costUsd : Numeric 12 6} {id : Uuid}
    {createdAt : Time} : countsToward orgId createdAt.monthStart
      (usage.event orgId costUsd id createdAt) = true := by
  simp [countsToward, UsageRecord.event, Time.monthStart_le]

theorem budgetCrossed_iff {budget : Numeric 12 2} {priorCost costUsd : ℚ} :
    budgetCrossed (some budget) priorCost costUsd = true ↔
      priorCost < budget.toRat ∧ budget.toRat ≤ priorCost + costUsd := by
  simp [budgetCrossed]

/-- A session that sees every row of the organization sums what is stored. -/
theorem runs_monthToDateCostUsd {conn conn' : Conn} {orgId : Uuid} {now : Time} {cost : ℚ}
    (hrole : conn.role = .appUser) (horg : conn.currentOrg = some orgId)
    (h : (monthToDateCostUsd orgId now).Runs conn cost conn') :
    conn = conn' ∧ cost = monthToDate orgId now.monthStart (conn.db .usageEvents) := by
  simp only [monthToDateCostUsd, Program.runs_bind, runs_scalars, Program.runs_pure] at h
  obtain ⟨events, _, ⟨hevents, rfl⟩, rfl, rfl⟩ := h
  refine ⟨rfl, ?_⟩
  have hgrant : conn.policy.grants .select .usageEvents = true := by
    unfold Conn.policy
    rw [hrole]
    rfl
  rw [Policy.selectRows, if_pos hgrant] at hevents
  cases hevents
  unfold monthToDate
  congr 2
  refine List.filter_congr fun event _ => ?_
  by_cases hcounts : countsToward orgId now.monthStart event = true
  · have hvisible : conn.policy.visible .usageEvents event = true := by
      have horgId : event.orgId = orgId := by
        simp only [countsToward, Bool.and_eq_true, beq_iff_eq] at hcounts
        exact hcounts.1
      simp [Conn.policy, Core.policy, hrole, horg, orgIsolation, rowOrg, horgId]
    rw [hvisible, Bool.true_and]
  · simp [hcounts]

/-- The budget stored for an organization. -/
def storedBudget (orgId : Uuid) (db : Database) : Option (Numeric 12 2) :=
  ((db .organizations).find? fun org => org.id == orgId).bind Organization.monthlyBudgetUsd

theorem storedBudget_insert (orgId : Uuid) (db : Database) (event : UsageEvent) :
    storedBudget orgId (db.insert .usageEvents event) = storedBudget orgId db := by
  rw [storedBudget, Database.insert_of_ne _ (by decide), storedBudget]

/-- A bound session finds its own organization. -/
theorem runs_getById_organization {conn conn' : Conn} {orgId : Uuid} {found : Option Organization}
    (hrole : conn.role = .appUser) (horg : conn.currentOrg = some orgId)
    (h : (getById .organizations orgId).Runs conn found conn') :
    conn = conn' ∧ found = (conn.db .organizations).find? fun org => org.id == orgId := by
  simp only [getById, scalar, Program.runs_bind, runs_scalars, Program.runs_pure] at h
  obtain ⟨orgs, _, ⟨horgs, rfl⟩, rfl, rfl⟩ := h
  refine ⟨rfl, ?_⟩
  have hgrant : conn.policy.grants .select .organizations = true := by
    unfold Conn.policy
    rw [hrole]
    rfl
  rw [Policy.selectRows, if_pos hgrant] at horgs
  cases horgs
  rw [List.head?_filter]
  congr 1
  funext org
  simp [Conn.policy, Core.policy, hrole, horg, orgIsolation, rowOrg, rowId]

/-- What a successful `recordUsage` stored and found out. -/
theorem recordUsage_eq_ok {conn conn' : Conn} {orgId : Uuid} {usage : UsageRecord} {costUsd : ℚ}
    {id : Uuid} {now : Time} {event : UsageEvent} {crossed : Bool}
    (hrole : conn.role = .appUser) (horg : conn.currentOrg = some orgId)
    (h : (recordUsage orgId usage costUsd id now).Runs conn (event, crossed) conn') :
    ∃ stored, Numeric.ofRat? 12 6 costUsd = some stored ∧
      event = usage.event orgId stored id conn.now ∧
      conn.Wrote [.insert .usageEvents event] conn' ∧
      crossed = budgetCrossed (storedBudget orgId conn.db)
        (monthToDate orgId now.monthStart (conn.db .usageEvents)) costUsd := by
  simp only [recordUsage, Program.runs_bind, runs_ofStatement, runs_transactionTime, runs_add,
    storeCost_eq_ok] at h
  obtain ⟨priorCost, _, hprior, stored, _, ⟨hstored, rfl⟩, _, _, ⟨rfl, rfl⟩, _, _, hwrote, found,
    _, hfound, hresult⟩ := h
  obtain ⟨rfl, rfl⟩ := runs_monthToDateCostUsd hrole horg hprior
  obtain ⟨rfl, rfl⟩ := runs_getById_organization (hwrote.role.trans hrole)
    (hwrote.currentOrg.trans horg) hfound
  simp only [Program.runs_pure, Prod.mk.injEq] at hresult
  obtain ⟨⟨rfl, rfl⟩, rfl⟩ := hresult
  refine ⟨stored, hstored, rfl, hwrote, ?_⟩
  rw [← storedBudget_insert, ← hwrote.insert.1, storedBudget]

end Core
