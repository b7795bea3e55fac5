import KnowledgePlatform.Core.BudgetAlerts
import KnowledgePlatform.Core.Pricing

/-!
# The drift of recorded costs

A usage event stores its cost rounded to a micro-dollar.  The cost is computed without
rounding, so that an event adds at most half a micro-dollar to the distance between
the stored total and the exact price of all tokens (`Recorded.drift`); over a sequence
of events these distances add up and no more (`recorded_drift`).
-/

open Foundations Python Relational

namespace Core

/-! ## The costs of activities -/

namespace Activity

/-- The cost that is passed to `record_usage`, as it is computed. -/
def decimalCostUsd : Activity → Decimal.Arith Decimal
  | chatTurn _ _ provider model inputTokens outputTokens _ _ _ =>
      Pricing.generationCostUsd provider model inputTokens outputTokens
  | ingestion _ provider model totalTokens _ _ _ =>
      Pricing.embeddingCostUsd provider model totalTokens

/-- The token counts fit their columns. -/
def HasTokenCounts : Activity → Prop
  | chatTurn _ _ _ _ inputTokens outputTokens _ _ _ => inputTokens < 2 ^ 31 ∧ outputTokens < 2 ^ 31
  | ingestion _ _ _ totalTokens _ _ _ => totalTokens < 2 ^ 31

variable {activity : Activity}

theorem isTokenCount_of_lt {tokens : ℕ} (h : tokens < 2 ^ 31) : Pricing.IsTokenCount tokens :=
  ⟨Int.natCast_nonneg _, by exact_mod_cast h⟩

/-- The cost is computed without rounding, and is the exact price. -/
theorem decimalCostUsd_eq (h : activity.HasTokenCounts) :
    ∃ cost, activity.decimalCostUsd = pure cost ∧ cost.toRat = activity.costUsd := by
  cases activity with
  | chatTurn =>
      exact Pricing.generationCostUsd_eq (isTokenCount_of_lt h.1) (isTokenCount_of_lt h.2)
  | ingestion => exact Pricing.embeddingCostUsd_eq (isTokenCount_of_lt h)

theorem costUsd_le (h : activity.HasTokenCounts) : activity.costUsd ≤ 999999 := by
  cases activity with
  | chatTurn =>
      exact Pricing.generationCostUsd_le (isTokenCount_of_lt h.1) (isTokenCount_of_lt h.2)
  | ingestion => exact Pricing.embeddingCostUsd_le (isTokenCount_of_lt h)

/-- There is room for the cost in its column. -/
theorem exists_storeCost (h : activity.HasTokenCounts) :
    ∃ stored, storeCost activity.costUsd = .ok stored := by
  have hsmall : |activity.costUsd| * 10 ^ 6 + 1 / 2 < 10 ^ 12 := by
    rw [abs_of_nonneg activity.costUsd_nonneg]
    have hle := costUsd_le h
    linarith
  obtain ⟨stored, hstored⟩ := Numeric.exists_ofRat? hsmall
  exact ⟨stored, storeCost_eq_ok.mpr hstored⟩

end Activity

/-! ## Recording -/

/-- An activity of an organization. -/
structure Recording where
  orgId : Uuid
  activity : Activity

namespace Recording

/-- The cost as it is computed, with the flags of the context cleared before. -/
def costUsd (recording : Recording) : ℚ := (recording.activity.decimalCostUsd.run {}).1.toRat

/-- The part of the transaction that records the usage. -/
def record (recording : Recording) : Tx (UsageEvent × Bool) := do
  setOrgContext recording.orgId
  recordUsage recording.orgId recording.activity.usage recording.costUsd recording.activity.id
    recording.activity.now

/-- Whether the recorded event counts, by its organization and its time. -/
def isCounted (counted : Uuid → Time → Bool) (recording : Recording) : Bool :=
  counted recording.orgId recording.activity.started

theorem costUsd_eq {recording : Recording} (h : recording.activity.HasTokenCounts) :
    recording.costUsd = recording.activity.costUsd := by
  obtain ⟨cost, hcost, hvalue⟩ := Activity.decimalCostUsd_eq h
  rw [costUsd, hcost]
  exact hvalue

end Recording

/-- The recording succeeds and takes one database to the other. -/
def Recorded (db : Database) (recording : Recording) (db' : Database) : Prop :=
  ∃ result conn, recording.record.Runs (.start .appUser recording.activity.started db) result conn ∧
    conn.db = db'

section Drift

variable {counted : Uuid → Time → Bool} {db db' start last : Database} {recording : Recording}
  {recordings : List Recording}

/-! ## Totals -/

/-- The stored cost of the events that count. -/
def storedTotal (counted : Uuid → Time → Bool) (db : Database) : ℚ :=
  (((db .usageEvents).filter fun event => counted event.orgId event.createdAt).map
    fun event => event.costUsd.toRat).sum

/-- The total that `month_to_date_cost_usd` reports is one of them. -/
theorem monthToDate_eq_storedTotal (orgId : Uuid) (since : Time) (db : Database) :
    monthToDate orgId since (db .usageEvents) =
      storedTotal (fun orgId' createdAt => orgId' == orgId && decide (since ≤ createdAt)) db := rfl

/-- The exact price of the recordings that count. -/
def exactPrice (counted : Uuid → Time → Bool) (recordings : List Recording) : ℚ :=
  ((recordings.filter (Recording.isCounted counted)).map fun recording =>
    recording.activity.costUsd).sum

/-- A sum over the items that are kept, with one more item. -/
theorem sum_filter_concat {Item : Type} (keep : Item → Bool) (value : Item → ℚ)
    (items : List Item) (item : Item) :
    (((items ++ [item]).filter keep).map value).sum =
      ((items.filter keep).map value).sum + if keep item then value item else 0 := by
  rw [List.filter_append, List.map_append, List.sum_append]
  congr 1
  cases hkeep : keep item <;> simp [hkeep]

theorem storedTotal_insert (event : UsageEvent) :
    storedTotal counted (db.insert .usageEvents event) = storedTotal counted db +
      if counted event.orgId event.createdAt then event.costUsd.toRat else 0 := by
  unfold storedTotal
  rw [Database.insert_self]
  exact sum_filter_concat (fun event : UsageEvent => counted event.orgId event.createdAt) _ _ _

theorem exactPrice_concat : exactPrice counted (recordings ++ [recording]) =
    exactPrice counted recordings +
      if recording.isCounted counted then recording.activity.costUsd else 0 :=
  sum_filter_concat _ _ _ _

/-! ## The drift -/

/-- A recording adds its stored cost to the totals it counts toward. -/
theorem Recorded.storedTotal_eq (h : Recorded db recording db') :
    ∃ stored, Numeric.ofRat? 12 6 recording.costUsd = some stored ∧
      ∀ counted, storedTotal counted db' = storedTotal counted db +
        if recording.isCounted counted then stored.toRat else 0 := by
  obtain ⟨⟨event, crossed⟩, conn, hrun, rfl⟩ := h
  simp only [Recording.record, Program.runs_bind, runs_setOrgContext] at hrun
  obtain ⟨_, _, rfl, hrun⟩ := hrun
  obtain ⟨stored, hstored, rfl, hwrote, _⟩ := recordUsage_eq_ok rfl rfl hrun
  refine ⟨stored, hstored, fun counted => ?_⟩
  rw [hwrote.insert.1, storedTotal_insert]
  rfl

/-- A recording moves a total by the exact price and at most half a micro-dollar, and
never down. -/
theorem Recorded.drift (h : Recorded db recording db')
    (htokens : recording.activity.HasTokenCounts) (counted : Uuid → Time → Bool) :
    |storedTotal counted db' - storedTotal counted db -
        if recording.isCounted counted then recording.activity.costUsd else 0| ≤
      (if recording.isCounted counted then 1 else 0 : ℕ) * (5 / 10 ^ 7) ∧
    storedTotal counted db ≤ storedTotal counted db' := by
  obtain ⟨stored, hstored, htotal⟩ := h.storedTotal_eq
  rw [Recording.costUsd_eq htokens] at hstored
  have hnonneg := Numeric.toRat_nonneg_of_ofRat? recording.activity.costUsd_nonneg hstored
  have hrounded := Numeric.abs_toRat_sub_le hstored
  rw [htotal, add_sub_cancel_left]
  split
  · constructor
    · calc |stored.toRat - recording.activity.costUsd| ≤ 1 / 2 / 10 ^ 6 := hrounded
        _ = (1 : ℕ) * (5 / 10 ^ 7) := by norm_num
    · exact le_add_of_nonneg_right hnonneg
  · simp

/-- The drifts of a sequence of recordings add up. -/
theorem abs_storedTotal_sub_le (counted : Uuid → Time → Bool)
    (htokens : ∀ recording ∈ recordings, recording.activity.HasTokenCounts)
    (hrun : Run Recorded start recordings last) :
    |storedTotal counted last - storedTotal counted start - exactPrice counted recordings| ≤
      recordings.countP (Recording.isCounted counted) * (5 / 10 ^ 7) := by
  induction hrun with
  | nil => simp [exactPrice]
  | @snoc before middle last recording hearlier hlast ih =>
      have hbefore := ih fun other hother => htokens other (List.mem_append_left _ hother)
      have hstep := (hlast.drift (htokens recording (by simp)) counted).1
      rw [exactPrice_concat, List.countP_append, List.countP_singleton, Nat.cast_add, add_mul]
      calc |storedTotal counted last - storedTotal counted start -
            (exactPrice counted before +
              if recording.isCounted counted then recording.activity.costUsd else 0)|
          = |(storedTotal counted middle - storedTotal counted start - exactPrice counted before) +
              (storedTotal counted last - storedTotal counted middle -
                if recording.isCounted counted then recording.activity.costUsd else 0)| := by
            congr 1
            ring
        _ ≤ |storedTotal counted middle - storedTotal counted start - exactPrice counted before| +
              |storedTotal counted last - storedTotal counted middle -
                if recording.isCounted counted then recording.activity.costUsd else 0| :=
            abs_add_le _ _
        _ ≤ _ := add_le_add hbefore hstep

theorem storedTotal_le (counted : Uuid → Time → Bool)
    (htokens : ∀ recording ∈ recordings, recording.activity.HasTokenCounts)
    (hrun : Run Recorded start recordings last) :
    storedTotal counted start ≤ storedTotal counted last := by
  induction hrun with
  | nil => exact le_rfl
  | snoc hearlier hlast ih =>
      have hbefore := ih fun other hother => htokens other (List.mem_append_left _ hother)
      exact hbefore.trans (hlast.drift (htokens _ (by simp)) counted).2

/-- For every sequence of recordings with token counts that fit their columns, and every
choice of the events that count: the stored total moves by the exact price of the tokens
and at most half a micro-dollar for each event, it never goes down, and no operation on a
cost rounds.  There is room for every such cost in its column. -/
theorem recorded_drift (counted : Uuid → Time → Bool)
    (htokens : ∀ recording ∈ recordings, recording.activity.HasTokenCounts)
    (hrun : Run Recorded start recordings last) :
    |storedTotal counted last - storedTotal counted start - exactPrice counted recordings| ≤
      recordings.countP (Recording.isCounted counted) * (5 / 10 ^ 7) ∧
    storedTotal counted start ≤ storedTotal counted last ∧
    (∀ recording ∈ recordings, ∀ signals,
      (recording.activity.decimalCostUsd.run signals).2 = signals) ∧
    ∀ recording : Recording, recording.activity.HasTokenCounts →
      ∃ stored, storeCost recording.costUsd = .ok stored := by
  refine ⟨abs_storedTotal_sub_le counted htokens hrun, storedTotal_le counted htokens hrun,
    fun recording hrecording signals => ?_, fun recording hrecording => ?_⟩
  · obtain ⟨cost, hcost, _⟩ := Activity.decimalCostUsd_eq (htokens recording hrecording)
    rw [hcost]
    rfl
  · rw [Recording.costUsd_eq hrecording]
    exact Activity.exists_storeCost hrecording

end Drift

/-- What a recording makes of the database. -/
def Recording.next (db : Database) (recording : Recording) : Option Database :=
  (recording.record (.start .appUser recording.activity.started db)).toOption.map fun recorded =>
    recorded.2.db

theorem recorded_of_next {db db' : Database} {recording : Recording}
    (h : Recording.next db recording = some db') : Recorded db recording db' := by
  obtain ⟨⟨result, conn⟩, hresult, hlast⟩ := Option.map_eq_some_iff.mp h
  exact ⟨result, conn, Program.runs_of_toOption hresult, hlast⟩

/-- Two chat turns, the cost of the second below a micro-dollar, and an ingestion. -/
def centRecordings : List Recording :=
  [⟨1, Account.pricedTurn 66660 5⟩, ⟨1, Account.pricedTurn 4 6⟩,
    ⟨1, .ingestion 4 "openai".toList "text-embedding-3-small".toList 500001 7 0 0⟩]

theorem recorded_drift_cent : ∃ last, Run Recorded Account.centDb centRecordings last ∧
    |storedTotal (fun _ _ => true) last - storedTotal (fun _ _ => true) Account.centDb -
        exactPrice (fun _ _ => true) centRecordings| ≤ (3 : ℕ) * (5 / 10 ^ 7) := by
  have hreplay : (replay Recording.next Account.centDb centRecordings).isSome = true := by
    decide +kernel
  have htokens : ∀ recording ∈ centRecordings, recording.activity.HasTokenCounts := by
    simp [centRecordings, Account.pricedTurn, Activity.HasTokenCounts]
  obtain ⟨last, hlast⟩ := Option.isSome_iff_exists.mp hreplay
  have hrun := (run_of_replay _ _ _ _ hlast).mono fun _ _ _ => recorded_of_next
  exact ⟨last, hrun, (recorded_drift (fun _ _ => true) htokens hrun).1⟩

end Core
