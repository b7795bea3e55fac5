import KnowledgePlatform.Core.Usage
import KnowledgePlatform.Python.Decimal

/-!
# Prices in decimals

`generation_cost_usd` and `embedding_cost_usd` as they compute, in the arithmetic of
`decimal`.  A price is a number of cents below a hundred dollars, so that for the token
counts of an `Integer` column every result stays far below 28 digits: no operation
rounds, and the cost is the exact price (`generationCostUsd_eq`, `embeddingCostUsd_eq`).
-/

open Foundations Python Relational

namespace Core

namespace Pricing

/-- `_PER_MILLION` -/
def perMillion : Decimal := .ofInt 1000000

theorem perMillion_ne : perMillion.coefficient ≠ 0 := by decide

/-- `_GENERATION_PRICING`, with the literals of two decimals as numbers of cents. -/
def generationPricing : List ((Str × Str) × Decimal × Decimal) :=
  [(("anthropic".toList, "claude-opus-4-8".toList), ⟨1500, -2⟩, ⟨7500, -2⟩),
    (("openai".toList, "gpt-4o-mini".toList), ⟨15, -2⟩, ⟨60, -2⟩),
    (("gemini".toList, "gemini-2.5-flash".toList), ⟨30, -2⟩, ⟨250, -2⟩)]

/-- `_EMBEDDING_PRICING` -/
def embeddingPricing : List ((Str × Str) × Decimal) :=
  [(("openai".toList, "text-embedding-3-small".toList), ⟨2, -2⟩),
    (("gemini".toList, "gemini-embedding-001".toList), ⟨15, -2⟩)]

def generationCostUsd (provider model : Str) (inputTokens outputTokens : ℤ) :
    Decimal.Arith Decimal :=
  match generationPricing.lookup (provider, model) with
  | none => pure (.ofInt 0)
  | some (inputPrice, outputPrice) => do
      let input ← (Decimal.ofInt inputTokens).mul inputPrice
      let output ← (Decimal.ofInt outputTokens).mul outputPrice
      let total ← input.add output
      total.div perMillion perMillion_ne

def embeddingCostUsd (provider model : Str) (tokens : ℤ) : Decimal.Arith Decimal :=
  match embeddingPricing.lookup (provider, model) with
  | none => pure (.ofInt 0)
  | some price => do
      let total ← (Decimal.ofInt tokens).mul price
      total.div perMillion perMillion_ne

/-! ## The tables -/

/-- A price in the tables. -/
structure IsPrice (price : Decimal) : Prop where
  exponent : price.exponent = -2
  nonneg : 0 ≤ price.coefficient
  le : price.coefficient ≤ 7500

theorem isPrice_of_generation {provider model : Str} {input output : Decimal}
    (h : generationPricing.lookup (provider, model) = some (input, output)) :
    IsPrice input ∧ IsPrice output := by
  obtain ⟨before, after, heq, _⟩ := List.lookup_eq_some_iff.mp h
  have hmem : ((provider, model), input, output) ∈ generationPricing := heq ▸ by simp
  simp only [generationPricing, List.mem_cons, Prod.mk.injEq, List.not_mem_nil, or_false] at hmem
  rcases hmem with ⟨_, rfl, rfl⟩ | ⟨_, rfl, rfl⟩ | ⟨_, rfl, rfl⟩
  · exact ⟨⟨rfl, by decide, by decide⟩, ⟨rfl, by decide, by decide⟩⟩
  · exact ⟨⟨rfl, by decide, by decide⟩, ⟨rfl, by decide, by decide⟩⟩
  · exact ⟨⟨rfl, by decide, by decide⟩, ⟨rfl, by decide, by decide⟩⟩

theorem isPrice_of_embedding {provider model : Str} {price : Decimal}
    (h : embeddingPricing.lookup (provider, model) = some price) : IsPrice price := by
  obtain ⟨before, after, heq, _⟩ := List.lookup_eq_some_iff.mp h
  have hmem : ((provider, model), price) ∈ embeddingPricing := heq ▸ by simp
  simp only [embeddingPricing, List.mem_cons, Prod.mk.injEq, List.not_mem_nil, or_false] at hmem
  rcases hmem with ⟨_, rfl⟩ | ⟨_, rfl⟩
  · exact ⟨rfl, by decide, by decide⟩
  · exact ⟨rfl, by decide, by decide⟩

/-- A lookup of a pair is a search for both of its parts. -/
theorem find?_map_eq_lookup {Value Entry : Type} (entry : Str → Str → Value → Entry)
    {wanted : Entry → Bool} {provider model : Str}
    (hwanted : ∀ provider' model' value,
      wanted (entry provider' model' value) = (provider' == provider && model' == model))
    (table : List ((Str × Str) × Value)) :
    (table.map fun row => entry row.1.1 row.1.2 row.2).find? wanted =
      (table.lookup (provider, model)).map (entry provider model) := by
  induction table with
  | nil => rfl
  | cons row rest ih =>
      obtain ⟨⟨provider', model'⟩, value⟩ := row
      rw [List.map_cons, List.find?_cons, hwanted, List.lookup_cons, ih]
      by_cases hkey : provider' = provider ∧ model' = model
      · obtain ⟨rfl, rfl⟩ := hkey
        simp
      · have hfound : (provider' == provider && model' == model) = false := by
          simpa using hkey
        have hlookup : ((provider, model) == (provider', model')) = false := by
          rw [beq_eq_false_iff_ne]
          rintro ⟨⟩
          exact hkey ⟨rfl, rfl⟩
        rw [hfound, hlookup]

/-- The tables of the exact prices are these tables. -/
theorem find?_generationPricing (provider model : Str) :
    Core.generationPricing.find? (fun price => price.provider == provider && price.model == model) =
      (generationPricing.lookup (provider, model)).map fun prices =>
        ⟨provider, model, prices.1.toRat, prices.2.toRat⟩ := by
  have htable : Core.generationPricing = generationPricing.map fun row =>
      ⟨row.1.1, row.1.2, row.2.1.toRat, row.2.2.toRat⟩ := by
    simp only [Core.generationPricing, generationPricing, Decimal.toRat, List.map_cons,
      List.map_nil]
    norm_num
  rw [htable]
  exact find?_map_eq_lookup (fun provider model (prices : Decimal × Decimal) =>
    GenerationPrice.mk provider model prices.1.toRat prices.2.toRat) (fun _ _ _ => rfl) _

theorem find?_embeddingPricing (provider model : Str) :
    Core.embeddingPricing.find? (fun price => price.provider == provider && price.model == model) =
      (embeddingPricing.lookup (provider, model)).map fun price =>
        ⟨provider, model, price.toRat⟩ := by
  have htable : Core.embeddingPricing = embeddingPricing.map fun row =>
      ⟨row.1.1, row.1.2, row.2.toRat⟩ := by
    simp only [Core.embeddingPricing, embeddingPricing, Decimal.toRat, List.map_cons,
      List.map_nil]
    norm_num
  rw [htable]
  exact find?_map_eq_lookup (fun provider model (price : Decimal) =>
    EmbeddingPrice.mk provider model price.toRat) (fun _ _ _ => rfl) _

/-! ## The costs -/

/-- A token count that fits its column. -/
def IsTokenCount (tokens : ℤ) : Prop := 0 ≤ tokens ∧ tokens < 2 ^ 31

/-- A count times a price is exact, with as many digits as fit easily. -/
theorem mul_price {tokens : ℤ} {price : Decimal} (htokens : IsTokenCount tokens)
    (hprice : IsPrice price) :
    (Decimal.ofInt tokens).mul price = pure ⟨tokens * price.coefficient, -2⟩ ∧
      0 ≤ tokens * price.coefficient ∧ tokens * price.coefficient ≤ 2 ^ 31 * 7500 ∧
      Decimal.toRat ⟨tokens * price.coefficient, -2⟩ = tokens * price.toRat := by
  have hnonneg := mul_nonneg htokens.1 hprice.nonneg
  have hle : tokens * price.coefficient ≤ 2 ^ 31 * 7500 :=
    mul_le_mul htokens.2.le hprice.le hprice.nonneg (by positivity)
  have hexponent : (Decimal.ofInt tokens).exponent + price.exponent = -2 := by
    rw [hprice.exponent]
    rfl
  refine ⟨?_, hnonneg, hle, ?_⟩
  · have hdigits : ((Decimal.ofInt tokens).coefficient * price.coefficient).natAbs <
        10 ^ Decimal.prec := by
      change (tokens * price.coefficient).natAbs < 10 ^ 28
      omega
    rw [Decimal.mul_of_lt hdigits, hexponent]
    rfl
  · have hproduct := Decimal.toRat_mul (.ofInt tokens) price
    rw [hexponent, Decimal.toRat_ofInt] at hproduct
    exact hproduct

/-- The division by a million is exact. -/
theorem div_perMillion {total : Decimal} (h : total.coefficient.natAbs < 10 ^ Decimal.prec) :
    ∃ cost, total.div perMillion perMillion_ne = pure cost ∧
      cost.toRat = total.toRat / Core.perMillion := by
  obtain ⟨cost, hcost, hvalue⟩ := Decimal.div_pow_ten h 6 0 perMillion_ne
  have hmillion : Decimal.toRat ⟨10 ^ 6, 0⟩ = Core.perMillion := by
    norm_num [Decimal.toRat, Core.perMillion]
  exact ⟨cost, hcost, hmillion ▸ hvalue⟩

/-- A generation cost is computed without rounding, and is the exact price. -/
theorem generationCostUsd_eq {provider model : Str} {inputTokens outputTokens : ℤ}
    (hinput : IsTokenCount inputTokens) (houtput : IsTokenCount outputTokens) :
    ∃ cost, generationCostUsd provider model inputTokens outputTokens = pure cost ∧
      cost.toRat = Core.generationCostUsd provider model inputTokens outputTokens := by
  unfold generationCostUsd Core.generationCostUsd
  rw [find?_generationPricing]
  cases hprices : generationPricing.lookup (provider, model) with
  | none => exact ⟨.ofInt 0, rfl, by simp⟩
  | some prices =>
      obtain ⟨hinputPrice, houtputPrice⟩ := isPrice_of_generation hprices
      obtain ⟨hinputCost, hinputNonneg, hinputLe, hinputValue⟩ := mul_price hinput hinputPrice
      obtain ⟨houtputCost, houtputNonneg, houtputLe, houtputValue⟩ :=
        mul_price houtput houtputPrice
      have hdigits : (inputTokens * prices.1.coefficient +
          outputTokens * prices.2.coefficient).natAbs < 10 ^ Decimal.prec := by
        change _ < 10 ^ 28
        omega
      obtain ⟨cost, hcost, hvalue⟩ := @div_perMillion ⟨_, -2⟩ hdigits
      refine ⟨cost, ?_, ?_⟩
      · simp only [hinputCost, houtputCost, pure_bind]
        rw [Decimal.add_of_lt hdigits, pure_bind]
        exact hcost
      · rw [hvalue, Decimal.toRat_add, hinputValue, houtputValue]
        rfl

/-- An embedding cost is computed without rounding, and is the exact price. -/
theorem embeddingCostUsd_eq {provider model : Str} {tokens : ℤ} (htokens : IsTokenCount tokens) :
    ∃ cost, embeddingCostUsd provider model tokens = pure cost ∧
      cost.toRat = Core.embeddingCostUsd provider model tokens := by
  unfold embeddingCostUsd Core.embeddingCostUsd
  rw [find?_embeddingPricing]
  cases hprice : embeddingPricing.lookup (provider, model) with
  | none => exact ⟨.ofInt 0, rfl, by simp⟩
  | some price =>
      obtain ⟨hproduct, hnonneg, hle, hproductValue⟩ :=
        mul_price htokens (isPrice_of_embedding hprice)
      have hdigits : (tokens * price.coefficient).natAbs < 10 ^ Decimal.prec := by
        change _ < 10 ^ 28
        omega
      obtain ⟨cost, hcost, hvalue⟩ := @div_perMillion ⟨_, -2⟩ hdigits
      refine ⟨cost, ?_, ?_⟩
      · simp only [hproduct, pure_bind]
        exact hcost
      · rw [hvalue, hproductValue]
        rfl

/-! ## The largest costs -/

theorem IsPrice.toRat_le {price : Decimal} (h : IsPrice price) : price.toRat ≤ 75 := by
  have hle : (price.coefficient : ℚ) ≤ 7500 := by exact_mod_cast h.le
  rw [Decimal.toRat, h.exponent]
  norm_num
  linarith

/-- What a count costs at most, for a million units of its price. -/
theorem mul_toRat_le {tokens : ℤ} {price : Decimal} (htokens : IsTokenCount tokens)
    (hprice : IsPrice price) : tokens * price.toRat ≤ 2 ^ 31 * 75 := by
  have hnonneg : (0 : ℚ) ≤ tokens := by exact_mod_cast htokens.1
  have hle : (tokens : ℚ) ≤ 2 ^ 31 := by exact_mod_cast htokens.2.le
  calc tokens * price.toRat ≤ tokens * 75 := mul_le_mul_of_nonneg_left hprice.toRat_le hnonneg
    _ ≤ 2 ^ 31 * 75 := mul_le_mul_of_nonneg_right hle (by norm_num)

theorem generationCostUsd_le {provider model : Str} {inputTokens outputTokens : ℤ}
    (hinput : IsTokenCount inputTokens) (houtput : IsTokenCount outputTokens) :
    Core.generationCostUsd provider model inputTokens outputTokens ≤ 999999 := by
  unfold Core.generationCostUsd
  rw [find?_generationPricing]
  cases hprices : generationPricing.lookup (provider, model) with
  | none => norm_num
  | some prices =>
      have hin := mul_toRat_le hinput (isPrice_of_generation hprices).1
      have hout := mul_toRat_le houtput (isPrice_of_generation hprices).2
      rw [Option.map_some, Core.perMillion, div_le_iff₀ (by norm_num)]
      linarith

theorem embeddingCostUsd_le {provider model : Str} {tokens : ℤ} (htokens : IsTokenCount tokens) :
    Core.embeddingCostUsd provider model tokens ≤ 999999 := by
  unfold Core.embeddingCostUsd
  rw [find?_embeddingPricing]
  cases hprice : embeddingPricing.lookup (provider, model) with
  | none => norm_num
  | some price =>
      have htotal := mul_toRat_le htokens (isPrice_of_embedding hprice)
      rw [Option.map_some, Core.perMillion, div_le_iff₀ (by norm_num)]
      linarith

end Pricing

end Core
