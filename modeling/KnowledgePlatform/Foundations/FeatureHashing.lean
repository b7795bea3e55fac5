import Mathlib.Tactic

/-!
# Signed feature hashing

A bag of tokens is hashed into a vector: each token adds its sign to its bucket.
`getElem?_hashed` says what each coordinate is.  As long as no two different tokens
share a bucket the coordinates are the counts of the tokens up to sign, so that two
bags have a common coordinate with a nonzero product exactly where they have a
common token, and no product is negative (`weight_mul`).
-/

namespace Foundations

section FeatureHashing

variable {Token : Type*} (bucket : Token → ℕ) (sign : Token → ℤ)

/-- Each token adds its sign to its bucket. -/
def hashed (size : ℕ) (tokens : List Token) : List ℤ :=
  tokens.foldl (fun values token => values.modify (bucket token) (· + sign token))
    (List.replicate size 0)

/-- What the tokens add to a bucket. -/
def weight (tokens : List Token) (i : ℕ) : ℤ :=
  ((tokens.filter fun token => bucket token = i).map sign).sum

variable {bucket sign}

theorem getElem?_foldl_modify (tokens : List Token) (values : List ℤ) (i : ℕ) :
    (tokens.foldl (fun values token => values.modify (bucket token) (· + sign token)) values)[i]? =
      values[i]?.map (· + weight bucket sign tokens i) := by
  induction tokens generalizing values with
  | nil => simp [weight]
  | cons token tokens ih =>
      rw [List.foldl_cons, ih, List.getElem?_modify]
      by_cases hbucket : bucket token = i
      · simp [weight, hbucket, Function.comp_def, add_assoc]
      · simp [weight, hbucket]

theorem getElem?_hashed (size : ℕ) (tokens : List Token) (i : ℕ) :
    (hashed bucket sign size tokens)[i]? =
      if i < size then some (weight bucket sign tokens i) else none := by
  rw [hashed, getElem?_foldl_modify, List.getElem?_replicate]
  split <;> simp

theorem length_hashed (size : ℕ) (tokens : List Token) :
    (hashed bucket sign size tokens).length = size := by
  have hlength : ∀ values : List ℤ, (tokens.foldl (fun values token =>
      values.modify (bucket token) (· + sign token)) values).length = values.length := by
    induction tokens with
    | nil => exact fun _ => rfl
    | cons token tokens ih =>
        intro values
        rw [List.foldl_cons, ih, List.length_modify]
  rw [hashed, hlength, List.length_replicate]

/-- A bucket of no token stays empty. -/
theorem weight_of_absent {tokens : List Token} {i : ℕ} (h : ∀ token ∈ tokens, bucket token ≠ i) :
    weight bucket sign tokens i = 0 := by
  have hnone : (tokens.filter fun token => bucket token = i) = [] := by
    rw [List.filter_eq_nil_iff]
    intro token htoken
    simpa using h token htoken
  rw [weight, hnone]
  rfl

/-- A bucket of one token holds its count. -/
theorem weight_of_alone [BEq Token] [LawfulBEq Token] {tokens : List Token} {token : Token}
    (h : ∀ other ∈ tokens, bucket other = bucket token → other = token) :
    weight bucket sign tokens (bucket token) = tokens.count token * sign token := by
  have hfilter : (tokens.filter fun other => bucket other = bucket token) =
      tokens.filter (· == token) := by
    apply List.filter_congr
    intro other hother
    rw [Bool.eq_iff_iff, decide_eq_true_iff, beq_iff_eq]
    exact ⟨h other hother, congrArg bucket⟩
  rw [weight, hfilter, List.filter_beq, List.map_replicate, List.sum_replicate, nsmul_eq_mul]

/-- Bags whose tokens do not collide meet exactly in the buckets of common tokens, and
there with the same sign. -/
theorem weight_mul [BEq Token] [LawfulBEq Token] (hsign : ∀ token, sign token * sign token = 1)
    {first second : List Token}
    (hapart : ∀ token ∈ first ++ second, ∀ other ∈ first ++ second,
      bucket token = bucket other → token = other) (i : ℕ) :
    0 ≤ weight bucket sign first i * weight bucket sign second i ∧
      (0 < weight bucket sign first i * weight bucket sign second i ↔
        ∃ token ∈ first, token ∈ second ∧ bucket token = i) := by
  by_cases hfirst : ∃ token ∈ first, bucket token = i
  · by_cases hsecond : ∃ token ∈ second, bucket token = i
    · obtain ⟨token, htoken, rfl⟩ := hfirst
      obtain ⟨other, hother, hbucket⟩ := hsecond
      obtain rfl := hapart other (List.mem_append_right _ hother) token
        (List.mem_append_left _ htoken) hbucket
      have hproduct : weight bucket sign first (bucket other) *
          weight bucket sign second (bucket other) = first.count other * second.count other := by
        rw [weight_of_alone fun found hfound hsame => hapart found (List.mem_append_left _ hfound)
            other (List.mem_append_right _ hother) hsame,
          weight_of_alone fun found hfound hsame => hapart found (List.mem_append_right _ hfound)
            other (List.mem_append_right _ hother) hsame, mul_mul_mul_comm, hsign, mul_one]
      have hpos : (0 : ℤ) < first.count other * second.count other := by
        have := List.count_pos_iff.mpr htoken
        have := List.count_pos_iff.mpr hother
        positivity
      rw [hproduct]
      exact ⟨hpos.le, fun _ => ⟨other, htoken, hother, rfl⟩, fun _ => hpos⟩
    · rw [weight_of_absent fun token htoken hbucket => hsecond ⟨token, htoken, hbucket⟩, mul_zero]
      exact ⟨le_rfl, fun h => absurd h (lt_irrefl 0),
        fun ⟨token, _, htoken, hbucket⟩ => absurd ⟨token, htoken, hbucket⟩ hsecond⟩
  · rw [weight_of_absent fun token htoken hbucket => hfirst ⟨token, htoken, hbucket⟩, zero_mul]
    exact ⟨le_rfl, fun h => absurd h (lt_irrefl 0),
      fun ⟨token, htoken, _, hbucket⟩ => absurd ⟨token, htoken, hbucket⟩ hfirst⟩

end FeatureHashing

end Foundations
