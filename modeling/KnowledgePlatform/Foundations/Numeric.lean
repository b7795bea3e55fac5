import Mathlib.Data.Rat.Floor
import Mathlib.Tactic

/-!
# Fixed-point numbers

`Numeric precision scale` holds a number of at most `precision` decimal digits,
`scale` of them behind the point.  Storing a rational number rounds it to the
nearest such number, ties away from zero, and fails when it is too large.
-/

namespace Foundations

/-- Round to the nearest integer, ties away from zero. -/
def roundHalfAway (q : ℚ) : ℤ := if 0 ≤ q then ⌊q + 1 / 2⌋ else -⌊-q + 1 / 2⌋

theorem roundHalfAway_intCast (n : ℤ) : roundHalfAway n = n := by
  have hfloor : ∀ m : ℤ, ⌊(m : ℚ) + 1 / 2⌋ = m := by
    intro m
    rw [Int.floor_eq_iff]
    constructor <;> linarith
  unfold roundHalfAway
  split
  · exact hfloor n
  · rw [← Int.cast_neg, hfloor, neg_neg]

theorem roundHalfAway_nonneg {q : ℚ} (hq : 0 ≤ q) : 0 ≤ roundHalfAway q := by
  rw [roundHalfAway, if_pos hq]
  exact Int.floor_nonneg.mpr (by linarith)

/-- Rounding moves a number by at most half a unit. -/
theorem abs_roundHalfAway_sub_le (q : ℚ) : |(roundHalfAway q : ℚ) - q| ≤ 1 / 2 := by
  have hfloor : ∀ r : ℚ, |(⌊r + 1 / 2⌋ : ℚ) - r| ≤ 1 / 2 := by
    intro r
    have hle := Int.floor_le (r + 1 / 2)
    have hlt := Int.lt_floor_add_one (r + 1 / 2)
    rw [abs_le]
    constructor <;> linarith
  unfold roundHalfAway
  split
  · exact hfloor q
  · calc |((-⌊-q + 1 / 2⌋ : ℤ) : ℚ) - q| = |(⌊-q + 1 / 2⌋ : ℚ) - -q| := by
          rw [← abs_neg]
          push_cast
          congr 1
          ring
      _ ≤ 1 / 2 := hfloor (-q)

/-- A positive integer is reached by rounding from half a unit below it on. -/
theorem le_roundHalfAway_iff {n : ℤ} (hn : 0 < n) {q : ℚ} :
    n ≤ roundHalfAway q ↔ (n : ℚ) - 1 / 2 ≤ q := by
  have hone : (1 : ℚ) ≤ n := by exact_mod_cast hn
  unfold roundHalfAway
  split
  · rw [Int.le_floor]
    constructor <;> intro h <;> linarith
  · next hnegative =>
      -- a negative number is rounded to one that is not positive
      have hfloor : 0 ≤ ⌊-q + 1 / 2⌋ := Int.floor_nonneg.mpr (by linarith)
      constructor
      · intro h
        omega
      · intro h
        linarith

/-- A number of at most `precision` decimal digits, `scale` of them behind the
point. -/
structure Numeric (precision scale : ℕ) where
  unscaled : ℤ
  bound : unscaled.natAbs < 10 ^ precision
  deriving DecidableEq

namespace Numeric

variable {precision scale : ℕ}

/-- The number itself. -/
def toRat (n : Numeric precision scale) : ℚ := n.unscaled / 10 ^ scale

/-- Store a number, rounded to the scale; `none` when it is out of range. -/
def ofRat? (precision scale : ℕ) (q : ℚ) : Option (Numeric precision scale) :=
  if h : (roundHalfAway (q * 10 ^ scale)).natAbs < 10 ^ precision then
    some ⟨roundHalfAway (q * 10 ^ scale), h⟩
  else none

instance : Zero (Numeric precision scale) := ⟨⟨0, Nat.pow_pos (by decide)⟩⟩

@[simp] theorem toRat_zero : (0 : Numeric precision scale).toRat = 0 := by
  simp [toRat, show (0 : Numeric precision scale).unscaled = 0 from rfl]

theorem toRat_mul_scale (n : Numeric precision scale) : n.toRat * 10 ^ scale = n.unscaled := by
  unfold toRat
  field_simp

/-- A number of the scale is stored without rounding. -/
theorem ofRat?_toRat (n : Numeric precision scale) : ofRat? precision scale n.toRat = some n := by
  have hround : roundHalfAway (n.toRat * 10 ^ scale) = n.unscaled := by
    rw [toRat_mul_scale, roundHalfAway_intCast]
  unfold ofRat?
  simp only [hround]
  exact dif_pos n.bound

theorem unscaled_of_ofRat? {q : ℚ} {n : Numeric precision scale}
    (h : ofRat? precision scale q = some n) : n.unscaled = roundHalfAway (q * 10 ^ scale) := by
  unfold ofRat? at h
  split at h
  · cases h
    rfl
  · cases h

/-- The numbers that are stored unchanged. -/
theorem ofRat?_exact_iff {q : ℚ} :
    (∃ n, ofRat? precision scale q = some n ∧ n.toRat = q) ↔
      ∃ m : ℤ, q * 10 ^ scale = m ∧ m.natAbs < 10 ^ precision := by
  constructor
  · rintro ⟨n, _, rfl⟩
    exact ⟨n.unscaled, toRat_mul_scale n, n.bound⟩
  · rintro ⟨m, hm, hbound⟩
    have hrat : (⟨m, hbound⟩ : Numeric precision scale).toRat = q := by
      rw [toRat, ← hm]
      field_simp
    exact ⟨⟨m, hbound⟩, hrat ▸ ofRat?_toRat _, hrat⟩

/-- A positive number of the scale is reached by what is stored for `q` when it is
reached by `q` and half a unit of the last decimal. -/
theorem le_toRat_iff_of_ofRat? {q : ℚ} {n : Numeric precision scale}
    (h : ofRat? precision scale q = some n) {m : ℤ} (hm : 0 < m) :
    (m : ℚ) / 10 ^ scale ≤ n.toRat ↔ (m : ℚ) / 10 ^ scale ≤ q + 1 / 2 / 10 ^ scale := by
  have hpow : (0 : ℚ) < 10 ^ scale := by positivity
  calc (m : ℚ) / 10 ^ scale ≤ n.toRat
      ↔ (m : ℚ) ≤ n.unscaled := by rw [toRat, div_le_div_iff_of_pos_right hpow]
    _ ↔ m ≤ roundHalfAway (q * 10 ^ scale) := by rw [Int.cast_le, unscaled_of_ofRat? h]
    _ ↔ (m : ℚ) - 1 / 2 ≤ q * 10 ^ scale := le_roundHalfAway_iff hm
    _ ↔ (m : ℚ) / 10 ^ scale ≤ q + 1 / 2 / 10 ^ scale := by
        rw [div_le_iff₀ hpow, add_mul, div_mul_cancel₀ _ hpow.ne', sub_le_iff_le_add]

/-- Storing moves a number by at most half a unit of the last decimal. -/
theorem abs_toRat_sub_le {q : ℚ} {n : Numeric precision scale}
    (h : ofRat? precision scale q = some n) : |n.toRat - q| ≤ 1 / 2 / 10 ^ scale := by
  have hpow : (0 : ℚ) < 10 ^ scale := by positivity
  calc |n.toRat - q| = |(n.unscaled : ℚ) - q * 10 ^ scale| / 10 ^ scale := by
        rw [← toRat_mul_scale, ← sub_mul, abs_mul, abs_of_pos hpow, mul_div_cancel_right₀ _ hpow.ne']
    _ = |(roundHalfAway (q * 10 ^ scale) : ℚ) - q * 10 ^ scale| / 10 ^ scale := by
        rw [unscaled_of_ofRat? h]
    _ ≤ 1 / 2 / 10 ^ scale :=
        div_le_div_of_nonneg_right (abs_roundHalfAway_sub_le _) hpow.le

/-- There is room for a number that is small enough. -/
theorem exists_ofRat? {q : ℚ} (h : |q| * 10 ^ scale + 1 / 2 < 10 ^ precision) :
    ∃ n, ofRat? precision scale q = some n := by
  have hpow : (0 : ℚ) < 10 ^ scale := by positivity
  have hround := abs_roundHalfAway_sub_le (q * 10 ^ scale)
  have hrounded : |(roundHalfAway (q * 10 ^ scale) : ℚ)| < 10 ^ precision := by
    calc |(roundHalfAway (q * 10 ^ scale) : ℚ)|
        ≤ |q * 10 ^ scale| + |(roundHalfAway (q * 10 ^ scale) : ℚ) - q * 10 ^ scale| := by
          have htriangle := abs_add_le (q * 10 ^ scale)
            ((roundHalfAway (q * 10 ^ scale) : ℚ) - q * 10 ^ scale)
          rwa [add_sub_cancel] at htriangle
      _ ≤ |q| * 10 ^ scale + 1 / 2 := by
          rw [abs_mul, abs_of_pos hpow]
          linarith
      _ < 10 ^ precision := h
  have hbound : (roundHalfAway (q * 10 ^ scale)).natAbs < 10 ^ precision := by
    rw [← Int.cast_abs, Int.abs_eq_natAbs] at hrounded
    exact_mod_cast hrounded
  exact ⟨_, dif_pos hbound⟩

/-- What is stored for a number that is not negative is not negative. -/
theorem toRat_nonneg_of_ofRat? {q : ℚ} {n : Numeric precision scale} (hq : 0 ≤ q)
    (h : ofRat? precision scale q = some n) : 0 ≤ n.toRat := by
  unfold ofRat? at h
  split at h
  · cases h
    have hround := roundHalfAway_nonneg (mul_nonneg hq (by positivity : (0 : ℚ) ≤ 10 ^ scale))
    exact div_nonneg (by exact_mod_cast hround) (by positivity)
  · cases h

end Numeric

end Foundations
