import Mathlib.Data.Rat.Floor
import Mathlib.Tactic

/-!
# Decimal arithmetic

The arithmetic of `decimal` in its default context: an operation computes the exact
result and, when it has more than 28 digits, rounds it half to even and signals that
it did.  Infinities, NaNs and the limits of the exponent are left out, and so is the
sign of a zero.

Whether an operation is exact is decided by the digits of its result: `mul_of_lt`,
`add_of_lt`, and `div_pow_ten` for a quotient by a power of ten.
-/

namespace Python

/-- A finite decimal number. -/
structure Decimal where
  coefficient : ℤ
  exponent : ℤ
  deriving DecidableEq

namespace Decimal

/-- The number itself. -/
def toRat (d : Decimal) : ℚ := d.coefficient * 10 ^ d.exponent

/-- `getcontext().prec` -/
def prec : ℕ := 28

/-- The flags of the context that tell about rounding. -/
structure Signals where
  rounded : Bool := false
  inexact : Bool := false
  deriving DecidableEq

abbrev Arith := StateM Signals

/-- `len(str(n))` -/
def digitCount (n : ℕ) : ℕ := (Nat.toDigits 10 n).length

/-- `n / unit`, rounded half to even. -/
def roundHalfEven (n unit : ℕ) : ℕ :=
  let quotient := n / unit
  let twice := 2 * (n % unit)
  if twice < unit ∨ (twice = unit ∧ quotient % 2 = 0) then quotient else quotient + 1

/-- Round to the precision of the context if necessary. -/
def fix (d : Decimal) : Arith Decimal :=
  let magnitude := d.coefficient.natAbs
  let excess := digitCount magnitude - prec
  if excess = 0 then pure d
  else do
    let unit := 10 ^ excess
    modify fun signals =>
      { rounded := true, inexact := signals.inexact || magnitude % unit != 0 }
    let kept := roundHalfEven magnitude unit
    pure (if digitCount kept ≤ prec then ⟨d.coefficient.sign * kept, d.exponent + excess⟩
      else ⟨d.coefficient.sign * (kept / 10 : ℕ), d.exponent + excess + 1⟩)

/-- `Decimal(n)` -/
def ofInt (n : ℤ) : Decimal := ⟨n, 0⟩

def mul (a b : Decimal) : Arith Decimal :=
  fix ⟨a.coefficient * b.coefficient, a.exponent + b.exponent⟩

def add (a b : Decimal) : Arith Decimal :=
  let exponent := min a.exponent b.exponent
  fix ⟨a.coefficient * 10 ^ (a.exponent - exponent).toNat +
    b.coefficient * 10 ^ (b.exponent - exponent).toNat, exponent⟩

/-- Drop zeros at the end, at most `limit` of them; also tells how many were dropped. -/
def stripZeros : ℕ → ℕ → ℕ × ℕ
  | 0, n => (n, 0)
  | limit + 1, n =>
      if n % 10 = 0 then ((stripZeros limit (n / 10)).1, (stripZeros limit (n / 10)).2 + 1)
      else (n, 0)

/-- The quotient of two numbers; an exact one gets as close to the difference of the
exponents as possible, another one gets a digit that makes it round correctly. -/
def div (a b : Decimal) (_ : b.coefficient ≠ 0) : Arith Decimal :=
  let ideal := a.exponent - b.exponent
  let dividend := a.coefficient.natAbs
  let divisor := b.coefficient.natAbs
  let sign := a.coefficient.sign * b.coefficient.sign
  if dividend = 0 then fix ⟨0, ideal⟩
  else
    let shift : ℤ := digitCount divisor - digitCount dividend + prec + 1
    let numerator := dividend * 10 ^ shift.toNat
    let denominator := divisor * 10 ^ (-shift).toNat
    let quotient := numerator / denominator
    if numerator % denominator = 0 then
      let (stripped, zeros) := stripZeros shift.toNat quotient
      fix ⟨sign * stripped, ideal - shift + zeros⟩
    else
      fix ⟨sign * (if quotient % 5 = 0 then quotient + 1 else quotient : ℕ), ideal - shift⟩

/-! ## Exact results -/

section Spec

theorem digitCount_le_iff {n k : ℕ} (hk : 0 < k) : digitCount n ≤ k ↔ n < 10 ^ k :=
  Nat.length_toDigits_le_iff (by decide) hk

theorem digitCount_pow_ten (k : ℕ) : digitCount (10 ^ k) = k + 1 := by
  have hle : digitCount (10 ^ k) ≤ k + 1 :=
    (digitCount_le_iff k.succ_pos).mpr (Nat.pow_lt_pow_right (by decide) k.lt_succ_self)
  have hlt : k < digitCount (10 ^ k) := by
    cases k with
    | zero => exact Nat.length_toDigits_pos
    | succ k =>
        apply not_le.mp
        rw [digitCount_le_iff k.succ_pos]
        exact lt_irrefl _
  omega

/-- A result of at most 28 digits stays as it is. -/
theorem fix_of_lt {d : Decimal} (h : d.coefficient.natAbs < 10 ^ prec) : fix d = pure d := by
  have hdigits := (digitCount_le_iff (by decide)).mpr h
  exact if_pos (Nat.sub_eq_zero_of_le hdigits)

theorem mul_of_lt {a b : Decimal} (h : (a.coefficient * b.coefficient).natAbs < 10 ^ prec) :
    mul a b = pure ⟨a.coefficient * b.coefficient, a.exponent + b.exponent⟩ :=
  fix_of_lt h

theorem add_of_lt {first second exponent : ℤ} (h : (first + second).natAbs < 10 ^ prec) :
    add ⟨first, exponent⟩ ⟨second, exponent⟩ = pure ⟨first + second, exponent⟩ := by
  have hsum : add ⟨first, exponent⟩ ⟨second, exponent⟩ = fix ⟨first + second, exponent⟩ := by
    simp [add]
  rw [hsum]
  exact fix_of_lt h

@[simp] theorem toRat_ofInt (n : ℤ) : (ofInt n).toRat = n := by
  simp [ofInt, toRat]

theorem toRat_mul (a b : Decimal) :
    toRat ⟨a.coefficient * b.coefficient, a.exponent + b.exponent⟩ = a.toRat * b.toRat := by
  unfold toRat
  rw [zpow_add₀ (by norm_num), Int.cast_mul]
  ring

theorem toRat_add (first second exponent : ℤ) : toRat ⟨first + second, exponent⟩ =
    toRat ⟨first, exponent⟩ + toRat ⟨second, exponent⟩ := by
  unfold toRat
  rw [Int.cast_add, add_mul]

/-! ### Quotients -/

theorem stripZeros_spec (limit n : ℕ) :
    (stripZeros limit n).1 * 10 ^ (stripZeros limit n).2 = n := by
  induction limit generalizing n with
  | zero => simp [stripZeros]
  | succ limit ih =>
      rw [stripZeros]
      split
      · next hzero =>
          rw [pow_succ, ← mul_assoc, ih]
          omega
      · simp

theorem stripZeros_le (limit n : ℕ) : (stripZeros limit n).1 ≤ n := by
  calc (stripZeros limit n).1
      ≤ (stripZeros limit n).1 * 10 ^ (stripZeros limit n).2 :=
        Nat.le_mul_of_pos_right _ (by positivity)
    _ = n := stripZeros_spec limit n

/-- Zeros within the limit are dropped. -/
theorem stripZeros_mul_pow (extra limit n : ℕ) : stripZeros (limit + extra) (n * 10 ^ extra) =
    ((stripZeros limit n).1, (stripZeros limit n).2 + extra) := by
  induction extra with
  | zero => simp
  | succ extra ih =>
      have hdivided : n * 10 ^ (extra + 1) / 10 = n * 10 ^ extra := by
        rw [pow_succ, ← mul_assoc, Nat.mul_div_cancel _ (by decide)]
      have hzero : n * 10 ^ (extra + 1) % 10 = 0 := by
        rw [pow_succ, ← mul_assoc, Nat.mul_mod_left]
      rw [← add_assoc, stripZeros, if_pos hzero, hdivided, ih]
      rfl

/-- A number divided by a power of ten, with up to `k` of its zeros dropped, and with
`more` zeros that were put there before and dropped again. -/
def shifted (a : Decimal) (k more : ℕ) (exponent : ℤ) : Decimal where
  coefficient := a.coefficient.sign * (stripZeros k a.coefficient.natAbs).1
  exponent := a.exponent - exponent - (k + more : ℕ) +
    ((stripZeros k a.coefficient.natAbs).2 + more : ℕ)

/-- Shifting the digits is the division. -/
theorem toRat_shifted (a : Decimal) (k more : ℕ) (exponent : ℤ) :
    (shifted a k more exponent).toRat = a.toRat / toRat ⟨10 ^ k, exponent⟩ := by
  have hvalue : (a.coefficient : ℚ) = a.coefficient.sign *
      ((stripZeros k a.coefficient.natAbs).1 * 10 ^ (stripZeros k a.coefficient.natAbs).2) := by
    have hsplit := Int.sign_mul_natAbs a.coefficient
    rw [← stripZeros_spec k a.coefficient.natAbs] at hsplit
    exact_mod_cast hsplit.symm
  have hten : (10 : ℚ) ≠ 0 := by norm_num
  have hexponent : (shifted a k more exponent).exponent =
      (stripZeros k a.coefficient.natAbs).2 + a.exponent - (k + exponent) := by
    rw [shifted]
    push_cast
    ring
  rw [toRat, hexponent, zpow_sub₀ hten, zpow_add₀ hten, zpow_add₀ hten, zpow_natCast, zpow_natCast]
  simp only [shifted, toRat, hvalue, Int.cast_mul, Int.cast_natCast, Int.cast_pow, Int.cast_ofNat]
  ring

/-- A quotient of a number other than zero by a power of ten. -/
theorem div_pow_ten_of_ne {a : Decimal} (h : a.coefficient.natAbs < 10 ^ prec)
    (hzero : a.coefficient.natAbs ≠ 0) (k : ℕ) (exponent : ℤ)
    (hne : (⟨10 ^ k, exponent⟩ : Decimal).coefficient ≠ 0) :
    ∃ more, div a ⟨10 ^ k, exponent⟩ hne = pure (shifted a k more exponent) := by
  have hdivisor : ((10 : ℤ) ^ k).natAbs = 10 ^ k := by simp [Int.natAbs_pow]
  have hsign : ((10 : ℤ) ^ k).sign = 1 := Int.sign_eq_one_of_pos (by positivity)
  -- the dividend gets more zeros than the divisor has
  obtain ⟨more, hmore⟩ := Nat.exists_eq_add_of_le
    (((digitCount_le_iff (by decide)).mpr h).trans (Nat.le_add_right prec 2))
  have hshift : (digitCount (10 ^ k) - digitCount a.coefficient.natAbs + prec + 1 : ℤ) =
      (k + more : ℕ) := by
    rw [digitCount_pow_ten]
    push_cast
    omega
  have hquotient : a.coefficient.natAbs * 10 ^ (k + more) =
      a.coefficient.natAbs * 10 ^ more * 10 ^ k := by
    rw [pow_add]
    ring
  have hdivided : a.coefficient.natAbs * 10 ^ more * 10 ^ k / 10 ^ k =
      a.coefficient.natAbs * 10 ^ more := Nat.mul_div_cancel _ (by positivity)
  have hdigits : (shifted a k more exponent).coefficient.natAbs < 10 ^ prec := by
    rw [shifted, Int.natAbs_mul, Int.natAbs_natCast, Int.natAbs_sign_of_ne_zero
      (Int.natAbs_ne_zero.mp hzero), one_mul]
    exact (stripZeros_le _ _).trans_lt h
  refine ⟨more, ?_⟩
  rw [div, if_neg hzero]
  simp only [hdivisor, hshift, Int.toNat_natCast, Int.toNat_neg_natCast, pow_zero, mul_one,
    hquotient, Nat.mul_mod_left, if_true, hdivided, stripZeros_mul_pow, hsign]
  exact fix_of_lt hdigits

/-- A quotient by a power of ten is exact, and has at most as many digits. -/
theorem div_pow_ten {a : Decimal} (h : a.coefficient.natAbs < 10 ^ prec) (k : ℕ) (exponent : ℤ)
    (hne : (⟨10 ^ k, exponent⟩ : Decimal).coefficient ≠ 0) :
    ∃ quotient : Decimal, div a ⟨10 ^ k, exponent⟩ hne = pure quotient ∧
      quotient.toRat = a.toRat / toRat ⟨10 ^ k, exponent⟩ := by
  by_cases hzero : a.coefficient.natAbs = 0
  · refine ⟨⟨0, a.exponent - exponent⟩, ?_, ?_⟩
    · rw [div, if_pos hzero]
      exact fix_of_lt (Nat.pow_pos (by decide))
    · rw [Int.natAbs_eq_zero] at hzero
      simp [toRat, hzero]
  · obtain ⟨more, hquotient⟩ := div_pow_ten_of_ne h hzero k exponent hne
    exact ⟨shifted a k more exponent, hquotient, toRat_shifted a k more exponent⟩

end Spec

end Decimal

end Python
