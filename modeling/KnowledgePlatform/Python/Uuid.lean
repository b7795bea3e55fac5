import KnowledgePlatform.Python.Text

/-!
# UUIDs

A UUID is a number of 128 bits.  Its text has 32 hexadecimal digits in five
groups; parsing ignores the hyphens and gives the UUID back (`parse_str`).
-/

namespace Python

/-- A UUID, as a number. -/
abbrev Uuid := BitVec 128

namespace Uuid

/-- The lower-case digit of a number below sixteen. -/
def hexDigit (n : ℕ) : Char := Char.ofNat (if n < 10 then 48 + n else 87 + n)

/-- The number a hexadecimal digit stands for. -/
def hexValue (c : Char) : Option ℕ :=
  let code := c.toNat
  if 48 ≤ code ∧ code ≤ 57 then some (code - 48)
  else if 97 ≤ code ∧ code ≤ 102 then some (code - 87)
  else if 65 ≤ code ∧ code ≤ 70 then some (code - 55)
  else none

/-- The last `count` hexadecimal digits of a number. -/
def hexDigits : ℕ → ℕ → Str
  | 0, _ => []
  | count + 1, n => hexDigits count (n / 16) ++ [hexDigit (n % 16)]

/-- The number that hexadecimal digits stand for. -/
def ofHex (digits : Str) : Option ℕ :=
  digits.foldlM (fun n c => (hexValue c).map fun digit => 16 * n + digit) 0

/-- Digits in groups of these lengths, with hyphens between them; the last group
takes what is left. -/
def grouped : List ℕ → Str → Str
  | [], digits => digits
  | length :: lengths, digits =>
      digits.take length ++ '-' :: grouped lengths (digits.drop length)

/-- `str(uuid)` -/
def str (uuid : Uuid) : Str := grouped [8, 4, 4, 4] (hexDigits 32 uuid.toNat)

/-- `uuid.UUID(text)`: 32 hexadecimal digits, hyphens ignored. -/
def parse (text : Str) : Option Uuid :=
  let digits := text.filter (· != '-')
  if digits.length = 32 then (ofHex digits).map (BitVec.ofNat 128) else none

theorem length_hexDigits (count n : ℕ) : (hexDigits count n).length = count := by
  induction count generalizing n with
  | zero => rfl
  | succ count ih => simp [hexDigits, ih]

theorem hexValue_hexDigit {n : ℕ} (hn : n < 16) : hexValue (hexDigit n) = some n := by
  interval_cases n <;> decide

theorem hexDigit_ne_hyphen {n : ℕ} (hn : n < 16) : hexDigit n ≠ '-' := by
  interval_cases n <;> decide

theorem hyphen_not_mem_hexDigits (count n : ℕ) : '-' ∉ hexDigits count n := by
  induction count generalizing n with
  | zero => simp [hexDigits]
  | succ count ih =>
      simp only [hexDigits, List.mem_append, List.mem_singleton, not_or]
      exact ⟨ih _, (hexDigit_ne_hyphen (Nat.mod_lt n (by decide))).symm⟩

theorem ofHex_hexDigits (count n : ℕ) : ofHex (hexDigits count n) = some (n % 16 ^ count) := by
  induction count generalizing n with
  | zero => simp [ofHex, hexDigits, Nat.mod_one]
  | succ count ih =>
      have hrest := ih (n / 16)
      unfold ofHex at hrest ⊢
      rw [hexDigits, List.foldlM_append, hrest]
      simp only [List.foldlM_cons, List.foldlM_nil, Option.bind_eq_bind, Option.bind_some,
        hexValue_hexDigit (Nat.mod_lt n (by decide)), Option.map_some, Option.pure_def]
      rw [pow_succ', Nat.mod_mul]
      congr 1
      omega

theorem filter_grouped (lengths : List ℕ) (digits : Str) :
    (grouped lengths digits).filter (· != '-') = digits.filter (· != '-') := by
  induction lengths generalizing digits with
  | nil => rfl
  | cons length lengths ih =>
      rw [grouped, List.filter_append, List.filter_cons_of_neg (by simp), ih, ← List.filter_append,
        List.take_append_drop]

theorem filter_str (uuid : Uuid) : (str uuid).filter (· != '-') = hexDigits 32 uuid.toNat := by
  rw [str, filter_grouped, List.filter_eq_self]
  intro c hc
  rw [bne_iff_ne]
  rintro rfl
  exact hyphen_not_mem_hexDigits 32 _ hc

/-- The text of a UUID is parsed back. -/
theorem parse_str (uuid : Uuid) : parse (str uuid) = some uuid := by
  unfold parse
  simp only [filter_str, length_hexDigits, if_true, ofHex_hexDigits, Option.map_some]
  have hbound : uuid.toNat < 16 ^ 32 := uuid.isLt
  rw [Nat.mod_eq_of_lt hbound, BitVec.ofNat_toNat]
  simp

theorem str_injective : Function.Injective str := by
  intro uuid other h
  have hparse := parse_str other
  rw [← h, parse_str] at hparse
  exact Option.some.inj hparse

theorem length_grouped (lengths : List ℕ) (digits : Str) :
    (grouped lengths digits).length = digits.length + lengths.length := by
  induction lengths generalizing digits with
  | nil => rfl
  | cons length lengths ih =>
      rw [grouped, List.length_append, List.length_cons, ih, List.length_take, List.length_drop,
        List.length_cons]
      omega

theorem length_str (uuid : Uuid) : (str uuid).length = 36 := by
  rw [str, length_grouped, length_hexDigits]
  rfl

theorem mem_hexDigits {count n : ℕ} {c : Char} (hc : c ∈ hexDigits count n) :
    ∃ digit < 16, c = hexDigit digit := by
  induction count generalizing n with
  | zero => cases hc
  | succ count ih =>
      rcases List.mem_append.mp hc with hbefore | hlast
      · exact ih hbefore
      · exact ⟨n % 16, Nat.mod_lt n (by decide), List.mem_singleton.mp hlast⟩

/-- The text of a UUID has hyphens and hexadecimal digits only. -/
theorem notMem_str {c : Char} (hhyphen : c ≠ '-') (hdigit : ∀ digit < 16, c ≠ hexDigit digit)
    (uuid : Uuid) : c ∉ str uuid := by
  intro hmem
  have hdigits : c ∈ hexDigits 32 uuid.toNat := by
    rw [← filter_str]
    exact List.mem_filter.mpr ⟨hmem, bne_iff_ne.mpr hhyphen⟩
  obtain ⟨digit, hlt, heq⟩ := mem_hexDigits hdigits
  exact hdigit digit hlt heq

end Uuid

end Python
