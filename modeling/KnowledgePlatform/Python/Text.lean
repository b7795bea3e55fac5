import Mathlib.Data.List.DropRight
import Mathlib.Tactic

/-!
# Python strings

Strings are lists of code points.  The functions here are the string methods
and the regular expression the platform uses, on whitespace as Python counts
it.  `split_join` and `mem_of_mem_split` say what a split holds, and `valueOf_ofNat`
that a number that was written is read back.
-/

namespace Python

/-- A string: its code points in order. -/
abbrev Str := List Char

/-- `str.isspace` of one code point, which is also what `\s` matches. -/
def isSpace (c : Char) : Bool :=
  let code := c.toNat
  (9 ≤ code && code ≤ 13) || (28 ≤ code && code ≤ 32) || code == 0x85 || code == 0xA0 ||
    code == 0x1680 || (0x2000 ≤ code && code ≤ 0x200A) || code == 0x2028 || code == 0x2029 ||
    code == 0x202F || code == 0x205F || code == 0x3000

/-- `text.strip()` -/
def strip (text : Str) : Str := (text.dropWhile isSpace).rdropWhile isSpace

/-- `re.sub(r"\s+", " ", text)`.  The flag says that the code point before was
whitespace, so that the run it belongs to has been replaced already. -/
def collapseFrom (inRun : Bool) : Str → Str
  | [] => []
  | c :: rest =>
      if isSpace c then
        if inRun then collapseFrom true rest else ' ' :: collapseFrom true rest
      else c :: collapseFrom false rest

/-- `re.sub(r"\s+", " ", text)` -/
def collapse (text : Str) : Str := collapseFrom false text

/-- `text.split(" ")` -/
def split (text : Str) : List Str := text.splitOn ' '

/-- `" ".join(parts)` -/
def join (parts : List Str) : Str := [' '].intercalate parts

/-- `str.lower` of one code point, exact where the result has an ASCII letter:
besides the upper-case letters this is so for the Kelvin sign and for the
capital I with a dot. -/
def lower (c : Char) : Str :=
  let code := c.toNat
  if 65 ≤ code ∧ code ≤ 90 then [Char.ofNat (code + 32)]
  else if code = 0x212A then ['k']
  else if code = 0x130 then ['i', Char.ofNat 0x307]
  else [c]

/-- `re.sub(r"[^…]+", "-", text)` for the class of code points that are kept.  The
flag says that the code point before was dropped. -/
def hyphenateFrom (keep : Char → Bool) (inRun : Bool) : Str → Str
  | [] => []
  | c :: rest =>
      if keep c then c :: hyphenateFrom keep false rest
      else if inRun then hyphenateFrom keep true rest
      else '-' :: hyphenateFrom keep true rest

/-! ## Numbers -/

/-- `str(number)` -/
def ofNat (number : ℕ) : Str := Nat.toDigits 10 number

/-- `str(number)` of an integer. -/
def ofInt : ℤ → Str
  | .ofNat number => ofNat number
  | .negSucc number => '-' :: ofNat (number + 1)

/-- The zeros of the decimal digits of Unicode 15; each is followed by the other
nine digits of its script. -/
def digitZeros : List ℕ :=
  [0x30, 0x660, 0x6F0, 0x7C0, 0x966, 0x9E6, 0xA66, 0xAE6, 0xB66, 0xBE6, 0xC66, 0xCE6, 0xD66, 0xDE6,
    0xE50, 0xED0, 0xF20, 0x1040, 0x1090, 0x17E0, 0x1810, 0x1946, 0x19D0, 0x1A80, 0x1A90, 0x1B50,
    0x1BB0, 0x1C40, 0x1C50, 0xA620, 0xA8D0, 0xA900, 0xA9D0, 0xA9F0, 0xAA50, 0xABF0, 0xFF10, 0x104A0,
    0x10D30, 0x11066, 0x110F0, 0x11136, 0x111D0, 0x112F0, 0x11450, 0x114D0, 0x11650, 0x116C0,
    0x11730, 0x118E0, 0x11950, 0x11C50, 0x11D50, 0x11DA0, 0x11F50, 0x16A60, 0x16AC0, 0x16B50,
    0x1D7CE, 0x1D7D8, 0x1D7E2, 0x1D7EC, 0x1D7F6, 0x1E140, 0x1E2F0, 0x1E4F0, 0x1E950, 0x1FBF0]

/-- The value of a decimal digit. -/
def digitValue (c : Char) : Option ℕ :=
  (digitZeros.find? fun first => first ≤ c.toNat && c.toNat < first + 10).map fun first =>
    c.toNat - first

/-- What `\d` matches in a `str` pattern. -/
def isDigit (c : Char) : Bool := (digitValue c).isSome

/-- How many digits `int` accepts. -/
def maxStrDigits : ℕ := 4300

/-- The number a run of decimal digits denotes. -/
def valueOf (digits : Str) : ℕ :=
  digits.foldl (fun value c => 10 * value + (digitValue c).getD 0) 0

/-- `int(digits)` for a run of decimal digits. -/
def intOf (digits : Str) : Except Str ℕ :=
  if maxStrDigits < digits.length then
    .error ("Exceeds the limit (4300 digits) for integer string conversion: value has ".toList ++
      ofNat digits.length ++
      " digits; use sys.set_int_max_str_digits() to increase the limit".toList)
  else .ok (valueOf digits)

theorem intOf_eq_ok {digits : Str} {value : ℕ} :
    intOf digits = .ok value ↔ digits.length ≤ maxStrDigits ∧ valueOf digits = value := by
  unfold intOf
  split
  · next hlong => simp [not_le.mpr hlong]
  · next hshort => simp [not_lt.mp hshort]

/-- The ASCII digits come first. -/
theorem digitValue_of_isDigit {c : Char} (h : c.isDigit = true) :
    digitValue c = some (c.toNat - 48) := by
  have hrange : 48 ≤ c.toNat ∧ c.toNat ≤ 57 := by
    exact Char.isDigit_iff_toNat.mp h
  unfold digitValue digitZeros
  rw [List.find?_cons_of_pos (by simp; omega)]
  rfl

theorem ofNat_ne_nil (number : ℕ) : ofNat number ≠ [] := Nat.toDigits_ne_nil

theorem isDigit_of_mem_ofNat {number : ℕ} {c : Char} (hc : c ∈ ofNat number) :
    isDigit c = true := by
  have hdigit := Nat.isDigit_of_mem_toDigits (by decide) (by decide) hc
  rw [isDigit, digitValue_of_isDigit hdigit, Option.isSome_some]

/-- Writing a number and reading it back. -/
theorem valueOf_ofNat (number : ℕ) : valueOf (ofNat number) = number := by
  have hread := @Nat.ofDigitChars_toDigits 10 number (by decide) (by decide)
  rw [Nat.ofDigitChars_eq_foldl] at hread
  calc valueOf (ofNat number)
      = (Nat.toDigits 10 number).foldl (fun value c => 10 * value + (c.toNat - '0'.toNat)) 0 := by
        refine List.foldl_ext _ _ _ fun value c hc => ?_
        rw [digitValue_of_isDigit (Nat.isDigit_of_mem_toDigits (by decide) (by decide) hc)]
        rfl
    _ = number := hread

theorem ofNat_injective : Function.Injective ofNat :=
  Function.LeftInverse.injective valueOf_ofNat

/-- The characters of a number are digits, but for the sign. -/
theorem eq_minus_or_isDigit_of_mem_ofInt {number : ℤ} {c : Char} (hc : c ∈ ofInt number) :
    c = '-' ∨ isDigit c = true := by
  cases number with
  | ofNat number => exact .inr (isDigit_of_mem_ofNat hc)
  | negSucc number =>
      rcases List.mem_cons.mp hc with hsign | hdigit
      · exact .inl hsign
      · exact .inr (isDigit_of_mem_ofNat hdigit)

theorem ofInt_injective : Function.Injective ofInt := by
  have hsign : ∀ number rest, ofNat number ≠ '-' :: rest := by
    intro number rest heq
    have hdigit : isDigit '-' = true := isDigit_of_mem_ofNat (heq ▸ List.mem_cons_self)
    exact absurd hdigit (by decide)
  intro first second h
  cases first with
  | ofNat first =>
      cases second with
      | ofNat second => exact congrArg Int.ofNat (ofNat_injective h)
      | negSucc second => exact absurd h (hsign _ _)
  | negSucc first =>
      cases second with
      | ofNat second => exact absurd h.symm (hsign _ _)
      | negSucc second =>
          have hsame := ofNat_injective (List.tail_eq_of_cons_eq h)
          exact congrArg Int.negSucc (Nat.succ_injective hsame)

/-- The numbers `int` reads back. -/
theorem length_ofNat_le_iff {number : ℕ} :
    (ofNat number).length ≤ maxStrDigits ↔ number < 10 ^ maxStrDigits :=
  Nat.length_toDigits_le_iff (by decide) (by decide)

/-! ## Whitespace -/

theorem isSpace_space : isSpace ' ' = true := by decide

theorem mem_of_mem_strip {text : Str} {c : Char} (hc : c ∈ strip text) : c ∈ text := by
  have hmem := (List.rdropWhile_prefix isSpace (text.dropWhile isSpace)).subset hc
  exact (List.dropWhile_suffix isSpace).subset hmem

/-- The only whitespace left by collapsing is the space. -/
theorem eq_space_of_mem_collapseFrom {inRun : Bool} {text : Str} {c : Char}
    (hc : c ∈ collapseFrom inRun text) (hspace : isSpace c = true) : c = ' ' := by
  induction text generalizing inRun with
  | nil => cases hc
  | cons d rest ih =>
      unfold collapseFrom at hc
      split_ifs at hc with hd hrun
      · exact ih hc
      · rcases List.mem_cons.mp hc with rfl | hrest
        · rfl
        · exact ih hrest
      · rcases List.mem_cons.mp hc with rfl | hrest
        · exact absurd hspace hd
        · exact ih hrest

/-! ## Splitting at spaces -/

theorem split_join {parts : List Str} (hparts : ∀ part ∈ parts, ' ' ∉ part) (hne : parts ≠ []) :
    split (join parts) = parts := List.splitOn_intercalate ' ' hparts hne

/-- The parts of a split hold everything but the separators. -/
theorem flatten_split (text : Str) : (split text).flatten = text.filter (· != ' ') := by
  unfold split
  induction text with
  | nil => rfl
  | cons c rest ih =>
      rw [List.splitOn_cons_eq_if_modifyHead]
      cases hc : c == ' ' with
      | true => simp [ih, show c = ' ' from by simpa using hc]
      | false =>
          cases hsplit : rest.splitOn ' ' with
          | nil => exact absurd hsplit (List.splitOn_ne_nil ' ' rest)
          | cons head tail =>
              rw [hsplit] at ih
              simp [← ih, show ¬c = ' ' from by simpa using hc]

/-- The parts hold characters of the text, and no separator. -/
theorem mem_of_mem_split {text part : Str} (hpart : part ∈ split text) {c : Char} (hc : c ∈ part) :
    c ∈ text ∧ c ≠ ' ' := by
  have hmem : c ∈ (split text).flatten := List.mem_flatten.mpr ⟨part, hpart, hc⟩
  rw [flatten_split] at hmem
  simpa using hmem

/-! ## Prefixes and partitions -/

/-- `text.startswith(start)` followed by `text[len(start):]`. -/
def dropStart (start text : Str) : Option Str :=
  if start.isPrefixOf text then some (text.drop start.length) else none

/-- `text.partition(sep)` for a separator of one code point: what lies before
the first separator, whether there is one, and what lies after it. -/
def partition (sep : Char) : Str → Str × Bool × Str
  | [] => ([], false, [])
  | c :: rest =>
      if c = sep then ([], true, rest)
      else
        let (before, found, after) := partition sep rest
        (c :: before, found, after)

theorem dropStart_eq_some {start text rest : Str} :
    dropStart start text = some rest ↔ text = start ++ rest := by
  unfold dropStart
  constructor
  · intro h
    split at h
    · next hearlier =>
        obtain ⟨after, rfl⟩ := List.isPrefixOf_iff_prefix.mp hearlier
        simpa using h
    · cases h
  · rintro rfl
    rw [if_pos (List.isPrefixOf_iff_prefix.mpr (List.prefix_append _ _)), List.drop_left]

/-- A separator is found exactly when the text is what lies before it, the
separator and what lies after it, with no separator before. -/
theorem partition_eq_found {sep : Char} {text before after : Str} :
    partition sep text = (before, true, after) ↔
      text = before ++ sep :: after ∧ sep ∉ before := by
  induction text generalizing before with
  | nil => simp [partition]
  | cons c rest ih =>
      unfold partition
      by_cases hc : c = sep
      · subst hc
        cases before with
        | nil => simp [eq_comm]
        | cons d before =>
            simp only [if_pos, Prod.mk.injEq, List.cons_append, List.cons.injEq,
              List.mem_cons, not_or]
            grind
      · cases before with
        | nil => simp [hc]
        | cons d before =>
            have hrest := @ih before
            grind

/-! ## Hyphenation -/

/-- The maximal runs of code points that are kept; `word` is the one being read. -/
def wordsFrom (keep : Char → Bool) (word : Str) : Str → List Str
  | [] => if word = [] then [] else [word]
  | c :: rest =>
      if keep c then wordsFrom keep (word ++ [c]) rest
      else if word = [] then wordsFrom keep [] rest
      else word :: wordsFrom keep [] rest

/-- `"-".join(parts)` -/
def hyphenJoin (parts : List Str) : Str := ['-'].intercalate parts

/-- A text of hyphens only. -/
def IsHyphens (text : Str) : Prop := ∀ c ∈ text, c = '-'

section Hyphenation

variable {keep : Char → Bool} {word text : Str}

theorem hyphenJoin_cons {parts : List Str} (hparts : parts ≠ []) :
    hyphenJoin (word :: parts) = word ++ '-' :: hyphenJoin parts := by
  unfold hyphenJoin
  rw [List.intercalate_cons_of_ne_nil hparts, List.append_assoc, List.singleton_append]

/-- The words are nonempty runs of code points that are kept. -/
theorem mem_wordsFrom (hword : ∀ c ∈ word, keep c = true) {part : Str}
    (hpart : part ∈ wordsFrom keep word text) : part ≠ [] ∧ ∀ c ∈ part, keep c = true := by
  induction text generalizing word with
  | nil =>
      unfold wordsFrom at hpart
      split at hpart
      · cases hpart
      · next hne =>
          cases List.mem_singleton.mp hpart
          exact ⟨hne, hword⟩
  | cons c rest ih =>
      unfold wordsFrom at hpart
      split_ifs at hpart with hkeep hempty
      · refine ih (fun d hd => ?_) hpart
        rcases List.mem_append.mp hd with hold | hnew
        · exact hword d hold
        · exact List.mem_singleton.mp hnew ▸ hkeep
      · exact ih (fun _ hd => absurd hd List.not_mem_nil) hpart
      · rcases List.mem_cons.mp hpart with rfl | hlater
        · exact ⟨hempty, hword⟩
        · exact ih (fun _ hd => absurd hd List.not_mem_nil) hlater

theorem wordsFrom_ne_nil (hword : word ≠ []) : wordsFrom keep word text ≠ [] := by
  induction text generalizing word with
  | nil =>
      rw [wordsFrom, if_neg hword]
      exact List.cons_ne_nil _ _
  | cons c rest ih =>
      rw [wordsFrom, if_neg hword]
      split
      · exact ih (by simp)
      · exact List.cons_ne_nil _ _

/-- What replacing the runs makes of the rest of a text: inside a word, and after a
hyphen. -/
theorem hyphenateFrom_eq (text : Str) :
    (∀ word ≠ [], ∃ tail, IsHyphens tail ∧
      word ++ hyphenateFrom keep false text = hyphenJoin (wordsFrom keep word text) ++ tail) ∧
    ∃ tail, IsHyphens tail ∧ (wordsFrom keep [] text = [] → tail = []) ∧
      hyphenateFrom keep true text = hyphenJoin (wordsFrom keep [] text) ++ tail := by
  have hnil : IsHyphens [] := fun _ hc => absurd hc List.not_mem_nil
  induction text with
  | nil =>
      constructor
      · intro word hword
        refine ⟨[], hnil, ?_⟩
        simp [wordsFrom, hyphenateFrom, hyphenJoin, hword]
      · exact ⟨[], hnil, fun _ => rfl, rfl⟩
  | cons c rest ih =>
      obtain ⟨hinside, tail, htail, hempty, hafter⟩ := ih
      by_cases hkeep : keep c = true
      · constructor
        · intro word _
          obtain ⟨last, hlast, heq⟩ := hinside (word ++ [c]) (by simp)
          refine ⟨last, hlast, ?_⟩
          rw [hyphenateFrom, wordsFrom, if_pos hkeep, if_pos hkeep, ← heq, List.append_assoc,
            List.singleton_append]
        · obtain ⟨last, hlast, heq⟩ := hinside [c] (List.cons_ne_nil _ _)
          refine ⟨last, hlast, fun hnone => ?_, ?_⟩
          · rw [wordsFrom, if_pos hkeep] at hnone
            exact absurd hnone (wordsFrom_ne_nil (List.cons_ne_nil _ _))
          · rw [hyphenateFrom, wordsFrom, if_pos hkeep, if_pos hkeep, List.nil_append, ← heq,
              List.singleton_append]
      · constructor
        · intro word hword
          have hwords : wordsFrom keep word (c :: rest) = word :: wordsFrom keep [] rest := by
            rw [wordsFrom, if_neg hkeep, if_neg hword]
          have hdropped : hyphenateFrom keep false (c :: rest) =
              '-' :: (hyphenJoin (wordsFrom keep [] rest) ++ tail) := by
            rw [hyphenateFrom, if_neg hkeep, if_neg Bool.false_ne_true, hafter]
          rw [hwords, hdropped]
          by_cases hlast : wordsFrom keep [] rest = []
          -- the hyphen ends the text
          · refine ⟨['-'], fun d hd => List.mem_singleton.mp hd, ?_⟩
            rw [hempty hlast, hlast]
            simp [hyphenJoin]
          · refine ⟨tail, htail, ?_⟩
            rw [hyphenJoin_cons hlast, List.append_assoc, List.cons_append]
        · refine ⟨tail, htail, ?_, ?_⟩
          · rw [wordsFrom, if_neg hkeep, if_pos rfl]
            exact hempty
          · rw [hyphenateFrom, wordsFrom, if_neg hkeep, if_pos rfl, if_neg hkeep, if_pos rfl]
            exact hafter

/-- Words joined by hyphens begin and end with a code point that is kept. -/
theorem ends_hyphenJoin {parts : List Str} (hne : parts ≠ [])
    (hparts : ∀ part ∈ parts, part ≠ [] ∧ ∀ c ∈ part, keep c = true) :
    (∃ c rest, hyphenJoin parts = c :: rest ∧ keep c = true) ∧
      ∃ rest c, hyphenJoin parts = rest ++ [c] ∧ keep c = true := by
  induction parts with
  | nil => exact absurd rfl hne
  | cons part parts ih =>
      obtain ⟨hpart, hkept⟩ := hparts part List.mem_cons_self
      obtain ⟨first, rest, rfl⟩ := List.exists_cons_of_ne_nil hpart
      by_cases hlast : parts = []
      · subst hlast
        have hjoin : hyphenJoin [first :: rest] = first :: rest := List.intercalate_singleton
        rw [hjoin]
        refine ⟨⟨first, rest, rfl, hkept first List.mem_cons_self⟩, _,
          (first :: rest).getLast (List.cons_ne_nil _ _),
          (List.dropLast_append_getLast _).symm, hkept _ (List.getLast_mem _)⟩
      · obtain ⟨_, front, last, hfront, hkeep⟩ :=
          ih hlast fun other hother => hparts other (List.mem_cons_of_mem _ hother)
        rw [hyphenJoin_cons hlast]
        refine ⟨⟨first, _, rfl, hkept first List.mem_cons_self⟩,
          first :: rest ++ '-' :: front, last, ?_, hkeep⟩
        rw [hfront, List.append_assoc]
        rfl

/-- Replacing the runs of other code points by hyphens and stripping the hyphens at the
ends joins the words. -/
theorem strip_hyphenateFrom (hhyphen : keep '-' = false) (text : Str) :
    ((hyphenateFrom keep false text).dropWhile (· == '-')).rdropWhile (· == '-') =
      hyphenJoin (wordsFrom keep [] text) := by
  have hhyphens : ∀ {part : Str}, IsHyphens part → ∀ c ∈ part, (c == '-') = true :=
    fun h c hc => beq_iff_eq.mpr (h c hc)
  have hkept : ∀ {c : Char}, keep c = true → (c == '-') = false := by
    intro c hc
    rw [beq_eq_false_iff_ne]
    rintro rfl
    rw [hhyphen] at hc
    cases hc
  obtain ⟨lead, tail, hlead, htail, heq⟩ : ∃ lead tail, IsHyphens lead ∧ IsHyphens tail ∧
      hyphenateFrom keep false text = lead ++ (hyphenJoin (wordsFrom keep [] text) ++ tail) := by
    cases text with
    | nil => exact ⟨[], [], nofun, nofun, rfl⟩
    | cons c rest =>
        obtain ⟨hinside, tail, htail, _, hafter⟩ := @hyphenateFrom_eq keep rest
        by_cases hkeep : keep c = true
        · obtain ⟨last, hlast, hword⟩ := hinside [c] (List.cons_ne_nil _ _)
          refine ⟨[], last, nofun, hlast, ?_⟩
          rw [hyphenateFrom, wordsFrom, if_pos hkeep, if_pos hkeep, List.nil_append,
            List.nil_append, ← hword, List.singleton_append]
        · refine ⟨['-'], tail, fun d hd => List.mem_singleton.mp hd, htail, ?_⟩
          rw [hyphenateFrom, wordsFrom, if_neg hkeep, if_neg hkeep, if_pos rfl,
            if_neg Bool.false_ne_true, hafter, List.singleton_append]
  rw [heq, List.dropWhile_append_of_pos (hhyphens hlead)]
  by_cases hwords : wordsFrom keep [] text = []
  · simp only [hwords, hyphenJoin, List.intercalate_nil, List.nil_append]
    rw [List.dropWhile_eq_nil_iff.mpr (hhyphens htail), List.rdropWhile_nil]
  · obtain ⟨⟨c, rest, hfirst, hc⟩, front, d, hlast, hd⟩ := ends_hyphenJoin hwords fun part hpart =>
      mem_wordsFrom (fun _ h => absurd h List.not_mem_nil) hpart
    have hdrop : (hyphenJoin (wordsFrom keep [] text) ++ tail).dropWhile (· == '-') =
        hyphenJoin (wordsFrom keep [] text) ++ tail := by
      rw [hfirst, List.cons_append, List.dropWhile_cons_of_neg (by simp [hkept hc])]
    rw [hdrop, hlast, List.rdropWhile, List.reverse_append,
      List.dropWhile_append_of_pos fun e he => hhyphens htail e (List.mem_reverse.mp he),
      List.reverse_append, List.reverse_singleton, List.singleton_append,
      List.dropWhile_cons_of_neg (by simp [hkept hd]), List.reverse_cons, List.reverse_reverse]

/-- What is joined by hyphens holds nothing but the parts and hyphens. -/
theorem mem_hyphenJoin {parts : List Str} {c : Char} (hc : c ∈ hyphenJoin parts) :
    c = '-' ∨ ∃ part ∈ parts, c ∈ part := by
  induction parts with
  | nil => cases hc
  | cons part parts ih =>
      by_cases hlast : parts = []
      · subst hlast
        have hjoin : hyphenJoin [part] = part := List.intercalate_singleton
        exact .inr ⟨part, List.mem_cons_self, hjoin ▸ hc⟩
      · rw [hyphenJoin_cons hlast] at hc
        rcases List.mem_append.mp hc with hpart | hrest
        · exact .inr ⟨part, List.mem_cons_self, hpart⟩
        · rcases List.mem_cons.mp hrest with rfl | hjoined
          · exact .inl rfl
          · obtain hhyphen | ⟨other, hother, hmem⟩ := ih hjoined
            · exact .inl hhyphen
            · exact .inr ⟨other, List.mem_cons_of_mem _ hother, hmem⟩

/-- The length of words joined by hyphens. -/
theorem length_hyphenJoin (parts : List Str) :
    (hyphenJoin parts).length = (parts.map List.length).sum + (parts.length - 1) := by
  induction parts with
  | nil => rfl
  | cons part parts ih =>
      by_cases hlast : parts = []
      · subst hlast
        simp [hyphenJoin]
      · have hpos : 0 < parts.length := List.length_pos_iff.mpr hlast
        rw [hyphenJoin_cons hlast]
        simp only [List.length_append, List.length_cons, ih, List.map_cons, List.sum_cons]
        omega

end Hyphenation

end Python
