import KnowledgePlatform.Foundations.Lexing

/-!
# The lexer of SQL

The part of the lexical structure of PostgreSQL that role scripts use: words,
symbols, string literals with a doubled quotation mark as the only escape (as
with `standard_conforming_strings`), and strings between `$$` and `$$`.  What is
outside of this part (numbers, comments, parameters, tagged dollar quotes) has no
tokens.

An escaped text is one literal whatever follows it (`reads_quoted`).  A string
between dollar quotes ends at the first pair of dollar signs (`reads_dollar`), so
a text may stand in it if and only if it has no such pair.
-/

namespace Foundations.Sql

/-- The tokens of the statements; literals are given by their values. -/
inductive Token
  | word (text : List Char)
  | symbol (c : Char)
  | literal (text : List Char)
  | dollarString (text : List Char)
  deriving DecidableEq

/-- Where the lexer is in a text; what it has read of a token is kept backwards. -/
inductive LexState
  | between
  | inWord (read : List Char)
  | inLiteral (read : List Char)
  | afterQuote (read : List Char)
  | afterDollar
  | inDollar (dollar : Bool) (read : List Char)
  deriving DecidableEq

/-- The single quotation mark. -/
def quote : Char := Char.ofNat 39

def isBlank (c : Char) : Bool := c == ' ' || (9 ≤ c.toNat && c.toNat ≤ 13)

def isWordStart (c : Char) : Bool := c.isAlpha || c == '_' || 128 ≤ c.toNat

def isWordPart (c : Char) : Bool := isWordStart c || c.isDigit || c == '$'

/-- A character between two tokens. -/
def beginToken (c : Char) : Option (LexState × List Token) :=
  if isBlank c then some (.between, [])
  else if isWordStart c then some (.inWord [c], [])
  else if c = quote then some (.inLiteral [], [])
  else if c = '$' then some (.afterDollar, [])
  else if "();=,".toList.contains c then some (.between, [.symbol c])
  else none

/-- A character that ends a token and may begin another one. -/
def endToken (token : Token) (c : Char) : Option (LexState × List Token) :=
  (beginToken c).map fun begun => (begun.1, token :: begun.2)

def step : LexState → Char → Option (LexState × List Token)
  | .between, c => beginToken c
  | .inWord read, c =>
      if isWordPart c then some (.inWord (c :: read), []) else endToken (.word read.reverse) c
  | .inLiteral read, c =>
      if c = quote then some (.afterQuote read, []) else some (.inLiteral (c :: read), [])
  | .afterQuote read, c =>
      -- a second quotation mark stands for one in the text
      if c = quote then some (.inLiteral (quote :: read), [])
      else endToken (.literal read.reverse) c
  | .afterDollar, c => if c = '$' then some (.inDollar false [], []) else none
  | .inDollar dollar read, c =>
      if c = '$' ∧ dollar = true then some (.between, [.dollarString read.tail.reverse])
      else some (.inDollar (c == '$') (c :: read), [])

def finish : LexState → Option (List Token)
  | .between => some []
  | .inWord read => some [.word read.reverse]
  | .afterQuote read => some [.literal read.reverse]
  | .inLiteral _ | .afterDollar | .inDollar _ _ => none

/-- The lexer. -/
def lexer : Lexer LexState Char Token := ⟨.between, step, finish⟩

/-! ## Literals -/

/-- Double the quotation marks. -/
def escape (text : List Char) : List Char :=
  text.flatMap fun c => if c = quote then [quote, quote] else [c]

theorem step_quote (read : List Char) :
    lexer.step (.inLiteral read) quote = some (.afterQuote read, []) := rfl

theorem step_doubled (read : List Char) :
    lexer.step (.afterQuote read) quote = some (.inLiteral (quote :: read), []) := rfl

/-- An escaped text does not leave the literal. -/
theorem reads_escape (text read : List Char) :
    lexer.Reads (.inLiteral read) (escape text) (.inLiteral (text.reverse ++ read)) [] := by
  induction text generalizing read with
  | nil => exact Lexer.reads_nil
  | cons c text ih =>
      rw [escape, List.flatMap_cons, ← escape, List.reverse_cons, List.append_assoc]
      by_cases hc : c = quote
      · subst hc
        rw [if_pos rfl]
        exact .cons (step_quote _) (.cons (step_doubled _) (ih _))
      · rw [if_neg hc]
        exact .cons (if_neg hc) (ih _)

/-- An escaped text between quotation marks is one literal, whatever else follows. -/
theorem reads_quoted (text : List Char) {after : List Char} {c : Char} (hafter : after.head? = some c)
    (hc : c ≠ quote) {state : LexState} {tokens : List Token}
    (h : lexer.Reads .between after state tokens) :
    lexer.Reads .between (quote :: escape text ++ [quote] ++ after) state
      (.literal text :: tokens) := by
  obtain ⟨rest, rfl⟩ := List.head?_eq_some_iff.mp hafter
  obtain ⟨middle, first, remaining, hstep, hrest, rfl⟩ := Lexer.reads_cons.mp h
  have hclose : lexer.Reads (.afterQuote (text.reverse ++ [])) (c :: rest) state
      (.literal text :: (first ++ remaining)) := by
    refine Lexer.reads_cons.mpr ⟨middle, .literal text :: first, remaining, ?_, hrest, rfl⟩
    show step (.afterQuote (text.reverse ++ [])) c = _
    rw [step, if_neg hc, endToken, show beginToken c = some (middle, first) from hstep]
    simp
  rw [List.append_assoc, List.cons_append]
  exact .cons rfl ((reads_escape text []).append (.cons (step_quote _) hclose))

/-! ## Dollar quotes -/

/-- No two dollar signs in a row, given whether the text so far ends with one. -/
def NoPair (dollar : Bool) : List Char → Prop
  | [] => True
  | c :: text => ¬(c = '$' ∧ dollar = true) ∧ NoPair (c == '$') text

instance (dollar : Bool) (text : List Char) : Decidable (NoPair dollar text) := by
  induction text generalizing dollar with
  | nil => exact .isTrue trivial
  | cons c text ih => exact @instDecidableAnd _ _ _ (ih _)

/-- Whether a text ends with a dollar sign. -/
def endsDollar (dollar : Bool) (text : List Char) : Bool := text.foldl (fun _ c => c == '$') dollar

theorem noPair_append (dollar : Bool) (text rest : List Char) :
    NoPair dollar (text ++ rest) ↔ NoPair dollar text ∧ NoPair (endsDollar dollar text) rest := by
  induction text generalizing dollar with
  | nil => simp [NoPair, endsDollar]
  | cons c text ih =>
      simp only [List.cons_append, NoPair, ih, and_assoc, endsDollar, List.foldl_cons]

theorem endsDollar_append (dollar : Bool) (text rest : List Char) :
    endsDollar dollar (text ++ rest) = endsDollar (endsDollar dollar text) rest :=
  List.foldl_append

/-- A text without a pair of dollar signs that does not end with one. -/
def Plain (text : List Char) : Prop := NoPair false text ∧ endsDollar false text = false

instance (text : List Char) : Decidable (Plain text) := instDecidableAnd

theorem Plain.append {text rest : List Char} (h : Plain text) (hrest : Plain rest) :
    Plain (text ++ rest) := by
  obtain ⟨hpair, hends⟩ := h
  obtain ⟨hrestPair, hrestEnds⟩ := hrest
  constructor
  · rw [noPair_append, hends]
    exact ⟨hpair, hrestPair⟩
  · rw [endsDollar_append, hends]
    exact hrestEnds

/-- Escaping makes and breaks no pair of dollar signs. -/
theorem noPair_escape (dollar : Bool) (text : List Char) :
    (NoPair dollar (escape text) ↔ NoPair dollar text) ∧
      endsDollar dollar (escape text) = endsDollar dollar text := by
  induction text generalizing dollar with
  | nil => exact ⟨Iff.rfl, rfl⟩
  | cons c text ih =>
      rw [escape, List.flatMap_cons, ← escape]
      by_cases hc : c = quote
      · subst hc
        rw [if_pos rfl]
        obtain ⟨hpair, hends⟩ := ih false
        have hquote : (quote == '$') = false := by decide
        have hdollar : ¬quote = '$' := by decide
        simp only [List.cons_append, List.nil_append, NoPair, endsDollar, List.foldl_cons, hquote,
          hdollar, false_and, not_false_eq_true, true_and]
        exact ⟨hpair, hends⟩
      · rw [if_neg hc]
        obtain ⟨hpair, hends⟩ := ih (c == '$')
        exact ⟨and_congr_right fun _ => hpair, hends⟩

/-- The beginning of a literal. -/
theorem Plain.openLiteral {text : List Char} (h : Plain text) : Plain (quote :: escape text) := by
  obtain ⟨hpair, hends⟩ := noPair_escape false text
  exact ⟨⟨by decide, hpair.mpr h.1⟩, hends.trans h.2⟩

theorem step_dollar (read : List Char) :
    lexer.step (.inDollar false read) '$' = some (.inDollar true ('$' :: read), []) := rfl

theorem step_close (read : List Char) :
    lexer.step (.inDollar true ('$' :: read)) '$' = some (.between, [.dollarString read.reverse]) :=
  rfl

/-- A text without a pair of dollar signs does not leave the dollar quotes. -/
theorem reads_dollar {dollar : Bool} {text : List Char} (h : NoPair dollar text)
    (read : List Char) : lexer.Reads (.inDollar dollar read) text
      (.inDollar (endsDollar dollar text) (text.reverse ++ read)) [] := by
  induction text generalizing dollar read with
  | nil => exact Lexer.reads_nil
  | cons c text ih =>
      rw [List.reverse_cons, List.append_assoc]
      exact .cons (if_neg h.1) (ih h.2 _)

/-- The string between dollar quotes ends at the first pair of dollar signs. -/
theorem reads_dollarString {body : List Char} (h : Plain body) :
    lexer.Reads (.inDollar false []) (body ++ ['$', '$']) .between [.dollarString body] := by
  obtain ⟨hpair, hends⟩ := h
  have hbody := reads_dollar hpair []
  rw [hends] at hbody
  have hclose : lexer.Reads (.inDollar false (body.reverse ++ [])) ['$', '$'] .between
      [.dollarString body] := by
    refine .cons (step_dollar _) (Lexer.reads_cons.mpr ⟨.between, [.dollarString body], [], ?_,
      Lexer.reads_nil, rfl⟩)
    rw [step_close, List.append_nil, List.reverse_reverse]
  exact hbody.append hclose

/-- The first pair of dollar signs. -/
theorem exists_pair {dollar : Bool} {text : List Char} (h : ¬NoPair dollar text) :
    (dollar = true ∧ ∃ after, text = '$' :: after) ∨
      ∃ before after, text = before ++ '$' :: '$' :: after ∧ NoPair dollar before ∧
        endsDollar dollar before = false := by
  induction text generalizing dollar with
  | nil => exact absurd trivial h
  | cons c text ih =>
      by_cases hdollar : c = '$' ∧ dollar = true
      · exact .inl ⟨hdollar.2, text, by rw [hdollar.1]⟩
      · have hlater : ¬NoPair (c == '$') text := fun hnone => h ⟨hdollar, hnone⟩
        rcases ih hlater with ⟨hc, after, rfl⟩ | ⟨before, after, rfl, hbefore, hends⟩
        · obtain rfl := eq_of_beq hc
          refine .inr ⟨[], after, rfl, trivial, ?_⟩
          exact Bool.eq_false_iff.mpr fun hopen => hdollar ⟨rfl, hopen⟩
        · exact .inr ⟨c :: before, after, rfl, ⟨hdollar, hbefore⟩, hends⟩

theorem noPair_iff (text : List Char) : NoPair false text ↔ ¬['$', '$'] <:+: text := by
  constructor
  · rintro hnone ⟨before, after, rfl⟩
    rw [List.append_assoc, noPair_append] at hnone
    exact hnone.2.2.1 ⟨rfl, rfl⟩
  · intro hnone
    by_contra hpair
    rcases exists_pair hpair with ⟨hfalse, _⟩ | ⟨before, after, rfl, _, _⟩
    · cases hfalse
    · exact hnone ⟨before, after, by simp⟩

-- on a long text the definition does not unfold well
attribute [irreducible] NoPair

end Foundations.Sql
