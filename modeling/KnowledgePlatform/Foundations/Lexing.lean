import Mathlib.Tactic

/-!
# Lexers as machines

A lexer reads a text character by character and emits tokens on the way; it may
get stuck, and at the end of the text the state says which tokens are still due.
What it does on a text is put together from what it does on the parts
(`Reads.append`); the tokens it has emitted on a part are the first ones of any
text that begins with the part (`lex_of_reads`).
-/

namespace Foundations

/-- A machine that turns characters into tokens. -/
structure Lexer (State Char Token : Type*) where
  start : State
  step : State → Char → Option (State × List Token)
  finish : State → Option (List Token)

namespace Lexer

variable {State Char Token : Type*} (lexer : Lexer State Char Token)

/-- Read a text; the state reached and the tokens emitted. -/
def run : State → List Char → Option (State × List Token)
  | state, [] => some (state, [])
  | state, c :: text =>
      (lexer.step state c).bind fun stepped =>
        (run stepped.1 text).map fun result => (result.1, stepped.2 ++ result.2)

/-- The tokens of a text. -/
def lex (text : List Char) : Option (List Token) :=
  (lexer.run lexer.start text).bind fun result =>
    (lexer.finish result.1).map fun due => result.2 ++ due

/-- Reading the text leads from one state to another and emits these tokens. -/
def Reads (state : State) (text : List Char) (state' : State) (tokens : List Token) : Prop :=
  lexer.run state text = some (state', tokens)

variable {lexer} {state middle state' : State} {text rest : List Char} {tokens later : List Token}

theorem reads_nil : lexer.Reads state [] state [] := rfl

theorem reads_cons {c : Char} : lexer.Reads state (c :: text) state' tokens ↔
    ∃ middle first remaining, lexer.step state c = some (middle, first) ∧
      lexer.Reads middle text state' remaining ∧ tokens = first ++ remaining := by
  unfold Reads
  rw [run]
  constructor
  · intro h
    obtain ⟨⟨middle, first⟩, hstep, hrest⟩ := Option.bind_eq_some_iff.mp h
    obtain ⟨⟨last, remaining⟩, hrun, hresult⟩ := Option.map_eq_some_iff.mp hrest
    cases hresult
    exact ⟨middle, first, remaining, hstep, hrun, rfl⟩
  · rintro ⟨middle, first, remaining, hstep, hrun, rfl⟩
    rw [hstep, Option.bind_some, hrun]
    rfl

/-- A character that emits nothing. -/
theorem Reads.cons {c : Char} (hstep : lexer.step state c = some (middle, []))
    (h : lexer.Reads middle text state' tokens) : lexer.Reads state (c :: text) state' tokens :=
  reads_cons.mpr ⟨middle, [], tokens, hstep, h, rfl⟩

theorem Reads.append (h : lexer.Reads state text middle tokens)
    (hrest : lexer.Reads middle rest state' later) :
    lexer.Reads state (text ++ rest) state' (tokens ++ later) := by
  induction text generalizing state tokens with
  | nil =>
      cases h
      exact hrest
  | cons c text ih =>
      obtain ⟨next, first, remaining, hstep, hreads, rfl⟩ := reads_cons.mp h
      exact reads_cons.mpr ⟨next, first, remaining ++ later, hstep, ih hreads,
        List.append_assoc first remaining later⟩

/-- Reading on from where a part of the text has led. -/
theorem Reads.split (h : lexer.Reads state text middle tokens) {all : List Token}
    (hall : lexer.Reads state (text ++ rest) state' all) :
    ∃ later, lexer.Reads middle rest state' later ∧ all = tokens ++ later := by
  induction text generalizing state tokens all with
  | nil =>
      cases h
      exact ⟨all, hall, rfl⟩
  | cons c text ih =>
      obtain ⟨next, first, remaining, hstep, hreads, rfl⟩ := reads_cons.mp h
      obtain ⟨next', first', remaining', hstep', hreads', rfl⟩ := reads_cons.mp hall
      cases hstep.symm.trans hstep'
      obtain ⟨later, hlater, rfl⟩ := ih hreads hreads'
      exact ⟨later, hlater, (List.append_assoc first remaining later).symm⟩

theorem lex_eq_some : lexer.lex text = some tokens ↔ ∃ state emitted due,
    lexer.Reads lexer.start text state emitted ∧ lexer.finish state = some due ∧
      tokens = emitted ++ due := by
  unfold lex Reads
  constructor
  · intro h
    obtain ⟨⟨state, emitted⟩, hrun, hrest⟩ := Option.bind_eq_some_iff.mp h
    obtain ⟨due, hfinish, rfl⟩ := Option.map_eq_some_iff.mp hrest
    exact ⟨state, emitted, due, hrun, hfinish, rfl⟩
  · rintro ⟨state, emitted, due, hrun, hfinish, rfl⟩
    rw [hrun, Option.bind_some, hfinish]
    rfl

/-- The tokens emitted on a part of the text come first. -/
theorem lex_of_reads (h : lexer.Reads lexer.start text middle tokens) {all : List Token}
    (hall : lexer.lex (text ++ rest) = some all) : tokens <+: all := by
  obtain ⟨state, emitted, due, hreads, _, rfl⟩ := lex_eq_some.mp hall
  obtain ⟨later, _, rfl⟩ := h.split hreads
  exact ⟨later ++ due, (List.append_assoc tokens later due).symm⟩

/-- A text that ends within a token has no tokens. -/
theorem lex_eq_none (h : lexer.Reads lexer.start text middle tokens)
    (hfinish : lexer.finish middle = none) : lexer.lex text = none := by
  unfold lex
  rw [show lexer.run lexer.start text = some (middle, tokens) from h, Option.bind_some, hfinish]
  rfl

end Lexer

end Foundations
