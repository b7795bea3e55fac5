import KnowledgePlatform.Core.Citations
import KnowledgePlatform.Python.Repr

/-!
# The offline provider

Without a vendor the answers come from `StubLLMProvider`: it echoes the question
and cites every source it finds in the system prompt, and streams this text word
by word.  The words join to the text (`flatten_streamWords`).  The markers of the
text are those of the question and those that begin lines of the system prompt
(`findMarkers_text`): quoting the question neither makes nor breaks a marker.
-/

open Foundations Python Relational

namespace Core

/-! ## The provider -/

/-- `len(text.split())` -/
def countWords (text : Str) : ℕ := ((text.splitOnP isSpace).filter (· ≠ [])).length

/-- The words of a text, all but the first with the space before it. -/
def streamWords (text : Str) : List Str :=
  match split text with
  | [] => []
  | first :: rest => first :: rest.map (' ' :: ·)

namespace StubLLMProvider

def name : Str := "stub".toList

def model : Str := "stub".toList

/-- The content of the last message of the user. -/
def lastQuestion (messages : List (MessageRole × Str)) : Str :=
  ((messages.reverse.find? fun message => message.1 == .user).map Prod.snd).getD []

/-- The markers of the answer. -/
def citations (system : Str) : Str :=
  let markers := (findSources system).flatMap fun number => '[' :: number ++ [']']
  if markers = [] then "(no sources retrieved)".toList else markers

def opening : Str := "Based on the retrieved context, here is the answer to ".toList

/-- The answer. -/
def text (system : Str) (messages : List (MessageRole × Str)) : Str :=
  opening ++ Python.repr (strip (lastQuestion messages)) ++ ". ".toList ++ citations system

/-- The word counts of the prompt and of the answer. -/
def inputTokens (system : Str) (messages : List (MessageRole × Str)) : ℕ :=
  countWords system + (messages.map fun message => countWords message.2).sum

def outputTokens (system : Str) (messages : List (MessageRole × Str)) : ℕ :=
  countWords (text system messages)

/-- The tokens of the stream. -/
def astream (system : Str) (messages : List (MessageRole × Str)) : List Str :=
  streamWords (text system messages)

end StubLLMProvider

/-! ## The stream -/

/-- The tokens of the stream join to the text. -/
theorem flatten_streamWords (text : Str) : (streamWords text).flatten = text := by
  have hjoin : ∀ parts : List Str, (match parts with
      | [] => []
      | first :: rest => first :: rest.map (' ' :: ·)).flatten = join parts := by
    intro parts
    induction parts with
    | nil => rfl
    | cons first rest ih =>
        cases rest with
        | nil => simp [join]
        | cons next rest =>
            rw [join, List.intercalate_cons_cons, ← join, ← ih]
            simp
  calc (streamWords text).flatten = join (split text) := hjoin (split text)
    _ = text := List.intercalate_splitOn ' '

/-! ## The markers of the answer -/

/-- Where escaping keeps digits and brackets, it keeps the digits of a marker that
is closed. -/
theorem flatMap_eq_digits {escape : Char → Str}
    (hescape : ∀ c, escape c = [c] ∨ ((isDigit c = false ∧ c ≠ '[' ∧ c ≠ ']') ∧
      ∃ rest, escape c = '\\' :: rest ∧ '[' ∉ rest)) {digits : Str}
    (hdigits : ∀ c ∈ digits, isDigit c = true) {text tail : Str}
    (h : text.flatMap escape = digits ++ ']' :: tail) : ∃ tail', text = digits ++ ']' :: tail' := by
  induction digits generalizing text with
  | nil =>
      cases text with
      | nil => cases h
      | cons c rest =>
          rw [List.flatMap_cons] at h
          rcases hescape c with hplain | ⟨_, _, hescaped, _⟩
          · rw [hplain] at h
            cases h
            exact ⟨rest, rfl⟩
          · rw [hescaped] at h
            cases h
  | cons digit digits ih =>
      cases text with
      | nil => cases h
      | cons c rest =>
          rw [List.flatMap_cons] at h
          rcases hescape c with hplain | ⟨_, _, hescaped, _⟩
          · rw [hplain] at h
            obtain ⟨rfl, hrest⟩ := List.cons_eq_cons.mp h
            obtain ⟨tail', rfl⟩ := ih (fun d hd => hdigits d (List.mem_cons_of_mem _ hd)) hrest
            exact ⟨tail', rfl⟩
          · rw [hescaped] at h
            obtain ⟨rfl, _⟩ := List.cons_eq_cons.mp h
            exact absurd (hdigits _ List.mem_cons_self) (by decide)

/-- Escaping that keeps digits and brackets keeps the markers. -/
theorem findMarkers_flatMap {escape : Char → Str}
    (hescape : ∀ c, escape c = [c] ∨ ((isDigit c = false ∧ c ≠ '[' ∧ c ≠ ']') ∧
      ∃ rest, escape c = '\\' :: rest ∧ '[' ∉ rest)) (text : Str) :
    findMarkers (text.flatMap escape) = findMarkers text := by
  have hkept : ∀ c, (isDigit c = true ∨ c = ']') → escape c = [c] := by
    intro c hc
    rcases hescape c with hplain | ⟨⟨hdigit, _, hbracket⟩, _⟩
    · exact hplain
    · rcases hc with h | h
      · rw [hdigit] at h
        cases h
      · exact absurd h hbracket
  have hdigits : ∀ rest, markerDigits (rest.flatMap escape) = markerDigits rest := by
    intro rest
    cases hmarker : markerDigits rest with
    | some digits =>
        obtain ⟨hne, hall, tail, rfl⟩ := markerDigits_eq_some.mp hmarker
        refine markerDigits_eq_some.mpr ⟨hne, hall, tail.flatMap escape, ?_⟩
        have hplain : digits.flatMap escape = digits := by
          rw [List.flatMap_congr fun c hc => hkept c (.inl (hall c hc)), List.flatMap_singleton']
        rw [List.flatMap_append, hplain, List.flatMap_cons, hkept _ (.inr rfl)]
        rfl
    | none =>
        cases hescaped : markerDigits (rest.flatMap escape) with
        | none => rfl
        | some digits =>
            obtain ⟨hne, hall, tail, htail⟩ := markerDigits_eq_some.mp hescaped
            obtain ⟨tail', hrest⟩ := flatMap_eq_digits hescape hall htail
            rw [markerDigits_eq_some.mpr ⟨hne, hall, tail', hrest⟩] at hmarker
            cases hmarker
  induction text with
  | nil => rfl
  | cons c rest ih =>
      rw [List.flatMap_cons]
      rcases hescape c with hplain | ⟨⟨_, hopen, _⟩, escaped, hescaped, hnone⟩
      · rw [hplain, List.singleton_append, findMarkers, findMarkers, hdigits, ih]
      · have hblock : '[' ∉ escape c := by
          rw [hescaped, List.mem_cons, not_or]
          exact ⟨by decide, hnone⟩
        rw [findMarkers_append_of_notMem hblock, ih, findMarkers, if_neg hopen]

/-- Whitespace is no digit. -/
theorem isDigit_eq_false_of_isSpace {c : Char} (h : isSpace c = true) : isDigit c = false := by
  have hdigits : ∀ first ∈ digitZeros, ∀ value < 10,
      isSpace (Char.ofNat (first + value)) = false := by decide +kernel
  rw [Bool.eq_false_iff]
  intro hdigit
  obtain ⟨value, hvalue⟩ := Option.isSome_iff_exists.mp hdigit
  obtain ⟨first, hfirst, _⟩ := Option.map_eq_some_iff.mp hvalue
  have hrange := List.find?_some hfirst
  rw [Bool.and_eq_true, decide_eq_true_iff, decide_eq_true_iff] at hrange
  have hspace := hdigits first (List.mem_of_find?_eq_some hfirst) (c.toNat - first) (by omega)
  rw [Nat.add_sub_cancel' hrange.1, Char.ofNat_toNat, h] at hspace
  cases hspace

theorem bracket_notMem_of_isSpace {spaces : Str} (h : ∀ c ∈ spaces, isSpace c = true) :
    '[' ∉ spaces := fun hmem => absurd (h _ hmem) (by decide)

/-- Stripping removes no marker. -/
theorem findMarkers_strip (text : Str) : findMarkers (strip text) = findMarkers text := by
  have hfront : findMarkers (text.dropWhile isSpace) = findMarkers text := by
    conv_rhs => rw [← List.takeWhile_append_dropWhile (p := isSpace) (l := text)]
    rw [findMarkers_append_of_notMem (bracket_notMem_of_isSpace fun c hc =>
      List.mem_takeWhile_imp hc)]
  have hback : ∀ kept : Str, findMarkers (kept.rdropWhile isSpace) = findMarkers kept := by
    intro kept
    have hspaces : ∀ c ∈ kept.rtakeWhile isSpace, isSpace c = true :=
      fun c hc => List.mem_rtakeWhile_imp hc
    have hparts : Parts (kept.rtakeWhile isSpace) := by
      intro c hc
      have hspace := hspaces c (List.mem_of_mem_head? hc)
      refine ⟨isDigit_eq_false_of_isSpace hspace, ?_⟩
      rintro rfl
      cases hspace
    have hnothing := findMarkers_append_of_notMem (bracket_notMem_of_isSpace hspaces) []
    rw [List.append_nil] at hnothing
    conv_rhs => rw [← List.rdropWhile_append_rtakeWhile (p := isSpace) (l := kept)]
    rw [findMarkers_append hparts, hnothing]
    exact (List.append_nil _).symm
  rw [strip, hback, hfront]

/-- Quoting a text neither makes nor breaks a marker. -/
theorem findMarkers_repr (text : Str) : findMarkers (Python.repr text) = findMarkers text := by
  have hquote : Parts [reprQuote text] ∧ '[' ∉ [reprQuote text] := by
    rcases reprQuote_cases text with h | h <;> rw [h]
    · exact ⟨parts_cons (by decide) (by decide), by decide⟩
    · exact ⟨parts_cons (by decide) (by decide), by decide⟩
  have hclose : findMarkers [reprQuote text] = [] := by
    have hnothing := findMarkers_append_of_notMem hquote.2 []
    rwa [List.append_nil] at hnothing
  calc findMarkers (Python.repr text)
      = findMarkers ([reprQuote text] ++ (text.flatMap (reprChar (reprQuote text)) ++
          [reprQuote text])) := rfl
    _ = findMarkers (text.flatMap (reprChar (reprQuote text)) ++ [reprQuote text]) :=
        findMarkers_append_of_notMem hquote.2 _
    _ = findMarkers (text.flatMap (reprChar (reprQuote text))) := by
        rw [findMarkers_append hquote.1, hclose, List.append_nil]
    _ = findMarkers text := findMarkers_flatMap (reprChar_eq (reprQuote_cases text)) text

/-- The matches are nonempty runs of digits. -/
theorem digits_of_mem_matchSources {lineStart : Bool} {text : Str} {found : Str × Str}
    (h : found ∈ matchSources lineStart text) :
    found.1 ≠ [] ∧ ∀ c ∈ found.1, isDigit c = true := by
  induction text generalizing lineStart with
  | nil => cases h
  | cons c rest ih =>
      unfold matchSources at h
      split at h
      · split at h
        · next digits hdigits =>
            rcases List.mem_cons.mp h with rfl | hrest
            · obtain ⟨hne, hall, _⟩ := markerDigits_eq_some.mp hdigits
              exact ⟨hne, hall⟩
            · exact ih hrest
        · exact ih h
      · exact ih h

/-- Markers put into brackets are found again. -/
theorem findMarkers_bracketed {numbers : List Str}
    (h : ∀ digits ∈ numbers, digits ≠ [] ∧ ∀ c ∈ digits, isDigit c = true) :
    findMarkers (numbers.flatMap fun number => '[' :: number ++ [']']) = numbers := by
  induction numbers with
  | nil => rfl
  | cons digits rest ih =>
      obtain ⟨hne, hall⟩ := h digits List.mem_cons_self
      have hmarker : ∀ tail, markerDigits (digits ++ ']' :: tail) = some digits :=
        fun tail => markerDigits_eq_some.mpr ⟨hne, hall, tail, rfl⟩
      have hclosed : '[' ∉ digits ++ [']'] := by
        rw [List.mem_append, not_or]
        exact ⟨fun hopen => absurd (hall _ hopen) (by decide), by decide⟩
      have hrest := ih fun later hlater => h later (List.mem_cons_of_mem _ hlater)
      calc findMarkers ((digits :: rest).flatMap fun number => '[' :: number ++ [']'])
          = findMarkers ('[' :: (digits ++ ']' :: rest.flatMap fun number =>
              '[' :: number ++ [']'])) := by simp
        _ = digits :: findMarkers (digits ++ [']'] ++ rest.flatMap fun number =>
              '[' :: number ++ [']']) := by
            rw [findMarkers, if_pos rfl, hmarker, List.append_assoc]
            rfl
        _ = digits :: rest := by rw [findMarkers_append_of_notMem hclosed, hrest]

namespace StubLLMProvider

/-- The markers of the citations are the sources. -/
theorem findMarkers_citations (system : Str) :
    findMarkers (citations system) = findSources system := by
  have hsources : ∀ digits ∈ findSources system, digits ≠ [] ∧ ∀ c ∈ digits, isDigit c = true := by
    intro digits hdigits
    obtain ⟨found, hfound, rfl⟩ := List.mem_map.mp hdigits
    exact digits_of_mem_matchSources hfound
  have hbracketed := findMarkers_bracketed hsources
  unfold citations
  dsimp only
  split
  · next hnone =>
      rw [hnone] at hbracketed
      rw [← hbracketed]
      decide
  · exact hbracketed

/-- The markers of the answer are those of the question and the sources. -/
theorem findMarkers_text (system : Str) (messages : List (MessageRole × Str)) :
    findMarkers (text system messages) =
      findMarkers (lastQuestion messages) ++ findSources system := by
  have hopening : '[' ∉ opening := by decide +kernel
  have hbehind : Parts (". ".toList ++ citations system) := parts_cons (by decide) (by decide)
  have hperiod : '[' ∉ ". ".toList := by decide
  rw [text, List.append_assoc, List.append_assoc, findMarkers_append_of_notMem hopening,
    findMarkers_append hbehind, findMarkers_repr, findMarkers_strip,
    findMarkers_append_of_notMem hperiod, findMarkers_citations]

end StubLLMProvider

end Core
