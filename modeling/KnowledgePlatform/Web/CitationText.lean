import KnowledgePlatform.Core.Citations

/-!
# Citations in the web client

`CitationText` cuts the text of a message at the markers that resolve to a
citation and shows each of them as a chip.  It looks for the markers itself, with
the digits of ASCII only, and reads them as floating-point numbers, while the
backend reads the decimal digits of every script as integers.

`chips_eq_citations_iff` says when the chips of an answer are its citations.
-/

open Core Foundations Python

namespace Web

/-! ## Numbers -/

/-- The `number` values that integers from zero on are read as. -/
inductive JsNumber
  | finite (value : ℕ)
  | infinity
  deriving DecidableEq

/-- The nearest integer with at most 53 significant binary digits; of two, the one
with an even last digit. -/
def roundSignificant (value : ℕ) : ℕ :=
  let unit := 2 ^ (value.log2 - 52)
  let kept := value / unit
  let rest := value % unit
  if 2 * rest < unit ∨ (2 * rest = unit ∧ kept % 2 = 0) then kept * unit else (kept + 1) * unit

/-- The finite numbers are smaller than this, the 1024th power of two. -/
@[irreducible] def overflow : ℕ := (2 ^ 128) ^ 8

/-- The number an integer is read as. -/
def JsNumber.ofNat (value : ℕ) : JsNumber :=
  let rounded := roundSignificant value
  if rounded < overflow then .finite rounded else .infinity

/-- `Number(digits)` for a run of ASCII digits. -/
def toNumber (digits : Str) : JsNumber := .ofNat (Nat.ofDigitChars 10 digits 0)

/-! ## Matches -/

/-- A match of `MARKER_RE`: where it begins, and its digits. -/
structure MarkerMatch where
  index : ℕ
  digits : Str
  deriving DecidableEq

/-- `match[0].length` -/
def MarkerMatch.length (found : MarkerMatch) : ℕ := found.digits.length + 2

/-- The ASCII digits of a marker whose opening bracket was just read. -/
def asciiDigits (rest : Str) : Option Str :=
  let digits := rest.takeWhile Char.isDigit
  if digits ≠ [] ∧ (rest.drop digits.length).head? = some ']' then some digits else none

/-- `content.matchAll(/\[(\d+)\]/g)` for a content whose rest begins at `index`. -/
def matchAll (index : ℕ) : Str → List MarkerMatch
  | [] => []
  | c :: rest =>
      if c = '[' then
        match asciiDigits rest with
        | some digits => ⟨index, digits⟩ :: matchAll (index + 1) rest
        | none => matchAll (index + 1) rest
      else matchAll (index + 1) rest

/-! ## Parts -/

/-- A citation as the client has it. -/
structure CitationOut where
  marker : JsNumber
  chunkId : Str
  documentId : Str
  documentTitle : Str
  snippet : Str
  deriving DecidableEq

/-- What the client makes of a citation it is sent. -/
def CitationOut.ofCitation (citation : Citation) : CitationOut where
  marker := .ofNat citation.marker
  chunkId := citation.chunkId
  documentId := citation.documentId
  documentTitle := citation.documentTitle
  snippet := citation.snippet

/-- `byMarker.get(marker)`: of several citations with a marker, the last. -/
def byMarker (citations : Option (List CitationOut)) (marker : JsNumber) : Option CitationOut :=
  (citations.getD []).reverse.find? fun citation => citation.marker == marker

/-- A part of the content: text, or a marker that is shown as a chip. -/
inductive Part
  | text (text : Str)
  | marker (marker : JsNumber)
  deriving DecidableEq

/-- `content.slice(start, stop)` -/
def slice (content : Str) (start stop : ℕ) : Str := (content.take stop).drop start

section Loop

variable {α : Type*}

/-- The text between the last chip and a match or the end, unless it is empty. -/
def between (text : Str → α) (content : Str) (lastIndex stop : ℕ) : List α :=
  if lastIndex < stop then [text (slice content lastIndex stop)] else []

/-- The loop over the matches, which pushes a text or a chip. -/
def collect (text : Str → α) (chip : MarkerMatch → α) (content : Str)
    (citations : Option (List CitationOut)) : List MarkerMatch → ℕ → List α
  | [], lastIndex => between text content lastIndex content.length
  | found :: rest, lastIndex =>
      if (byMarker citations (toNumber found.digits)).isSome then
        between text content lastIndex found.index ++ chip found ::
          collect text chip content citations rest (found.index + found.length)
      else collect text chip content citations rest lastIndex

theorem map_collect {β : Type*} (f : α → β) (text : Str → α) (chip : MarkerMatch → α)
    (content : Str) (citations : Option (List CitationOut)) (ms : List MarkerMatch)
    (lastIndex : ℕ) : (collect text chip content citations ms lastIndex).map f =
      collect (f ∘ text) (f ∘ chip) content citations ms lastIndex := by
  have htext : ∀ lastIndex stop,
      (between text content lastIndex stop).map f = between (f ∘ text) content lastIndex stop := by
    intro lastIndex stop
    unfold between
    split <;> rfl
  induction ms generalizing lastIndex with
  | nil => exact htext _ _
  | cons found rest ih =>
      rw [collect, collect]
      split
      · rw [List.map_append, List.map_cons, htext, ih]
        rfl
      · exact ih lastIndex

end Loop

/-- What is shown of the matches and the text around them. -/
def collectParts : Str → Option (List CitationOut) → List MarkerMatch → ℕ → List Part :=
  collect .text fun found => .marker (toNumber found.digits)

/-- The parts `CitationText` shows. -/
def citationText (content : Str) (citations : Option (List CitationOut)) : List Part :=
  collectParts content citations (matchAll 0 content) 0

/-- The markers shown as chips. -/
def chipMarkers (parts : List Part) : List JsNumber :=
  parts.filterMap fun part =>
    match part with
    | .text _ => none
    | .marker marker => some marker

/-! ## Which markers are found -/

theorem asciiDigits_eq_some {rest digits : Str} : asciiDigits rest = some digits ↔
    digits ≠ [] ∧ (∀ c ∈ digits, c.isDigit = true) ∧ ∃ tail, rest = digits ++ ']' :: tail :=
  closedRun_eq_some (by decide)

/-- The digits of a match are ASCII digits. -/
def IsAscii (digits : Str) : Prop := ∀ c ∈ digits, c.isDigit = true

instance (digits : Str) : Decidable (IsAscii digits) :=
  List.decidableBAll _ _

/-- The client finds the markers of the backend that are written in ASCII digits. -/
theorem asciiDigits_eq_filter (rest : Str) :
    asciiDigits rest = (markerDigits rest).filter fun digits => decide (IsAscii digits) := by
  have hdigit : ∀ c : Char, c.isDigit = true → isDigit c = true := by
    intro c hc
    rw [isDigit, digitValue_of_isDigit hc]
    rfl
  ext digits
  rw [asciiDigits_eq_some, Option.filter_eq_some_iff, markerDigits_eq_some, decide_eq_true_iff]
  constructor
  · rintro ⟨hne, hascii, htail⟩
    exact ⟨⟨hne, fun c hc => hdigit c (hascii c hc), htail⟩, hascii⟩
  · rintro ⟨⟨hne, _, htail⟩, hascii⟩
    exact ⟨hne, hascii, htail⟩

theorem matchAll_digits (index : ℕ) (content : Str) :
    (matchAll index content).map MarkerMatch.digits =
      (findMarkers content).filter fun digits => decide (IsAscii digits) := by
  induction content generalizing index with
  | nil => rfl
  | cons c rest ih =>
      simp only [matchAll, findMarkers, asciiDigits_eq_filter]
      split
      · cases markerDigits rest with
        | none => exact ih _
        | some digits =>
            by_cases hascii : IsAscii digits
            · simp [Option.filter, hascii, ih]
            · simp [Option.filter, hascii, ih]
      · exact ih _

/-- The backend and the client read a run of ASCII digits as the same integer. -/
theorem toNumber_of_isAscii {digits : Str} (h : IsAscii digits) :
    toNumber digits = .ofNat (valueOf digits) := by
  rw [toNumber, Nat.ofDigitChars_eq_foldl, valueOf]
  congr 1
  refine List.foldl_ext _ _ _ fun value c hc => ?_
  rw [digitValue_of_isDigit (h c hc)]
  rfl

/-! ## Chips -/

theorem chipMarkers_append (parts rest : List Part) :
    chipMarkers (parts ++ rest) = chipMarkers parts ++ chipMarkers rest := List.filterMap_append

theorem chipMarkers_between (content : Str) (lastIndex stop : ℕ) :
    chipMarkers (between .text content lastIndex stop) = [] := by
  unfold between
  split <;> rfl

/-- The chips are the matches that resolve, in their order. -/
theorem chipMarkers_collectParts (content : Str) (citations : Option (List CitationOut))
    (found : List MarkerMatch) (lastIndex : ℕ) :
    chipMarkers (collectParts content citations found lastIndex) =
      (found.map fun found => toNumber found.digits).filter fun marker =>
        (byMarker citations marker).isSome := by
  unfold collectParts
  induction found generalizing lastIndex with
  | nil => exact chipMarkers_between _ _ _
  | cons first rest ih =>
      rw [collect, List.map_cons]
      split
      · next hresolves =>
          rw [List.filter_cons, if_pos hresolves, chipMarkers_append, chipMarkers_between,
            List.nil_append, ← ih (first.index + first.length)]
          rfl
      · next hplain => rw [List.filter_cons, if_neg hplain, ih]

theorem byMarker_isSome {citations : List CitationOut} {marker : JsNumber} :
    (byMarker (some citations) marker).isSome = true ↔
      ∃ citation ∈ citations, citation.marker = marker := by
  simp [byMarker, List.find?_isSome]

theorem mem_chipMarkers {content : Str} {citations : List CitationOut} {marker : JsNumber} :
    marker ∈ chipMarkers (citationText content (some citations)) ↔
      (∃ digits ∈ findMarkers content, IsAscii digits ∧ JsNumber.ofNat (valueOf digits) = marker) ∧
        ∃ citation ∈ citations, citation.marker = marker := by
  have hmatches : (matchAll 0 content).map (fun found => toNumber found.digits) =
      ((findMarkers content).filter fun digits => decide (IsAscii digits)).map toNumber := by
    rw [← matchAll_digits 0, List.map_map]
    rfl
  rw [citationText, chipMarkers_collectParts, List.mem_filter, byMarker_isSome, hmatches,
    List.mem_map]
  refine and_congr_left fun _ => exists_congr fun digits => ?_
  rw [List.mem_filter, decide_eq_true_iff, and_assoc]
  refine and_congr_right fun _ => and_congr_right fun hascii => ?_
  rw [toNumber_of_isAscii hascii]

/-- The markers of the citations, as the client reads them. -/
theorem mem_markers_citationsOf {hits : List SearchHit} {answer : Str} {marker : JsNumber} :
    marker ∈ (citationsOf hits defaultSnippetChars (citedNumbers answer)).map
        (fun citation => JsNumber.ofNat citation.marker) ↔
      ∃ digits ∈ findMarkers answer, (1 ≤ valueOf digits ∧ valueOf digits ≤ hits.length) ∧
        JsNumber.ofNat (valueOf digits) = marker := by
  constructor
  · intro hmem
    obtain ⟨citation, hcitation, rfl⟩ := List.mem_map.mp hmem
    obtain ⟨number, hnumber, hcites⟩ := mem_citationsOf.mp hcitation
    obtain ⟨digits, hdigits, rfl⟩ := List.mem_map.mp hnumber
    refine ⟨digits, hdigits, ⟨hcites.1, ?_⟩, by rw [hcites.marker]⟩
    obtain ⟨hpositive, hit, hhit, _⟩ := hcites
    have hlt := (List.getElem?_eq_some_iff.mp hhit).1
    omega
  · rintro ⟨digits, hdigits, ⟨hpositive, hle⟩, rfl⟩
    have hlt : valueOf digits - 1 < hits.length := by omega
    obtain ⟨hit, hhit⟩ : ∃ hit, hits[valueOf digits - 1]? = some hit :=
      ⟨_, List.getElem?_eq_getElem hlt⟩
    exact List.mem_map.mpr ⟨_, mem_citationsOf.mpr ⟨valueOf digits, List.mem_map_of_mem hdigits,
      hpositive, _, hhit, rfl⟩, rfl⟩

/-- The markers shown as chips are those of the citations, if and only if every
bracketed number of a source is also written in ASCII digits (as far as the client
can tell numbers apart). -/
theorem chips_eq_citations_iff (answer : Str) (hits : List SearchHit)
    (hshort : ShortMarkers (findMarkers answer)) : ∃ citations,
      extractCitations answer hits defaultSnippetChars = .ok citations ∧
      ((∀ marker, marker ∈ chipMarkers (citationText answer
          (some (citations.map CitationOut.ofCitation))) ↔
        marker ∈ citations.map fun citation => JsNumber.ofNat citation.marker) ↔
      ∀ digits ∈ findMarkers answer, 1 ≤ valueOf digits → valueOf digits ≤ hits.length →
        ∃ ascii ∈ findMarkers answer, IsAscii ascii ∧
          JsNumber.ofNat (valueOf ascii) = JsNumber.ofNat (valueOf digits)) := by
  refine ⟨_, extractCitations_eq_ok hshort, ?_⟩
  -- a chip is the marker of a citation, so the question is which citations have a chip
  have hresolves : ∀ marker, (∃ citation ∈ (citationsOf hits defaultSnippetChars
      (citedNumbers answer)).map CitationOut.ofCitation, citation.marker = marker) ↔
        marker ∈ (citationsOf hits defaultSnippetChars (citedNumbers answer)).map
          fun citation => JsNumber.ofNat citation.marker := by
    intro marker
    simp [CitationOut.ofCitation]
  simp only [mem_chipMarkers, hresolves]
  constructor
  · intro hchips digits hdigits hpositive hle
    exact ((hchips _).mpr (mem_markers_citationsOf.mpr
      ⟨digits, hdigits, ⟨hpositive, hle⟩, rfl⟩)).1
  · intro hwritten marker
    refine and_iff_right_of_imp fun hcited => ?_
    obtain ⟨digits, hdigits, ⟨hpositive, hle⟩, rfl⟩ := mem_markers_citationsOf.mp hcited
    exact hwritten digits hdigits hpositive hle

theorem chips_eq_citations_iff_rain : ∃ citations,
    extractCitations "Rain [1].".toList [rainHit "a.pdf".toList] defaultSnippetChars =
      .ok citations ∧
    ((∀ marker, marker ∈ chipMarkers (citationText "Rain [1].".toList
        (some (citations.map CitationOut.ofCitation))) ↔
      marker ∈ citations.map fun citation => JsNumber.ofNat citation.marker) ↔
    ∀ digits ∈ findMarkers "Rain [1].".toList, 1 ≤ valueOf digits →
      valueOf digits ≤ [rainHit "a.pdf".toList].length →
        ∃ ascii ∈ findMarkers "Rain [1].".toList, IsAscii ascii ∧
          JsNumber.ofNat (valueOf ascii) = JsNumber.ofNat (valueOf digits)) :=
  chips_eq_citations_iff _ _ (by unfold ShortMarkers; decide)

/-- A marker in Arabic-Indic digits is a citation without a chip. -/
theorem arabicMarker_has_no_chip : ∃ citations,
    extractCitations "Rain [١].".toList [rainHit "a.pdf".toList] defaultSnippetChars =
      .ok citations ∧
    citations.map Citation.marker = [1] ∧
    chipMarkers (citationText "Rain [١].".toList
      (some (citations.map CitationOut.ofCitation))) = [] := by
  refine ⟨[citationOf 1 (rainHit "a.pdf".toList) defaultSnippetChars], ?_, rfl, ?_⟩
  · decide +kernel
  · decide +kernel

end Web
