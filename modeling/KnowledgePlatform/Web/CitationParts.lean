import KnowledgePlatform.Web.CitationText

/-!
# Citation rendering loses nothing

The loop of `CitationText` cuts at the matches that resolve and leaves the cut
position where it is at the others.  A part is put back where it comes from by a
`Piece`: a text, or the match that a chip stands for.  `Laid` is the invariant for
the matches still to come: their pieces spell the content from the cut position
on, each match that resolves is a chip in its place, and every other one lies
inside a text.
-/

open Core Foundations Python

namespace Web

/-! ## Matches and their places -/

/-- The text that is matched. -/
def MarkerMatch.source (found : MarkerMatch) : Str := '[' :: (found.digits ++ [']'])

theorem MarkerMatch.length_source (found : MarkerMatch) : found.source.length = found.length := by
  simp [source, length]

/-- At this place of the content there are ASCII digits in brackets. -/
structure IsMatch (content : Str) (found : MarkerMatch) : Prop where
  nonempty : found.digits ≠ []
  ascii : IsAscii found.digits
  occurs : found.source <+: content.drop found.index

/-- The matches of a content whose rest begins at `index`. -/
theorem mem_matchAll {index : ℕ} {rest : Str} {found : MarkerMatch} :
    found ∈ matchAll index rest ↔ ∃ offset, found.index = index + offset ∧
      found.digits ≠ [] ∧ IsAscii found.digits ∧ found.source <+: rest.drop offset := by
  induction rest generalizing index with
  | nil =>
      refine iff_of_false List.not_mem_nil ?_
      rintro ⟨offset, _, _, _, hoccurs⟩
      rw [List.drop_nil, List.prefix_nil] at hoccurs
      cases hoccurs
  | cons c rest ih =>
      have hhere : (∃ digits, c = '[' ∧ asciiDigits rest = some digits ∧ found = ⟨index, digits⟩) ↔
          found.index = index ∧ found.digits ≠ [] ∧ IsAscii found.digits ∧
            found.source <+: c :: rest := by
        constructor
        · rintro ⟨digits, rfl, hdigits, rfl⟩
          obtain ⟨hne, hascii, tail, rfl⟩ := asciiDigits_eq_some.mp hdigits
          exact ⟨rfl, hne, hascii, tail, by simp [MarkerMatch.source]⟩
        · rintro ⟨rfl, hne, hascii, tail, htail⟩
          simp only [MarkerMatch.source, List.cons_append, List.append_assoc, List.cons.injEq,
            List.nil_append] at htail
          exact ⟨found.digits, htail.1.symm,
            asciiDigits_eq_some.mpr ⟨hne, hascii, tail, htail.2.symm⟩, rfl⟩
      have hstep : found ∈ matchAll index (c :: rest) ↔
          (∃ digits, c = '[' ∧ asciiDigits rest = some digits ∧ found = ⟨index, digits⟩) ∨
            found ∈ matchAll (index + 1) rest := by
        rw [matchAll]
        split
        · next hopen =>
            cases hdigits : asciiDigits rest with
            | none => simp
            | some digits => simp [hopen]
        · next hplain => simp [hplain]
      rw [hstep, hhere, ih]
      constructor
      · rintro (⟨hindex, hfound⟩ | ⟨offset, hindex, hfound⟩)
        · exact ⟨0, hindex, hfound⟩
        · exact ⟨offset + 1, by omega, hfound⟩
      · rintro ⟨_ | offset, hindex, hfound⟩
        · exact .inl ⟨hindex, hfound⟩
        · exact .inr ⟨offset, by omega, hfound⟩

/-- `matchAll` finds the runs of ASCII digits in brackets. -/
theorem mem_matchAll_zero {content : Str} {found : MarkerMatch} :
    found ∈ matchAll 0 content ↔ IsMatch content found := by
  rw [mem_matchAll]
  constructor
  · rintro ⟨offset, hindex, hne, hascii, hoccurs⟩
    rw [Nat.zero_add] at hindex
    exact ⟨hne, hascii, hindex ▸ hoccurs⟩
  · rintro ⟨hne, hascii, hoccurs⟩
    exact ⟨found.index, (Nat.zero_add _).symm, hne, hascii, hoccurs⟩

/-- The matches come in the order of their places. -/
theorem pairwise_matchAll (index : ℕ) (rest : Str) :
    (matchAll index rest).Pairwise fun found later => found.index < later.index := by
  induction rest generalizing index with
  | nil => exact List.Pairwise.nil
  | cons c rest ih =>
      rw [matchAll]
      split
      · split
        · refine List.pairwise_cons.mpr ⟨fun later hlater => ?_, ih (index + 1)⟩
          obtain ⟨offset, hindex, _⟩ := mem_matchAll.mp hlater
          rw [hindex]
          dsimp only
          omega
        · exact ih (index + 1)
      · exact ih (index + 1)

theorem notMem_digits {digits : Str} (h : IsAscii digits) : '[' ∉ digits := by
  intro hmem
  have hdigit := h '[' hmem
  revert hdigit
  decide

namespace IsMatch

variable {content : Str} {found later : MarkerMatch}

theorem stop_le (h : IsMatch content found) : found.index + found.length ≤ content.length := by
  have hlength := h.occurs.length_le
  rw [found.length_source, List.length_drop] at hlength
  have hpositive : 0 < found.length := by
    rw [MarkerMatch.length]
    omega
  omega

/-- The content from a match on. -/
theorem drop_eq (h : IsMatch content found) :
    content.drop found.index = found.source ++ content.drop (found.index + found.length) := by
  obtain ⟨tail, htail⟩ := h.occurs
  rw [← List.drop_drop, ← htail, ← found.length_source, List.drop_left]

/-- A match holds no second opening bracket, so the next one begins behind it. -/
theorem stop_le_of_lt (h : IsMatch content found) (hlater : IsMatch content later)
    (hlt : found.index < later.index) : found.index + found.length ≤ later.index := by
  by_contra hinside
  have hbracket : content[later.index]? = some '[' := by
    have hhead := congrArg List.head? hlater.drop_eq
    rwa [List.head?_drop] at hhead
  have hwithin :
      content[later.index]? = (found.digits ++ [']'])[later.index - found.index - 1]? := by
    have hget := congrArg (fun text => text[later.index - found.index]?) h.drop_eq
    simp only [List.getElem?_drop] at hget
    rw [Nat.add_sub_cancel' hlt.le] at hget
    have hinsource : later.index - found.index < found.source.length := by
      rw [found.length_source]
      omega
    rw [hget, List.getElem?_append_left hinsource, MarkerMatch.source,
      List.getElem?_cons, if_neg (by omega)]
  have hmem : '[' ∈ found.digits ++ [']'] :=
    List.mem_of_getElem? (hwithin.symm.trans hbracket)
  rcases List.mem_append.mp hmem with hdigits | hclose
  · exact notMem_digits h.ascii hdigits
  · simp at hclose

end IsMatch

/-! ## Pieces -/

/-- What a part comes from: a text, or the match a chip stands for. -/
inductive Piece
  | text (text : Str)
  | chip (found : MarkerMatch)
  deriving DecidableEq

/-- The part of the rendering. -/
def Piece.part : Piece → Part
  | .text shown => .text shown
  | .chip found => .marker (toNumber found.digits)

/-- The source text, for a chip that of its match. -/
def Piece.source : Piece → Str
  | .text shown => shown
  | .chip found => found.source

/-- The number of the match is a marker of the list. -/
def Cited (citations : Option (List CitationOut)) (found : MarkerMatch) : Prop :=
  ∃ citation ∈ citations.getD [], citation.marker = toNumber found.digits

theorem byMarker_isSome_iff {citations : Option (List CitationOut)} {found : MarkerMatch} :
    (byMarker citations (toNumber found.digits)).isSome = true ↔ Cited citations found := by
  simp [byMarker, Cited, List.find?_isSome]

/-- A text as a piece. -/
abbrev textPiece : Str → ℕ → ℕ → List Piece := between .text

/-- The loop over the matches, with the match of each chip. -/
abbrev collectPieces : Str → Option (List CitationOut) → List MarkerMatch → ℕ → List Piece :=
  collect .text .chip

theorem map_part_collectPieces (content : Str) (citations : Option (List CitationOut))
    (ms : List MarkerMatch) (lastIndex : ℕ) :
    (collectPieces content citations ms lastIndex).map Piece.part =
      collectParts content citations ms lastIndex :=
  map_collect Piece.part .text .chip content citations ms lastIndex

theorem source_textPiece {content : Str} {lastIndex stop : ℕ} (hle : lastIndex ≤ stop)
    (hstop : stop ≤ content.length) :
    (textPiece content lastIndex stop).flatMap Piece.source ++ content.drop stop =
      content.drop lastIndex := by
  have hslice : slice content lastIndex stop ++ content.drop stop = content.drop lastIndex := by
    have hsplit := congrArg (List.drop lastIndex) (List.take_append_drop stop content)
    rwa [List.drop_append_of_le_length (by simp [hle, hle.trans hstop])] at hsplit
  unfold textPiece between
  split
  · simpa [Piece.source] using hslice
  · next hnot =>
      obtain rfl : lastIndex = stop := by omega
      rfl

theorem length_source_textPiece {content : Str} {lastIndex stop : ℕ} (hle : lastIndex ≤ stop)
    (hstop : stop ≤ content.length) :
    ((textPiece content lastIndex stop).flatMap Piece.source).length = stop - lastIndex := by
  have hlength := congrArg List.length (source_textPiece hle hstop)
  rw [List.length_append, List.length_drop, List.length_drop] at hlength
  omega

/-! ## The loop -/

/-- The matches still to come lie behind the cut position, in order. -/
structure Ahead (content : Str) (lastIndex : ℕ) (ms : List MarkerMatch) : Prop where
  within : lastIndex ≤ content.length
  isMatch : ∀ found ∈ ms, IsMatch content found
  ahead : ∀ found ∈ ms, lastIndex ≤ found.index
  ordered : ms.Pairwise fun found later => found.index < later.index

namespace Ahead

variable {content : Str} {lastIndex : ℕ} {found : MarkerMatch} {rest : List MarkerMatch}

theorem zero (content : Str) : Ahead content 0 (matchAll 0 content) where
  within := Nat.zero_le _
  isMatch := fun _ hfound => mem_matchAll_zero.mp hfound
  ahead := fun _ _ => Nat.zero_le _
  ordered := pairwise_matchAll 0 content

/-- The cut position stays where it is. -/
theorem skip (h : Ahead content lastIndex (found :: rest)) : Ahead content lastIndex rest where
  within := h.within
  isMatch := fun later hlater => h.isMatch later (List.mem_cons_of_mem _ hlater)
  ahead := fun later hlater => h.ahead later (List.mem_cons_of_mem _ hlater)
  ordered := h.ordered.of_cons

/-- The cut position moves behind the first match. -/
theorem cut (h : Ahead content lastIndex (found :: rest)) :
    Ahead content (found.index + found.length) rest where
  within := (h.isMatch found List.mem_cons_self).stop_le
  isMatch := h.skip.isMatch
  ahead := by
    intro later hlater
    exact (h.isMatch found List.mem_cons_self).stop_le_of_lt (h.skip.isMatch later hlater)
      (List.rel_of_pairwise_cons h.ordered hlater)
  ordered := h.ordered.of_cons

end Ahead

/-- Pieces laid over the content from the cut position on, for some matches. -/
structure Laid (content : Str) (citations : Option (List CitationOut)) (ms : List MarkerMatch)
    (lastIndex : ℕ) (pieces : List Piece) : Prop where
  source : pieces.flatMap Piece.source = content.drop lastIndex
  chips : ∀ found, .chip found ∈ pieces → found ∈ ms ∧ Cited citations found
  cited : ∀ found ∈ ms, Cited citations found → ∃ before after,
    pieces = before ++ .chip found :: after ∧
      lastIndex + (before.flatMap Piece.source).length = found.index
  uncited : ∀ found ∈ ms, ¬Cited citations found → ∃ before text after,
    pieces = before ++ .text text :: after ∧
      lastIndex + (before.flatMap Piece.source).length ≤ found.index ∧
      found.index + found.length ≤
        lastIndex + (before.flatMap Piece.source).length + text.length
  nonempty : ∀ text, .text text ∈ pieces → text ≠ []

theorem mem_textPiece {content : Str} {lastIndex stop : ℕ} {piece : Piece}
    (hstop : stop ≤ content.length) (hpiece : piece ∈ textPiece content lastIndex stop) :
    piece = .text (slice content lastIndex stop) ∧ slice content lastIndex stop ≠ [] := by
  unfold textPiece between at hpiece
  split at hpiece
  · next hlt =>
      refine ⟨List.mem_singleton.mp hpiece, ?_⟩
      rw [← List.length_pos_iff, slice, List.length_drop, List.length_take, min_eq_left hstop]
      omega
  · cases hpiece

/-- What lies before the end of an unresolved match is in the first text. -/
theorem exists_text_of_lt {content : Str} {citations : Option (List CitationOut)}
    {ms : List MarkerMatch} {lastIndex stop : ℕ} (h : Ahead content lastIndex ms)
    (hlt : lastIndex < stop) (hstop : stop ≤ content.length)
    (hbefore : ∀ found ∈ ms, stop ≤ found.index) : ∃ text after,
      collectPieces content citations ms lastIndex = .text text :: after ∧
        stop ≤ lastIndex + text.length := by
  induction ms with
  | nil =>
      refine ⟨slice content lastIndex content.length, [], ?_, ?_⟩
      · rw [collectPieces, collect, between, if_pos (hlt.trans_le hstop)]
      · rw [slice, List.length_drop, List.length_take, min_self]
        omega
  | cons found rest ih =>
      rw [collectPieces, collect]
      have hfound := hbefore found List.mem_cons_self
      have hmatch := (h.isMatch found List.mem_cons_self).stop_le
      split
      · rw [between, if_pos (hlt.trans_le hfound)]
        refine ⟨slice content lastIndex found.index, _, rfl, ?_⟩
        rw [slice, List.length_drop, List.length_take, min_eq_left (by omega)]
        omega
      · exact ih h.skip fun later hlater => hbefore later (List.mem_cons_of_mem _ hlater)

section Steps

variable {content : Str} {citations : Option (List CitationOut)} {lastIndex : ℕ}
  {found : MarkerMatch} {rest : List MarkerMatch} {pieces : List Piece}

/-- The text behind the last chip. -/
theorem Laid.last (hle : lastIndex ≤ content.length) :
    Laid content citations [] lastIndex (textPiece content lastIndex content.length) where
  source := by
    have hsource := source_textPiece hle le_rfl
    rwa [List.drop_length, List.append_nil] at hsource
  chips := by
    intro found hfound
    cases (mem_textPiece le_rfl hfound).1
  cited := by simp
  uncited := by simp
  nonempty := by
    intro text htext
    obtain ⟨heq, hne⟩ := mem_textPiece le_rfl htext
    cases heq
    exact hne

/-- A match that resolves becomes a chip, behind the text that was left before it. -/
theorem Laid.cut (h : Ahead content lastIndex (found :: rest)) (hcited : Cited citations found)
    (hlaid : Laid content citations rest (found.index + found.length) pieces) :
    Laid content citations (found :: rest) lastIndex
      (textPiece content lastIndex found.index ++ .chip found :: pieces) := by
  have hmatch := h.isMatch found List.mem_cons_self
  have hahead := h.ahead found List.mem_cons_self
  have hstop : found.index ≤ content.length := by
    have hle := hmatch.stop_le
    omega
  have hfront := length_source_textPiece hahead hstop
  -- what stands before a piece of the rest
  have hbefore : ∀ before : List Piece,
      lastIndex + ((textPiece content lastIndex found.index ++ .chip found :: before).flatMap
        Piece.source).length =
      found.index + found.length + (before.flatMap Piece.source).length := by
    intro before
    rw [List.flatMap_append, List.length_append, hfront, List.flatMap_cons,
      List.length_append, Piece.source, found.length_source]
    omega
  refine ⟨?_, ?_, ?_, ?_, ?_⟩
  · rw [List.flatMap_append, List.flatMap_cons, hlaid.source, Piece.source, ← hmatch.drop_eq,
      source_textPiece hahead hstop]
  · intro other hother
    rcases List.mem_append.mp hother with htext | hrest
    · cases (mem_textPiece hstop htext).1
    · rcases List.mem_cons.mp hrest with heq | hlater
      · cases heq
        exact ⟨List.mem_cons_self, hcited⟩
      · exact (hlaid.chips other hlater).imp_left (List.mem_cons_of_mem _)
  · intro other hother hresolves
    rcases List.mem_cons.mp hother with rfl | hlater
    · exact ⟨_, _, rfl, by rw [hfront, Nat.add_sub_cancel' hahead]⟩
    · obtain ⟨before, after, heq, hplace⟩ := hlaid.cited other hlater hresolves
      exact ⟨textPiece content lastIndex found.index ++ .chip found :: before, after,
        by rw [heq, List.append_assoc, List.cons_append], by rw [hbefore, hplace]⟩
  · intro other hother hplain
    rcases List.mem_cons.mp hother with rfl | hlater
    · exact absurd hcited hplain
    · obtain ⟨before, text, after, heq, hplace⟩ := hlaid.uncited other hlater hplain
      refine ⟨textPiece content lastIndex found.index ++ .chip found :: before, text, after,
        by rw [heq, List.append_assoc, List.cons_append], ?_⟩
      rw [hbefore]
      exact hplace
  · intro text htext
    rcases List.mem_append.mp htext with hfirst | hrest
    · obtain ⟨heq, hne⟩ := mem_textPiece hstop hfirst
      cases heq
      exact hne
    · rcases List.mem_cons.mp hrest with heq | hlater
      · cases heq
      · exact hlaid.nonempty text hlater

/-- A match that does not resolve is left to the text before the next chip. -/
theorem Laid.skip (h : Ahead content lastIndex (found :: rest)) (hplain : ¬Cited citations found)
    (hlaid : Laid content citations rest lastIndex
      (collectPieces content citations rest lastIndex)) :
    Laid content citations (found :: rest) lastIndex
      (collectPieces content citations rest lastIndex) := by
  refine ⟨hlaid.source, ?_, ?_, ?_, hlaid.nonempty⟩
  · intro other hother
    exact (hlaid.chips other hother).imp_left (List.mem_cons_of_mem _)
  · intro other hother hresolves
    rcases List.mem_cons.mp hother with rfl | hlater
    · exact absurd hresolves hplain
    · exact hlaid.cited other hlater hresolves
  · intro other hother hother'
    rcases List.mem_cons.mp hother with rfl | hlater
    · -- the text before the next chip goes over this match
      have hlength : 0 < other.length := Nat.succ_pos _
      have hahead := h.ahead other List.mem_cons_self
      obtain ⟨text, after, heq, hcovers⟩ :=
        @exists_text_of_lt content citations rest lastIndex (other.index + other.length) h.skip
          (by omega) (h.isMatch other List.mem_cons_self).stop_le h.cut.ahead
      exact ⟨[], text, after, heq, by simpa using hahead, by simpa using hcovers⟩
    · exact hlaid.uncited other hlater hother'

end Steps

/-- The pieces of the loop. -/
theorem laid_collectPieces {content : Str} (citations : Option (List CitationOut))
    {ms : List MarkerMatch} {lastIndex : ℕ} (h : Ahead content lastIndex ms) :
    Laid content citations ms lastIndex (collectPieces content citations ms lastIndex) := by
  induction ms generalizing lastIndex with
  | nil =>
      rw [collectPieces, collect]
      exact Laid.last h.within
  | cons found rest ih =>
      rw [collectPieces, collect]
      by_cases hresolves : (byMarker citations (toNumber found.digits)).isSome
      · rw [if_pos hresolves]
        exact Laid.cut h (byMarker_isSome_iff.mp hresolves) (ih h.cut)
      · rw [if_neg hresolves]
        exact Laid.skip h (mt byMarker_isSome_iff.mpr hresolves) (ih h.skip)

/-- `CitationText` loses nothing: its parts come from pieces that spell the content.  A
match whose number is a marker of the list is a chip in its place, and nothing else is;
every other match lies inside a text; no text is empty. -/
theorem citationText_lossless (content : Str) (citations : Option (List CitationOut)) : ∃ pieces,
    pieces.map Piece.part = citationText content citations ∧
      pieces.flatMap Piece.source = content ∧
      (∀ found, .chip found ∈ pieces → IsMatch content found ∧ Cited citations found) ∧
      (∀ found, IsMatch content found → Cited citations found → ∃ before after,
        pieces = before ++ .chip found :: after ∧
          (before.flatMap Piece.source).length = found.index) ∧
      (∀ found, IsMatch content found → ¬Cited citations found → ∃ before text after,
        pieces = before ++ .text text :: after ∧
          (before.flatMap Piece.source).length ≤ found.index ∧
          found.index + found.length ≤ (before.flatMap Piece.source).length + text.length) ∧
      ∀ text, .text text ∈ pieces → text ≠ [] := by
  have hlaid := laid_collectPieces citations (Ahead.zero content)
  refine ⟨_, map_part_collectPieces _ _ _ _, hlaid.source, ?_, ?_, ?_, hlaid.nonempty⟩
  · intro found hfound
    exact (hlaid.chips found hfound).imp_left mem_matchAll_zero.mp
  · intro found hfound hresolves
    obtain ⟨before, after, heq, hplace⟩ :=
      hlaid.cited found (mem_matchAll_zero.mpr hfound) hresolves
    exact ⟨before, after, heq, by rwa [Nat.zero_add] at hplace⟩
  · intro found hfound hplain
    obtain ⟨before, text, after, heq, hplace⟩ :=
      hlaid.uncited found (mem_matchAll_zero.mpr hfound) hplain
    rw [Nat.zero_add] at hplace
    exact ⟨before, text, after, heq, hplace⟩

end Web
