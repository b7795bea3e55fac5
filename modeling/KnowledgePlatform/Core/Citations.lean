import KnowledgePlatform.Core.Sources

/-!
# What is cited

`extractCitations` reads the markers of an answer as numbers and collects, for
each number of a source, one citation.  `extractCitations_eq_ok` states its result
directly: the citations of the sources whose numbers occur, in order.  It raises
exactly when a run of digits is too long for `int`.
-/

open Foundations Python Relational

namespace Core

/-- The numbers an answer has in brackets. -/
def citedNumbers (answer : Str) : List ℕ := (findMarkers answer).map valueOf

/-- The bracketed runs of digits are short enough for `int`. -/
def ShortMarkers (markers : List Str) : Prop := ∀ raw ∈ markers, raw.length ≤ maxStrDigits

/-- The citation is that of the source with this number. -/
def Cites (hits : List SearchHit) (snippetChars marker : ℕ) (citation : Citation) : Prop :=
  1 ≤ marker ∧ ∃ hit, hits[marker - 1]? = some hit ∧ citation = citationOf marker hit snippetChars

theorem Cites.marker {hits : List SearchHit} {snippetChars marker : ℕ} {citation : Citation}
    (h : Cites hits snippetChars marker citation) : citation.marker = marker := by
  obtain ⟨_, _, _, rfl⟩ := h
  rfl

theorem Cites.unique {hits : List SearchHit} {snippetChars marker : ℕ} {citation other : Citation}
    (h : Cites hits snippetChars marker citation) (hother : Cites hits snippetChars marker other) :
    citation = other := by
  obtain ⟨_, hit, hfound, rfl⟩ := h
  obtain ⟨_, hit', hfound', rfl⟩ := hother
  cases hfound.symm.trans hfound'
  rfl

variable {hits : List SearchHit} {snippetChars : ℕ}

/-- A marker that is read, and then skipped or cited. -/
theorem collectCitations_cons {raw : Str} {rest : List Str} {seen : List ℕ}
    (hshort : raw.length ≤ maxStrDigits) :
    (∃ citation, valueOf raw ∉ seen ∧ Cites hits snippetChars (valueOf raw) citation ∧
      collectCitations hits snippetChars (raw :: rest) seen =
        (citation :: ·) <$> collectCitations hits snippetChars rest (valueOf raw :: seen)) ∨
    ((valueOf raw ∈ seen ∨ ∀ citation, ¬Cites hits snippetChars (valueOf raw) citation) ∧
      collectCitations hits snippetChars (raw :: rest) seen =
        collectCitations hits snippetChars rest seen) := by
  have hread : intOf raw = .ok (valueOf raw) := intOf_eq_ok.mpr ⟨hshort, rfl⟩
  rw [collectCitations, hread]
  by_cases hskip : valueOf raw ∈ seen ∨ valueOf raw = 0
  · refine .inr ⟨hskip.imp_right fun hzero citation hcites => ?_, ?_⟩
    · have hpositive := hcites.1
      omega
    · simp only [bind, Except.bind, if_pos hskip]
  · obtain ⟨hfresh, hzero⟩ := not_or.mp hskip
    cases hfound : hits[valueOf raw - 1]? with
    | none =>
        refine .inr ⟨.inr fun citation hcites => ?_, ?_⟩
        · obtain ⟨_, hit, hhit, _⟩ := hcites
          cases hfound.symm.trans hhit
        · simp only [bind, Except.bind, if_neg hskip, hfound]
    | some hit =>
        refine .inl ⟨citationOf (valueOf raw) hit snippetChars, hfresh,
          ⟨Nat.pos_of_ne_zero hzero, hit, hfound, rfl⟩, ?_⟩
        simp only [bind, Except.bind, if_neg hskip, hfound]
        cases collectCitations hits snippetChars rest (valueOf raw :: seen) <;> rfl

/-- What the loop collects: for each number that is new and that of a source, its
citation, once. -/
theorem collectCitations_eq_ok {raws : List Str} (hshort : ShortMarkers raws) (seen : List ℕ) :
    ∃ citations, collectCitations hits snippetChars raws seen = .ok citations ∧
      (citations.map Citation.marker).Nodup ∧ ∀ citation, citation ∈ citations ↔
        ∃ marker ∈ raws.map valueOf, marker ∉ seen ∧ Cites hits snippetChars marker citation := by
  induction raws generalizing seen with
  | nil => exact ⟨[], rfl, List.nodup_nil, by simp⟩
  | cons raw rest ih =>
      have hrest : ShortMarkers rest := fun later hlater =>
        hshort later (List.mem_cons_of_mem _ hlater)
      rcases @collectCitations_cons hits snippetChars raw rest seen (hshort raw List.mem_cons_self)
        with ⟨citation, hfresh, hcites, hstep⟩ | ⟨hskip, hstep⟩
      · obtain ⟨citations, hcollected, hnodup, hmem⟩ := ih hrest (valueOf raw :: seen)
        refine ⟨citation :: citations, by rw [hstep, hcollected]; rfl, ?_, fun other => ?_⟩
        · rw [List.map_cons, List.nodup_cons]
          refine ⟨fun hagain => ?_, hnodup⟩
          obtain ⟨other, hother, hmarker⟩ := List.mem_map.mp hagain
          obtain ⟨marker, _, hnew, hcites'⟩ := (hmem other).mp hother
          rw [hcites.marker, hcites'.marker] at hmarker
          exact hnew (hmarker ▸ List.mem_cons_self)
        · rw [List.mem_cons, hmem, List.map_cons]
          constructor
          · rintro (rfl | ⟨marker, hmarker, hnew, hcites'⟩)
            · exact ⟨_, List.mem_cons_self, hfresh, hcites⟩
            · exact ⟨marker, List.mem_cons_of_mem _ hmarker, fun hold =>
                hnew (List.mem_cons_of_mem _ hold), hcites'⟩
          · rintro ⟨marker, hmarker, hnew, hcites'⟩
            by_cases hsame : marker = valueOf raw
            · subst hsame
              exact .inl (hcites'.unique hcites)
            · refine .inr ⟨marker, (List.mem_cons.mp hmarker).resolve_left hsame, ?_, hcites'⟩
              rw [List.mem_cons, not_or]
              exact ⟨hsame, hnew⟩
      · obtain ⟨citations, hcollected, hnodup, hmem⟩ := ih hrest seen
        refine ⟨citations, hstep.trans hcollected, hnodup, fun other => ?_⟩
        rw [hmem, List.map_cons]
        constructor
        · rintro ⟨marker, hmarker, hnew⟩
          exact ⟨marker, List.mem_cons_of_mem _ hmarker, hnew⟩
        · rintro ⟨marker, hmarker, hnew, hcites⟩
          refine ⟨marker, (List.mem_cons.mp hmarker).resolve_left ?_, hnew, hcites⟩
          rintro rfl
          exact hskip.elim hnew fun hnone => hnone other hcites

/-- A run of digits that is too long for `int` ends the loop. -/
theorem shortMarkers_of_collectCitations {raws : List Str} {seen : List ℕ}
    {citations : List Citation} (h : collectCitations hits snippetChars raws seen = .ok citations) :
    ShortMarkers raws := by
  induction raws generalizing seen citations with
  | nil => exact fun raw hraw => absurd hraw List.not_mem_nil
  | cons raw rest ih =>
      have hshort : raw.length ≤ maxStrDigits := by
        by_contra hlong
        rw [collectCitations, intOf, if_pos (not_le.mp hlong)] at h
        cases h
      have hrest : ShortMarkers rest := by
        rcases @collectCitations_cons hits snippetChars raw rest seen hshort with
          ⟨citation, _, _, hstep⟩ | ⟨_, hstep⟩
        · rw [hstep] at h
          cases hcollected : collectCitations hits snippetChars rest (valueOf raw :: seen) with
          | error message =>
              rw [hcollected] at h
              cases h
          | ok collected => exact ih hcollected
        · exact ih (hstep ▸ h)
      intro other hother
      rcases List.mem_cons.mp hother with rfl | hlater
      · exact hshort
      · exact hrest other hlater

/-- The citations of the sources with these numbers, in order. -/
def citationsOf (hits : List SearchHit) (snippetChars : ℕ) (markers : List ℕ) : List Citation :=
  (hits.zipIdx.filter fun source => markers.contains (source.2 + 1)).map fun source =>
    citationOf (source.2 + 1) source.1 snippetChars

theorem mem_citationsOf {markers : List ℕ} {citation : Citation} :
    citation ∈ citationsOf hits snippetChars markers ↔
      ∃ marker ∈ markers, Cites hits snippetChars marker citation := by
  unfold citationsOf
  constructor
  · intro hmem
    obtain ⟨⟨hit, index⟩, hsource, rfl⟩ := List.mem_map.mp hmem
    obtain ⟨hindex, hmarker⟩ := List.mem_filter.mp hsource
    exact ⟨index + 1, by simpa using hmarker, Nat.succ_pos _, hit,
      List.mk_mem_zipIdx_iff_getElem?.mp hindex, rfl⟩
  · rintro ⟨marker, hmarker, hpositive, hit, hfound, rfl⟩
    have hsucc : marker - 1 + 1 = marker := Nat.sub_add_cancel hpositive
    refine List.mem_map.mpr ⟨(hit, marker - 1), List.mem_filter.mpr
      ⟨List.mk_mem_zipIdx_iff_getElem?.mpr hfound, ?_⟩, ?_⟩
    · simpa [hsucc] using hmarker
    · rw [hsucc]

/-- The citations are in the order of their markers. -/
theorem pairwise_citationsOf (markers : List ℕ) :
    (citationsOf hits snippetChars markers).Pairwise fun citation other =>
      citation.marker < other.marker := by
  unfold citationsOf
  rw [List.pairwise_map]
  refine List.Pairwise.filter _ ?_
  rw [List.pairwise_iff_getElem]
  intro first second hfirst hsecond hlt
  simp only [citationOf, List.getElem_zipIdx]
  omega

/-- What `extractCitations` returns. -/
theorem extractCitations_eq_ok {answer : Str} (hshort : ShortMarkers (findMarkers answer)) :
    extractCitations answer hits snippetChars =
      .ok (citationsOf hits snippetChars (citedNumbers answer)) := by
  obtain ⟨citations, hcollected, hnodup, hmem⟩ :=
    @collectCitations_eq_ok hits snippetChars _ hshort []
  have hsorted := @pairwise_citationsOf hits snippetChars (citedNumbers answer)
  have hperm : citations.Perm (citationsOf hits snippetChars (citedNumbers answer)) := by
    refine (List.perm_ext_iff_of_nodup hnodup.of_map ?_).mpr fun citation => ?_
    · exact hsorted.imp fun hlt heq => absurd (heq ▸ hlt) (lt_irrefl _)
    · rw [hmem, mem_citationsOf]
      simp [citedNumbers]
  unfold extractCitations
  rw [hcollected]
  refine congrArg Except.ok (List.Perm.eq_of_pairwise ?_ (List.pairwise_insertionSort _ _)
    (hsorted.imp le_of_lt) ((List.perm_insertionSort _ _).trans hperm))
  intro citation other hcitation hother hle hge
  obtain ⟨marker, _, hcites⟩ := mem_citationsOf.mp (hperm.subset
    ((List.perm_insertionSort _ _).subset hcitation))
  obtain ⟨marker', _, hcites'⟩ := mem_citationsOf.mp hother
  have hsame := le_antisymm hle hge
  rw [hcites.marker, hcites'.marker] at hsame
  exact hcites.unique (hsame ▸ hcites')

/-- `extractCitations` raises exactly when a bracketed run of digits is too long. -/
theorem shortMarkers_of_extractCitations {answer : Str} {citations : List Citation}
    (h : extractCitations answer hits snippetChars = .ok citations) :
    ShortMarkers (findMarkers answer) := by
  unfold extractCitations at h
  cases hcollected : collectCitations hits snippetChars (findMarkers answer) [] with
  | error message =>
      rw [hcollected] at h
      cases h
  | ok collected => exact shortMarkers_of_collectCitations hcollected

/-! ## Exactness -/

/-- Somewhere in the text these digits stand in brackets. -/
structure Bracketed (text digits : Str) : Prop where
  nonempty : digits ≠ []
  numeric : ∀ c ∈ digits, isDigit c = true
  occurs : '[' :: (digits ++ [']']) <:+: text

/-- The scan finds every run of digits in brackets. -/
theorem mem_findMarkers {text digits : Str} : digits ∈ findMarkers text ↔ Bracketed text digits := by
  induction text with
  | nil =>
      refine iff_of_false List.not_mem_nil fun h => ?_
      simpa using h.occurs
  | cons c rest ih =>
      have hhere : (c = '[' ∧ markerDigits rest = some digits) ↔ digits ≠ [] ∧
          (∀ c ∈ digits, isDigit c = true) ∧ '[' :: (digits ++ [']']) <+: c :: rest := by
        rw [markerDigits_eq_some, List.cons_prefix_cons, List.prefix_iff_exists_append_eq]
        simp only [List.append_assoc, List.singleton_append]
        constructor
        · rintro ⟨rfl, hne, hdigits, tail, rfl⟩
          exact ⟨hne, hdigits, rfl, tail, rfl⟩
        · rintro ⟨hne, hdigits, rfl, tail, htail⟩
          exact ⟨rfl, hne, hdigits, tail, htail.symm⟩
      have hcons : Bracketed (c :: rest) digits ↔
          (c = '[' ∧ markerDigits rest = some digits) ∨ Bracketed rest digits := by
        rw [hhere]
        constructor
        · rintro ⟨hne, hdigits, hoccurs⟩
          rcases List.infix_cons_iff.mp hoccurs with hprefix | hlater
          · exact .inl ⟨hne, hdigits, hprefix⟩
          · exact .inr ⟨hne, hdigits, hlater⟩
        · rintro (⟨hne, hdigits, hprefix⟩ | ⟨hne, hdigits, hlater⟩)
          · exact ⟨hne, hdigits, hprefix.isInfix⟩
          · exact ⟨hne, hdigits, List.infix_cons hlater⟩
      rw [hcons, ← ih, findMarkers]
      split
      · next hopen =>
          cases hfound : markerDigits rest with
          | none => simp
          | some found => simp [hopen, eq_comm]
      · next hplain => simp [hplain]

/-- `extractCitations` cites, in strictly increasing order, exactly the sources whose
numbers stand in brackets in the answer, each with what its hit holds. -/
theorem extractCitations_exact (answer : Str) (hits : List SearchHit) (snippetChars : ℕ)
    (hshort : ∀ digits, Bracketed answer digits → digits.length ≤ 4300) : ∃ citations,
      extractCitations answer hits snippetChars = .ok citations ∧
        (citations.map Citation.marker).Pairwise (· < ·) ∧
        (∀ m, m ∈ citations.map Citation.marker ↔
          1 ≤ m ∧ m ≤ hits.length ∧ ∃ digits, Bracketed answer digits ∧ valueOf digits = m) ∧
        ∀ citation ∈ citations, ∃ hit, hits[citation.marker - 1]? = some hit ∧
          citation.chunkId = hit.chunkId.str ∧ citation.documentId = hit.documentId.str ∧
          citation.documentTitle = hit.documentTitle ∧
          citation.snippet = hit.content.take (min snippetChars hit.content.length) := by
  refine ⟨_, extractCitations_eq_ok fun raw hraw => hshort raw (mem_findMarkers.mp hraw), ?_, ?_, ?_⟩
  · exact List.pairwise_map.mpr (pairwise_citationsOf _)
  · intro m
    constructor
    · intro hm
      obtain ⟨citation, hcitation, rfl⟩ := List.mem_map.mp hm
      obtain ⟨number, hnumber, hcites⟩ := mem_citationsOf.mp hcitation
      obtain ⟨digits, hdigits, hvalue⟩ := List.mem_map.mp hnumber
      rw [hcites.marker]
      obtain ⟨hpositive, hit, hfound, _⟩ := hcites
      have hlt := (List.getElem?_eq_some_iff.mp hfound).1
      exact ⟨hpositive, by omega, digits, mem_findMarkers.mp hdigits, hvalue⟩
    · rintro ⟨hpositive, hle, digits, hdigits, rfl⟩
      have hfound : hits[valueOf digits - 1]? = some hits[valueOf digits - 1] :=
        List.getElem?_eq_getElem _
      have hcites : Cites hits snippetChars (valueOf digits) _ := ⟨hpositive, _, hfound, rfl⟩
      refine List.mem_map.mpr ⟨_, mem_citationsOf.mpr ⟨_, ?_, hcites⟩, hcites.marker⟩
      exact List.mem_map_of_mem (mem_findMarkers.mpr hdigits)
  · intro citation hcitation
    obtain ⟨number, _, hcites⟩ := mem_citationsOf.mp hcitation
    rw [hcites.marker]
    obtain ⟨_, hit, hfound, rfl⟩ := hcites
    refine ⟨hit, hfound, rfl, rfl, rfl, ?_⟩
    exact List.take_eq_take_min

theorem extractCitations_exact_rain : ∃ citations,
    extractCitations "Rain [01], not [2] or [[1]].".toList [rainHit "a.pdf".toList] 2 =
        .ok citations ∧
      (citations.map Citation.marker).Pairwise (· < ·) ∧
      (∀ m, m ∈ citations.map Citation.marker ↔ 1 ≤ m ∧ m ≤ [rainHit "a.pdf".toList].length ∧
        ∃ digits, Bracketed "Rain [01], not [2] or [[1]].".toList digits ∧ valueOf digits = m) ∧
      ∀ citation ∈ citations, ∃ hit, [rainHit "a.pdf".toList][citation.marker - 1]? = some hit ∧
        citation.chunkId = hit.chunkId.str ∧ citation.documentId = hit.documentId.str ∧
        citation.documentTitle = hit.documentTitle ∧
        citation.snippet = hit.content.take (min 2 hit.content.length) := by
  refine extractCitations_exact _ _ _ fun digits h => ?_
  have hlength := h.occurs.length_le
  simp at hlength
  omega

end Core
