import KnowledgePlatform.Core.Chunking
import KnowledgePlatform.Core.Prompts

/-!
# Numbered sources

The offline provider reads the markers back that begin the lines of the system
prompt.  A marker is confined to its line and to the text it stands in: what
follows a text neither completes nor breaks a marker of it, unless it begins with
a digit or a closing bracket.  So the markers of a prompt are those of its parts
(`findSources_buildSystemPrompt`): the template's, the number of each source, and
whatever begins a later line of a title or of a content.

The contents are chunks, which have no line breaks.  The titles are what the
tenant chose; `numbered_iff_titles_plain` says when they forge no source.
-/

open Foundations Python Relational

namespace Core

/-! ## Markers and the text around them -/

/-- What follows a text begins with neither a digit nor a closing bracket. -/
def Parts (after : Str) : Prop := ∀ c ∈ after.head?, isDigit c = false ∧ c ≠ ']'

theorem parts_cons {c : Char} {rest : Str} (hdigit : isDigit c = false) (hbracket : c ≠ ']') :
    Parts (c :: rest) := by
  intro d hd
  cases hd
  exact ⟨hdigit, hbracket⟩

theorem parts_nil : Parts [] := by
  intro c hc
  cases hc

theorem Parts.takeWhile {after : Str} (h : Parts after) : after.takeWhile isDigit = [] := by
  cases after with
  | nil => rfl
  | cons c rest => rw [List.takeWhile_cons_of_neg (by rw [(h c rfl).1]; decide)]

/-- A run of some class of code points that a closing bracket follows. -/
theorem closedRun_eq_some {inClass : Char → Bool} (hbracket : inClass ']' = false)
    {rest digits : Str} :
    (if rest.takeWhile inClass ≠ [] ∧
        (rest.drop (rest.takeWhile inClass).length).head? = some ']' then
      some (rest.takeWhile inClass) else none) = some digits ↔
    digits ≠ [] ∧ (∀ c ∈ digits, inClass c = true) ∧ ∃ tail, rest = digits ++ ']' :: tail := by
  constructor
  · intro h
    obtain ⟨⟨hne, hclosed⟩, rfl⟩ := by simpa only [Option.ite_none_right_eq_some, Option.some_inj]
      using h
    refine ⟨hne, fun c hc => List.mem_takeWhile_imp hc, ?_⟩
    obtain ⟨tail, htail⟩ := List.head?_eq_some_iff.mp hclosed
    refine ⟨tail, ?_⟩
    rw [← htail, List.prefix_iff_eq_append.mp (List.takeWhile_prefix inClass)]
  · rintro ⟨hne, hdigits, tail, rfl⟩
    have htake : (digits ++ ']' :: tail).takeWhile inClass = digits := by
      rw [List.takeWhile_append_of_pos hdigits,
        List.takeWhile_cons_of_neg (by rw [hbracket]; decide), List.append_nil]
    rw [htake, List.drop_left]
    exact if_pos ⟨hne, rfl⟩

/-- The marker whose opening bracket was just read: its digits and the bracket that
closes it. -/
theorem markerDigits_eq_some {rest digits : Str} : markerDigits rest = some digits ↔
    digits ≠ [] ∧ (∀ c ∈ digits, isDigit c = true) ∧ ∃ tail, rest = digits ++ ']' :: tail :=
  closedRun_eq_some (by decide)

/-- What follows a text does not change a marker that begins in it. -/
theorem markerDigits_append {after : Str} (h : Parts after) (rest : Str) :
    markerDigits (rest ++ after) = markerDigits rest := by
  have htake : (rest ++ after).takeWhile isDigit = rest.takeWhile isDigit := by
    rw [List.takeWhile_append]
    split
    · next hall =>
        rw [h.takeWhile, List.append_nil, (List.takeWhile_prefix isDigit).eq_of_length hall]
    · rfl
  have hhead : ((rest ++ after).drop (rest.takeWhile isDigit).length).head? = some ']' ↔
      (rest.drop (rest.takeWhile isDigit).length).head? = some ']' := by
    rw [List.drop_append_of_le_length (List.takeWhile_prefix isDigit).length_le]
    cases rest.drop (rest.takeWhile isDigit).length with
    | nil =>
        constructor
        · intro hafter
          exact absurd rfl (h ']' hafter).2
        · intro hnone
          cases hnone
    | cons c tail => rfl
  unfold markerDigits
  simp only [htake, hhead]

theorem findMarkers_append {after : Str} (h : Parts after) (text : Str) :
    findMarkers (text ++ after) = findMarkers text ++ findMarkers after := by
  induction text with
  | nil => rfl
  | cons c rest ih =>
      simp only [List.cons_append, findMarkers, markerDigits_append h, ih]
      split
      · split
        · rfl
        · rfl
      · rfl

/-- A text without opening brackets has no markers, whatever follows it. -/
theorem findMarkers_append_of_notMem {text : Str} (h : '[' ∉ text) (after : Str) :
    findMarkers (text ++ after) = findMarkers after := by
  induction text with
  | nil => rfl
  | cons c rest ih =>
      obtain ⟨hc, hrest⟩ := not_or.mp (mt List.mem_cons.mpr h)
      rw [List.cons_append, findMarkers, if_neg (Ne.symm hc), ih hrest]

/-! ## Markers that begin a line -/

/-- The matches of `re.compile(r"^\[(\d+)\]", re.MULTILINE)`, each with the text
behind it.  The flag says that the text so far ends a line.  No match goes over the
end of a line, so the search goes on right after the opening bracket. -/
def matchSources (lineStart : Bool) : Str → List (Str × Str)
  | [] => []
  | c :: rest =>
      if lineStart ∧ c = '[' then
        match markerDigits rest with
        | some digits => (digits, rest.drop (digits.length + 1)) :: matchSources false rest
        | none => matchSources false rest
      else matchSources (c == '\n') rest

/-- `_SOURCE_RE.findall(system)` -/
def findSources (system : Str) : List Str := (matchSources true system).map Prod.fst

/-- The markers that begin the later lines of a text. -/
def innerSources (text : Str) : List Str := (matchSources false text).map Prod.fst

/-- Whether a line begins behind a text. -/
def endsLine (lineStart : Bool) (text : Str) : Bool := text.foldl (fun _ c => c == '\n') lineStart

theorem matchSources_append {after : Str} (h : Parts after) (lineStart : Bool) (text : Str) :
    matchSources lineStart (text ++ after) =
      (matchSources lineStart text).map (fun found => (found.1, found.2 ++ after)) ++
        matchSources (endsLine lineStart text) after := by
  induction text generalizing lineStart with
  | nil => rfl
  | cons c rest ih =>
      simp only [List.cons_append, matchSources, markerDigits_append h, endsLine, List.foldl_cons]
      split
      · next hopen =>
          have hline : (c == '\n') = false := by
            rw [hopen.2]
            rfl
          rw [hline]
          cases hdigits : markerDigits rest with
          | none => exact ih false
          | some digits =>
              obtain ⟨_, _, tail, rfl⟩ := markerDigits_eq_some.mp hdigits
              simp only [ih false, List.map_cons, List.cons_append]
              congr 2
              rw [List.drop_append_of_le_length (by simp)]
      · exact ih _

/-- A text without line breaks has no later lines. -/
theorem matchSources_append_of_notMem {text : Str} (h : '\n' ∉ text) (after : Str) :
    matchSources false (text ++ after) = matchSources false after := by
  induction text with
  | nil => rfl
  | cons c rest ih =>
      obtain ⟨hc, hrest⟩ := not_or.mp (mt List.mem_cons.mpr h)
      have hline : (c == '\n') = false := beq_eq_false_iff_ne.mpr (Ne.symm hc)
      rw [List.cons_append, matchSources, if_neg (by simp), hline, ih hrest]

theorem innerSources_of_notMem {text : Str} (h : '\n' ∉ text) : innerSources text = [] := by
  have hnone := matchSources_append_of_notMem h []
  rw [List.append_nil] at hnone
  rw [innerSources, hnone]
  rfl

/-! ## The lines of a prompt -/

/-- What a source line has behind its marker. -/
def sourceBody (hit : SearchHit) : Str :=
  " (".toList ++ hit.documentTitle ++ ") ".toList ++ hit.content

/-- The markers of the later lines of a title and of a content. -/
def innerSourcesOf (hit : SearchHit) : List Str :=
  innerSources hit.documentTitle ++ innerSources hit.content

/-- The source lines, an empty line between any two. -/
def sourceLines (numbered : List (SearchHit × ℕ)) : Str :=
  ['\n', '\n'].intercalate (numbered.map fun source => sourceLine source.1 source.2)

/-- The matches in a source line: its number, and what begins later lines of its
title and of its content. -/
theorem matchSources_sourceLine (hit : SearchHit) (index : ℕ) {after : Str} (h : Parts after) :
    ∃ inner lineStart, matchSources true (sourceLine hit index ++ after) =
      (ofNat (index + 1), sourceBody hit ++ after) :: inner ++ matchSources lineStart after ∧
      inner.map Prod.fst = innerSourcesOf hit := by
  have hline : sourceLine hit index ++ after =
      '[' :: (ofNat (index + 1) ++ ']' :: (sourceBody hit ++ after)) := by
    simp [sourceLine, sourceBody]
  have hdigits : markerDigits (ofNat (index + 1) ++ ']' :: (sourceBody hit ++ after)) =
      some (ofNat (index + 1)) :=
    markerDigits_eq_some.mpr ⟨ofNat_ne_nil _, fun _ => isDigit_of_mem_ofNat, _, rfl⟩
  have hdrop : (ofNat (index + 1) ++ ']' :: (sourceBody hit ++ after)).drop
      ((ofNat (index + 1)).length + 1) = sourceBody hit ++ after := by
    rw [← List.drop_drop, List.drop_left]
    rfl
  -- no line begins between the marker and the title
  have hopening : '\n' ∉ ofNat (index + 1) ++ "] (".toList := by
    intro hmem
    rcases List.mem_append.mp hmem with hnumber | hrest
    · exact absurd (isDigit_of_mem_ofNat hnumber) (by decide)
    · exact absurd hrest (by decide)
  have hbody : ofNat (index + 1) ++ ']' :: (sourceBody hit ++ after) =
      ofNat (index + 1) ++ "] (".toList ++ (hit.documentTitle ++ (')' :: ' ' ::
        (hit.content ++ after))) := by
    simp [sourceBody]
  have hclosing : ∀ lineStart rest, matchSources lineStart (')' :: ' ' :: rest) =
      matchSources false rest := by
    intro lineStart rest
    rw [matchSources, if_neg (by simp), matchSources, if_neg (by simp)]
    rfl
  refine ⟨(matchSources false hit.documentTitle).map (fun found =>
      (found.1, found.2 ++ ')' :: ' ' :: (hit.content ++ after))) ++
    (matchSources false hit.content).map (fun found => (found.1, found.2 ++ after)),
    endsLine false hit.content, ?_, ?_⟩
  · rw [hline, matchSources, if_pos ⟨rfl, rfl⟩, hdigits]
    simp only [hdrop, List.cons_append]
    rw [hbody, matchSources_append_of_notMem hopening,
      matchSources_append (parts_cons (by decide) (by decide)), hclosing,
      matchSources_append h, List.append_assoc]
  · rw [List.map_append, List.map_map, List.map_map]
    rfl

theorem matchSources_lineBreaks (lineStart : Bool) (rest : Str) :
    matchSources lineStart ('\n' :: '\n' :: rest) = matchSources true rest := by
  rw [matchSources, if_neg (by simp), matchSources, if_neg (by simp)]
  rfl

/-- The first source line and the lines behind it. -/
theorem sourceLines_cons (source : SearchHit × ℕ) (rest : List (SearchHit × ℕ)) :
    ∃ after, Parts after ∧ sourceLines (source :: rest) = sourceLine source.1 source.2 ++ after ∧
      ∀ lineStart, matchSources lineStart after = matchSources true (sourceLines rest) := by
  cases rest with
  | nil =>
      refine ⟨[], parts_nil, ?_, fun lineStart => rfl⟩
      simp [sourceLines]
  | cons next rest =>
      refine ⟨'\n' :: '\n' :: sourceLines (next :: rest), parts_cons (by decide) (by decide), ?_,
        fun lineStart => matchSources_lineBreaks _ _⟩
      simp [sourceLines, List.intercalate_cons_cons]

/-- The matches in the source lines: each number, followed by its own title and
content, and what begins later lines of titles and contents. -/
theorem matchSources_sourceLines_cons (source : SearchHit × ℕ) (rest : List (SearchHit × ℕ)) :
    ∃ after inner, matchSources true (sourceLines (source :: rest)) =
      (ofNat (source.2 + 1), sourceBody source.1 ++ after) :: inner ++
        matchSources true (sourceLines rest) ∧
      inner.map Prod.fst = innerSourcesOf source.1 := by
  obtain ⟨after, hparts, hlines, hrest⟩ := sourceLines_cons source rest
  obtain ⟨inner, lineStart, hmatches, hinner⟩ :=
    matchSources_sourceLine source.1 source.2 hparts
  refine ⟨after, inner, ?_, hinner⟩
  rw [hlines, hmatches, hrest]

theorem findSources_sourceLines (numbered : List (SearchHit × ℕ)) :
    findSources (sourceLines numbered) = numbered.flatMap fun source =>
      ofNat (source.2 + 1) :: innerSourcesOf source.1 := by
  induction numbered with
  | nil => rfl
  | cons source rest ih =>
      obtain ⟨after, inner, hmatches, hinner⟩ := matchSources_sourceLines_cons source rest
      rw [findSources, hmatches, List.map_append, List.map_cons, hinner, List.flatMap_cons, ← ih]
      rfl

/-- What `buildSystemPrompt` puts behind the template. -/
theorem matchSources_buildSystemPrompt (template : Str) (hits : List SearchHit) :
    ∃ own, matchSources true (buildSystemPrompt template hits) =
      own ++ matchSources true (sourceLines hits.zipIdx) ∧
      own.map Prod.fst = findSources template := by
  have hheader : ∀ lineStart rest, matchSources lineStart ("\n\nSources:\n".toList ++ rest) =
      matchSources true rest := by
    intro lineStart rest
    simp [matchSources]
  have hparts : ∀ rest, Parts ("\n\nSources:\n".toList ++ rest) :=
    fun rest => parts_cons (by decide) (by decide)
  by_cases hnone : hits = []
  · subst hnone
    have hnothing : ∀ lineStart, matchSources lineStart
        "\n\nSources:\n(none retrieved)".toList = [] := by
      intro lineStart
      simp [matchSources]
    have hparts : Parts "\n\nSources:\n(none retrieved)".toList :=
      parts_cons (by decide) (by decide)
    refine ⟨_, by rw [buildSystemPrompt, if_pos rfl, matchSources_append hparts, hnothing]; rfl, ?_⟩
    rw [List.map_map]
    rfl
  · have hprompt : buildSystemPrompt template hits =
        template ++ ("\n\nSources:\n".toList ++ sourceLines hits.zipIdx) := by
      rw [buildSystemPrompt, if_neg hnone, List.append_assoc]
      rfl
    refine ⟨_, by rw [hprompt, matchSources_append (hparts _), hheader], ?_⟩
    rw [List.map_map]
    rfl

/-- The markers of a prompt: those of the template, and for each source its number
and what begins later lines of its title and of its content. -/
theorem findSources_buildSystemPrompt (template : Str) (hits : List SearchHit) :
    findSources (buildSystemPrompt template hits) = findSources template ++
      hits.zipIdx.flatMap fun source => ofNat (source.2 + 1) :: innerSourcesOf source.1 := by
  obtain ⟨own, hmatches, hown⟩ := matchSources_buildSystemPrompt template hits
  rw [findSources, hmatches, List.map_append, hown, ← findSources_sourceLines]
  rfl

/-! ## Forged sources -/

/-- The matches in a prompt are the numbers of the sources in order, each followed
by its own title and content. -/
def Numbered (hits : List SearchHit) (found : List (Str × Str)) : Prop :=
  List.Forall₂ (fun source found => found.1 = ofNat (source.2 + 1) ∧
    sourceBody source.1 <+: found.2) hits.zipIdx found

theorem numbered_sourceLines {numbered : List (SearchHit × ℕ)}
    (hplain : ∀ source ∈ numbered, innerSourcesOf source.1 = []) :
    List.Forall₂ (fun source found => found.1 = ofNat (source.2 + 1) ∧
      sourceBody source.1 <+: found.2) numbered (matchSources true (sourceLines numbered)) := by
  induction numbered with
  | nil => exact .nil
  | cons source rest ih =>
      obtain ⟨after, inner, hmatches, hinner⟩ := matchSources_sourceLines_cons source rest
      rw [hplain source List.mem_cons_self] at hinner
      rw [List.map_eq_nil_iff.mp hinner] at hmatches
      rw [hmatches]
      exact .cons ⟨rfl, List.prefix_append _ _⟩
        (ih fun later hlater => hplain later (List.mem_cons_of_mem _ hlater))

theorem mem_join {parts : List Str} {c : Char} (hc : c ∈ join parts) :
    c = ' ' ∨ ∃ part ∈ parts, c ∈ part := by
  induction parts with
  | nil => cases hc
  | cons part rest ih =>
      cases rest with
      | nil => exact .inr ⟨part, List.mem_cons_self, by simpa [join] using hc⟩
      | cons next rest =>
          rw [join, List.intercalate_cons_cons, List.mem_append, List.mem_append] at hc
          rcases hc with (hpart | hspace) | hrest
          · exact .inr ⟨part, List.mem_cons_self, hpart⟩
          · exact .inl (List.mem_singleton.mp hspace)
          · rcases ih hrest with hspace | ⟨other, hother, hmem⟩
            · exact .inl hspace
            · exact .inr ⟨other, List.mem_cons_of_mem _ hother, hmem⟩

/-- A chunk has no line breaks: it is words joined by spaces. -/
theorem lineBreak_notMem_chunk {text : Str} {size overlap : ℤ} {chunks : List Str}
    (hchunks : chunkText text size overlap = .ok chunks) {chunk : Str} (hchunk : chunk ∈ chunks) :
    '\n' ∉ chunk := by
  have hvalid : 0 < size ∧ 0 ≤ overlap ∧ overlap < size := by
    unfold chunkText at hchunks
    split_ifs at hchunks with hsize hoverlap
    · exact ⟨not_le.mp hsize, hoverlap⟩
    · exact ⟨not_le.mp hsize, hoverlap⟩
  obtain ⟨windows, hwindows, _⟩ := chunkText_eq_ok text hvalid.1 hvalid.2.1 hvalid.2.2
  rw [hchunks, Except.ok.injEq] at hwindows
  rw [hwindows] at hchunk
  obtain ⟨window, _, rfl⟩ := List.mem_map.mp hchunk
  intro hbreak
  rcases mem_join hbreak with hspace | ⟨word, hword, hmem⟩
  · cases hspace
  · have hwords := List.mem_of_mem_take (List.mem_of_mem_drop hword)
    exact absurd (isSpace_of_mem_words hwords hmem) (by decide)

/-- With a template without markers and chunks for contents, the markers of the
prompt are the numbers of the sources if and only if no later line of a title
begins with a marker. -/
theorem numbered_iff_titles_plain (template : Str) (hits : List SearchHit)
    (htemplate : findSources template = [])
    (hcontents : ∀ hit ∈ hits, ∃ text size overlap chunks,
      chunkText text size overlap = .ok chunks ∧ hit.content ∈ chunks) :
    Numbered hits (matchSources true (buildSystemPrompt template hits)) ↔
      ∀ hit ∈ hits, innerSources hit.documentTitle = [] := by
  have hinner : ∀ hit ∈ hits, innerSourcesOf hit = innerSources hit.documentTitle := by
    intro hit hhit
    obtain ⟨text, size, overlap, chunks, hchunks, hcontent⟩ := hcontents hit hhit
    rw [innerSourcesOf, innerSources_of_notMem (lineBreak_notMem_chunk hchunks hcontent),
      List.append_nil]
  obtain ⟨own, hmatches, hown⟩ := matchSources_buildSystemPrompt template hits
  rw [htemplate] at hown
  rw [List.map_eq_nil_iff.mp hown, List.nil_append] at hmatches
  rw [hmatches]
  constructor
  · intro hnumbered
    -- a forged marker would be one match too many
    have hcount := hnumbered.length_eq
    have hfound := congrArg List.length (findSources_sourceLines hits.zipIdx)
    rw [findSources, List.length_map, ← hcount, List.length_flatMap] at hfound
    simp only [List.length_cons, List.sum_map_add, List.map_const', List.sum_replicate,
      smul_eq_mul, mul_one] at hfound
    have hnone : (hits.zipIdx.map fun source => (innerSourcesOf source.1).length).sum = 0 := by
      omega
    intro hit hhit
    obtain ⟨index, hindex⟩ := List.getElem?_of_mem hhit
    have hzero := List.sum_eq_zero_iff.mp hnone _
      (List.mem_map_of_mem (List.mk_mem_zipIdx_iff_getElem?.mpr hindex))
    rw [← hinner hit hhit]
    exact List.length_eq_zero_iff.mp hzero
  · intro hplain
    refine numbered_sourceLines fun source hsource => ?_
    have hhit := List.fst_mem_of_mem_zipIdx hsource
    rw [hinner _ hhit, hplain _ hhit]

/-- A source with this title; the content is a chunk. -/
def rainHit (title : Str) : SearchHit := ⟨8, 4, title, 0, "Rain.".toList, 2 / 61⟩

theorem findSources_defaultRagPrompt : findSources defaultRagPrompt = [] := by
  -- evaluated in parts: decoding one long literal takes the square of its length
  unfold defaultRagPrompt
  simp only [String.toList_append]
  decide +kernel

theorem chunkText_rain : chunkText "Rain.".toList 1000 150 = .ok ["Rain.".toList] := by decide

theorem numbered_iff_titles_plain_rain :
    Numbered [rainHit "a.pdf".toList, rainHit "b [7]".toList]
      (matchSources true (buildSystemPrompt defaultRagPrompt
        [rainHit "a.pdf".toList, rainHit "b [7]".toList])) ↔
      ∀ hit ∈ [rainHit "a.pdf".toList, rainHit "b [7]".toList],
        innerSources hit.documentTitle = [] := by
  refine numbered_iff_titles_plain _ _ findSources_defaultRagPrompt fun hit hhit => ?_
  refine ⟨_, _, _, _, chunkText_rain, ?_⟩
  rcases List.mem_pair.mp hhit with rfl | rfl
  · exact List.mem_singleton_self _
  · exact List.mem_singleton_self _

/-- A title of two lines forges the source 7. -/
theorem forgedTitle_adds_source :
    findSources defaultRagPrompt = [] ∧
    chunkText "Rain.".toList 1000 150 = .ok [(rainHit "a\n[7]".toList).content] ∧
    1 ≤ (rainHit "a\n[7]".toList).documentTitle.length ∧
    (rainHit "a\n[7]".toList).documentTitle.length ≤ 512 ∧
    findSources (buildSystemPrompt defaultRagPrompt [rainHit "a\n[7]".toList]) =
      ["1".toList, "7".toList] ∧
    ¬Numbered [rainHit "a\n[7]".toList]
      (matchSources true (buildSystemPrompt defaultRagPrompt [rainHit "a\n[7]".toList])) := by
  have hfound : findSources (buildSystemPrompt defaultRagPrompt [rainHit "a\n[7]".toList]) =
      ["1".toList, "7".toList] := by
    rw [findSources_buildSystemPrompt, findSources_defaultRagPrompt]
    decide
  refine ⟨findSources_defaultRagPrompt, chunkText_rain, by decide, by decide, hfound,
    fun hnumbered => ?_⟩
  have hcount := hnumbered.length_eq
  have hlength := congrArg List.length hfound
  rw [findSources, List.length_map, ← hcount] at hlength
  cases hlength

end Core
