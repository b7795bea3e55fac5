import KnowledgePlatform.Api.Routers

/-!
# Names of uploaded files

`safeFilename` substitutes code points one by one, strips dots and underscores from
the ends and cuts the rest.  What is stripped is whatever is not a letter, a digit or
a hyphen, since the other code points become underscores; so the name begins with
one of these, or it is the default (`safeFilename_eq`).

The storage key of a document ends with such a name.  Its other segments have a fixed
form, so the key can be read back (`splitOn_buildKey`).
-/

open Core Foundations Python Relational

namespace Api

/-! ## Safe names -/

/-- What becomes of a code point. -/
def substitute (c : Char) : Char := if isSafe c then c else '_'

/-- Letters, digits and hyphens, which are not stripped. -/
def isKept (c : Char) : Bool := isSafe c && c != '.' && c != '_'

/-- The last segment of a name. -/
def lastSegment (name : Str) : Str := afterLast '\\' (afterLast '/' name)

/-- The last segment from its first letter, digit or hyphen to its last. -/
def strippedSegment (name : Str) : Str :=
  ((lastSegment name).dropWhile fun c => !isKept c).rdropWhile fun c => !isKept c

theorem isSafe_substitute (c : Char) : isSafe (substitute c) = true := by
  unfold substitute
  split
  · assumption
  · decide

/-- A code point is stripped if and only if it is not kept. -/
theorem trims_substitute (c : Char) :
    (substitute c == '.' || substitute c == '_') = !isKept c := by
  unfold substitute isKept
  by_cases hsafe : isSafe c = true
  · rw [if_pos hsafe, hsafe]
    cases hdot : c == '.' <;> cases hline : c == '_' <;> simp [bne, hdot, hline]
  · rw [if_neg hsafe, Bool.eq_false_iff.mpr hsafe]
    rfl

theorem rdropWhile_map {α β : Type*} (p : β → Bool) (f : α → β) (l : List α) :
    (l.map f).rdropWhile p = (l.rdropWhile (p ∘ f)).map f := by
  rw [List.rdropWhile, ← List.map_reverse, List.dropWhile_map, ← List.map_reverse]
  rfl

/-- The safe name is the stripped segment, or the default for an empty one. -/
theorem safeFilename_eq (name : Option Str) : safeFilename name =
    (orDefault ((strippedSegment (name.getD [])).map substitute) "document.pdf".toList).take 255 := by
  have hstrip : ∀ base : Str, ((base.map fun c => if isSafe c then c else '_').dropWhile
      fun c => c == '.' || c == '_').rdropWhile (fun c => c == '.' || c == '_') =
        ((base.dropWhile fun c => !isKept c).rdropWhile fun c => !isKept c).map substitute := by
    intro base
    have hclass : (fun c => c == '.' || c == '_') ∘ substitute = fun c => !isKept c :=
      funext trims_substitute
    rw [← hclass, ← rdropWhile_map, ← List.dropWhile_map]
    rfl
  unfold safeFilename
  by_cases hempty : name.getD [] = []
  · rw [hempty]
    decide
  · have hname : orDefault (name.getD []) "document.pdf".toList = name.getD [] := if_neg hempty
    dsimp only
    rw [hname, hstrip]
    rfl

/-- What is stripped begins with a code point that is kept. -/
theorem isKept_head_strippedSegment {name : Str} {c : Char} {rest : Str}
    (h : strippedSegment name = c :: rest) : isKept c = true := by
  obtain ⟨after, hafter⟩ : strippedSegment name <+:
      (lastSegment name).dropWhile fun c => !isKept c := List.rdropWhile_prefix _ _
  rw [h] at hafter
  have hhead := List.head?_dropWhile_not (fun c => !isKept c) (lastSegment name)
  rw [← hafter] at hhead
  simpa using hhead

/-- A safe name begins with a letter, a digit or a hyphen. -/
theorem safeFilename_eq_cons (name : Option Str) :
    ∃ c rest, safeFilename name = c :: rest ∧ isKept c = true := by
  rw [safeFilename_eq]
  cases hstripped : strippedSegment (name.getD []) with
  | nil => exact ⟨'d', "ocument.pdf".toList, by decide, by decide⟩
  | cons c rest =>
      have hkept := isKept_head_strippedSegment hstripped
      have hsafe : isSafe c = true := by
        unfold isKept at hkept
        simp only [Bool.and_eq_true] at hkept
        exact hkept.1.1
      refine ⟨c, (rest.map substitute).take 254, ?_, hkept⟩
      rw [List.map_cons, substitute, if_pos hsafe]
      rfl

theorem isSafe_of_mem_safeFilename {name : Option Str} {c : Char} (hc : c ∈ safeFilename name) :
    isSafe c = true := by
  rw [safeFilename_eq] at hc
  have hmem := List.mem_of_mem_take hc
  unfold orDefault at hmem
  split at hmem
  · have hdefault : "document.pdf".toList.all isSafe = true := by decide
    exact List.all_eq_true.mp hdefault c hmem
  · obtain ⟨original, _, rfl⟩ := List.mem_map.mp hmem
    exact isSafe_substitute original

theorem length_safeFilename_le (name : Option Str) : (safeFilename name).length ≤ 255 := by
  rw [safeFilename_eq]
  exact List.length_take_le _ _

/-- A safe name contains no separator and is no relative segment. -/
theorem slash_not_mem_safeFilename (name : Option Str) : '/' ∉ safeFilename name :=
  fun hmem => absurd (isSafe_of_mem_safeFilename hmem) (by decide)

theorem safeFilename_ne_dots (name : Option Str) :
    safeFilename name ≠ ".".toList ∧ safeFilename name ≠ "..".toList := by
  obtain ⟨c, rest, heq, hkept⟩ := safeFilename_eq_cons name
  rw [heq]
  constructor
  · intro hdot
    cases hdot
    exact absurd hkept (by decide)
  · intro hdots
    cases hdots
    exact absurd hkept (by decide)

/-! ## Storage keys -/

section Keys

variable {orgId documentId orgId' documentId' : Uuid} {filename filename' : Str}

theorem buildKey_eq_intercalate (orgId documentId : Uuid) (filename : Str) :
    buildKey orgId documentId filename = ['/'].intercalate
      ["orgs".toList, orgId.str, "documents".toList, documentId.str, filename] := by
  unfold buildKey
  generalize orgId.str = org, documentId.str = document
  simp [List.intercalate]

/-- The segments of a key. -/
theorem splitOn_buildKey (hfilename : '/' ∉ filename) :
    (buildKey orgId documentId filename).splitOn '/' =
      ["orgs".toList, orgId.str, "documents".toList, documentId.str, filename] := by
  rw [buildKey_eq_intercalate]
  refine List.splitOn_intercalate '/' ?_ (List.cons_ne_nil _ _)
  have huuid : ∀ uuid : Uuid, '/' ∉ uuid.str := Uuid.notMem_str (by decide) (by decide)
  simp only [List.forall_mem_cons]
  exact ⟨by decide, huuid orgId, by decide, huuid documentId, hfilename,
    fun _ h => absurd h List.not_mem_nil⟩

/-- The key of a document tells which document it is and under which name. -/
theorem buildKey_inj (hfilename : '/' ∉ filename) (hfilename' : '/' ∉ filename')
    (h : buildKey orgId documentId filename = buildKey orgId' documentId' filename') :
    orgId = orgId' ∧ documentId = documentId' ∧ filename = filename' := by
  have hsegments := congrArg (List.splitOn '/') h
  rw [splitOn_buildKey hfilename, splitOn_buildKey hfilename'] at hsegments
  simp only [List.cons.injEq, true_and, and_true] at hsegments
  exact ⟨Uuid.str_injective hsegments.1, Uuid.str_injective hsegments.2.1, hsegments.2.2⟩

theorem length_buildKey (orgId documentId : Uuid) (filename : Str) :
    (buildKey orgId documentId filename).length = 89 + filename.length := by
  have horg := orgId.length_str
  have hdocument := documentId.length_str
  unfold buildKey
  generalize orgId.str = org at horg
  generalize documentId.str = document at hdocument
  simp [horg, hdocument]
  omega

/-- The key lies under the path of the document. -/
theorem prefix_buildKey (orgId documentId : Uuid) (filename : Str) :
    "orgs/".toList ++ orgId.str ++ "/documents/".toList ++ documentId.str ++ ['/'] <+:
      buildKey orgId documentId filename := by
  unfold buildKey
  generalize orgId.str = org, documentId.str = document
  exact ⟨filename, by simp⟩

/-- A key has no character that a column could not store. -/
theorem fitsText_buildKey (hfilename : ∀ c ∈ filename, isSafe c = true) :
    fitsText (buildKey orgId documentId filename) = true := by
  have huuid : ∀ uuid : Uuid, fitsText uuid.str = true := by
    intro uuid
    refine List.all_eq_true.mpr fun c hc => bne_iff_ne.mpr ?_
    rintro rfl
    exact Uuid.notMem_str (by decide) (by decide) uuid hc
  have hname : fitsText filename = true := by
    refine List.all_eq_true.mpr fun c hc => bne_iff_ne.mpr ?_
    rintro rfl
    exact absurd (hfilename _ hc) (by decide)
  have horg := huuid orgId
  have hdocument := huuid documentId
  unfold buildKey
  generalize orgId.str = org at horg
  generalize documentId.str = document at hdocument
  simp only [fitsText, List.all_append, List.all_cons] at horg hdocument hname ⊢
  rw [horg, hdocument, hname]
  decide

theorem str_ne_dots (uuid : Uuid) :
    uuid.str ≠ [] ∧ uuid.str ≠ ".".toList ∧ uuid.str ≠ "..".toList := by
  have hlength := uuid.length_str
  refine ⟨?_, ?_, ?_⟩
  · intro hnil
    rw [hnil] at hlength
    cases hlength
  · intro hdot
    rw [hdot] at hlength
    exact absurd hlength (by decide)
  · intro hdots
    rw [hdots] at hlength
    exact absurd hlength (by decide)

end Keys

/-- Whatever the client names its file, the safe name is a plain segment, and the storage
key of the document with this name has five such segments, lies under the document's
own path, fits its column and belongs to no other document. -/
theorem storageKey_confined (orgId documentId : Uuid) (name : Option Str) :
    (safeFilename name ≠ [] ∧ (safeFilename name).length ≤ 255 ∧
      (∀ c ∈ safeFilename name, isSafe c = true) ∧
      safeFilename name ≠ ".".toList ∧ safeFilename name ≠ "..".toList) ∧
    ((buildKey orgId documentId (safeFilename name)).splitOn '/').length = 5 ∧
    (∀ segment ∈ (buildKey orgId documentId (safeFilename name)).splitOn '/',
      segment ≠ [] ∧ segment ≠ ".".toList ∧ segment ≠ "..".toList) ∧
    "orgs/".toList ++ orgId.str ++ "/documents/".toList ++ documentId.str ++ ['/'] <+:
      buildKey orgId documentId (safeFilename name) ∧
    fitsNullable 1024 (some (buildKey orgId documentId (safeFilename name))) = true ∧
    ∀ orgId' documentId' name',
      buildKey orgId documentId (safeFilename name) =
        buildKey orgId' documentId' (safeFilename name') →
      orgId = orgId' ∧ documentId = documentId' ∧ safeFilename name = safeFilename name' := by
  have hslash := slash_not_mem_safeFilename name
  have hnil : safeFilename name ≠ [] := by
    obtain ⟨c, rest, heq, _⟩ := safeFilename_eq_cons name
    rw [heq]
    exact List.cons_ne_nil _ _
  have hlength := length_safeFilename_le name
  refine ⟨⟨hnil, hlength, fun c hc => isSafe_of_mem_safeFilename hc, safeFilename_ne_dots name⟩,
    ?_, ?_, ?_, ?_, ?_⟩
  · rw [splitOn_buildKey hslash]
    rfl
  · rw [splitOn_buildKey hslash]
    simp only [List.forall_mem_cons]
    exact ⟨by decide, str_ne_dots orgId, by decide, str_ne_dots documentId,
      ⟨hnil, safeFilename_ne_dots name⟩, fun _ h => absurd h List.not_mem_nil⟩
  · exact prefix_buildKey _ _ _
  · have hkey := length_buildKey orgId documentId (safeFilename name)
    have htext := @fitsText_buildKey orgId documentId (safeFilename name)
      fun c hc => isSafe_of_mem_safeFilename hc
    rw [fitsNullable, Option.all_some, fitsVarchar, htext, Bool.and_true, decide_eq_true_iff]
    omega
  · intro orgId' documentId' name' h
    exact buildKey_inj hslash (slash_not_mem_safeFilename name') h

end Api
