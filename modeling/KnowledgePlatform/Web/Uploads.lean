import KnowledgePlatform.Api.Filenames

/-!
# Uploads from the web client

`handleFiles` turns away files that are neither reported as PDF nor named like one,
and `upload_document` does so again, with the name it has made safe.  Between the two
tests the name loses the path, everything but letters, digits and hyphens at its ends,
and what exceeds 255 code points.

A suffix can get lost or appear in each of these ways; `sameVerdict_iff` says exactly
when the two tests agree.
-/

open Api Core Foundations Python Relational

namespace Web

/-! ## The check of the client -/

/-- A file as the browser reports it. -/
structure ClientFile where
  type : Str
  name : Str
  deriving DecidableEq

/-- What becomes of a file that was dropped or chosen. -/
inductive FileAction
  | toast (title description : Str)
  | upload (file : ClientFile)
  deriving DecidableEq

/-- `name.toLowerCase().endsWith('.pdf')` -/
def endsWithPdf (name : Str) : Bool := ".pdf".toList.isSuffixOf (name.flatMap lower)

/-- The body of the loop. -/
def handleFile (file : ClientFile) : FileAction :=
  if file.type ≠ "application/pdf".toList ∧ endsWithPdf file.name = false then
    .toast (file.name ++ " isn't a PDF".toList) "Only PDF uploads are supported.".toList
  else .upload file

def handleFiles (files : Option (List ClientFile)) : List FileAction :=
  (files.getD []).map handleFile

/-- The client uploads the file. -/
def Accepts (file : ClientFile) : Prop := .upload file ∈ handleFiles (some [file])

theorem accepts_iff {file : ClientFile} :
    Accepts file ↔ file.type = "application/pdf".toList ∨ endsWithPdf file.name = true := by
  unfold Accepts handleFiles
  rw [Option.getD_some, List.map_singleton, List.mem_singleton, handleFile]
  split
  · next hneither =>
      refine iff_of_false (fun h => by cases h) ?_
      rintro (htype | hname)
      · exact hneither.1 htype
      · rw [hneither.2] at hname
        cases hname
  · next hnot =>
      refine iff_of_true rfl ?_
      rw [not_and_or, not_not, Bool.not_eq_false] at hnot
      exact hnot

/-! ## The check of the server -/

section Server

variable {settings : Settings} {principal : Principal} {file : UploadFile} {id : Uuid}
  {stored : Except Str Unit} {conn : Conn}

theorem avoids_execute_http {write : Write schema} {status : ℕ} {detail : Str} :
    (execute write).Avoids conn (.http status detail) := by
  simp only [execute, Program.avoids_bind, Program.avoids_get, Program.runs_get,
    Program.avoids_set, implies_true, and_true, true_and]
  rintro _ _ ⟨rfl, rfl⟩
  cases Policy.execute schema conn.policy conn.db write <;> simp [ofStatement]

/-- `upload_document` answers 415 exactly to what is not a PDF by its test. -/
theorem uploadDocument_rejects_iff :
    (∃ detail,
      uploadDocument settings principal file id stored conn = .error (.http 415 detail)) ↔
      isPdf file.contentType (safeFilename file.filename) = false := by
  constructor
  · rintro ⟨detail, hrejected⟩
    by_contra haccepted
    have havoids : (uploadDocument settings principal file id stored).Avoids conn
        (.http 415 detail) := by
      have hstored : ∀ middle, (ofLibrary stored).Avoids middle (.http 415 detail) := by
        intro middle
        cases stored <;> simp [ofLibrary]
      simp only [uploadDocument, checkUpload, add, save, Program.avoids_bind,
        Program.avoids_raiseIf, avoids_transactionTime, avoids_execute_http, Program.avoids_pure,
        hstored, implies_true, and_true]
      exact ⟨fun hpdf => absurd hpdf haccepted, by simp⟩
    exact havoids hrejected
  · intro hpdf
    refine ⟨"Only PDF uploads are supported".toList, ?_⟩
    by_contra haccepted
    have havoids : (uploadDocument settings principal file id stored).Avoids conn
        (.http 415 "Only PDF uploads are supported".toList) := haccepted
    simp only [uploadDocument, checkUpload, Program.avoids_bind, Program.avoids_raiseIf] at havoids
    exact havoids.1.1 hpdf rfl

end Server

/-! ## The suffix -/

/-- The name ends with `.pdf`, in upper or lower case. -/
def EndsInPdf (text : Str) : Prop := ".pdf".toList <:+ text.flatMap lower

instance (text : Str) : Decidable (EndsInPdf text) :=
  inferInstanceAs (Decidable (".pdf".toList <:+ _))

theorem endsWithPdf_iff {text : Str} : endsWithPdf text = true ↔ EndsInPdf text :=
  List.isSuffixOf_iff_suffix

theorem mem_suffix_iff {letter : Char} :
    letter ∈ ".pdf".toList ↔ letter = '.' ∨ letter = 'p' ∨ letter = 'd' ∨ letter = 'f' := by
  have hsuffix : ".pdf".toList = ['.', 'p', 'd', 'f'] := by decide
  rw [hsuffix]
  simp only [List.mem_cons, List.not_mem_nil, or_false]

theorem lower_ne_nil (c : Char) : lower c ≠ [] := by
  unfold lower
  dsimp only
  split
  · exact List.cons_ne_nil _ _
  · split
    · exact List.cons_ne_nil _ _
    · split
      · exact List.cons_ne_nil _ _
      · exact List.cons_ne_nil _ _

/-- A letter or a dot of the suffix comes from a single code point. -/
theorem lower_eq_of_mem {c letter : Char} (hletter : letter ∈ ".pdf".toList)
    (hmem : letter ∈ lower c) : lower c = [letter] := by
  obtain ⟨hk, hi, hdot⟩ : letter ≠ 'k' ∧ letter ≠ 'i' ∧ letter ≠ Char.ofNat 0x307 := by
    rcases mem_suffix_iff.mp hletter with rfl | rfl | rfl | rfl <;> decide
  unfold lower at hmem ⊢
  dsimp only at hmem ⊢
  split at hmem
  · next hupper => rw [if_pos hupper, List.mem_singleton.mp hmem]
  · next hupper =>
      rw [if_neg hupper]
      split at hmem
      · exact absurd (List.mem_singleton.mp hmem) hk
      · next hkelvin =>
          rw [if_neg hkelvin]
          split at hmem
          · simp only [List.mem_cons, List.not_mem_nil, or_false] at hmem
            exact absurd hmem (not_or.mpr ⟨hi, hdot⟩)
          · next hdotted => rw [if_neg hdotted, List.mem_singleton.mp hmem]

/-- The code points whose lower case is in the suffix survive in a safe name. -/
theorem isSafe_of_lower {c letter : Char} (hletter : letter ∈ ".pdf".toList)
    (h : lower c = [letter]) : isSafe c = true ∧ (letter ≠ '.' → isKept c = true) := by
  unfold lower at h
  dsimp only at h
  split at h
  · next hupper =>
      have hcode : isSafe c = true := by
        simp [isSafe, hupper.1, hupper.2]
      refine ⟨hcode, fun _ => ?_⟩
      have hdot : c ≠ '.' := by
        rintro rfl
        exact absurd hupper (by decide)
      have hline : c ≠ '_' := by
        rintro rfl
        exact absurd hupper (by decide)
      simp [isKept, hcode, hdot, hline]
  · split at h
    · cases h
      rcases mem_suffix_iff.mp hletter with hk | hk | hk | hk <;> cases hk
    · split at h
      · cases h
      · cases h
        rcases mem_suffix_iff.mp hletter with rfl | rfl | rfl | rfl <;> decide

/-- A text ends with letters of the suffix if and only if it ends with code points that
have these as their lower case. -/
theorem suffix_flatMap_lower {target text : Str}
    (htarget : ∀ letter ∈ target, letter ∈ ".pdf".toList) :
    target <:+ text.flatMap lower ↔
      ∃ stem tail, text = stem ++ tail ∧ tail.map lower = target.map fun letter => [letter] := by
  induction target using List.reverseRecOn generalizing text with
  | nil => exact iff_of_true List.nil_suffix ⟨text, [], by simp, rfl⟩
  | append_singleton target letter ih =>
      have hletter := htarget letter (by simp)
      have hrest := fun text => @ih text fun other hother => htarget other (by simp [hother])
      constructor
      · intro hsuffix
        rcases List.eq_nil_or_concat text with rfl | ⟨front, c, rfl⟩
        · simp at hsuffix
        rw [List.concat_eq_append] at hsuffix ⊢
        rw [List.flatMap_append, List.flatMap_singleton] at hsuffix
        obtain ⟨before, heq⟩ := hsuffix
        have hlast : letter ∈ lower c := by
          have hget := congrArg List.getLast? heq
          rw [← List.append_assoc, List.getLast?_concat,
            List.getLast?_append_of_ne_nil _ (lower_ne_nil c)] at hget
          exact List.mem_of_getLast? hget.symm
        have hlower := lower_eq_of_mem hletter hlast
        rw [hlower, ← List.append_assoc] at heq
        obtain ⟨stem, tail, rfl, htail⟩ :=
          (hrest front).mp ⟨before, List.append_cancel_right heq⟩
        exact ⟨stem, tail ++ [c], by simp, by simp [htail, hlower]⟩
      · rintro ⟨stem, tail, rfl, htail⟩
        rw [List.map_append, List.map_singleton] at htail
        obtain ⟨front, last, rfl, hfront, hlast⟩ := List.map_eq_append_iff.mp htail
        obtain ⟨c, rfl, hlower⟩ := List.map_eq_singleton_iff.mp hlast
        obtain ⟨before, heq⟩ := (hrest (stem ++ front)).mpr ⟨stem, front, rfl, hfront⟩
        refine ⟨before, ?_⟩
        rw [← List.append_assoc, heq]
        simp [hlower]

/-- The four code points that make up the suffix. -/
structure IsPdfSuffix (tail : Str) : Prop where
  lower : tail.map lower = ".pdf".toList.map fun letter => [letter]

theorem endsInPdf_iff {text : Str} :
    EndsInPdf text ↔ ∃ stem tail, text = stem ++ tail ∧ IsPdfSuffix tail := by
  rw [EndsInPdf, suffix_flatMap_lower fun _ hletter => hletter]
  exact exists₂_congr fun _ _ => and_congr_right fun _ => ⟨fun h => ⟨h⟩, fun h => h.lower⟩

theorem eq_dot_of_lower {c : Char} (h : lower c = ['.']) : c = '.' := by
  unfold lower at h
  dsimp only at h
  split at h
  · next hupper =>
      have hletters : ∀ code < 91, 65 ≤ code → Char.ofNat (code + 32) ≠ '.' := by decide
      exact absurd (List.singleton_inj.mp h) (hletters c.toNat (by omega) hupper.1)
  · split at h
    · cases h
    · split at h
      · cases h
      · exact List.singleton_inj.mp h

/-- The suffix is a dot and three letters that are kept. -/
theorem IsPdfSuffix.eq_cons {tail : Str} (h : IsPdfSuffix tail) :
    ∃ p d f, tail = ['.', p, d, f] ∧ isKept p = true ∧ isKept d = true ∧ isKept f = true := by
  have hletters : ".pdf".toList.map (fun letter => [letter]) = [['.'], ['p'], ['d'], ['f']] := by
    decide
  have hlower := h.lower.trans hletters
  obtain ⟨dot, _, rfl, hdot, hrest⟩ := List.map_eq_cons_iff.mp hlower
  obtain ⟨p, _, rfl, hp, hrest⟩ := List.map_eq_cons_iff.mp hrest
  obtain ⟨d, _, rfl, hd, hrest⟩ := List.map_eq_cons_iff.mp hrest
  obtain ⟨f, rfl, hf⟩ := List.map_eq_singleton_iff.mp hrest
  exact ⟨p, d, f, by rw [eq_dot_of_lower hdot], (isSafe_of_lower (by decide) hp).2 (by decide),
    (isSafe_of_lower (by decide) hd).2 (by decide),
    (isSafe_of_lower (by decide) hf).2 (by decide)⟩

/-- Substituting code points neither removes nor creates the suffix. -/
theorem endsInPdf_map_substitute {text : Str} :
    EndsInPdf (text.map substitute) ↔ EndsInPdf text := by
  have hlower : ∀ c, ∀ letter ∈ ".pdf".toList,
      lower (substitute c) = [letter] ↔ lower c = [letter] := by
    intro c letter hletter
    unfold substitute
    split
    · rfl
    · next hunsafe =>
        refine iff_of_false ?_ fun h => hunsafe (isSafe_of_lower hletter h).1
        rcases mem_suffix_iff.mp hletter with rfl | rfl | rfl | rfl <;> decide
  have htail : ∀ target : Str, (∀ letter ∈ target, letter ∈ ".pdf".toList) → ∀ tail : Str,
      (tail.map substitute).map lower = (target.map fun letter => [letter]) ↔
        tail.map lower = target.map fun letter => [letter] := by
    intro target
    induction target with
    | nil => simp
    | cons letter rest ih =>
        intro htarget tail
        cases tail with
        | nil => simp
        | cons c tail =>
            have hfirst := hlower c letter (htarget letter List.mem_cons_self)
            have hrest := ih (fun _ hother => htarget _ (List.mem_cons_of_mem _ hother)) tail
            simp only [List.map_cons, List.cons.injEq, hfirst, hrest]
  rw [endsInPdf_iff, endsInPdf_iff]
  constructor
  · rintro ⟨_, _, heq, hsuffix⟩
    obtain ⟨stem, tail, hsplit, _, htail'⟩ := List.map_eq_append_iff.mp heq
    rw [← htail'] at hsuffix
    exact ⟨stem, tail, hsplit, ⟨(htail _ (fun _ h => h) tail).mp hsuffix.lower⟩⟩
  · rintro ⟨stem, tail, rfl, hsuffix⟩
    exact ⟨stem.map substitute, tail.map substitute, List.map_append,
      ⟨(htail _ (fun _ h => h) tail).mpr hsuffix.lower⟩⟩

/-! ## What becomes of the suffix -/

theorem afterLast_append {sep : Char} {stem tail : Str} (htail : sep ∉ tail) :
    afterLast sep (stem ++ tail) = afterLast sep stem ++ tail := by
  unfold afterLast List.rtakeWhile
  rw [List.reverse_append, List.takeWhile_append_of_pos, List.reverse_append, List.reverse_reverse]
  intro c hc
  rw [decide_eq_true_iff]
  rintro rfl
  exact htail (List.mem_reverse.mp hc)

/-- The suffix belongs to the last segment. -/
theorem lastSegment_append {stem tail : Str} (htail : IsPdfSuffix tail) :
    lastSegment (stem ++ tail) = lastSegment stem ++ tail := by
  obtain ⟨p, d, f, rfl, hp, hd, hf⟩ := htail.eq_cons
  have hfree : ∀ sep : Char, isKept sep = false → sep ≠ '.' → sep ∉ ['.', p, d, f] := by
    intro sep hsep hdot hmem
    simp only [List.mem_cons, List.not_mem_nil, or_false] at hmem
    rcases hmem with rfl | rfl | rfl | rfl
    · exact hdot rfl
    · exact absurd (hsep.symm.trans hp) (by decide)
    · exact absurd (hsep.symm.trans hd) (by decide)
    · exact absurd (hsep.symm.trans hf) (by decide)
  unfold lastSegment
  rw [afterLast_append (hfree '/' (by decide) (by decide)),
    afterLast_append (hfree '\\' (by decide) (by decide))]

/-- Nothing is stripped behind the suffix, and in front of it everything up to the first
letter, digit or hyphen; without one the dot goes as well. -/
theorem strippedSegment_append {stem tail : Str} (htail : IsPdfSuffix tail) :
    strippedSegment (stem ++ tail) =
      if (lastSegment stem).any isKept then
        ((lastSegment stem).dropWhile fun c => !isKept c) ++ tail
      else tail.drop 1 := by
  rw [strippedSegment, lastSegment_append htail]
  obtain ⟨p, d, f, rfl, hp, hd, hf⟩ := htail.eq_cons
  have hbehind : ∀ front : Str, (front ++ [p, d, f]).rdropWhile (fun c => !isKept c) =
      front ++ [p, d, f] := by
    intro front
    rw [show front ++ [p, d, f] = front ++ [p, d] ++ [f] by simp]
    exact List.rdropWhile_concat_neg _ _ _ (by simp [hf])
  split
  · next hkept =>
      have hne : (lastSegment stem).dropWhile (fun c => !isKept c) ≠ [] := by
        intro hnil
        obtain ⟨c, hc, hc'⟩ := List.any_eq_true.mp hkept
        have hall := List.dropWhile_eq_nil_iff.mp hnil c hc
        simp [hc'] at hall
      rw [List.dropWhile_append, List.isEmpty_eq_false_iff.mpr hne, if_neg Bool.false_ne_true]
      have h := hbehind ((lastSegment stem).dropWhile (fun c => !isKept c) ++ ['.'])
      rwa [List.append_assoc, List.singleton_append] at h
  · next hnone =>
      have hnil : (lastSegment stem).dropWhile (fun c => !isKept c) = [] := by
        refine List.dropWhile_eq_nil_iff.mpr fun c hc => ?_
        rw [Bool.not_eq_true', Bool.eq_false_iff]
        exact fun hkept => hnone (List.any_eq_true.mpr ⟨c, hc, hkept⟩)
      have hdot : isKept '.' = false := by decide
      rw [List.dropWhile_append, hnil, List.isEmpty_nil, if_pos rfl,
        List.dropWhile_cons_of_pos (by simp [hdot]), List.dropWhile_cons_of_neg (by simp [hp])]
      exact hbehind []

theorem IsPdfSuffix.length_eq {tail : Str} (h : IsPdfSuffix tail) : tail.length = 4 := by
  obtain ⟨p, d, f, rfl, _⟩ := h.eq_cons
  rfl

theorem EndsInPdf.length_le {text : Str} (h : EndsInPdf text) : 4 ≤ text.length := by
  obtain ⟨stem, tail, rfl, htail⟩ := endsInPdf_iff.mp h
  rw [List.length_append, htail.length_eq]
  exact Nat.le_add_left _ _

theorem strippedSegment_eq_nil_iff {name : Str} :
    strippedSegment name = [] ↔ ¬∃ c ∈ lastSegment name, isKept c = true := by
  rw [strippedSegment, List.rdropWhile_eq_nil_iff]
  constructor
  · rintro hdropped ⟨c, hc, hkept⟩
    have hnil : (lastSegment name).dropWhile (fun c => !isKept c) = [] := by
      cases hrest : (lastSegment name).dropWhile fun c => !isKept c with
      | nil => rfl
      | cons head rest =>
          have hhead := List.head?_dropWhile_not (fun c => !isKept c) (lastSegment name)
          rw [hrest] at hhead hdropped
          have hlost := hdropped head List.mem_cons_self
          simp at hhead hlost
          exact absurd (hhead.symm.trans hlost) (by decide)
    have hlost := List.dropWhile_eq_nil_iff.mp hnil c hc
    simp [hkept] at hlost
  · intro hnone c hc
    rw [Bool.not_eq_true', Bool.eq_false_iff]
    exact fun hkept => hnone ⟨c, (List.dropWhile_suffix _).subset hc, hkept⟩

/-! ## Both verdicts -/

/-- The server's test of a name: the stripped segment, cut to 255 code points, ends with
the suffix, or nothing is left of it and the default takes its place. -/
theorem isPdf_safeFilename_iff {type name : Str} :
    isPdf (some type) (safeFilename (some name)) = true ↔ type = "application/pdf".toList ∨
      strippedSegment name = [] ∨ EndsInPdf ((strippedSegment name).take 255) := by
  have hsuffix : EndsInPdf (safeFilename (some name)) ↔
      strippedSegment name = [] ∨ EndsInPdf ((strippedSegment name).take 255) := by
    rw [safeFilename_eq, Option.getD_some]
    by_cases hempty : strippedSegment name = []
    · rw [hempty]
      have hdefault : EndsInPdf ("document.pdf".toList.take 255) := by decide
      exact iff_of_true hdefault (Or.inl rfl)
    · have hmap : (strippedSegment name).map substitute ≠ [] := by
        rwa [Ne, List.map_eq_nil_iff]
      rw [orDefault, if_neg hmap, ← List.map_take, endsInPdf_map_substitute]
      exact ⟨Or.inr, fun h => h.resolve_left hempty⟩
  rw [← hsuffix, ← endsWithPdf_iff, isPdf, Bool.or_eq_true, beq_iff_eq, Option.some_inj,
    endsWithPdf]

/-- A suffix that the server finds as well: in the last segment there is a letter, a digit
or a hyphen in front of it, and it is not cut off. -/
def KeepsSuffix (name : Str) : Prop :=
  (∃ c ∈ (lastSegment name).rdrop 4, isKept c = true) ∧
    ((strippedSegment name).length ≤ 255 ∨ EndsInPdf ((strippedSegment name).take 255))

/-- A name in which the server finds no suffix either: its last segment has a letter, a
digit or a hyphen, and stripping and cutting it brings out no suffix. -/
def GetsNoSuffix (name : Str) : Prop :=
  (∃ c ∈ lastSegment name, isKept c = true) ∧ ¬EndsInPdf ((strippedSegment name).take 255)

/-- The server's test of a name that ends with the suffix. -/
theorem keepsSuffix_iff {name : Str} (hname : EndsInPdf name) :
    KeepsSuffix name ↔
      strippedSegment name = [] ∨ EndsInPdf ((strippedSegment name).take 255) := by
  obtain ⟨stem, tail, rfl, htail⟩ := endsInPdf_iff.mp hname
  have hfront : (lastSegment (stem ++ tail)).rdrop 4 = lastSegment stem := by
    rw [lastSegment_append htail, List.rdrop, List.length_append, htail.length_eq,
      Nat.add_sub_cancel, List.take_left]
  rw [KeepsSuffix, hfront, strippedSegment_append htail]
  split
  · next hkept =>
      have hends : ∀ front : Str, EndsInPdf (front ++ tail) :=
        fun front => endsInPdf_iff.mpr ⟨front, tail, rfl, htail⟩
      constructor
      · rintro ⟨_, hshort | hends'⟩
        · rw [List.take_of_length_le hshort]
          exact Or.inr (hends _)
        · exact Or.inr hends'
      · rintro (hnil | hends')
        · have hlength := congrArg List.length hnil
          rw [List.length_append, htail.length_eq] at hlength
          exact absurd hlength (by simp)
        · exact ⟨List.any_eq_true.mp hkept, Or.inr hends'⟩
  · next hnone =>
      refine iff_of_false (fun h => hnone (List.any_eq_true.mpr h.1)) ?_
      have hlength : (tail.drop 1).length = 3 := by
        rw [List.length_drop, htail.length_eq]
      rintro (hnil | hends)
      · rw [hnil] at hlength
        cases hlength
      · have hle := hends.length_le
        rw [List.length_take, hlength] at hle
        exact absurd hle (by decide)

/-- The client and the server agree about a file if and only if it is reported as PDF, or
its name ends with a suffix that the server finds as well, or with none and the server
finds none either. -/
theorem sameVerdict_iff (settings : Settings) (principal : Principal) (id : Uuid)
    (stored : Except Str Unit) (conn : Conn) (data : List UInt8) (file : ClientFile) :
    (Accepts file ↔ ¬∃ detail, uploadDocument settings principal
        ⟨some file.name, some file.type, data⟩ id stored conn = .error (.http 415 detail)) ↔
      file.type = "application/pdf".toList ∨ (EndsInPdf file.name ∧ KeepsSuffix file.name) ∨
        (¬EndsInPdf file.name ∧ GetsNoSuffix file.name) := by
  rw [uploadDocument_rejects_iff, Bool.not_eq_false, isPdf_safeFilename_iff, accepts_iff,
    endsWithPdf_iff]
  by_cases htype : file.type = "application/pdf".toList
  · exact iff_of_true (iff_of_true (Or.inl htype) (Or.inl htype)) (Or.inl htype)
  · simp only [htype, false_or]
    by_cases hname : EndsInPdf file.name
    · simp only [hname, true_iff, true_and, not_true_eq_false, false_and, or_false]
      exact (keepsSuffix_iff hname).symm
    · simp only [hname, false_iff, false_and, not_false_eq_true, true_and, false_or]
      rw [not_or, GetsNoSuffix, strippedSegment_eq_nil_iff, not_not]

/-- A file that is not reported as PDF and in whose name no letter, digit or hyphen stands
in front of the suffix. -/
def annualReport : ClientFile := ⟨"application/octet-stream".toList, "年報.pdf".toList⟩

def uploader : Principal :=
  ⟨1, .member, ⟨2, 1, "mem@acme.io".toList, none, none, .member, true, 0⟩, false⟩

/-- The client uploads the file and the server answers 415, since it tests the safe name
`pdf`. -/
theorem annualReport_rejected : Accepts annualReport ∧
    ∃ detail, uploadDocument {} uploader ⟨some annualReport.name, some annualReport.type, [37]⟩ 3
      (.ok ()) (.start .appUser 0 fun _ => []) = .error (.http 415 detail) :=
  ⟨accepts_iff.mpr (by decide), uploadDocument_rejects_iff.mpr (by decide)⟩

end Web
