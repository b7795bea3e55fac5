import KnowledgePlatform.Core.Chunking
import KnowledgePlatform.Foundations.Groups

/-!
# How long chunks become

The packing loop compares its counter with `size` before it closes a chunk, and
puts the word that did not fit behind the carried tail without a second test.
So the chunk that a word opens is the one place where `size` can be exceeded:
from there on the counter, which is never below the length of the chunk, keeps
the chunk within `size` (`Sized`).

What is carried over does not depend on where the chunk began: it is the longest
run of words right before the word that fits the overlap (`carryTail_run`).  And a
word for which such a run leaves no room always closes a chunk.  So whether all
chunks are within `size` can be read off the words (`LeavesRoom`).
-/

open Foundations Python

namespace Core

/-! ## Lengths -/

/-- Every word but the last is followed by a space. -/
theorem length_join_concat (ws : List Str) (w : Str) :
    ((join (ws ++ [w])).length : ℤ) = carriedLength ws + w.length := by
  induction ws with
  | nil => simp [join, carriedLength]
  | cons v ws ih =>
      have hsplit : join (v :: ws ++ [w]) = v ++ ' ' :: join (ws ++ [w]) := by
        cases ws with
        | nil => simp [join, List.intercalate]
        | cons u ws => simp [join, List.intercalate]
      rw [hsplit, carriedLength_cons, List.length_append, List.length_cons]
      push_cast
      omega

theorem length_join {current : List Str} (hopen : current ≠ []) :
    ((join current).length : ℤ) + 1 = carriedLength current := by
  obtain ⟨ws, w, rfl⟩ := (List.eq_nil_or_concat current).resolve_left hopen
  rw [List.concat_eq_append, length_join_concat, carriedLength_append]
  simp only [carriedLength, List.map_cons, List.map_nil, List.sum_cons, List.sum_nil]
  omega

/-! ## The carried tail -/

section Tail

variable {overlap : ℤ}

theorem carriedLength_le_of_suffix {ws before : List Str} (h : ws <:+ before) :
    carriedLength ws ≤ carriedLength before := by
  obtain ⟨front, rfl⟩ := h
  rw [carriedLength_append]
  have hfront := carriedLength_nonneg front
  omega

theorem carryTail_suffix (hoverlap : 0 ≤ overlap) (current : List Str) :
    carryTail overlap current <:+ current := by
  obtain ⟨count, _, htail, _⟩ := carryTail_eq_drop hoverlap current
  rw [htail]
  exact List.drop_suffix count current

theorem carriedLength_carryTail_le (hoverlap : 0 ≤ overlap) (current : List Str) :
    carriedLength (carryTail overlap current) ≤ overlap := by
  obtain ⟨count, _, htail, hfits, _⟩ := carryTail_eq_drop hoverlap current
  rw [htail]
  exact hfits

/-- The tail holds every suffix that fits. -/
theorem suffix_carryTail (hoverlap : 0 ≤ overlap) {ws before : List Str} (hend : ws <:+ before)
    (hfits : carriedLength ws ≤ overlap) : ws <:+ carryTail overlap before := by
  obtain ⟨count, _, htail, _, hleast⟩ := carryTail_eq_drop hoverlap before
  have hdrop := List.suffix_iff_eq_drop.mp hend
  have hcount : count ≤ before.length - ws.length := by
    by_contra hfewer
    have hover := hleast _ (not_le.mp hfewer)
    rw [← hdrop] at hover
    omega
  rw [htail, hdrop]
  exact List.drop_suffix_drop_left before hcount

/-- Seen from a word later, the tail reaches back no further. -/
theorem carryTail_concat_suffix (hoverlap : 0 ≤ overlap) (before : List Str) (word : Str) :
    carryTail overlap (before ++ [word]) <:+ carryTail overlap before ++ [word] := by
  have hfits := carriedLength_carryTail_le hoverlap (before ++ [word])
  rcases List.suffix_concat_iff.mp (carryTail_suffix hoverlap (before ++ [word])) with
    hnil | ⟨ws, heq, hend⟩
  · rw [hnil]
    exact List.nil_suffix
  · rw [heq] at hfits ⊢
    have hearlier : carriedLength ws ≤ overlap := by
      have hlonger : carriedLength ws ≤ carriedLength (ws ++ [word]) := by
        rw [carriedLength_append]
        have hlast := carriedLength_nonneg [word]
        omega
      exact hlonger.trans hfits
    exact List.suffix_append_self_iff.mpr (suffix_carryTail hoverlap hend hearlier)

/-- The tail of a list is the tail of every suffix that holds it. -/
theorem carryTail_eq_of_suffix (hoverlap : 0 ≤ overlap) {current before : List Str}
    (htail : carryTail overlap before <:+ current) (hend : current <:+ before) :
    carryTail overlap current = carryTail overlap before := by
  have hfits := carriedLength_carryTail_le hoverlap
  have hinner := suffix_carryTail hoverlap htail (hfits before)
  have houter := suffix_carryTail hoverlap ((carryTail_suffix hoverlap current).trans hend)
    (hfits current)
  exact houter.eq_of_length_le hinner.length_le

end Tail

/-- The words before a word that fit the overlap leave room for it. -/
def TailFits (size overlap : ℤ) (before : List Str) (word : Str) : Prop :=
  carriedLength (carryTail overlap before) + word.length ≤ size

/-- Words that together are shorter than the overlap leave room for the word that
follows them. -/
def LeavesRoom (size overlap : ℤ) (ws : List Str) : Prop :=
  ∀ before word, before ++ [word] <:+: ws → ((join before).length : ℤ) < overlap →
    ((join (before ++ [word])).length : ℤ) ≤ size

/-- It is enough to look at the longest run of words that fits. -/
theorem leavesRoom_iff {size overlap : ℤ} (hoverlap : 0 ≤ overlap) {ws : List Str}
    (hwords : ∀ word ∈ ws, (word.length : ℤ) ≤ size) :
    LeavesRoom size overlap ws ↔
      ∀ before word, before ++ [word] <+: ws → TailFits size overlap before word := by
  constructor
  · intro h before word hbefore
    unfold TailFits
    by_cases hnil : carryTail overlap before = []
    · have hword := hwords word (hbefore.subset (List.mem_append_right _ List.mem_cons_self))
      rw [hnil]
      simpa [carriedLength] using hword
    · obtain ⟨front, hfront⟩ := carryTail_suffix hoverlap before
      have hrun : carryTail overlap before ++ [word] <:+: ws := by
        refine List.IsInfix.trans ⟨front, [], ?_⟩ hbefore.isInfix
        rw [List.append_nil, ← List.append_assoc, hfront]
      have hfits := carriedLength_carryTail_le hoverlap before
      rw [← length_join hnil] at hfits
      rw [← length_join_concat]
      exact h _ word hrun (by omega)
  · rintro h run word ⟨front, after, rfl⟩ hshort
    rw [length_join_concat]
    have hround : front ++ run ++ [word] <+: front ++ (run ++ [word]) ++ after :=
      ⟨after, by simp⟩
    have hfits := h (front ++ run) word hround
    unfold TailFits at hfits
    have hle : carriedLength run ≤ carriedLength (carryTail overlap (front ++ run)) := by
      by_cases hnil : run = []
      · rw [hnil]
        exact carriedLength_nonneg _
      · refine carriedLength_le_of_suffix (suffix_carryTail hoverlap ⟨front, rfl⟩ ?_)
        rw [← length_join hnil]
        omega
    omega

/-! ## Rounds of the loop -/

namespace Packer

/-- The loop after some words. -/
def run (size overlap : ℤ) (before : List Str) : Packer := before.foldl (push size overlap) init

/-- The current chunk is closed before the word. -/
def Flushes (size : ℤ) (packer : Packer) (word : Str) : Prop :=
  packer.length + packer.added word > size ∧ packer.current ≠ []

theorem run_concat (size overlap : ℤ) (before : List Str) (word : Str) :
    run size overlap (before ++ [word]) = (run size overlap before).push size overlap word := by
  rw [run, List.foldl_append]
  rfl

variable {size overlap : ℤ} {packer : Packer} {word : Str}

theorem push_of_flushes (h : packer.Flushes size word) : packer.push size overlap word =
    ⟨packer.chunks ++ [join packer.current], carryTail overlap packer.current ++ [word],
      carriedLength (carryTail overlap packer.current) + packer.added word⟩ := by
  unfold push
  rw [if_pos (show _ ∧ _ from h)]
  rfl

theorem push_of_not_flushes (h : ¬packer.Flushes size word) : packer.push size overlap word =
    ⟨packer.chunks, packer.current ++ [word], packer.length + packer.added word⟩ := by
  unfold push
  rw [if_neg (show ¬(_ ∧ _) from h)]

theorem finish_of_open {packer : Packer} (hopen : packer.current ≠ []) :
    packer.finish = packer.chunks ++ [join packer.current] := if_neg hopen

/-- The chunks and the open chunk have at most `size` characters. -/
def Within (size : ℤ) (packer : Packer) : Prop :=
  ∀ chunk ∈ packer.finish, (chunk.length : ℤ) ≤ size

theorem within_push (hopen : (packer.push size overlap word).current ≠ []) :
    (packer.push size overlap word).Within size ↔
      (∀ chunk ∈ (packer.push size overlap word).chunks, (chunk.length : ℤ) ≤ size) ∧
        ((join (packer.push size overlap word).current).length : ℤ) ≤ size := by
  unfold Within
  rw [finish_of_open hopen, List.forall_mem_append, List.forall_mem_singleton]

/-- Wherever the open chunk began, it holds the tail of all words so far. -/
theorem carryTail_run (hoverlap : 0 ≤ overlap) (before : List Str) :
    carryTail overlap before <:+ (run size overlap before).current ∧
      (run size overlap before).current <:+ before := by
  induction before using List.reverseRecOn with
  | nil => exact ⟨List.suffix_rfl, List.suffix_rfl⟩
  | append_singleton before word ih =>
      obtain ⟨htail, hend⟩ := ih
      have hconcat := carryTail_concat_suffix hoverlap before word
      rw [run_concat]
      by_cases hflush : (run size overlap before).Flushes size word
      · rw [push_of_flushes hflush, carryTail_eq_of_suffix hoverlap htail hend]
        exact ⟨hconcat, List.suffix_append_self_iff.mpr (carryTail_suffix hoverlap before)⟩
      · rw [push_of_not_flushes hflush]
        exact ⟨hconcat.trans (List.suffix_append_self_iff.mpr htail),
          List.suffix_append_self_iff.mpr hend⟩

/-- What a flush carries over is the tail of all words so far. -/
theorem carryTail_current (hoverlap : 0 ≤ overlap) (before : List Str) :
    carryTail overlap (run size overlap before).current = carryTail overlap before :=
  carryTail_eq_of_suffix hoverlap (carryTail_run hoverlap before).1
    (carryTail_run hoverlap before).2

end Packer

/-! ## The counter -/

/-- The counter is at least the length of the open chunk, and the chunks are
within `size` exactly if the tail left room in every round. -/
structure Sized (size overlap : ℤ) (before : List Str) (packer : Packer) : Prop where
  counted : carriedLength packer.current ≤ packer.length + 1
  unopened : packer.current = [] → packer.length = 0
  within : packer.Within size ↔
    ∀ earlier word, earlier ++ [word] <+: before → TailFits size overlap earlier word

namespace Sized

variable {size overlap : ℤ} {before : List Str} {word : Str}

theorem init (size overlap : ℤ) : Sized size overlap [] Packer.init where
  counted := by decide
  unopened := fun _ => rfl
  within := by
    refine iff_of_true (fun chunk hchunk => absurd hchunk List.not_mem_nil) ?_
    intro earlier word hearlier
    simp at hearlier

/-- A word for which the tail leaves no room closes the open chunk. -/
theorem tailFits_of_not_flushes (h : Sized size overlap before (Packer.run size overlap before))
    (hoverlap : 0 ≤ overlap) (hword : (word.length : ℤ) ≤ size)
    (hflush : ¬(Packer.run size overlap before).Flushes size word) :
    TailFits size overlap before word := by
  have hcounted := h.counted
  unfold TailFits
  rw [← @Packer.carryTail_current size overlap hoverlap before]
  by_cases hnil : (Packer.run size overlap before).current = []
  · rw [hnil]
    simpa [carryTail, carryTailLoop, carriedLength] using hword
  · -- the counter has just been compared with `size`
    have hlength : (Packer.run size overlap before).length +
        (Packer.run size overlap before).added word ≤ size := by
      by_contra hover
      exact hflush ⟨not_le.mp hover, hnil⟩
    rw [Packer.added, if_neg hnil] at hlength
    have hle := carriedLength_le_of_suffix
      (carryTail_suffix hoverlap (Packer.run size overlap before).current)
    omega

/-- One round of the loop. -/
theorem push (h : Sized size overlap before (Packer.run size overlap before))
    (hoverlap : 0 ≤ overlap) (hword : (word.length : ℤ) ≤ size) :
    Sized size overlap (before ++ [word]) (Packer.run size overlap (before ++ [word])) := by
  rw [Packer.run_concat]
  have hcounted := h.counted
  have hadded : ∀ ws : List Str,
      carriedLength (ws ++ [word]) = carriedLength ws + word.length + 1 := by
    intro ws
    rw [carriedLength_append]
    simp only [carriedLength, List.map_cons, List.map_nil, List.sum_cons, List.sum_nil]
    omega
  by_cases hflush : (Packer.run size overlap before).Flushes size word
  · have hspace : (Packer.run size overlap before).added word = word.length + 1 := by
      rw [Packer.added, if_neg hflush.2]
    have hopen : ((Packer.run size overlap before).push size overlap word).current ≠ [] := by
      rw [Packer.push_of_flushes hflush]
      simp
    refine ⟨?_, fun hnil => absurd hnil hopen, ?_⟩
    · rw [Packer.push_of_flushes hflush, hadded, hspace]
      show _ ≤ carriedLength _ + (word.length + 1 : ℤ) + 1
      omega
    · rw [Packer.within_push hopen, Groups.forall_prefix_concat, ← h.within, Packer.Within,
        Packer.finish_of_open hflush.2, Packer.push_of_flushes hflush, length_join_concat,
        Packer.carryTail_current hoverlap]
      exact Iff.rfl
  · have hopen : ((Packer.run size overlap before).push size overlap word).current ≠ [] := by
      rw [Packer.push_of_not_flushes hflush]
      simp
    have hfits := h.tailFits_of_not_flushes hoverlap hword hflush
    refine ⟨?_, fun hnil => absurd hnil hopen, ?_⟩
    · rw [Packer.push_of_not_flushes hflush, hadded, Packer.added]
      dsimp only
      split
      · next hnil =>
          rw [hnil, h.unopened hnil, carriedLength, List.map_nil, List.sum_nil]
          omega
      · omega
    · rw [Packer.within_push hopen, Groups.forall_prefix_concat, ← h.within, Packer.Within,
        Packer.push_of_not_flushes hflush, length_join_concat, and_iff_left hfits]
      by_cases hnil : (Packer.run size overlap before).current = []
      · -- the first word of the text
        rw [Packer.finish, if_pos hnil, hnil]
        refine and_iff_left ?_
        rw [carriedLength, List.map_nil, List.sum_nil]
        omega
      · -- the counter has just been compared with `size`
        have hlength : (Packer.run size overlap before).length +
            (Packer.run size overlap before).added word ≤ size := by
          by_contra hover
          exact hflush ⟨not_le.mp hover, hnil⟩
        rw [Packer.added, if_neg hnil] at hlength
        rw [Packer.finish_of_open hnil, List.forall_mem_append, List.forall_mem_singleton]
        have hjoin := length_join hnil
        constructor
        · rintro ⟨hclosed, _⟩
          exact ⟨hclosed, by omega⟩
        · rintro ⟨hclosed, _⟩
          exact ⟨hclosed, by omega⟩

/-- The rounds up to the end of some words. -/
theorem run {ws : List Str} (hoverlap : 0 ≤ overlap)
    (hwords : ∀ word ∈ ws, (word.length : ℤ) ≤ size) :
    Sized size overlap ws (Packer.run size overlap ws) := by
  induction ws using List.reverseRecOn with
  | nil => exact init size overlap
  | append_singleton before word ih =>
      refine (ih fun earlier hearlier => ?_).push hoverlap ?_
      · exact hwords earlier (List.mem_append_left _ hearlier)
      · exact hwords word (List.mem_append_right _ List.mem_cons_self)

end Sized

/-! ## The bound -/

/-- The chunks are what the loop leaves after the words of the text. -/
theorem chunkText_eq_run (text : Str) {size overlap : ℤ} (hsize : 0 < size)
    (hoverlap : 0 ≤ overlap) (hlt : overlap < size) :
    chunkText text size overlap = .ok (Packer.run size overlap (words text)).finish := by
  unfold chunkText words
  rw [if_neg (not_le.mpr hsize), if_neg (not_not.mpr ⟨hoverlap, hlt⟩)]
  split
  · rfl
  · rfl

/-- Words that are short enough to follow any tail leave room. -/
theorem leavesRoom_of_words_le {size overlap : ℤ} {ws : List Str}
    (hwords : ∀ word ∈ ws, (word.length : ℤ) ≤ size - overlap) : LeavesRoom size overlap ws := by
  intro before word hrun hshort
  have hword := hwords word (hrun.subset (List.mem_append_right _ List.mem_cons_self))
  rw [length_join_concat]
  by_cases hnil : before = []
  · rw [hnil, carriedLength, List.map_nil, List.sum_nil]
    omega
  · rw [← length_join hnil]
    omega

/-- If every word has at most `size` characters, then every chunk has if and only if
words that together are shorter than the overlap always leave room for the word that
follows them; and every chunk has if every word has at most `size - overlap`. -/
theorem chunks_within_iff_leavesRoom (text : Str) (size overlap : ℤ) (hsize : 0 < size)
    (hoverlap : 0 ≤ overlap) (hlt : overlap < size)
    (hwords : ∀ word ∈ words text, (word.length : ℤ) ≤ size) : ∃ chunks,
      chunkText text size overlap = .ok chunks ∧
        ((∀ chunk ∈ chunks, (chunk.length : ℤ) ≤ size) ↔
          LeavesRoom size overlap (words text)) ∧
        ((∀ word ∈ words text, (word.length : ℤ) ≤ size - overlap) →
          ∀ chunk ∈ chunks, (chunk.length : ℤ) ≤ size) := by
  have hiff := (Sized.run hoverlap hwords).within.trans (leavesRoom_iff hoverlap hwords).symm
  refine ⟨_, chunkText_eq_run text hsize hoverlap hlt, hiff, fun hshort => hiff.mpr ?_⟩
  exact leavesRoom_of_words_le hshort

theorem chunks_within_iff_leavesRoom_fox : ∃ chunks,
    chunkText "the quick  brown fox".toList 12 6 = .ok chunks ∧
      ((∀ chunk ∈ chunks, (chunk.length : ℤ) ≤ 12) ↔
        LeavesRoom 12 6 (words "the quick  brown fox".toList)) ∧
      ((∀ word ∈ words "the quick  brown fox".toList, (word.length : ℤ) ≤ 12 - 6) →
        ∀ chunk ∈ chunks, (chunk.length : ℤ) ≤ 12) :=
  chunks_within_iff_leavesRoom "the quick  brown fox".toList 12 6 (by decide) (by decide)
    (by decide) (by decide)

/-- A word of eight characters behind a carried tail of five. -/
theorem longTail_exceeds_size : (∀ word ∈ words "aaaa bbbb cccccccc".toList, word.length ≤ 10) ∧
    chunkText "aaaa bbbb cccccccc".toList 10 5 =
      .ok ["aaaa bbbb".toList, "bbbb cccccccc".toList] ∧
    10 < "bbbb cccccccc".toList.length := by decide

end Core
