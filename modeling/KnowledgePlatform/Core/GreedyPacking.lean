import KnowledgePlatform.Core.ChunkSizes
import KnowledgePlatform.Foundations.Groups

/-!
# When a chunk is closed

Packing greedily means that a chunk is closed only before a word that would make
it longer than `size` (`Overfull`).  The loop decides by its counter instead.  As
long as no chunk is closed, the counter is the length of the open chunk.  A flush
sets it to the length of the carried words, each with a space behind it, and adds
the new word with another space in front: from then on it is one more than the
length of the open chunk.

So the loop closes by a rule of its own (`CountedOver`), which differs from the
greedy one in one case only: a word that would fill a chunk after the first
exactly is turned away (`ExactFit`).
-/

open Foundations Python

namespace Core

/-! ## The two rules -/

/-- The open chunk has no room for the word. -/
def Overfull (size : ℤ) (groups : Groups Str) (word : Str) : Prop :=
  groups.current ≠ [] ∧ size < (join groups.current).length + 1 + word.length

/-- By the counter of the loop, the open chunk has no room for the word. -/
def CountedOver (size : ℤ) (groups : Groups Str) (word : Str) : Prop :=
  groups.current ≠ [] ∧ size < (join groups.current).length + 1 + word.length +
    if groups.closed = [] then 0 else 1

/-- A chunk has been closed before, and the word would fill the open one exactly. -/
def ExactFit (size : ℤ) (groups : Groups Str) (word : Str) : Prop :=
  groups.current ≠ [] ∧ groups.closed ≠ [] ∧ (join groups.current).length + 1 + word.length = size

instance (size : ℤ) (groups : Groups Str) (word : Str) : Decidable (Overfull size groups word) :=
  inferInstanceAs (Decidable (_ ∧ _))

instance (size : ℤ) (groups : Groups Str) (word : Str) : Decidable (CountedOver size groups word) :=
  inferInstanceAs (Decidable (_ ∧ _))

instance (size : ℤ) (groups : Groups Str) (word : Str) : Decidable (ExactFit size groups word) :=
  inferInstanceAs (Decidable (_ ∧ _))

/-- The words packed greedily: a chunk is closed only when the next word does not fit. -/
def packGreedily (size overlap : ℤ) (before : List Str) : Groups Str :=
  Groups.pack (Overfull size) (carryTail overlap) before

/-- The words packed by the counter of the loop. -/
def packCounted (size overlap : ℤ) (before : List Str) : Groups Str :=
  Groups.pack (CountedOver size) (carryTail overlap) before

variable {size overlap : ℤ} {groups : Groups Str} {word : Str}

/-- The rules differ on an exact fit only. -/
theorem countedOver_iff :
    CountedOver size groups word ↔ Overfull size groups word ∨ ExactFit size groups word := by
  unfold CountedOver Overfull ExactFit
  by_cases hclosed : groups.closed = []
  · simp [hclosed]
  · rw [if_neg hclosed]
    constructor
    · rintro ⟨hopen, hover⟩
      rcases (Int.lt_add_one_iff.mp hover).lt_or_eq with hlt | heq
      · exact .inl ⟨hopen, hlt⟩
      · exact .inr ⟨hopen, hclosed, heq.symm⟩
    · rintro (⟨hopen, hover⟩ | ⟨hopen, _, hexact⟩)
      · exact ⟨hopen, hover.trans (lt_add_one _)⟩
      · exact ⟨hopen, hexact ▸ lt_add_one _⟩

theorem not_exactFit_of_overfull (h : Overfull size groups word) : ¬ExactFit size groups word :=
  fun hexact => h.2.ne hexact.2.2.symm

/-- A chunk is closed only when it must exactly if no word is an exact fit. -/
theorem overfull_of_countedOver_iff :
    (CountedOver size groups word → Overfull size groups word) ↔ ¬ExactFit size groups word := by
  rw [countedOver_iff]
  constructor
  · intro h hexact
    exact not_exactFit_of_overfull (h (.inr hexact)) hexact
  · intro hnot h
    exact h.resolve_right hnot

/-! ## The loop packs by its counter -/

namespace Packer

/-- The loop holds these groups, and its counter exceeds the length of the open chunk
by one once a chunk has been closed. -/
structure Holds (groups : Groups Str) (packer : Packer) : Prop where
  chunks : packer.chunks = groups.closed.map join
  current : packer.current = groups.current
  unopened : groups.current = [] → groups.closed = [] ∧ packer.length = 0
  counted : groups.current ≠ [] →
    packer.length = (join groups.current).length + if groups.closed = [] then 0 else 1

namespace Holds

variable {packer : Packer}

theorem init : Holds Groups.empty Packer.init where
  chunks := rfl
  current := rfl
  unopened := fun _ => ⟨rfl, rfl⟩
  counted := fun hopen => absurd rfl hopen

theorem flushes_iff (h : Holds groups packer) :
    packer.Flushes size word ↔ CountedOver size groups word := by
  unfold Flushes CountedOver
  rw [h.current, gt_iff_lt, and_comm]
  refine and_congr_right fun hopen => ?_
  have hcounted := h.counted hopen
  rw [hcounted, added, h.current, if_neg hopen]
  have hsum : ((join groups.current).length + (if groups.closed = [] then 0 else 1) : ℤ) +
      (word.length + 1) =
        (join groups.current).length + 1 + word.length + if groups.closed = [] then 0 else 1 := by
    ring
  rw [hsum]

/-- One round of the loop. -/
theorem push (h : Holds groups packer) :
    Holds (Groups.push (CountedOver size) (carryTail overlap) groups word)
      (packer.push size overlap word) := by
  by_cases hflush : packer.Flushes size word
  · have hopen : groups.current ≠ [] := h.current ▸ hflush.2
    rw [push_of_flushes hflush, Groups.push_of_closes (h.flushes_iff.mp hflush)]
    refine ⟨?_, ?_, fun hnil => absurd hnil (by simp), fun _ => ?_⟩
    · simp [h.chunks, h.current]
    · simp only [h.current]
    · -- the word has been counted with the space before it
      simp only [List.append_eq_nil_iff, List.cons_ne_nil, and_false, if_false]
      rw [length_join_concat, h.current, added, h.current, if_neg hopen]
      ring
  · rw [push_of_not_flushes hflush, Groups.push_of_not_closes (mt h.flushes_iff.mpr hflush)]
    refine ⟨h.chunks, ?_, fun hnil => absurd hnil (by simp), fun _ => ?_⟩
    · simp only [h.current]
    · rw [length_join_concat, added, h.current]
      by_cases hnil : groups.current = []
      · obtain ⟨hclosed, hlength⟩ := h.unopened hnil
        simp [hnil, hclosed, hlength, carriedLength]
      · have hjoin := length_join hnil
        rw [if_neg hnil, h.counted hnil]
        simp only
        omega

/-- The loop holds what the words packed by its counter give. -/
theorem run (size overlap : ℤ) (before : List Str) :
    Holds (packCounted size overlap before) (Packer.run size overlap before) := by
  induction before using List.reverseRecOn with
  | nil => exact init
  | append_singleton before word ih =>
      rw [run_concat, packCounted, Groups.pack_concat]
      exact ih.push

end Holds

end Packer

/-! ## The windows that are closed -/

/-- Behind the window the text goes on with a word that its chunk has no room for. -/
def ClosedFull (size : ℤ) (words : List Str) (window : Window) : Prop :=
  ∃ next, words[window.stop]? = some next ∧
    size < (join (window.slice words)).length + 1 + next.length

/-- The rounds in which the loop closes a chunk. -/
theorem closedFull_iff (words : List Str) (size : ℤ) (hoverlap : 0 ≤ overlap) :
    ∀ done ≤ words.length, ∃ closed start,
      Packing words overlap (Packer.run size overlap (words.take done)) closed start done ∧
        ((∀ window ∈ closed, ClosedFull size words window) ↔
          Groups.Throughout (CountedOver size) (carryTail overlap)
            (fun groups word => CountedOver size groups word → Overfull size groups word)
            (words.take done)) := by
  intro done
  induction done with
  | zero =>
      intro _
      refine ⟨[], 0, Packing.init, iff_of_true (by simp) ?_⟩
      intro before word hround
      simp at hround
  | succ done ih =>
      intro hdone
      obtain ⟨closed, start, h, hclosed⟩ := ih (Nat.le_of_succ_le hdone)
      have hholds := Packer.Holds.run size overlap (words.take done)
      rw [List.take_add_one, List.getElem?_eq_getElem hdone, Option.toList_some, Packer.run_concat,
        Groups.throughout_concat, ← hclosed]
      by_cases hflush : (Packer.run size overlap (words.take done)).Flushes size words[done]
      · have hopen : start < done := by
          have hne := mt (h.current_eq_nil_iff (Nat.le_of_succ_le hdone)).mpr hflush.2
          exact lt_of_le_of_ne h.start_le hne
        obtain ⟨next, hnext⟩ := h.flush hoverlap hopen hdone
          (carriedLength (carryTail overlap (Packer.run size overlap (words.take done)).current) +
            (Packer.run size overlap (words.take done)).added words[done])
        rw [Packer.push_of_flushes hflush]
        refine ⟨_, next, hnext, ?_⟩
        rw [List.forall_mem_append, List.forall_mem_singleton]
        refine and_congr_right fun _ => ?_
        have hcounted := hholds.flushes_iff.mp hflush
        have hslice : Window.slice ⟨start, done⟩ words = (packCounted size overlap
            (words.take done)).current := by rw [← h.current, hholds.current]
        unfold ClosedFull
        rw [hslice, List.getElem?_eq_getElem hdone]
        constructor
        · rintro ⟨_, ⟨⟩, hover⟩ _
          exact ⟨hcounted.1, hover⟩
        · intro hfull
          exact ⟨_, rfl, (hfull hcounted).2⟩
      · rw [Packer.push_of_not_flushes hflush]
        refine ⟨closed, start, h.extend hdone _, (and_iff_left ?_).symm⟩
        exact fun hcounted => absurd (hholds.flushes_iff.mpr hcounted) hflush

/-- The loop closes chunks only when it must exactly if, packing greedily, no word fits
a chunk exactly once a chunk has been closed. -/
theorem throughout_overfull_iff (ws : List Str) :
    Groups.Throughout (CountedOver size) (carryTail overlap)
      (fun groups word => CountedOver size groups word → Overfull size groups word) ws ↔
      ∀ before word, before ++ [word] <+: ws →
        ¬ExactFit size (packGreedily size overlap before) word := by
  have hexact : Groups.Throughout (CountedOver size) (carryTail overlap)
      (fun groups word => CountedOver size groups word → Overfull size groups word) ws ↔
      Groups.Throughout (CountedOver size) (carryTail overlap)
        (fun groups word => ¬ExactFit size groups word) ws :=
    forall₃_congr fun _ _ _ => overfull_of_countedOver_iff
  rw [hexact]
  refine Groups.throughout_congr fun groups word hnot => ?_
  rw [countedOver_iff, or_iff_left hnot]

/-- The chunks of a text are windows over its words, and a window is closed only before
a word that does not fit if and only if no word is an exact fit in the greedy packing. -/
theorem chunks_closedFull_iff (text : Str) (size overlap : ℤ) (hsize : 0 < size)
    (hoverlap : 0 ≤ overlap) (hlt : overlap < size) : ∃ windows,
      chunkText text size overlap =
          .ok (windows.map fun window => join (window.slice (words text))) ∧
        Tiling (words text) overlap windows ∧
        ((∀ window ∈ windows.dropLast, ClosedFull size (words text) window) ↔
          ∀ before word, before ++ [word] <+: words text →
            ¬ExactFit size (packGreedily size overlap before) word) := by
  rw [chunkText_eq_run text hsize hoverlap hlt]
  by_cases hwords : words text = []
  · refine ⟨[], ?_, hwords ▸ Tiling.nil overlap, iff_of_true (by simp) ?_⟩
    · rw [hwords]
      rfl
    · intro before word hround
      simp [hwords] at hround
  · obtain ⟨closed, start, h, hclosed⟩ := closedFull_iff (words text) size hoverlap _ le_rfl
    rw [List.take_length] at h hclosed
    refine ⟨_, congrArg _ (h.finish_eq_map hwords), h.tiling hwords, ?_⟩
    rw [List.dropLast_concat, hclosed, throughout_overfull_iff]

theorem chunks_closedFull_iff_fox : ∃ windows,
    chunkText "the quick  brown fox".toList 12 6 =
        .ok (windows.map fun window => join (window.slice (words "the quick  brown fox".toList))) ∧
      Tiling (words "the quick  brown fox".toList) 6 windows ∧
      ((∀ window ∈ windows.dropLast, ClosedFull 12 (words "the quick  brown fox".toList) window) ↔
        ∀ before word, before ++ [word] <+: words "the quick  brown fox".toList →
          ¬ExactFit 12 (packGreedily 12 6 before) word) :=
  chunks_closedFull_iff "the quick  brown fox".toList 12 6 (by decide) (by decide) (by decide)

/-- The second chunk is closed before a word that would have fitted. -/
theorem exactFit_closed : ¬∃ windows,
    chunkText "aaa b b".toList 3 0 =
        .ok (windows.map fun window => join (window.slice (words "aaa b b".toList))) ∧
      Tiling (words "aaa b b".toList) 0 windows ∧
      ∀ window ∈ windows.dropLast, ClosedFull 3 (words "aaa b b".toList) window := by
  rintro ⟨windows, hchunks, _, hfull⟩
  have hpieces : chunkText "aaa b b".toList 3 0 =
      .ok ["aaa".toList, "b".toList, "b".toList] := by decide
  have hwords : words "aaa b b".toList = ["aaa".toList, "b".toList, "b".toList] := by decide
  rw [hpieces, Except.ok.injEq] at hchunks
  rw [hwords] at hchunks hfull
  obtain ⟨first, second, last, rfl⟩ : ∃ first second last, windows = [first, second, last] :=
    List.length_eq_three.mp (by simpa using (congrArg List.length hchunks).symm)
  simp only [List.map_cons, List.cons.injEq] at hchunks
  obtain ⟨next, hnext, hover⟩ := hfull second (by simp)
  rw [← hchunks.2.1] at hover
  rcases second with ⟨start, _ | _ | _ | stop⟩
  · -- an empty window
    simp [Window.slice, join] at hchunks
  · cases hnext
    exact absurd hover (by decide)
  · cases hnext
    exact absurd hover (by decide)
  · cases hnext

end Core
