import KnowledgePlatform.Foundations.Windows
import KnowledgePlatform.Python.Text

/-!
# Text chunking

`chunkText` packs the words of a text greedily into chunks of up to `size`
characters and starts every chunk but the first with a tail of the chunk before.

Each chunk is a window over the words.  `Packing` is the invariant of the loop:
the chunks closed so far and the open one form a chain of overlapping windows,
and each overlap is the longest tail that fits `overlap` (`Window.Carries`).
It holds whatever decides when a chunk is closed, so the counter `length` does
not occur in it.
-/

open Foundations Python

namespace Core

/-- Raised on parameters that no chunking satisfies. -/
inductive ChunkingError
  | sizeMustBePositive
  | overlapOutOfRange
  deriving DecidableEq, Repr

/-- `str` of the `ValueError` raised. -/
def ChunkingError.message : ChunkingError → Str
  | sizeMustBePositive => "size must be positive".toList
  | overlapOutOfRange => "overlap must satisfy 0 <= overlap < size".toList

/-- Rough heuristic, about four characters a token. -/
def estimateTokens (text : Str) : ℕ := max 1 (text.length / 4)

/-- Collapse runs of whitespace but keep single spaces between words. -/
def normalize (text : Str) : Str := strip (collapse text)

/-- The words that are packed.  The empty text has none, although splitting it
gives one empty string. -/
def words (text : Str) : List Str :=
  if normalize text = [] then [] else split (normalize text)

/-- `sum(len(w) + 1 for w in current)` -/
def carriedLength (current : List Str) : ℤ := (current.map fun w => (w.length : ℤ) + 1).sum

/-- The backward loop that collects the overlap tail; the words still to look at
come last word first. -/
def carryTailLoop (overlap : ℤ) : List Str → List Str → ℤ → List Str
  | [], tail, _ => tail
  | w :: before, tail, tailLen =>
      if tailLen + w.length + 1 > overlap then tail
      else carryTailLoop overlap before (w :: tail) (tailLen + w.length + 1)

/-- The words carried over into the next chunk. -/
def carryTail (overlap : ℤ) (current : List Str) : List Str :=
  carryTailLoop overlap current.reverse [] 0

/-- The variables of the packing loop. -/
structure Packer where
  chunks : List Str
  current : List Str
  length : ℤ
  deriving DecidableEq, Repr

namespace Packer

/-- The loop starts with nothing packed. -/
def init : Packer := ⟨[], [], 0⟩

/-- Close the current chunk and carry its tail over. -/
def flush (overlap : ℤ) (packer : Packer) : Packer where
  chunks := packer.chunks ++ [join packer.current]
  current := carryTail overlap packer.current
  length := carriedLength (carryTail overlap packer.current)

/-- What a word adds to the length, with the space that separates it. -/
def added (packer : Packer) (word : Str) : ℤ :=
  word.length + if packer.current = [] then 0 else 1

/-- The body of the loop.  What the word adds is fixed before a flush. -/
def push (size overlap : ℤ) (packer : Packer) (word : Str) : Packer :=
  let flushed :=
    if packer.length + packer.added word > size ∧ packer.current ≠ [] then packer.flush overlap
    else packer
  ⟨flushed.chunks, flushed.current ++ [word], flushed.length + packer.added word⟩

/-- The chunks once all words are packed. -/
def finish (packer : Packer) : List Str :=
  if packer.current = [] then packer.chunks else packer.chunks ++ [join packer.current]

end Packer

/-- Split a text into overlapping chunks of whole words. -/
def chunkText (text : Str) (size overlap : ℤ) : Except ChunkingError (List Str) :=
  if size ≤ 0 then .error .sizeMustBePositive
  else if ¬(0 ≤ overlap ∧ overlap < size) then .error .overlapOutOfRange
  else if normalize text = [] then .ok []
  else .ok ((split (normalize text)).foldl (Packer.push size overlap) Packer.init).finish

/-! ## Words -/

/-- A word contains no whitespace. -/
theorem isSpace_of_mem_words {text word : Str} (hword : word ∈ words text) {c : Char}
    (hc : c ∈ word) : isSpace c = false := by
  unfold words at hword
  split at hword
  · cases hword
  obtain ⟨hmem, hne⟩ := mem_of_mem_split hword hc
  rw [Bool.eq_false_iff]
  intro hspace
  exact hne (eq_space_of_mem_collapseFrom (mem_of_mem_strip hmem) hspace)

theorem space_not_mem_of_mem_words {text word : Str} (hword : word ∈ words text) : ' ' ∉ word := by
  intro hmem
  have hspace := isSpace_of_mem_words hword hmem
  rw [isSpace_space] at hspace
  cases hspace

/-! ## The carried tail -/

theorem carriedLength_cons (w : Str) (ws : List Str) :
    carriedLength (w :: ws) = w.length + 1 + carriedLength ws := rfl

theorem carriedLength_append (before after : List Str) :
    carriedLength (before ++ after) = carriedLength before + carriedLength after := by
  simp [carriedLength]

theorem carriedLength_nonneg (ws : List Str) : 0 ≤ carriedLength ws := by
  induction ws with
  | nil => simp [carriedLength]
  | cons w ws ih =>
      rw [carriedLength_cons]
      omega

/-- The backward loop has looked at `tail`, which fits, and stops at the first
position from which the words fit. -/
theorem carryTailLoop_eq_drop {overlap : ℤ} : ∀ (before tail : List Str),
    carriedLength tail ≤ overlap → ∃ count ≤ before.length,
      carryTailLoop overlap before tail (carriedLength tail) =
        (before.reverse ++ tail).drop count ∧
      carriedLength ((before.reverse ++ tail).drop count) ≤ overlap ∧
      ∀ fewer < count, overlap < carriedLength ((before.reverse ++ tail).drop fewer) := by
  intro before
  induction before with
  | nil =>
      intro tail hfits
      exact ⟨0, le_rfl, rfl, hfits, fun _ hlt => absurd hlt (Nat.not_lt_zero _)⟩
  | cons w before ih =>
      intro tail hfits
      have hcarried : carriedLength tail + w.length + 1 = carriedLength (w :: tail) := by
        rw [carriedLength_cons]
        omega
      simp only [carryTailLoop, hcarried, List.reverse_cons, List.append_assoc, List.singleton_append]
      split
      · next hover =>
          have hdrop : (before.reverse ++ w :: tail).drop (before.length + 1) = tail := by
            rw [List.append_cons]
            exact List.drop_left' (by simp)
          refine ⟨before.length + 1, by simp, hdrop.symm, hdrop.symm ▸ hfits, ?_⟩
          · intro fewer hfewer
            -- what is dropped is a suffix of `before` still followed by `w`
            have hsuffix : (before.reverse ++ w :: tail).drop fewer =
                before.reverse.drop fewer ++ w :: tail :=
              List.drop_append_of_le_length (by simpa using Nat.lt_succ_iff.mp hfewer)
            rw [hsuffix, carriedLength_append]
            have hnonneg := carriedLength_nonneg (before.reverse.drop fewer)
            omega
      · next hunder =>
          obtain ⟨count, hcount, heq, hrest⟩ := ih (w :: tail) (not_lt.mp hunder)
          exact ⟨count, hcount.trans (by simp), heq, hrest⟩

/-- The carried tail is the longest suffix that fits the overlap. -/
theorem carryTail_eq_drop {overlap : ℤ} (hoverlap : 0 ≤ overlap) (current : List Str) :
    ∃ count ≤ current.length, carryTail overlap current = current.drop count ∧
      carriedLength (current.drop count) ≤ overlap ∧
      ∀ fewer < count, overlap < carriedLength (current.drop fewer) := by
  have hnil : carriedLength [] ≤ overlap := by simpa [carriedLength] using hoverlap
  have hloop := carryTailLoop_eq_drop current.reverse [] hnil
  simpa [carryTail, carriedLength] using hloop

/-! ## The packing loop -/

/-- What links a chunk to the next: they overlap, by the longest tail that fits. -/
structure Linked (words : List Str) (overlap : ℤ) (window next : Window) : Prop where
  overlaps : window.Overlaps next
  carries : Window.Carries carriedLength overlap words window next

/-- After `done` words the loop has closed the chunks `closed`, and the current
chunk began with the word number `start`. -/
structure Packing (words : List Str) (overlap : ℤ) (packer : Packer) (closed : List Window)
    (start done : ℕ) : Prop where
  chunks : packer.chunks = closed.map fun window => join (window.slice words)
  current : packer.current = Window.slice ⟨start, done⟩ words
  start_le : start ≤ done
  start_lt : 0 < done → start < done
  nonempty : ∀ window ∈ closed, window.start < window.stop
  front : ∀ window : Window, (closed ++ [Window.mk start done]).head? = some window → window.start = 0
  chain : List.IsChain (Linked words overlap) (closed ++ [⟨start, done⟩])

namespace Packing

variable {words : List Str} {size overlap : ℤ} {packer : Packer} {closed : List Window}
  {start done : ℕ}

theorem init : Packing words overlap Packer.init [] 0 0 where
  chunks := rfl
  current := (Window.slice_self 0 words).symm
  start_le := le_rfl
  start_lt := fun hdone => hdone
  nonempty := fun _ hwindow => absurd hwindow List.not_mem_nil
  front := by
    intro window hwindow
    cases hwindow
    rfl
  chain := List.isChain_singleton _

/-- The current chunk is empty only before the first word. -/
theorem current_eq_nil_iff (h : Packing words overlap packer closed start done)
    (hdone : done ≤ words.length) : packer.current = [] ↔ start = done := by
  rw [h.current, ← List.length_eq_zero_iff, Window.length_slice hdone]
  have hstart := h.start_le
  simp only
  omega

/-- Appending a word makes the open window longer. -/
theorem extend (h : Packing words overlap packer closed start done) (hdone : done < words.length)
    (length : ℤ) :
    Packing words overlap ⟨packer.chunks, packer.current ++ [words[done]], length⟩ closed start
      (done + 1) where
  chunks := h.chunks
  current := by rw [Window.slice_succ h.start_le hdone, h.current]
  start_le := h.start_le.trans (Nat.le_succ _)
  start_lt := fun _ => Nat.lt_succ_of_le h.start_le
  nonempty := h.nonempty
  front := by
    intro window hwindow
    cases closed with
    | nil =>
        cases hwindow
        exact h.front ⟨start, done⟩ rfl
    | cons first rest => exact h.front window hwindow
  chain := by
    have hchain := h.chain
    rw [List.isChain_append] at hchain ⊢
    refine ⟨hchain.1, List.isChain_singleton _, ?_⟩
    intro window hwindow next hnext
    cases Option.mem_some_iff.mp hnext
    have hlinked := hchain.2.2 window hwindow ⟨start, done⟩ rfl
    exact ⟨⟨hlinked.overlaps.start_le, hlinked.overlaps.start_le_stop,
      hlinked.overlaps.stop_lt.trans (Nat.lt_succ_self _)⟩, hlinked.carries⟩

/-- A flush closes the open window; the next word then goes behind the tail. -/
theorem flush (h : Packing words overlap packer closed start done) (hoverlap : 0 ≤ overlap)
    (hopen : start < done) (hdone : done < words.length) (length : ℤ) :
    ∃ next, Packing words overlap ⟨packer.chunks ++ [join packer.current],
      carryTail overlap packer.current ++ [words[done]], length⟩ (closed ++ [⟨start, done⟩]) next
      (done + 1) := by
  obtain ⟨count, hcount, htail, hfits, hleast⟩ := carryTail_eq_drop hoverlap packer.current
  rw [h.current, Window.length_slice hdone.le] at hcount
  simp only at hcount
  have hdrop : ∀ dropped, packer.current.drop dropped = Window.slice ⟨start + dropped, done⟩ words :=
    fun dropped => by rw [h.current, Window.drop_slice]
  refine ⟨start + count, ?_, ?_, by omega, fun _ => by omega, ?_, ?_, ?_⟩
  · simp [h.chunks, h.current]
  · rw [htail, hdrop, Window.slice_succ (by omega) hdone]
  · intro window hwindow
    rcases List.mem_append.mp hwindow with hclosed | hlast
    · exact h.nonempty window hclosed
    · cases List.mem_singleton.mp hlast
      exact hopen
  · intro window hwindow
    refine h.front window ?_
    rw [← hwindow]
    cases closed <;> rfl
  · rw [List.isChain_append]
    refine ⟨h.chain, List.isChain_singleton _, ?_⟩
    intro window hwindow next hnext
    rw [List.getLast?_concat] at hwindow
    cases Option.mem_some_iff.mp hwindow
    cases Option.mem_some_iff.mp hnext
    refine ⟨⟨by simp, by simp only; omega, Nat.lt_succ_self _⟩, ?_, ?_⟩
    · refine ⟨by simp, by simp only; omega, ?_⟩
      rw [← hdrop]
      exact hfits
    · rintro earlier ⟨hearlier, _, hweight⟩
      by_contra hlt
      simp only at hearlier hlt hweight
      have hover := hleast (earlier - start) (by omega)
      rw [hdrop, Nat.add_sub_cancel' hearlier] at hover
      omega

/-- One round of the loop. -/
theorem push (h : Packing words overlap packer closed start done) (hoverlap : 0 ≤ overlap)
    (hdone : done < words.length) : ∃ closed' start',
      Packing words overlap (packer.push size overlap words[done]) closed' start' (done + 1) := by
  unfold Packer.push
  simp only
  by_cases hflush : packer.length + packer.added words[done] > size ∧ packer.current ≠ []
  · have hopen : start < done := by
      have hne := mt (h.current_eq_nil_iff hdone.le).mpr hflush.2
      have hstart := h.start_le
      omega
    obtain ⟨next, hnext⟩ := h.flush hoverlap hopen hdone
      (carriedLength (carryTail overlap packer.current) + packer.added words[done])
    rw [if_pos hflush]
    exact ⟨_, next, hnext⟩
  · rw [if_neg hflush]
    exact ⟨closed, start, h.extend hdone _⟩

/-- The loop keeps the invariant over all words. -/
theorem run (words : List Str) (size : ℤ) (hoverlap : 0 ≤ overlap) : ∀ done ≤ words.length, ∃ closed start,
    Packing words overlap ((words.take done).foldl (Packer.push size overlap) Packer.init) closed
      start done := by
  intro done
  induction done with
  | zero => exact fun _ => ⟨[], 0, init⟩
  | succ done ih =>
      intro hdone
      obtain ⟨closed, start, h⟩ := ih (Nat.le_of_succ_le hdone)
      rw [List.take_add_one, List.getElem?_eq_getElem hdone, List.foldl_append]
      exact h.push hoverlap hdone

end Packing

/-! ## What the chunks are -/

/-- The windows of a chunking: nonempty, from the first word to the last, each
overlapping the next by the longest tail that fits. -/
structure Tiling (words : List Str) (overlap : ℤ) (windows : List Window) : Prop where
  nonempty : ∀ window ∈ windows, window.start < window.stop
  front : ∀ window : Window, windows.head? = some window → window.start = 0
  back : ∀ window : Window, windows.getLast? = some window → window.stop = words.length
  chain : List.IsChain (Linked words overlap) windows
  eq_nil_iff : windows = [] ↔ words = []

theorem Tiling.stop_le {words : List Str} {overlap : ℤ} {windows : List Window}
    (h : Tiling words overlap windows) : ∀ window ∈ windows, window.stop ≤ words.length := by
  cases windows with
  | nil => simp
  | cons first rest =>
      intro window hwindow
      have hlast := h.back _ (List.getLast?_eq_getLast_of_ne_nil (List.cons_ne_nil first rest))
      rw [← hlast]
      exact Window.stop_le_getLast first rest
        (h.chain.imp fun _ _ hlinked => hlinked.overlaps) window hwindow

/-- The contents of the windows, without the carried tails, are the words. -/
theorem Tiling.reassemble {words : List Str} {overlap : ℤ} {windows : List Window}
    (h : Tiling words overlap windows) :
    Window.reassemble windows (windows.map fun window => window.slice words) = words := by
  cases windows with
  | nil => exact (h.eq_nil_iff.mp rfl).symm
  | cons first rest =>
      rw [Window.reassemble_slices words (h.chain.imp fun _ _ hlinked => hlinked.overlaps)
        (h.front first rfl), h.back _ (List.getLast?_eq_getLast_of_ne_nil (List.cons_ne_nil _ _)),
        List.take_length]

theorem words_eq_nil_iff {text : Str} : words text = [] ↔ normalize text = [] := by
  unfold words
  split
  · next h => simp [h]
  · next h => simp [h, split, List.splitOn_ne_nil]

namespace Packing

variable {words : List Str} {overlap : ℤ} {packer : Packer} {closed : List Window} {start : ℕ}

/-- Once all words are packed, the open chunk is closed as well. -/
theorem finish_eq_map (h : Packing words overlap packer closed start words.length)
    (hwords : words ≠ []) : packer.finish =
      (closed ++ [Window.mk start words.length]).map fun window => join (window.slice words) := by
  have hstart := h.start_lt (List.length_pos_iff.mpr hwords)
  have hopen := mt (h.current_eq_nil_iff le_rfl).mp hstart.ne
  rw [Packer.finish, if_neg hopen, h.chunks, h.current, List.map_append]
  rfl

theorem tiling (h : Packing words overlap packer closed start words.length) (hwords : words ≠ []) :
    Tiling words overlap (closed ++ [⟨start, words.length⟩]) where
  nonempty := by
    intro window hwindow
    rcases List.mem_append.mp hwindow with hclosed | hlast
    · exact h.nonempty window hclosed
    · cases List.mem_singleton.mp hlast
      exact h.start_lt (List.length_pos_iff.mpr hwords)
  front := h.front
  back := by
    intro window hwindow
    rw [List.getLast?_concat] at hwindow
    cases hwindow
    rfl
  chain := h.chain
  eq_nil_iff := by simp [hwords]

end Packing

theorem Tiling.nil (overlap : ℤ) : Tiling [] overlap [] where
  nonempty := by simp
  front := by simp
  back := by simp
  chain := List.isChain_nil
  eq_nil_iff := by simp

/-- On valid parameters the chunks are the windows of a tiling of the words. -/
theorem chunkText_eq_ok (text : Str) {size overlap : ℤ} (hsize : 0 < size)
    (hoverlap : 0 ≤ overlap) (hlt : overlap < size) : ∃ windows,
      chunkText text size overlap = .ok (windows.map fun window => join (window.slice (words text))) ∧
        Tiling (words text) overlap windows := by
  unfold chunkText
  rw [if_neg (not_le.mpr hsize), if_neg (not_not.mpr ⟨hoverlap, hlt⟩)]
  by_cases hnil : normalize text = []
  · rw [if_pos hnil, words_eq_nil_iff.mpr hnil]
    exact ⟨[], rfl, Tiling.nil overlap⟩
  have hwords : split (normalize text) = words text := by rw [words, if_neg hnil]
  have hne : words text ≠ [] := mt words_eq_nil_iff.mp hnil
  obtain ⟨closed, start, h⟩ := Packing.run (words text) size hoverlap _ le_rfl
  rw [List.take_length] at h
  rw [if_neg hnil, hwords, h.finish_eq_map hne]
  exact ⟨_, rfl, h.tiling hne⟩

/-- A chunk splits into the words of its window. -/
theorem split_join_slice {text : Str} {window : Window}
    (hne : window.slice (words text) ≠ []) :
    split (join (window.slice (words text))) = window.slice (words text) := by
  refine split_join (fun word hword => ?_) hne
  exact space_not_mem_of_mem_words (List.mem_of_mem_take (List.mem_of_mem_drop hword))

/-- `chunkText` covers the text with consecutive overlapping windows: each chunk
is the join of the words of its window, the windows tile the words, and the
words of the chunks without the carried tails are the words of the text. -/
theorem chunkText_covers (text : Str) (size overlap : ℤ) (hsize : 0 < size)
    (hoverlap : 0 ≤ overlap) (hlt : overlap < size) : ∃ chunks windows,
      chunkText text size overlap = .ok chunks ∧
        chunks = (windows.map fun window => join (window.slice (words text))) ∧
        Tiling (words text) overlap windows ∧
        Window.reassemble windows (chunks.map split) = words text ∧
        (words text = [] → chunks = []) := by
  obtain ⟨windows, hchunks, htiling⟩ := chunkText_eq_ok text hsize hoverlap hlt
  refine ⟨_, windows, hchunks, rfl, htiling, ?_, ?_⟩
  · have hpieces : (windows.map fun window => join (window.slice (words text))).map split =
        windows.map fun window => window.slice (words text) := by
      rw [List.map_map]
      refine List.map_congr_left fun window hwindow => split_join_slice ?_
      have hstart := htiling.nonempty window hwindow
      have hstop := htiling.stop_le window hwindow
      rw [← List.length_pos_iff, Window.length_slice hstop]
      omega
    rw [hpieces, htiling.reassemble]
  · intro hwords
    rw [htiling.eq_nil_iff.mpr hwords]
    rfl

theorem chunkText_covers_fox : ∃ chunks windows,
    chunkText "the quick  brown fox".toList 12 6 = .ok chunks ∧
      chunks = (windows.map fun window =>
        join (window.slice (words "the quick  brown fox".toList))) ∧
      Tiling (words "the quick  brown fox".toList) 6 windows ∧
      Window.reassemble windows (chunks.map split) = words "the quick  brown fox".toList ∧
      (words "the quick  brown fox".toList = [] → chunks = []) :=
  chunkText_covers "the quick  brown fox".toList 12 6 (by decide) (by decide) (by decide)

example : chunkText "the quick  brown fox".toList 12 6 =
    .ok ["the quick".toList, "quick brown".toList, "brown fox".toList] := by decide

end Core
