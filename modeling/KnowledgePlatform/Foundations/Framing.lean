import Mathlib.Tactic

/-!
# Framing a stream

A stream arrives in pieces of any size.  The receiver appends each piece to a
buffer and cuts the complete frames off its front; what is left waits for the
next piece.

A `Framing` says how one frame is cut off, with the two facts that make this
work: a frame that is complete stays what it is when more arrives, and cutting
shortens the buffer.  `feed_eq_drain` is the result: however a stream is divided
into pieces, its frames are those of the whole.
-/

namespace Foundations

variable {α : Type*}

/-- A way to cut the first complete frame off a buffer. -/
structure Framing (α : Type*) where
  cut : List α → Option (List α × List α)
  cut_append : ∀ {buffer frame rest : List α} (later : List α),
    cut buffer = some (frame, rest) → cut (buffer ++ later) = some (frame, rest ++ later)
  length_rest : ∀ {buffer frame rest : List α},
    cut buffer = some (frame, rest) → rest.length < buffer.length

namespace Framing

variable (framing : Framing α)

/-- Cut frames off a buffer as long as there are complete ones. -/
def drain (buffer : List α) : List (List α) × List α :=
  match _hcut : framing.cut buffer with
  | none => ([], buffer)
  | some (frame, rest) => (frame :: (drain rest).1, (drain rest).2)
  termination_by buffer.length
  decreasing_by all_goals exact framing.length_rest _hcut

/-- Receive pieces one after the other. -/
def feed : List α → List (List α) → List (List α) × List α
  | buffer, [] => ([], buffer)
  | buffer, piece :: pieces =>
      let (frames, rest) := framing.drain (buffer ++ piece)
      let (later, last) := feed rest pieces
      (frames ++ later, last)

variable {framing}

theorem drain_of_none {buffer : List α} (hcut : framing.cut buffer = none) :
    framing.drain buffer = ([], buffer) := by
  rw [drain]
  split
  · rfl
  · next hsome => simp [hcut] at hsome

theorem drain_of_some {buffer frame rest : List α} (hcut : framing.cut buffer = some (frame, rest)) :
    framing.drain buffer = (frame :: (framing.drain rest).1, (framing.drain rest).2) := by
  rw [drain]
  split
  · next hnone => simp [hcut] at hnone
  · next hsome =>
      rw [hcut] at hsome
      cases hsome
      rfl

/-- A property of buffers holds if it holds without a complete frame, and with one more
frame than the rest of the buffer. -/
theorem drain_induction {P : List α → Prop}
    (hnone : ∀ buffer, framing.cut buffer = none → P buffer)
    (hsome : ∀ buffer frame rest, framing.cut buffer = some (frame, rest) → P rest → P buffer)
    (buffer : List α) : P buffer := by
  induction hlength : buffer.length using Nat.strong_induction_on generalizing buffer with
  | _ length ih =>
      cases hcut : framing.cut buffer with
      | none => exact hnone buffer hcut
      | some found =>
          obtain ⟨frame, rest⟩ := found
          have hshorter := framing.length_rest hcut
          exact hsome buffer frame rest hcut (ih rest.length (by omega) rest rfl)

/-- What is left holds no complete frame. -/
theorem cut_drain (buffer : List α) : framing.cut (framing.drain buffer).2 = none := by
  induction buffer using framing.drain_induction with
  | hnone buffer hcut => rw [drain_of_none hcut, hcut]
  | hsome buffer frame rest hcut ih => rw [drain_of_some hcut, ih]

/-- Frames cut off before more arrives are cut off afterwards too. -/
theorem drain_append (buffer later : List α) :
    framing.drain (buffer ++ later) =
      ((framing.drain buffer).1 ++ (framing.drain ((framing.drain buffer).2 ++ later)).1,
        (framing.drain ((framing.drain buffer).2 ++ later)).2) := by
  induction buffer using framing.drain_induction with
  | hnone buffer hcut => simp [drain_of_none hcut]
  | hsome buffer frame rest hcut ih =>
      rw [drain_of_some (framing.cut_append later hcut), drain_of_some hcut, ih]
      rfl

/-- The frames of a buffer and what is left make up the buffer. -/
theorem flatMap_drain {encode : List α → List α}
    (hcut : ∀ {buffer frame rest}, framing.cut buffer = some (frame, rest) →
      buffer = encode frame ++ rest) (buffer : List α) :
    (framing.drain buffer).1.flatMap encode ++ (framing.drain buffer).2 = buffer := by
  induction buffer using framing.drain_induction with
  | hnone buffer hnone => rw [drain_of_none hnone, List.flatMap_nil, List.nil_append]
  | hsome buffer frame rest hsome ih =>
      rw [drain_of_some hsome, List.flatMap_cons, List.append_assoc, ih]
      exact (hcut hsome).symm

theorem forall_mem_drain {P : List α → Prop}
    (hcut : ∀ {buffer frame rest}, framing.cut buffer = some (frame, rest) → P frame)
    (buffer : List α) : ∀ frame ∈ (framing.drain buffer).1, P frame := by
  induction buffer using framing.drain_induction with
  | hnone buffer hnone =>
      rw [drain_of_none hnone]
      exact fun frame hframe => absurd hframe List.not_mem_nil
  | hsome buffer frame rest hsome ih =>
      rw [drain_of_some hsome]
      exact List.forall_mem_cons.mpr ⟨hcut hsome, ih⟩

/-- However a stream is divided into pieces, its frames are those of the whole. -/
theorem feed_eq_drain {buffer : List α} (hbuffer : framing.cut buffer = none)
    (pieces : List (List α)) :
    framing.feed buffer pieces = framing.drain (buffer ++ pieces.flatten) := by
  induction pieces generalizing buffer with
  | nil => rw [List.flatten_nil, List.append_nil, drain_of_none hbuffer, feed]
  | cons piece pieces ih =>
      rw [List.flatten_cons, ← List.append_assoc, drain_append]
      simp only [feed, ih (cut_drain _)]

/-- The frames of a stream that ends early are the first frames of the stream. -/
theorem drain_prefix {received stream : List α} (hreceived : received <+: stream) :
    (framing.drain received).1 <+: (framing.drain stream).1 := by
  obtain ⟨later, rfl⟩ := hreceived
  rw [drain_append]
  exact List.prefix_append _ _

/-- Encoded items at the front of a buffer are cut into their frames. -/
theorem drain_flatMap_append {Item : Type*} {encode frame : Item → List α} {items : List Item}
    (hencode : ∀ item ∈ items, ∀ rest,
      framing.cut (encode item ++ rest) = some (frame item, rest)) (rest : List α) :
    framing.drain (items.flatMap encode ++ rest) =
      (items.map frame ++ (framing.drain rest).1, (framing.drain rest).2) := by
  induction items with
  | nil => rfl
  | cons item items ih =>
      have hfirst := hencode item List.mem_cons_self (items.flatMap encode ++ rest)
      have hrest := ih fun later hlater => hencode later (List.mem_cons_of_mem _ hlater)
      rw [List.flatMap_cons, List.append_assoc, drain_of_some hfirst, hrest, List.map_cons,
        List.cons_append]

/-- A stream of encoded items is cut into their frames. -/
theorem drain_flatMap {Item : Type*} {encode frame : Item → List α} {items : List Item}
    (hencode : ∀ item ∈ items, ∀ rest,
      framing.cut (encode item ++ rest) = some (frame item, rest))
    (hnil : framing.cut [] = none) :
    framing.drain (items.flatMap encode) = (items.map frame, []) := by
  have hwhole := drain_flatMap_append hencode []
  rw [List.append_nil, drain_of_none hnil, List.append_nil] at hwhole
  exact hwhole

end Framing

end Foundations
