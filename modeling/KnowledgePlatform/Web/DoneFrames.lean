import KnowledgePlatform.Web.Chat

/-!
# Done frames

The answer to a message is complete when its done frame has been dispatched.  Whether a
body has one is a question about its text alone: it is divided at its empty lines, and
one of the frames before them says `done` and has data (`HasDone`).

`streamChatMessage` calls `onDone` for these bodies and no others, however they are
read (`any_streamChatMessage_iff`).
-/

open Api Core Foundations Python

namespace Web

/-! ## The frames of a text -/

/-- A frame before its empty line: no other empty line comes first. -/
def IsFrame (raw : Str) : Prop := ¬['\n', '\n'] <:+: raw ++ ['\n']

/-- What follows a prefix in the lines that begin with it. -/
def fields (start raw : Str) : List Str := (raw.splitOn '\n').filterMap (dropStart start)

/-- The frame says that the answer is complete: its last event is `done`, and it has
data that is JSON other than `null`. -/
def IsDone (json : JsonText) (raw : Str) : Prop :=
  (fields eventLine raw).getLast? = some "done".toList ∧ fields dataLine raw ≠ [] ∧
    ∃ payload, json.parse (['\n'].intercalate (fields dataLine raw)) = some payload ∧
      payload ≠ .null

/-- The text of these bytes has a done frame, with the empty line that ends it. -/
def HasDone (json : JsonText) (bytes : List UInt8) : Prop :=
  ∃ (frames : List Str) (rest : Str), (TextDecoder.decode {} bytes).2 =
      frames.flatMap (· ++ ['\n', '\n']) ++ rest ∧
    (∀ raw ∈ frames, IsFrame raw) ∧ ∃ raw ∈ frames, IsDone json raw

section Spec

variable {json : JsonText}

theorem isFrame_nil : IsFrame [] := fun hinfix => absurd hinfix.length_le (by decide)

theorem indexOfBoundary_of_isFrame {raw : Str} (h : IsFrame raw) (rest : Str) :
    indexOfBoundary (raw ++ '\n' :: '\n' :: rest) = some raw.length := by
  induction raw with
  | nil => rfl
  | cons c raw ih =>
      obtain ⟨hstart, hinfix⟩ := not_or.mp (mt List.infix_cons_iff.mpr h)
      have hlater := ih hinfix
      cases raw with
      | nil =>
          have hne : ¬(c = '\n' ∧ '\n' = '\n') := by
            rintro ⟨rfl, _⟩
            exact hstart List.prefix_rfl
          rw [List.cons_append, List.nil_append, indexOfBoundary, if_neg hne]
          rfl
      | cons d raw =>
          have hne : ¬(c = '\n' ∧ d = '\n') := by
            rintro ⟨rfl, rfl⟩
            exact hstart ⟨raw ++ ['\n'], rfl⟩
          rw [List.cons_append, List.cons_append, indexOfBoundary, if_neg hne, ← List.cons_append,
            hlater]
          rfl

theorem isFrame_of_indexOfBoundary {buffer : Str} {boundary : ℕ}
    (h : indexOfBoundary buffer = some boundary) :
    buffer = buffer.take boundary ++ '\n' :: '\n' :: buffer.drop (boundary + 2) ∧
      IsFrame (buffer.take boundary) := by
  induction buffer generalizing boundary with
  | nil => cases h
  | cons c buffer ih =>
      cases buffer with
      | nil => cases h
      | cons d rest =>
          rw [indexOfBoundary] at h
          split_ifs at h with hboundary
          · cases h
            obtain ⟨rfl, rfl⟩ := hboundary
            exact ⟨rfl, isFrame_nil⟩
          · obtain ⟨earlier, hearlier, rfl⟩ := Option.map_eq_some_iff.mp h
            obtain ⟨hsplit, hframe⟩ := ih hearlier
            refine ⟨congrArg (c :: ·) hsplit, fun hinfix => ?_⟩
            rcases List.infix_cons_iff.mp hinfix with hstart | hlater
            · have hfront : (d :: rest).take earlier ++ ['\n'] <+: d :: rest := by
                refine ⟨'\n' :: (d :: rest).drop (earlier + 2), ?_⟩
                rw [List.append_assoc]
                exact hsplit.symm
              have hnewlines := hstart.trans (List.cons_prefix_cons.mpr ⟨rfl, hfront⟩)
              simp only [List.cons_prefix_cons] at hnewlines
              exact hboundary ⟨hnewlines.1.symm, hnewlines.2.1.symm⟩
            · exact hframe hlater

/-- A buffer is cut at its first empty line. -/
theorem cutFrame_eq_some_iff {buffer raw rest : Str} : cutFrame buffer = some (raw, rest) ↔
    buffer = raw ++ ['\n', '\n'] ++ rest ∧ IsFrame raw := by
  unfold cutFrame
  constructor
  · intro h
    obtain ⟨boundary, hboundary, hcut⟩ := Option.map_eq_some_iff.mp h
    obtain ⟨rfl, rfl⟩ := Prod.mk.inj hcut
    obtain ⟨hsplit, hframe⟩ := isFrame_of_indexOfBoundary hboundary
    refine ⟨?_, hframe⟩
    rw [List.append_assoc]
    exact hsplit
  · rintro ⟨rfl, hframe⟩
    rw [List.append_assoc]
    refine Option.map_eq_some_iff.mpr ⟨raw.length, indexOfBoundary_of_isFrame hframe rest, ?_⟩
    rw [List.take_left, ← List.drop_drop, List.drop_left]
    rfl

/-- The frames of a text are those of every division into frames. -/
theorem mem_drain_iff {text raw : Str} : raw ∈ (sseFraming.drain text).1 ↔
    ∃ (frames : List Str) (rest : Str), text = frames.flatMap (· ++ ['\n', '\n']) ++ rest ∧
      (∀ raw ∈ frames, IsFrame raw) ∧ raw ∈ frames := by
  constructor
  · intro hraw
    refine ⟨_, _, (Framing.flatMap_drain  ?_ text).symm,
      Framing.forall_mem_drain  ?_ text, hraw⟩
    · exact fun h => (cutFrame_eq_some_iff.mp h).1
    · exact fun h => (cutFrame_eq_some_iff.mp h).2
  · rintro ⟨frames, rest, rfl, hframes, hraw⟩
    have hcut : ∀ raw ∈ frames, ∀ rest,
        sseFraming.cut (raw ++ ['\n', '\n'] ++ rest) = some (raw, rest) :=
      fun raw hraw rest => cutFrame_eq_some_iff.mpr ⟨rfl, hframes raw hraw⟩
    rw [Framing.drain_flatMap_append hcut rest, List.map_id']
    exact List.mem_append_left _ hraw

/-! ### The done call -/

/-- The lines of a frame, read one after the other. -/
theorem foldl_readLine (lines : List Str) (event : Str) (dataLines : List Str) :
    lines.foldl readLine (event, dataLines) =
      ((lines.filterMap (dropStart eventLine)).getLast?.getD event,
        dataLines ++ lines.filterMap (dropStart dataLine)) := by
  induction lines generalizing event dataLines with
  | nil => simp
  | cons line lines ih =>
      rw [List.foldl_cons, List.filterMap_cons, List.filterMap_cons]
      cases hevent : dropStart eventLine line with
      | some name =>
          -- a line that begins with one of the fields does not begin with the other
          have hdata : dropStart dataLine line = none := by
            rw [dropStart_eq_some.mp hevent]
            rfl
          have hread : readLine (event, dataLines) line = (name, dataLines) := by
            simp only [readLine, hevent]
          rw [hread, ih, hdata, List.getLast?_cons, Option.getD_some]
      | none =>
          cases hdata : dropStart dataLine line with
          | some data =>
              have hread : readLine (event, dataLines) line = (event, dataLines ++ [data]) := by
                simp only [readLine, hevent, hdata]
              rw [hread, ih, List.append_assoc, List.singleton_append]
          | none =>
              have hread : readLine (event, dataLines) line = (event, dataLines) := by
                simp only [readLine, hevent, hdata]
              rw [hread, ih]

/-- The call of `onDone`. -/
def HandlerCall.isDone : HandlerCall → Bool
  | .onDone _ => true
  | .onToken _ | .onCitations _ => false

theorem property_eq_none {name : Str} {payload : Json} :
    property name payload = none ↔ payload = .null := by
  cases payload with
  | null => exact iff_of_true rfl rfl
  | _ => exact iff_of_false (fun hnone => by cases hnone) (fun hnull => by cases hnull)

theorem any_dispatchFrame_iff {frame : SseFrame} :
    (dispatchFrame json frame).any HandlerCall.isDone = true ↔
      frame.event = "done".toList ∧
        ∃ payload, json.parse frame.data = some payload ∧ payload ≠ .null := by
  unfold dispatchFrame
  cases hparse : json.parse frame.data with
  | none => simp
  | some payload =>
      simp only [Option.some.injEq, exists_eq_left']
      by_cases hdone : frame.event = "done".toList
      · have hnot : ¬frame.event = "token".toList ∧ ¬frame.event = "citations".toList := by
          rw [hdone]
          exact ⟨by decide, by decide⟩
        have hlength : (property "length".toList payload).isSome = true ↔ payload ≠ .null := by
          rw [← Option.ne_none_iff_isSome, ne_eq, property_eq_none]
        rw [if_neg hnot.1, if_neg hnot.2, if_pos hdone, and_iff_right hdone, ← hlength]
        cases property "length".toList payload <;> simp [HandlerCall.isDone]
      · rw [if_neg hdone, iff_false_right fun h => hdone h.1]
        split_ifs
        · cases property "text".toList payload <;> simp [HandlerCall.isDone]
        · cases property "citations".toList payload <;> simp [HandlerCall.isDone]
        · simp

theorem parseSseFrame_eq (raw : Str) : parseSseFrame raw =
    if fields dataLine raw = [] then none
    else some ⟨(fields eventLine raw).getLast?.getD "message".toList,
      ['\n'].intercalate (fields dataLine raw)⟩ := by
  unfold parseSseFrame
  rw [foldl_readLine]
  rfl

/-- Done frames are the frames that cause the call. -/
theorem any_dispatchRaw_iff {raw : Str} :
    (dispatchRaw json raw).any HandlerCall.isDone = true ↔ IsDone json raw := by
  have hlast : (fields eventLine raw).getLast?.getD "message".toList = "done".toList ↔
      (fields eventLine raw).getLast? = some "done".toList := by
    cases (fields eventLine raw).getLast? with
    | none => exact iff_of_false (by decide) (by decide)
    | some event => exact Option.some_inj.symm
  unfold dispatchRaw IsDone
  rw [parseSseFrame_eq]
  by_cases hdata : fields dataLine raw = []
  · rw [if_pos hdata]
    exact iff_of_false Bool.false_ne_true fun h => h.2.1 hdata
  · rw [if_neg hdata, ← hlast]
    refine any_dispatchFrame_iff.trans ?_
    exact ⟨fun h => ⟨h.1, hdata, h.2⟩, fun h => ⟨h.1, h.2.2⟩⟩

/-- A body has a done frame if its calls include the one of `onDone`. -/
theorem any_streamChatMessage_iff {reads : List (List UInt8)} :
    (streamChatMessage json reads).any HandlerCall.isDone = true ↔ HasDone json reads.flatten := by
  have hcalls : streamChatMessage json reads = (sseFraming.drain
      (TextDecoder.decode {} reads.flatten).2).1.flatMap (dispatchRaw json) :=
    @StreamReader.readAll_eq json {} rfl reads
  rw [hcalls, List.any_flatMap, List.any_eq_true]
  simp only [any_dispatchRaw_iff, mem_drain_iff]
  constructor
  · rintro ⟨raw, ⟨frames, rest, htext, hframes, hraw⟩, hdone⟩
    exact ⟨frames, rest, htext, hframes, raw, hraw, hdone⟩
  · rintro ⟨frames, rest, htext, hframes, raw, hraw, hdone⟩
    exact ⟨raw, ⟨frames, rest, htext, hframes, hraw⟩, hdone⟩

/-! ### The answer of the server -/

/-- An answer of the server, read at once. -/
theorem streamChatMessage_whole {events : List ChatEvent}
    (hjson : ∀ event ∈ events, json.Faithful event.data) :
    streamChatMessage json [encodeUtf8 (sseText json events)] = events.map callOf := by
  have hcalls := @StreamReader.readAll_eq json {} rfl [encodeUtf8 (sseText json events)]
  rw [List.flatten_singleton] at hcalls
  change streamChatMessage json _ = (sseFraming.drain (TextDecoder.decode {} _).2).1.flatMap _
    at hcalls
  rw [hcalls, decode_sseText hjson, drain_sseText hjson, List.flatMap_map, List.map_eq_flatMap]
  exact List.flatMap_congr fun event hevent => dispatchRaw_rawSse (hjson event hevent)

end Spec

end Web
