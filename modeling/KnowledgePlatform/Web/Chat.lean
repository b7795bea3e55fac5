import KnowledgePlatform.Api.Sse
import KnowledgePlatform.Foundations.Framing

/-!
# The chat stream in the web client

`streamChatMessage` reads the body of a response in pieces of any size, decodes
each with a streaming `TextDecoder`, and dispatches every complete frame of its
buffer to the handlers.

Whatever the pieces are, the handlers get the events that were sent, and the
first of them if the body ends early.
-/

open Api Core Foundations Python

namespace Web

/-! ## Decoding -/

/-- The state of a UTF-8 decoder between two bytes. -/
structure Utf8Decoder where
  codePoint : ℕ := 0
  bytesSeen : ℕ := 0
  bytesNeeded : ℕ := 0
  lowerBoundary : ℕ := 0x80
  upperBoundary : ℕ := 0xBF
  deriving DecidableEq

namespace Utf8Decoder

/-- What an invalid byte is decoded to. -/
def replacement : Char := '\uFFFD'

/-- A byte that begins a character. -/
def lead (byte : ℕ) : Utf8Decoder × Str :=
  if byte ≤ 0x7F then ({}, [Char.ofNat byte])
  else if 0xC2 ≤ byte ∧ byte ≤ 0xDF then ({ codePoint := byte % 0x20, bytesNeeded := 1 }, [])
  else if 0xE0 ≤ byte ∧ byte ≤ 0xEF then
    ({ codePoint := byte % 0x10
       bytesNeeded := 2
       lowerBoundary := if byte = 0xE0 then 0xA0 else 0x80
       upperBoundary := if byte = 0xED then 0x9F else 0xBF }, [])
  else if 0xF0 ≤ byte ∧ byte ≤ 0xF4 then
    ({ codePoint := byte % 0x8
       bytesNeeded := 3
       lowerBoundary := if byte = 0xF0 then 0x90 else 0x80
       upperBoundary := if byte = 0xF4 then 0x8F else 0xBF }, [])
  else ({}, [replacement])

def step (decoder : Utf8Decoder) (byte : ℕ) : Utf8Decoder × Str :=
  if decoder.bytesNeeded = 0 then lead byte
  else if byte < decoder.lowerBoundary ∨ decoder.upperBoundary < byte then
    -- the character is broken off, and the byte begins another one
    let (next, text) := lead byte
    (next, replacement :: text)
  else
    let codePoint := decoder.codePoint * 0x40 + byte % 0x40
    if decoder.bytesSeen + 1 = decoder.bytesNeeded then ({}, [Char.ofNat codePoint])
    else ({ codePoint, bytesSeen := decoder.bytesSeen + 1, bytesNeeded := decoder.bytesNeeded }, [])

end Utf8Decoder

/-- `new TextDecoder()`; a byte order mark at the start of the stream is dropped. -/
structure TextDecoder where
  utf8 : Utf8Decoder := {}
  bomSeen : Bool := false
  deriving DecidableEq

namespace TextDecoder

def byteOrderMark : Char := '\uFEFF'

/-- Emit decoded characters. -/
def emit (bomSeen : Bool) (text : Str) : Bool × Str :=
  match bomSeen, text with
  | false, c :: rest => (true, if c = byteOrderMark then rest else c :: rest)
  | _, _ => (bomSeen, text)

/-- `decoder.decode(value, { stream: true })` -/
def decode : TextDecoder → List UInt8 → TextDecoder × Str
  | decoder, [] => (decoder, [])
  | decoder, byte :: value =>
      let (utf8, decoded) := decoder.utf8.step byte.toNat
      let (bomSeen, text) := emit decoder.bomSeen decoded
      let (last, later) := decode ⟨utf8, bomSeen⟩ value
      (last, text ++ later)

end TextDecoder

/-! ## Frames -/

structure SseFrame where
  event : Str
  data : Str
  deriving DecidableEq

def eventLine : Str := "event: ".toList

def dataLine : Str := "data: ".toList

/-- What a line adds to the event and the data lines of a frame. -/
def readLine (frame : Str × List Str) (line : Str) : Str × List Str :=
  match dropStart eventLine line with
  | some event => (event, frame.2)
  | none =>
      match dropStart dataLine line with
      | some data => (frame.1, frame.2 ++ [data])
      | none => frame

def parseSseFrame (raw : Str) : Option SseFrame :=
  let (event, dataLines) := (raw.splitOn '\n').foldl readLine ("message".toList, [])
  if dataLines = [] then none else some ⟨event, ['\n'].intercalate dataLines⟩

/-- `buffer.indexOf('\n\n')` -/
def indexOfBoundary : Str → Option ℕ
  | c :: d :: rest =>
      if c = '\n' ∧ d = '\n' then some 0 else (indexOfBoundary (d :: rest)).map (· + 1)
  | _ => none

/-- Cut `buffer.slice(0, boundary)` off the buffer. -/
def cutFrame (buffer : Str) : Option (Str × Str) :=
  (indexOfBoundary buffer).map fun boundary => (buffer.take boundary, buffer.drop (boundary + 2))

/-! ## Dispatch -/

/-- A call of a handler with its argument; `none` is `undefined`. -/
inductive HandlerCall
  | onToken (text : Option Json)
  | onCitations (citations : Option Json)
  | onDone (length : Option Json)

/-- The length of a string, in UTF-16 code units. -/
def utf16Length (text : Str) : ℕ := (text.map fun c => if c.toNat < 0x10000 then 1 else 2).sum

/-- `payload.name`; reading a property of `null` throws. -/
def property (name : Str) : Json → Option (Option Json)
  | .null => none
  | .object members => some ((members.reverse.find? fun member => member.1 == name).map Prod.snd)
  | .array items => some (if name = "length".toList then some (.number items.length) else none)
  | .string text => some (if name = "length".toList then some (.number (utf16Length text)) else none)
  | .bool _ | .number _ => some none

/-- `dispatchFrame`; what throws is dropped. -/
def dispatchFrame (json : JsonText) (frame : SseFrame) : List HandlerCall :=
  match json.parse frame.data with
  | none => []
  | some payload =>
      if frame.event = "token".toList then
        ((property "text".toList payload).map HandlerCall.onToken).toList
      else if frame.event = "citations".toList then
        ((property "citations".toList payload).map HandlerCall.onCitations).toList
      else if frame.event = "done".toList then
        ((property "length".toList payload).map HandlerCall.onDone).toList
      else []

/-- What becomes of a raw frame. -/
def dispatchRaw (json : JsonText) (raw : Str) : List HandlerCall :=
  match parseSseFrame raw with
  | none => []
  | some frame => dispatchFrame json frame

/-! ## The read loop -/

theorem indexOfBoundary_eq_some {buffer : Str} {boundary : ℕ}
    (h : indexOfBoundary buffer = some boundary) :
    boundary + 2 ≤ buffer.length ∧
      ∀ later, indexOfBoundary (buffer ++ later) = some boundary := by
  induction buffer generalizing boundary with
  | nil => cases h
  | cons c buffer ih =>
      cases buffer with
      | nil => cases h
      | cons d rest =>
          simp only [indexOfBoundary, List.cons_append] at h ⊢
          split_ifs at h ⊢ with hboundary
          · cases h
            exact ⟨by simp, fun _ => rfl⟩
          · obtain ⟨earlier, hearlier, rfl⟩ := Option.map_eq_some_iff.mp h
            obtain ⟨hlength, hlater⟩ := ih hearlier
            refine ⟨by simp only [List.length_cons] at hlength ⊢; omega, fun later => ?_⟩
            have hrest := hlater later
            rw [List.cons_append] at hrest
            rw [hrest, Option.map_some]

theorem cutFrame_eq_some {buffer raw rest : Str} (h : cutFrame buffer = some (raw, rest)) :
    rest.length < buffer.length ∧
      ∀ later, cutFrame (buffer ++ later) = some (raw, rest ++ later) := by
  unfold cutFrame at h ⊢
  obtain ⟨boundary, hboundary, hcut⟩ := Option.map_eq_some_iff.mp h
  obtain ⟨hlength, hlater⟩ := indexOfBoundary_eq_some hboundary
  obtain ⟨rfl, rfl⟩ := Prod.mk.inj hcut
  refine ⟨by rw [List.length_drop]; omega, fun later => ?_⟩
  rw [hlater later, Option.map_some, List.take_append_of_le_length (by omega),
    List.drop_append_of_le_length hlength]

/-- The frames of a stream end with an empty line. -/
def sseFraming : Framing Char where
  cut := cutFrame
  cut_append := fun later h => (cutFrame_eq_some h).2 later
  length_rest := fun h => (cutFrame_eq_some h).1

/-- What the read loop keeps between two reads. -/
structure StreamReader where
  decoder : TextDecoder := {}
  buffer : Str := []

/-- One turn of the read loop: the calls it makes and what it keeps. -/
def StreamReader.read (json : JsonText) (reader : StreamReader) (value : List UInt8) :
    List HandlerCall × StreamReader :=
  let (decoder, text) := reader.decoder.decode value
  let (frames, buffer) := sseFraming.drain (reader.buffer ++ text)
  (frames.flatMap (dispatchRaw json), ⟨decoder, buffer⟩)

/-- The calls made for the reads of a body, until it is done or breaks off. -/
def StreamReader.readAll (json : JsonText) : StreamReader → List (List UInt8) → List HandlerCall
  | _, [] => []
  | reader, value :: values =>
      let (calls, reader) := reader.read json value
      calls ++ readAll json reader values

/-- The calls `streamChatMessage` makes for a body read in these pieces. -/
def streamChatMessage (json : JsonText) (reads : List (List UInt8)) : List HandlerCall :=
  StreamReader.readAll json {} reads

/-! ## The client gets what was sent -/

/-- The call an event is meant to cause. -/
def callOf : ChatEvent → HandlerCall
  | .token text => .onToken (some (.string text))
  | .citations citations => .onCitations (some (.array (citations.map citationDict)))
  | .done length => .onDone (some (.number length))

section Spec

theorem TextDecoder.decode_append (decoder : TextDecoder) (first second : List UInt8) :
    decoder.decode (first ++ second) =
      (((decoder.decode first).1.decode second).1,
        (decoder.decode first).2 ++ ((decoder.decode first).1.decode second).2) := by
  induction first generalizing decoder with
  | nil => rfl
  | cons byte first ih => simp only [List.cons_append, decode, ih, List.append_assoc]

theorem utf8EncodeChar_of_lt {c : Char} (hc : c.toNat < 128) :
    String.utf8EncodeChar c = [UInt8.ofNat c.toNat] := by
  unfold String.utf8EncodeChar
  exact if_pos (by change c.toNat ≤ 127; omega)

/-- ASCII is decoded byte by byte. -/
theorem TextDecoder.decode_encodeUtf8 {text : Str} (htext : isAscii text = true) (bomSeen : Bool) :
    (TextDecoder.decode ⟨{}, bomSeen⟩ (encodeUtf8 text)).2 = text := by
  induction text generalizing bomSeen with
  | nil => rfl
  | cons c text ih =>
      obtain ⟨hc, hrest⟩ : c.toNat < 128 ∧ isAscii text = true := by
        simpa [isAscii] using htext
      have hbyte : (UInt8.ofNat c.toNat).toNat = c.toNat := by
        rw [UInt8.toNat_ofNat']
        omega
      have hstep : Utf8Decoder.step {} c.toNat = ({}, [c]) := by
        have hle : c.toNat ≤ 0x7F := by omega
        rw [Utf8Decoder.step, if_pos rfl, Utf8Decoder.lead, if_pos hle, Char.ofNat_toNat]
      have hmark : c ≠ byteOrderMark := by
        rintro rfl
        exact absurd hc (by decide)
      have hemit : emit bomSeen [c] = (true, [c]) := by
        cases bomSeen with
        | false => simp only [emit, if_neg hmark]
        | true => rfl
      have hencode : encodeUtf8 (c :: text) = UInt8.ofNat c.toNat :: encodeUtf8 text := by
        simp only [encodeUtf8, List.flatMap_cons, utf8EncodeChar_of_lt hc, List.singleton_append]
      rw [hencode]
      simp only [decode, hbyte, hstep, hemit, ih hrest true, List.singleton_append]

/-- The texts the reads are decoded to. -/
def TextDecoder.decodeAll : TextDecoder → List (List UInt8) → List Str
  | _, [] => []
  | decoder, value :: values =>
      (decoder.decode value).2 :: decodeAll (decoder.decode value).1 values

theorem TextDecoder.flatten_decodeAll (decoder : TextDecoder) (reads : List (List UInt8)) :
    (decoder.decodeAll reads).flatten = (decoder.decode reads.flatten).2 := by
  induction reads generalizing decoder with
  | nil => rfl
  | cons value reads ih =>
      rw [decodeAll, List.flatten_cons, List.flatten_cons, decode_append, ih]

/-- The reader feeds the texts to the framing. -/
theorem StreamReader.readAll_eq_feed (json : JsonText) (reader : StreamReader)
    (reads : List (List UInt8)) :
    reader.readAll json reads =
      (sseFraming.feed reader.buffer (reader.decoder.decodeAll reads)).1.flatMap
        (dispatchRaw json) := by
  induction reads generalizing reader with
  | nil => rfl
  | cons value reads ih =>
      simp only [readAll, read, ih, TextDecoder.decodeAll, Framing.feed, List.flatMap_append]

/-- The calls made for the reads are those for the frames of the whole body. -/
theorem StreamReader.readAll_eq (json : JsonText) {reader : StreamReader}
    (hbuffer : cutFrame reader.buffer = none) (reads : List (List UInt8)) :
    reader.readAll json reads =
      (sseFraming.drain (reader.buffer ++ (reader.decoder.decode reads.flatten).2)).1.flatMap
        (dispatchRaw json) := by
  rw [readAll_eq_feed, Framing.feed_eq_drain hbuffer, TextDecoder.flatten_decodeAll]

/-! ### Frames -/

/-- The text of an event without the empty line that ends it. -/
def rawSse (json : JsonText) (event : ChatEvent) : Str :=
  (eventField ++ event.name) ++ '\n' :: (dataField ++ json.dumps event.data)

theorem sse_eq_rawSse (json : JsonText) (event : ChatEvent) :
    sse json event.name event.data = rawSse json event ++ ['\n', '\n'] := by
  simp only [sse, rawSse, List.append_assoc, List.cons_append]

/-- No boundary begins in a line. -/
theorem indexOfBoundary_line {line : Str} (hline : '\n' ∉ line) (rest : Str) :
    indexOfBoundary (line ++ rest) = (indexOfBoundary rest).map (· + line.length) := by
  induction line with
  | nil => simp
  | cons c line ih =>
      have hne : ¬(c = '\n') := fun h => hline (h ▸ List.mem_cons_self)
      have hskip : ∀ text, indexOfBoundary (c :: text) = (indexOfBoundary text).map (· + 1) := by
        intro text
        cases text with
        | nil => rfl
        | cons d text => rw [indexOfBoundary, if_neg (fun h => hne h.1)]
      rw [List.cons_append, hskip, ih (fun h => hline (List.mem_cons_of_mem _ h)), Option.map_map]
      rfl

/-- No boundary begins at the end of a line that another one follows. -/
theorem indexOfBoundary_newline {line : Str} (hline : '\n' ∉ line) (hne : line ≠ [])
    (rest : Str) :
    indexOfBoundary ('\n' :: (line ++ rest)) = (indexOfBoundary (line ++ rest)).map (· + 1) := by
  cases line with
  | nil => exact absurd rfl hne
  | cons c line =>
      have hc : ¬(c = '\n') := fun h => hline (h ▸ List.mem_cons_self)
      rw [List.cons_append, indexOfBoundary, if_neg (fun h => hc h.2)]

theorem newline_not_mem_eventLine (event : ChatEvent) : '\n' ∉ eventField ++ event.name :=
  List.not_mem_append (by decide) event.newline_not_mem_name

theorem newline_not_mem_dataLine {json : JsonText} {value : Json} (hjson : json.Faithful value) :
    '\n' ∉ dataField ++ json.dumps value :=
  List.not_mem_append (by decide) hjson.newline_not_mem

/-- An event at the front of the buffer is cut off as a frame. -/
theorem cutFrame_sse {json : JsonText} {event : ChatEvent} (hjson : json.Faithful event.data)
    (rest : Str) : cutFrame (sse json event.name event.data ++ rest) =
      some (rawSse json event, rest) := by
  have hdata := newline_not_mem_dataLine hjson
  have htext : sse json event.name event.data ++ rest =
      rawSse json event ++ ('\n' :: '\n' :: rest) := by
    rw [sse_eq_rawSse, List.append_assoc]
    rfl
  have hboundary : indexOfBoundary (rawSse json event ++ ('\n' :: '\n' :: rest)) =
      some (rawSse json event).length := by
    rw [rawSse, List.append_assoc, indexOfBoundary_line (newline_not_mem_eventLine event),
      List.cons_append, indexOfBoundary_newline hdata (by simp [dataField]),
      indexOfBoundary_line hdata, indexOfBoundary, if_pos ⟨rfl, rfl⟩]
    simp only [Option.map_some, Option.some.injEq, List.length_append, List.length_cons]
    omega
  rw [htext, cutFrame, hboundary, Option.map_some, List.take_left, ← List.drop_drop,
    List.drop_left]
  rfl

/-- A frame is read back as the event it was made from. -/
theorem parseSseFrame_rawSse {json : JsonText} {event : ChatEvent}
    (hjson : json.Faithful event.data) :
    parseSseFrame (rawSse json event) = some ⟨event.name, json.dumps event.data⟩ := by
  have hlines : (rawSse json event).splitOn '\n' =
      [eventField ++ event.name, dataField ++ json.dumps event.data] := by
    have hjoin : rawSse json event = ['\n'].intercalate
        [eventField ++ event.name, dataField ++ json.dumps event.data] := by
      simp [rawSse]
    rw [hjoin]
    refine List.splitOn_intercalate '\n' (fun line hline => ?_) (List.cons_ne_nil _ _)
    rcases List.mem_cons.mp hline with rfl | hline
    · exact newline_not_mem_eventLine event
    · rw [List.mem_singleton.mp hline]
      exact newline_not_mem_dataLine hjson
  have hevent : dropStart eventLine (eventField ++ event.name) = some event.name :=
    dropStart_eq_some.mpr rfl
  have hnot : dropStart eventLine (dataField ++ json.dumps event.data) = none := rfl
  have hdata : dropStart dataLine (dataField ++ json.dumps event.data) =
      some (json.dumps event.data) := dropStart_eq_some.mpr rfl
  have hjoin : ['\n'].intercalate [json.dumps event.data] = json.dumps event.data := by simp
  simp only [parseSseFrame, hlines, List.foldl_cons, List.foldl_nil, readLine, hevent, hnot, hdata,
    List.nil_append, hjoin, if_neg (List.cons_ne_nil _ _)]

/-- An event causes its call. -/
theorem dispatchRaw_rawSse {json : JsonText} {event : ChatEvent}
    (hjson : json.Faithful event.data) : dispatchRaw json (rawSse json event) = [callOf event] := by
  rw [dispatchRaw, parseSseFrame_rawSse hjson]
  simp only [dispatchFrame, hjson.parse]
  cases event with
  | token text => rfl
  | citations citations => rfl
  | done length => rfl

/-- The frames of a body are its events. -/
theorem drain_sseText {json : JsonText} {events : List ChatEvent}
    (hjson : ∀ event ∈ events, json.Faithful event.data) :
    sseFraming.drain (sseText json events) = (events.map (rawSse json), []) :=
  Framing.drain_flatMap (fun event hevent rest => cutFrame_sse (hjson event hevent) rest) rfl

theorem decode_sseText {json : JsonText} {events : List ChatEvent}
    (hjson : ∀ event ∈ events, json.Faithful event.data) :
    (TextDecoder.decode {} (encodeUtf8 (sseText json events))).2 = sseText json events := by
  refine TextDecoder.decode_encodeUtf8 ?_ false
  rw [sseText, isAscii, List.all_flatMap]
  exact List.all_eq_true.mpr fun event hevent => isAscii_sse (hjson event hevent)

/-- However a body is read, the handlers get the events that were sent, in order
and with their data; of a body that ends early they get the first ones. -/
theorem streamChatMessage_sse {json : JsonText} {events : List ChatEvent}
    (hjson : ∀ event ∈ events, json.Faithful event.data) {reads : List (List UInt8)}
    (hreads : reads.flatten <+: encodeUtf8 (sseText json events)) :
    streamChatMessage json reads <+: events.map callOf ∧
      (reads.flatten = encodeUtf8 (sseText json events) →
        streamChatMessage json reads = events.map callOf) := by
  have hcalls : streamChatMessage json reads = (sseFraming.drain
      (TextDecoder.decode {} reads.flatten).2).1.flatMap (dispatchRaw json) :=
    @StreamReader.readAll_eq json {} rfl reads
  have hwhole : (sseFraming.drain (sseText json events)).1.flatMap (dispatchRaw json) =
      events.map callOf := by
    rw [drain_sseText hjson, List.flatMap_map, List.map_eq_flatMap]
    exact List.flatMap_congr fun event hevent => dispatchRaw_rawSse (hjson event hevent)
  constructor
  · obtain ⟨missing, hmissing⟩ := hreads
    have hreceived : (TextDecoder.decode {} reads.flatten).2 <+: sseText json events := by
      rw [← decode_sseText hjson, ← hmissing, TextDecoder.decode_append]
      exact List.prefix_append _ _
    obtain ⟨later, hlater⟩ := @Framing.drain_prefix _ sseFraming _ _ hreceived
    rw [hcalls, ← hwhole, ← hlater, List.flatMap_append]
    exact List.prefix_append _ _
  · intro hcomplete
    rw [hcalls, hcomplete, decode_sseText hjson, hwhole]

end Spec

/-! ### A token with line breaks, read byte by byte -/

def sampleEvents : List ChatEvent := [.token "a\n\ndata: b".toList, .done 9]

/-- The texts of the sample's dictionaries. -/
def sampleDumps : Json → Str
  | .object [(_, .string _)] => "\x7b\"text\": \"a\\n\\ndata: b\"\x7d".toList
  | .object [(_, .number _)] => "\x7b\"length\": 9\x7d".toList
  | _ => "null".toList

/-- How they are parsed. -/
def sampleParse (text : Str) : Option Json :=
  if text = sampleDumps (ChatEvent.token "a\n\ndata: b".toList).data then
    some (ChatEvent.token "a\n\ndata: b".toList).data
  else if text = sampleDumps (ChatEvent.done 9).data then some (ChatEvent.done 9).data
  else none

def sampleJson : JsonText := ⟨sampleDumps, sampleParse⟩

theorem faithful_sampleJson : ∀ event ∈ sampleEvents, sampleJson.Faithful event.data := by
  have hascii : sampleEvents.all (fun event => (sampleDumps event.data).all fun c =>
      32 ≤ c.toNat && c.toNat < 127) = true := by decide +kernel
  intro event hevent
  refine ⟨fun c hc => ?_, ?_⟩
  · have hc := List.all_eq_true.mp (List.all_eq_true.mp hascii event hevent) c hc
    simpa only [Bool.and_eq_true, decide_eq_true_eq] using hc
  · rcases List.mem_cons.mp hevent with rfl | hevent
    · simp only [sampleJson, sampleParse, if_pos]
    · cases List.mem_singleton.mp hevent
      have hne : ¬(sampleDumps (ChatEvent.done 9).data =
          sampleDumps (ChatEvent.token "a\n\ndata: b".toList).data) := by decide +kernel
      simp only [sampleJson, sampleParse, if_neg hne, if_pos]

/-- The body may arrive one byte at a time. -/
theorem streamChatMessage_sse_bytewise :
    streamChatMessage sampleJson
      ((encodeUtf8 (sseText sampleJson sampleEvents)).map fun byte => [byte]) =
        sampleEvents.map callOf := by
  have hflatten : ((encodeUtf8 (sseText sampleJson sampleEvents)).map
      fun byte => [byte]).flatten = encodeUtf8 (sseText sampleJson sampleEvents) := by
    rw [← List.flatMap_def, ← List.map_eq_flatMap, List.map_id']
  exact (streamChatMessage_sse faithful_sampleJson (hflatten ▸ List.prefix_rfl)).2 hflatten

end Web
