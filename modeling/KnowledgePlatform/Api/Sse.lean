import KnowledgePlatform.Core.Models

/-!
# Server-sent events of a chat

What `_sse` writes for the events of a chat turn.  JSON texts are left to the
two libraries that write and read them; `JsonText.Faithful` is what the stream
relies on: a text is printable ASCII, so that no line ends inside it, and
reading it gives the value back.
-/

open Core Python

namespace Api

inductive Json
  | null
  | bool (value : Bool)
  | number (value : ℚ)
  | string (value : Str)
  | array (items : List Json)
  | object (members : List (Str × Json))

/-- `json.dumps` of the server and `JSON.parse` of the client. -/
structure JsonText where
  dumps : Json → Str
  parse : Str → Option Json

structure JsonText.Faithful (json : JsonText) (value : Json) : Prop where
  ascii : ∀ c ∈ json.dumps value, 32 ≤ c.toNat ∧ c.toNat < 127
  parse : json.parse (json.dumps value) = some value

/-- What a chat turn tells the client. -/
inductive ChatEvent
  | token (text : Str)
  | citations (citations : List Citation)
  | done (length : ℕ)
  deriving DecidableEq

/-- `asdict(citation)` -/
def citationDict (citation : Citation) : Json :=
  .object [("marker".toList, .number citation.marker),
    ("chunk_id".toList, .string citation.chunkId),
    ("document_id".toList, .string citation.documentId),
    ("document_title".toList, .string citation.documentTitle),
    ("snippet".toList, .string citation.snippet)]

namespace ChatEvent

/-- The name an event is sent under. -/
def name : ChatEvent → Str
  | .token _ => "token".toList
  | citations _ => "citations".toList
  | .done _ => "done".toList

/-- The dictionary sent with an event. -/
def data : ChatEvent → Json
  | .token text => .object [("text".toList, .string text)]
  | citations found => .object [("citations".toList, .array (found.map citationDict))]
  | .done length => .object [("length".toList, .number length)]

end ChatEvent

def eventField : Str := "event: ".toList

def dataField : Str := "data: ".toList

/-- `_sse` -/
def sse (json : JsonText) (event : Str) (data : Json) : Str :=
  eventField ++ event ++ '\n' :: (dataField ++ json.dumps data ++ ['\n', '\n'])

/-- The text of a response that sends these events. -/
def sseText (json : JsonText) (events : List ChatEvent) : Str :=
  events.flatMap fun event => sse json event.name event.data

/-- The bytes of a response body. -/
def encodeUtf8 (text : Str) : List UInt8 := text.flatMap String.utf8EncodeChar

section Spec

theorem ChatEvent.newline_not_mem_name (event : ChatEvent) : '\n' ∉ event.name := by
  cases event with
  | token text => exact (by decide : '\n' ∉ "token".toList)
  | citations citations => exact (by decide : '\n' ∉ "citations".toList)
  | done length => exact (by decide : '\n' ∉ "done".toList)

theorem JsonText.Faithful.newline_not_mem {json : JsonText} {value : Json}
    (h : json.Faithful value) : '\n' ∉ json.dumps value := by
  intro hmem
  have hcode := (h.ascii '\n' hmem).1
  exact absurd hcode (by decide)

/-- A text of ASCII characters. -/
def isAscii (text : Str) : Bool := text.all fun c => c.toNat < 128

theorem ChatEvent.isAscii_name (event : ChatEvent) : isAscii event.name = true := by
  cases event with
  | token text => exact (by decide : isAscii "token".toList = true)
  | citations citations => exact (by decide : isAscii "citations".toList = true)
  | done length => exact (by decide : isAscii "done".toList = true)

theorem isAscii_append {first second : Str} :
    isAscii (first ++ second) = (isAscii first && isAscii second) := List.all_append

/-- An event with a faithful text is sent in ASCII. -/
theorem isAscii_sse {json : JsonText} {event : ChatEvent} (h : json.Faithful event.data) :
    isAscii (sse json event.name event.data) = true := by
  have hdata : isAscii (json.dumps event.data) = true := by
    unfold isAscii
    rw [List.all_eq_true]
    intro c hc
    have hcode := (h.ascii c hc).2
    exact decide_eq_true (by omega)
  have hname := event.isAscii_name
  have hbreak : ∀ text, isAscii ('\n' :: text) = isAscii text := fun _ => rfl
  rw [sse, isAscii_append, isAscii_append, hbreak, isAscii_append, isAscii_append, hdata, hname]
  decide

end Spec

end Api
