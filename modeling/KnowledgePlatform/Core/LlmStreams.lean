import KnowledgePlatform.Api.Sse
import KnowledgePlatform.Foundations.Generators

/-!
# Answers of the vendors

`OpenAILLMProvider` and `GeminiLLMProvider` post the conversation and read the
answer from the lines of the response: each line with a chunk is loaded, the token
counts it reports are taken over and the texts it carries are yielded.  `httpx`,
`json.loads` and the vendor are parameters.

A chunk is a JSON value of any shape, and the code reaches into it with `get` and
`for`.  The abstract side is a path: `select` is what lies at the end of it, `Fits`
says that no step of it raises.  With these a `Wire` says where a vendor puts its
texts and counts, and which line ends its stream.  `OpenAILLMProvider.does_astream`
and `GeminiLLMProvider.does_astream` connect the two: a stream returns if and only if
it is complete, and then it has yielded its contents, in order, with the counts
reported last.  What it yields before it raises is a beginning of the contents.
-/

open Foundations Python

namespace Api.Json

/-- `bool(value)` -/
def truthy : Json → Bool
  | .null => false
  | .bool value => value
  | .number value => value ≠ 0
  | .string value => !value.isEmpty
  | .array items => !items.isEmpty
  | .object members => !members.isEmpty

/-- `value.get(name, default)`.  Of several members with one name the last counts. -/
def get (value : Json) (name : Str) (default : Json) : Except Str Json :=
  match value with
  | .object members =>
      .ok (((members.reverse.find? fun member => member.1 = name).map Prod.snd).getD default)
  | _ => .error "AttributeError".toList

/-- What a `for` loop over a value goes through. -/
def elements : Json → Except Str (List Json)
  | .string value => .ok (value.map fun c => .string [c])
  | .array items => .ok items
  | .object members => .ok ((members.map Prod.fst).eraseDups.map .string)
  | _ => .error "TypeError".toList

end Api.Json

open Api

namespace Core

/-! ## Requests and responses -/

/-- What `client.stream("POST", ...)` is given. -/
structure StreamRequest where
  url : Str
  headers : List (Str × Str)
  params : List (Str × Str)
  json : Json

/-- A response: how connecting and `raise_for_status` come out, the lines of the
body, and the exception that cuts them off, if any. -/
structure StreamResponse where
  status : Except Str Unit
  lines : List Str
  dropped : Option Str

/-- `response.aiter_lines()` -/
def StreamResponse.reads (response : StreamResponse) : List (Except Str Str) :=
  response.lines.map .ok ++ response.dropped.toList.map .error

/-- The counts of a `UsageAccumulator`, as they are found in the chunks. -/
structure TokenCounts where
  inputTokens : Json := .number 0
  outputTokens : Json := .number 0

/-- The generators of the providers, over the accumulator they fill in. -/
abbrev LlmStream (α : Type) := Generator Json TokenCounts Str α

open Generator

/-- Take over the counts a chunk reports, if `usage` was given. -/
def countUsage (counted : Bool) (usage inputTokens outputTokens : Str) (chunk : Json) :
    LlmStream Unit :=
  if counted then do
    let chunkUsage ← ofExcept (chunk.get usage .null)
    if chunkUsage.truthy then do
      let input ← ofExcept (chunkUsage.get inputTokens (.number 0))
      update fun counts => { counts with inputTokens := input }
      let output ← ofExcept (chunkUsage.get outputTokens (.number 0))
      update fun counts => { counts with outputTokens := output }
    else pure ()
  else pure ()

/-- `m["role"]` and `m["content"]` of a message. -/
def messageDict (message : MessageRole × Str) : Json :=
  .object [("role".toList, .string message.1.value), ("content".toList, .string message.2)]

/-! ## The providers -/

structure OpenAILLMProvider where
  apiKey : Str
  model : Str
  maxTokens : ℕ
  baseUrl : Str

namespace OpenAILLMProvider

def name : Str := "openai".toList

/-- The request of `astream`. -/
def request (provider : OpenAILLMProvider) (system : Str) (messages : List (MessageRole × Str)) :
    StreamRequest where
  url := provider.baseUrl.rdropWhile (· = '/') ++ "/chat/completions".toList
  headers := [("Authorization".toList, "Bearer ".toList ++ provider.apiKey)]
  params := []
  json := .object [("model".toList, .string provider.model),
    ("max_tokens".toList, .number provider.maxTokens),
    ("stream".toList, .bool true),
    ("stream_options".toList, .object [("include_usage".toList, .bool true)]),
    ("messages".toList, .array (.object [("role".toList, .string "system".toList),
      ("content".toList, .string system)] :: messages.map messageDict))]

/-- The texts of a chunk. -/
def yieldChoices (chunk : Json) : LlmStream Unit := do
  let choices ← ofExcept (chunk.get "choices".toList (.array []))
  for choice in ← ofExcept choices.elements do
    let delta ← ofExcept (choice.get "delta".toList (.object []))
    let content ← ofExcept (delta.get "content".toList .null)
    if content.truthy then yield content

/-- `_gen` of `astream` -/
def astream (loads : Str → Except Str Json) (counted : Bool) (response : StreamResponse) :
    LlmStream Unit := do
  ofExcept response.status
  for read in response.reads do
    let line ← ofExcept read
    match dropStart dataField line with
    | none => continue
    | some data =>
      if data = "[DONE]".toList then break
      let chunk ← ofExcept (loads data)
      countUsage counted "usage".toList "prompt_tokens".toList "completion_tokens".toList chunk
      yieldChoices chunk

end OpenAILLMProvider

/-- `to_gemini_contents` -/
def toGeminiContents (messages : List (MessageRole × Str)) : List Json :=
  messages.map fun message =>
    .object [("role".toList, .string (if message.1 = .assistant then "model".toList
        else "user".toList)),
      ("parts".toList, .array [.object [("text".toList, .string message.2)]])]

structure GeminiLLMProvider where
  apiKey : Str
  model : Str
  maxTokens : ℕ
  baseUrl : Str

namespace GeminiLLMProvider

def name : Str := "gemini".toList

/-- The request of `astream`. -/
def request (provider : GeminiLLMProvider) (system : Str) (messages : List (MessageRole × Str)) :
    StreamRequest where
  url := provider.baseUrl.rdropWhile (· = '/') ++ "/models/".toList ++ provider.model ++
    ":streamGenerateContent".toList
  headers := []
  params := [("alt".toList, "sse".toList), ("key".toList, provider.apiKey)]
  json := .object [("contents".toList, .array (toGeminiContents messages)),
    ("systemInstruction".toList,
      .object [("parts".toList, .array [.object [("text".toList, .string system)]])]),
    ("generationConfig".toList,
      .object [("maxOutputTokens".toList, .number provider.maxTokens)])]

/-- The texts of a chunk. -/
def yieldCandidates (chunk : Json) : LlmStream Unit := do
  let candidates ← ofExcept (chunk.get "candidates".toList (.array []))
  for candidate in ← ofExcept candidates.elements do
    let content ← ofExcept (candidate.get "content".toList (.object []))
    let parts ← ofExcept (content.get "parts".toList (.array []))
    for part in ← ofExcept parts.elements do
      let text ← ofExcept (part.get "text".toList .null)
      if text.truthy then yield text

/-- `_gen` of `astream` -/
def astream (loads : Str → Except Str Json) (counted : Bool) (response : StreamResponse) :
    LlmStream Unit := do
  ofExcept response.status
  for read in response.reads do
    let line ← ofExcept read
    match dropStart dataField line with
    | none => continue
    | some data =>
      let chunk ← ofExcept (loads data)
      -- every chunk reports a running total
      countUsage counted "usageMetadata".toList "promptTokenCount".toList
        "candidatesTokenCount".toList chunk
      yieldCandidates chunk

end GeminiLLMProvider

/-! ## Paths into a value -/

/-- A step into a value. -/
inductive JsonStep
  | member (name : Str) (default : Json)
  | each

/-- No step along the path raises. -/
def Fits : List JsonStep → Json → Prop
  | [], _ => True
  | .member name default :: path, value =>
      ∃ found, value.get name default = .ok found ∧ Fits path found
  | .each :: path, value => ∃ items, value.elements = .ok items ∧ ∀ item ∈ items, Fits path item

/-- What lies at the end of a path, unless it counts as false. -/
def select : List JsonStep → Json → List Json
  | [], value => if value.truthy then [value] else []
  | .member name default :: path, value =>
      match value.get name default with
      | .ok found => select path found
      | .error _ => []
  | .each :: path, value =>
      match value.elements with
      | .ok items => items.flatMap (select path)
      | .error _ => []

section Paths

variable {α : Type} {result : α} {value : Json} {path : List JsonStep}

/-- Reaching for a member is the first step of a path. -/
theorem does_member {name : Str} {default : Json} {next : Json → LlmStream α}
    (hnext : ∀ found, (next found).Does result (Fits path found) (select path found) id) :
    (ofExcept (value.get name default) >>= next).Does result
      (Fits (.member name default :: path) value) (select (.member name default :: path) value)
      id := by
  refine Does.attempt ?_ ?_
  · intro found hfound
    simp only [Fits, select, hfound]
    exact (hnext found).congr
      ⟨fun h => ⟨found, rfl, h⟩, fun ⟨_, hsame, h⟩ => by cases hsame; exact h⟩
  · rintro fault hfault ⟨found, hfound, _⟩
    rw [hfault] at hfound
    cases hfound

/-- Going through a value is the first step of a path. -/
theorem does_each {body : Json → PUnit → LlmStream (ForInStep PUnit)}
    (hbody : ∀ item, (body item ⟨⟩).Does (.yield ⟨⟩) (Fits path item) (select path item) id) :
    (ofExcept value.elements >>= fun items => do
      forIn items PUnit.unit body
      pure result).Does result (Fits (.each :: path) value) (select (.each :: path) value) id := by
  refine Does.attempt ?_ ?_
  · intro items hitems
    simp only [Fits, select, hitems]
    have hloop : Does (forIn items PUnit.unit body) ⟨⟩ (∀ item ∈ items, Fits path item)
        (items.flatMap (select path)) (changes (fun _ => id) items) :=
      Does.each fun item _ => hbody item
    rw [changes_id] at hloop
    exact (hloop.returning result).congr
      ⟨fun h => ⟨items, rfl, h⟩, fun ⟨_, hsame, h⟩ => by cases hsame; exact h⟩
  · rintro fault hfault ⟨items, hitems, _⟩
    rw [hfault] at hitems
    cases hitems

/-- A value that does not count as false is yielded. -/
theorem does_yield : (if value.truthy then do
      yield value
      pure result
    else pure result : LlmStream α).Does result (Fits [] value) (select [] value) id := by
  unfold Fits select
  split
  · exact (Does.of_yield value).returning result
  · exact Does.of_pure

end Paths

/-! ## What a response says -/

/-- Where a vendor puts its texts and its token counts, and the data that ends its
stream. -/
structure Wire where
  stop : Option Str
  usage : Str
  inputTokens : Str
  outputTokens : Str
  texts : List JsonStep

namespace Wire

variable (wire : Wire) (loads : Str → Except Str Json) (counted : Bool)

/-- The counts a chunk reports, if they are asked for. -/
def reported (chunk : Json) : Option TokenCounts :=
  if counted then
    match chunk.get wire.usage .null with
    | .ok usage =>
        if usage.truthy then
          match usage.get wire.inputTokens (.number 0), usage.get wire.outputTokens (.number 0) with
          | .ok inputTokens, .ok outputTokens => some ⟨inputTokens, outputTokens⟩
          | _, _ => none
        else none
    | .error _ => none
  else none

/-- The counts can be read from a chunk, if they are asked for. -/
def Countable (chunk : Json) : Prop :=
  counted = true → ∃ usage, chunk.get wire.usage .null = .ok usage ∧
    (usage.truthy = true → ∃ members, usage = .object members)

/-- A chunk from which the counts and the texts can be read. -/
structure Shapes (chunk : Json) : Prop where
  countable : wire.Countable counted chunk
  texts : Fits wire.texts chunk

/-- What the loop does with a line: without data it passes over it, and at the end
of the stream it stops. -/
def pass : Except Str Str → Pass (Except Str Str)
  | .error fault => .take (.error fault)
  | .ok line =>
      match dropStart dataField line with
      | none => .skip
      | some data => if wire.stop = some data then .stop else .take (.ok data)

/-- The data of a response up to its end, or up to the exception that cut it off. -/
def frames (response : StreamResponse) : List (Except Str Str) := taken wire.pass response.reads

/-- The texts that the chunk of a line carries. -/
def textsOf (frame : Except Str Str) : List Json :=
  match frame >>= loads with
  | .ok chunk => select wire.texts chunk
  | .error _ => []

/-- The counts that the chunk of a line reports. -/
def reportedBy (frame : Except Str Str) : Option TokenCounts :=
  match frame >>= loads with
  | .ok chunk => wire.reported counted chunk
  | .error _ => none

/-- A response from which all data can be read. -/
structure Complete (response : StreamResponse) : Prop where
  status : response.status = .ok ()
  frames : ∀ frame ∈ wire.frames response, ∃ chunk, frame >>= loads = .ok chunk ∧
    wire.Shapes counted chunk

/-- The texts of a response. -/
def contents (response : StreamResponse) : List Json :=
  (wire.frames response).flatMap (wire.textsOf loads)

/-- The counts reported last, or else the ones before. -/
def counts (response : StreamResponse) (before : TokenCounts) : TokenCounts :=
  ((wire.frames response).filterMap (wire.reportedBy loads counted)).getLast?.getD before

variable {wire loads counted}

theorem does_countUsage (chunk : Json) :
    (countUsage counted wire.usage wire.inputTokens wire.outputTokens chunk).Does ()
      (wire.Countable counted chunk) [] (wire.reported counted chunk).getD := by
  unfold countUsage reported Countable
  cases counted with
  | false => exact Does.of_pure.congr (by simp)
  | true =>
      simp only [if_true, forall_const]
      refine Does.attempt ?_ ?_
      · intro usage husage
        simp only [husage, Except.ok.injEq, exists_eq_left']
        by_cases htruthy : usage.truthy = true
        · simp only [htruthy, if_true, forall_const]
          cases usage with
          | object members => exact fun _ => .inl ⟨⟨members, rfl⟩, rfl⟩
          | _ => exact (Does.of_raise _ _ _).congr (by simp)
        · simp only [htruthy]
          exact Does.of_pure.congr (by simp)
      · rintro fault hfault ⟨usage, husage, _⟩
        rw [hfault] at husage
        cases husage

/-- The chunk of a line is loaded, counted and yielded. -/
theorem does_chunk {texts : Json → LlmStream Unit}
    (htexts : ∀ chunk, (texts chunk).Does () (Fits wire.texts chunk) (select wire.texts chunk) id)
    (data : Str) : (do
      let chunk ← ofExcept (loads data)
      countUsage counted wire.usage wire.inputTokens wire.outputTokens chunk
      texts chunk
      pure (.yield ⟨⟩) : LlmStream (ForInStep PUnit)).Does (.yield ⟨⟩)
        (∃ chunk, loads data = .ok chunk ∧ wire.Shapes counted chunk)
        (wire.textsOf loads (.ok data)) (wire.reportedBy loads counted (.ok data)).getD := by
  refine Does.attempt ?_ ?_
  · intro chunk hchunk
    have htextsOf : wire.textsOf loads (.ok data) = select wire.texts chunk := by
      show (match loads data with | .ok chunk => _ | .error _ => _) = _
      rw [hchunk]
    have hreported : wire.reportedBy loads counted (.ok data) = wire.reported counted chunk := by
      show (match loads data with | .ok chunk => _ | .error _ => _) = _
      rw [hchunk]
    rw [htextsOf, hreported]
    refine Does.congr
      (?_ : Does _ _ (wire.Countable counted chunk ∧ Fits wire.texts chunk) _ _) ?_
    · show Does _ _ _ ([] ++ select wire.texts chunk) (id ∘ (wire.reported counted chunk).getD)
      refine (does_countUsage chunk).bind ?_
      exact (htexts chunk).returning (ForInStep.yield PUnit.unit)
    · constructor
      · rintro ⟨hcountable, hfits⟩
        exact ⟨chunk, hchunk, hcountable, hfits⟩
      · rintro ⟨_, hsame, hshapes⟩
        cases hchunk.symm.trans hsame
        exact ⟨hshapes.countable, hshapes.texts⟩
  · rintro fault hfault ⟨chunk, hchunk, _⟩
    rw [hfault] at hchunk
    cases hchunk

/-- A loop over the lines of a response that does this with each. -/
theorem does_lines (response : StreamResponse)
    {body : Except Str Str → PUnit → LlmStream (ForInStep PUnit)}
    (hfault : ∀ fault, body (.error fault) ⟨⟩ = raise fault)
    (hskip : ∀ line, dropStart dataField line = none → body (.ok line) ⟨⟩ = pure (.yield ⟨⟩))
    (hstop : ∀ line data, dropStart dataField line = some data → wire.stop = some data →
      body (.ok line) ⟨⟩ = pure (.done ⟨⟩))
    (hdata : ∀ line data, dropStart dataField line = some data → wire.stop ≠ some data →
      (body (.ok line) ⟨⟩).Does (.yield ⟨⟩)
        (∃ chunk, loads data = .ok chunk ∧ wire.Shapes counted chunk)
        (wire.textsOf loads (.ok data)) (wire.reportedBy loads counted (.ok data)).getD) :
    (do
      ofExcept response.status
      forIn response.reads PUnit.unit body
      pure () : LlmStream Unit).Does () (wire.Complete loads counted response)
        (wire.contents loads response) (wire.counts loads counted response) := by
  have hloop : Does (forIn response.reads PUnit.unit body) ⟨⟩
      (∀ frame ∈ wire.frames response, ∃ chunk, frame >>= loads = .ok chunk ∧
        wire.Shapes counted chunk) (wire.contents loads response)
      (changes (fun frame => (wire.reportedBy loads counted frame).getD)
        (wire.frames response)) := by
    refine Does.scan wire.pass ?_ ?_ ?_
    · rintro (fault | line) hpass
      · cases hpass
      · simp only [pass] at hpass
        split at hpass
        · next hline =>
            rw [hskip line hline]
            exact Does.of_pure
        · split_ifs at hpass
    · rintro (fault | line) hpass
      · cases hpass
      · simp only [pass] at hpass
        split at hpass
        · cases hpass
        · next data hline =>
            split_ifs at hpass with hends
            rw [hstop line data hline hends]
            exact Does.of_pure
    · rintro (fault | line) frame hpass
      · cases hpass
        rw [hfault]
        refine (Does.of_raise _ _ _).congr ⟨False.elim, ?_⟩
        rintro ⟨_, hchunk, _⟩
        cases hchunk
      · simp only [pass] at hpass
        split at hpass
        · cases hpass
        · next data hline =>
            split_ifs at hpass with hends
            cases hpass
            exact hdata line data hline hends
  rw [changes_getD] at hloop
  refine Does.attempt ?_ ?_
  · intro _ hstatus
    exact (hloop.returning ()).congr ⟨fun hframes => ⟨hstatus, hframes⟩, Complete.frames⟩
  · intro fault hstatus hcomplete
    rw [hcomplete.status] at hstatus
    cases hstatus

end Wire

/-- The stream of chat completions. -/
def openaiWire : Wire where
  stop := some "[DONE]".toList
  usage := "usage".toList
  inputTokens := "prompt_tokens".toList
  outputTokens := "completion_tokens".toList
  texts := [.member "choices".toList (.array []), .each, .member "delta".toList (.object []),
    .member "content".toList .null]

/-- The stream of `streamGenerateContent`, which ends with the body. -/
def geminiWire : Wire where
  stop := none
  usage := "usageMetadata".toList
  inputTokens := "promptTokenCount".toList
  outputTokens := "candidatesTokenCount".toList
  texts := [.member "candidates".toList (.array []), .each,
    .member "content".toList (.object []), .member "parts".toList (.array []), .each,
    .member "text".toList .null]

section Providers

variable {loads : Str → Except Str Json} {counted : Bool} {response : StreamResponse}

theorem OpenAILLMProvider.does_yieldChoices (chunk : Json) :
    (yieldChoices chunk).Does () (Fits openaiWire.texts chunk) (select openaiWire.texts chunk) id :=
  does_member fun _ => does_each fun _ => does_member fun _ => does_member fun _ => does_yield

theorem GeminiLLMProvider.does_yieldCandidates (chunk : Json) :
    (yieldCandidates chunk).Does () (Fits geminiWire.texts chunk) (select geminiWire.texts chunk)
      id :=
  does_member fun _ => does_each fun _ => does_member fun _ => does_member fun _ =>
    does_each fun _ => does_member fun _ => does_yield

/-- The stream returns if and only if the response is complete, and then it has
yielded its contents. -/
theorem OpenAILLMProvider.does_astream : (astream loads counted response).Does ()
    (openaiWire.Complete loads counted response) (openaiWire.contents loads response)
    (openaiWire.counts loads counted response) := by
  refine Wire.does_lines response ?_ ?_ ?_ ?_
  · intro fault
    rfl
  · intro line hline
    simp only [ofExcept_ok_bind, hline]
  · intro line data hline hstop
    cases hstop
    simp only [ofExcept_ok_bind, hline, if_true]
  · intro line data hline hstop
    have hdata : data ≠ "[DONE]".toList := fun hdone => hstop (by rw [hdone]; rfl)
    simp only [ofExcept_ok_bind, hline, if_neg hdata]
    exact Wire.does_chunk does_yieldChoices data

theorem GeminiLLMProvider.does_astream : (astream loads counted response).Does ()
    (geminiWire.Complete loads counted response) (geminiWire.contents loads response)
    (geminiWire.counts loads counted response) := by
  refine Wire.does_lines response ?_ ?_ ?_ ?_
  · intro fault
    rfl
  · intro line hline
    simp only [ofExcept_ok_bind, hline]
  · intro line data hline hstop
    cases hstop
  · intro line data hline _
    simp only [ofExcept_ok_bind, hline]
    exact Wire.does_chunk does_yieldCandidates data

end Providers

end Core
