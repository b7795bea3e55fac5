import KnowledgePlatform.Core.Retrieval
import KnowledgePlatform.Python.Text

/-!
# Prompts and citations

The system prompt lists the hits as numbered sources; `extractCitations` maps
the markers `[n]` of an answer back to them.
-/

open Foundations Python Relational

namespace Core

/-! ## The system prompt -/

def defaultPromptName : Str := "rag".toList

def defaultRagPrompt : Str :=
  ("You are a knowledge assistant. Answer the user's question " ++
    "using ONLY the numbered sources below.\n\nRules:\n" ++
    "- Cite every claim with the bracketed marker of the source it came from, e.g. [1].\n" ++
    "- If several sources support a claim, cite each one, e.g. [1][3].\n" ++
    "- If the sources do not contain the answer, say so plainly. Do not invent facts.\n" ++
    "- Be concise and answer directly.").toList

/-- One source line of the prompt; `index` counts from zero. -/
def sourceLine (hit : SearchHit) (index : ℕ) : Str :=
  '[' :: ofNat (index + 1) ++ "] (".toList ++ hit.documentTitle ++ ") ".toList ++ hit.content

/-- Render the system prompt with numbered, citable sources. -/
def buildSystemPrompt (template : Str) (hits : List SearchHit) : Str :=
  if hits = [] then template ++ "\n\nSources:\n(none retrieved)".toList
  else
    let sources := hits.zipIdx.map fun (hit, index) => sourceLine hit index
    template ++ "\n\nSources:\n".toList ++ ['\n', '\n'].intercalate sources

/-- The active prompt of the organization, or the built-in one. -/
def resolvePromptTemplate (name : Str) : Tx Str := do
  let row ← scalar .promptTemplates fun template => template.name == name && template.isActive
  match row with
  | none => pure defaultRagPrompt
  | some template => pure template.content

/-! ## Citations -/

/-- The digits of a marker whose opening bracket was just read. -/
def markerDigits (rest : Str) : Option Str :=
  let digits := rest.takeWhile isDigit
  if digits ≠ [] ∧ (rest.drop digits.length).head? = some ']' then some digits else none

/-- `re.findall(r"\[(\d+)\]", answer)`.  A match holds no second opening bracket,
so the search goes on right after the one that was read. -/
def findMarkers : Str → List Str
  | [] => []
  | c :: rest =>
      if c = '[' then
        match markerDigits rest with
        | some digits => digits :: findMarkers rest
        | none => findMarkers rest
      else findMarkers rest

/-- The citation of a source. -/
def citationOf (marker : ℕ) (hit : SearchHit) (snippetChars : ℕ) : Citation where
  marker := marker
  chunkId := hit.chunkId.str
  documentId := hit.documentId.str
  documentTitle := hit.documentTitle
  snippet := hit.content.take snippetChars

/-- The loop over the markers found, with the markers cited so far. -/
def collectCitations (hits : List SearchHit) (snippetChars : ℕ) :
    List Str → List ℕ → Except Str (List Citation)
  | [], _ => .ok []
  | raw :: rest, seen => do
      let marker ← intOf raw
      match if marker ∈ seen ∨ marker = 0 then none else hits[marker - 1]? with
      | none => collectCitations hits snippetChars rest seen
      | some hit => do
          let citations ← collectCitations hits snippetChars rest (marker :: seen)
          .ok (citationOf marker hit snippetChars :: citations)

/-- `snippet_chars` -/
def defaultSnippetChars : ℕ := 240

/-- The sources the answer cites, each at most once and in the order of their
markers; markers outside the range of the hits are ignored. -/
def extractCitations (answer : Str) (hits : List SearchHit) (snippetChars : ℕ) :
    Except Str (List Citation) := do
  let citations ← collectCitations hits snippetChars (findMarkers answer) []
  .ok (citations.insertionSort fun citation other => citation.marker ≤ other.marker)

/-! ## Where citations come from -/

theorem mem_collectCitations {hits : List SearchHit} {snippetChars : ℕ} {raws : List Str}
    {seen : List ℕ} {citations : List Citation}
    (h : collectCitations hits snippetChars raws seen = .ok citations) {citation : Citation}
    (hcitation : citation ∈ citations) :
    ∃ hit ∈ hits, citation = citationOf citation.marker hit snippetChars := by
  induction raws generalizing seen citations with
  | nil =>
      cases h
      cases hcitation
  | cons raw rest ih =>
      unfold collectCitations at h
      cases hmarker : intOf raw with
      | error message =>
          rw [hmarker] at h
          cases h
      | ok marker =>
          rw [hmarker] at h
          simp only [bind, Except.bind] at h
          split at h
          · exact ih h hcitation
          · next hit hhit =>
              split at h
              · cases h
              · next citations' hrest =>
                  cases h
                  rcases List.mem_cons.mp hcitation with rfl | hmem
                  · refine ⟨hit, ?_, rfl⟩
                    split at hhit
                    · cases hhit
                    · exact List.mem_of_getElem? hhit
                  · exact ih hrest hmem

/-- Every citation is one of a retrieved source. -/
theorem mem_extractCitations {answer : Str} {hits : List SearchHit} {snippetChars : ℕ}
    {citations : List Citation} (h : extractCitations answer hits snippetChars = .ok citations)
    {citation : Citation} (hcitation : citation ∈ citations) :
    ∃ hit ∈ hits, citation = citationOf citation.marker hit snippetChars := by
  unfold extractCitations at h
  cases hcollect : collectCitations hits snippetChars (findMarkers answer) [] with
  | error message =>
      rw [hcollect] at h
      cases h
  | ok collected =>
      rw [hcollect] at h
      cases h
      exact mem_collectCitations hcollect (List.mem_insertionSort _ |>.mp hcitation)

/-- Only reads. -/
theorem runs_resolvePromptTemplate {name template : Str} {conn conn' : Conn}
    (h : (resolvePromptTemplate name).Runs conn template conn') : conn = conn' := by
  simp only [resolvePromptTemplate, Program.runs_bind] at h
  obtain ⟨row, _, hrow, h⟩ := h
  obtain ⟨rfl, _⟩ := of_runs_scalar hrow
  cases row with
  | none => exact (Program.runs_pure.mp h).2
  | some _ => exact (Program.runs_pure.mp h).2

end Core
