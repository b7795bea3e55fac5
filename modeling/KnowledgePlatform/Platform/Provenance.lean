import KnowledgePlatform.Core.Citations
import KnowledgePlatform.Platform.History
import KnowledgePlatform.Platform.Isolation

/-!
# Where stored citations come from

A citation is stored as texts: nothing in the database ties it to the chunk it
quotes, and the chunk may be replaced or deleted later.  What can be said of a
stored citation is therefore said of the run: the message was added by a step
whose answer it is, and in the state before that step the chunk and its document
were there, in the organization of the message.
-/

open Api Core Foundations Python Relational Worker

namespace Platform

variable {settings : Settings} {crypto : Crypto}

/-- The citation quotes a chunk of the organization: its ids, the title of its
document and the beginning of its text are those of stored rows. -/
def Quotes (orgId : Uuid) (db : Database) (citation : Citation) : Prop :=
  ∃ chunk ∈ db .documentChunks, ∃ document ∈ db .documents,
    chunk.orgId = orgId ∧ document.orgId = orgId ∧ chunk.documentId = document.id ∧
      citation.chunkId = chunk.id.str ∧ citation.documentId = document.id.str ∧
      citation.documentTitle = document.title ∧
      citation.snippet = chunk.content.take defaultSnippetChars

theorem quotes_of_within {orgId : Uuid} {db : Database} {citation : Citation}
    (h : CitationWithin orgId db citation) : Quotes orgId db citation := by
  obtain ⟨hit, ⟨chunk, hchunk, document, hdocument, horg, hdocumentOrg, hshows⟩, heq⟩ := h
  refine ⟨chunk, hchunk, document, hdocument, horg, hdocumentOrg, hshows.documentRow.symm, ?_⟩
  rw [heq, ← hshows.chunkId, hshows.documentRow, ← hshows.documentId, ← hshows.documentTitle,
    ← hshows.content]
  exact ⟨rfl, rfl, rfl, rfl⟩

/-- The citations are numbered by markers of the text, each once and in order. -/
structure Numbered (content : Str) (citations : List Citation) : Prop where
  nonempty : citations ≠ []
  increasing : (citations.map Citation.marker).Pairwise (· < ·)
  marked : ∀ citation ∈ citations, ∃ digits,
    Bracketed content digits ∧ valueOf digits = citation.marker

theorem numbered_of_cite {answer : Str} {hits : List SearchHit} {citations : List Citation}
    (h : cite answer hits = .ok citations) (hne : citations ≠ []) : Numbered answer citations := by
  have hshort := shortMarkers_of_extractCitations h
  obtain rfl := Except.ok.inj ((extractCitations_eq_ok hshort).symm.trans h)
  refine ⟨hne, List.pairwise_map.mpr (pairwise_citationsOf _), fun citation hcitation => ?_⟩
  obtain ⟨number, hnumber, hcites⟩ := mem_citationsOf.mp hcitation
  obtain ⟨digits, hdigits, hvalue⟩ := List.mem_map.mp hnumber
  exact ⟨digits, mem_findMarkers.mp hdigits, hvalue.trans hcites.marker.symm⟩

/-- The messages after a step are those before and what the step said. -/
theorem messages_of_step {world world' : World} {event : Event}
    (hstep : Step settings crypto world event world') : ∃ added,
      world'.db .messages = world.db .messages ++ added ∧ added.map transcribe = event.spoken := by
  obtain ⟨added, hadded⟩ := @prefix_of_step _ _ _ _ _ hstep .messages rfl (by decide)
  obtain ⟨conn, writes, heffect, hexecutes⟩ := step_executes hstep
  have hspoken := logsAll_messages heffect _ _ _ hexecutes
  have hmessages : world'.db .messages = world.db .messages ++ added := by
    simpa [lasting] using hadded.symm
  rw [hmessages, List.map_append] at hspoken
  exact ⟨added, hmessages, List.append_cancel_left hspoken⟩

/-- A message a step adds with citations is an answer, and the citations quote what
the organization had stored when it was given. -/
theorem quotes_of_step {world world' : World} {event : Event}
    (hstep : Step settings crypto world event world') {message : Message}
    {citations : List Citation} (hmessage : transcribe message ∈ event.spoken)
    (hcitations : message.citations = some citations) :
    message.role = .assistant ∧ Numbered message.content citations ∧
      ∀ citation ∈ citations, Quotes message.orgId world.db citation := by
  cases event with
  | asked turn =>
      obtain ⟨_, _, _, _, hnone⟩ : _ ∧ _ ∧ _ ∧ _ ∧ message.citations = none := by
        simpa [Event.spoken, transcribe] using hmessage
      rw [hnone] at hcitations
      cases hcitations
  | answered turn out =>
      obtain ⟨horg, _, hrole, hcontent, hstored⟩ : message.orgId = turn.orgId ∧ _ ∧
          message.role = .assistant ∧ message.content = out.tokens.flatten ∧
          message.citations = storedCitations out.citations := by
        simpa [Event.spoken, transcribe] using hmessage
      rw [hcitations, storedCitations] at hstored
      split at hstored
      · cases hstored
      · next hne =>
          cases hstored
          obtain ⟨_, hwithin⟩ := within_of_step hstep rfl
          obtain ⟨conn, writes, heffect, _⟩ := step_executes hstep
          cases heffect with
          | answered _ hcite =>
              rw [hcontent, horg]
              exact ⟨hrole, numbered_of_cite hcite hne, fun citation hcitation =>
                quotes_of_within (hwithin citation hcitation)⟩
  | auth | authenticated | served | ingesting | notIngested | stored | raised | failed
    | dispatched => cases hmessage

/-- In every reachable state, the citations stored with a message the run added are
those of an answer: there is at least one, their numbers stand in brackets in its
text, each once and in order, and in one state the run went through the organization
of the message had every chunk quoted, in the document named. -/
theorem citations_haveSources {start world : World} {trace : List Event}
    (hrun : Runs settings crypto start trace world) {message : Message}
    (hmessage : message ∈ world.db .messages) (hnew : message ∉ start.db .messages)
    {citations : List Citation} (hcitations : message.citations = some citations) :
    message.role = .assistant ∧ Numbered message.content citations ∧
      ∃ before after earlier, trace = before ++ after ∧
        Runs settings crypto start before earlier ∧ Runs settings crypto earlier after world ∧
        ∀ citation ∈ citations, Quotes message.orgId earlier.db citation := by
  induction hrun with
  | nil => exact absurd hmessage hnew
  | @snoc trace middle last event hearlier hstep ih =>
      obtain ⟨added, hadded, hspoken⟩ := messages_of_step hstep
      rw [hadded] at hmessage
      rcases List.mem_append.mp hmessage with hold | hmem
      · obtain ⟨hrole, hnumbered, before, after, earlier, rfl, hbefore, hafter, hquotes⟩ := ih hold
        exact ⟨hrole, hnumbered, before, after ++ [event], earlier, (List.append_assoc ..), hbefore,
          hafter.snoc hstep, hquotes⟩
      · obtain ⟨hrole, hnumbered, hquotes⟩ :=
          quotes_of_step hstep (hspoken ▸ List.mem_map_of_mem hmem) hcitations
        exact ⟨hrole, hnumbered, trace, [event], middle, rfl, hearlier, Run.single hstep, hquotes⟩

/-- The citation outlives the document it quotes. -/
theorem citations_haveSources_workday : ∃ last : World, ∃ message : Message,
    ∃ citations : List Citation, dayCounts last.db = [1, 0, 0, 2, 2] ∧
    message ∈ last.db .messages ∧ message.citations = some citations ∧
    Numbered message.content citations ∧ ∃ earlier : World,
      ∀ citation ∈ citations, Quotes message.orgId earlier.db citation := by
  obtain ⟨_, _, _, _, _, last, hsetup, hupload, huploader, _, hafter, _, hcited⟩ := evaluate_workday
  obtain ⟨message, hmessage, hsome⟩ := List.any_eq_true.mp hcited
  obtain ⟨citations, hcitations⟩ := Option.isSome_iff_exists.mp hsome
  obtain ⟨_, hnumbered, _, _, earlier, _, _, _, hquotes⟩ := citations_haveSources
    (((runs_of_performAll hsetup).snoc (step_of_perform hupload)).snoc (step_of_perform huploader))
    hmessage List.not_mem_nil hcitations
  exact ⟨last, message, citations, hafter, hmessage, hcitations, hnumbered, earlier, hquotes⟩

end Platform
