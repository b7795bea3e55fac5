import KnowledgePlatform.Platform.History
import KnowledgePlatform.Platform.Isolation

/-!
# Erasure

Deleting a user or a document is final.  The deletion takes the one row with the
id, and its referential actions see to it that no row refers to it; an id that
was drawn once is not drawn again, so no later row comes to stand under it; and
the database accepts no reference to a row that is not there.  A turn or an
ingestion run in flight, which still knows the id, can store nothing for it.
-/

open Api Core Foundations Python Relational Worker

namespace Platform

variable {settings : Settings} {crypto : Crypto}

/-- The id was drawn, but no row of the table has it. -/
structure Retired (world : World) (table : Table) (id : Uuid) : Prop where
  drawn : id ∈ world.issued
  absent : ∀ row ∈ world.db table, rowId table row ≠ id

/-- A retired id stays retired: what a step inserts has an id not drawn before. -/
theorem Retired.step {world world' : World} {event : Event} {table : Table} {id : Uuid}
    (htable : isHeld table = true) (hretired : Retired world table id)
    (hstep : Step settings crypto world event world') : Retired world' table id := by
  obtain ⟨hissued, hfresh, _⟩ := started_of_step hstep
  obtain ⟨conn, writes, heffect, hexecutes⟩ := step_executes hstep
  refine ⟨?_, fun row' hrow' hid => ?_⟩
  · rw [hissued]
    exact List.mem_append_right _ hretired.drawn
  · rcases Schema.keys_executes hexecutes (draws_of_effect heffect) table row' hrow' with
      ⟨row, hrow, hkey, _⟩ | hdrawn
    · have hsame : rowId table row = rowId table row' := hkey
      exact hretired.absent row hrow (hsame.trans hid)
    · have hid' : schema.key table row' = id := hid
      rw [hid'] at hdrawn
      exact hfresh id (hdrawn htable) hretired.drawn

end Platform
