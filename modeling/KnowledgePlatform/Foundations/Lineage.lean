import Mathlib.Data.List.Induction
import Mathlib.Data.List.Nodup

/-!
# Lineages

Keys are issued one after the other, each as the root of a new lineage or as the
successor of a key that was issued before.  The lineages of a history are not kept by
anyone; `lineages` reads them off the links, newest key first.  Their keys are those that
were issued (`mem_keys_of_mem_lineages`), and a lineage that is not continued stays as it
is (`mem_lineages_append`).
-/

namespace Foundations

variable {Key : Type*}

/-- A key is issued: as a root, or as the successor of a key. -/
inductive Link (Key : Type*)
  | root (key : Key)
  | next (parent key : Key)

namespace Link

/-- The key a link issues. -/
def key : Link Key → Key
  | .root key | .next _ key => key

/-- The link continues a lineage. -/
def Continues (lineage : List Key) : Link Key → Prop
  | .root _ => False
  | .next parent _ => parent ∈ lineage

variable [DecidableEq Key]

/-- A lineage after the link. -/
def extend (lineage : List Key) : Link Key → List Key
  | .root _ => lineage
  | .next parent key => if parent ∈ lineage then key :: lineage else lineage

variable {link : Link Key} {lineage : List Key} {other : Key}

theorem extend_of_continues (h : link.Continues lineage) :
    link.extend lineage = link.key :: lineage := by
  cases link with
  | root => cases h
  | next parent key => exact if_pos h

theorem extend_of_not_continues (h : ¬link.Continues lineage) : link.extend lineage = lineage := by
  cases link with
  | root => rfl
  | next parent key => exact if_neg h

theorem mem_extend :
    other ∈ link.extend lineage ↔ link.Continues lineage ∧ other = link.key ∨ other ∈ lineage := by
  by_cases h : link.Continues lineage
  · rw [extend_of_continues h, List.mem_cons]
    simp [h]
  · rw [extend_of_not_continues h]
    simp [h]

end Link

variable [DecidableEq Key]

/-- The lineages after one more link. -/
def grow (all : List (List Key)) (link : Link Key) : List (List Key) :=
  match link with
  | .root key => [key] :: all
  | .next _ _ => all.map link.extend

/-- The lineages of a history, each with its newest key first. -/
def lineages (links : List (Link Key)) : List (List Key) := links.foldl grow []

variable {all : List (List Key)} {links later : List (Link Key)} {link : Link Key}
  {lineage other : List Key} {key : Key}

/-- The lineages after a link: its root, and what became of those that were there. -/
theorem mem_grow : lineage ∈ grow all link ↔
    (link = .root link.key ∧ lineage = [link.key]) ∨
      ∃ older ∈ all, link.extend older = lineage := by
  cases link with
  | root key => simp [grow, Link.key, Link.extend]
  | next parent key => simp [grow]

theorem lineages_append_singleton :
    lineages (links ++ [link]) = grow (lineages links) link := by
  rw [lineages, List.foldl_append]
  rfl

/-- The keys of the lineages were issued. -/
theorem mem_keys_of_mem_lineages (hlineage : lineage ∈ lineages links) (hkey : key ∈ lineage) :
    key ∈ links.map Link.key := by
  induction links using List.reverseRecOn generalizing lineage with
  | nil => cases hlineage
  | append_singleton links link ih =>
      rw [lineages_append_singleton] at hlineage
      rw [List.map_append, List.mem_append]
      rcases mem_grow.mp hlineage with ⟨_, rfl⟩ | ⟨older, holder, rfl⟩
      · exact .inr hkey
      · rcases Link.mem_extend.mp hkey with ⟨_, rfl⟩ | hold
        · exact .inr List.mem_cons_self
        · exact .inl (ih holder hold)

/-- What becomes of a lineage while it is not continued. -/
theorem mem_lineages_append (hlineage : lineage ∈ lineages links)
    (hlater : ∀ link ∈ later, ¬link.Continues lineage) : lineage ∈ lineages (links ++ later) := by
  induction later using List.reverseRecOn with
  | nil => simpa using hlineage
  | append_singleton later link ih =>
      rw [← List.append_assoc, lineages_append_singleton]
      have hmem := ih fun link hlink => hlater link (List.mem_append_left _ hlink)
      refine mem_grow.mpr (.inr ⟨lineage, hmem, ?_⟩)
      exact Link.extend_of_not_continues (hlater link (List.mem_append_right _ List.mem_cons_self))

end Foundations
