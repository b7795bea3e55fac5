import Mathlib.Tactic
import Mathlib.Algebra.Order.BigOperators.Group.Finset

/-!
# Pools of connections

A pool lends a limited number of connections to sessions.  A party that holds a
connection may wait for a further one; when all connections are held by such
parties, none of them can go on.  This does not happen as long as the connections
that waiting parties can hold are fewer than the pool has (`not_stuck_of_card_lt`).
-/

namespace Foundations

variable {Session Party : Type*} [DecidableEq Session]

/-- The sessions that hold a connection. -/
structure Pool (Session : Type*) (capacity : ℕ) where
  holders : Finset Session
  fits : holders.card ≤ capacity

namespace Pool

variable {capacity : ℕ} {pool : Pool Session capacity} {session other : Session}

def empty : Pool Session capacity := ⟨∅, Nat.zero_le _⟩

/-- Take a connection, if one is left. -/
def checkout (pool : Pool Session capacity) (session : Session) : Option (Pool Session capacity) :=
  if h : pool.holders.card < capacity then
    some ⟨insert session pool.holders, (Finset.card_insert_le _ _).trans h⟩
  else none

/-- Give a connection back. -/
def release (pool : Pool Session capacity) (session : Session) : Pool Session capacity :=
  ⟨pool.holders.erase session, (Finset.card_erase_le).trans pool.fits⟩

/-- All connections are held. -/
def Exhausted (pool : Pool Session capacity) : Prop := pool.holders.card = capacity

/-- All connections are held, by parties that wait for a further one. -/
def Stuck (owner : Session → Party) (waits : Party → Prop) (pool : Pool Session capacity) : Prop :=
  pool.Exhausted ∧ ∀ session ∈ pool.holders, waits (owner session)

theorem holders_of_checkout {pool' : Pool Session capacity}
    (h : pool.checkout session = some pool') : pool'.holders = insert session pool.holders := by
  unfold checkout at h
  split at h
  · cases h
    rfl
  · cases h

theorem mem_of_checkout {pool' : Pool Session capacity} (h : pool.checkout session = some pool') :
    other ∈ pool'.holders ↔ other = session ∨ other ∈ pool.holders := by
  rw [holders_of_checkout h, Finset.mem_insert]

@[simp] theorem mem_release :
    other ∈ (pool.release session).holders ↔ other ≠ session ∧ other ∈ pool.holders :=
  Finset.mem_erase

/-- A session gets a connection as long as one is left. -/
theorem exists_checkout (h : pool.holders.card < capacity) (session : Session) :
    ∃ pool', pool.checkout session = some pool' ∧
      pool'.holders = insert session pool.holders := by
  refine ⟨_, dif_pos h, rfl⟩

omit [DecidableEq Session] in
/-- Parties that hold at most `held` connections each while they wait do not
exhaust a pool that has more connections than all of them together hold then. -/
theorem not_stuck_of_card_lt [Fintype Party] [DecidableEq Party] {owner : Session → Party}
    {waits : Party → Prop} {held : ℕ}
    (hheld : ∀ party, waits party →
      (pool.holders.filter fun session => owner session = party).card ≤ held)
    (hcard : held * Fintype.card Party < capacity) : ¬pool.Stuck owner waits := by
  rintro ⟨hexhausted, hwaits⟩
  have hbound : pool.holders.card ≤ held * (pool.holders.image owner).card := by
    refine Finset.card_le_mul_card_image pool.holders held fun party hparty => ?_
    obtain ⟨session, hsession, rfl⟩ := Finset.mem_image.mp hparty
    exact hheld (owner session) (hwaits session hsession)
  have hparties : held * (pool.holders.image owner).card ≤ held * Fintype.card Party :=
    Nat.mul_le_mul_left held (Finset.card_le_univ _)
  rw [hexhausted] at hbound
  omega

end Pool

end Foundations
