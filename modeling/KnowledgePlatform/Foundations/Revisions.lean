import Mathlib.Data.List.Basic
import Mathlib.Tactic

/-!
# Revisions

A state is migrated along a line of revisions, up and down.  Each revision says what
it does to the state either way, and may refuse.  A command names the version to go
to; it is carried out as a whole or not at all.

An assertion about version and state that every single revision keeps on the way up,
and on the way down, holds after every command (`carryOut_holds`); and where no
revision refuses, the commands succeed (`Rises.climb_eq_some`, `Falls.descend_eq_some`).
-/

namespace Foundations

/-- A revision: what it does on the way up and on the way down. -/
structure Revision (State : Type*) where
  upgrade : State → Option State
  downgrade : State → Option State

/-- A state and the number of revisions it has behind it. -/
structure Versioned (State : Type*) where
  version : ℕ
  state : State

/-- The version to go to. -/
inductive Command
  | upgrade (target : ℕ)
  | downgrade (target : ℕ)
  deriving DecidableEq, Repr

namespace Revision

variable {State : Type*} (revisions : List (Revision State))

/-- The next revisions, upwards. -/
def climb : ℕ → Versioned State → Option (Versioned State)
  | 0, current => some current
  | count + 1, current => do
      let revision ← revisions[current.version]?
      let state ← revision.upgrade current.state
      climb count ⟨current.version + 1, state⟩

/-- The last revisions, downwards. -/
def descend : ℕ → Versioned State → Option (Versioned State)
  | 0, current => some current
  | _ + 1, ⟨0, _⟩ => none
  | count + 1, ⟨version + 1, state⟩ => do
      let revision ← revisions[version]?
      let state ← revision.downgrade state
      descend count ⟨version, state⟩

/-- What a command does, if it succeeds.  Going up to a version that has been passed
does nothing; there is no going down to one that has not been reached. -/
def carryOut (current : Versioned State) : Command → Option (Versioned State)
  | .upgrade target => climb revisions (target - current.version) current
  | .downgrade target =>
      if target ≤ current.version then descend revisions (current.version - target) current
      else none

variable {revisions}

theorem version_of_climb {count : ℕ} {current next : Versioned State}
    (h : climb revisions count current = some next) : next.version = current.version + count := by
  induction count generalizing current with
  | zero =>
      cases h
      rfl
  | succ count ih =>
      obtain ⟨revision, _, hrest⟩ := Option.bind_eq_some_iff.mp h
      obtain ⟨state, _, hlater⟩ := Option.bind_eq_some_iff.mp hrest
      rw [ih hlater]
      simp only
      omega

theorem version_of_descend {count : ℕ} {current next : Versioned State}
    (h : descend revisions count current = some next) :
    next.version + count = current.version := by
  induction count generalizing current with
  | zero =>
      cases h
      rfl
  | succ count ih =>
      obtain ⟨version, state⟩ := current
      cases version with
      | zero => cases h
      | succ version =>
          obtain ⟨revision, _, hrest⟩ := Option.bind_eq_some_iff.mp h
          obtain ⟨state', _, hlater⟩ := Option.bind_eq_some_iff.mp hrest
          have hversion := ih hlater
          simp only at hversion ⊢
          omega

/-! ## What every revision keeps -/

variable {Holds : ℕ → State → Prop}

/-- Each revision leads from its version to the next. -/
def Rises (revisions : List (Revision State)) (Holds : ℕ → State → Prop) : Prop :=
  ∀ version revision, revisions[version]? = some revision → ∀ state state',
    Holds version state → revision.upgrade state = some state' → Holds (version + 1) state'

/-- Each revision leads back to its version. -/
def Falls (revisions : List (Revision State)) (Holds : ℕ → State → Prop) : Prop :=
  ∀ version revision, revisions[version]? = some revision → ∀ state state',
    Holds (version + 1) state → revision.downgrade state = some state' → Holds version state'

theorem Rises.climb (hrises : Rises revisions Holds) {count : ℕ} {current next : Versioned State}
    (hholds : Holds current.version current.state)
    (h : Revision.climb revisions count current = some next) : Holds next.version next.state := by
  induction count generalizing current with
  | zero =>
      cases h
      exact hholds
  | succ count ih =>
      obtain ⟨revision, hrevision, hrest⟩ := Option.bind_eq_some_iff.mp h
      obtain ⟨state, hstate, hlater⟩ := Option.bind_eq_some_iff.mp hrest
      exact ih (hrises _ _ hrevision _ _ hholds hstate) hlater

theorem Falls.descend (hfalls : Falls revisions Holds) {count : ℕ}
    {current next : Versioned State} (hholds : Holds current.version current.state)
    (h : Revision.descend revisions count current = some next) : Holds next.version next.state := by
  induction count generalizing current with
  | zero =>
      cases h
      exact hholds
  | succ count ih =>
      obtain ⟨version, state⟩ := current
      cases version with
      | zero => cases h
      | succ version =>
          obtain ⟨revision, hrevision, hrest⟩ := Option.bind_eq_some_iff.mp h
          obtain ⟨state', hstate, hlater⟩ := Option.bind_eq_some_iff.mp hrest
          exact ih (hfalls _ _ hrevision _ _ hholds hstate) hlater

/-- What every revision keeps both ways, every command keeps. -/
theorem carryOut_holds (Holds : ℕ → State → Prop) (hrises : Rises revisions Holds)
    (hfalls : Falls revisions Holds) {command : Command} {current next : Versioned State}
    (hholds : Holds current.version current.state)
    (h : carryOut revisions current command = some next) : Holds next.version next.state := by
  cases command with
  | upgrade target => exact hrises.climb hholds h
  | downgrade target =>
      simp only [carryOut] at h
      split at h
      · exact hfalls.descend hholds h
      · cases h

/-- Where no revision refuses, the next ones succeed. -/
theorem Rises.climb_eq_some (hrises : Rises revisions Holds)
    (hup : ∀ version revision, revisions[version]? = some revision →
      ∀ state, Holds version state → ∃ state', revision.upgrade state = some state')
    {count : ℕ} {current : Versioned State} (hholds : Holds current.version current.state)
    (hcount : current.version + count ≤ revisions.length) :
    ∃ next, Revision.climb revisions count current = some next := by
  induction count generalizing current with
  | zero => exact ⟨current, rfl⟩
  | succ count ih =>
      have hrevision := List.getElem?_eq_getElem (show current.version < revisions.length by omega)
      obtain ⟨state, hstate⟩ := hup _ _ hrevision _ hholds
      obtain ⟨next, hnext⟩ := @ih ⟨current.version + 1, state⟩
        (hrises _ _ hrevision _ _ hholds hstate) (by simp only; omega)
      refine ⟨next, ?_⟩
      rw [Revision.climb, hrevision]
      exact (congrArg (fun found => found.bind fun state => Revision.climb revisions count
        ⟨current.version + 1, state⟩) hstate).trans hnext

/-- Where no revision refuses, the last ones can be taken back. -/
theorem Falls.descend_eq_some (hfalls : Falls revisions Holds)
    (hdown : ∀ version revision, revisions[version]? = some revision →
      ∀ state, Holds (version + 1) state → ∃ state', revision.downgrade state = some state')
    {count : ℕ} {current : Versioned State} (hholds : Holds current.version current.state)
    (hversion : current.version ≤ revisions.length) (hcount : count ≤ current.version) :
    ∃ next, Revision.descend revisions count current = some next := by
  induction count generalizing current with
  | zero => exact ⟨current, rfl⟩
  | succ count ih =>
      obtain ⟨version, state⟩ := current
      cases version with
      | zero => cases hcount
      | succ version =>
          have hrevision := List.getElem?_eq_getElem (show version < revisions.length from hversion)
          obtain ⟨state', hstate⟩ := hdown _ _ hrevision _ hholds
          obtain ⟨next, hnext⟩ := @ih ⟨version, state'⟩
            (hfalls _ _ hrevision _ _ hholds hstate) (Nat.le_of_succ_le hversion)
            (Nat.le_of_succ_le_succ hcount)
          refine ⟨next, ?_⟩
          rw [Revision.descend, hrevision]
          exact (congrArg (fun found => found.bind fun state => Revision.descend revisions count
            ⟨version, state⟩) hstate).trans hnext

end Revision

end Foundations
