import Mathlib.Tactic

/-!
# Programs with state and faults

A program reads and changes a state and may fail, in which case its changes are
lost.  What a successful run says about a program is read off with the
equivalences for `Runs`, one for each way programs are put together.
-/

namespace Foundations

/-- Programs over a state that fail with a fault. -/
abbrev Program (State Fault : Type) := StateT State (Except Fault)

namespace Program

variable {State Fault α β : Type}

/-- The program succeeds with this value and leaves this state. -/
def Runs (program : Program State Fault α) (before : State) (value : α) (after : State) : Prop :=
  program before = .ok (value, after)

/-- Fail when the condition holds. -/
def raiseIf (condition : Prop) [Decidable condition] (fault : Fault) : Program State Fault Unit :=
  if condition then throw fault else pure ()

/-- Fail when there is no value. -/
def orRaise (fault : Fault) : Option α → Program State Fault α
  | none => throw fault
  | some value => pure value

/-- Translate the faults of a program. -/
def mapFault (translate : Fault → Fault) (program : Program State Fault α) :
    Program State Fault α := fun before =>
  match program before with
  | .ok result => .ok result
  | .error fault => .error (translate fault)

variable {before after : State} {value : α}

@[simp] theorem runs_pure {value' : α} :
    Runs (pure value' : Program State Fault α) before value after ↔
      value' = value ∧ before = after := by
  show Except.ok (value', before) = Except.ok (value, after) ↔ _
  rw [Except.ok.injEq, Prod.mk.injEq]

@[simp] theorem runs_bind {program : Program State Fault β} {next : β → Program State Fault α} :
    Runs (program >>= next) before value after ↔
      ∃ first middle, program.Runs before first middle ∧ (next first).Runs middle value after := by
  unfold Runs
  cases hfirst : program before with
  | error fault => simp [bind, StateT.bind, Except.bind, hfirst]
  | ok result =>
      obtain ⟨first, middle⟩ := result
      simp [bind, StateT.bind, Except.bind, hfirst]

@[simp] theorem runs_map {program : Program State Fault β} {f : β → α} :
    Runs (f <$> program) before value after ↔
      ∃ first, program.Runs before first after ∧ f first = value := by
  rw [map_eq_pure_bind, runs_bind]
  simp

@[simp] theorem runs_throw {fault : Fault} :
    ¬Runs (throw fault : Program State Fault α) before value after := by
  simp [Runs, throw, throwThe, MonadExceptOf.throw, StateT.lift]

@[simp] theorem runs_get {found : State} :
    Runs (get : Program State Fault State) before found after ↔
      before = found ∧ before = after := by
  show Except.ok (before, before) = Except.ok (found, after) ↔ _
  rw [Except.ok.injEq, Prod.mk.injEq]

@[simp] theorem runs_set {state : State} {result : PUnit} :
    Runs (set state : Program State Fault PUnit) before result after ↔ state = after := by
  show Except.ok (PUnit.unit, state) = Except.ok (result, after) ↔ _
  rw [Except.ok.injEq, Prod.mk.injEq]
  exact and_iff_right rfl

@[simp] theorem runs_raiseIf {condition : Prop} [Decidable condition] {fault : Fault}
    {result : Unit} :
    Runs (raiseIf condition fault) before result after ↔ ¬condition ∧ before = after := by
  unfold raiseIf
  split <;> simp [*]

@[simp] theorem runs_orRaise {fault : Fault} {found : Option α} :
    Runs (orRaise fault found) before value after ↔ found = some value ∧ before = after := by
  cases found <;> simp [orRaise]

@[simp] theorem runs_mapFault {translate : Fault → Fault} {program : Program State Fault α} :
    Runs (program.mapFault translate) before value after ↔ program.Runs before value after := by
  unfold Runs mapFault
  cases program before <;> simp

/-- A program that was evaluated to the end has run. -/
theorem runs_of_toOption {program : Program State Fault α}
    (h : (program before).toOption = some (value, after)) : program.Runs before value after := by
  unfold Runs
  cases hprogram : program before with
  | error fault => simp [hprogram, Except.toOption] at h
  | ok result =>
      rw [hprogram] at h
      exact congrArg Except.ok (Option.some.inj h)

/-! ## Faults -/

/-- The program does not fail with this fault. -/
def Avoids (program : Program State Fault α) (before : State) (fault : Fault) : Prop :=
  program before ≠ .error fault

section Avoids

variable {fault : Fault}

@[simp] theorem avoids_pure : Avoids (pure value : Program State Fault α) before fault := by
  intro h
  cases h

@[simp] theorem avoids_bind {program : Program State Fault β} {next : β → Program State Fault α} :
    Avoids (program >>= next) before fault ↔ program.Avoids before fault ∧
      ∀ first middle, program.Runs before first middle → (next first).Avoids middle fault := by
  unfold Avoids Runs
  cases hfirst : program before with
  | error cause => simp [bind, StateT.bind, Except.bind, hfirst]
  | ok result =>
      obtain ⟨first, middle⟩ := result
      simp [bind, StateT.bind, Except.bind, hfirst]

@[simp] theorem avoids_map {program : Program State Fault β} {f : β → α} :
    Avoids (f <$> program) before fault ↔ program.Avoids before fault := by
  rw [map_eq_pure_bind, avoids_bind]
  simp

@[simp] theorem avoids_throw {cause : Fault} :
    Avoids (throw cause : Program State Fault α) before fault ↔ cause ≠ fault := by
  simp [Avoids, throw, throwThe, MonadExceptOf.throw, StateT.lift]

@[simp] theorem avoids_get : Avoids (get : Program State Fault State) before fault := by
  intro h
  cases h

@[simp] theorem avoids_set {state : State} :
    Avoids (set state : Program State Fault PUnit) before fault := by
  intro h
  cases h

@[simp] theorem avoids_raiseIf {condition : Prop} [Decidable condition] {cause : Fault} :
    (raiseIf condition cause).Avoids before fault ↔ (condition → cause ≠ fault) := by
  unfold raiseIf
  split <;> simp [*]

@[simp] theorem avoids_orRaise {cause : Fault} {found : Option α} :
    (orRaise cause found).Avoids before fault ↔ (found = none → cause ≠ fault) := by
  cases found <;> simp [orRaise]

@[simp] theorem avoids_mapFault {translate : Fault → Fault} {program : Program State Fault α} :
    (program.mapFault translate).Avoids before fault ↔
      ∀ cause, translate cause = fault → program.Avoids before cause := by
  unfold Avoids mapFault
  cases program before with
  | ok result => simp
  | error raised =>
      constructor
      · rintro h cause hcause ⟨⟩
        exact h (congrArg Except.error hcause)
      · intro h htranslate
        exact h raised (Except.error.inj htranslate) rfl

end Avoids

end Program

end Foundations
