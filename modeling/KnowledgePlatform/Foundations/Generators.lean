import Mathlib.Tactic

/-!
# Programs that yield

A generator yields items on its way and in the end returns or raises.  What was
yielded before an exception has reached the consumer and stays; the state is lost
with it.

`Does` is what is known of a generator once and for all: the condition under which
it returns, what it then yields, and that otherwise it yields some first ones of
these items and raises.  There is one rule for each way generators are put
together; `Does.each` is the rule for loops over a list, and `Does.scan` that for
loops that pass over some entries and may stop at one.
-/

namespace Foundations

/-- Generators over a state that raise a fault. -/
def Generator (Item State Fault α : Type) := State → List Item × Except Fault (α × State)

namespace Generator

variable {Item State Fault α β γ : Type}

instance : Monad (Generator Item State Fault) where
  pure value := fun state => ([], .ok (value, state))
  bind first next := fun state =>
    match first state with
    | (items, .error fault) => (items, .error fault)
    | (items, .ok (value, state)) => (items ++ (next value state).1, (next value state).2)

/-- Yield an item. -/
def yield (item : Item) : Generator Item State Fault Unit := fun state => ([item], .ok ((), state))

def raise (fault : Fault) : Generator Item State Fault α := fun _ => ([], .error fault)

/-- Change the state. -/
def update (change : State → State) : Generator Item State Fault Unit := fun state =>
  ([], .ok ((), change state))

/-- The outcome of something that does not yield. -/
def ofExcept : Except Fault α → Generator Item State Fault α
  | .ok value => pure value
  | .error fault => raise fault

@[simp] theorem ofExcept_ok_bind (found : α) (next : α → Generator Item State Fault β) :
    ofExcept (.ok found) >>= next = next found := rfl

/-- When the condition holds the generator yields these items, returns this value
and changes the state this way.  Otherwise it raises, with some first ones of the
items yielded. -/
def Does (generator : Generator Item State Fault α) (value : α) (condition : Prop)
    (items : List Item) (change : State → State) : Prop :=
  ∀ before, (condition ∧ generator before = (items, .ok (value, change before))) ∨
    (¬condition ∧ ∃ found fault, found <+: items ∧ generator before = (found, .error fault))

variable {generator : Generator Item State Fault α} {value : α} {condition : Prop}
  {items : List Item} {change : State → State}

/-- The changes of the passes of a loop, one after the other. -/
def changes (change : β → State → State) (entries : List β) (state : State) : State :=
  entries.foldl (fun state entry => change entry state) state

@[simp] theorem changes_id (entries : List β) :
    changes (fun _ => id) entries = (id : State → State) := by
  funext state
  induction entries with
  | nil => rfl
  | cons _ _ ih => exact ih

/-- Of changes that replace the state the last one counts. -/
theorem changes_getD (replacement : β → Option State) (entries : List β) :
    changes (fun entry => (replacement entry).getD) entries =
      ((entries.filterMap replacement).getLast?).getD := by
  funext state
  induction entries generalizing state with
  | nil => rfl
  | cons entry entries ih =>
      show changes _ entries ((replacement entry).getD state) = _
      rw [ih]
      cases hreplacement : replacement entry with
      | none => rw [List.filterMap_cons_none hreplacement, Option.getD_none]
      | some replaced =>
          rw [List.filterMap_cons_some hreplacement, List.getLast?_cons, Option.getD_some,
            Option.getD_some]

namespace Does

/-- A generator returns if and only if the condition holds. -/
theorem returns_iff (h : generator.Does value condition items change) {before after : State}
    {found : List Item} {result : α} : generator before = (found, .ok (result, after)) ↔
      condition ∧ found = items ∧ result = value ∧ after = change before := by
  rcases h before with ⟨hholds, hreturns⟩ | ⟨hfails, _, _, _, hraises⟩
  · rw [hreturns, Prod.mk.injEq, Except.ok.injEq, Prod.mk.injEq]
    exact ⟨fun ⟨hitems, hvalue, hstate⟩ => ⟨hholds, hitems.symm, hvalue.symm, hstate.symm⟩,
      fun ⟨_, hitems, hvalue, hstate⟩ => ⟨hitems.symm, hvalue.symm, hstate.symm⟩⟩
  · rw [hraises]
    constructor
    · intro hreturns
      cases hreturns
    · rintro ⟨hholds, _⟩
      exact absurd hholds hfails

/-- What a generator yields is a beginning of the items. -/
theorem begins (h : generator.Does value condition items change) (before : State) :
    (generator before).1 <+: items := by
  rcases h before with ⟨_, hreturns⟩ | ⟨_, _, _, hfound, hraises⟩
  · rw [hreturns]
  · rw [hraises]
    exact hfound

theorem congr (h : generator.Does value condition items change) {condition' : Prop}
    (hiff : condition ↔ condition') : generator.Does value condition' items change :=
  (propext hiff) ▸ h

theorem of_pure : Does (pure value : Generator Item State Fault α) value True [] id :=
  fun _ => .inl ⟨trivial, rfl⟩

theorem of_yield (item : Item) :
    Does (yield item : Generator Item State Fault Unit) () True [item] id :=
  fun _ => .inl ⟨trivial, rfl⟩

theorem of_raise (fault : Fault) (items : List Item) (change : State → State) :
    Does (raise fault : Generator Item State Fault α) value False items change :=
  fun _ => .inr ⟨not_false, [], fault, List.nil_prefix, rfl⟩

/-- One generator after the other. -/
theorem bind (h : generator.Does value condition items change)
    {next : α → Generator Item State Fault β} {result : β} {condition' : Prop}
    {items' : List Item} {change' : State → State}
    (hnext : (next value).Does result condition' items' change') :
    (generator >>= next).Does result (condition ∧ condition') (items ++ items')
      (change' ∘ change) := by
  intro before
  simp only [Bind.bind]
  rcases h before with ⟨hholds, hreturns⟩ | ⟨hfails, found, fault, hfound, hraises⟩
  · rw [hreturns]
    rcases hnext (change before) with ⟨hholds', hlater⟩ | ⟨hfails', found, fault, hfound, hlater⟩
    · refine .inl ⟨⟨hholds, hholds'⟩, ?_⟩
      show (items ++ (next value (change before)).1, (next value (change before)).2) = _
      rw [hlater]
      rfl
    · refine .inr ⟨fun hboth => hfails' hboth.2, items ++ found, fault,
        (List.prefix_append_right_inj items).mpr hfound, ?_⟩
      show (items ++ (next value (change before)).1, (next value (change before)).2) = _
      rw [hlater]
  · exact .inr ⟨fun hboth => hfails hboth.1, found, fault,
      hfound.trans (List.prefix_append items items'), by rw [hraises]⟩

/-- A generator whose value is not used. -/
theorem returning (h : generator.Does value condition items change) (result : β) :
    (generator >>= fun _ => pure result).Does result condition items change := by
  rw [← List.append_nil items, ← and_true condition]
  show Does _ _ _ _ (id ∘ change)
  refine h.bind ?_
  exact of_pure

/-- Nothing is yielded before an outcome is there. -/
theorem attempt {outcome : Except Fault α} {next : α → Generator Item State Fault β} {result : β}
    (hok : ∀ found, outcome = .ok found → (next found).Does result condition items change)
    (herror : ∀ fault, outcome = .error fault → ¬condition) :
    (ofExcept outcome >>= next).Does result condition items change := by
  cases houtcome : outcome with
  | ok found => exact hok found houtcome
  | error fault =>
      exact fun _ => .inr ⟨herror fault houtcome, [], fault, List.nil_prefix, rfl⟩

section Loops

variable {entry : β} {entries : List β}
  {body : β → PUnit → Generator Item State Fault (ForInStep PUnit)}

/-- A pass that goes on, and the passes after it. -/
theorem cons (h : (body entry ⟨⟩).Does (.yield ⟨⟩) condition items change) {condition' : Prop}
    {items' : List Item} {change' : State → State}
    (hlater : (forIn entries PUnit.unit body).Does ⟨⟩ condition' items' change') :
    (forIn (entry :: entries) PUnit.unit body).Does ⟨⟩ (condition ∧ condition') (items ++ items')
      (change' ∘ change) := by
  rw [List.forIn_cons]
  exact h.bind hlater

/-- A pass that ends the loop. -/
theorem last (h : (body entry ⟨⟩).Does (.done ⟨⟩) condition items change) :
    (forIn (entry :: entries) PUnit.unit body).Does ⟨⟩ condition items change := by
  rw [List.forIn_cons, ← List.append_nil items, ← and_true condition]
  show Does _ _ _ _ (id ∘ change)
  refine h.bind ?_
  exact of_pure

/-- A loop over a list. -/
theorem each {condition : β → Prop} {items : β → List Item} {change : β → State → State}
    (hbody : ∀ entry ∈ entries, (body entry ⟨⟩).Does (.yield ⟨⟩) (condition entry) (items entry)
      (change entry)) :
    (forIn entries PUnit.unit body).Does ⟨⟩ (∀ entry ∈ entries, condition entry)
      (entries.flatMap items) (changes change entries) := by
  induction entries with
  | nil => exact of_pure.congr (by simp)
  | cons entry entries ih =>
      have hlater := ih fun later hmem => hbody later (List.mem_cons_of_mem entry hmem)
      rw [List.flatMap_cons, List.forall_mem_cons]
      exact (hbody entry List.mem_cons_self).cons hlater

end Loops

end Does

/-- What a loop does with an entry: it passes over it, stops at it, or makes
something of it. -/
inductive Pass (γ : Type)
  | skip
  | stop
  | take (payload : γ)

/-- What a loop takes from its entries. -/
def taken (pass : β → Pass γ) : List β → List γ
  | [] => []
  | entry :: entries =>
      match pass entry with
      | .skip => taken pass entries
      | .stop => []
      | .take payload => payload :: taken pass entries

/-- A loop that passes over entries and may stop at one. -/
theorem Does.scan {entries : List β}
    {body : β → PUnit → Generator Item State Fault (ForInStep PUnit)} (pass : β → Pass γ)
    {condition : γ → Prop} {items : γ → List Item} {change : γ → State → State}
    (hskip : ∀ entry, pass entry = .skip → (body entry ⟨⟩).Does (.yield ⟨⟩) True [] id)
    (hstop : ∀ entry, pass entry = .stop → (body entry ⟨⟩).Does (.done ⟨⟩) True [] id)
    (htake : ∀ entry payload, pass entry = .take payload → (body entry ⟨⟩).Does (.yield ⟨⟩)
      (condition payload) (items payload) (change payload)) :
    (forIn entries PUnit.unit body).Does ⟨⟩ (∀ payload ∈ taken pass entries, condition payload)
      ((taken pass entries).flatMap items) (changes change (taken pass entries)) := by
  induction entries with
  | nil => exact of_pure.congr (by simp [taken])
  | cons entry entries ih =>
      cases hpass : pass entry with
      | skip =>
          simp only [taken, hpass]
          exact ((hskip entry hpass).cons ih).congr (by simp)
      | stop =>
          simp only [taken, hpass]
          exact (hstop entry hpass).last.congr (by simp)
      | take payload =>
          simp only [taken, hpass, List.flatMap_cons, List.forall_mem_cons]
          exact (htake entry payload hpass).cons ih

end Generator

end Foundations
