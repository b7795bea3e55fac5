import Mathlib.Algebra.Order.Floor.Ring
import Mathlib.Data.List.Count
import Mathlib.Tactic

/-!
# Counters that expire

A store of counters with increments, which create a counter, and deadlines, at
which a counter disappears.  A deadline is set by a command of its own, so it may
come late or never.

Counters have names.  Each name has a time up to which its counter is needed, and
the counter has the number of increments under its name until then
(`Counting`) as long as no deadline lies before that time.

The last sections are about windows of a fixed width, and about who comes first
when a limited number is admitted.
-/

namespace Foundations

structure Counter (Time : Type*) where
  count : ℕ
  deadline : Option Time

/-- The counters that are stored, those that have expired among them. -/
abbrev Counters (Key Time : Type*) := Key → Option (Counter Time)

namespace Counters

variable {Key Time Name : Type*} [LinearOrder Time]

/-- The counter, unless its deadline has passed. -/
def find (counters : Counters Key Time) (now : Time) (key : Key) : Option (Counter Time) :=
  (counters key).filter fun counter => counter.deadline.all fun deadline => now < deadline

/-- The count of a counter; there are none at first. -/
def value (counters : Counters Key Time) (now : Time) (key : Key) : ℕ :=
  ((counters.find now key).map Counter.count).getD 0

/-- Count once more.  A deadline stays as it is. -/
def incr [DecidableEq Key] (counters : Counters Key Time) (now : Time) (key : Key) :
    ℕ × Counters Key Time :=
  let count := counters.value now key + 1
  (count, Function.update counters key
    (some ⟨count, (counters.find now key).bind Counter.deadline⟩))

/-- Let a counter disappear after a while. -/
def expire [DecidableEq Key] [Add Time] (counters : Counters Key Time) (now : Time) (key : Key)
    (delay : Time) : Counters Key Time :=
  match counters.find now key with
  | none => counters
  | some counter => Function.update counters key (some { counter with deadline := now + delay })

theorem find_eq_some_iff {counters : Counters Key Time} {now : Time} {key : Key}
    {counter : Counter Time} : counters.find now key = some counter ↔
      counters key = some counter ∧
        ∀ deadline, counter.deadline = some deadline → now < deadline := by
  rw [find, Option.filter_eq_some_iff]
  refine and_congr_right fun _ => ?_
  cases counter.deadline <;> simp

section Update

variable [DecidableEq Key] {counters : Counters Key Time} {now : Time} {key other : Key}

theorem value_update_self {counter : Counter Time}
    (h : ∀ deadline, counter.deadline = some deadline → now < deadline) :
    value (Function.update counters key (some counter)) now key = counter.count := by
  have hfind : find (Function.update counters key (some counter)) now key = some counter :=
    find_eq_some_iff.mpr ⟨Function.update_self .., h⟩
  rw [value, hfind, Option.map_some, Option.getD_some]

theorem value_update_of_ne (h : other ≠ key) (counter : Option (Counter Time)) :
    value (Function.update counters key counter) now other = counters.value now other := by
  rw [value, value, find, find, Function.update_of_ne h]

theorem incr_snd : (counters.incr now key).2 = Function.update counters key
    (some ⟨counters.value now key + 1, (counters.find now key).bind Counter.deadline⟩) := rfl

theorem expire_of_find [Add Time] {counter : Counter Time} {delay : Time}
    (h : counters.find now key = some counter) : counters.expire now key delay =
      Function.update counters key (some { counter with deadline := now + delay }) := by
  rw [expire, h]

end Update

/-! ## Counting under names -/

/-- Each counter lasts until it is no longer needed, and counts until then. -/
structure Counting (key : Name → Key) (needed : Name → Time) (hits : Name → ℕ)
    (counters : Counters Key Time) (now : Time) : Prop where
  lasts : ∀ name counter deadline, counters (key name) = some counter →
    counter.deadline = some deadline → needed name ≤ deadline
  counts : ∀ name, now < needed name → counters.value now (key name) = hits name

namespace Counting

variable {key : Name → Key} {needed : Name → Time} {hits hits' : Name → ℕ}
  {counters : Counters Key Time} {now later : Time}

theorem empty (now : Time) : Counting key needed (fun _ => 0) (fun _ => none) now where
  lasts name counter deadline hfound := by cases hfound
  counts name _ := rfl

/-- A counter that is needed is there. -/
theorem find_eq (h : Counting key needed hits counters now) {name : Name}
    (hneeded : later < needed name) : counters.find later (key name) = counters (key name) := by
  cases hcounter : counters (key name) with
  | none => rw [find, hcounter, Option.filter_none]
  | some counter =>
      refine find_eq_some_iff.mpr ⟨hcounter, fun deadline hdeadline => ?_⟩
      exact hneeded.trans_le (h.lasts name counter deadline hcounter hdeadline)

/-- Time passes. -/
theorem wait (h : Counting key needed hits counters now) (hlater : now ≤ later) :
    Counting key needed hits counters later where
  lasts := h.lasts
  counts name hneeded := by
    have hbefore := hlater.trans_lt hneeded
    rw [← h.counts name hbefore, value, value, h.find_eq hneeded, h.find_eq hbefore]

/-- The deadline that an increment keeps. -/
theorem needed_le_kept (h : Counting key needed hits counters now) {name : Name} {deadline : Time}
    (hkept : (counters.find now (key name)).bind Counter.deadline = some deadline) :
    needed name ≤ deadline := by
  obtain ⟨counter, hcounter, hdeadline⟩ := Option.bind_eq_some_iff.mp hkept
  exact h.lasts name counter deadline (find_eq_some_iff.mp hcounter).1 hdeadline

variable [DecidableEq Key]

/-- An increment counts for its own name only. -/
theorem incr (h : Counting key needed hits counters now) (hkey : Function.Injective key)
    {name : Name} (hname : hits' name = hits name + 1)
    (hothers : ∀ other, other ≠ name → hits' other = hits other) :
    Counting key needed hits' (counters.incr now (key name)).2 now := by
  rw [incr_snd]
  refine ⟨fun other counter deadline hcounter hdeadline => ?_, fun other hneeded => ?_⟩
  · by_cases hsame : other = name
    · subst hsame
      rw [Function.update_self] at hcounter
      cases hcounter
      exact h.needed_le_kept hdeadline
    · rw [Function.update_of_ne (hkey.ne hsame)] at hcounter
      exact h.lasts other counter deadline hcounter hdeadline
  · by_cases hsame : other = name
    · subst hsame
      rw [value_update_self fun deadline hkept => hneeded.trans_le (h.needed_le_kept hkept),
        h.counts other hneeded, hname]
    · rw [value_update_of_ne (hkey.ne hsame), h.counts other hneeded, hothers other hsame]

/-- A deadline behind the time the counter is needed changes nothing. -/
theorem expire [Add Time] (h : Counting key needed hits counters now) {expiring : Key}
    {delay : Time} (hdelay : ∀ name, key name = expiring → needed name ≤ now + delay) :
    Counting key needed hits (counters.expire now expiring delay) now := by
  cases hfound : counters.find now expiring with
  | none =>
      rw [Counters.expire, hfound]
      exact h
  | some counter =>
      rw [expire_of_find hfound]
      refine ⟨fun name stored deadline hstored hdeadline => ?_, fun name hneeded => ?_⟩
      · by_cases hsame : key name = expiring
        · rw [hsame, Function.update_self] at hstored
          cases hstored
          cases hdeadline
          exact hdelay name hsame
        · rw [Function.update_of_ne hsame] at hstored
          exact h.lasts name stored deadline hstored hdeadline
      · rw [← h.counts name hneeded]
        by_cases hsame : key name = expiring
        · subst hsame
          rw [value_update_self, value, hfound, Option.map_some, Option.getD_some]
          rintro deadline ⟨⟩
          exact hneeded.trans_le (hdelay name rfl)
        · rw [value_update_of_ne hsame]

end Counting

end Counters

/-! ## Windows of a fixed width -/

section FixedWindow

variable {K : Type*} [Field K] [LinearOrder K] [IsStrictOrderedRing K] [FloorRing K]

/-- The number of the window a time lies in. -/
def windowOf (width time : K) : ℤ := ⌊time / width⌋

variable {width time start : K}

theorem windowOf_mul_le (hwidth : 0 < width) : windowOf width time * width ≤ time :=
  (le_div_iff₀ hwidth).mp (Int.floor_le _)

theorem lt_windowOf_add_one_mul (hwidth : 0 < width) :
    time < (windowOf width time + 1) * width :=
  (div_lt_iff₀ hwidth).mp (Int.lt_floor_add_one _)

/-- An interval as long as a window meets two of them at most. -/
theorem windowOf_eq_or_eq_add_one (hwidth : 0 < width) (hstart : start ≤ time)
    (hstop : time ≤ start + width) :
    windowOf width time = windowOf width start ∨
      windowOf width time = windowOf width start + 1 := by
  have hlow : windowOf width start ≤ windowOf width time :=
    Int.floor_le_floor (div_le_div_of_nonneg_right hstart hwidth.le)
  have hhigh : windowOf width time ≤ windowOf width start + 1 := by
    calc windowOf width time
        ≤ ⌊(start + width) / width⌋ :=
          Int.floor_le_floor (div_le_div_of_nonneg_right hstop hwidth.le)
      _ = ⌊start / width + 1⌋ := by rw [add_div, div_self hwidth.ne']
      _ = windowOf width start + 1 := Int.floor_add_one _
  omega

/-- What a window admits at most, an interval as long admits twice at most. -/
theorem countP_interval_le {α : Type*} {calls : List α} {timeOf : α → K} {admitted : α → Bool}
    {limit : ℕ} (hwidth : 0 < width)
    (hwindow : ∀ number, (calls.filter fun call => windowOf width (timeOf call) = number).countP
      admitted ≤ limit) (start : K) :
    calls.countP (fun call => start ≤ timeOf call ∧ timeOf call ≤ start + width ∧ admitted call)
      ≤ 2 * limit := by
  have hfirst := hwindow (windowOf width start)
  have hsecond := hwindow (windowOf width start + 1)
  rw [List.countP_filter] at hfirst hsecond
  rw [List.countP_eq_countP_filter_add _ _ fun call =>
    windowOf width (timeOf call) = windowOf width start, List.countP_filter, List.countP_filter,
    two_mul]
  refine Nat.add_le_add (le_trans (List.countP_mono_left ?_) hfirst)
    (le_trans (List.countP_mono_left ?_) hsecond)
  · intro call _ hcall
    simp only [Bool.and_eq_true, decide_eq_true_eq] at hcall ⊢
    exact ⟨hcall.1.2.2, hcall.2⟩
  · intro call _ hcall
    simp only [Bool.and_eq_true, decide_eq_true_eq, Bool.not_eq_true', decide_eq_false_iff_not]
      at hcall ⊢
    obtain ⟨⟨hstart, hstop, hadmitted⟩, hother⟩ := hcall
    exact ⟨hadmitted, (windowOf_eq_or_eq_add_one hwidth hstart hstop).resolve_left hother⟩

end FixedWindow

/-- Answers that agree in each class of calls agree. -/
theorem eq_of_classes {α β γ : Type*} [DecidableEq γ] (classOf : α → γ)
    {first second : List (α × β)} (hcalls : first.map Prod.fst = second.map Prod.fst)
    (hclasses : ∀ c, (first.filter fun call => classOf call.1 = c).map Prod.snd =
      (second.filter fun call => classOf call.1 = c).map Prod.snd) : first = second := by
  induction first generalizing second with
  | nil => exact (List.map_eq_nil_iff.mp hcalls.symm).symm
  | cons call rest ih =>
      cases second with
      | nil => cases hcalls
      | cons call' rest' =>
          simp only [List.map_cons, List.cons.injEq] at hcalls
          obtain ⟨hcall, hrest⟩ := hcalls
          have hsame := hclasses (classOf call.1)
          have hown : classOf call'.1 = classOf call.1 := by rw [hcall]
          rw [List.filter_cons_of_pos (by simp), List.filter_cons_of_pos (by simpa using hown),
            List.map_cons, List.map_cons, List.cons.injEq] at hsame
          have hlater : rest = rest' := by
            refine ih hrest fun c => ?_
            have hclass := hclasses c
            rw [List.filter_cons, List.filter_cons, hown] at hclass
            split at hclass
            · exact List.tail_eq_of_cons_eq hclass
            · exact hclass
          rw [hlater, Prod.ext hcall hsame.1]

/-! ## The first ones -/

/-- The answers to so many calls when a limited number is admitted. -/
def firstAdmitted {Answer : Type*} (accept refuse : Answer) (limit calls : ℕ) : List Answer :=
  List.replicate (min limit calls) accept ++ List.replicate (calls - limit) refuse

theorem firstAdmitted_succ {Answer : Type*} (accept refuse : Answer) (limit calls : ℕ) :
    firstAdmitted accept refuse limit (calls + 1) =
      firstAdmitted accept refuse limit calls ++ [if calls < limit then accept else refuse] := by
  unfold firstAdmitted
  by_cases hroom : calls < limit
  · have hnone : calls + 1 - limit = 0 := by omega
    have hnone' : calls - limit = 0 := by omega
    rw [if_pos hroom, hnone, hnone', min_eq_right hroom.le, min_eq_right hroom,
      List.replicate_succ']
    simp
  · have hfull : limit ≤ calls := not_lt.mp hroom
    have hmore : calls + 1 - limit = calls - limit + 1 := by omega
    rw [if_neg hroom, hmore, min_eq_left hfull, min_eq_left (by omega), List.replicate_succ',
      List.append_assoc]

theorem count_firstAdmitted_le {Answer : Type*} [DecidableEq Answer] {accept refuse : Answer}
    (hne : accept ≠ refuse) (limit calls : ℕ) :
    (firstAdmitted accept refuse limit calls).count accept ≤ limit := by
  rw [firstAdmitted, List.count_append, List.count_replicate_self,
    List.count_replicate, if_neg (by simpa using hne.symm), add_zero]
  exact min_le_left _ _

end Foundations
