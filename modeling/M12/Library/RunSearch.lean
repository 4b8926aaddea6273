/-
This file is a library for finding a run of consecutive indices in one pass.

The pass keeps the length of the run that ends just before the current index and
where that run starts. What lies before the start can hold no run of the length
sought: every window from there has an index without the property. So the first
run that gets long enough is the one that starts lowest, and a pass that comes to
its end has missed none.
-/

import Mathlib.Order.Bounds.Basic

namespace RunSearch

/-- The `count` indices from `first` on lie below `total` and have the property. -/
def Run (good : Nat → Prop) (total count first : Nat) : Prop :=
  ∀ i, first ≤ i → i < first + count → i < total ∧ good i

/-- The pass from `i` on, with `length` good indices just behind it, the first of them `start`. -/
def search (good : Nat → Prop) [DecidablePred good] (count : Nat) :
    Nat → Nat → Nat → Nat → Option Nat
  | 0, _, _, _ => none
  | remaining + 1, i, length, start =>
    if good i then
      let start := if length = 0 then i else start
      if length + 1 ≥ count then some start
      else search good count remaining (i + 1) (length + 1) start
    else search good count remaining (i + 1) 0 start

/-- What the pass knows at an index: the run that ends there, and that none starts before it. -/
structure Passed (good : Nat → Prop) (total count i length start : Nat) : Prop where
  short : length < count
  begin : length ≠ 0 → start + length = i
  behind : length ≤ i
  run : ∀ k, i ≤ k + length → k < i → good k
  none : ∀ first, first + length < i → ¬ Run good total count first

section Search

variable {good : Nat → Prop} {total count i length start : Nat}

theorem passed_start (positive : 0 < count) : Passed good total count 0 0 0 where
  short := positive
  begin absurdity := absurd rfl absurdity
  behind := Nat.le_refl 0
  run k _ before := absurd before (Nat.not_lt_zero k)
  none _ before := absurd before (Nat.not_lt_zero _)

variable (passed : Passed good total count i length start)
include passed

/-- Where the run that ends at `i` starts once `i` has joined it. -/
theorem Passed.start_add : (if length = 0 then i else start) + length = i := by
  by_cases empty : length = 0
  · rw [if_pos empty, empty, Nat.add_zero]
  · rw [if_neg empty]
    exact passed.begin empty

/-- One more good index, and the run is not long enough yet. -/
theorem Passed.extend (here : good i) (short : length + 1 < count) :
    Passed good total count (i + 1) (length + 1) (if length = 0 then i else start) where
  short := short
  begin _ := by rw [← Nat.add_assoc, passed.start_add]
  behind := Nat.succ_le_succ passed.behind
  run k low before := by
    by_cases last : k = i
    · exact last ▸ here
    · exact passed.run k (by omega) (by omega)
  none first before := passed.none first (by omega)

/-- An index without the property ends the run, and no run from before it goes past it. -/
theorem Passed.reset (here : ¬ good i) : Passed good total count (i + 1) 0 start where
  short := Nat.zero_lt_of_lt passed.short
  begin absurdity := absurd rfl absurdity
  behind := Nat.zero_le _
  run k low before := absurd before (by omega)
  none first before run := by
    have short := passed.short
    by_cases earlier : first + length < i
    · exact passed.none first earlier run
    · exact here (run i (by omega) (by omega)).2

/-- The run is long enough: it is the lowest. -/
theorem Passed.found (here : good i) (inside : i < total) (long : length + 1 ≥ count) :
    IsLeast {first | Run good total count first} (if length = 0 then i else start) := by
  have short := passed.short
  have place := passed.start_add
  refine ⟨fun k low high => ⟨by omega, ?_⟩, fun first run => ?_⟩
  · by_cases last : k = i
    · exact last ▸ here
    · exact passed.run k (by omega) (by omega)
  · by_contra lower
    exact passed.none first (by omega) run

/-- The pass is over: a run would have to go past its end. -/
theorem Passed.over (atEnd : i = total) (first : Nat) : ¬ Run good total count first := by
  intro run
  have short := passed.short
  by_cases earlier : first + length < i
  · exact passed.none first earlier run
  · have beyond := (run (max first total) (Nat.le_max_left ..) (by omega)).1
    omega

omit passed in
/-- The pass finds the lowest run, or there is none. -/
theorem search_spec [DecidablePred good] {remaining : Nat}
    (passed : Passed good total count i length start) (all : i + remaining = total) :
    (∃ first, search good count remaining i length start = some first ∧
        IsLeast {first | Run good total count first} first) ∨
      (search good count remaining i length start = none ∧
        ∀ first, ¬ Run good total count first) := by
  induction remaining generalizing i length start with
  | zero => exact Or.inr ⟨rfl, passed.over all⟩
  | succ remaining inductionHypothesis =>
    rw [search]
    by_cases here : good i
    · rw [if_pos here]
      by_cases long : length + 1 ≥ count
      · simp only [if_pos long]
        exact Or.inl ⟨_, rfl, passed.found here (by omega) long⟩
      · simp only [if_neg long]
        exact inductionHypothesis (passed.extend here (by omega)) (by omega)
    · rw [if_neg here]
      exact inductionHypothesis (passed.reset here) (by omega)

end Search

end RunSearch
