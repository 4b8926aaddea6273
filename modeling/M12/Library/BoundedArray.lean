/-
This file is a library for an array of fixed size whose accesses are checked.

Reading or writing outside the array has no result, so a computation that has one
has kept to the array. A text in the array grows at its end or at its front, is
turned around in place by exchanging elements from both ends inwards, and is read
up to a terminator.
-/

import Mathlib.Logic.Function.Basic
import Mathlib.Data.List.Basic

/-- `size` elements. -/
structure BoundedArray (α : Type*) (size : Nat) where
  element : Fin size → α

namespace BoundedArray

variable {α : Type*} {size : Nat}

/-! ### Accesses -/

/-- The element at an index of the array. -/
def read (a : BoundedArray α size) (i : Nat) : Option α :=
  if inside : i < size then some (a.element ⟨i, inside⟩) else none

/-- The array with another element at an index of it. -/
def write (a : BoundedArray α size) (i : Nat) (value : α) : Option (BoundedArray α size) :=
  if inside : i < size then some ⟨Function.update a.element ⟨i, inside⟩ value⟩ else none

/-- Exchange the elements at `j` and `k`, then those further in, until the two meet. -/
def reverseBetween (a : BoundedArray α size) (j k : Nat) : Option (BoundedArray α size) :=
  if j < k then do
    let first ← a.read j
    let last ← a.read k
    let a ← a.write j last
    let a ← a.write k first
    a.reverseBetween (j + 1) (k - 1)
  else some a
termination_by k - j

/-- The elements from an index up to a terminator, which has to be in the array. -/
def textFrom [DecidableEq α] (stop : α) (a : BoundedArray α size) (i : Nat) : Option (List α) :=
  if inside : i < size then
    if a.element ⟨i, inside⟩ = stop then some []
    else (a.textFrom stop (i + 1)).map (a.element ⟨i, inside⟩ :: ·)
  else none
termination_by size - i

theorem read_of_lt (a : BoundedArray α size) {i : Nat} (inside : i < size) :
    a.read i = some (a.element ⟨i, inside⟩) := dif_pos inside

theorem lt_of_read {a : BoundedArray α size} {i : Nat} {value : α} (found : a.read i = some value) :
    i < size := by
  by_contra outside
  rw [read, dif_neg outside] at found
  exact Option.some_ne_none value found.symm

/-- A write inside the array changes the one element. -/
theorem exists_write (a : BoundedArray α size) {i : Nat} (inside : i < size) (value : α) :
    ∃ b, a.write i value = some b ∧ ∀ j, b.read j = if j = i then some value else a.read j := by
  refine ⟨_, dif_pos inside, fun j => ?_⟩
  by_cases here : j = i
  · subst here
    rw [if_pos rfl, read_of_lt _ inside]
    exact congrArg some (Function.update_self ..)
  · rw [if_neg here]
    by_cases insideJ : j < size
    · rw [read_of_lt _ insideJ, read_of_lt _ insideJ]
      refine congrArg some (Function.update_of_ne ?_ ..)
      exact fun same => here (congrArg Fin.val same)
    · rw [read, read, dif_neg insideJ, dif_neg insideJ]

/-! ### Texts -/

/-- The array holds a text from an index on. -/
def Holds (a : BoundedArray α size) (start : Nat) (text : List α) : Prop :=
  ∀ k < text.length, a.read (start + k) = text[k]?

theorem holds_nil (a : BoundedArray α size) (start : Nat) : a.Holds start [] :=
  fun k inside => absurd inside (Nat.not_lt_zero k)

/-- A text grows by an element at its end. -/
theorem Holds.append {a : BoundedArray α size} {start : Nat} {text : List α}
    (holds : a.Holds start text) (room : start + text.length < size) (value : α) :
    ∃ b, a.write (start + text.length) value = some b ∧ b.Holds start (text ++ [value]) := by
  obtain ⟨b, wrote, reads⟩ := a.exists_write room value
  refine ⟨b, wrote, fun k inside => ?_⟩
  rw [List.length_append, List.length_singleton] at inside
  rw [reads]
  by_cases last : k = text.length
  · rw [last, if_pos rfl, List.getElem?_concat_length]
  · rw [if_neg (by omega), List.getElem?_append_left (by omega)]
    exact holds k (by omega)

/-- Or by one at its front. -/
theorem Holds.cons {a : BoundedArray α size} {start : Nat} {text : List α}
    (holds : a.Holds (start + 1) text) (room : start < size) (value : α) :
    ∃ b, a.write start value = some b ∧ b.Holds start (value :: text) := by
  obtain ⟨b, wrote, reads⟩ := a.exists_write room value
  refine ⟨b, wrote, fun k inside => ?_⟩
  rw [reads]
  cases k with
  | zero => rw [Nat.add_zero, if_pos rfl, List.getElem?_cons_zero]
  | succ k =>
    rw [List.length_cons] at inside
    rw [if_neg (by omega), List.getElem?_cons_succ, ← holds k (by omega)]
    exact congrArg a.read (by omega)

/-- The elements between the two indices are turned around and the others stay. -/
theorem exists_reverseBetween (a : BoundedArray α size) (j : Nat) {k : Nat} (inside : k < size) :
    ∃ b, a.reverseBetween j k = some b ∧
      ∀ i, b.read i = if j ≤ i ∧ i ≤ k then a.read (j + k - i) else a.read i := by
  induction a, j, k using reverseBetween.induct with
  | case1 a j k before inductionHypothesis =>
    obtain ⟨b, wroteB, readsB⟩ := a.exists_write (Nat.lt_trans before inside)
      (a.element ⟨k, inside⟩)
    obtain ⟨c, wroteC, readsC⟩ := b.exists_write inside
      (a.element ⟨j, Nat.lt_trans before inside⟩)
    obtain ⟨d, reversed, readsD⟩ := inductionHypothesis c (by omega)
    refine ⟨d, ?_, fun i => ?_⟩
    · rw [reverseBetween, if_pos before, a.read_of_lt (Nat.lt_trans before inside),
        a.read_of_lt inside]
      simp only [Option.bind_eq_bind, Option.bind_some, wroteB, wroteC]
      exact reversed
    · have first := a.read_of_lt (Nat.lt_trans before inside)
      have last := a.read_of_lt inside
      rw [readsD]
      by_cases further : j + 1 ≤ i ∧ i ≤ k - 1
      · rw [if_pos further, if_pos (by omega), readsC, if_neg (by omega), readsB,
          if_neg (by omega), show j + 1 + (k - 1) - i = j + k - i by omega]
      · rw [if_neg further, readsC, readsB, ← first, ← last]
        by_cases atLast : i = k
        · rw [if_pos atLast, if_pos (by omega), show j + k - i = j by omega]
        · rw [if_neg atLast]
          by_cases atFirst : i = j
          · rw [if_pos atFirst, if_pos (by omega), show j + k - i = k by omega]
          · rw [if_neg atFirst, if_neg (by omega)]
  | case2 a j k apart =>
    refine ⟨a, ?_, fun i => ?_⟩
    · rw [reverseBetween, if_neg apart]
    · by_cases here : j ≤ i ∧ i ≤ k
      · rw [if_pos here, show j + k - i = i by omega]
      · rw [if_neg here]

/-- Turning a text around in place, from its first element to its last. -/
theorem Holds.reverse {a : BoundedArray α size} {text rest : List α}
    (holds : a.Holds 0 (text ++ rest)) (room : text.length - 1 < size) :
    ∃ b, a.reverseBetween 0 (text.length - 1) = some b ∧ b.Holds 0 (text.reverse ++ rest) := by
  obtain ⟨b, reversed, reads⟩ := a.exists_reverseBetween 0 room
  refine ⟨b, reversed, fun k inside => ?_⟩
  rw [List.length_append, List.length_reverse] at inside
  rw [Nat.zero_add, reads]
  by_cases first : k < text.length
  · have held := holds (text.length - 1 - k) (by rw [List.length_append]; omega)
    rw [if_pos (by omega), Nat.zero_add, ← Nat.zero_add (text.length - 1 - k), held,
      List.getElem?_append_left (by omega), List.getElem?_append_left
        (by rw [List.length_reverse]; exact first), List.getElem?_reverse first]
  · have held := holds k (by rw [List.length_append]; exact inside)
    rw [Nat.zero_add, List.getElem?_append_right (by omega)] at held
    rw [List.getElem?_append_right (by rw [List.length_reverse]; omega), List.length_reverse,
      ← held]
    by_cases empty : text.length = 0
    · by_cases zero : k = 0
      · rw [if_pos (by omega), show 0 + (text.length - 1) - k = k by omega]
      · rw [if_neg (by omega)]
    · rw [if_neg (by omega)]

/-- A text that ends in a terminator is read to its end. -/
theorem Holds.textFrom [DecidableEq α] {stop : α} {a : BoundedArray α size} {start : Nat}
    {text : List α} (holds : a.Holds start (text ++ [stop])) (plain : stop ∉ text) :
    a.textFrom stop start = some text := by
  induction text generalizing start with
  | nil =>
    have ends := holds 0 Nat.one_pos
    rw [Nat.add_zero, List.nil_append, List.getElem?_cons_zero] at ends
    have inside := lt_of_read ends
    rw [a.read_of_lt inside] at ends
    rw [BoundedArray.textFrom, dif_pos inside, if_pos (Option.some.inj ends)]
  | cons value rest inductionHypothesis =>
    have here := holds 0 (Nat.succ_pos _)
    rw [Nat.add_zero, List.cons_append, List.getElem?_cons_zero] at here
    have inside := lt_of_read here
    rw [a.read_of_lt inside] at here
    rw [List.mem_cons, not_or] at plain
    have later : a.Holds (start + 1) (rest ++ [stop]) := by
      intro k insideK
      have held := holds (k + 1) (Nat.succ_lt_succ insideK)
      rw [List.cons_append, List.getElem?_cons_succ] at held
      rw [← held]
      exact congrArg a.read (by omega)
    rw [BoundedArray.textFrom, dif_pos inside, Option.some.inj here, if_neg (Ne.symm plain.1),
      inductionHypothesis later plain.2, Option.map_some]

end BoundedArray
