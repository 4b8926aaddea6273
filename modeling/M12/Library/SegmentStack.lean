/-
This file is a library for stacks of 16-bit words in a segment of 64 KB.

A segment is a function from 16-bit offsets to bytes, and offsets wrap around its
end. Words pushed one after the other lie one below the other, can be read back
from where they were put, and change no other byte.
-/

import Mathlib

namespace SegmentStack

/-- The contents of a segment. -/
abbrev Segment := BitVec 16 → BitVec 8

/-- The little-endian word at an offset. -/
def word (segment : Segment) (offset : BitVec 16) : BitVec 16 :=
  segment (offset + 1#16) ++ segment offset

/-- Store a little-endian word. -/
def put (segment : Segment) (offset value : BitVec 16) : Segment := fun x =>
  if x = offset then value.setWidth 8
  else if x = offset + 1#16 then value.extractLsb' 8 8
  else segment x

/-- The stack pointer `count` words below `top`. -/
def below (top : BitVec 16) (count : Nat) : BitVec 16 := top - BitVec.ofNat 16 (2 * count)

/-- Store words downwards from `top`, first word highest. -/
def pushWords (segment : Segment) (top : BitVec 16) : List (BitVec 16) → Segment
  | [] => segment
  | value :: values => pushWords (put segment (below top 1) value) (below top 1) values

theorem below_below (top : BitVec 16) (first second : Nat) :
    below (below top first) second = below top (first + second) := by
  rw [below, below, below, Nat.mul_add, BitVec.ofNat_add, BitVec.sub_sub]

/-- Going up again from below the top. -/
theorem below_add (top : BitVec 16) {count i : Nat} (inside : i ≤ count) :
    below top count + BitVec.ofNat 16 (2 * i) = below top (count - i) := by
  rw [show count = count - i + i by omega, ← below_below, below, BitVec.sub_add_cancel,
    Nat.add_sub_cancel]

theorem word_put_self (segment : Segment) (offset value : BitVec 16) :
    word (put segment offset value) offset = value := by
  have different : offset + 1#16 ≠ offset := by
    intro same
    have step := congrArg BitVec.toNat same
    rw [BitVec.toNat_add, BitVec.toNat_ofNat] at step
    omega
  rw [word, put, put, if_neg different, if_pos rfl, if_pos rfl]
  refine BitVec.eq_of_getLsbD_eq fun bit inside => ?_
  rw [BitVec.getLsbD_append, BitVec.getLsbD_setWidth, BitVec.getLsbD_extractLsb']
  split_ifs with low
  · rw [decide_eq_true low, Bool.true_and]
  · rw [decide_eq_true (by omega), Bool.true_and, show 8 + (bit - 8) = bit by omega]

theorem put_of_ne (segment : Segment) {offset x : BitVec 16} (value : BitVec 16)
    (first : x ≠ offset) (second : x ≠ offset + 1#16) : put segment offset value x = segment x := by
  rw [put, if_neg first, if_neg second]

/-- Pushing changes only the bytes the words take. -/
theorem pushWords_of_far (segment : Segment) {top x : BitVec 16} {values : List (BitVec 16)}
    (far : (x - top).toNat + 2 * values.length < 2 ^ 16) :
    pushWords segment top values x = segment x := by
  induction values generalizing segment top with
  | nil => rfl
  | cons value values inductionHypothesis =>
    rw [List.length_cons] at far
    have step : (x - below top 1).toNat = (x - top).toNat + 2 := by
      rw [BitVec.toNat_sub, BitVec.toNat_sub, below, BitVec.toNat_sub, BitVec.toNat_ofNat] at *
      omega
    rw [pushWords, inductionHypothesis _ (by omega)]
    refine put_of_ne segment value ?_ ?_
    · rintro rfl
      rw [BitVec.sub_self, BitVec.toNat_ofNat] at step
      omega
    · rintro rfl
      rw [BitVec.add_comm, BitVec.add_sub_cancel, BitVec.toNat_ofNat] at step
      omega

/-- The words are where they were put. -/
theorem word_pushWords (segment : Segment) (top : BitVec 16) {values : List (BitVec 16)}
    (fits : 2 * values.length < 2 ^ 16) {k : Nat} (inside : k < values.length) :
    word (pushWords segment top values) (below top (k + 1)) = values[k] := by
  induction values generalizing segment top k with
  | nil => exact absurd inside (Nat.not_lt_zero k)
  | cons value values inductionHypothesis =>
    rw [List.length_cons] at fits inside
    rw [pushWords]
    cases k with
    | zero =>
      have kept (offset : BitVec 16) (near : offset.toNat < 2) :
          pushWords (put segment (below top 1) value) (below top 1) values
            (below top 1 + offset) = put segment (below top 1) value (below top 1 + offset) := by
        refine pushWords_of_far _ ?_
        rw [BitVec.add_comm, BitVec.add_sub_cancel]
        omega
      have first := kept 0#16 (by decide)
      rw [BitVec.add_zero] at first
      rw [List.getElem_cons_zero, word, kept 1#16 (by decide), first]
      exact word_put_self segment (below top 1) value
    | succ k =>
      have place : below top (k + 1 + 1) = below (below top 1) (k + 1) := by
        rw [below_below, Nat.add_comm]
      rw [List.getElem_cons_succ, place]
      exact inductionHypothesis _ _ (by omega) (by omega)

end SegmentStack
