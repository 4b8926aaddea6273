/-
This file is a library for stacks of 64-bit words that grow downwards in memory.

Pushing a list of words stores them one below the other. The words can then be
read back from where they were put, and nothing outside the bytes they take has
changed.
-/

import M12.Library.ByteMemory

namespace WordStack

open ByteMemory

/-- The stack pointer `count` words below `top`. -/
def below (top : BitVec 64) (count : Nat) : BitVec 64 := top - BitVec.ofNat 64 (8 * count)

/-- Store words downwards from `top`, first word highest. -/
def pushWords (memory : Memory) (top : BitVec 64) : List (BitVec 64) → Memory
  | [] => memory
  | word :: words => pushWords (store memory (below top 1) word) (below top 1) words

theorem below_below (top : BitVec 64) (first second : Nat) :
    below (below top first) second = below top (first + second) := by
  rw [below, below, below, Nat.mul_add, BitVec.ofNat_add, BitVec.sub_sub]

/-- Going up again from below the top. -/
theorem below_add (top : BitVec 64) {count i : Nat} (inside : i ≤ count) :
    below top count + BitVec.ofNat 64 (8 * i) = below top (count - i) := by
  rw [show count = count - i + i by omega, ← below_below, below, BitVec.sub_add_cancel,
    Nat.add_sub_cancel]

/-- The distance to a lower address is larger. -/
theorem toNat_sub_below (top x : BitVec 64) {count : Nat} (small : 8 * count < 2 ^ 64)
    (fits : (x - top).toNat + 8 * count < 2 ^ 64) :
    (x - below top count).toNat = (x - top).toNat + 8 * count := by
  have step : x - below top count = (x - top) + BitVec.ofNat 64 (8 * count) := by
    rw [below, BitVec.sub_eq_add_neg, BitVec.neg_sub, BitVec.sub_eq_add_neg x, BitVec.add_assoc]
  rw [step, BitVec.toNat_add, BitVec.toNat_ofNat, Nat.mod_eq_of_lt small, Nat.mod_eq_of_lt fits]

theorem pushWords_append (memory : Memory) (top : BitVec 64) (first second : List (BitVec 64)) :
    pushWords memory top (first ++ second) =
      pushWords (pushWords memory top first) (below top first.length) second := by
  induction first generalizing memory top with
  | nil =>
    rw [List.nil_append, pushWords, List.length_nil, below, BitVec.sub_zero]
  | cons word words inductionHypothesis =>
    rw [List.cons_append, pushWords, inductionHypothesis, pushWords, below_below, List.length_cons,
      Nat.add_comm]

/-- Pushing changes only the bytes the words take. -/
theorem pushWords_of_not_within (memory : Memory) {top x : BitVec 64} {words : List (BitVec 64)}
    (fits : 8 * words.length < 2 ^ 64)
    (outside : ¬ Within (below top words.length) (8 * words.length) x) :
    pushWords memory top words x = memory x := by
  induction words generalizing memory top with
  | nil => rfl
  | cons word words inductionHypothesis =>
    rw [List.length_cons] at fits outside
    have same : below (below top 1) words.length = below top (words.length + 1) := by
      rw [below_below, Nat.add_comm]
    rw [pushWords, inductionHypothesis _ (by omega) ?_]
    · refine store_of_not_within memory word fun close => outside ?_
      rw [← same, Within, toNat_sub_below _ _ (by omega) (by omega)]
      omega
    · rw [same]
      exact fun inside => outside (lt_of_lt_of_le inside (by omega))

/-- The words are where they were put. -/
theorem load_pushWords (memory : Memory) (top : BitVec 64) {words : List (BitVec 64)}
    (fits : 8 * words.length < 2 ^ 64) {k : Nat} (inside : k < words.length) :
    load 64 (pushWords memory top words) (below top (k + 1)) = words[k] := by
  induction words generalizing memory top k with
  | nil => exact absurd inside (Nat.not_lt_zero k)
  | cons word words inductionHypothesis =>
    rw [List.length_cons] at fits inside
    rw [pushWords]
    cases k with
    | zero =>
      rw [List.getElem_cons_zero]
      refine Eq.trans (load_congr fun offset near => ?_)
        (load_store_self memory (below top 1) word (by decide))
      refine pushWords_of_not_within _ (by omega) fun close => ?_
      have distance : (below top 1 + BitVec.ofNat 64 offset -
          below (below top 1) words.length).toNat = offset + 8 * words.length := by
        have itself := toNat_add_sub_self (below top 1) (show offset < 2 ^ 64 by omega)
        rw [toNat_sub_below _ _ (by omega) (by rw [itself]; omega), itself]
      rw [Within, distance] at close
      omega
    | succ k =>
      have place : below top (k + 1 + 1) = below (below top 1) (k + 1) := by
        rw [below_below, Nat.add_comm]
      rw [List.getElem_cons_succ, place]
      exact inductionHypothesis _ _ (by omega) (by omega)

end WordStack
