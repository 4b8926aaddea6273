/-
This file is a library for streams of 32-bit words in memory.

`put` stores a list of words one after the other from a base address on, `get`
reads the word with a given number back. Putting two lists one behind the other
is putting their concatenation, so a record written in pieces can be read as one
stream, with whatever memory held before showing behind its end.
-/

import M12.Library.ByteMemory

namespace DwordStream

open ByteMemory

/-- Store words at consecutive addresses, first word lowest. -/
def put (memory : Memory) (base : BitVec 64) : List (BitVec 32) → Memory
  | [] => memory
  | word :: words => put (store memory base word) (base + 4#64) words

/-- The word number `i` from a base address. -/
def get (memory : Memory) (base : BitVec 64) (i : Nat) : BitVec 32 :=
  load 32 memory (base + BitVec.ofNat 64 (4 * i))

theorem put_nil (memory : Memory) (base : BitVec 64) : put memory base [] = memory := rfl

theorem put_append (memory : Memory) (base : BitVec 64) (first second : List (BitVec 32)) :
    put memory base (first ++ second) =
      put (put memory base first) (base + BitVec.ofNat 64 (4 * first.length)) second := by
  induction first generalizing memory base with
  | nil => rw [List.nil_append, put, List.length_nil, Nat.mul_zero, BitVec.add_zero]
  | cons word words inductionHypothesis =>
    rw [List.cons_append, put, inductionHypothesis, put, BitVec.add_assoc, ← BitVec.ofNat_add,
      List.length_cons, show 4 + 4 * words.length = 4 * (words.length + 1) by omega]

/-- A stream changes only the bytes it covers. -/
theorem put_of_not_within (memory : Memory) {base x : BitVec 64} {words : List (BitVec 32)}
    (small : 4 * words.length ≤ 2 ^ 64) (outside : ¬ Within base (4 * words.length) x) :
    put memory base words x = memory x := by
  induction words generalizing memory base with
  | nil => rfl
  | cons word words inductionHypothesis =>
    rw [List.length_cons] at small outside
    unfold Within at outside
    have step : (x - (base + 4#64)).toNat = (x - base).toNat - 4 := by
      have bound := (x - base).isLt
      rw [← BitVec.sub_sub, BitVec.toNat_sub, BitVec.toNat_ofNat]
      omega
    rw [put, inductionHypothesis _ (by omega) (by unfold Within; omega)]
    exact store_of_not_within memory word (by omega)

/-- A word inside the stream. -/
theorem get_put_of_lt (memory : Memory) (base : BitVec 64) {words : List (BitVec 32)}
    (small : 4 * words.length < 2 ^ 64) {i : Nat} (inside : i < words.length) :
    get (put memory base words) base i = words[i] := by
  induction words generalizing memory base i with
  | nil => exact absurd inside (Nat.not_lt_zero i)
  | cons word words inductionHypothesis =>
    rw [List.length_cons] at small inside
    cases i with
    | zero =>
      rw [get, Nat.mul_zero, BitVec.add_zero, put, List.getElem_cons_zero]
      refine Eq.trans (load_congr fun offset close => ?_)
        (load_store_self memory base word (by decide))
      refine put_of_not_within _ (by omega) fun within => ?_
      unfold Within at within
      rw [← BitVec.sub_sub, BitVec.toNat_sub, toNat_add_sub_self base (by omega),
        BitVec.toNat_ofNat] at within
      omega
    | succ i =>
      rw [get, put, show 4 * (i + 1) = 4 + 4 * i by omega, BitVec.ofNat_add, ← BitVec.add_assoc,
        List.getElem_cons_succ]
      exact inductionHypothesis _ _ (by omega) (by omega)

/-- A word behind the stream. -/
theorem get_put_of_le (memory : Memory) (base : BitVec 64) {words : List (BitVec 32)} {i : Nat}
    (outside : words.length ≤ i) (small : 4 * i + 4 ≤ 2 ^ 64) :
    get (put memory base words) base i = get memory base i := by
  refine load_congr fun offset close => put_of_not_within memory (by omega) fun within => ?_
  unfold Within at within
  rw [BitVec.add_assoc, ← BitVec.ofNat_add, toNat_add_sub_self base (by omega)] at within
  omega

attribute [irreducible] put

end DwordStream
