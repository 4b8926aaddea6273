/-
This file is a library for packed records in byte memory.

A packed record is written field by field, each a little-endian word at its
offset; fields that share no byte keep their values, and the bytes outside the
record are not written. An array holds records of one size one after the other,
so writing one of them leaves the others as they are. Addresses wrap modulo
`2 ^ 64`, and no bound on the base is needed.
-/

import M12.Library.ByteMemory

namespace PackedRecord

open ByteMemory

/-! ### Fields -/

/-- A field with the value that is written to it. -/
structure Field where
  offset : Nat
  width : Nat
  value : BitVec width

/-- The fields have no byte in common. -/
def Field.Apart (one other : Field) : Prop :=
  8 * one.offset + one.width ≤ 8 * other.offset ∨ 8 * other.offset + other.width ≤ 8 * one.offset

/-- The field lies in a record of `size` bytes. -/
def Field.Inside (size : Nat) (field : Field) : Prop := 8 * field.offset + field.width ≤ 8 * size

/-- Write fields, in order. -/
def storeFields (memory : Memory) (base : BitVec 64) (fields : List Field) : Memory :=
  fields.foldl (fun memory field =>
    store memory (base + BitVec.ofNat 64 field.offset) field.value) memory

theorem storeFields_cons (memory : Memory) (base : BitVec 64) (field : Field)
    (fields : List Field) :
    storeFields memory base (field :: fields) =
      storeFields (store memory (base + BitVec.ofNat 64 field.offset) field.value) base fields :=
  rfl

theorem store_of_not_within_record (memory : Memory) {base x : BitVec 64} {size : Nat}
    (small : size ≤ 2 ^ 64) {field : Field} (inside : field.Inside size)
    (outside : ¬ Within base size x) :
    store memory (base + BitVec.ofNat 64 field.offset) field.value x = memory x := by
  refine store_of_not_within memory field.value fun close => outside ?_
  have baseLt := base.isLt
  have xLt := x.isLt
  rw [Field.Inside] at inside
  rw [Within]
  rw [BitVec.toNat_sub, BitVec.toNat_add, BitVec.toNat_ofNat] at close
  rw [BitVec.toNat_sub]
  omega

/-- A record is all that is written. -/
theorem storeFields_of_not_within (memory : Memory) {base x : BitVec 64} {size : Nat}
    (small : size ≤ 2 ^ 64) {fields : List Field} (inside : ∀ field ∈ fields, field.Inside size)
    (outside : ¬ Within base size x) : storeFields memory base fields x = memory x := by
  induction fields generalizing memory with
  | nil => rfl
  | cons field rest inductionHypothesis =>
    rw [List.forall_mem_cons] at inside
    rw [storeFields_cons, inductionHypothesis _ inside.2,
      store_of_not_within_record memory small inside.1 outside]

section Reading

variable {size : Nat} (small : size ≤ 2 ^ 61)
include small

/-- A field is untouched by a write to a field apart from it. -/
theorem load_store_of_apart (memory : Memory) (base : BitVec 64) {field other : Field}
    (inside : field.Inside size) (otherInside : other.Inside size) (apart : field.Apart other) :
    load field.width (store memory (base + BitVec.ofNat 64 other.offset) other.value)
        (base + BitVec.ofNat 64 field.offset) =
      load field.width memory (base + BitVec.ofNat 64 field.offset) := by
  refine load_store_of_disjoint memory other.value fun offset covered close => ?_
  have baseLt := base.isLt
  rw [Field.Inside] at inside otherInside
  rw [Field.Apart] at apart
  rw [BitVec.toNat_sub, BitVec.toNat_add, BitVec.toNat_add, BitVec.toNat_add, BitVec.toNat_ofNat,
    BitVec.toNat_ofNat, BitVec.toNat_ofNat] at close
  omega

theorem load_storeFields_of_apart (memory : Memory) (base : BitVec 64) {field : Field}
    {fields : List Field} (inside : field.Inside size)
    (allInside : ∀ other ∈ fields, other.Inside size)
    (apart : ∀ other ∈ fields, field.Apart other) :
    load field.width (storeFields memory base fields) (base + BitVec.ofNat 64 field.offset) =
      load field.width memory (base + BitVec.ofNat 64 field.offset) := by
  induction fields generalizing memory with
  | nil => rfl
  | cons other rest inductionHypothesis =>
    rw [List.forall_mem_cons] at allInside apart
    rw [storeFields_cons, inductionHypothesis _ allInside.2 apart.2,
      load_store_of_apart small memory base inside allInside.1 apart.1]

/-- Every field of a record reads back as it was written. -/
theorem load_storeFields_of_mem (memory : Memory) (base : BitVec 64) {fields : List Field}
    (allInside : ∀ other ∈ fields, other.Inside size) (apart : fields.Pairwise Field.Apart)
    {field : Field} (member : field ∈ fields) :
    load field.width (storeFields memory base fields) (base + BitVec.ofNat 64 field.offset) =
      field.value := by
  induction fields generalizing memory with
  | nil => exact absurd member List.not_mem_nil
  | cons first rest inductionHypothesis =>
    rw [List.forall_mem_cons] at allInside
    rw [List.pairwise_cons] at apart
    rw [storeFields_cons]
    rcases List.mem_cons.mp member with rfl | later
    · rw [load_storeFields_of_apart small _ base allInside.1 allInside.2 apart.1]
      have inside := allInside.1
      rw [Field.Inside] at inside
      exact load_store_self memory _ field.value (by omega)
    · exact inductionHypothesis _ allInside.2 apart.2 later

end Reading

/-- Part of a word is the word at its place. -/
theorem load_part {wide width : Nat} (memory : Memory) (base : BitVec 64) {offset : Nat}
    (inside : 8 * offset + width ≤ wide) :
    load width memory (base + BitVec.ofNat 64 offset) =
      (load wide memory base).extractLsb' (8 * offset) width := by
  refine BitVec.eq_of_getLsbD_eq fun bit small => ?_
  rw [getLsbD_load _ _ small, BitVec.getLsbD_extractLsb', decide_eq_true small, Bool.true_and,
    getLsbD_load _ _ (by omega), BitVec.add_assoc, ← BitVec.ofNat_add,
    show (8 * offset + bit) / 8 = offset + bit / 8 by omega,
    show (8 * offset + bit) % 8 = bit % 8 by omega]

/-- The fields are in memory. -/
def Holds (memory : Memory) (base : BitVec 64) (fields : List Field) : Prop :=
  ∀ field ∈ fields, load field.width memory (base + BitVec.ofNat 64 field.offset) = field.value

/-- They depend on the bytes of the record only. -/
theorem Holds.congr {first second : Memory} {base : BitVec 64} {size : Nat} {fields : List Field}
    (holds : Holds first base fields) (allInside : ∀ other ∈ fields, other.Inside size)
    (same : ∀ offset < size, second (base + BitVec.ofNat 64 offset) =
      first (base + BitVec.ofNat 64 offset)) : Holds second base fields := by
  intro field member
  rw [← holds field member]
  refine load_congr fun offset covered => ?_
  have inside := allInside field member
  rw [Field.Inside] at inside
  rw [BitVec.add_assoc, ← BitVec.ofNat_add]
  exact same _ (by omega)

/-! ### Arrays -/

/-- The address of record `i` of an array. -/
def element (base : BitVec 64) (size i : Nat) : BitVec 64 := base + BitVec.ofNat 64 (size * i)

/-- Two records of an array share no byte. -/
theorem not_within_element (base : BitVec 64) {size i j offset : Nat} (different : i ≠ j)
    (fits : size * (i + 1) ≤ 2 ^ 64) (otherFits : size * (j + 1) ≤ 2 ^ 64)
    (inside : offset < size) :
    ¬ Within (element base size j) size (element base size i + BitVec.ofNat 64 offset) := by
  have baseLt := base.isLt
  rw [Nat.mul_succ] at fits otherFits
  rw [Within, element, element, BitVec.toNat_sub, BitVec.toNat_add, BitVec.toNat_add,
    BitVec.toNat_add, BitVec.toNat_ofNat, BitVec.toNat_ofNat, BitVec.toNat_ofNat]
  rcases Nat.lt_or_gt_of_ne different with before | behind
  · have step := Nat.mul_le_mul_left size before
    rw [Nat.mul_succ] at step
    generalize size * i = start at *
    generalize size * j = otherStart at *
    omega
  · have step := Nat.mul_le_mul_left size behind
    rw [Nat.mul_succ] at step
    generalize size * i = start at *
    generalize size * j = otherStart at *
    omega

/-! ### Tables -/

/-- A table that is updated entry by entry holds what the last update of an entry wrote. -/
theorem foldl_update_apply {ι Call Entry : Type*} [DecidableEq ι] (index : Call → ι)
    (entry : Call → Entry) (table : ι → Entry) (calls : List Call) (i : ι) :
    calls.foldl (fun table call => Function.update table (index call) (entry call)) table i =
      ((calls.reverse.find? fun call => index call = i).map entry).getD (table i) := by
  induction calls using List.reverseRecOn with
  | nil => rfl
  | append_singleton calls last inductionHypothesis =>
    rw [List.foldl_append, List.foldl_cons, List.foldl_nil, List.reverse_append,
      List.reverse_singleton, List.singleton_append, List.find?_cons]
    by_cases here : index last = i
    · subst here
      simp only [Function.update_self, decide_true, Option.map_some, Option.getD_some]
    · rw [Function.update_of_ne (Ne.symm here), inductionHypothesis, decide_eq_false here]

end PackedRecord
