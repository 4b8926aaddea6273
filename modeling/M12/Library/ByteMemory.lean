/-
This file is a library for byte-addressed 64-bit memory.

A memory is a function from 64-bit addresses to bytes. A load assembles a
little-endian word of any width from consecutive bytes, a store replaces the
bytes of one, and a fill writes the same byte to a range, one address after
the other. Address arithmetic wraps modulo `2 ^ 64`, so a range is described by
the distance from its base and needs no bound on the base: `Within base size`
holds of the `size` addresses that follow `base`.

The facts are those every proof about a program's memory needs: what a load
reads after a store to the same place, that a store or a fill changes nothing
outside its range, and that a load depends only on the bytes it covers.
-/

import Mathlib

namespace ByteMemory

/-- The contents of a 64-bit address space. -/
abbrev Memory := BitVec 64 → BitVec 8

/-! ### Ranges -/

/-- The address lies among the `size` addresses that start at `base`. -/
def Within (base : BitVec 64) (size : Nat) (address : BitVec 64) : Prop :=
  (address - base).toNat < size

instance (base : BitVec 64) (size : Nat) (address : BitVec 64) :
    Decidable (Within base size address) :=
  inferInstanceAs (Decidable ((address - base).toNat < size))

/-- A range that does not wrap is an interval of addresses. -/
theorem within_iff {base : BitVec 64} {size : Nat} (fits : base.toNat + size ≤ 2 ^ 64)
    (address : BitVec 64) :
    Within base size address ↔
      base.toNat ≤ address.toNat ∧ address.toNat < base.toNat + size := by
  unfold Within
  have addressLt := address.isLt
  rw [BitVec.toNat_sub]
  constructor
  · intro close
    omega
  · intro inside
    omega

/-- Stepping forward from an address and looking back measures the step. -/
theorem toNat_add_sub_self (base : BitVec 64) {offset : Nat} (small : offset < 2 ^ 64) :
    (base + BitVec.ofNat 64 offset - base).toNat = offset := by
  rw [BitVec.add_comm, BitVec.add_sub_cancel, BitVec.toNat_ofNat, Nat.mod_eq_of_lt small]

/-- The addresses of a range are its base plus an offset below its size. -/
theorem within_add (base : BitVec 64) {size offset : Nat} (inside : offset < size)
    (small : offset < 2 ^ 64) : Within base size (base + BitVec.ofNat 64 offset) := by
  unfold Within
  rw [toNat_add_sub_self base small]
  exact inside

/-- Every address of a range is its base plus the distance to the base. -/
theorem add_ofNat_sub (base address : BitVec 64) :
    base + BitVec.ofNat 64 (address - base).toNat = address := by
  rw [BitVec.ofNat_toNat, BitVec.setWidth_eq, BitVec.add_comm, BitVec.sub_add_cancel]

/-! ### Loads and stores -/

/-- The little-endian word of `width` bits at an address: bit `i` is bit `i % 8` of the
byte `i / 8` places further on. -/
def load (width : Nat) (memory : Memory) (address : BitVec 64) : BitVec width :=
  BitVec.ofFnLE fun bit : Fin width =>
    (memory (address + BitVec.ofNat 64 (bit.val / 8))).getLsbD (bit.val % 8)

/-- Replace the bytes of a little-endian word. -/
def store {width : Nat} (memory : Memory) (address : BitVec 64) (value : BitVec width) : Memory :=
  fun target =>
    if 8 * (target - address).toNat < width then
      value.extractLsb' (8 * (target - address).toNat) 8
    else memory target

theorem getLsbD_load {width : Nat} (memory : Memory) (address : BitVec 64) {bit : Nat}
    (inside : bit < width) :
    (load width memory address).getLsbD bit =
      (memory (address + BitVec.ofNat 64 (bit / 8))).getLsbD (bit % 8) := by
  rw [load, BitVec.getLsbD_ofFnLE, dif_pos inside]

/-- A load reads only the bytes it covers. -/
theorem load_congr {width : Nat} {first second : Memory} {address : BitVec 64}
    (same : ∀ offset, 8 * offset < width →
      first (address + BitVec.ofNat 64 offset) = second (address + BitVec.ofNat 64 offset)) :
    load width first address = load width second address := by
  refine BitVec.eq_of_getLsbD_eq fun bit inside => ?_
  rw [getLsbD_load first address inside, getLsbD_load second address inside,
    same (bit / 8) (by omega)]

/-- A store changes only the bytes it covers. -/
theorem store_of_not_within {width : Nat} (memory : Memory) {address target : BitVec 64}
    (value : BitVec width) (outside : ¬ 8 * (target - address).toNat < width) :
    store memory address value target = memory target := by
  rw [store, if_neg outside]

/-- A load of the word just stored returns it. -/
theorem load_store_self {width : Nat} (memory : Memory) (address : BitVec 64)
    (value : BitVec width) (small : width ≤ 2 ^ 64) :
    load width (store memory address value) address = value := by
  refine BitVec.eq_of_getLsbD_eq fun bit inside => ?_
  have place : (address + BitVec.ofNat 64 (bit / 8) - address).toNat = bit / 8 :=
    toNat_add_sub_self address (by omega)
  rw [getLsbD_load _ _ inside, store, place, if_pos (by omega), BitVec.getLsbD_extractLsb',
    Nat.div_add_mod, decide_eq_true (Nat.mod_lt bit (by decide)), Bool.true_and]

/-- A load is untouched by a store to bytes it does not cover. -/
theorem load_store_of_disjoint {width other : Nat} (memory : Memory) {address target : BitVec 64}
    (value : BitVec other)
    (apart : ∀ offset, 8 * offset < width →
      ¬ 8 * (address + BitVec.ofNat 64 offset - target).toNat < other) :
    load width (store memory target value) address = load width memory address :=
  load_congr fun offset inside => store_of_not_within memory value (apart offset inside)

/-! ### Single bytes -/

@[simp] theorem store_byte_self (memory : Memory) (address : BitVec 64) (value : BitVec 8) :
    store memory address value address = value := by
  rw [store, BitVec.sub_self]
  exact BitVec.extractLsb'_eq_self

theorem store_byte_other (memory : Memory) {address target : BitVec 64} (value : BitVec 8)
    (different : target ≠ address) : store memory address value target = memory target := by
  refine store_of_not_within memory value fun close => different ?_
  have zero : (target - address).toNat = 0 := by omega
  rw [← add_ofNat_sub address target, zero]
  exact BitVec.add_zero address

/-! ### Fills -/

/-- Write one byte to `size` consecutive addresses, lowest first. -/
def fill (memory : Memory) (base : BitVec 64) (value : BitVec 8) : Nat → Memory
  | 0 => memory
  | size + 1 => store (fill memory base value size) (base + BitVec.ofNat 64 size) value

/-- A fill writes its range and nothing else. -/
theorem fill_apply (memory : Memory) (base : BitVec 64) (value : BitVec 8) {size : Nat}
    (small : size ≤ 2 ^ 64) (target : BitVec 64) :
    fill memory base value size target =
      if Within base size target then value else memory target := by
  induction size with
  | zero =>
    have empty : ¬ Within base 0 target := Nat.not_lt_zero _
    rw [fill, if_neg empty]
  | succ size inductionHypothesis =>
    rw [fill]
    by_cases last : target = base + BitVec.ofNat 64 size
    · subst last
      rw [store_byte_self, if_pos (within_add base (Nat.lt_succ_self size) (by omega))]
    · rw [store_byte_other _ _ last, inductionHypothesis (by omega)]
      have same : Within base (size + 1) target ↔ Within base size target := by
        refine ⟨fun close => ?_, fun close => Nat.lt_succ_of_lt close⟩
        refine lt_of_le_of_ne (Nat.le_of_lt_succ close) fun equal => last ?_
        rw [← equal, add_ofNat_sub]
      simp only [same]

theorem fill_of_within (memory : Memory) {base : BitVec 64} (value : BitVec 8) {size : Nat}
    (small : size ≤ 2 ^ 64) {target : BitVec 64} (inside : Within base size target) :
    fill memory base value size target = value := by
  rw [fill_apply memory base value small, if_pos inside]

theorem fill_of_not_within (memory : Memory) {base : BitVec 64} (value : BitVec 8) {size : Nat}
    (small : size ≤ 2 ^ 64) {target : BitVec 64} (outside : ¬ Within base size target) :
    fill memory base value size target = memory target := by
  rw [fill_apply memory base value small, if_neg outside]

end ByteMemory
