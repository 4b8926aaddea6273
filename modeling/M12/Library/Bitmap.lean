/-
This file is a library for a bitmap packed into bytes of memory.

Bit `i` of a bitmap at `base` is bit `i % 8` of the byte at `base + i / 8`. The
three operations are written as programs write them, with a one-bit mask: test
the masked byte against zero, or store the byte with the mask joined in or taken
out. The facts say that setting or clearing one bit moves that bit and no other,
and that the operations write one byte of the bitmap and nothing else.
-/

import M12.Library.ByteMemory

namespace Bitmap

open ByteMemory

/-- The address of the byte that holds a bit. -/
def byteAddress (base : BitVec 64) (index : Nat) : BitVec 64 :=
  base + BitVec.ofNat 64 (index / 8)

/-- The byte with the one bit of an index set. -/
def bitMask (index : Nat) : BitVec 8 := 1#8 <<< (index % 8)

/-- Whether the bit of an index is set. -/
def test (memory : Memory) (base : BitVec 64) (index : Nat) : Bool :=
  memory (byteAddress base index) &&& bitMask index != 0#8

/-- Set the bit of an index. -/
def set (memory : Memory) (base : BitVec 64) (index : Nat) : Memory :=
  store memory (byteAddress base index) (memory (byteAddress base index) ||| bitMask index)

/-- Clear the bit of an index. -/
def clear (memory : Memory) (base : BitVec 64) (index : Nat) : Memory :=
  store memory (byteAddress base index) (memory (byteAddress base index) &&& ~~~ bitMask index)

/-! ### Bits and masks -/

theorem getLsbD_bitMask (index bit : Nat) :
    (bitMask index).getLsbD bit = decide (bit = index % 8) := by
  rw [bitMask, BitVec.getLsbD_shiftLeft, BitVec.getLsbD_one]
  have small := Nat.mod_lt index (show 0 < 8 by decide)
  by_cases same : bit = index % 8
  · simp [same, small]
  · rw [decide_eq_false same]
    by_cases below : bit < index % 8
    · simp [below]
    · have later : bit - index % 8 ≠ 0 := by omega
      simp [later]

/-- A byte masked with one bit is zero exactly when that bit of it is clear. -/
theorem and_bitMask_ne_zero (byte : BitVec 8) (index : Nat) :
    (byte &&& bitMask index != 0#8) = byte.getLsbD (index % 8) := by
  have small := Nat.mod_lt index (show 0 < 8 by decide)
  cases held : byte.getLsbD (index % 8) with
  | true =>
    rw [bne_iff_ne]
    intro zero
    have bit := congrArg (fun value => BitVec.getLsbD value (index % 8)) zero
    simp [BitVec.getLsbD_and, held, getLsbD_bitMask] at bit
  | false =>
    rw [bne_eq_false_iff_eq]
    refine BitVec.eq_of_getLsbD_eq fun bit inside => ?_
    rw [BitVec.getLsbD_and, getLsbD_bitMask, BitVec.getLsbD_zero]
    by_cases same : bit = index % 8
    · rw [same, held, Bool.false_and]
    · rw [decide_eq_false same, Bool.and_false]

theorem test_eq_getLsbD (memory : Memory) (base : BitVec 64) (index : Nat) :
    test memory base index = (memory (byteAddress base index)).getLsbD (index % 8) :=
  and_bitMask_ne_zero _ index

/-- Different indices differ in the byte they use or in the bit inside it. -/
theorem byteAddress_injective (base : BitVec 64) {first second : Nat} (firstLt : first < 2 ^ 64)
    (secondLt : second < 2 ^ 64) (same : byteAddress base first = byteAddress base second) :
    first / 8 = second / 8 := by
  have offsets := congrArg (fun address => (address - base).toNat) same
  simp only [byteAddress] at offsets
  rwa [toNat_add_sub_self base (by omega), toNat_add_sub_self base (by omega)] at offsets

/-! ### What the operations do to the bits -/

theorem test_congr {first second : Memory} {base : BitVec 64} {index : Nat}
    (same : first (byteAddress base index) = second (byteAddress base index)) :
    test first base index = test second base index := by
  rw [test, test, same]

/-- Storing the byte of one index leaves the bits of every other byte. -/
theorem test_store_of_ne (memory : Memory) (base : BitVec 64) (value : BitVec 8)
    {index other : Nat} (indexLt : index < 2 ^ 64) (otherLt : other < 2 ^ 64)
    (different : other / 8 ≠ index / 8) :
    test (store memory (byteAddress base index) value) base other = test memory base other :=
  test_congr (store_byte_other memory value fun same =>
    different (byteAddress_injective base otherLt indexLt same))

/-- Storing it decides the bits of its own. -/
theorem test_store_of_eq (memory : Memory) (base : BitVec 64) (value : BitVec 8)
    {index other : Nat} (same : other / 8 = index / 8) :
    test (store memory (byteAddress base index) value) base other =
      value.getLsbD (other % 8) := by
  rw [test_eq_getLsbD, byteAddress, byteAddress, same, store_byte_self]

/-- Setting a bit sets it and keeps every other bit. -/
theorem test_set (memory : Memory) (base : BitVec 64) {index other : Nat}
    (indexLt : index < 2 ^ 64) (otherLt : other < 2 ^ 64) :
    test (set memory base index) base other =
      (decide (other = index) || test memory base other) := by
  by_cases sameByte : other / 8 = index / 8
  · have address : byteAddress base other = byteAddress base index := by
      rw [byteAddress, byteAddress, sameByte]
    have small := Nat.mod_lt other (show 0 < 8 by decide)
    rw [set, test_store_of_eq memory base _ sameByte, BitVec.getLsbD_or, getLsbD_bitMask,
      Bool.or_comm, test_eq_getLsbD, address]
    congr 2
    exact propext ⟨fun sameBit => by omega, fun same => by rw [same]⟩
  · have different : other ≠ index := fun same => sameByte (by rw [same])
    rw [set, test_store_of_ne memory base _ indexLt otherLt sameByte, decide_eq_false different,
      Bool.false_or]

/-- Clearing a bit clears it and keeps every other bit. -/
theorem test_clear (memory : Memory) (base : BitVec 64) {index other : Nat}
    (indexLt : index < 2 ^ 64) (otherLt : other < 2 ^ 64) :
    test (clear memory base index) base other =
      (decide (other ≠ index) && test memory base other) := by
  by_cases sameByte : other / 8 = index / 8
  · have address : byteAddress base other = byteAddress base index := by
      rw [byteAddress, byteAddress, sameByte]
    have small := Nat.mod_lt other (show 0 < 8 by decide)
    rw [clear, test_store_of_eq memory base _ sameByte, BitVec.getLsbD_and, BitVec.getLsbD_not,
      getLsbD_bitMask, decide_eq_true small, Bool.true_and, Bool.and_comm, ← decide_not,
      test_eq_getLsbD, address]
    congr 2
    exact propext ⟨fun otherBit same => otherBit (by rw [same]), fun different sameBit =>
      different (by omega)⟩
  · have different : other ≠ index := fun same => sameByte (by rw [same])
    rw [clear, test_store_of_ne memory base _ indexLt otherLt sameByte, decide_eq_true different,
      Bool.true_and]

/-! ### Where the operations write -/

/-- The byte of an index below `count` lies in the `(count + 7) / 8` bytes of the bitmap. -/
theorem within_byteAddress (base : BitVec 64) {index count : Nat} (inside : index < count)
    (small : count < 2 ^ 64) : Within base ((count + 7) / 8) (byteAddress base index) :=
  within_add base (by omega) (by omega)

theorem set_of_not_within (memory : Memory) {base target : BitVec 64} {index count : Nat}
    (inside : index < count) (small : count < 2 ^ 64)
    (outside : ¬ Within base ((count + 7) / 8) target) :
    set memory base index target = memory target :=
  store_byte_other memory _ fun same =>
    outside (same ▸ within_byteAddress base inside small)

theorem clear_of_not_within (memory : Memory) {base target : BitVec 64} {index count : Nat}
    (inside : index < count) (small : count < 2 ^ 64)
    (outside : ¬ Within base ((count + 7) / 8) target) :
    clear memory base index target = memory target :=
  store_byte_other memory _ fun same =>
    outside (same ▸ within_byteAddress base inside small)

/-- Filling the bytes of a bitmap with ones sets every bit of it. -/
theorem test_fill_ones (memory : Memory) (base : BitVec 64) {index count : Nat}
    (inside : index < count) (small : count < 2 ^ 64) :
    test (fill memory base 0xFF#8 ((count + 7) / 8)) base index = true := by
  have low := Nat.mod_lt index (show 0 < 8 by decide)
  rw [test_eq_getLsbD, fill_of_within memory 0xFF#8 (by omega)
    (within_byteAddress base inside small)]
  change (BitVec.allOnes 8).getLsbD (index % 8) = true
  rw [BitVec.getLsbD_allOnes, decide_eq_true low]

end Bitmap
