/-
This file collects the bit-level facts about page-table entries: which bit each
flag test reads, that linking an aligned page with flags can be undone by the
mask `~0xFFF`, and which physical address a 2 MB leaf gives. Every later proof
about tables uses these facts and never looks inside an entry again.
-/

import M12.Paging

namespace M12

open ByteMemory

/-! ### Flags -/

theorem hasFlag_twoPow (entry : BitVec 64) (bit : Nat) :
    hasFlag entry (BitVec.twoPow 64 bit) = entry.getLsbD bit := by
  rw [hasFlag, BitVec.and_twoPow]
  cases held : entry.getLsbD bit with
  | false => rfl
  | true =>
    have small : bit < 64 := BitVec.lt_of_getLsbD held
    rw [if_pos rfl, bne_iff_ne]
    intro zero
    have same := congrArg (fun word => BitVec.getLsbD word bit) zero
    simp [small] at same

theorem hasFlag_present (entry : BitVec 64) : hasFlag entry pagePresent = entry.getLsbD 0 :=
  hasFlag_twoPow entry 0

theorem hasFlag_writable (entry : BitVec 64) : hasFlag entry pageWritable = entry.getLsbD 1 :=
  hasFlag_twoPow entry 1

theorem hasFlag_user (entry : BitVec 64) : hasFlag entry pageUser = entry.getLsbD 2 :=
  hasFlag_twoPow entry 2

theorem hasFlag_huge (entry : BitVec 64) : hasFlag entry pageHuge = entry.getLsbD 7 :=
  hasFlag_twoPow entry 7

theorem hasFlag_or_writable (first second : BitVec 64) :
    hasFlag (first ||| second) pageWritable =
      (hasFlag first pageWritable || hasFlag second pageWritable) := by
  rw [hasFlag_writable, hasFlag_writable, hasFlag_writable, BitVec.getLsbD_or]

theorem hasFlag_or_user (first second : BitVec 64) :
    hasFlag (first ||| second) pageUser =
      (hasFlag first pageUser || hasFlag second pageUser) := by
  rw [hasFlag_user, hasFlag_user, hasFlag_user, BitVec.getLsbD_or]

theorem hasFlag_or_huge (entry : BitVec 64) : hasFlag (entry ||| pageHuge) pageHuge = true := by
  rw [hasFlag_huge, BitVec.getLsbD_or, show pageHuge.getLsbD 7 = true from rfl, Bool.or_true]

/-! ### Low bits -/

/-- The bits below the alignment of a number are clear. -/
theorem getLsbD_of_multiple {value : BitVec 64} (bits : Nat) (multiple : value.toNat % 2 ^ bits = 0)
    {bit : Nat} (low : bit < bits) : value.getLsbD bit = false := by
  have masked := congrArg (fun number => Nat.testBit number bit) multiple
  simpa [Nat.testBit_mod_two_pow, low, BitVec.getLsbD] using masked

/-- The bits at and above the length of a number are clear. -/
theorem getLsbD_of_small {value : BitVec 64} (bits : Nat) (small : value.toNat < 2 ^ bits)
    {bit : Nat} (high : bits ≤ bit) : value.getLsbD bit = false :=
  Nat.testBit_lt_two_pow (lt_of_lt_of_le small (Nat.pow_le_pow_right (by decide) high))

theorem getLsbD_0xFFF (bit : Nat) : (0xFFF#64).getLsbD bit = decide (bit < 12) := by
  rw [show 0xFFF#64 = BitVec.ofNat 64 (2 ^ 12 - 1) from rfl, BitVec.getLsbD_ofNat,
    Nat.testBit_two_pow_sub_one]
  by_cases low : bit < 12
  · simp [low, show bit < 64 by omega]
  · simp [low]

theorem getLsbD_tableOf (entry : BitVec 64) (bit : Nat) :
    (tableOf entry).getLsbD bit = (entry.getLsbD bit && decide (12 ≤ bit)) := by
  rw [tableOf, BitVec.getLsbD_and, BitVec.getLsbD_not, getLsbD_0xFFF]
  by_cases inside : bit < 64
  · rw [decide_eq_true inside, Bool.true_and, ← decide_not, Bool.decide_congr not_lt]
  · rw [BitVec.getLsbD_of_ge entry bit (by omega), Bool.false_and, Bool.false_and]

/-- The page of a link is recovered by masking the flags off. -/
theorem tableOf_link {page flags : BitVec 64} (aligned : WordTable.Aligned page)
    (small : flags.toNat < 4096) : tableOf (page ||| flags) = page := by
  refine BitVec.eq_of_getLsbD_eq fun bit _ => ?_
  rw [getLsbD_tableOf, BitVec.getLsbD_or]
  by_cases low : bit < 12
  · rw [getLsbD_of_multiple 12 aligned low, decide_eq_false (by omega), Bool.and_false]
  · rw [getLsbD_of_small 12 small (by omega), Bool.or_false, decide_eq_true (by omega),
      Bool.and_true]

theorem tableOf_of_aligned {page : BitVec 64} (aligned : WordTable.Aligned page) :
    tableOf page = page := by
  have link := tableOf_link aligned (show (0#64).toNat < 4096 by decide)
  rwa [BitVec.or_zero] at link

/-- Below `2 ^ 52` the processor and the kernel find the same table behind an entry. -/
theorem nextTable_eq {entry : BitVec 64} (small : (tableOf entry).toNat < 2 ^ 52) :
    nextTable entry = tableOf entry := by
  refine BitVec.eq_of_getLsbD_eq fun bit inside => ?_
  have mask : (0x000FFFFFFFFFF000#64).getLsbD bit = (decide (12 ≤ bit) && decide (bit < 52)) := by
    rw [show 0x000FFFFFFFFFF000#64 = BitVec.ofNat 64 (2 ^ 40 - 1) <<< 12 from by decide,
      BitVec.getLsbD_shiftLeft, BitVec.getLsbD_ofNat, Nat.testBit_two_pow_sub_one]
    by_cases low : bit < 12
    · simp [low, show ¬ 12 ≤ bit by omega]
    · by_cases high : bit < 52
      · simp [low, high, inside, show 12 ≤ bit by omega, show bit - 12 < 64 by omega,
          show bit - 12 < 40 by omega]
      · simp [low, high, show ¬ bit - 12 < 40 by omega]
  rw [nextTable, BitVec.getLsbD_and, mask, getLsbD_tableOf]
  by_cases high : bit < 52
  · rw [decide_eq_true high, Bool.and_true]
  · have clear := getLsbD_of_small 52 small (show 52 ≤ bit by omega)
    rw [getLsbD_tableOf] at clear
    rw [clear, decide_eq_false high, Bool.and_false, Bool.and_false]

/-! ### Indices -/

/-- The nine bits from `shift` on, as a number. -/
theorem toNat_shift_and (v : BitVec 64) (shift : Nat) :
    (v >>> shift &&& 0x1FF#64).toNat = v.toNat / 2 ^ shift % 512 := by
  rw [BitVec.toNat_and, BitVec.toNat_ushiftRight, Nat.shiftRight_eq_div_pow,
    show (0x1FF#64).toNat = 2 ^ 9 - 1 from rfl, Nat.and_two_pow_sub_one_eq_mod]

theorem pml4Index_eq (v : BitVec 64) : pml4Index v = v.toNat / 2 ^ 39 % 512 := toNat_shift_and v 39
theorem pdptIndex_eq (v : BitVec 64) : pdptIndex v = v.toNat / 2 ^ 30 % 512 := toNat_shift_and v 30
theorem pdIndex_eq (v : BitVec 64) : pdIndex v = v.toNat / 2 ^ 21 % 512 := toNat_shift_and v 21
theorem ptIndex_eq (v : BitVec 64) : ptIndex v = v.toNat / 2 ^ 12 % 512 := toNat_shift_and v 12

theorem pml4Index_lt (v : BitVec 64) : pml4Index v < 512 := by
  rw [pml4Index_eq]
  exact Nat.mod_lt _ (by decide)

theorem pdptIndex_lt (v : BitVec 64) : pdptIndex v < 512 := by
  rw [pdptIndex_eq]
  exact Nat.mod_lt _ (by decide)

theorem pdIndex_lt (v : BitVec 64) : pdIndex v < 512 := by
  rw [pdIndex_eq]
  exact Nat.mod_lt _ (by decide)

theorem ptIndex_lt (v : BitVec 64) : ptIndex v < 512 := by
  rw [ptIndex_eq]
  exact Nat.mod_lt _ (by decide)

/-! ### Leaves -/

/-- Joining flags into an aligned address adds them. -/
theorem toNat_or_of_multiple {value low : BitVec 64} (bits : Nat)
    (multiple : value.toNat % 2 ^ bits = 0) (small : low.toNat < 2 ^ bits) :
    (value ||| low).toNat = value.toNat + low.toNat := by
  have whole : value.toNat = (value.toNat / 2 ^ bits) <<< bits := by
    rw [Nat.shiftLeft_eq]
    exact (Nat.div_mul_cancel (Nat.dvd_of_mod_eq_zero multiple)).symm
  rw [BitVec.toNat_or, whole, ← Nat.shiftLeft_add_eq_or_of_lt small]

/-- A leaf replaces the offset bits of its address by those of the virtual address. -/
theorem toNat_leafAddress (entry v : BitVec 64) {bits : Nat} (few : bits < 52) :
    (leafAddress entry v bits).toNat =
      entry.toNat % 2 ^ 52 / 2 ^ bits * 2 ^ bits + v.toNat % 2 ^ bits := by
  have bound : 2 ^ bits < 2 ^ 64 := Nat.pow_lt_pow_right (by decide) (by omega)
  have positive : 0 < 2 ^ bits := Nat.two_pow_pos bits
  have mask : ((1#64 <<< bits) - 1#64).toNat = 2 ^ bits - 1 := by
    rw [BitVec.toNat_sub, BitVec.toNat_shiftLeft, BitVec.toNat_ofNat, Nat.shiftLeft_eq,
      show 1 % 2 ^ 64 = 1 from rfl, Nat.one_mul, Nat.mod_eq_of_lt bound]
    omega
  have high : ((entry &&& 0x000FFFFFFFFFFFFF#64) >>> bits <<< bits).toNat =
      entry.toNat % 2 ^ 52 / 2 ^ bits * 2 ^ bits := by
    rw [BitVec.toNat_shiftLeft, BitVec.toNat_ushiftRight, BitVec.toNat_and,
      show (0x000FFFFFFFFFFFFF#64).toNat = 2 ^ 52 - 1 from rfl, Nat.and_two_pow_sub_one_eq_mod,
      Nat.shiftRight_eq_div_pow, Nat.shiftLeft_eq]
    refine Nat.mod_eq_of_lt (lt_of_le_of_lt (Nat.div_mul_le_self _ _) ?_)
    exact lt_of_lt_of_le (Nat.mod_lt _ (by decide)) (by decide)
  have low : (v &&& (1#64 <<< bits) - 1#64).toNat = v.toNat % 2 ^ bits := by
    rw [BitVec.toNat_and, mask, Nat.and_two_pow_sub_one_eq_mod]
  rw [leafAddress, toNat_or_of_multiple bits, high, low]
  · rw [high, Nat.mul_mod_left]
  · rw [low]
    exact Nat.mod_lt _ positive

/-- The leaf entry `map_page` writes translates an address to the same offset in the 2 MB page
it was given. -/
theorem leafAddress_huge {physicalAddr flags : BitVec 64} (v : BitVec 64)
    (multiple : physicalAddr.toNat % 2 ^ 21 = 0) (below : physicalAddr.toNat < 2 ^ 52)
    (small : flags.toNat < 2 ^ 21) :
    leafAddress (physicalAddr ||| flags ||| pageHuge) v 21 = physicalAddr + v % 0x200000#64 := by
  have low : (flags ||| pageHuge).toNat < 2 ^ 21 := by
    rw [BitVec.toNat_or]
    exact Nat.or_lt_two_pow small (by decide)
  apply BitVec.eq_of_toNat_eq
  rw [BitVec.or_assoc, toNat_leafAddress _ _ (by decide), toNat_or_of_multiple 21 multiple low,
    BitVec.toNat_add, BitVec.toNat_umod, show (0x200000#64).toNat = 2 ^ 21 from rfl]
  omega

end M12
