/-
This file proves that the walk of the page tables does not depend on what the
processor notes in them.

The processor sets two bits of an entry on its own, when it has used the entry and
when it has written to the page behind it. The walk looks at the flags for the
presence, the permissions and the size of a page, and at the address, and none of
these contains the two bits.
-/

import M12.IdentityMap
import M12.Library.SystemMode

namespace M12

open ByteMemory SystemMode

/-! ### Entries -/

/-- The accessed and the dirty bit of an entry. -/
def entryNotes : BitVec 64 := 0x60#64

/-- Two entries differ in these bits only. -/
def SameEntry (first second : BitVec 64) : Prop :=
  second &&& ~~~entryNotes = first &&& ~~~entryNotes

theorem getLsbD_entryNotes (bit : Nat) :
    entryNotes.getLsbD bit = (decide (bit = 5) || decide (bit = 6)) := by
  by_cases inside : bit < 64
  · have all : ∀ place : Fin 64, entryNotes.getLsbD place.val =
        (decide (place.val = 5) || decide (place.val = 6)) := by decide
    exact all ⟨bit, inside⟩
  · rw [BitVec.getLsbD_of_ge _ _ (by omega), decide_eq_false (by omega), decide_eq_false (by omega),
      Bool.or_false]

section SameEntry

variable {first second : BitVec 64} (same : SameEntry first second)
include same

theorem SameEntry.getLsbD {bit : Nat} (other : bit ≠ 5 ∧ bit ≠ 6) :
    second.getLsbD bit = first.getLsbD bit := by
  by_cases inside : bit < 64
  · have clear : entryNotes.getLsbD bit = false := by
      rw [getLsbD_entryNotes, decide_eq_false other.1, decide_eq_false other.2, Bool.or_false]
    have held := congrArg (fun entry => BitVec.getLsbD entry bit) same
    simp only [BitVec.getLsbD_and, BitVec.getLsbD_not, clear, inside, decide_true,
      Bool.not_false, Bool.and_true] at held
    exact held
  · rw [BitVec.getLsbD_of_ge _ _ (by omega), BitVec.getLsbD_of_ge _ _ (by omega)]

theorem SameEntry.present : hasFlag second pagePresent = hasFlag first pagePresent := by
  rw [hasFlag_present, hasFlag_present, same.getLsbD (by decide)]

theorem SameEntry.writable : hasFlag second pageWritable = hasFlag first pageWritable := by
  rw [hasFlag_writable, hasFlag_writable, same.getLsbD (by decide)]

theorem SameEntry.user : hasFlag second pageUser = hasFlag first pageUser := by
  rw [hasFlag_user, hasFlag_user, same.getLsbD (by decide)]

theorem SameEntry.huge : hasFlag second pageHuge = hasFlag first pageHuge := by
  rw [hasFlag_huge, hasFlag_huge, same.getLsbD (by decide)]

theorem SameEntry.nextTable : nextTable second = nextTable first := by
  have apart : (0x000FFFFFFFFFF000#64 : BitVec 64) =
      ~~~entryNotes &&& 0x000FFFFFFFFFF000#64 := by decide
  rw [M12.nextTable, M12.nextTable, apart, ← BitVec.and_assoc, ← BitVec.and_assoc, same]

/-- The address of a page begins above the two bits. -/
theorem SameEntry.leafAddress (v : BitVec 64) {bits : Nat} (above : 7 ≤ bits) :
    leafAddress second v bits = leafAddress first v bits := by
  have shifted : (second &&& 0x000FFFFFFFFFFFFF#64) >>> bits =
      (first &&& 0x000FFFFFFFFFFFFF#64) >>> bits := by
    refine BitVec.eq_of_getLsbD_eq fun bit _ => ?_
    rw [BitVec.getLsbD_ushiftRight, BitVec.getLsbD_ushiftRight, BitVec.getLsbD_and,
      BitVec.getLsbD_and, same.getLsbD ⟨by omega, by omega⟩]
  rw [M12.leafAddress, M12.leafAddress, shifted]

end SameEntry

/-! ### The walk -/

/-- If the tables on the way to a leaf differ in what the processor has noted only, both ways lead
to the same translation. -/
theorem walk_of_sameEntries {first second : Memory} {root v : BitVec 64}
    {tables : List (BitVec 64)}
    (same : ∀ table ∈ tables, ∀ i < 512,
      SameEntry (WordTable.read first table i) (WordTable.read second table i))
    {e4 e3 e2 : BitVec 64} (pml4 : root ∈ tables)
    (read4 : WordTable.read first root (pml4Index v) = e4) (pdpt : nextTable e4 ∈ tables)
    (read3 : WordTable.read first (nextTable e4) (pdptIndex v) = e3) (pd : nextTable e3 ∈ tables)
    (read2 : WordTable.read first (nextTable e3) (pdIndex v) = e2) (pt : nextTable e2 ∈ tables) :
    walk second root v = walk first root v := by
  have same4 := same root pml4 (pml4Index v) (pml4Index_lt v)
  have same3 := same _ pdpt (pdptIndex v) (pdptIndex_lt v)
  have same2 := same _ pd (pdIndex v) (pdIndex_lt v)
  have same1 := same _ pt (ptIndex v) (ptIndex_lt v)
  rw [read4] at same4
  rw [read3] at same3
  rw [read2] at same2
  have leaf3 := same3.leafAddress v (show 7 ≤ 30 by decide)
  have leaf2 := same2.leafAddress v (show 7 ≤ 21 by decide)
  have leaf1 := same1.leafAddress v (show 7 ≤ 12 by decide)
  simp only [walk, leafTranslation, List.all_cons, List.all_nil, read4, same4.present,
    same4.writable, same4.user, same4.nextTable, read3, same3.present, same3.writable, same3.user,
    same3.huge, same3.nextTable, leaf3, read2, same2.present, same2.writable, same2.user,
    same2.huge, same2.nextTable, leaf2, same1.present, same1.writable, same1.user, leaf1]

/-- A table whose entries the processor has noted something in. -/
theorem sameEntry_read {mask first second : Memory} (same : SameBesides mask first second)
    {table : BitVec 64} {i : Nat}
    (noted : ∀ offset < 8,
      mask (table + BitVec.ofNat 64 (8 * i) + BitVec.ofNat 64 offset) =
        if offset = 0 then 0x60#8 else 0#8) :
    SameEntry (WordTable.read first table i) (WordTable.read second table i) := by
  refine BitVec.eq_of_getLsbD_eq fun bit inside => ?_
  have byte := congrArg (fun value => BitVec.getLsbD value (bit % 8))
    (congrFun same (table + BitVec.ofNat 64 (8 * i) + BitVec.ofNat 64 (bit / 8)))
  have notes : ∀ place : Fin 64, (~~~entryNotes).getLsbD place.val =
      (~~~(if place.val / 8 = 0 then 0x60#8 else 0#8)).getLsbD (place.val % 8) := by decide
  have note := notes ⟨bit, inside⟩
  simp only [aside, noted (bit / 8) (by omega), BitVec.getLsbD_and] at byte
  rw [BitVec.getLsbD_and, BitVec.getLsbD_and, WordTable.read, WordTable.read,
    getLsbD_load _ _ inside, getLsbD_load _ _ inside, note]
  exact byte

/-- What the processor notes in the four tables of the boot code. -/
def tableNotes : Memory := fun x =>
  if 0x1000 ≤ x.toNat ∧ x.toNat < 0x5000 ∧ x.toNat % 8 = 0 then 0x60#8 else 0#8

theorem lowTables_of_bootMapped {ram : Memory} (mapped : BootMapped ram) : LowTables ram where
  pdptFirst := (mapped.pdpt 0 (by decide)).trans (if_pos rfl)
  pdptRest := fun j inside nonzero => by
    rw [mapped.pdpt j inside, if_neg nonzero]
    decide
  pd := mapped.pd
  pt := mapped.pt

/-- The first 2 MB are mapped to themselves, whatever the processor has noted. -/
theorem walk_boot {mask first second : Memory} (mapped : BootMapped first)
    (same : SameBesides mask first second)
    (noted : ∀ x : BitVec 64, 0x1000 ≤ x.toNat → x.toNat < 0x5000 → mask x = tableNotes x)
    {v : BitVec 64} (low : v.toNat < 0x200000) :
    walk second bootCr3 v = some ⟨v, true, false⟩ := by
  have entries (table : BitVec 64) (aligned : WordTable.Aligned table)
      (above : 0x1000 ≤ table.toNat) (below : table.toNat < 0x5000) (i : Nat) (inside : i < 512) :
      SameEntry (WordTable.read first table i) (WordTable.read second table i) := by
    refine sameEntry_read same fun offset small => ?_
    have place := WordTable.toNat_entry aligned inside small
    unfold WordTable.Aligned at aligned
    rw [noted _ (by omega) (by omega), tableNotes, place]
    exact if_congr (by omega) rfl rfl
  have linked : WordTable.read first bootCr3 0 = 0x2003#64 :=
    (mapped.pml4 0 (by decide)).trans (if_pos rfl)
  have zero3 : pdptIndex v = 0 := by
    rw [pdptIndex_eq]
    omega
  have zero2 : pdIndex v = 0 := by
    rw [pdIndex_eq]
    omega
  rw [← walk_first_2MB (lowTables_of_bootMapped mapped) linked low]
  refine @walk_of_sameEntries first second bootCr3 v
    [0x1000#64, 0x2000#64, 0x3000#64, 0x4000#64] ?_ 0x2003#64 0x3003#64 0x4003#64 (by decide) ?_
    (by decide) ?_ (by decide) ?_ (by decide)
  · intro table member
    simp only [List.mem_cons, List.not_mem_nil, or_false] at member
    rcases member with rfl | rfl | rfl | rfl
    · exact entries _ aligned_0x1000 (by decide) (by decide)
    · exact entries _ aligned_0x2000 (by decide) (by decide)
    · exact entries _ aligned_0x3000 (by decide) (by decide)
    · exact entries _ aligned_0x4000 (by decide) (by decide)
  · rw [pml4Index_low (by omega), linked]
  · rw [zero3]
    exact (mapped.pdpt 0 (by decide)).trans (if_pos rfl)
  · rw [zero2]
    exact (mapped.pd 0 (by decide)).trans (if_pos rfl)

end M12
