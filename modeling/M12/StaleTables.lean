/-
This file asks how far the boot loader's page tables depend on what memory held
before it built them.

The clearing loop of `begin_pm` covers the PML4 and stops there, and the stores
that follow are 32 bits wide. So the last 511 entries of the PDPT and of the PD,
and the upper half of each entry the boot code does name, are left over. The
tables map the first 2 MB to themselves and nothing else, whatever the rest of
memory holds, exactly when none of that matters: no left-over entry is present and
no left-over half holds address bits.
-/

import M12.BootTables
import M12.AddressSpace

namespace M12

open ByteMemory

/-! ### What the tables should be -/

/-- The pages of the four tables hold the same in both memories. -/
def SameTables (first second : Memory) : Prop :=
  ∀ x : BitVec 64, 0x1000 ≤ x.toNat → x.toNat < 0x5000 → first x = second x

/-- The tables under `CR3` map the first 2 MB to themselves, writable, and nothing else. -/
structure IdentityOnly (ram : Memory) : Prop where
  low : ∀ v : BitVec 64, v.toNat < 0x200000 → ∃ found, walk ram bootCr3 v = some found ∧
    found.physical = v ∧ found.writable = true
  high : ∀ v, Canonical v → 0x200000 ≤ v.toNat → walk ram bootCr3 v = none

/-- The address bits in the upper half of an entry. -/
def upperAddress : BitVec 64 := 0x000FFFFF00000000#64

/-- What the boot code leaves as it was is harmless: the upper halves of the entries it links hold
no address bits, and the other entries are not present. -/
structure NoStaleEntries (ram : Memory) : Prop where
  pdptLink : WordTable.read ram 0x2000#64 0 &&& upperAddress = 0#64
  pdLink : WordTable.read ram 0x3000#64 0 &&& upperAddress = 0#64
  pages : ∀ i < 512, WordTable.read ram 0x4000#64 i &&& upperAddress = 0#64
  pdpt : ∀ i < 512, i ≠ 0 → hasFlag (WordTable.read ram 0x2000#64 i) pagePresent = false
  pd : ∀ i < 512, i ≠ 0 → hasFlag (WordTable.read ram 0x3000#64 i) pagePresent = false

theorem read_sameTables {first second : Memory} (same : SameTables first second)
    {table : BitVec 64} (aligned : WordTable.Aligned table) (low : 0x1000 ≤ table.toNat)
    (high : table.toNat < 0x5000) {i : Nat} (inside : i < 512) :
    WordTable.read first table i = WordTable.read second table i := by
  refine WordTable.read_congr aligned inside fun x close => ?_
  rw [WordTable.within_page aligned] at close
  unfold WordTable.Aligned at aligned
  exact same x (by omega) (by omega)

theorem NoStaleEntries.congr {first second : Memory} (same : SameTables first second)
    (clean : NoStaleEntries second) : NoStaleEntries first := by
  have pdpt {i : Nat} (inside : i < 512) :=
    read_sameTables same aligned_0x2000 (by decide) (by decide) inside
  have pd {i : Nat} (inside : i < 512) :=
    read_sameTables same aligned_0x3000 (by decide) (by decide) inside
  refine ⟨?_, ?_, fun i inside => ?_, fun i inside other => ?_, fun i inside other => ?_⟩
  · rw [pdpt (by decide)]
    exact clean.pdptLink
  · rw [pd (by decide)]
    exact clean.pdLink
  · rw [read_sameTables same aligned_0x4000 (by decide) (by decide) inside]
    exact clean.pages i inside
  · rw [pdpt inside]
    exact clean.pdpt i inside other
  · rw [pd inside]
    exact clean.pd i inside other

/-! ### Left-over halves -/

theorem withLow_eq (entry : BitVec 64) (low : BitVec 32) :
    withLow entry low = low.setWidth 64 ||| (entry &&& 0xFFFFFFFF00000000#64) := by
  have mask : ∀ bit < 64, (0xFFFFFFFF00000000#64).getLsbD bit = decide (32 ≤ bit) := by decide
  refine BitVec.eq_of_getLsbD_eq fun bit inside => ?_
  rw [getLsbD_withLow, BitVec.getLsbD_or, BitVec.getLsbD_and, BitVec.getLsbD_setWidth,
    mask bit inside, decide_eq_true inside, Bool.true_and]
  split_ifs with first
  · rw [decide_eq_false (by omega), Bool.and_false, Bool.or_false]
  · rw [BitVec.getLsbD_of_ge low bit (by omega), decide_eq_true (by omega), Bool.and_true,
      Bool.false_or]

theorem hasFlag_present_withLow (entry : BitVec 64) (low : BitVec 32) :
    hasFlag (withLow entry low) pagePresent = low.getLsbD 0 := by
  rw [hasFlag_present, getLsbD_withLow, if_pos (by decide)]

theorem hasFlag_writable_withLow (entry : BitVec 64) (low : BitVec 32) :
    hasFlag (withLow entry low) pageWritable = low.getLsbD 1 := by
  rw [hasFlag_writable, getLsbD_withLow, if_pos (by decide)]

theorem hasFlag_huge_withLow (entry : BitVec 64) (low : BitVec 32) :
    hasFlag (withLow entry low) pageHuge = low.getLsbD 7 := by
  rw [hasFlag_huge, getLsbD_withLow, if_pos (by decide)]

/-- The upper half goes into the address of the next table. -/
theorem nextTable_withLow (entry : BitVec 64) (low : BitVec 32) :
    nextTable (withLow entry low) = nextTable (low.setWidth 64) ||| (entry &&& upperAddress) := by
  rw [nextTable, withLow_eq, BitVec.and_or_distrib_right, BitVec.and_assoc]
  rfl

/-- Without address bits in it, a leaf's address is that of its low half. -/
theorem leafAddress_withLow {entry : BitVec 64} (clean : entry &&& upperAddress = 0#64)
    (low : BitVec 32) (v : BitVec 64) (bits : Nat) :
    leafAddress (withLow entry low) v bits = leafAddress (low.setWidth 64) v bits := by
  rw [leafAddress, withLow_eq, BitVec.and_or_distrib_right, BitVec.and_assoc,
    show 0xFFFFFFFF00000000#64 &&& 0x000FFFFFFFFFFFFF#64 = upperAddress by decide, clean,
    BitVec.or_zero, leafAddress]

/-- Address bits in the upper half are worth at least 4 GB. -/
theorem toNat_upperAddress {entry : BitVec 64} (stale : entry &&& upperAddress ≠ 0#64) :
    2 ^ 32 ≤ (entry &&& upperAddress).toNat := by
  by_contra small
  refine stale (BitVec.eq_of_getLsbD_eq fun bit inside => ?_)
  have mask : ∀ bit < 32, upperAddress.getLsbD bit = false := by decide
  rw [BitVec.getLsbD_zero]
  by_cases low : bit < 32
  · rw [BitVec.getLsbD_and, mask bit low, Bool.and_false]
  · exact getLsbD_of_small 32 (by omega) (by omega)

/-! ### The entries -/

section Entries

variable (ram : Memory) {i : Nat} (inside : i < 512)
include inside

theorem read_bootPml4 :
    WordTable.read (setUpBootTables ram) 0x1000#64 i = if i = 0 then 0x2003#64 else 0#64 := by
  rw [read_setUpBootTables ram aligned_0x1000 inside]
  simp

theorem read_bootPdpt :
    WordTable.read (setUpBootTables ram) 0x2000#64 i =
      if i = 0 then withLow (WordTable.read ram 0x2000#64 i) 0x3003#32
      else WordTable.read ram 0x2000#64 i := by
  rw [read_setUpBootTables ram aligned_0x2000 inside]
  simp

theorem read_bootPd :
    WordTable.read (setUpBootTables ram) 0x3000#64 i =
      if i = 0 then withLow (WordTable.read ram 0x3000#64 i) 0x4003#32
      else WordTable.read ram 0x3000#64 i := by
  rw [read_setUpBootTables ram aligned_0x3000 inside]
  simp

theorem read_bootPt :
    WordTable.read (setUpBootTables ram) 0x4000#64 i =
      withLow (WordTable.read ram 0x4000#64 i) (3#32 + BitVec.ofNat 32 i * 0x1000#32) := by
  rw [read_setUpBootTables ram aligned_0x4000 inside, if_pos rfl]

end Entries

/-- A page the loop of `.SetEntry` stores is present and writable. -/
theorem getLsbD_pageEntry {i : Nat} (inside : i < 512) :
    (3#32 + BitVec.ofNat 32 i * 0x1000#32).getLsbD 0 = true ∧
      (3#32 + BitVec.ofNat 32 i * 0x1000#32).getLsbD 1 = true := by
  have value : (3#32 + BitVec.ofNat 32 i * 0x1000#32).toNat = 3 + 4096 * i := by
    rw [BitVec.toNat_add, BitVec.toNat_mul, BitVec.toNat_ofNat, BitVec.toNat_ofNat,
      BitVec.toNat_ofNat]
    omega
  constructor
  · rw [BitVec.getLsbD, value, Nat.testBit_eq_decide_div_mod_eq, decide_eq_true_eq]
    omega
  · rw [BitVec.getLsbD, value, Nat.testBit_eq_decide_div_mod_eq, decide_eq_true_eq]
    omega

/-! ### The walk through them -/

/-- The walk from a PD on, behind the entries of `path`. -/
def walkPd (ram : Memory) (pd v : BitVec 64) (path : List (BitVec 64)) : Option Translation :=
  let e2 := WordTable.read ram pd (pdIndex v)
  if !hasFlag e2 pagePresent then none
  else if hasFlag e2 pageHuge then some (leafTranslation v e2 21 (path ++ [e2]))
  else
    let e1 := WordTable.read ram (nextTable e2) (ptIndex v)
    if !hasFlag e1 pagePresent then none
    else some (leafTranslation v e1 12 (path ++ [e2, e1]))

section Walks

variable {ram : Memory} {v : BitVec 64}

/-- The PML4 has one entry. -/
theorem walk_bootPml4_other (first : pml4Index v ≠ 0) :
    walk (setUpBootTables ram) bootCr3 v = none := by
  rw [walk, bootCr3]
  simp only [read_bootPml4 ram (pml4Index_lt v), if_neg first,
    show hasFlag 0#64 pagePresent = false by decide, Bool.not_false, if_true]

/-- Below 512 GB an entry of the PDPT decides. -/
theorem walk_bootPml4 (first : pml4Index v = 0) :
    walk (setUpBootTables ram) bootCr3 v =
      let e3 := WordTable.read (setUpBootTables ram) 0x2000#64 (pdptIndex v)
      if !hasFlag e3 pagePresent then none
      else if hasFlag e3 pageHuge then some (leafTranslation v e3 30 [0x2003#64, e3])
      else walkPd (setUpBootTables ram) (nextTable e3) v [0x2003#64, e3] := by
  rw [walk, bootCr3]
  simp only [first, read_bootPml4 ram (show 0 < 512 by decide), if_true,
    show hasFlag 0x2003#64 pagePresent = true by decide,
    show nextTable 0x2003#64 = 0x2000#64 by decide, Bool.not_true, Bool.false_eq_true, if_false]
  rfl

/-- Below 1 GB it is the link to the PD, or to wherever its upper half points. -/
theorem walk_bootPdpt (first : pml4Index v = 0) (second : pdptIndex v = 0) :
    walk (setUpBootTables ram) bootCr3 v =
      walkPd (setUpBootTables ram)
        (0x3000#64 ||| (WordTable.read ram 0x2000#64 0 &&& upperAddress)) v
        [0x2003#64, withLow (WordTable.read ram 0x2000#64 0) 0x3003#32] := by
  rw [walk_bootPml4 first, second]
  simp only [read_bootPdpt ram (show 0 < 512 by decide), if_true, hasFlag_present_withLow,
    hasFlag_huge_withLow, nextTable_withLow, show (0x3003#32).getLsbD 0 = true by decide,
    show (0x3003#32).getLsbD 7 = false by decide, Bool.not_true, Bool.false_eq_true, if_false,
    show nextTable ((0x3003#32).setWidth 64) = 0x3000#64 by decide]

/-- Below 2 MB it goes on to the page table, or to wherever that link's upper half points. -/
theorem walkPd_boot (third : pdIndex v = 0) (path : List (BitVec 64)) :
    walkPd (setUpBootTables ram) 0x3000#64 v path =
      let e2 := withLow (WordTable.read ram 0x3000#64 0) 0x4003#32
      let e1 := WordTable.read (setUpBootTables ram)
        (0x4000#64 ||| (WordTable.read ram 0x3000#64 0 &&& upperAddress)) (ptIndex v)
      if !hasFlag e1 pagePresent then none
      else some (leafTranslation v e1 12 (path ++ [e2, e1])) := by
  rw [walkPd, third]
  simp only [read_bootPd ram (show 0 < 512 by decide), if_true, hasFlag_present_withLow,
    hasFlag_huge_withLow, nextTable_withLow, show (0x4003#32).getLsbD 0 = true by decide,
    show (0x4003#32).getLsbD 7 = false by decide, Bool.not_true, Bool.false_eq_true, if_false,
    show nextTable ((0x4003#32).setWidth 64) = 0x4000#64 by decide]

/-- With both links in order each page of the first 2 MB is found through its own entry. -/
theorem walk_bootPage (pdptLink : WordTable.read ram 0x2000#64 0 &&& upperAddress = 0#64)
    (pdLink : WordTable.read ram 0x3000#64 0 &&& upperAddress = 0#64)
    (low : v.toNat < 0x200000) :
    ∃ found, walk (setUpBootTables ram) bootCr3 v = some found ∧ found.writable = true ∧
      found.physical = leafAddress (withLow (WordTable.read ram 0x4000#64 (ptIndex v))
        (3#32 + BitVec.ofNat 32 (ptIndex v) * 0x1000#32)) v 12 := by
  obtain ⟨first, second, third⟩ := (region_low_iff (Or.inl (by omega))).mpr low
  obtain ⟨present, writable⟩ := getLsbD_pageEntry (ptIndex_lt v)
  rw [walk_bootPdpt first second, pdptLink, BitVec.or_zero, walkPd_boot third, pdLink,
    BitVec.or_zero]
  simp only [read_bootPt ram (ptIndex_lt v), hasFlag_present_withLow, present, Bool.not_true,
    Bool.false_eq_true, if_false]
  refine ⟨_, rfl, ?_, rfl⟩
  simp only [leafTranslation, List.cons_append, List.nil_append, List.all_cons, List.all_nil,
    hasFlag_writable_withLow, writable, Bool.and_true]
  decide

end Walks

/-! ### Harmless entries -/

theorem identityOnly_of_clean {ram : Memory} (clean : NoStaleEntries ram) :
    IdentityOnly (setUpBootTables ram) := by
  constructor
  · intro v low
    obtain ⟨found, walked, writable, physical⟩ := walk_bootPage clean.pdptLink clean.pdLink low
    refine ⟨found, walked, ?_, writable⟩
    rw [physical, leafAddress_withLow (clean.pages _ (ptIndex_lt v)),
      setWidth_pageEntry (ptIndex_lt v), leafAddress_pageTable]
    apply BitVec.eq_of_toNat_eq
    rw [BitVec.toNat_umod]
    exact Nat.mod_eq_of_lt low
  · intro v canonical high
    by_cases first : pml4Index v = 0
    · by_cases second : pdptIndex v = 0
      · have third : pdIndex v ≠ 0 := fun third =>
          Nat.not_lt_of_le high ((region_low_iff canonical).mp ⟨first, second, third⟩)
        rw [walk_bootPdpt first second, clean.pdptLink, BitVec.or_zero, walkPd]
        simp only [read_bootPd ram (pdIndex_lt v), if_neg third,
          clean.pd _ (pdIndex_lt v) third, Bool.not_false, if_true]
      · rw [walk_bootPml4 first]
        simp only [read_bootPdpt ram (pdptIndex_lt v), if_neg second,
          clean.pdpt _ (pdptIndex_lt v) second, Bool.not_false, if_true]
    · exact walk_bootPml4_other first

/-! ### Harmful entries -/

/-- The same tables in a memory that holds `0xFF` elsewhere. -/
def filled (ram : Memory) : Memory := fun x =>
  if 0x1000 ≤ x.toNat ∧ x.toNat < 0x5000 then ram x else 0xFF#8

theorem sameTables_filled (ram : Memory) : SameTables (filled ram) ram := fun _ low high =>
  if_pos ⟨low, high⟩

/-- A page of bytes `0xFF` holds entries with all their bits set. -/
theorem read_of_ones {memory : Memory} {table : BitVec 64} (aligned : WordTable.Aligned table)
    {i : Nat} (inside : i < 512) (ones : ∀ x, Within table 4096 x → memory x = 0xFF#8) :
    WordTable.read memory table i = 0xFFFFFFFFFFFFFFFF#64 := by
  have word : ∀ bit < 64, (0xFFFFFFFFFFFFFFFF#64).getLsbD bit = true := by decide
  have byte : ∀ bit < 8, (0xFF#8).getLsbD bit = true := by decide
  refine BitVec.eq_of_getLsbD_eq fun bit bound => ?_
  rw [word bit bound, WordTable.read, getLsbD_load _ _ bound,
    ones _ (WordTable.within_entry aligned inside (by omega)), byte _ (by omega)]

/-- There every entry of every other table has all its bits set. -/
theorem read_filled (ram : Memory) {table : BitVec 64} (aligned : WordTable.Aligned table)
    (outside : table.toNat < 0x1000 ∨ 0x5000 ≤ table.toNat) {i : Nat} (inside : i < 512) :
    WordTable.read (setUpBootTables (filled ram)) table i = 0xFFFFFFFFFFFFFFFF#64 := by
  have other {page : BitVec 64} (low : 0x1000 ≤ page.toNat) (high : page.toNat < 0x5000) :
      table ≠ page := by
    rintro rfl
    omega
  rw [read_setUpBootTables _ aligned inside, if_neg (other (by decide) (by decide)),
    if_neg fun both => other (by decide) (by decide) both.1,
    if_neg fun both => other (by decide) (by decide) both.1,
    if_neg (other (by decide) (by decide))]
  refine read_of_ones aligned inside fun x close => if_neg ?_
  rw [WordTable.within_page aligned] at close
  unfold WordTable.Aligned at aligned
  omega

/-- There the first entry of every table is present. -/
theorem present_filled (ram : Memory) {table : BitVec 64} (aligned : WordTable.Aligned table) :
    hasFlag (WordTable.read (setUpBootTables (filled ram)) table 0) pagePresent = true := by
  by_cases outside : table.toNat < 0x1000 ∨ 0x5000 ≤ table.toNat
  · rw [read_filled ram aligned outside (by decide)]
    decide
  · have named : table = 0x1000#64 ∨ table = 0x2000#64 ∨ table = 0x3000#64 ∨
        table = 0x4000#64 := by
      unfold WordTable.Aligned at aligned
      simp only [← BitVec.toNat_inj, BitVec.toNat_ofNat]
      omega
    rcases named with rfl | rfl | rfl | rfl
    · rw [read_bootPml4 _ (by decide)]
      decide
    · rw [read_bootPdpt _ (by decide), if_pos rfl, hasFlag_present_withLow]
      decide
    · rw [read_bootPd _ (by decide), if_pos rfl, hasFlag_present_withLow]
      decide
    · rw [read_bootPt _ (by decide), hasFlag_present_withLow]
      decide

theorem aligned_nextTable (entry : BitVec 64) : WordTable.Aligned (nextTable entry) := by
  rw [WordTable.Aligned, nextTable, BitVec.toNat_and, show 4096 = 2 ^ 12 from rfl,
    Nat.and_mod_two_pow, show (0x000FFFFFFFFFF000#64).toNat % 2 ^ 12 = 0 from rfl, Nat.and_zero]

/-- A link whose upper half holds address bits leads away from the tables. -/
theorem far_of_stale {entry table : BitVec 64} (stale : entry &&& upperAddress ≠ 0#64)
    (aligned : WordTable.Aligned table) :
    WordTable.Aligned (table ||| (entry &&& upperAddress)) ∧
      0x5000 ≤ (table ||| (entry &&& upperAddress)).toNat := by
  have large := toNat_upperAddress stale
  constructor
  · unfold WordTable.Aligned at *
    rw [BitVec.toNat_or, show 4096 = 2 ^ 12 from rfl, Nat.or_mod_two_pow,
      show table.toNat % 2 ^ 12 = 0 from aligned, Nat.zero_or, BitVec.toNat_and,
      Nat.and_mod_two_pow, show upperAddress.toNat % 2 ^ 12 = 0 from rfl, Nat.and_zero]
  · rw [BitVec.toNat_or]
    exact le_trans (by omega) (le_trans large Nat.right_le_or)

/-- A leaf whose upper half holds address bits lies above 4 GB. -/
theorem toNat_withLow_stale {entry : BitVec 64} (stale : entry &&& upperAddress ≠ 0#64)
    (low : BitVec 32) : 2 ^ 32 ≤ (withLow entry low).toNat % 2 ^ 52 := by
  have masked : withLow entry low &&& 0x000FFFFFFFFFFFFF#64 =
      low.setWidth 64 &&& 0x000FFFFFFFFFFFFF#64 ||| (entry &&& upperAddress) := by
    rw [withLow_eq, BitVec.and_or_distrib_right, BitVec.and_assoc]
    rfl
  have value := congrArg BitVec.toNat masked
  rw [BitVec.toNat_and, show (0x000FFFFFFFFFFFFF#64).toNat = 2 ^ 52 - 1 from rfl,
    Nat.and_two_pow_sub_one_eq_mod, BitVec.toNat_or] at value
  rw [value]
  exact le_trans (toNat_upperAddress stale) Nat.right_le_or

/-- Two present entries end a walk somewhere. -/
theorem walkPd_ne_none {ram : Memory} {pd v : BitVec 64} (path : List (BitVec 64))
    (present : hasFlag (WordTable.read ram pd (pdIndex v)) pagePresent = true)
    (behind : hasFlag (WordTable.read ram (nextTable (WordTable.read ram pd (pdIndex v)))
      (ptIndex v)) pagePresent = true) : walkPd ram pd v path ≠ none := by
  rw [walkPd]
  simp only [present, behind, Bool.not_true, Bool.false_eq_true, if_false]
  split
  · exact Option.some_ne_none _
  · exact Option.some_ne_none _

/-- The first address of a 2 MB region below 512 GB. -/
theorem address_behind {j k : Nat} (jInside : j < 512) (kInside : k < 512)
    (other : ¬ (j = 0 ∧ k = 0)) :
    ∃ v : BitVec 64, Canonical v ∧ 0x200000 ≤ v.toNat ∧ pml4Index v = 0 ∧ pdptIndex v = j ∧
      pdIndex v = k ∧ ptIndex v = 0 := by
  have value : (BitVec.ofNat 64 (2 ^ 30 * j + 2 ^ 21 * k)).toNat = 2 ^ 30 * j + 2 ^ 21 * k := by
    rw [BitVec.toNat_ofNat]
    omega
  refine ⟨BitVec.ofNat 64 (2 ^ 30 * j + 2 ^ 21 * k), Or.inl ?_, ?_, ?_, ?_, ?_, ?_⟩
  · omega
  · omega
  · rw [pml4Index_eq, value]
    omega
  · rw [pdptIndex_eq, value]
    omega
  · rw [pdIndex_eq, value]
    omega
  · rw [ptIndex_eq, value]
    omega

section Harmful

variable {ram : Memory} (identity : IdentityOnly (setUpBootTables (filled ram)))
include identity

theorem clean_pdptLink : WordTable.read (filled ram) 0x2000#64 0 &&& upperAddress = 0#64 := by
  by_contra stale
  obtain ⟨found, walked, physical, -⟩ := identity.low 0#64 (by decide)
  obtain ⟨aligned, far⟩ := far_of_stale stale aligned_0x3000
  rw [walk_bootPdpt (by decide) (by decide), walkPd] at walked
  simp only [read_filled ram aligned (Or.inr far) (pdIndex_lt _),
    show hasFlag 0xFFFFFFFFFFFFFFFF#64 pagePresent = true by decide,
    show hasFlag 0xFFFFFFFFFFFFFFFF#64 pageHuge = true by decide, Bool.not_true,
    Bool.false_eq_true, if_false, if_true, Option.some.injEq] at walked
  rw [← walked] at physical
  have zero : leafAddress 0xFFFFFFFFFFFFFFFF#64 0#64 21 = 0#64 := physical
  exact absurd zero (by decide)

theorem clean_pdLink : WordTable.read (filled ram) 0x3000#64 0 &&& upperAddress = 0#64 := by
  by_contra stale
  obtain ⟨found, walked, physical, -⟩ := identity.low 0#64 (by decide)
  obtain ⟨aligned, far⟩ := far_of_stale stale aligned_0x4000
  rw [walk_bootPdpt (by decide) (by decide), clean_pdptLink identity, BitVec.or_zero,
    walkPd_boot (by decide)] at walked
  simp only [read_filled ram aligned (Or.inr far) (ptIndex_lt _),
    show hasFlag 0xFFFFFFFFFFFFFFFF#64 pagePresent = true by decide, Bool.not_true,
    Bool.false_eq_true, if_false, Option.some.injEq] at walked
  rw [← walked] at physical
  have zero : leafAddress 0xFFFFFFFFFFFFFFFF#64 0#64 12 = 0#64 := physical
  exact absurd zero (by decide)

theorem clean_pages {i : Nat} (inside : i < 512) :
    WordTable.read (filled ram) 0x4000#64 i &&& upperAddress = 0#64 := by
  by_contra stale
  have value : (BitVec.ofNat 64 (4096 * i)).toNat = 4096 * i := by
    rw [BitVec.toNat_ofNat]
    omega
  have index : ptIndex (BitVec.ofNat 64 (4096 * i)) = i := by
    rw [ptIndex_eq, value]
    omega
  have low : (BitVec.ofNat 64 (4096 * i)).toNat < 0x200000 := by omega
  obtain ⟨found, walked, physical, -⟩ := identity.low _ low
  obtain ⟨page, walkedPage, -, physicalPage⟩ :=
    walk_bootPage (clean_pdptLink identity) (clean_pdLink identity) low
  obtain rfl := Option.some.inj (walked.symm.trans walkedPage)
  rw [physical, index] at physicalPage
  have large := toNat_withLow_stale stale (3#32 + BitVec.ofNat 32 i * 0x1000#32)
  have same := congrArg BitVec.toNat physicalPage
  rw [toNat_leafAddress _ _ (by decide)] at same
  omega

theorem clean_pd {k : Nat} (inside : k < 512) (other : k ≠ 0) :
    hasFlag (WordTable.read (filled ram) 0x3000#64 k) pagePresent = false := by
  by_contra stale
  rw [Bool.not_eq_false] at stale
  obtain ⟨v, canonical, high, first, second, third, fourth⟩ :=
    address_behind (show 0 < 512 by decide) inside (fun both => other both.2)
  have absent := identity.high v canonical high
  rw [walk_bootPdpt first second, clean_pdptLink identity, BitVec.or_zero] at absent
  refine walkPd_ne_none _ ?_ ?_ absent
  · rw [third, read_bootPd _ inside, if_neg other]
    exact stale
  · rw [fourth]
    exact present_filled ram (aligned_nextTable _)

theorem clean_pdpt {j : Nat} (inside : j < 512) (other : j ≠ 0) :
    hasFlag (WordTable.read (filled ram) 0x2000#64 j) pagePresent = false := by
  by_contra stale
  rw [Bool.not_eq_false] at stale
  obtain ⟨v, canonical, high, first, second, third, fourth⟩ :=
    address_behind inside (show 0 < 512 by decide) (fun both => other both.1)
  have absent := identity.high v canonical high
  rw [walk_bootPml4 first, second] at absent
  simp only [read_bootPdpt _ inside, if_neg other, stale, Bool.not_true, Bool.false_eq_true,
    if_false] at absent
  split at absent
  · exact absurd absent (Option.some_ne_none _)
  · refine walkPd_ne_none _ ?_ ?_ absent
    · rw [third]
      exact present_filled ram (aligned_nextTable _)
    · rw [fourth]
      exact present_filled ram (aligned_nextTable _)

end Harmful

/-- The boot tables do not depend on what memory held exactly where it held nothing that matters.
With the given contents of the four tables' pages, and any contents elsewhere, the walk maps the
first 2 MB to themselves, writable, and no other address, if and only if the links and the pages
of the page table had no address bits in their upper halves and no other entry of the PDPT and of
the PD was present. -/
theorem boot_tables_independent_iff (ram : Memory) :
    (∀ other, SameTables other ram → IdentityOnly (setUpBootTables other)) ↔
      NoStaleEntries ram := by
  constructor
  · intro identities
    have identity := identities _ (sameTables_filled ram)
    have clean : NoStaleEntries (filled ram) :=
      ⟨clean_pdptLink identity, clean_pdLink identity, fun _ => clean_pages identity,
        fun _ => clean_pdpt identity, fun _ => clean_pd identity⟩
    exact clean.congr fun x low high => (sameTables_filled ram x low high).symm
  · intro clean other same
    exact identityOnly_of_clean (clean.congr same)

/-- In a memory of bytes `0xFF` the second GB is present. -/
theorem boot_tables_keep_stale : ¬ IdentityOnly (setUpBootTables fun _ => 0xFF#8) := by
  intro identity
  have absent := identity.high 0x40000000#64 (by decide) (by decide)
  have stale : WordTable.read (fun _ => 0xFF#8) 0x2000#64 1 = 0xFFFFFFFFFFFFFFFF#64 :=
    read_of_ones aligned_0x2000 (by decide) fun _ _ => rfl
  rw [walk_bootPml4 (by decide), show pdptIndex 0x40000000#64 = 1 by decide] at absent
  simp only [read_bootPdpt _ (show 1 < 512 by decide), if_neg Nat.one_ne_zero, stale,
    show hasFlag 0xFFFFFFFFFFFFFFFF#64 pagePresent = true by decide,
    show hasFlag 0xFFFFFFFFFFFFFFFF#64 pageHuge = true by decide, Bool.not_true,
    Bool.false_eq_true, if_false, if_true] at absent
  exact absurd absent (Option.some_ne_none _)

end M12
