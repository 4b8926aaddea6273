/-
This file models the page tables `begin_pm` of `boot/boot.asm` builds before it
enables long mode: PML4 at `0x1000`, PDPT at `0x2000`, PD at `0x3000` and PT at
`0x4000`.

The boot code runs in 32-bit mode, so every table entry is written by one 32-bit
store to its low half; the upper halves, and every entry of the three lower
tables that is not named, keep what memory held before. Under the assumption
that this part of memory was zero the tables map the first 2 MB to themselves.
-/

import M12.Library.WordTable

namespace M12

open ByteMemory

/-! ### The boot code's stores -/

/-- `rep stosd` with `eax = 0` and `ecx = 1024` at `edi = 0x1000`. -/
def clearPml4 (ram : Memory) : Memory :=
  (List.range 1024).foldl
    (fun ram i => store ram (0x1000#64 + BitVec.ofNat 64 (4 * i)) 0#32) ram

/-- One turn of `.SetEntry`: the low half of entry `i` of the page table at `0x4000`. -/
def setEntry (ram : Memory) (i : Nat) : Memory :=
  store ram (0x4000#64 + BitVec.ofNat 64 (8 * i)) (3#32 + BitVec.ofNat 32 i * 0x1000#32)

/-- The page-table setup of `begin_pm`. -/
def setUpBootTables (ram : Memory) : Memory :=
  let ram := clearPml4 ram
  let ram := store ram 0x1000#64 0x2003#32
  let ram := store ram 0x2000#64 0x3003#32
  let ram := store ram 0x3000#64 0x4003#32
  (List.range 512).foldl setEntry ram

/-- The value `mov cr3, edi` loads. -/
def bootCr3 : BitVec 64 := 0x1000#64

/-- The memory of the four tables held zero when the boot code ran. -/
def ZeroedTables (ram : Memory) : Prop :=
  ∀ x : BitVec 64, 0x1000 ≤ x.toNat → x.toNat < 0x5000 → ram x = 0#8

/-- Memory that is all zero is such a memory. -/
theorem zeroedTables_blank : ZeroedTables fun _ => 0#8 := fun _ _ _ => rfl

/-! ### A 32-bit store into an entry -/

/-- The entry with its low half replaced. -/
def withLow (entry : BitVec 64) (low : BitVec 32) : BitVec 64 := entry.extractLsb' 32 32 ++ low

theorem getLsbD_withLow (entry : BitVec 64) (low : BitVec 32) (bit : Nat) :
    (withLow entry low).getLsbD bit = if bit < 32 then low.getLsbD bit else entry.getLsbD bit := by
  rw [withLow, BitVec.getLsbD_append]
  split_ifs with first
  · rfl
  · rw [BitVec.getLsbD_extractLsb', show 32 + (bit - 32) = bit by omega]
    by_cases inside : bit < 64
    · rw [decide_eq_true (by omega), Bool.true_and]
    · rw [BitVec.getLsbD_of_ge entry bit (by omega), Bool.and_false]

theorem withLow_zero (low : BitVec 32) : withLow 0#64 low = low.setWidth 64 := by
  refine BitVec.eq_of_getLsbD_eq fun bit inside => ?_
  rw [getLsbD_withLow, BitVec.getLsbD_setWidth, decide_eq_true inside, Bool.true_and]
  split_ifs with first
  · rfl
  · rw [BitVec.getLsbD_zero, BitVec.getLsbD_of_ge low bit (by omega)]

/-- A 32-bit store to an entry's address replaces its low half and keeps the upper one. -/
theorem store_low_eq_write (ram : Memory) (table : BitVec 64) (i : Nat) (low : BitVec 32) :
    store ram (table + BitVec.ofNat 64 (8 * i)) low =
      WordTable.write ram table i (withLow (WordTable.read ram table i) low) := by
  funext x
  rw [WordTable.write, store, store]
  split_ifs with first whole whole
  · refine BitVec.eq_of_getLsbD_eq fun bit bound => ?_
    rw [BitVec.getLsbD_extractLsb', BitVec.getLsbD_extractLsb', getLsbD_withLow, if_pos (by omega)]
  · omega
  · refine BitVec.eq_of_getLsbD_eq fun bit bound => ?_
    rw [BitVec.getLsbD_extractLsb', getLsbD_withLow, if_neg (by omega), WordTable.read,
      getLsbD_load _ _ (by omega), decide_eq_true bound, Bool.true_and,
      show ∀ d, (8 * d + bit) / 8 = d by omega, show ∀ d, (8 * d + bit) % 8 = bit by omega,
      add_ofNat_sub]
  · rfl

/-! ### The stores one after the other -/

theorem aligned_0x1000 : WordTable.Aligned 0x1000#64 := by decide
theorem aligned_0x2000 : WordTable.Aligned 0x2000#64 := by decide
theorem aligned_0x3000 : WordTable.Aligned 0x3000#64 := by decide
theorem aligned_0x4000 : WordTable.Aligned 0x4000#64 := by decide

/-- The clearing loop zeroes the first 4 KB from `0x1000` and nothing else. -/
theorem foldl_store_zero (ram : Memory) {count : Nat} (bound : count ≤ 1024) (x : BitVec 64) :
    (List.range count).foldl
        (fun ram i => store ram (0x1000#64 + BitVec.ofNat 64 (4 * i)) 0#32) ram x =
      if 0x1000 ≤ x.toNat ∧ x.toNat < 0x1000 + 4 * count then 0#8 else ram x := by
  induction count with
  | zero =>
    rw [List.range_zero, List.foldl_nil, if_neg (by omega)]
  | succ count inductionHypothesis =>
    have start : (0x1000#64 + BitVec.ofNat 64 (4 * count)).toNat = 0x1000 + 4 * count := by
      rw [BitVec.toNat_add, BitVec.toNat_ofNat, BitVec.toNat_ofNat]
      omega
    have near : 8 * (x - (0x1000#64 + BitVec.ofNat 64 (4 * count))).toNat < 32 ↔
        0x1000 + 4 * count ≤ x.toNat ∧ x.toNat < 0x1000 + 4 * count + 4 := by
      have range := within_iff
        (show (0x1000#64 + BitVec.ofNat 64 (4 * count)).toNat + 4 ≤ 2 ^ 64 by omega) x
      rw [start] at range
      unfold Within at range
      omega
    rw [List.range_succ, List.foldl_append, List.foldl_cons, List.foldl_nil, store]
    simp only [near, inductionHypothesis (by omega)]
    split_ifs with last whole whole
    · exact BitVec.eq_of_getLsbD_eq fun bit small => by
        rw [BitVec.getLsbD_extractLsb', BitVec.getLsbD_zero, BitVec.getLsbD_zero, Bool.and_false]
    · omega
    · rfl
    · omega
    · omega
    · rfl

theorem clearPml4_apply (ram : Memory) (x : BitVec 64) :
    clearPml4 ram x = if 0x1000 ≤ x.toNat ∧ x.toNat < 0x2000 then 0#8 else ram x :=
  foldl_store_zero ram le_rfl x

/-- A 32-bit store below `0x5000` leaves the memory map alone. -/
theorem store_below (ram : Memory) {address x : BitVec 64} (value : BitVec 32)
    (below : address.toNat + 4 ≤ 0x5000) (above : 0x5000 ≤ x.toNat) :
    store ram address value x = ram x := by
  refine store_of_not_within ram value ?_
  have bound := x.isLt
  rw [BitVec.toNat_sub]
  omega

/-- The boot code writes nothing above its tables. -/
theorem setUpBootTables_frame (ram : Memory) {x : BitVec 64} (above : 0x5000 ≤ x.toNat) :
    setUpBootTables ram x = ram x := by
  have entries : ∀ count ≤ 512, ∀ ram : Memory,
      (List.range count).foldl setEntry ram x = ram x := by
    intro count bound ram
    induction count with
    | zero => rfl
    | succ count inductionHypothesis =>
      rw [List.range_succ, List.foldl_append, List.foldl_cons, List.foldl_nil, setEntry,
        store_below _ _ ?_ above, inductionHypothesis (by omega)]
      rw [BitVec.toNat_add, BitVec.toNat_ofNat, BitVec.toNat_ofNat]
      omega
  simp only [setUpBootTables]
  rw [entries 512 le_rfl, store_below _ _ (by decide) above, store_below _ _ (by decide) above,
    store_below _ _ (by decide) above, clearPml4_apply, if_neg (by omega)]

/-- The low half `.SetEntry` stores, as a whole entry. -/
theorem setWidth_pageEntry {i : Nat} (inside : i < 512) :
    (3#32 + BitVec.ofNat 32 i * 0x1000#32).setWidth 64 = 3#64 + BitVec.ofNat 64 (4096 * i) := by
  apply BitVec.eq_of_toNat_eq
  rw [BitVec.toNat_setWidth, BitVec.toNat_add, BitVec.toNat_mul, BitVec.toNat_add,
    BitVec.toNat_ofNat, BitVec.toNat_ofNat, BitVec.toNat_ofNat, BitVec.toNat_ofNat,
    BitVec.toNat_ofNat]
  omega

/-- What a table holds after one entry of it, or of another table, has been written. -/
theorem read_write (ram : Memory) {table other : BitVec 64} (aligned : WordTable.Aligned table)
    (otherAligned : WordTable.Aligned other) {i j : Nat} (iInside : i < 512) (jInside : j < 512)
    (value : BitVec 64) :
    WordTable.read (WordTable.write ram table i value) other j =
      if other = table ∧ j = i then value else WordTable.read ram other j := by
  split_ifs with same
  · rw [same.1, same.2, WordTable.read_write_self]
  · exact WordTable.read_write_other ram aligned otherAligned iInside jInside value same

/-- What it holds after the low half of one entry has been stored. -/
theorem read_store_low (ram : Memory) {table other : BitVec 64} (aligned : WordTable.Aligned table)
    (otherAligned : WordTable.Aligned other) {i j : Nat} (iInside : i < 512) (jInside : j < 512)
    (low : BitVec 32) :
    WordTable.read (store ram (table + BitVec.ofNat 64 (8 * i)) low) other j =
      if other = table ∧ j = i then withLow (WordTable.read ram other j) low
      else WordTable.read ram other j := by
  rw [store_low_eq_write, read_write _ aligned otherAligned iInside jInside]
  split_ifs with same
  · rw [same.1, same.2]
  · rfl

theorem read_store_first (ram : Memory) {table other : BitVec 64}
    (aligned : WordTable.Aligned table) (otherAligned : WordTable.Aligned other) {j : Nat}
    (inside : j < 512) (low : BitVec 32) :
    WordTable.read (store ram table low) other j =
      if other = table ∧ j = 0 then withLow (WordTable.read ram other j) low
      else WordTable.read ram other j := by
  have first := read_store_low ram aligned otherAligned (show 0 < 512 by decide) inside low
  rwa [Nat.mul_zero, BitVec.add_zero] at first

/-- The `.SetEntry` loop replaces the low halves of the page table and leaves the other tables. -/
theorem foldl_setEntry (ram : Memory) {count : Nat} (bound : count ≤ 512) {other : BitVec 64}
    (aligned : WordTable.Aligned other) {j : Nat} (inside : j < 512) :
    WordTable.read ((List.range count).foldl setEntry ram) other j =
      if other = 0x4000#64 ∧ j < count then
        withLow (WordTable.read ram other j) (3#32 + BitVec.ofNat 32 j * 0x1000#32)
      else WordTable.read ram other j := by
  induction count with
  | zero => rw [List.range_zero, List.foldl_nil, if_neg (by omega)]
  | succ count inductionHypothesis =>
    rw [List.range_succ, List.foldl_append, List.foldl_cons, List.foldl_nil, setEntry,
      read_store_low _ aligned_0x4000 aligned (by omega) inside,
      inductionHypothesis (by omega)]
    by_cases table : other = 0x4000#64
    · simp only [table, true_and]
      rcases Nat.lt_trichotomy j count with earlier | rfl | later
      · rw [if_neg (show ¬ j = count by omega), if_pos earlier,
          if_pos (show j < count + 1 by omega)]
      · rw [if_pos rfl, if_neg (Nat.lt_irrefl j), if_pos (Nat.lt_succ_self j)]
      · rw [if_neg (show ¬ j = count by omega), if_neg (show ¬ j < count by omega),
          if_neg (show ¬ j < count + 1 by omega)]
    · simp only [table, false_and, if_false]

/-- The clearing loop zeroes the PML4 and leaves the other tables. -/
theorem read_clearPml4 (ram : Memory) {table : BitVec 64} (aligned : WordTable.Aligned table)
    {i : Nat} (inside : i < 512) :
    WordTable.read (clearPml4 ram) table i =
      if table = 0x1000#64 then 0#64 else WordTable.read ram table i := by
  have within (x : BitVec 64) : Within 0x1000#64 4096 x ↔ 0x1000 ≤ x.toNat ∧ x.toNat < 0x2000 :=
    WordTable.within_page aligned_0x1000 x
  split_ifs with same
  · rw [same]
    refine WordTable.read_of_zero aligned_0x1000 inside fun x close => ?_
    rw [clearPml4_apply, if_pos ((within x).mp close)]
  · refine WordTable.read_congr aligned inside fun x close => ?_
    rw [clearPml4_apply, if_neg fun range => same ?_]
    exact WordTable.eq_of_within aligned aligned_0x1000 close ((within x).mpr range)

/-- The tables once the boot code has set them up: a PML4 with one entry, three tables some of
whose low halves are new, and all else as memory held it. -/
theorem read_setUpBootTables (ram : Memory) {table : BitVec 64} (aligned : WordTable.Aligned table)
    {i : Nat} (inside : i < 512) :
    WordTable.read (setUpBootTables ram) table i =
      if table = 0x4000#64 then
        withLow (WordTable.read ram table i) (3#32 + BitVec.ofNat 32 i * 0x1000#32)
      else if table = 0x3000#64 ∧ i = 0 then withLow (WordTable.read ram table i) 0x4003#32
      else if table = 0x2000#64 ∧ i = 0 then withLow (WordTable.read ram table i) 0x3003#32
      else if table = 0x1000#64 then if i = 0 then 0x2003#64 else 0#64
      else WordTable.read ram table i := by
  rw [setUpBootTables, foldl_setEntry _ le_rfl aligned inside,
    read_store_first _ aligned_0x3000 aligned inside,
    read_store_first _ aligned_0x2000 aligned inside,
    read_store_first _ aligned_0x1000 aligned inside, read_clearPml4 ram aligned inside]
  by_cases pt : table = 0x4000#64
  · simp only [pt, inside, BitVec.reduceEq, and_self, false_and, if_false, if_true]
  · by_cases pml4 : table = 0x1000#64
    · have link : withLow 0#64 0x2003#32 = 0x2003#64 := by
        rw [withLow_zero]
        decide
      simp only [pml4, BitVec.reduceEq, false_and, true_and, if_false, if_true, link]
    · by_cases pd : table = 0x3000#64
      · simp only [pd, BitVec.reduceEq, false_and, true_and, if_false]
      · simp only [pt, pml4, pd, false_and, if_false]

/-! ### The tables on zeroed memory -/

/-- The four tables as the boot code leaves them. -/
structure BootMapped (ram : Memory) : Prop where
  pml4 : ∀ i < 512, WordTable.read ram 0x1000#64 i = if i = 0 then 0x2003#64 else 0#64
  pdpt : ∀ i < 512, WordTable.read ram 0x2000#64 i = if i = 0 then 0x3003#64 else 0#64
  pd : ∀ i < 512, WordTable.read ram 0x3000#64 i = if i = 0 then 0x4003#64 else 0#64
  pt : ∀ i < 512, WordTable.read ram 0x4000#64 i = 3#64 + BitVec.ofNat 64 (4096 * i)

/-- On zeroed memory the boot code builds its four tables. -/
theorem bootMapped_setUpBootTables {ram : Memory} (zeroed : ZeroedTables ram) :
    BootMapped (setUpBootTables ram) := by
  have zero {table : BitVec 64} (aligned : WordTable.Aligned table) (low : 0x1000 ≤ table.toNat)
      (high : table.toNat < 0x5000) {i : Nat} (inside : i < 512) :
      WordTable.read ram table i = 0#64 := by
    refine WordTable.read_of_zero aligned inside fun x close => ?_
    rw [WordTable.within_page aligned] at close
    unfold WordTable.Aligned at aligned
    exact zeroed x (by omega) (by omega)
  constructor <;> intro i inside
  · rw [read_setUpBootTables ram aligned_0x1000 inside]
    simp
  · rw [read_setUpBootTables ram aligned_0x2000 inside,
      zero aligned_0x2000 (by decide) (by decide) inside]
    simp [withLow_zero]
  · rw [read_setUpBootTables ram aligned_0x3000 inside,
      zero aligned_0x3000 (by decide) (by decide) inside]
    simp [withLow_zero]
  · rw [read_setUpBootTables ram aligned_0x4000 inside,
      zero aligned_0x4000 (by decide) (by decide) inside, withLow_zero, if_pos rfl,
      setWidth_pageEntry inside]

end M12
