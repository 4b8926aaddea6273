/-
This file models how the kernel reads the memory map the boot loader leaves at
`0x5000`: a 16-bit entry count followed by packed 24-byte entries.

`safeParseMemoryMap` is `safe_parse_memory_map` of `kernel/memory.c`. It walks
the entries once and keeps the size and base of the largest usable block above
`memory_start`. The specification below the model says what that walk computes:
the first entry whose part at or above 1 MB is longest, out of the usable
entries whose base and length pass the 4 GB filter. Sizes and ends are compared
as natural numbers there, so the theorem also says that no sum in the walk wraps.
-/

import M12.Library.ByteMemory

namespace M12

open ByteMemory

/-! ### The table in memory -/

/-- `MEMORY_MAP_LOCATION`. -/
def memoryMapLocation : BitVec 64 := 0x5000#64

/-- `MAX_MEMORY`: 4 GB. -/
def maxMemory : BitVec 64 := 0x100000000#64

/-- The packed 24-byte `MemoryMapEntry`. -/
structure MemoryMapEntry where
  baseLow : BitVec 32
  baseHigh : BitVec 32
  lengthLow : BitVec 32
  lengthHigh : BitVec 32
  type : BitVec 32
  acpi : BitVec 32
deriving DecidableEq

/-- `*entry_count_ptr`. -/
def entryCount (ram : Memory) : BitVec 16 := load 16 ram memoryMapLocation

/-- The address of `entries[i]`. -/
def entryAddress (index : Nat) : BitVec 64 :=
  memoryMapLocation + 2#64 + BitVec.ofNat 64 (24 * index)

/-- `entries[i]`. -/
def entryAt (ram : Memory) (index : Nat) : MemoryMapEntry where
  baseLow := load 32 ram (entryAddress index)
  baseHigh := load 32 ram (entryAddress index + 4#64)
  lengthLow := load 32 ram (entryAddress index + 8#64)
  lengthHigh := load 32 ram (entryAddress index + 12#64)
  type := load 32 ram (entryAddress index + 16#64)
  acpi := load 32 ram (entryAddress index + 20#64)

namespace MemoryMapEntry

/-- `((uint64_t)base_high << 32) | base_low`. -/
def base (entry : MemoryMapEntry) : BitVec 64 :=
  entry.baseHigh.setWidth 64 <<< 32 ||| entry.baseLow.setWidth 64

/-- `((uint64_t)length_high << 32) | length_low`. -/
def length (entry : MemoryMapEntry) : BitVec 64 :=
  entry.lengthHigh.setWidth 64 <<< 32 ||| entry.lengthLow.setWidth 64

end MemoryMapEntry

/-! ### The parser -/

/-- The loop's accumulators `largest_block_size` and `largest_block_base`. -/
structure LargestBlock where
  size : BitVec 64
  base : BitVec 64
deriving DecidableEq

/-- The body of the parser's loop for one entry. -/
def considerEntry (memoryStart : BitVec 64) (largest : LargestBlock) (entry : MemoryMapEntry) :
    LargestBlock :=
  if entry.base > 0x100000000#64 ∨ entry.length > 0x100000000#64 then largest
  else if entry.type = 1#32 then
    if entry.base ≥ memoryStart then
      if entry.length > largest.size then ⟨entry.length, entry.base⟩ else largest
    else if entry.base < memoryStart ∧ entry.base + entry.length > memoryStart then
      if entry.base + entry.length - memoryStart > largest.size then
        ⟨entry.base + entry.length - memoryStart, memoryStart⟩
      else largest
    else largest
  else largest

/-- `safe_parse_memory_map`: the return code and the value left in `*memory_end_ptr`. -/
def safeParseMemoryMap (ram : Memory) (memoryStart memoryEnd : BitVec 64) : Int × BitVec 64 :=
  if entryCount ram > 100#16 then (-1, memoryEnd)
  else if entryCount ram = 0#16 ∨ entryCount ram > 50#16 then (-1, memoryEnd)
  else
    let largest := (List.range (entryCount ram).toNat).foldl
      (fun largest index => considerEntry memoryStart largest (entryAt ram index))
      ⟨0#64, memoryStart⟩
    if largest.size > 0#64 then
      if largest.base + largest.size > maxMemory then (0, maxMemory)
      else (0, largest.base + largest.size)
    else (-1, memoryEnd)

/-! ### The largest block, as a specification -/

/-- The entries of the table, in order. -/
def entries (ram : Memory) : List MemoryMapEntry :=
  (List.range (entryCount ram).toNat).map (entryAt ram)

/-- An entry depends only on its 24 bytes. -/
theorem entryAt_congr {first second : Memory} {index : Nat}
    (same : ∀ x, Within (entryAddress index) 24 x → first x = second x) :
    entryAt first index = entryAt second index := by
  have field : ∀ place : Nat, place + 4 ≤ 24 →
      load 32 first (entryAddress index + BitVec.ofNat 64 place) =
        load 32 second (entryAddress index + BitVec.ofNat 64 place) := by
    intro place near
    refine load_congr fun offset inside => same _ ?_
    rw [BitVec.add_assoc, ← BitVec.ofNat_add]
    exact within_add _ (by omega) (by omega)
  have zero := field 0 (by decide)
  rw [BitVec.add_zero] at zero
  rw [entryAt, entryAt, zero, field 4 (by decide), field 8 (by decide), field 12 (by decide),
    field 16 (by decide), field 20 (by decide)]

theorem toNat_entryAddress {index : Nat} (inside : index < 2 ^ 16) :
    (entryAddress index).toNat = 0x5002 + 24 * index := by
  rw [entryAddress, memoryMapLocation, BitVec.toNat_add, BitVec.toNat_add, BitVec.toNat_ofNat,
    BitVec.toNat_ofNat, BitVec.toNat_ofNat]
  omega

/-- The map depends only on memory from its location on. -/
theorem entries_congr {first second : Memory}
    (same : ∀ x : BitVec 64, 0x5000 ≤ x.toNat → first x = second x) :
    entryCount first = entryCount second ∧ entries first = entries second := by
  have count : entryCount first = entryCount second := by
    refine load_congr fun offset inside => same _ ?_
    rw [memoryMapLocation, BitVec.toNat_add, BitVec.toNat_ofNat, BitVec.toNat_ofNat]
    omega
  refine ⟨count, ?_⟩
  rw [entries, entries, count]
  refine List.map_congr_left fun index inside => entryAt_congr fun x near => same x ?_
  have small := List.mem_range.mp inside
  have bound := (entryCount second).isLt
  have start := toNat_entryAddress (show index < 2 ^ 16 by omega)
  have close := (within_iff (by omega) x).mp near
  omega

namespace MemoryMapEntry

/-- Where the part of an entry at or above 1 MB starts. -/
def partBase (entry : MemoryMapEntry) : Nat := max entry.base.toNat 0x100000

/-- The length of the part of an entry at or above 1 MB. -/
def partLength (entry : MemoryMapEntry) : Nat :=
  entry.base.toNat + entry.length.toNat - entry.partBase

/-- An entry the parser can pick: usable, inside the 4 GB filter, and with a non-empty part
at or above 1 MB. -/
def Candidate (entry : MemoryMapEntry) : Prop :=
  entry.type = 1#32 ∧ entry.base.toNat ≤ 2 ^ 32 ∧ entry.length.toNat ≤ 2 ^ 32 ∧
    0 < entry.partLength

instance (entry : MemoryMapEntry) : Decidable entry.Candidate :=
  inferInstanceAs (Decidable (_ ∧ _ ∧ _ ∧ _))

end MemoryMapEntry

/-- The first candidate whose part at or above 1 MB is longest. -/
def largestEntry (table : List MemoryMapEntry) : Option MemoryMapEntry :=
  (table.filter fun entry => entry.Candidate).argmax MemoryMapEntry.partLength

/-- The accumulators that stand for a choice of entry. -/
def blockOf : Option MemoryMapEntry → LargestBlock
  | none => ⟨0#64, 0x100000#64⟩
  | some entry => ⟨BitVec.ofNat 64 entry.partLength, BitVec.ofNat 64 entry.partBase⟩

/-- An entry that is no candidate leaves the accumulators alone. -/
theorem considerEntry_of_not_candidate (largest : LargestBlock) {entry : MemoryMapEntry}
    (skipped : ¬ entry.Candidate) : considerEntry 0x100000#64 largest entry = largest := by
  unfold considerEntry
  split_ifs with filtered usable above longer below longer
  · rfl
  · exfalso
    simp only [not_or, gt_iff_lt, BitVec.lt_def, BitVec.toNat_ofNat, ge_iff_le,
      BitVec.le_def] at filtered above longer
    refine skipped ⟨usable, by omega, by omega, ?_⟩
    unfold MemoryMapEntry.partLength MemoryMapEntry.partBase
    omega
  · rfl
  · exfalso
    simp only [not_or, gt_iff_lt, BitVec.lt_def, BitVec.toNat_ofNat, ge_iff_le,
      BitVec.le_def, BitVec.toNat_add] at filtered above below
    refine skipped ⟨usable, by omega, by omega, ?_⟩
    unfold MemoryMapEntry.partLength MemoryMapEntry.partBase
    omega
  · rfl
  · rfl
  · rfl

/-- A candidate replaces the accumulators when its part is longer than the size kept. -/
theorem considerEntry_of_candidate (largest : LargestBlock) {entry : MemoryMapEntry}
    (candidate : entry.Candidate) :
    considerEntry 0x100000#64 largest entry =
      if largest.size.toNat < entry.partLength then blockOf (some entry) else largest := by
  obtain ⟨usable, baseLe, lengthLe, positive⟩ := candidate
  have accepted : ¬ (entry.base > 0x100000000#64 ∨ entry.length > 0x100000000#64) := by
    simp only [not_or, gt_iff_lt, BitVec.lt_def, BitVec.toNat_ofNat]
    omega
  unfold considerEntry
  rw [if_neg accepted, if_pos usable]
  unfold MemoryMapEntry.partLength MemoryMapEntry.partBase at positive
  by_cases above : entry.base ≥ 0x100000#64
  · rw [if_pos above]
    simp only [ge_iff_le, BitVec.le_def, BitVec.toNat_ofNat] at above
    have size : entry.partLength = entry.length.toNat := by
      unfold MemoryMapEntry.partLength MemoryMapEntry.partBase
      omega
    have start : entry.partBase = entry.base.toNat := by
      unfold MemoryMapEntry.partBase
      omega
    simp only [gt_iff_lt, BitVec.lt_def, blockOf, size, start, BitVec.ofNat_toNat,
      BitVec.setWidth_eq]
  · rw [if_neg above]
    simp only [ge_iff_le, BitVec.le_def, BitVec.toNat_ofNat] at above
    have crosses : entry.base < 0x100000#64 ∧ entry.base + entry.length > 0x100000#64 := by
      simp only [gt_iff_lt, BitVec.lt_def, BitVec.toNat_ofNat, BitVec.toNat_add]
      omega
    have size : entry.base + entry.length - 0x100000#64 = BitVec.ofNat 64 entry.partLength := by
      apply BitVec.eq_of_toNat_eq
      unfold MemoryMapEntry.partLength MemoryMapEntry.partBase
      simp only [BitVec.toNat_sub, BitVec.toNat_add, BitVec.toNat_ofNat]
      omega
    have start : entry.partBase = 0x100000 := by
      unfold MemoryMapEntry.partBase
      omega
    have bounded : entry.partLength < 2 ^ 64 := by
      unfold MemoryMapEntry.partLength
      omega
    rw [if_pos crosses, size]
    simp only [gt_iff_lt, BitVec.lt_def, blockOf, start, BitVec.toNat_ofNat,
      Nat.mod_eq_of_lt bounded]

/-- A chosen entry is a candidate of the table. -/
theorem largestEntry_candidate {table : List MemoryMapEntry} {entry : MemoryMapEntry}
    (chosen : largestEntry table = some entry) : entry ∈ table ∧ entry.Candidate := by
  have member := List.argmax_mem (Option.mem_def.mpr chosen)
  rw [List.mem_filter] at member
  exact ⟨member.1, of_decide_eq_true member.2⟩

theorem partLength_lt {entry : MemoryMapEntry} (candidate : entry.Candidate) :
    entry.partLength < 2 ^ 64 := by
  obtain ⟨-, baseLe, lengthLe, -⟩ := candidate
  unfold MemoryMapEntry.partLength
  omega

/-- One turn of the loop keeps the accumulators at the largest block seen so far. -/
theorem considerEntry_blockOf (seen : List MemoryMapEntry) (entry : MemoryMapEntry) :
    considerEntry 0x100000#64 (blockOf (largestEntry seen)) entry =
      blockOf (largestEntry (seen ++ [entry])) := by
  unfold largestEntry
  by_cases candidate : entry.Candidate
  · rw [considerEntry_of_candidate _ candidate, List.filter_append,
      List.filter_singleton, decide_eq_true candidate, cond_true, List.argmax_concat]
    cases chosen : (seen.filter fun entry => entry.Candidate).argmax
        MemoryMapEntry.partLength with
    | none => simp [blockOf, candidate.2.2.2]
    | some best =>
      have bestCandidate : best.Candidate := (largestEntry_candidate chosen).2
      simp only [blockOf, BitVec.toNat_ofNat, Nat.mod_eq_of_lt (partLength_lt bestCandidate)]
      split_ifs <;> rfl
  · rw [considerEntry_of_not_candidate _ candidate, List.filter_append,
      List.filter_singleton, decide_eq_false candidate, cond_false, List.append_nil]

/-- The whole loop computes the largest block of the table. -/
theorem foldl_considerEntry (ram : Memory) (count : Nat) :
    (List.range count).foldl
        (fun largest index => considerEntry 0x100000#64 largest (entryAt ram index))
        ⟨0#64, 0x100000#64⟩ =
      blockOf (largestEntry ((List.range count).map (entryAt ram))) := by
  induction count with
  | zero => rfl
  | succ count inductionHypothesis =>
    rw [List.range_succ, List.foldl_append, inductionHypothesis, List.map_append, List.foldl_cons,
      List.foldl_nil, considerEntry_blockOf]
    rfl

/-! ### What the parser returns -/

/-- The table's entry count passes the parser's sanity checks. -/
def CountValid (ram : Memory) : Prop := 1 ≤ (entryCount ram).toNat ∧ (entryCount ram).toNat ≤ 50

instance (ram : Memory) : Decidable (CountValid ram) := inferInstanceAs (Decidable (_ ∧ _))

/-- The end of the block an entry gives, capped at 4 GB. -/
def cappedEnd (entry : MemoryMapEntry) : Nat :=
  min (entry.base.toNat + entry.length.toNat) (2 ^ 32)

theorem part_end {entry : MemoryMapEntry} (candidate : entry.Candidate) :
    entry.partBase + entry.partLength = entry.base.toNat + entry.length.toNat := by
  have positive := candidate.2.2.2
  unfold MemoryMapEntry.partLength at positive ⊢
  omega

/-- A candidate's capped end lies above 1 MB and at or below 4 GB. -/
theorem cappedEnd_bounds {entry : MemoryMapEntry} (candidate : entry.Candidate) :
    0x100000 < cappedEnd entry ∧ cappedEnd entry ≤ 2 ^ 32 := by
  have positive := candidate.2.2.2
  unfold MemoryMapEntry.partLength MemoryMapEntry.partBase at positive
  unfold cappedEnd
  omega

/-- With a valid count and a candidate in the table, the parser reports the capped end of the
largest block. -/
theorem safeParseMemoryMap_of_largest (ram : Memory) (memoryEnd : BitVec 64)
    (valid : CountValid ram) {entry : MemoryMapEntry}
    (chosen : largestEntry (entries ram) = some entry) :
    safeParseMemoryMap ram 0x100000#64 memoryEnd = (0, BitVec.ofNat 64 (cappedEnd entry)) := by
  obtain ⟨-, candidate⟩ := largestEntry_candidate chosen
  have ending := part_end candidate
  obtain ⟨usable, baseLe, lengthLe, positive⟩ := candidate
  have partLt := partLength_lt ⟨usable, baseLe, lengthLe, positive⟩
  obtain ⟨some, few⟩ := valid
  have notHuge : ¬ entryCount ram > 100#16 := by
    simp only [gt_iff_lt, BitVec.lt_def, BitVec.toNat_ofNat]
    omega
  have accepted : ¬ (entryCount ram = 0#16 ∨ entryCount ram > 50#16) := by
    simp only [gt_iff_lt, BitVec.lt_def, BitVec.toNat_ofNat, ← BitVec.toNat_inj]
    omega
  have walked := foldl_considerEntry ram (entryCount ram).toNat
  rw [show largestEntry ((List.range (entryCount ram).toNat).map (entryAt ram)) =
    Option.some entry from chosen] at walked
  unfold safeParseMemoryMap
  simp only [if_neg notHuge, if_neg accepted, walked, blockOf]
  have found : BitVec.ofNat 64 entry.partLength > 0#64 := by
    simp only [gt_iff_lt, BitVec.lt_def, BitVec.toNat_ofNat]
    omega
  have sum : (BitVec.ofNat 64 entry.partBase + BitVec.ofNat 64 entry.partLength).toNat =
      entry.base.toNat + entry.length.toNat := by
    simp only [BitVec.toNat_add, BitVec.toNat_ofNat]
    omega
  rw [if_pos found]
  unfold maxMemory cappedEnd
  split_ifs with large
  · simp only [gt_iff_lt, BitVec.lt_def, sum, BitVec.toNat_ofNat] at large
    rw [min_eq_right (by omega)]
    rfl
  · simp only [gt_iff_lt, BitVec.lt_def, sum, BitVec.toNat_ofNat] at large
    rw [min_eq_left (by omega), ← sum, BitVec.ofNat_toNat, BitVec.setWidth_eq]

/-- Without a valid count or without a candidate, the parser fails and stores nothing. -/
theorem safeParseMemoryMap_of_none (ram : Memory) (memoryEnd : BitVec 64)
    (nothing : ¬ CountValid ram ∨ largestEntry (entries ram) = none) :
    safeParseMemoryMap ram 0x100000#64 memoryEnd = (-1, memoryEnd) := by
  unfold safeParseMemoryMap
  split_ifs with huge rejected
  · rfl
  · rfl
  · have valid : CountValid ram := by
      simp only [gt_iff_lt, BitVec.lt_def, BitVec.toNat_ofNat, ← BitVec.toNat_inj,
        not_or] at rejected
      exact ⟨by omega, by omega⟩
    have empty := nothing.resolve_left (not_not_intro valid)
    have walked := foldl_considerEntry ram (entryCount ram).toNat
    rw [show largestEntry ((List.range (entryCount ram).toNat).map (entryAt ram)) = none from
      empty] at walked
    have unset : ¬ (0#64 : BitVec 64) > 0#64 := by decide
    simp only [walked, blockOf, if_neg unset]

/-- The parser succeeds exactly on a valid count with some candidate entry. -/
theorem safeParseMemoryMap_accepts_iff (ram : Memory) (memoryEnd : BitVec 64) :
    (safeParseMemoryMap ram 0x100000#64 memoryEnd).1 = 0 ↔
      CountValid ram ∧ ∃ entry, largestEntry (entries ram) = some entry := by
  by_cases valid : CountValid ram
  · cases chosen : largestEntry (entries ram) with
    | none => simp [safeParseMemoryMap_of_none ram memoryEnd (Or.inr chosen)]
    | some entry => simp [safeParseMemoryMap_of_largest ram memoryEnd valid chosen, valid]
  · simp [safeParseMemoryMap_of_none ram memoryEnd (Or.inl valid), valid]

end M12
