/-
This file relates the pages the allocator hands out to the memory map.

The parser keeps the end of the largest usable block, but the managed range
always starts at 1 MB. The pages handed out are therefore usable memory exactly
when the whole range from 1 MB to the last page below that end is: a hole or a
reserved range in between is handed out like any other page, because the
allocator works upwards from 1 MB and reaches every page of the range. The file
proves that equivalence for every accepted table and every run of calls.
-/

import M12.FreePages

namespace M12

open ByteMemory

/-! ### Usable bytes -/

/-- The physical addresses an entry describes. -/
def MemoryMapEntry.Covers (entry : MemoryMapEntry) (x : Nat) : Prop :=
  entry.base.toNat ≤ x ∧ x < entry.base.toNat + entry.length.toNat

/-- A byte inside some usable range of the table and outside every range of another type. -/
def UsableByte (ram : Memory) (x : Nat) : Prop :=
  (∃ entry ∈ entries ram, entry.type = 1#32 ∧ entry.Covers x) ∧
    ∀ entry ∈ entries ram, entry.type ≠ 1#32 → ¬ entry.Covers x

/-- All 4096 bytes of a page are usable. -/
def UsablePage (ram : Memory) (page : BitVec 64) : Prop :=
  ∀ offset < 4096, UsableByte ram (page.toNat + offset)

/-- Every page a run of calls can be handed is usable memory of the table. -/
def HandsOutUsable (ram : Memory) : Prop :=
  ∀ calls page, page ≠ 0#64 →
    (getPhysicalPage (memoryRun (initMemory (bootMemory ram)) calls)).2 = page →
    UsablePage ram page

/-- The end of the last whole page below an address, counted from 1 MB. -/
def lastPageEnd (stop : Nat) : Nat := 0x100000 + 4096 * ((stop - 0x100000) / 4096)

/-- No hole and no reserved byte lies between 1 MB and the last whole page below the end of the
largest usable block of the table. -/
def UnbrokenFromStart (ram : Memory) : Prop :=
  ∃ entry, largestEntry (entries ram) = some entry ∧
    ∀ x, 0x100000 ≤ x → x < lastPageEnd (cappedEnd entry) → UsableByte ram x

/-! ### Every page of the range is handed out -/

theorem getPhysicalPage_replicate_init (ram : Memory) {count : Nat}
    (enough : count < (detectedEnd ram - 0x100000) / 4096) :
    (getPhysicalPage (memoryRun (initMemory (bootMemory ram))
      (List.replicate count .get))).2.toNat = 0x100000 + 4096 * count := by
  have free := free_initMemory ram
  rw [← Nat.Ico_zero_eq_range] at free
  have place := getPhysicalPage_replicate (managed_initMemory ram) free (by rwa [Nat.zero_add])
  rwa [Nat.zero_add] at place

/-- A page handed out lies in the managed range. -/
theorem getPhysicalPage_range (ram : Memory) (calls : List MemoryCall) {page : BitVec 64}
    (nonNull : page ≠ 0#64)
    (returned : (getPhysicalPage (memoryRun (initMemory (bootMemory ram)) calls)).2 = page) :
    ∃ i < (detectedEnd ram - 0x100000) / 4096, page.toNat = 0x100000 + 4096 * i := by
  have managed := managed_memoryRun (managed_initMemory ram) calls
  rcases getPhysicalPage_cases managed with ⟨i, least, result⟩ | ⟨-, result⟩
  · have inside := IndexPool.lt_total least.1
    refine ⟨i, ?_, ?_⟩
    · rw [← setUpBitmap_totalPages, ← initMemory_eq,
        ← (memoryRun_range (managed_initMemory ram) calls).1]
      exact inside
    · rw [← returned, result, toNat_pageAddress managed inside]
  · rw [result] at returned
    exact absurd returned.symm nonNull

/-! ### When the pages are usable -/

theorem detectedEnd_of_largest {ram : Memory} (valid : CountValid ram) {entry : MemoryMapEntry}
    (chosen : largestEntry (entries ram) = some entry) : detectedEnd ram = cappedEnd entry := by
  rw [detectedEnd, chosen]
  exact if_pos valid

/-- For a table the parser accepts, every page handed out in any run is usable memory exactly
when the table is unbroken from 1 MB to the end of its largest block. -/
theorem handsOutUsable_iff (ram : Memory)
    (accepted : (safeParseMemoryMap ram 0x100000#64 0x20000000#64).1 = 0) :
    HandsOutUsable ram ↔ UnbrokenFromStart ram := by
  obtain ⟨valid, entry, chosen⟩ := (safeParseMemoryMap_accepts_iff ram _).mp accepted
  have ending := detectedEnd_of_largest valid chosen
  constructor
  · intro usable
    refine ⟨entry, chosen, fun x low high => ?_⟩
    have inside : (x - 0x100000) / 4096 < (detectedEnd ram - 0x100000) / 4096 := by
      rw [lastPageEnd] at high
      rw [ending]
      omega
    have place := getPhysicalPage_replicate_init ram inside
    have nonNull : (getPhysicalPage (memoryRun (initMemory (bootMemory ram))
        (List.replicate ((x - 0x100000) / 4096) .get))).2 ≠ 0#64 := by
      intro zero
      rw [zero, BitVec.toNat_ofNat] at place
      omega
    have page := usable _ _ nonNull rfl (x % 4096) (Nat.mod_lt x (by decide))
    rwa [place, show 0x100000 + 4096 * ((x - 0x100000) / 4096) + x % 4096 = x by omega] at page
  · rintro ⟨entry', chosen', unbroken⟩ calls page nonNull returned offset small
    obtain rfl : entry = entry' := Option.some.inj (chosen.symm.trans chosen')
    obtain ⟨i, inside, place⟩ := getPhysicalPage_range ram calls nonNull returned
    rw [ending] at inside
    refine unbroken _ (by omega) ?_
    rw [lastPageEnd, place]
    omega

/-- A memory that holds nothing but a table of one usable entry. -/
def oneEntryTable (base length : BitVec 64) : Memory :=
  store (store (store (store (fun _ => 0#8) 0x5000#64 1#16) 0x5002#64 base) 0x500A#64 length)
    0x5012#64 1#32

/-- A table whose one block starts at 1 MB is unbroken, so its pages are usable. -/
theorem handsOutUsable_low_block :
    (safeParseMemoryMap (oneEntryTable 0x100000#64 0x2000#64) 0x100000#64 0x20000000#64).1 = 0 ∧
      HandsOutUsable (oneEntryTable 0x100000#64 0x2000#64) := by
  have table : entries (oneEntryTable 0x100000#64 0x2000#64) =
      [⟨0x100000#32, 0#32, 0x2000#32, 0#32, 1#32, 0#32⟩] := by decide +kernel
  have accepted : (safeParseMemoryMap (oneEntryTable 0x100000#64 0x2000#64) 0x100000#64
      0x20000000#64).1 = 0 := by decide +kernel
  refine ⟨accepted, (handsOutUsable_iff _ accepted).mpr ?_⟩
  refine ⟨⟨0x100000#32, 0#32, 0x2000#32, 0#32, 1#32, 0#32⟩, ?_, fun x low high => ?_⟩
  · rw [table]
    decide +kernel
  · have bound : lastPageEnd (cappedEnd ⟨0x100000#32, 0#32, 0x2000#32, 0#32, 1#32, 0#32⟩) =
        0x102000 := by decide +kernel
    rw [bound] at high
    refine ⟨⟨⟨0x100000#32, 0#32, 0x2000#32, 0#32, 1#32, 0#32⟩, ?_, rfl, low, high⟩, ?_⟩
    · rw [table]
      exact List.mem_singleton_self _
    · intro entry member other
      rw [table, List.mem_singleton] at member
      rw [member] at other
      exact absurd rfl other

/-- With one usable block at 2 MB the first page handed out is the one at 1 MB, outside it. -/
theorem hands_out_hole :
    (safeParseMemoryMap (oneEntryTable 0x200000#64 0x1000#64) 0x100000#64 0x20000000#64).1 = 0 ∧
      (getPhysicalPage (memoryRun (initMemory (bootMemory
        (oneEntryTable 0x200000#64 0x1000#64))) [])).2 = 0x100000#64 ∧
      ¬ UsablePage (oneEntryTable 0x200000#64 0x1000#64) 0x100000#64 := by
  have table : entries (oneEntryTable 0x200000#64 0x1000#64) =
      [⟨0x200000#32, 0#32, 0x1000#32, 0#32, 1#32, 0#32⟩] := by decide +kernel
  refine ⟨by decide +kernel, BitVec.eq_of_toNat_eq ?_, fun usable => ?_⟩
  · have enough : 0 < (detectedEnd (oneEntryTable 0x200000#64 0x1000#64) - 0x100000) / 4096 := by
      decide +kernel
    have first := getPhysicalPage_replicate_init (oneEntryTable 0x200000#64 0x1000#64) enough
    rw [List.replicate_zero] at first
    exact first.trans (by decide)
  · obtain ⟨⟨entry, member, -, covers⟩, -⟩ := usable 0 (by decide)
    rw [table, List.mem_singleton] at member
    rw [member] at covers
    exact absurd covers.1 (by decide +kernel)

end M12
