/-
This file models the physical page allocator of `kernel/memory.c` and the
`memset` of `lib/string.c` it clears pages with.

The allocator's five static variables and the machine's memory form its state.
The bitmap lives in that memory, at `0x60000`, one bit a page with a set bit for
a free page, so every function here reads and writes the same bytes the source
does. Loop counters are natural numbers: each loop runs while its counter is
below a bound held in a 64-bit variable, so the counter itself never wraps. The
debug messages are left out; they go to the console and nothing here reads them.
-/

import M12.MemoryMap
import M12.Library.Bitmap

namespace M12

open ByteMemory

/-- `PAGE_SIZE`. -/
def pageSize : BitVec 64 := 4096#64

/-- The static variables of `kernel/memory.c` and the memory they describe. -/
structure MemoryState where
  ram : Memory
  memoryMap : BitVec 64
  totalPages : BitVec 64
  usedPages : BitVec 64
  memoryStart : BitVec 64
  memoryEnd : BitVec 64

/-- The static variables as the kernel image initialises them. -/
def bootMemory (ram : Memory) : MemoryState where
  ram := ram
  memoryMap := 0#64
  totalPages := 0#64
  usedPages := 0#64
  memoryStart := 0x100000#64
  memoryEnd := 0x20000000#64

/-- `memset`: the byte written is `(uint8_t)c`. -/
def memset (ram : Memory) (dest : BitVec 64) (c n : BitVec 32) : Memory :=
  fill ram dest (c.setWidth 8) n.toNat

/-- `calculate_bitmap_size`. -/
def calculateBitmapSize (totalPages : BitVec 64) : BitVec 64 := (totalPages + 7#64) / 8#64

/-- `memory_map[byte_index] & bit_mask` for the page `i`. -/
def pageFree (s : MemoryState) (i : Nat) : Bool := Bitmap.test s.ram s.memoryMap i

/-! ### Reserving a range -/

/-- The body of the loop of `mark_memory_range_used`. -/
def markPageUsed (s : MemoryState) (i : Nat) : MemoryState :=
  if pageFree s i then
    { s with ram := Bitmap.clear s.ram s.memoryMap i, usedPages := s.usedPages + 1#64 }
  else s

/-- `mark_memory_range_used`. -/
def markMemoryRangeUsed (s : MemoryState) (start stop : BitVec 64) : MemoryState :=
  let start := if start < s.memoryStart then s.memoryStart else start
  let stop := if stop > s.memoryEnd then s.memoryEnd else stop
  if start ≥ stop then s
  else
    let startPage := ((start - s.memoryStart) / pageSize).toNat
    let endPage := ((stop - s.memoryStart) / pageSize).toNat
    (List.range' startPage (min endPage s.totalPages.toNat - startPage)).foldl markPageUsed s

/-! ### Initialisation -/

/-- The part of `Init_Memory` that sizes the managed range and sets every bit of the bitmap. -/
def setUpBitmap (s : MemoryState) : MemoryState :=
  let parsed := safeParseMemoryMap s.ram s.memoryStart s.memoryEnd
  let memoryEnd := if parsed.1 ≠ 0 then 0x20000000#64 else parsed.2
  let totalPages := (memoryEnd - s.memoryStart) / pageSize
  { s with
    memoryEnd := memoryEnd
    totalPages := totalPages
    memoryMap := 0x60000#64
    ram := fill s.ram 0x60000#64 0xFF#8 (calculateBitmapSize totalPages).toNat }

/-- `Init_Memory`. -/
def initMemory (s : MemoryState) : MemoryState :=
  let s := setUpBitmap s
  let mapSizeBytes := calculateBitmapSize s.totalPages
  let s := markMemoryRangeUsed s 0x10000#64 0x20000#64
  let s := markMemoryRangeUsed s 0x1000#64 0x5000#64
  let s := markMemoryRangeUsed s 0x5000#64 0x6000#64
  let s := markMemoryRangeUsed s 0x60000#64 (0x60000#64 + mapSizeBytes)
  markMemoryRangeUsed s 0xB8000#64 (0xB8000#64 + 0x8000#64)

/-! ### Allocating -/

/-- `memory_start + (i * PAGE_SIZE)`. -/
def pageAddress (s : MemoryState) (i : Nat) : BitVec 64 :=
  s.memoryStart + BitVec.ofNat 64 i * pageSize

/-- What `get_physical_page` does once its loop has found the free page `i`: claim the bit,
then either roll back an address at or past the end, or clear the page and return it. -/
def claimPage (s : MemoryState) (i : Nat) : MemoryState × BitVec 64 :=
  let claimed := { s with
    ram := Bitmap.clear s.ram s.memoryMap i
    usedPages := s.usedPages + 1#64 }
  if pageAddress s i ≥ s.memoryEnd then
    ({ claimed with
        ram := Bitmap.set claimed.ram s.memoryMap i
        usedPages := claimed.usedPages - 1#64 }, 0#64)
  else
    ({ claimed with ram := memset claimed.ram (pageAddress s i) 0#32 4096#32 }, pageAddress s i)

/-- The loop of `get_physical_page` from page `i` with `remaining` pages to go. -/
def searchPage (s : MemoryState) (i : Nat) : Nat → MemoryState × BitVec 64
  | 0 => (s, 0#64)
  | remaining + 1 => if pageFree s i then claimPage s i else searchPage s (i + 1) remaining

/-- `get_physical_page`. -/
def getPhysicalPage (s : MemoryState) : MemoryState × BitVec 64 :=
  if s.memoryMap = 0#64 then (s, 0#64) else searchPage s 0 s.totalPages.toNat

/-! ### Freeing -/

/-- `free_physical_page`. -/
def freePhysicalPage (s : MemoryState) (page : BitVec 64) : MemoryState :=
  if s.memoryMap = 0#64 then s
  else if page < s.memoryStart ∨ page ≥ s.memoryEnd then s
  else if page % pageSize ≠ 0#64 then s
  else
    let pageIndex := (page - s.memoryStart) / pageSize
    if pageIndex ≥ s.totalPages then s
    else if !pageFree s pageIndex.toNat then
      { s with
        ram := memset (Bitmap.set s.ram s.memoryMap pageIndex.toNat) page 0#32 4096#32
        usedPages := s.usedPages - 1#64 }
    else s

/-- `get_free_memory`. -/
def getFreeMemory (s : MemoryState) : BitVec 64 := (s.totalPages - s.usedPages) * pageSize

/-! ### Runs -/

/-- A call into the allocator. -/
inductive MemoryCall where
  | get
  | free (page : BitVec 64)
deriving DecidableEq

/-- The state after one call. -/
def memoryStep (s : MemoryState) : MemoryCall → MemoryState
  | .get => (getPhysicalPage s).1
  | .free page => freePhysicalPage s page

/-- The state after a sequence of calls. -/
def memoryRun (s : MemoryState) (calls : List MemoryCall) : MemoryState := calls.foldl memoryStep s

end M12
