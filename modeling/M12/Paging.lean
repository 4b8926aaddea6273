/-
This file models `kernel/paging.c` and the processor's walk of the tables it
builds.

The paging code's one static variable and the control register `CR3` join the
allocator's state, and the tables live in the same memory as everything else.
Functions that return nothing in the source return here whether they ran to
their last statement, so that a call that gave up for want of a page can be told
from one that did its work.

`walk` is the 4-level translation of the x86-64 architecture, with 1 GB and 2 MB
leaves and with the permission bits of every level joined.
-/

import M12.Allocator
import M12.Library.WordTable

namespace M12

open ByteMemory

/-! ### Entries -/

/-- `PAGE_PRESENT`. -/
def pagePresent : BitVec 64 := 1#64
/-- `PAGE_WRITABLE`. -/
def pageWritable : BitVec 64 := 2#64
/-- `PAGE_USER`. -/
def pageUser : BitVec 64 := 4#64
/-- `PAGE_HUGE`. -/
def pageHuge : BitVec 64 := 0x80#64
/-- `PAGE_GLOBAL`. -/
def pageGlobal : BitVec 64 := 0x100#64
/-- The union of the nine `PAGE_*` flags. -/
def pageFlags : BitVec 64 := 0x1FF#64
/-- `KERNEL_VIRTUAL_BASE`. -/
def kernelVirtualBase : BitVec 64 := 0xFFFFFFFF80000000#64

/-- `entry & flag` as a condition. -/
def hasFlag (entry flag : BitVec 64) : Bool := entry &&& flag != 0#64

/-- `entry & ~0xFFF`. -/
def tableOf (entry : BitVec 64) : BitVec 64 := entry &&& ~~~ 0xFFF#64

/-- `PML4_INDEX`. -/
def pml4Index (v : BitVec 64) : Nat := (v >>> 39 &&& 0x1FF#64).toNat
/-- `PDPT_INDEX`. -/
def pdptIndex (v : BitVec 64) : Nat := (v >>> 30 &&& 0x1FF#64).toNat
/-- `PD_INDEX`. -/
def pdIndex (v : BitVec 64) : Nat := (v >>> 21 &&& 0x1FF#64).toNat
/-- `PT_INDEX`. -/
def ptIndex (v : BitVec 64) : Nat := (v >>> 12 &&& 0x1FF#64).toNat

/-! ### The processor's walk -/

/-- What the processor finds for a virtual address. -/
structure Translation where
  physical : BitVec 64
  writable : Bool
  user : Bool
deriving DecidableEq

/-- The physical address a leaf with `bits` offset bits gives. -/
def leafAddress (entry v : BitVec 64) (bits : Nat) : BitVec 64 :=
  (entry &&& 0x000FFFFFFFFFFFFF#64) >>> bits <<< bits ||| (v &&& (1#64 <<< bits) - 1#64)

/-- The table a non-leaf entry points to: bits 12 to 51. -/
def nextTable (entry : BitVec 64) : BitVec 64 := entry &&& 0x000FFFFFFFFFF000#64

/-- The translation a leaf gives, with the permissions of every level on the way. -/
def leafTranslation (v leaf : BitVec 64) (bits : Nat) (path : List (BitVec 64)) : Translation where
  physical := leafAddress leaf v bits
  writable := path.all fun entry => hasFlag entry pageWritable
  user := path.all fun entry => hasFlag entry pageUser

/-- The 4-level walk from the table at `root`. Bits 52 to 63 of the entries are not looked at: a
processor refuses the ones it reserves there, among them bit 63 while EFER.NXE is clear. -/
def walk (ram : Memory) (root v : BitVec 64) : Option Translation :=
  let e4 := WordTable.read ram root (pml4Index v)
  if !hasFlag e4 pagePresent then none
  else
    let e3 := WordTable.read ram (nextTable e4) (pdptIndex v)
    if !hasFlag e3 pagePresent then none
    else if hasFlag e3 pageHuge then some (leafTranslation v e3 30 [e4, e3])
    else
      let e2 := WordTable.read ram (nextTable e3) (pdIndex v)
      if !hasFlag e2 pagePresent then none
      else if hasFlag e2 pageHuge then some (leafTranslation v e2 21 [e4, e3, e2])
      else
        let e1 := WordTable.read ram (nextTable e2) (ptIndex v)
        if !hasFlag e1 pagePresent then none
        else some (leafTranslation v e1 12 [e4, e3, e2, e1])

/-- The physical address of a virtual one, if it is mapped. -/
def translate (ram : Memory) (root v : BitVec 64) : Option (BitVec 64) :=
  (walk ram root v).map Translation.physical

/-! ### The paging code -/

/-- The allocator's state, `kernel_pml4` and `CR3`. -/
structure PagingState extends MemoryState where
  kernelPml4 : BitVec 64
  cr3 : BitVec 64

/-- `get_physical_page` in the larger state. -/
def getPage (s : PagingState) : PagingState × BitVec 64 :=
  ({ s with toMemoryState := (getPhysicalPage s.toMemoryState).1 },
    (getPhysicalPage s.toMemoryState).2)

/-- `free_physical_page` in the larger state. -/
def freePage (s : PagingState) (page : BitVec 64) : PagingState :=
  { s with toMemoryState := freePhysicalPage s.toMemoryState page }

/-- `table[index] = value`. -/
def writeEntry (s : PagingState) (table : BitVec 64) (index : Nat) (value : BitVec 64) :
    PagingState :=
  { s with ram := WordTable.write s.ram table index value }

/-- The pattern the paging code repeats for each level: if `table[index]` is not present,
allocate a page, clear it and link it there with `flags`. The second component is `false`
when there was no page. -/
def ensureTable (s : PagingState) (table : BitVec 64) (index : Nat) (flags : BitVec 64) :
    PagingState × Bool :=
  if hasFlag (WordTable.read s.ram table index) pagePresent then (s, true)
  else
    let (s, page) := getPage s
    if page = 0#64 then (s, false)
    else
      let s := { s with ram := WordTable.clear s.ram page }
      (writeEntry s table index (page ||| flags), true)

/-- `get_current_pml4`. -/
def getCurrentPml4 (s : PagingState) : BitVec 64 := tableOf s.cr3

/-- One turn of the copy in `copy_boot_mappings`. -/
def copyEntry (newPml4 : BitVec 64) (s : PagingState) (i : Nat) : PagingState :=
  if hasFlag (WordTable.read s.ram (getCurrentPml4 s) i) pagePresent then
    writeEntry s newPml4 i (WordTable.read s.ram (getCurrentPml4 s) i)
  else s

/-- `copy_boot_mappings`. -/
def copyBootMappings (s : PagingState) (newPml4 : BitVec 64) : PagingState :=
  (List.range' 1 511).foldl (copyEntry newPml4) (copyEntry newPml4 s 0)

/-- `setup_kernel_mappings`; the loop over `i` below `0x200000` in steps of `0x200000` has the
single turn `i = 0`. -/
def setupKernelMappings (s : PagingState) (pml4 : BitVec 64) : PagingState × Bool :=
  let kernelPml4Index := pml4Index kernelVirtualBase
  match ensureTable s pml4 kernelPml4Index (pagePresent ||| pageWritable) with
  | (s, false) => (s, false)
  | (s, true) =>
    let pdpt := tableOf (WordTable.read s.ram pml4 kernelPml4Index)
    let i := 0#64
    let virtualAddr := kernelVirtualBase + i
    match ensureTable s pdpt (pdptIndex virtualAddr) (pagePresent ||| pageWritable) with
    | (s, false) => (s, false)
    | (s, true) =>
      let pd := tableOf (WordTable.read s.ram pdpt (pdptIndex virtualAddr))
      (writeEntry s pd (pdIndex virtualAddr)
        (i ||| pagePresent ||| pageWritable ||| pageHuge ||| pageGlobal), true)

/-- The new PML4 of `Init_Paging`: `kernel_pml4` is the page, cleared. -/
def newPml4 (s : PagingState) (page : BitVec 64) : PagingState :=
  { s with kernelPml4 := page, ram := WordTable.clear s.ram page }

/-- The end of `Init_Paging`: switch to `kernel_pml4` if it is not the current PML4. -/
def switchPml4 (s : PagingState) (currentPml4 : BitVec 64) : PagingState :=
  if s.kernelPml4 ≠ currentPml4 then { s with cr3 := s.kernelPml4 } else s

/-- `Init_Paging`. The source reports success in every case that reaches its end; the flag
returned here is whether every allocation succeeded. -/
def initPaging (s : PagingState) : PagingState × Bool :=
  let currentPml4 := getCurrentPml4 s
  if currentPml4 ≥ 0x100000#64 ∧ currentPml4 < 0x200000#64 then
    let result := setupKernelMappings { s with kernelPml4 := currentPml4 } currentPml4
    (switchPml4 result.1 currentPml4, result.2)
  else
    match getPage s with
    | (s, page) =>
      if page = 0#64 then ({ s with kernelPml4 := page }, false)
      else
        let result := setupKernelMappings (copyBootMappings (newPml4 s page) page) page
        (switchPml4 result.1 currentPml4, result.2)

/-- `map_page`; the flag says whether the leaf entry was written. -/
def mapPage (s : PagingState) (virtualAddr physicalAddr flags : BitVec 64) : PagingState × Bool :=
  if s.kernelPml4 = 0#64 then (s, false)
  else
    let linkFlags := pagePresent ||| pageWritable ||| pageUser
    match ensureTable s s.kernelPml4 (pml4Index virtualAddr) linkFlags with
    | (s, false) => (s, false)
    | (s, true) =>
      let pdpt := tableOf (WordTable.read s.ram s.kernelPml4 (pml4Index virtualAddr))
      match ensureTable s pdpt (pdptIndex virtualAddr) linkFlags with
      | (s, false) => (s, false)
      | (s, true) =>
        let pd := tableOf (WordTable.read s.ram pdpt (pdptIndex virtualAddr))
        (writeEntry s pd (pdIndex virtualAddr) (physicalAddr ||| flags ||| pageHuge), true)

/-- `get_physical_address`. -/
def getPhysicalAddress (virtualAddr : BitVec 64) : BitVec 64 :=
  if virtualAddr ≥ kernelVirtualBase then virtualAddr - kernelVirtualBase else virtualAddr

end M12
