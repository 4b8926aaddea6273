/-
This file models the way of the boot code from real mode to 64-bit mode, from
`switch_to_pm` in `boot/pmode.asm` to the jump into the kernel in `boot/boot.asm`,
and proves that it arrives.

On this way the code changes the size of its operands twice and the meaning of all
addresses twice, while it runs. Each instruction is executed under what the ones
before it have set: the far jump behind `mov cr0` still with the old code segment,
the one behind the second `mov cr0` from the page tables the code has just written,
in which its own addresses have to be mapped to themselves.

The processor notes in the tables that it has used them, and the code may not depend
on it. All that is said about memory leaves these bits open, before the first
instruction and behind each.
-/

import M12.Library.PackedRecord
import M12.NotedEntries

namespace M12

open ByteMemory PackedRecord SystemMode X64

/-! ### The descriptor tables -/

/-- Where the assembler has put the instructions and the two tables. -/
structure BootLayout where
  instruction : Nat → BitVec 64
  gdtStart32 : BitVec 64
  gdt64 : BitVec 64

/-- `gdt_start32` with `gdt_descriptor32` behind it. -/
def gdt32Fields (layout : BootLayout) : List Field :=
  [⟨0, 64, 0#64⟩,
    ⟨8, 16, 0xFFFF#16⟩, ⟨10, 16, 0x0000#16⟩, ⟨12, 8, 0x00#8⟩, ⟨13, 8, 0x9A#8⟩, ⟨14, 8, 0xCF#8⟩,
    ⟨15, 8, 0x00#8⟩,
    ⟨16, 16, 0xFFFF#16⟩, ⟨18, 16, 0x0000#16⟩, ⟨20, 8, 0x00#8⟩, ⟨21, 8, 0x92#8⟩, ⟨22, 8, 0xCF#8⟩,
    ⟨23, 8, 0x00#8⟩,
    ⟨24, 16, 23#16⟩, ⟨26, 32, layout.gdtStart32.setWidth 32⟩]

/-- `CODE_SEG32` -/
def codeSeg32 : BitVec 16 := 8#16
/-- `DATA_SEG32` -/
def dataSeg32 : BitVec 16 := 16#16

/-- The flags `PRESENT`, `NOT_SYS`, `EXEC` and `RW` of `boot/gdt64.asm`. -/
def gdtPresent : BitVec 8 := 1#8 <<< 7
/-- `NOT_SYS` -/
def gdtNotSys : BitVec 8 := 1#8 <<< 4
/-- `EXEC` -/
def gdtExec : BitVec 8 := 1#8 <<< 3
/-- `RW` -/
def gdtRw : BitVec 8 := 1#8 <<< 1
/-- `GRAN_4K` -/
def gran4k : BitVec 8 := 1#8 <<< 7
/-- `SZ_32` -/
def sz32 : BitVec 8 := 1#8 <<< 6
/-- `LONG_MODE` -/
def gdtLongMode : BitVec 8 := 1#8 <<< 5

/-- `gdt64` with `.Pointer`. -/
def gdt64Fields (layout : BootLayout) : List Field :=
  [⟨0, 64, 0#64⟩,
    ⟨8, 32, 0xFFFF#32⟩, ⟨12, 8, 0#8⟩, ⟨13, 8, gdtPresent ||| gdtNotSys ||| gdtExec ||| gdtRw⟩,
    ⟨14, 8, gran4k ||| gdtLongMode ||| 0xF#8⟩, ⟨15, 8, 0#8⟩,
    ⟨16, 32, 0xFFFF#32⟩, ⟨20, 8, 0#8⟩, ⟨21, 8, gdtPresent ||| gdtNotSys ||| gdtRw⟩,
    ⟨22, 8, gran4k ||| sz32 ||| 0xF#8⟩, ⟨23, 8, 0#8⟩,
    ⟨24, 32, 0x00000068#32⟩, ⟨28, 32, 0x00CF8900#32⟩,
    ⟨32, 16, 31#16⟩, ⟨34, 64, layout.gdt64⟩]

/-- `gdt64.Code` -/
def gdt64Code : BitVec 16 := 8#16

/-- What the processor notes in a table: the accessed bits of its first two descriptors. -/
def descriptorNotes (table : BitVec 64) : Memory := fun x =>
  if x = table + 13#64 ∨ x = table + 21#64 then 1#8 else 0#8

/-- What it notes on the way of the boot code. -/
def bootNotes (layout : BootLayout) : Memory := fun x =>
  tableNotes x ||| descriptorNotes layout.gdtStart32 x ||| descriptorNotes layout.gdt64 x

/-- The boot sector with the two tables is in memory, whatever has been noted in them. -/
structure BootSector (layout : BootLayout) (memory : Memory) : Prop where
  instruction : ∀ index, 0x7C00 ≤ (layout.instruction index).toNat ∧
    (layout.instruction index).toNat < 0x7E00
  gdtStart32 : 0x7C00 ≤ layout.gdtStart32.toNat ∧ layout.gdtStart32.toNat + 30 ≤ 0x7E00
  gdt64 : 0x7C00 ≤ layout.gdt64.toNat ∧ layout.gdt64.toNat + 42 ≤ 0x7E00
  apart : layout.gdtStart32.toNat + 30 ≤ layout.gdt64.toNat ∨
    layout.gdt64.toNat + 42 ≤ layout.gdtStart32.toNat
  holds32 : Holds (aside (descriptorNotes layout.gdtStart32) memory) layout.gdtStart32
    (gdt32Fields layout)
  holds64 : Holds (aside (descriptorNotes layout.gdt64) memory) layout.gdt64 (gdt64Fields layout)

/-! ### The code -/

/-- The processor walks the page tables of `kernel/paging.c`. -/
def processorWalk : Walk := fun memory root v =>
  (walk memory root v).map fun found => ⟨found.physical, found.writable, found.user⟩

/-- The processor as it enters `switch_to_pm`: in real mode, with the data segment at zero and the
direction flag clear, without CR4.LA57 and CR4.PKS, and without a task state of 16 bits. -/
structure EntersSwitch (s : Setup) : Prop where
  realMode : s.protection = false
  unpaged : s.paging = false
  plain : s.plainPaging = true
  cache : s.cr0.getLsbD 29 = true → s.cr0.getLsbD 30 = true
  legacy : s.longMode = false
  small : s.cs.descriptor.big = false
  privilege : s.privilege = 0#2
  task : s.smallTask = false
  forward : s.backward = false
  usable : (s.data .ds).usable = true
  atZero : (s.data .ds).descriptor.base = 0#32
  wide : 0x10000 ≤ (s.data .ds).descriptor.size

/-- The descriptor of the 64-bit code segment, once it has been loaded. -/
def codeDescriptor64 : Descriptor := ⟨0#32, 0xFFFFF#20, 0x9B#8, true, false, true⟩

/-- The kernel is entered: in 64-bit mode and in ring 0, on the stack of the boot code, with
interrupts off, under `gdt64` and the boot tables. Memory is what the code has written, but for the
bits of the processor. -/
structure EntersKernel (layout : BootLayout) (memory : Memory) (t : System) : Prop where
  place : t.place = .away 0x10000#64
  mode : t.codeSize = .bits64
  privilege : t.privilege = 0#2
  interrupts : t.interrupts = false
  cs : t.cs = ⟨gdt64Code, codeDescriptor64, true⟩
  gdt : t.gdtBase = layout.gdt64 ∧ t.gdtLimit = 31#16
  stack : t.regs .rsp = 0x9000#64
  cr3 : t.cr3 = bootCr3
  memory : SameBesides (bootNotes layout) (store (setUpBootTables memory) 0xB8000#64 0x2F532F4F#32)
    t.memory
  sector : BootSector layout t.memory
  identity : ∀ write, ∀ x : BitVec 64, x.toNat < 0x200000 →
    t.physical processorWalk write x = some x

/-! ### Into protected mode -/

/-- The descriptor of the 32-bit code segment, once it has been loaded. -/
def codeDescriptor32 : Descriptor := ⟨0#32, 0xFFFFF#20, 0x9B#8, true, true, false⟩
/-- The descriptor of the 32-bit data segment, once it has been loaded. -/
def dataDescriptor32 : Descriptor := ⟨0#32, 0xFFFFF#20, 0x93#8, true, true, false⟩

section Notes

variable {table : BitVec 64}

theorem descriptorNotes_at (table : BitVec 64) {offset : Nat} (small : offset < 2 ^ 64) :
    descriptorNotes table (table + BitVec.ofNat 64 offset) =
      if offset = 13 ∨ offset = 21 then 1#8 else 0#8 := by
  have same (place : Nat) (inside : place < 2 ^ 64) :
      table + BitVec.ofNat 64 offset = table + BitVec.ofNat 64 place ↔ offset = place := by
    rw [BitVec.add_right_inj, ← BitVec.toNat_inj, BitVec.toNat_ofNat, BitVec.toNat_ofNat,
      Nat.mod_eq_of_lt small, Nat.mod_eq_of_lt inside]
  exact if_congr (or_congr (same 13 (by decide)) (same 21 (by decide))) rfl rfl

/-- A field of a table behind its descriptors. -/
theorem load_behind {memory : Memory} {fields : List Field}
    (holds : Holds (aside (descriptorNotes table) memory) table fields) {offset width : Nat}
    {value : BitVec width} (member : (⟨offset, width, value⟩ : Field) ∈ fields)
    (behind : 21 < offset) (small : 8 * offset + width < 2 ^ 32) :
    load width memory (table + BitVec.ofNat 64 offset) = value := by
  rw [← load_aside memory fun next covered => ?_]
  · exact holds _ member
  · rw [BitVec.add_assoc, ← BitVec.ofNat_add, descriptorNotes_at table (by omega),
      if_neg (by omega)]

/-- The first two descriptors of a table are the same once they have been loaded. -/
theorem accessed_of_table (memory : Memory) {entry : Nat} (first : entry = 8 ∨ entry = 16) :
    (decodeDescriptor memory (table + BitVec.ofNat 64 entry)).accessed =
      (decodeDescriptor (aside (descriptorNotes table) memory)
        (table + BitVec.ofNat 64 entry)).accessed := by
  refine accessed_decodeDescriptor (SameBesides.aside _ _) (fun offset inside other => ?_) ?_
  · rw [BitVec.add_assoc, ← BitVec.ofNat_add, descriptorNotes_at table (by omega),
      if_neg (by omega)]
  · show descriptorNotes table (table + BitVec.ofNat 64 entry + BitVec.ofNat 64 5) = _
    rw [BitVec.add_assoc, ← BitVec.ofNat_add, descriptorNotes_at table (by omega),
      if_pos (by omega)]

end Notes

section Tables

variable {layout : BootLayout} {memory : Memory}

/-- A descriptor of a table whose pieces lie at their places. -/
theorem decodeDescriptor_of_loads {address : BitVec 64} (limit baseLow : BitVec 16)
    (baseMid access flags baseHigh : BitVec 8)
    (limitThere : load 16 memory (address + BitVec.ofNat 64 0) = limit)
    (lowThere : load 16 memory (address + BitVec.ofNat 64 2) = baseLow)
    (midThere : load 8 memory (address + BitVec.ofNat 64 4) = baseMid)
    (accessThere : load 8 memory (address + BitVec.ofNat 64 5) = access)
    (flagsThere : load 8 memory (address + BitVec.ofNat 64 6) = flags)
    (highThere : load 8 memory (address + BitVec.ofNat 64 7) = baseHigh) :
    decodeDescriptor memory address =
      ⟨baseHigh ++ baseMid ++ baseLow, flags.extractLsb' 0 4 ++ limit, access, flags.getLsbD 7,
        flags.getLsbD 6, flags.getLsbD 5⟩ := by
  rw [decodeDescriptor, limitThere, lowThere, midThere, accessThere, flagsThere, highThere]

/-- A field of a table, seen from one of its descriptors. -/
theorem load_of_holds {base : BitVec 64} {fields : List Field} (holds : Holds memory base fields)
    (entry offset : Nat) {width : Nat} {value : BitVec width}
    (member : (⟨entry + offset, width, value⟩ : Field) ∈ fields) :
    load width memory (base + BitVec.ofNat 64 entry + BitVec.ofNat 64 offset) = value := by
  rw [BitVec.add_assoc, ← BitVec.ofNat_add]
  exact holds _ member

/-- The lower half of a double word of a table, seen from one of its descriptors. -/
theorem load_part_of_holds {base : BitVec 64} {fields : List Field}
    (holds : Holds memory base fields) (entry : Nat) {value : BitVec 32}
    (member : (⟨entry, 32, value⟩ : Field) ∈ fields) (offset : Nat) {width : Nat}
    (inside : 8 * offset + width ≤ 32) :
    load width memory (base + BitVec.ofNat 64 entry + BitVec.ofNat 64 offset) =
      value.extractLsb' (8 * offset) width := by
  rw [load_part memory _ inside]
  exact congrArg (BitVec.extractLsb' (8 * offset) width) (holds _ member)

theorem decode_code64 (holds : Holds memory layout.gdt64 (gdt64Fields layout)) :
    (decodeDescriptor memory (layout.gdt64 + BitVec.ofNat 64 8)).accessed = codeDescriptor64 :=
  (congrArg Descriptor.accessed (decodeDescriptor_of_loads
    0xFFFF#16 0x0000#16 0x00#8 0x9A#8 0xAF#8 0x00#8
    (@load_part_of_holds _ _ _ holds 8 0xFFFF#32 (by simp [gdt64Fields]) 0 16 (by decide))
    (@load_part_of_holds _ _ _ holds 8 0xFFFF#32 (by simp [gdt64Fields]) 2 16 (by decide))
    (load_of_holds holds 8 4 (by simp [gdt64Fields]))
    (load_of_holds holds 8 5 (by simp [gdt64Fields, gdtPresent, gdtNotSys, gdtExec, gdtRw]))
    (load_of_holds holds 8 6 (by simp [gdt64Fields, gran4k, gdtLongMode]))
    (load_of_holds holds 8 7 (by simp [gdt64Fields])))).trans (by decide)

end Tables

section Sector

variable {layout : BootLayout} {first second : Memory} (sector : BootSector layout first)
include sector

/-- At each of its tables the processor notes only what it notes in this table. -/
theorem BootSector.notes_at {x : BitVec 64} :
    (layout.gdtStart32.toNat ≤ x.toNat → x.toNat < layout.gdtStart32.toNat + 30 →
      bootNotes layout x = descriptorNotes layout.gdtStart32 x) ∧
    (layout.gdt64.toNat ≤ x.toNat → x.toNat < layout.gdt64.toNat + 42 →
      bootNotes layout x = descriptorNotes layout.gdt64 x) := by
  obtain ⟨low32, high32⟩ := sector.gdtStart32
  obtain ⟨low64, high64⟩ := sector.gdt64
  have apart := sector.apart
  have outside {table : BitVec 64} (inSector : table.toNat < 0x7E00)
      (other : x.toNat < table.toNat ∨ table.toNat + 30 ≤ x.toNat) :
      descriptorNotes table x = 0#8 := by
    refine if_neg ?_
    rintro (rfl | rfl)
    · rw [BitVec.toNat_add, BitVec.toNat_ofNat] at other
      omega
    · rw [BitVec.toNat_add, BitVec.toNat_ofNat] at other
      omega
  constructor
  · intro above below
    rw [bootNotes, tableNotes, if_neg (by omega), @outside layout.gdt64 (by omega) (by omega),
      BitVec.or_zero, BitVec.zero_or]
  · intro above below
    rw [bootNotes, tableNotes, if_neg (by omega), @outside layout.gdtStart32 (by omega) (by omega),
      BitVec.or_zero, BitVec.zero_or]

/-- The boot sector depends on itself only, and not on what the processor notes. -/
theorem BootSector.congr (same : ∀ x : BitVec 64, 0x7C00 ≤ x.toNat → x.toNat < 0x7E00 →
    aside (bootNotes layout) second x = aside (bootNotes layout) first x) :
    BootSector layout second := by
  obtain ⟨low32, high32⟩ := sector.gdtStart32
  obtain ⟨low64, high64⟩ := sector.gdt64
  refine ⟨sector.instruction, sector.gdtStart32, sector.gdt64, sector.apart,
    @Holds.congr _ _ _ 30 _ sector.holds32 (by simp [gdt32Fields, Field.Inside])
      fun offset inside => ?_,
    @Holds.congr _ _ _ 42 _ sector.holds64 (by simp [gdt64Fields, Field.Inside])
      fun offset inside => ?_⟩
  · have place : (layout.gdtStart32 + BitVec.ofNat 64 offset).toNat =
        layout.gdtStart32.toNat + offset := by
      rw [BitVec.toNat_add, BitVec.toNat_ofNat]
      omega
    have here := same (layout.gdtStart32 + BitVec.ofNat 64 offset) (by omega) (by omega)
    rwa [aside, aside, sector.notes_at.1 (by omega) (by omega)] at here
  · have place : (layout.gdt64 + BitVec.ofNat 64 offset).toNat = layout.gdt64.toNat + offset := by
      rw [BitVec.toNat_add, BitVec.toNat_ofNat]
      omega
    have here := same (layout.gdt64 + BitVec.ofNat 64 offset) (by omega) (by omega)
    rwa [aside, aside, sector.notes_at.2 (by omega) (by omega)] at here

theorem BootSector.noted (same : SameBesides (bootNotes layout) first second) :
    BootSector layout second :=
  sector.congr fun x _ _ => congrFun same x

end Sector

/-- Code is executed in ring 0 of protected mode, without paging and with interrupts off. -/
structure Protected (layout : BootLayout) (memory : Memory) (s : Setup) : Prop where
  protection : s.protection = true
  unpaged : s.paging = false
  plain : s.plainPaging = true
  cache : s.cr0.getLsbD 29 = true → s.cr0.getLsbD 30 = true
  legacy : s.longMode = false
  privilege : s.privilege = 0#2
  task : s.smallTask = false
  interrupts : s.interrupts = false
  forward : s.backward = false
  gdt : s.gdtBase = layout.gdtStart32 ∧ s.gdtLimit = 23#16
  memory : SameBesides (bootNotes layout) memory s.memory

/-- It is 32-bit code. -/
structure Runs32 (layout : BootLayout) (memory : Memory) (s : Setup) : Prop
    extends Protected layout memory s where
  cs : s.cs = ⟨codeSeg32, codeDescriptor32, true⟩

theorem Runs32.mode {layout : BootLayout} {memory : Memory} {s : Setup}
    (runs : Runs32 layout memory s) : s.codeSize = .bits32 := by
  rw [Setup.codeSize_of_protected runs.protection runs.legacy, runs.cs]
  rfl

/-- What the processor notes keeps it so. -/
theorem Runs32.noted {layout : BootLayout} {memory next : Memory} {s : Setup}
    (runs : Runs32 layout memory s) (same : SameBesides (bootNotes layout) s.memory next) :
    Runs32 layout memory (s.withMemory next) :=
  { runs with memory := runs.memory.trans same }

section SwitchToPm

variable {layout : BootLayout} {s : Setup} (enters : EntersSwitch s)
  (sector : BootSector layout s.memory)
include enters

theorem EntersSwitch.withMemory (memory : Memory) : EntersSwitch (s.withMemory memory) :=
  { enters with }

include sector

end SwitchToPm

/-! ### Page tables -/

/-- The data segment from zero to 4 GB. -/
def flatSegment : Segment := ⟨dataSeg32, dataDescriptor32, true⟩

/-- All data segments are flat, and the page tables have been named. -/
structure Flat32 (layout : BootLayout) (memory : Memory) (s : Setup) : Prop
    extends Runs32 layout memory s where
  data : ∀ segment, s.data segment = flatSegment
  cr3 : s.cr3 = bootCr3

theorem Flat32.noted {layout : BootLayout} {memory next : Memory} {s : Setup}
    (flat : Flat32 layout memory s) (same : SameBesides (bootNotes layout) s.memory next) :
    Flat32 layout memory (s.withMemory next) :=
  { flat with memory := flat.memory.trans same }

section BeginPm

variable {layout : BootLayout} {memory : Memory} (sector : BootSector layout memory)
include sector

end BeginPm

section PageTableSetup

variable {layout : BootLayout} {memory : Memory}

/-- What is written counts, and what has been noted does not. -/
theorem Flat32.wrote {s : Setup} (flat : Flat32 layout memory s) {written next : Memory}
    (same : SameBesides (bootNotes layout) written next) :
    Flat32 layout written (s.withMemory next) := { flat with memory := same }

theorem Flat32.stores {s : Setup} (flat : Flat32 layout memory s) (segment : DataSegment)
    {offset : BitVec 32} (inside : offset.toNat + 4 ≤ 2 ^ 32) (value : BitVec 32) :
    s.storeDword processorWalk segment offset value =
        some (s.withMemory (store s.memory (offset.setWidth 64) value)) ∧
      Flat32 layout (store memory (offset.setWidth 64) value)
        (s.withMemory (store s.memory (offset.setWidth 64) value)) := by
  have data := flat.data segment
  have stored := @Setup.storeDword_of_unpaged processorWalk s flat.unpaged
    (flat.mode ▸ CodeSize.noConfusion) segment (by rw [data]; rfl) (by rw [data]; rfl) offset
    (by rw [data]; exact inside) value
  exact ⟨stored, flat.wrote (flat.memory.store _ _)⟩

theorem clearPml4_noted {mask first second : Memory} (same : SameBesides mask first second) :
    SameBesides mask (clearPml4 first) (clearPml4 second) := by
  have stores {first second : Memory} (i : Nat) (same : SameBesides mask first second) :
      SameBesides mask (store first (0x1000#64 + BitVec.ofNat 64 (4 * i)) 0#32)
        (store second (0x1000#64 + BitVec.ofNat 64 (4 * i)) 0#32) := same.store _ _
  exact @SameBesides.foldl mask first second Nat
    (fun ram i => store ram (0x1000#64 + BitVec.ofNat 64 (4 * i)) 0#32) stores same
    (List.range 1024)

/-- `rep stosd` clears the PML4. -/
theorem Flat32.stosd {s : Setup} (flat : Flat32 layout memory s) {regs : Reg → BitVec 64}
    (place : Place) (pointer : reg32 regs .rdi = 0x1000#32) (zero : reg32 regs .rax = 0#32)
    (count : reg32 regs .rcx = 1024#32) :
    Flat32 layout (clearPml4 memory) (s.withMemory (clearPml4 s.memory)) ∧
      ∃ after, System.stosd processorWalk ⟨s, regs, place⟩ (reg32 regs .rcx).toNat =
        some ⟨s.withMemory (clearPml4 s.memory), after, place⟩ := by
  have data := flat.data .es
  have number : (reg32 regs .rcx).toNat = 1024 := congrArg BitVec.toNat count
  obtain ⟨after, stored⟩ := @Setup.stosd_of_unpaged processorWalk s flat.unpaged
    (flat.mode ▸ CodeSize.noConfusion) (by rw [data]; rfl) (by rw [data]; rfl) flat.forward
    0x1000#32 0 1024 (by decide) (by rw [data]; decide) regs place pointer
  rw [zero] at stored
  rw [number]
  refine ⟨flat.wrote (clearPml4_noted flat.memory), after, stored.trans ?_⟩
  rw [clearPml4, List.range_eq_range']
  rfl

end PageTableSetup

/-! ### Into long mode -/

theorem BootSector.notes_low {layout : BootLayout} {memory : Memory}
    (sector : BootSector layout memory) {x : BitVec 64} (low : x.toNat < 0x5000) :
    bootNotes layout x = tableNotes x := by
  obtain ⟨low32, high32⟩ := sector.gdtStart32
  obtain ⟨low64, high64⟩ := sector.gdt64
  have outside {table : BitVec 64} (inSector : 0x7C00 ≤ table.toNat ∧ table.toNat < 0x7E00) :
      descriptorNotes table x = 0#8 := by
    refine if_neg ?_
    rintro (rfl | rfl)
    · rw [BitVec.toNat_add, BitVec.toNat_ofNat] at low
      omega
    · rw [BitVec.toNat_add, BitVec.toNat_ofNat] at low
      omega
  rw [bootNotes, @outside layout.gdtStart32 (by omega), @outside layout.gdt64 (by omega),
    BitVec.or_zero, BitVec.or_zero]

theorem processorWalk_boot {layout : BootLayout} {memory next : Memory}
    (sector : BootSector layout memory) (mapped : BootMapped memory)
    (same : SameBesides (bootNotes layout) memory next) {x : BitVec 64}
    (low : x.toNat < 0x200000) : processorWalk next bootCr3 x = some ⟨x, true, false⟩ := by
  rw [processorWalk, walk_boot mapped same (fun y _ below => sector.notes_low below) low]
  rfl

/-- Paging is on in ring 0, under the boot tables. -/
structure LowIdentity (layout : BootLayout) (memory : Memory) (s : Setup) : Prop where
  paging : s.paging = true
  longMode : s.longMode = true
  plain : s.plainPaging = true
  privilege : s.privilege = 0#2
  cr3 : s.cr3 = bootCr3
  sector : BootSector layout memory
  mapped : BootMapped memory
  memory : SameBesides (bootNotes layout) memory s.memory

section LowIdentity

variable {layout : BootLayout} {memory : Memory} {s : Setup}
  (identity : LowIdentity layout memory s)
include identity

/-- Each of the first 2 MB is mapped to itself, for reading and for writing. -/
theorem LowIdentity.physical (write : Bool) {x : BitVec 64} (low : x.toNat < 0x200000) :
    s.physical processorWalk write x = some x := by
  have found := processorWalk_boot identity.sector identity.mapped identity.memory low
  have allowed : s.allows write ⟨x, true, false⟩ = true := by
    rw [Setup.allows, identity.privilege]
    rfl
  rw [Setup.physical, identity.paging, identity.longMode, identity.plain, identity.cr3, found]
  exact if_pos allowed

/-- So are the bytes of an operand. -/
theorem LowIdentity.bytes (write : Bool) {x : BitVec 64} {size : Nat}
    (low : x.toNat + size ≤ 0x200000) : ∀ i < size,
      s.physical processorWalk write (x + BitVec.ofNat 64 i) = some (x + BitVec.ofNat 64 i) := by
  intro i inside
  refine identity.physical write ?_
  rw [BitVec.toNat_add, BitVec.toNat_ofNat]
  omega

end LowIdentity

/-- 32-bit code is executed in long mode, under the boot tables. -/
structure Compatible (layout : BootLayout) (memory : Memory) (s : Setup) : Prop
    extends LowIdentity layout memory s where
  protection : s.protection = true
  cs : s.cs = ⟨codeSeg32, codeDescriptor32, true⟩
  data : ∀ segment, s.data segment = flatSegment
  interrupts : s.interrupts = false

theorem Compatible.noted {layout : BootLayout} {memory next : Memory} {s : Setup}
    (compatible : Compatible layout memory s)
    (same : SameBesides (bootNotes layout) s.memory next) :
    Compatible layout memory (s.withMemory next) :=
  { compatible with memory := compatible.memory.trans same }

theorem Compatible.mode {layout : BootLayout} {memory : Memory} {s : Setup}
    (compatible : Compatible layout memory s) : s.codeSize = .bits32 :=
  Setup.codeSize_of_compatible compatible.protection
    (congrArg (fun cs => cs.descriptor.long) compatible.cs)
    (congrArg (fun cs => cs.descriptor.big) compatible.cs)

section EnableLongMode

variable {layout : BootLayout} {memory : Memory}

end EnableLongMode

/-- 64-bit code is executed in ring 0 under `gdt64`. -/
structure Runs64 (layout : BootLayout) (memory : Memory) (s : Setup) : Prop
    extends LowIdentity layout memory s where
  protection : s.protection = true
  cs : s.cs = ⟨gdt64Code, codeDescriptor64, true⟩
  interrupts : s.interrupts = false
  gdt : s.gdtBase = layout.gdt64 ∧ s.gdtLimit = 31#16

theorem Runs64.noted {layout : BootLayout} {memory next : Memory} {s : Setup}
    (runs : Runs64 layout memory s) (same : SameBesides (bootNotes layout) s.memory next) :
    Runs64 layout memory (s.withMemory next) :=
  { runs with memory := runs.memory.trans same }

theorem Runs64.mode {layout : BootLayout} {memory : Memory} {s : Setup}
    (runs : Runs64 layout memory s) : s.codeSize = .bits64 :=
  Setup.codeSize_of_long runs.protection runs.longMode
    (congrArg (fun cs => cs.descriptor.long) runs.cs)

section BeginLm

variable {layout : BootLayout} {memory : Memory}

end BeginLm

end M12
