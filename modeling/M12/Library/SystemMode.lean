/-
This file is a library for code that sets up an x86-64 processor: control
registers, descriptor tables and segment registers, and the modes they select.

A processor that is set up passes through states in which much of what it holds is
of no use yet, and most instructions are legal in some of these states only. Here an
instruction is a function that fails where the processor raises an exception, and it
is executed only in the mode it was assembled for and where its address is mapped to
itself. So a run that reaches a state is a run in which nothing of this went wrong.

A processor also writes into memory what no instruction tells it to: that a
descriptor has been loaded, that an entry of a page table has been used. These bits
are a parameter. They may be anything behind every instruction, and a run that leads
to a state of some kind leads there whatever they are. That the processor can write
them is not checked.

The walk through the page tables is a parameter too. Paging outside long mode or
with five levels or protection keys, local descriptor tables, gates and accesses that
are torn by the mapping count as exceptions, whether or not the processor raises one.
Debug exceptions and control-flow enforcement are left out: nothing is single-stepped,
and CR4.CET is clear.
-/

import M12.Library.X64

namespace SystemMode

open ByteMemory X64

/-! ### What the processor notes in memory -/

/-- A memory without the bits of a mask. -/
def aside (mask memory : Memory) : Memory := fun x => memory x &&& ~~~mask x

/-- Two memories differ in the bits of a mask only. -/
def SameBesides (mask first second : Memory) : Prop := aside mask second = aside mask first

section Aside

variable {mask first second : Memory}

theorem SameBesides.refl (mask memory : Memory) : SameBesides mask memory memory := rfl

theorem SameBesides.trans {third : Memory} (one : SameBesides mask first second)
    (other : SameBesides mask second third) : SameBesides mask first third :=
  Eq.trans other one

theorem SameBesides.aside (mask memory : Memory) :
    SameBesides mask (SystemMode.aside mask memory) memory := by
  funext x
  rw [SystemMode.aside, SystemMode.aside, SystemMode.aside, BitVec.and_assoc, BitVec.and_self]

/-- What is stored is the same in both. -/
theorem SameBesides.store {width : Nat} (same : SameBesides mask first second)
    (address : BitVec 64) (value : BitVec width) :
    SameBesides mask (store first address value) (store second address value) := by
  funext x
  rw [SystemMode.aside, SystemMode.aside, ByteMemory.store, ByteMemory.store]
  split
  · rfl
  · exact congrFun same x

theorem SameBesides.foldl {α : Type} {write : Memory → α → Memory}
    (keeps : ∀ {first second : Memory} (i : α), SameBesides mask first second →
      SameBesides mask (write first i) (write second i))
    (same : SameBesides mask first second) (places : List α) :
    SameBesides mask (places.foldl write first) (places.foldl write second) := by
  induction places generalizing first second with
  | nil => exact same
  | cons i rest inductionHypothesis => exact inductionHypothesis (keeps i same)

/-- Where the mask is clear nothing has been noted. -/
theorem load_aside {width : Nat} (memory : Memory) {address : BitVec 64}
    (clear : ∀ offset, 8 * offset < width → mask (address + BitVec.ofNat 64 offset) = 0#8) :
    load width (aside mask memory) address = load width memory address := by
  refine load_congr fun offset covered => ?_
  rw [aside, clear offset covered]
  exact BitVec.and_allOnes

theorem SameBesides.load {width : Nat} (same : SameBesides mask first second)
    {address : BitVec 64}
    (clear : ∀ offset, 8 * offset < width → mask (address + BitVec.ofNat 64 offset) = 0#8) :
    load width second address = load width first address := by
  rw [← load_aside second clear, ← load_aside first clear, same]

end Aside

/-! ### Descriptors -/

/-- An entry of a descriptor table. -/
structure Descriptor where
  base : BitVec 32
  limit : BitVec 20
  access : BitVec 8
  granular : Bool
  big : Bool
  long : Bool
deriving DecidableEq

/-- The descriptor in the eight bytes at an address. -/
def decodeDescriptor (memory : Memory) (address : BitVec 64) : Descriptor where
  base := load 8 memory (address + 7#64) ++ load 8 memory (address + 4#64) ++
    load 16 memory (address + 2#64)
  limit := (load 8 memory (address + 6#64)).extractLsb' 0 4 ++ load 16 memory (address + 0#64)
  access := load 8 memory (address + 5#64)
  granular := (load 8 memory (address + 6#64)).getLsbD 7
  big := (load 8 memory (address + 6#64)).getLsbD 6
  long := (load 8 memory (address + 6#64)).getLsbD 5

namespace Descriptor

def present (d : Descriptor) : Bool := d.access.getLsbD 7

def privilege (d : Descriptor) : BitVec 2 := d.access.extractLsb' 5 2

/-- Code or data, not a gate or a task state. -/
def plain (d : Descriptor) : Bool := d.access.getLsbD 4

def code (d : Descriptor) : Bool := d.access.getLsbD 3

def conforming (d : Descriptor) : Bool := d.access.getLsbD 2

/-- Code that can be read, or data that can be written. -/
def permits (d : Descriptor) : Bool := d.access.getLsbD 1

/-- As the processor holds it once it has been loaded, with the bit that tells so. -/
def accessed (d : Descriptor) : Descriptor := { d with access := d.access ||| 1#8 }

/-- The number of bytes of the segment. -/
def size (d : Descriptor) : Nat :=
  if d.granular then 4096 * (d.limit.toNat + 1) else d.limit.toNat + 1

/-- Code in this ring may jump to the segment with a selector that asks for a ring. -/
def admitsJump (d : Descriptor) (longMode : Bool) (privilege requested : BitVec 2) : Bool :=
  d.plain && d.code && d.present && !(longMode && d.long && d.big) &&
    if d.conforming then decide (d.privilege ≤ privilege)
    else decide (requested ≤ privilege) && decide (d.privilege = privilege)

/-- The segment may be loaded as the stack of this ring. -/
def admitsStack (d : Descriptor) (privilege requested : BitVec 2) : Bool :=
  d.plain && !d.code && d.permits && d.present && decide (d.privilege = privilege) &&
    decide (requested = privilege)

/-- The segment may be loaded for the data of this ring. -/
def admitsData (d : Descriptor) (privilege requested : BitVec 2) : Bool :=
  d.plain && d.present && (!d.code || d.permits) &&
    ((d.code && d.conforming) ||
      decide (privilege ≤ d.privilege) && decide (requested ≤ d.privilege))

/-- An interrupt in long mode may enter the segment from this ring. -/
def admitsGate (d : Descriptor) (privilege : BitVec 2) : Bool :=
  d.plain && d.code && d.present && d.long && !d.big && decide (d.privilege ≤ privilege)

/-- An `iretq` in this ring may go back to the segment with a selector that asks for a ring. -/
def admitsReturn (d : Descriptor) (longMode : Bool) (privilege requested : BitVec 2) : Bool :=
  d.plain && d.code && d.present && !(longMode && d.long && d.big) &&
    decide (privilege ≤ requested) &&
    if d.conforming then decide (d.privilege ≤ requested) else decide (d.privilege = requested)

/-- No field but the one bit tells whether a descriptor has been loaded. -/
theorem accessed_fields (d : Descriptor) :
    d.accessed.present = d.present ∧ d.accessed.privilege = d.privilege ∧
      d.accessed.plain = d.plain ∧ d.accessed.code = d.code ∧
      d.accessed.conforming = d.conforming ∧ d.accessed.permits = d.permits := by
  have bit (i : Nat) (other : 0 < i) : (d.access ||| 1#8).getLsbD i = d.access.getLsbD i := by
    rw [BitVec.getLsbD_or, BitVec.getLsbD_one, decide_eq_false (by omega : ¬i = 0), Bool.and_false,
      Bool.or_false]
  refine ⟨bit 7 (by decide), ?_, bit 4 (by decide), bit 3 (by decide), bit 2 (by decide),
    bit 1 (by decide)⟩
  refine BitVec.eq_of_getLsbD_eq fun i inside => ?_
  rw [privilege, privilege, BitVec.getLsbD_extractLsb', BitVec.getLsbD_extractLsb']
  exact congrArg _ (bit (5 + i) (by omega))

theorem admitsStack_accessed (d : Descriptor) :
    d.accessed.admitsStack = d.admitsStack := by
  obtain ⟨present, privilege, plain, code, -, permits⟩ := d.accessed_fields
  funext ring requested
  rw [admitsStack, present, privilege, plain, code, permits]
  rfl

theorem admitsData_accessed (d : Descriptor) :
    d.accessed.admitsData = d.admitsData := by
  obtain ⟨present, privilege, plain, code, conforming, permits⟩ := d.accessed_fields
  funext ring requested
  rw [admitsData, present, privilege, plain, code, conforming, permits]
  rfl

theorem admitsGate_accessed (d : Descriptor) :
    d.accessed.admitsGate = d.admitsGate := by
  obtain ⟨present, privilege, plain, code, -, -⟩ := d.accessed_fields
  funext ring
  rw [admitsGate, present, privilege, plain, code]
  rfl

theorem admitsReturn_accessed (d : Descriptor) :
    d.accessed.admitsReturn = d.admitsReturn := by
  obtain ⟨present, privilege, plain, code, conforming, -⟩ := d.accessed_fields
  funext longMode ring requested
  rw [admitsReturn, present, privilege, plain, code, conforming]
  rfl

end Descriptor

/-- A descriptor that may have been loaded meanwhile: all but the one bit lies where the mask is
clear. -/
theorem accessed_decodeDescriptor {mask first second : Memory}
    (same : SameBesides mask first second) {address : BitVec 64}
    (clear : ∀ offset < 8, offset ≠ 5 → mask (address + BitVec.ofNat 64 offset) = 0#8)
    (noted : mask (address + 5#64) = 1#8) :
    (decodeDescriptor second address).accessed = (decodeDescriptor first address).accessed := by
  have byte (offset : Nat) (inside : offset < 8) (other : offset ≠ 5) :
      load 8 second (address + BitVec.ofNat 64 offset) =
        load 8 first (address + BitVec.ofNat 64 offset) := by
    refine same.load fun next covered => ?_
    obtain rfl : next = 0 := by omega
    rw [BitVec.add_zero]
    exact clear offset inside other
  have word (offset : Nat) (inside : offset < 4) :
      load 16 second (address + BitVec.ofNat 64 offset) =
        load 16 first (address + BitVec.ofNat 64 offset) := by
    refine same.load fun next covered => ?_
    rw [BitVec.add_assoc, ← BitVec.ofNat_add]
    exact clear _ (by omega) (by omega)
  have access : load 8 second (address + 5#64) ||| 1#8 = load 8 first (address + 5#64) ||| 1#8 := by
    refine BitVec.eq_of_getLsbD_eq fun bit inside => ?_
    have held := congrArg (fun value => value.getLsbD bit) (congrFun same (address + 5#64))
    simp only [aside, noted, BitVec.getLsbD_and, BitVec.getLsbD_not, BitVec.getLsbD_one, inside,
      decide_true, Bool.true_and] at held
    rw [BitVec.getLsbD_or, BitVec.getLsbD_or, getLsbD_load _ _ inside, getLsbD_load _ _ inside,
      Nat.div_eq_of_lt inside, Nat.mod_eq_of_lt inside, BitVec.add_zero, BitVec.getLsbD_one]
    by_cases lowest : bit = 0
    · simp [lowest]
    · simpa [lowest] using held
  rw [Descriptor.accessed, Descriptor.accessed, decodeDescriptor, decodeDescriptor, access,
    byte 7 (by decide) (by decide), byte 6 (by decide) (by decide), byte 4 (by decide) (by decide),
    word 2 (by decide), word 0 (by decide)]

/-- A segment register: the selector, and what was read from the table for it. -/
structure Segment where
  selector : BitVec 16
  descriptor : Descriptor
  usable : Bool
deriving DecidableEq

/-- The register is loaded in real mode. -/
def Segment.loadReal (segment : Segment) (selector : BitVec 16) : Segment :=
  { segment with
    selector := selector
    descriptor := { segment.descriptor with base := selector.setWidth 32 <<< 4 } }

/-- The segment registers other than `cs`. -/
inductive DataSegment where
  | ds
  | es
  | ss
  | fs
  | gs
deriving DecidableEq

/-! ### The processor -/

/-- Where the next instruction is: in the code under consideration, or elsewhere. -/
inductive Place where
  | inside (index : Nat)
  | away (address : BitVec 64)
deriving DecidableEq

/-- What has been set up: all of the processor but its general registers. -/
structure Setup where
  cr0 : BitVec 64
  cr3 : BitVec 64
  cr4 : BitVec 64
  efer : BitVec 64
  gdtLimit : BitVec 16
  gdtBase : BitVec 64
  privilege : BitVec 2
  cs : Segment
  data : DataSegment → Segment
  /-- The task register holds a task state of 16 bits. -/
  smallTask : Bool
  interrupts : Bool
  backward : Bool
  memory : Memory

structure System extends Setup where
  regs : Reg → BitVec 64
  place : Place

/-- What the page tables say of an address. -/
structure Mapping where
  physical : BitVec 64
  writable : Bool
  user : Bool
deriving DecidableEq

/-- The walk through the page tables at a root. -/
abbrev Walk := Memory → BitVec 64 → BitVec 64 → Option Mapping

/-- The size of operands and addresses code is assembled for. -/
inductive CodeSize where
  | bits16
  | bits32
  | bits64
deriving DecidableEq

namespace Setup

/-- Memory changes. -/
def withMemory (s : Setup) (memory : Memory) : Setup := { s with memory := memory }

/-- CR0.PE -/
def protection (s : Setup) : Bool := s.cr0.getLsbD 0
/-- CR0.PG -/
def paging (s : Setup) : Bool := s.cr0.getLsbD 31
/-- EFER.LMA -/
def longMode (s : Setup) : Bool := s.efer.getLsbD 10

def codeSize (s : Setup) : CodeSize :=
  if !s.protection then .bits16
  else if s.longMode && s.cs.descriptor.long then .bits64
  else if s.cs.descriptor.big then .bits32
  else .bits16

/-- Four levels, without protection keys: CR4.LA57 and CR4.PKS are clear. -/
def plainPaging (s : Setup) : Bool := !s.cr4.getLsbD 12 && !s.cr4.getLsbD 24

/-- The access to a page is allowed: one of ring 3 unless CR4.SMEP, CR4.SMAP or CR4.PKE guards
those, and in the other rings one of their own. Only a writable page is written. -/
def allows (s : Setup) (write : Bool) (found : Mapping) : Bool :=
  (found.writable || !write) &&
    if found.user then !s.cr4.getLsbD 20 && !s.cr4.getLsbD 21 && !s.cr4.getLsbD 22
    else decide (s.privilege ≠ 3#2)

/-- The physical address of a linear one. -/
def physical (walk : Walk) (s : Setup) (write : Bool) (linear : BitVec 64) :
    Option (BitVec 64) :=
  if !s.paging then some linear
  else if !(s.longMode && s.plainPaging) then none
  else
    match walk s.memory s.cr3 linear with
    | none => none
    | some found => if s.allows write found then some found.physical else none

/-- The physical address of consecutive bytes. -/
def physicalBytes (walk : Walk) (s : Setup) (write : Bool) (linear : BitVec 64) (bytes : Nat) :
    Option (BitVec 64) :=
  match s.physical walk write linear with
  | none => none
  | some place =>
    if ∀ i < bytes, s.physical walk write (linear + BitVec.ofNat 64 i) =
        some (place + BitVec.ofNat 64 i) then some place
    else none

/-- The linear address of an offset in a segment. -/
def linear (s : Setup) (segment : Segment) (offset : BitVec 64) (bytes : Nat) :
    Option (BitVec 64) :=
  if s.codeSize = .bits64 then some offset
  else if segment.usable = true ∧ offset.toNat + bytes ≤ segment.descriptor.size then
    some (segment.descriptor.base.setWidth 64 + offset)
  else none

/-- The physical address of an operand. -/
def operand (walk : Walk) (s : Setup) (write : Bool) (segment : DataSegment) (offset : BitVec 64)
    (bytes : Nat) : Option (BitVec 64) :=
  (s.linear (s.data segment) offset bytes).bind fun address =>
    s.physicalBytes walk write address bytes

/-- The descriptor a selector names in the global table. -/
def descriptor (walk : Walk) (s : Setup) (selector : BitVec 16) : Option Descriptor :=
  if selector.getLsbD 2 = true ∨ s.gdtLimit.toNat < (selector &&& 0xFFF8#16).toNat + 7 then none
  else
    (s.physicalBytes walk false (s.gdtBase + (selector &&& 0xFFF8#16).setWidth 64) 8).map
      (decodeDescriptor s.memory)

/-- No selector at all. -/
def null (selector : BitVec 16) : Bool := selector &&& 0xFFFC#16 == 0#16

/-! ### Segments -/

/-- A far jump to a code segment. -/
def loadCode (walk : Walk) (s : Setup) (selector : BitVec 16) : Option Setup :=
  if !s.protection then
    some { s with cs := s.cs.loadReal selector }
  else if null selector then none
  else
    match s.descriptor walk selector with
    | none => none
    | some found =>
      if found.admitsJump s.longMode s.privilege (selector.extractLsb' 0 2) then
        some { s with cs := ⟨selector.extractLsb' 2 14 ++ s.privilege, found.accessed, true⟩ }
      else none

/-- `mov` to a segment register. -/
def loadData (walk : Walk) (s : Setup) (target : DataSegment) (selector : BitVec 16) :
    Option Setup :=
  if !s.protection then
    some { s with data := Function.update s.data target ((s.data target).loadReal selector) }
  else if null selector then
    if target = .ss then none
    else
      some { s with
        data := Function.update s.data target ⟨selector, (s.data target).descriptor, false⟩ }
  else
    match s.descriptor walk selector with
    | none => none
    | some found =>
      if (if target = .ss then found.admitsStack s.privilege (selector.extractLsb' 0 2)
          else found.admitsData s.privilege (selector.extractLsb' 0 2)) then
        some { s with data := Function.update s.data target ⟨selector, found.accessed, true⟩ }
      else none

/-- The descriptor of a selector that is not null. -/
def named (walk : Walk) (s : Setup) (selector : BitVec 16) : Option Descriptor :=
  if null selector then none else s.descriptor walk selector

/-- The code segment an interrupt enters, with the selector of its gate. -/
def loadGate (walk : Walk) (s : Setup) (selector : BitVec 16) : Option Setup :=
  ((s.named walk selector).filter fun found => found.admitsGate s.privilege).map fun found =>
    let ring := if found.conforming then s.privilege else found.privilege
    { s with cs := ⟨selector.extractLsb' 2 14 ++ ring, found.accessed, true⟩, privilege := ring }

/-- The code segment an `iretq` goes back to. -/
def loadReturn (walk : Walk) (s : Setup) (selector : BitVec 16) : Option Setup :=
  ((s.named walk selector).filter fun found =>
    found.admitsReturn s.longMode s.privilege (selector.extractLsb' 0 2)).map fun found =>
      { s with cs := ⟨selector, found.accessed, true⟩, privilege := selector.extractLsb' 0 2 }

/-- `mov cr0, value`. Paging turns long mode on if it is enabled, and off. -/
def setCr0 (s : Setup) (value : BitVec 64) : Option Setup :=
  if value.extractLsb' 32 32 ≠ 0#32 then none
  else if value.getLsbD 31 = true ∧ value.getLsbD 0 = false then none
  else if value.getLsbD 29 = true ∧ value.getLsbD 30 = false then none
  else if value.getLsbD 31 = true ∧ s.paging = false ∧ s.efer.getLsbD 8 = true then
    if s.cr4.getLsbD 5 = false ∨ s.cs.descriptor.long = true ∨ s.smallTask = true then none
    else some { s with cr0 := value, efer := s.efer ||| 1#64 <<< 10 }
  else if value.getLsbD 31 = false ∧ s.paging = true then
    if s.codeSize = .bits64 then none
    else some { s with cr0 := value, efer := s.efer &&& ~~~ (1#64 <<< 10) }
  else some { s with cr0 := value }

/-- `mov cr4, value`. -/
def setCr4 (s : Setup) (value : BitVec 64) : Option Setup :=
  if s.longMode = true ∧ value.getLsbD 5 = false then none else some { s with cr4 := value }

/-- `wrmsr` to `EFER`, whose bit LMA cannot be written. -/
def setEfer (s : Setup) (value : BitVec 64) : Option Setup :=
  if s.paging = true ∧ value.getLsbD 8 ≠ s.efer.getLsbD 8 then none
  else some { s with efer := value &&& ~~~ (1#64 <<< 10) ||| s.efer &&& 1#64 <<< 10 }

end Setup

/-! ### Instructions -/

/-- The control registers code moves from and to. -/
inductive Control where
  | cr0
  | cr3
  | cr4
deriving DecidableEq

inductive Operation where
  /-- `cli` -/
  | cli
  /-- `lgdt [offset]` -/
  | lgdt (offset : BitVec 64)
  /-- `mov target, cr0` and the like -/
  | movFromControl (target : Reg) (source : Control)
  /-- `mov cr0, source` and the like -/
  | movToControl (target : Control) (source : Reg)
  /-- `mov target, value`, of 16 bits -/
  | movImm16 (target : Reg) (value : BitVec 16)
  /-- `mov target, value`, of 32 bits -/
  | movImm (target : Reg) (value : BitVec 32)
  /-- `mov target, source`, of 32 bits -/
  | mov (target source : Reg)
  /-- `or target, value` -/
  | orImm (target : Reg) (value : BitVec 32)
  /-- `add target, value` -/
  | addImm (target : Reg) (value : BitVec 32)
  /-- `xor target, target` -/
  | clear (target : Reg)
  /-- `mov ds, source` and the like -/
  | movToSegment (target : DataSegment) (source : Reg)
  /-- `rdmsr` -/
  | rdmsr
  /-- `wrmsr` -/
  | wrmsr
  /-- `mov dword [address + displacement], value` -/
  | storeImm (address : Reg) (displacement value : BitVec 32)
  /-- `mov dword [address + displacement], source` -/
  | storeReg (address : Reg) (displacement : BitVec 32) (source : Reg)
  /-- `mov dword [address], value` -/
  | storeAt (address value : BitVec 32)
  /-- `rep stosd` -/
  | repStosd
  /-- `loop target` -/
  | loop (target : Nat)
  /-- `jmp target` -/
  | jump (target : Nat)
  /-- `jmp selector:target` -/
  | jumpFar (selector : BitVec 16) (target : Nat)
  /-- `jmp address`, to other code -/
  | leave (address : BitVec 64)
deriving DecidableEq

/-- The number of `EFER` -/
def eferNumber : BitVec 32 := 0xC0000080#32

namespace Setup

/-- The value of a control register. -/
def control (s : Setup) : Control → BitVec 64
  | .cr0 => s.cr0
  | .cr3 => s.cr3
  | .cr4 => s.cr4

/-- `mov` to a control register. -/
def setControl (s : Setup) (value : BitVec 64) : Control → Option Setup
  | .cr0 => s.setCr0 value
  | .cr3 => some { s with cr3 := value }
  | .cr4 => s.setCr4 value

/-- `lgdt`. With 16-bit operands it loads 24 bits of the base. -/
def loadGdt (walk : Walk) (s : Setup) (offset : BitVec 64) : Option Setup :=
  match s.codeSize with
  | .bits16 => (s.operand walk false .ds offset 6).map fun place =>
    { s with
      gdtLimit := load 16 s.memory place
      gdtBase := (load 24 s.memory (place + 2#64)).setWidth 64 }
  | .bits32 => (s.operand walk false .ds offset 6).map fun place =>
    { s with
      gdtLimit := load 16 s.memory place
      gdtBase := (load 32 s.memory (place + 2#64)).setWidth 64 }
  | .bits64 => (s.operand walk false .ds offset 10).map fun place =>
    { s with
      gdtLimit := load 16 s.memory place
      gdtBase := load 64 s.memory (place + 2#64) }

/-- A double word is stored. -/
def storeDword (walk : Walk) (s : Setup) (segment : DataSegment) (offset : BitVec 32)
    (value : BitVec 32) : Option Setup :=
  (s.operand walk true segment (offset.setWidth 64) 4).map fun place =>
    { s with memory := store s.memory place value }

end Setup

/-- A 32-bit register. -/
def reg32 (regs : Reg → BitVec 64) (source : Reg) : BitVec 32 := (regs source).setWidth 32

/-- A 32-bit register is set, and the upper half is cleared. -/
def setReg32 (regs : Reg → BitVec 64) (target : Reg) (value : BitVec 32) : Reg → BitVec 64 :=
  Function.update regs target (value.setWidth 64)

theorem reg32_setReg32_self (regs : Reg → BitVec 64) (target : Reg) (value : BitVec 32) :
    reg32 (setReg32 regs target value) target = value := by
  rw [reg32, setReg32, Function.update_self, BitVec.setWidth_setWidth_of_le _ (by decide),
    BitVec.setWidth_eq]

theorem reg32_setReg32_other (regs : Reg → BitVec 64) {target source : Reg}
    (other : source ≠ target) (value : BitVec 32) :
    reg32 (setReg32 regs target value) source = reg32 regs source := by
  rw [reg32, setReg32, Function.update_of_ne other, reg32]

namespace System

/-- A register is set. -/
def setReg (s : System) (target : Reg) (value : BitVec 32) : System :=
  { s with regs := setReg32 s.regs target value }

/-- What was set up changes. -/
def withSetup (s : System) (setup : Setup) : System := { s with toSetup := setup }

/-- Memory changes. -/
def withMemory (s : System) (memory : Memory) : System :=
  s.withSetup (s.toSetup.withMemory memory)

/-- `rep stosd` that is still to store some double words. -/
def stosd (walk : Walk) (s : System) : Nat → Option System
  | 0 => some s
  | count + 1 =>
    (s.storeDword walk .es (reg32 s.regs .rdi) (reg32 s.regs .rax)).bind fun stored =>
      (((s.withSetup stored).setReg .rdi
        (reg32 s.regs .rdi + if s.backward then -4#32 else 4#32)).setReg .rcx
          (reg32 s.regs .rcx - 1#32)).stosd walk count

end System

/-- One instruction, when the place behind it has been set. -/
def exec (walk : Walk) (s : System) : Operation → Option System
  | .cli => if s.privilege = 0#2 then some { s with interrupts := false } else none
  | .lgdt offset =>
    if s.privilege = 0#2 then (s.loadGdt walk offset).map s.withSetup else none
  | .movFromControl target source =>
    if s.privilege = 0#2 then some (s.setReg target ((s.control source).setWidth 32)) else none
  | .movToControl target source =>
    if s.privilege = 0#2 then
      (s.setControl ((reg32 s.regs source).setWidth 64) target).map s.withSetup
    else none
  | .movImm16 target value =>
    some { s with
      regs := Function.update s.regs target ((s.regs target).extractLsb' 16 48 ++ value) }
  | .movImm target value => some (s.setReg target value)
  | .mov target source => some (s.setReg target (reg32 s.regs source))
  | .orImm target value => some (s.setReg target (reg32 s.regs target ||| value))
  | .addImm target value => some (s.setReg target (reg32 s.regs target + value))
  | .clear target => some (s.setReg target 0#32)
  | .movToSegment target source =>
    (s.loadData walk target ((s.regs source).setWidth 16)).map s.withSetup
  | .rdmsr =>
    if s.privilege = 0#2 ∧ reg32 s.regs .rcx = eferNumber then
      some ((s.setReg .rax (s.efer.extractLsb' 0 32)).setReg .rdx (s.efer.extractLsb' 32 32))
    else none
  | .wrmsr =>
    if s.privilege = 0#2 ∧ reg32 s.regs .rcx = eferNumber then
      (s.setEfer (reg32 s.regs .rdx ++ reg32 s.regs .rax)).map s.withSetup
    else none
  | .storeImm address displacement value =>
    (s.storeDword walk .ds (reg32 s.regs address + displacement) value).map s.withSetup
  | .storeReg address displacement source =>
    (s.storeDword walk .ds (reg32 s.regs address + displacement) (reg32 s.regs source)).map
      s.withSetup
  | .storeAt address value => (s.storeDword walk .ds address value).map s.withSetup
  | .repStosd => s.stosd walk (reg32 s.regs .rcx).toNat
  | .loop target =>
    let counted := s.setReg .rcx (reg32 s.regs .rcx - 1#32)
    if reg32 s.regs .rcx - 1#32 ≠ 0#32 then some { counted with place := .inside target }
    else some counted
  | .jump target => some { s with place := .inside target }
  | .jumpFar selector target =>
    (s.loadCode walk selector).map fun setup => ⟨setup, s.regs, .inside target⟩
  | .leave address => some { s with place := .away address }

namespace Setup

section Loads

variable {walk : Walk} {s : Setup} (protection : s.protection = true) {selector : BitVec 16}
  (named : null selector = false) {found : Descriptor}
  (there : s.descriptor walk selector = some found)
include protection named there

theorem loadData_of_admits (target : DataSegment)
    (stack : found.admitsStack s.privilege (selector.extractLsb' 0 2) = true)
    (data : found.admitsData s.privilege (selector.extractLsb' 0 2) = true) :
    s.loadData walk target selector =
      some { s with data := Function.update s.data target ⟨selector, found.accessed, true⟩ } := by
  have admitted : (if target = .ss then found.admitsStack s.privilege (selector.extractLsb' 0 2)
      else found.admitsData s.privilege (selector.extractLsb' 0 2)) = true := by
    split_ifs
    · exact stack
    · exact data
  rw [loadData, protection, named, there]
  exact if_pos admitted

end Loads

/-- A gate does not depend on whether its segment has been loaded before. -/
theorem loadGate_eq (walk : Walk) (s : Setup) (selector : BitVec 16) :
    s.loadGate walk selector =
      (((s.named walk selector).map Descriptor.accessed).filter fun found =>
        found.admitsGate s.privilege).map fun found =>
          let ring := if found.conforming then s.privilege else found.privilege
          { s with cs := ⟨selector.extractLsb' 2 14 ++ ring, found, true⟩, privilege := ring } := by
  rw [loadGate]
  cases s.named walk selector with
  | none => rfl
  | some found =>
    obtain ⟨-, privilege, -, -, conforming, -⟩ := found.accessed_fields
    simp only [Option.map_some, Option.filter_some, Descriptor.admitsGate_accessed]
    split_ifs
    · simp only [Option.map_some, privilege, conforming]
    · rfl

theorem loadReturn_eq (walk : Walk) (s : Setup) (selector : BitVec 16) :
    s.loadReturn walk selector =
      (((s.named walk selector).map Descriptor.accessed).filter fun found =>
        found.admitsReturn s.longMode s.privilege (selector.extractLsb' 0 2)).map fun found =>
          { s with cs := ⟨selector, found, true⟩, privilege := selector.extractLsb' 0 2 } := by
  rw [loadReturn]
  cases s.named walk selector with
  | none => rfl
  | some found =>
    simp only [Option.map_some, Option.filter_some, Descriptor.admitsReturn_accessed]
    split_ifs
    · rfl
    · rfl

theorem codeSize_of_protected {s : Setup} (protection : s.protection = true)
    (legacy : s.longMode = false) :
    s.codeSize = if s.cs.descriptor.big then .bits32 else .bits16 := by
  rw [codeSize, protection, legacy]
  rfl

/-- 64-bit code is executed in protected mode, and in long mode. -/
theorem modes_of_long {s : Setup} (mode : s.codeSize = .bits64) :
    s.protection = true ∧ s.longMode = true := by
  rw [codeSize] at mode
  split_ifs at mode with real long
  rw [Bool.and_eq_true] at long
  exact ⟨by simpa using real, long.1⟩

theorem codeSize_of_long {s : Setup} (protection : s.protection = true)
    (longMode : s.longMode = true) (long : s.cs.descriptor.long = true) :
    s.codeSize = .bits64 := by
  rw [codeSize, protection, longMode, long]
  rfl

/-- Without a 64-bit code segment long mode executes 32-bit code. -/
theorem codeSize_of_compatible {s : Setup} (protection : s.protection = true)
    (short : s.cs.descriptor.long = false) (big : s.cs.descriptor.big = true) :
    s.codeSize = .bits32 := by
  rw [codeSize, protection, short, big, Bool.and_false]
  rfl

/-! ### Under an identity mapping -/

section Identity

variable {walk : Walk} {s : Setup} {write : Bool}

theorem physicalBytes_of_identity {linear : BitVec 64} {bytes : Nat} (positive : 0 < bytes)
    (identity : ∀ i < bytes, s.physical walk write (linear + BitVec.ofNat 64 i) =
      some (linear + BitVec.ofNat 64 i)) :
    s.physicalBytes walk write linear bytes = some linear := by
  have start := identity 0 positive
  rw [BitVec.add_zero] at start
  rw [physicalBytes, start]
  exact if_pos identity

theorem descriptor_of_identity {selector : BitVec 16} (global : selector.getLsbD 2 = false)
    (inside : (selector &&& 0xFFF8#16).toNat + 7 ≤ s.gdtLimit.toNat)
    (identity : ∀ i < 8, s.physical walk false
        (s.gdtBase + (selector &&& 0xFFF8#16).setWidth 64 + BitVec.ofNat 64 i) =
      some (s.gdtBase + (selector &&& 0xFFF8#16).setWidth 64 + BitVec.ofNat 64 i)) :
    s.descriptor walk selector =
      some (decodeDescriptor s.memory (s.gdtBase + (selector &&& 0xFFF8#16).setWidth 64)) := by
  rw [descriptor, physicalBytes_of_identity (by decide) identity, if_neg]
  · rfl
  · rintro (localTable | outside)
    · exact absurd (global.symm.trans localTable) Bool.false_ne_true
    · exact Nat.not_lt.mpr inside outside

end Identity

/-! ### Without paging -/

section Unpaged

variable {walk : Walk} {s : Setup}

variable (unpaged : s.paging = false)
include unpaged

theorem physical_of_unpaged (write : Bool) (linear : BitVec 64) :
    s.physical walk write linear = some linear := by
  rw [physical, unpaged]
  rfl

theorem physicalBytes_of_unpaged (write : Bool) (linear : BitVec 64) (bytes : Nat) :
    s.physicalBytes walk write linear bytes = some linear := by
  rw [physicalBytes, physical_of_unpaged unpaged]
  exact if_pos fun i _ => physical_of_unpaged unpaged write _

/-- In a segment that starts at zero an offset is the address. -/
theorem operand_of_unpaged (mode : s.codeSize ≠ .bits64) (write : Bool) {segment : DataSegment}
    (usable : (s.data segment).usable = true)
    (flat : (s.data segment).descriptor.base = 0#32) {offset : BitVec 64} {bytes : Nat}
    (inside : offset.toNat + bytes ≤ (s.data segment).descriptor.size) :
    s.operand walk write segment offset bytes = some offset := by
  rw [operand, linear, if_neg mode, if_pos ⟨usable, inside⟩, flat, Option.bind_some,
    physicalBytes_of_unpaged unpaged, BitVec.setWidth_zero, BitVec.zero_add]

theorem storeDword_of_unpaged (mode : s.codeSize ≠ .bits64) {segment : DataSegment}
    (usable : (s.data segment).usable = true)
    (flat : (s.data segment).descriptor.base = 0#32) {offset : BitVec 32}
    (inside : offset.toNat + 4 ≤ (s.data segment).descriptor.size) (value : BitVec 32) :
    s.storeDword walk segment offset value =
      some { s with memory := store s.memory (offset.setWidth 64) value } := by
  have same : (offset.setWidth 64).toNat = offset.toNat := by
    rw [BitVec.toNat_setWidth]
    omega
  rw [storeDword, operand_of_unpaged unpaged mode true usable flat (same ▸ inside)]
  rfl

/-- `rep stosd` stores one double word behind the other. -/
theorem stosd_of_unpaged (mode : s.codeSize ≠ .bits64) (usable : (s.data .es).usable = true)
    (flat : (s.data .es).descriptor.base = 0#32) (forward : s.backward = false)
    {base : BitVec 32} {first count : Nat} (small : base.toNat + 4 * (first + count) < 2 ^ 32)
    (inside : base.toNat + 4 * (first + count) ≤ (s.data .es).descriptor.size)
    (regs : Reg → BitVec 64) (place : Place)
    (pointer : reg32 regs .rdi = base + BitVec.ofNat 32 (4 * first)) :
    ∃ after, System.stosd walk ⟨s, regs, place⟩ count = some ⟨{ s with
      memory := (List.range' first count).foldl (fun memory i =>
        store memory (base.setWidth 64 + BitVec.ofNat 64 (4 * i)) (reg32 regs .rax)) s.memory },
      after, place⟩ := by
  induction count generalizing s first regs with
  | zero => exact ⟨regs, rfl⟩
  | succ count inductionHypothesis =>
    have number : (reg32 regs .rdi).toNat = base.toNat + 4 * first := by
      rw [pointer, BitVec.toNat_add, BitVec.toNat_ofNat]
      omega
    have wide : (reg32 regs .rdi).setWidth 64 =
        base.setWidth 64 + BitVec.ofNat 64 (4 * first) := by
      refine BitVec.eq_of_toNat_eq ?_
      rw [BitVec.toNat_setWidth, number, BitVec.toNat_add, BitVec.toNat_setWidth,
        BitVec.toNat_ofNat]
      omega
    have stored := @storeDword_of_unpaged walk s unpaged mode .es usable flat (reg32 regs .rdi)
      (by omega) (reg32 regs .rax)
    rw [wide] at stored
    have pointerNext : reg32 (setReg32 (setReg32 regs .rdi (reg32 regs .rdi + 4#32)) .rcx
        (reg32 regs .rcx - 1#32)) .rdi = base + BitVec.ofNat 32 (4 * (first + 1)) := by
      rw [reg32_setReg32_other _ (by decide), reg32_setReg32_self, pointer, Nat.mul_succ,
        BitVec.ofNat_add, ← BitVec.add_assoc]
    have value : reg32 (setReg32 (setReg32 regs .rdi (reg32 regs .rdi + 4#32)) .rcx
        (reg32 regs .rcx - 1#32)) .rax = reg32 regs .rax := by
      rw [reg32_setReg32_other _ (by decide), reg32_setReg32_other _ (by decide)]
    obtain ⟨memory, next⟩ : ∃ memory, memory = store s.memory
      (base.setWidth 64 + BitVec.ofNat 64 (4 * first)) (reg32 regs .rax) := ⟨_, rfl⟩
    rw [← next] at stored
    obtain ⟨after, rest⟩ := @inductionHypothesis { s with memory := memory } unpaged mode usable
      flat forward (first + 1) (by omega)
      (show _ ≤ (s.data .es).descriptor.size by omega) _ pointerNext
    simp only [value, forward] at rest
    refine ⟨after, ?_⟩
    rw [System.stosd, stored, Option.bind_some, forward, if_neg Bool.false_ne_true,
      List.range'_succ, List.foldl_cons, ← next]
    exact rest

end Unpaged

end Setup

/-! ### Runs -/

/-- Code: each instruction with the size it was assembled for. -/
abbrev Code := List (CodeSize × Operation)

/-- The next instruction of code that lies at the addresses of `layout`. It is executed if the
processor is in the mode for it and its address is mapped to itself. -/
def step (walk : Walk) (code : Code) (layout : Nat → BitVec 64) (s : System) : Option System :=
  match s.place with
  | .away _ => none
  | .inside index =>
    match code[index]? with
    | none => none
    | some (size, operation) =>
      if s.codeSize = size ∧ s.physical walk false (layout index) = some (layout index) then
        exec walk { s with place := .inside (index + 1) } operation
      else none

/-- A state is reached by executing instructions, behind each of which the processor has noted
something. -/
def Reaches (walk : Walk) (code : Code) (layout : Nat → BitVec 64) (noted : Memory) :
    System → System → Prop :=
  Relation.ReflTransGen fun s t => ∃ executed memory, step walk code layout s = some executed ∧
    SameBesides noted executed.memory memory ∧ t = executed.withMemory memory

/-- Executing instructions leads to a state of some kind, whatever the processor notes. -/
inductive Leads (walk : Walk) (code : Code) (layout : Nat → BitVec 64) (noted : Memory)
    (goal : System → Prop) : System → Prop
  | here {s : System} (holds : goal s) : Leads walk code layout noted goal s
  | step {s t : System} (executed : step walk code layout s = some t)
      (rest : ∀ memory, SameBesides noted t.memory memory →
        Leads walk code layout noted goal (t.withMemory memory)) :
      Leads walk code layout noted goal s

section Leads

variable {walk : Walk} {code : Code} {layout : Nat → BitVec 64} {noted : Memory}
  {goal : System → Prop}

/-- Then such a state is reached. -/
theorem Leads.reaches {s : System} (leads : Leads walk code layout noted goal s) :
    ∃ t, Reaches walk code layout noted s t ∧ goal t := by
  induction leads with
  | here holds => exact ⟨_, Relation.ReflTransGen.refl, holds⟩
  | step executed _ inductionHypothesis =>
    obtain ⟨t, reached, holds⟩ := inductionHypothesis _ (SameBesides.refl noted _)
    exact ⟨t, Relation.ReflTransGen.head
      ⟨_, _, executed, SameBesides.refl noted _, rfl⟩ reached, holds⟩

/-- What leads to states that lead further leads there. -/
theorem Leads.bind {s : System} {next : System → Prop} (first : Leads walk code layout noted next s)
    (second : ∀ t, next t → Leads walk code layout noted goal t) :
    Leads walk code layout noted goal s := by
  induction first with
  | here holds => exact second _ holds
  | step executed _ inductionHypothesis => exact .step executed inductionHypothesis

/-- An instruction that does not fail, and what the state behind it leads to. -/
theorem Leads.next {setup after : Setup} {regs afterRegs : Reg → BitVec 64} {index : Nat}
    {place : Place} {size : CodeSize} {operation : Operation}
    (here : code[index]? = some (size, operation)) (mode : setup.codeSize = size)
    (mapped : setup.physical walk false (layout index) = some (layout index))
    (result : exec walk ⟨setup, regs, .inside (index + 1)⟩ operation =
      some ⟨after, afterRegs, place⟩)
    (rest : ∀ memory, SameBesides noted after.memory memory →
      Leads walk code layout noted goal ⟨after.withMemory memory, afterRegs, place⟩) :
    Leads walk code layout noted goal ⟨setup, regs, .inside index⟩ := by
  refine .step (t := ⟨after, afterRegs, place⟩) ?_ rest
  rw [SystemMode.step]
  simp only [here]
  rw [if_pos ⟨mode, mapped⟩, result]

end Leads

end SystemMode
