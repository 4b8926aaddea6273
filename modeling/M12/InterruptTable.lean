/-
This file models the interrupt descriptor table of `kernel/idt.c` with its entries
from `kernel/isr.c` and `kernel/irq.c`, and proves that the processor decodes what
was set.

An entry is a packed structure of 16 bytes with the address of the stub in three
pieces. Seen through the processor's decoding, the 4096 bytes of the table are a
function from vectors to gates, and `idt_set_entry` updates it at one vector.
-/

import M12.Library.PackedRecord

namespace M12

open ByteMemory PackedRecord

/-! ### The processor -/

/-- A gate of the table: where it leads, and its attributes. -/
structure Gate where
  offset : BitVec 64
  selector : BitVec 16
  ist : BitVec 8
  typeAttr : BitVec 8
deriving DecidableEq

/-- The gate in the 16 bytes at an address. -/
def decodeGate (memory : Memory) (address : BitVec 64) : Gate where
  offset := load 32 memory (address + 8#64) ++ load 16 memory (address + 6#64) ++
    load 16 memory (address + 0#64)
  selector := load 16 memory (address + 2#64)
  ist := load 8 memory (address + 4#64)
  typeAttr := load 8 memory (address + 5#64)

/-- The present bit. -/
def Gate.present (gate : Gate) : Bool := gate.typeAttr.getLsbD 7

/-- The gate of a vector, in a table at `idt`. -/
def gateAt (memory : Memory) (idt : BitVec 64) (vector : BitVec 8) : Gate :=
  decodeGate memory (element idt 16 vector.toNat)

/-! ### The code -/

/-- What `idt_set_entry` stores in the packed `IDTEntry`, in order. -/
def entryFields (offset : BitVec 64) (selector : BitVec 16) (typeAttr : BitVec 8) : List Field :=
  [⟨0, 16, (offset &&& 0xFFFF#64).setWidth 16⟩,
    ⟨2, 16, selector⟩,
    ⟨4, 8, 0#8⟩,
    ⟨5, 8, typeAttr⟩,
    ⟨6, 16, (offset >>> 16 &&& 0xFFFF#64).setWidth 16⟩,
    ⟨8, 32, (offset >>> 32 &&& 0xFFFFFFFF#64).setWidth 32⟩,
    ⟨12, 32, 0#32⟩]

/-- `idt_set_entry`, for the table at `idt`. -/
def idtSetEntry (idt : BitVec 64) (memory : Memory) (index : BitVec 8) (offset : BitVec 64)
    (selector : BitVec 16) (typeAttr : BitVec 8) : Memory :=
  storeFields memory (element idt 16 index.toNat) (entryFields offset selector typeAttr)

/-- The arguments of a call of `idt_set_entry`. -/
structure EntryCall where
  index : BitVec 8
  offset : BitVec 64
  selector : BitVec 16
  typeAttr : BitVec 8

/-- Calls of `idt_set_entry`, one after the other. -/
def setEntries (idt : BitVec 64) (memory : Memory) (calls : List EntryCall) : Memory :=
  calls.foldl (fun memory call =>
    idtSetEntry idt memory call.index call.offset call.selector call.typeAttr) memory

/-- `IDTPointer`. -/
structure IdtPointer where
  limit : BitVec 16
  base : BitVec 64

/-- Memory with the table, `idt_ptr`, the register `lidt` loads, `irq_handlers`, and the bytes
written to the ports of the interrupt controllers. -/
structure InterruptState where
  memory : Memory
  idtPtr : IdtPointer
  idtr : IdtPointer
  irqHandlers : Nat → BitVec 64
  portWrites : List (BitVec 16 × BitVec 8)

/-- The gate the processor finds for a vector, unless the table ends before it. -/
def InterruptState.fetchGate (s : InterruptState) (vector : BitVec 8) : Option Gate :=
  if 16 * vector.toNat + 15 ≤ s.idtr.limit.toNat then some (gateAt s.memory s.idtr.base vector)
  else none

/-- `Init_IDT`. -/
def initIdt (idt : BitVec 64) (s : InterruptState) : InterruptState :=
  let idtPtr : IdtPointer := ⟨BitVec.ofNat 16 (16 * 256 - 1), idt⟩
  let memory := (List.range 256).foldl
    (fun memory i => idtSetEntry idt memory (BitVec.ofNat 8 i) 0#64 0#16 0#8) s.memory
  { s with memory := memory, idtPtr := idtPtr, idtr := idtPtr }

/-- The calls of `Init_ISR`, where `isr n` is the address of the stub `isrn`. -/
def isrCalls (isr : Nat → BitVec 64) : List EntryCall :=
  [⟨0#8, isr 0, 0x08#16, 0x8E#8⟩, ⟨1#8, isr 1, 0x08#16, 0x8E#8⟩,
    ⟨2#8, isr 2, 0x08#16, 0x8E#8⟩, ⟨3#8, isr 3, 0x08#16, 0x8E#8⟩,
    ⟨4#8, isr 4, 0x08#16, 0x8E#8⟩, ⟨5#8, isr 5, 0x08#16, 0x8E#8⟩,
    ⟨6#8, isr 6, 0x08#16, 0x8E#8⟩, ⟨7#8, isr 7, 0x08#16, 0x8E#8⟩,
    ⟨8#8, isr 8, 0x08#16, 0x8E#8⟩, ⟨9#8, isr 9, 0x08#16, 0x8E#8⟩,
    ⟨10#8, isr 10, 0x08#16, 0x8E#8⟩, ⟨11#8, isr 11, 0x08#16, 0x8E#8⟩,
    ⟨12#8, isr 12, 0x08#16, 0x8E#8⟩, ⟨13#8, isr 13, 0x08#16, 0x8E#8⟩,
    ⟨14#8, isr 14, 0x08#16, 0x8E#8⟩, ⟨15#8, isr 15, 0x08#16, 0x8E#8⟩,
    ⟨16#8, isr 16, 0x08#16, 0x8E#8⟩, ⟨17#8, isr 17, 0x08#16, 0x8E#8⟩,
    ⟨18#8, isr 18, 0x08#16, 0x8E#8⟩, ⟨19#8, isr 19, 0x08#16, 0x8E#8⟩,
    ⟨20#8, isr 20, 0x08#16, 0x8E#8⟩, ⟨21#8, isr 21, 0x08#16, 0x8E#8⟩,
    ⟨22#8, isr 22, 0x08#16, 0x8E#8⟩, ⟨23#8, isr 23, 0x08#16, 0x8E#8⟩,
    ⟨24#8, isr 24, 0x08#16, 0x8E#8⟩, ⟨25#8, isr 25, 0x08#16, 0x8E#8⟩,
    ⟨26#8, isr 26, 0x08#16, 0x8E#8⟩, ⟨27#8, isr 27, 0x08#16, 0x8E#8⟩,
    ⟨28#8, isr 28, 0x08#16, 0x8E#8⟩, ⟨29#8, isr 29, 0x08#16, 0x8E#8⟩,
    ⟨30#8, isr 30, 0x08#16, 0x8E#8⟩, ⟨31#8, isr 31, 0x08#16, 0x8E#8⟩]

/-- `Init_ISR`. -/
def initIsr (idt : BitVec 64) (isr : Nat → BitVec 64) (s : InterruptState) : InterruptState :=
  { s with memory := setEntries idt s.memory (isrCalls isr) }

/-- `outb`, for the ports of the interrupt controllers. -/
def InterruptState.outb (s : InterruptState) (port : BitVec 16) (value : BitVec 8) :
    InterruptState :=
  { s with portWrites := s.portWrites ++ [(port, value)] }

/-- `Init_PIC`. -/
def initPic (s : InterruptState) : InterruptState :=
  let s := ((s.outb 0x20#16 0x11#8).outb 0x21#16 0x20#8).outb 0x21#16 0x04#8
  let s := s.outb 0x21#16 0x01#8
  let s := ((s.outb 0xA0#16 0x11#8).outb 0xA1#16 0x28#8).outb 0xA1#16 0x02#8
  let s := s.outb 0xA1#16 0x01#8
  (s.outb 0x21#16 0xFF#8).outb 0xA1#16 0xFF#8

/-- `IDT_TYPE_INTERRUPT`. -/
def idtTypeInterrupt : BitVec 8 := 0x8E#8

/-- The calls of `Init_IRQ`, where `irq n` is the address of the stub `irqn`. -/
def irqCalls (irq : Nat → BitVec 64) : List EntryCall :=
  [⟨32#8, irq 0, 0x08#16, idtTypeInterrupt⟩, ⟨33#8, irq 1, 0x08#16, idtTypeInterrupt⟩,
    ⟨34#8, irq 2, 0x08#16, idtTypeInterrupt⟩, ⟨35#8, irq 3, 0x08#16, idtTypeInterrupt⟩,
    ⟨36#8, irq 4, 0x08#16, idtTypeInterrupt⟩, ⟨37#8, irq 5, 0x08#16, idtTypeInterrupt⟩,
    ⟨38#8, irq 6, 0x08#16, idtTypeInterrupt⟩, ⟨39#8, irq 7, 0x08#16, idtTypeInterrupt⟩,
    ⟨40#8, irq 8, 0x08#16, idtTypeInterrupt⟩, ⟨41#8, irq 9, 0x08#16, idtTypeInterrupt⟩,
    ⟨42#8, irq 10, 0x08#16, idtTypeInterrupt⟩, ⟨43#8, irq 11, 0x08#16, idtTypeInterrupt⟩,
    ⟨44#8, irq 12, 0x08#16, idtTypeInterrupt⟩, ⟨45#8, irq 13, 0x08#16, idtTypeInterrupt⟩,
    ⟨46#8, irq 14, 0x08#16, idtTypeInterrupt⟩, ⟨47#8, irq 15, 0x08#16, idtTypeInterrupt⟩]

/-- `Init_IRQ`. -/
def initIrq (idt : BitVec 64) (irq : Nat → BitVec 64) (s : InterruptState) : InterruptState :=
  let s := initPic s
  let irqHandlers := (List.range 16).foldl (fun irqHandlers i =>
    Function.update irqHandlers i 0#64) s.irqHandlers
  { s with irqHandlers := irqHandlers, memory := setEntries idt s.memory (irqCalls irq) }

/-- The three calls of `_kmain` that set the table up. -/
def initInterrupts (idt : BitVec 64) (isr irq : Nat → BitVec 64) (s : InterruptState) :
    InterruptState :=
  initIrq idt irq (initIsr idt isr (initIdt idt s))

/-- The stub of a vector: `isr0` to `isr31`, then `irq0` to `irq15`. -/
def stubOf (isr irq : Nat → BitVec 64) (vector : Nat) : BitVec 64 :=
  if vector < 32 then isr vector else irq (vector - 32)

/-- The arguments as the processor decodes them. -/
def EntryCall.gate (call : EntryCall) : Gate := ⟨call.offset, call.selector, 0#8, call.typeAttr⟩

/-- The last call for a vector. -/
def lastCall (vector : BitVec 8) (calls : List EntryCall) : Option EntryCall :=
  calls.reverse.find? fun call => call.index = vector

/-! ### One entry -/

theorem inside_entryFields (offset : BitVec 64) (selector : BitVec 16) (typeAttr : BitVec 8) :
    ∀ field ∈ entryFields offset selector typeAttr, field.Inside 16 := by
  simp [entryFields, Field.Inside]

theorem apart_entryFields (offset : BitVec 64) (selector : BitVec 16) (typeAttr : BitVec 8) :
    (entryFields offset selector typeAttr).Pairwise Field.Apart := by
  simp [entryFields, Field.Apart]

/-- The low bits of a word under a mask are those of the word. -/
theorem setWidth_and_mask {width : Nat} (x : BitVec 64) {mask : BitVec 64}
    (ones : mask.setWidth width = BitVec.allOnes width) :
    (x &&& mask).setWidth width = x.setWidth width := by
  rw [BitVec.setWidth_and, ones, BitVec.and_allOnes]

/-- The three pieces of an address make up the address. -/
theorem offset_of_pieces (offset : BitVec 64) :
    ((offset >>> 32 &&& 0xFFFFFFFF#64).setWidth 32 ++ (offset >>> 16 &&& 0xFFFF#64).setWidth 16 ++
      (offset &&& 0xFFFF#64).setWidth 16 : BitVec (32 + 16 + 16)) = offset := by
  have low : offset.setWidth 16 = offset.extractLsb' 0 16 :=
    BitVec.setWidth_eq_extractLsb' (by decide)
  rw [setWidth_and_mask _ rfl, setWidth_and_mask _ rfl, setWidth_and_mask _ rfl, low,
    BitVec.setWidth_ushiftRight_eq_extractLsb, BitVec.setWidth_ushiftRight_eq_extractLsb,
    BitVec.extractLsb'_append_extractLsb'_eq_extractLsb' (show 32 = 16 + 16 from rfl),
    BitVec.extractLsb'_append_extractLsb'_eq_extractLsb' (show 16 = 0 + 16 from rfl)]
  exact BitVec.extractLsb'_eq_self

/-- An entry that was set decodes to its arguments. -/
theorem gateAt_idtSetEntry_self (idt : BitVec 64) (memory : Memory) (index : BitVec 8)
    (offset : BitVec 64) (selector : BitVec 16) (typeAttr : BitVec 8) :
    gateAt (idtSetEntry idt memory index offset selector typeAttr) idt index =
      ⟨offset, selector, 0#8, typeAttr⟩ := by
  have read {field : Field} (member : field ∈ entryFields offset selector typeAttr) :=
    load_storeFields_of_mem (show 16 ≤ 2 ^ 61 by decide) memory (element idt 16 index.toNat)
      (inside_entryFields offset selector typeAttr) (apart_entryFields offset selector typeAttr)
      member
  have low := @read ⟨0, 16, (offset &&& 0xFFFF#64).setWidth 16⟩ (by simp [entryFields])
  have mid := @read ⟨6, 16, (offset >>> 16 &&& 0xFFFF#64).setWidth 16⟩ (by simp [entryFields])
  have high := @read ⟨8, 32, (offset >>> 32 &&& 0xFFFFFFFF#64).setWidth 32⟩ (by simp [entryFields])
  have code := @read ⟨2, 16, selector⟩ (by simp [entryFields])
  have stack := @read ⟨4, 8, 0#8⟩ (by simp [entryFields])
  have type := @read ⟨5, 8, typeAttr⟩ (by simp [entryFields])
  rw [gateAt, idtSetEntry, decodeGate, Gate.mk.injEq]
  refine ⟨?_, code, stack, type⟩
  rw [low, mid, high, offset_of_pieces]

/-- A gate depends on its 16 bytes only. -/
theorem decodeGate_congr {memory other : Memory} {address : BitVec 64}
    (same : ∀ offset < 16, other (address + BitVec.ofNat 64 offset) =
      memory (address + BitVec.ofNat 64 offset)) :
    decodeGate other address = decodeGate memory address := by
  have word {width : Nat} (start : Nat) (inside : 8 * start + width ≤ 128) :
      load width other (address + BitVec.ofNat 64 start) =
        load width memory (address + BitVec.ofNat 64 start) := by
    refine load_congr fun offset covered => ?_
    rw [BitVec.add_assoc, ← BitVec.ofNat_add]
    exact same _ (by omega)
  rw [decodeGate, decodeGate, Gate.mk.injEq]
  refine ⟨?_, word 2 (by decide), word 4 (by decide), word 5 (by decide)⟩
  rw [word 8 (by decide), word 6 (by decide), word 0 (by decide)]

/-- Only the entry is written. -/
theorem idtSetEntry_of_not_within (idt : BitVec 64) (memory : Memory) (index : BitVec 8)
    (offset : BitVec 64) (selector : BitVec 16) (typeAttr : BitVec 8) {x : BitVec 64}
    (outside : ¬ Within (element idt 16 index.toNat) 16 x) :
    idtSetEntry idt memory index offset selector typeAttr x = memory x :=
  storeFields_of_not_within memory (by decide) (inside_entryFields offset selector typeAttr) outside

/-- `idt_set_entry` updates the table of gates at its index. -/
theorem gateAt_idtSetEntry (idt : BitVec 64) (memory : Memory) (index : BitVec 8)
    (offset : BitVec 64) (selector : BitVec 16) (typeAttr : BitVec 8) :
    gateAt (idtSetEntry idt memory index offset selector typeAttr) idt =
      Function.update (gateAt memory idt) index ⟨offset, selector, 0#8, typeAttr⟩ := by
  funext vector
  by_cases same : vector = index
  · subst same
    rw [Function.update_self, gateAt_idtSetEntry_self]
  · have different : vector.toNat ≠ index.toNat := fun equal => same (BitVec.eq_of_toNat_eq equal)
    have vectorLt := vector.isLt
    have indexLt := index.isLt
    rw [Function.update_of_ne same, gateAt, gateAt]
    refine decodeGate_congr fun offset inside => ?_
    exact idtSetEntry_of_not_within idt memory index _ selector typeAttr
      (not_within_element idt different (by omega) (by omega) inside)

/-! ### Any number of entries -/

/-- The table of gates follows the calls, one update for each. -/
theorem gateAt_setEntries (idt : BitVec 64) (memory : Memory) (calls : List EntryCall) :
    gateAt (setEntries idt memory calls) idt =
      calls.foldl (fun table call => Function.update table call.index call.gate)
        (gateAt memory idt) := by
  induction calls generalizing memory with
  | nil => rfl
  | cons call rest inductionHypothesis =>
    rw [List.foldl_cons, EntryCall.gate, ← gateAt_idtSetEntry]
    exact inductionHypothesis _

/-- Nothing outside the entries that are set is written. -/
theorem setEntries_of_not_within (idt : BitVec 64) (memory : Memory) {calls : List EntryCall}
    {x : BitVec 64}
    (outside : ∀ call ∈ calls, ¬ Within (element idt 16 call.index.toNat) 16 x) :
    setEntries idt memory calls x = memory x := by
  induction calls generalizing memory with
  | nil => rfl
  | cons call rest inductionHypothesis =>
    rw [List.forall_mem_cons] at outside
    refine (inductionHypothesis _ outside.2).trans ?_
    exact idtSetEntry_of_not_within idt memory call.index _ _ _ outside.1

/-- Calls for consecutive vectors set a section of the table. -/
theorem gateAt_setEntries_section (idt : BitVec 64) (memory : Memory) (first : Nat)
    (stub : Nat → BitVec 64) (selector : BitVec 16) (typeAttr : BitVec 8) {count : Nat}
    (fits : first + count ≤ 256) (vector : BitVec 8) :
    gateAt (setEntries idt memory ((List.range count).map fun k =>
        ⟨BitVec.ofNat 8 (first + k), stub k, selector, typeAttr⟩)) idt vector =
      if first ≤ vector.toNat ∧ vector.toNat < first + count then
        ⟨stub (vector.toNat - first), selector, 0#8, typeAttr⟩
      else gateAt memory idt vector := by
  induction count with
  | zero =>
    rw [if_neg (by omega)]
    rfl
  | succ count inductionHypothesis =>
    have before := inductionHypothesis (by omega)
    have vectorLt := vector.isLt
    have place : (BitVec.ofNat 8 (first + count)).toNat = first + count := by
      rw [BitVec.toNat_ofNat]
      omega
    rw [List.range_succ, List.map_append, List.map_singleton, setEntries, List.foldl_append,
      List.foldl_cons, List.foldl_nil, gateAt_idtSetEntry, ← setEntries]
    by_cases last : vector = BitVec.ofNat 8 (first + count)
    · rw [last, Function.update_self, place, if_pos (by omega), Nat.add_sub_cancel_left]
    · have other : vector.toNat ≠ first + count := fun same =>
        last (BitVec.eq_of_toNat_eq (same.trans place.symm))
      rw [Function.update_of_ne last, before]
      by_cases inside : first ≤ vector.toNat ∧ vector.toNat < first + count
      · rw [if_pos inside, if_pos (by omega)]
      · rw [if_neg inside, if_neg (by omega)]

/-! ### The table of the kernel -/

section Kernel

variable (idt : BitVec 64) (memory : Memory) (isr irq : Nat → BitVec 64)

theorem gateAt_initIdt (s : InterruptState) (vector : BitVec 8) :
    gateAt (initIdt idt s).memory idt vector = ⟨0#64, 0#16, 0#8, 0#8⟩ := by
  have vectorLt := vector.isLt
  have cleared := gateAt_setEntries_section idt s.memory 0 (fun _ => 0#64) 0#16 0#8
    (show 0 + 256 ≤ 256 by decide) vector
  rw [if_pos (by omega), setEntries, List.foldl_map] at cleared
  simp only [Nat.zero_add] at cleared
  simp only [initIdt]
  exact cleared

theorem isrCalls_eq : isrCalls isr =
    (List.range 32).map fun k => ⟨BitVec.ofNat 8 (0 + k), isr k, 0x08#16, 0x8E#8⟩ := by
  simp only [isrCalls, List.range, List.range.loop, List.map, Nat.zero_add]

theorem gateAt_isrCalls (vector : BitVec 8) :
    gateAt (setEntries idt memory (isrCalls isr)) idt vector =
      if vector.toNat < 32 then ⟨isr vector.toNat, 0x08#16, 0#8, 0x8E#8⟩
      else gateAt memory idt vector := by
  rw [isrCalls_eq, gateAt_setEntries_section idt memory 0 isr 0x08#16 0x8E#8
    (show 0 + 32 ≤ 256 by decide)]
  simp only [Nat.zero_le, true_and, Nat.zero_add, Nat.sub_zero]

theorem gateAt_irqCalls (vector : BitVec 8) :
    gateAt (setEntries idt memory (irqCalls irq)) idt vector =
      if 32 ≤ vector.toNat ∧ vector.toNat < 48 then
        ⟨irq (vector.toNat - 32), 0x08#16, 0#8, idtTypeInterrupt⟩
      else gateAt memory idt vector :=
  gateAt_setEntries_section idt memory 32 irq 0x08#16 idtTypeInterrupt
    (show 32 + 16 ≤ 256 by decide) vector

/-- After the set-up the first 48 vectors lead to their stubs, and the others are empty. -/
theorem gateAt_initInterrupts (s : InterruptState) (vector : BitVec 8) :
    gateAt (initInterrupts idt isr irq s).memory idt vector =
      if vector.toNat < 48 then ⟨stubOf isr irq vector.toNat, 0x08#16, 0#8, idtTypeInterrupt⟩
      else ⟨0#64, 0#16, 0#8, 0#8⟩ := by
  have table : (initInterrupts idt isr irq s).memory =
      setEntries idt (setEntries idt (initIdt idt s).memory (isrCalls isr)) (irqCalls irq) := rfl
  rw [table, gateAt_irqCalls, gateAt_isrCalls, gateAt_initIdt, stubOf]
  by_cases exception : vector.toNat < 32
  · rw [if_neg (by omega), if_pos exception, if_pos (by omega), if_pos exception]
    rfl
  · rw [if_neg exception, if_neg exception]
    by_cases request : vector.toNat < 48
    · rw [if_pos (by omega), if_pos request]
    · rw [if_neg (by omega), if_neg request]

/-- The processor finds every gate of the table. -/
theorem fetchGate_initInterrupts (s : InterruptState) (vector : BitVec 8) :
    (initInterrupts idt isr irq s).fetchGate vector =
      some (gateAt (initInterrupts idt isr irq s).memory idt vector) := by
  have vectorLt := vector.isLt
  have limit : (initInterrupts idt isr irq s).idtr.limit.toNat = 4095 := rfl
  rw [InterruptState.fetchGate, limit, if_pos (by omega)]
  rfl

end Kernel

/-- Every gate decodes to the last call for its vector, and to what memory held when there was
none: no call touches a byte outside its entry. So after the set-up the first 48 vectors lead to
their own stubs, and no other is present. -/
theorem idt_gates_decode (idt : BitVec 64) (memory : Memory) (calls : List EntryCall)
    (isr irq : Nat → BitVec 64) (s : InterruptState) :
    (∀ vector, gateAt (setEntries idt memory calls) idt vector =
      ((lastCall vector calls).map EntryCall.gate).getD (gateAt memory idt vector)) ∧
    (∀ x, (∀ call ∈ calls, ¬ Within (element idt 16 call.index.toNat) 16 x) →
      setEntries idt memory calls x = memory x) ∧
    ∀ vector : BitVec 8, ∃ gate, (initInterrupts idt isr irq s).fetchGate vector = some gate ∧
      gate = gateAt (initInterrupts idt isr irq s).memory idt vector ∧
      if vector.toNat < 48 then
        gate = ⟨stubOf isr irq vector.toNat, 0x08#16, 0#8, 0x8E#8⟩ ∧ gate.present = true
      else gate.present = false := by
  refine ⟨fun vector => ?_, fun x => setEntries_of_not_within idt memory, fun vector => ?_⟩
  · rw [gateAt_setEntries]
    exact foldl_update_apply EntryCall.index EntryCall.gate (gateAt memory idt) calls vector
  · refine ⟨_, fetchGate_initInterrupts idt isr irq s vector, rfl, ?_⟩
    rw [gateAt_initInterrupts]
    by_cases used : vector.toNat < 48
    · rw [if_pos used, if_pos used]
      exact ⟨rfl, show idtTypeInterrupt.getLsbD 7 = true by decide⟩
    · rw [if_neg used, if_neg used]
      rfl

end M12
