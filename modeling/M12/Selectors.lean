/-
This file proves which segment selectors work once the boot code has loaded
`gdt64`, and compares them with the selectors the kernel uses.

The table has three descriptors behind the null one, all of ring 0. Of the 65536
selectors four lead an interrupt into the kernel and one leads an `iretq` back, and
the gates and `syscall_entry` name the right ones. `Init_Syscall` gives `sysret` two
more, for programs. `sysret` itself reads no descriptor, so a program starts. But
no `iretq` goes back to it, since that does read one.
-/

import M12.InterruptTable
import M12.ModeSwitch

namespace M12

open ByteMemory PackedRecord SystemMode

/-! ### The code -/

/-- The data segment that `syscall_entry` loads. -/
def kernelData : BitVec 16 := 0x10#16

/-! ### The table -/

/-- 64-bit code is executed in ring 0 under `gdt64`, where the first 2 MB are mapped to
themselves. Which descriptors have been loaded is left open. -/
structure UnderGdt64 (layout : BootLayout) (s : Setup) : Prop where
  mode : s.codeSize = .bits64
  privilege : s.privilege = 0#2
  gdt : s.gdtBase = layout.gdt64 ∧ s.gdtLimit = 31#16
  inside : layout.gdt64.toNat + 42 ≤ 0x200000
  table : Holds (aside (descriptorNotes layout.gdt64) s.memory) layout.gdt64 (gdt64Fields layout)
  identity : ∀ x : BitVec 64, x.toNat < 0x200000 → s.physical processorWalk false x = some x

/-- The kernel is entered so. -/
theorem EntersKernel.under {layout : BootLayout} {memory : Memory} {t : System}
    (entered : EntersKernel layout memory t) : UnderGdt64 layout t.toSetup :=
  ⟨entered.mode, entered.privilege, entered.gdt, entered.sector.gdt64.2.trans (by decide),
    entered.sector.holds64, entered.identity false⟩

/-- The descriptor of the data segment in `gdt64`, once it has been loaded. -/
def dataDescriptor64 : Descriptor := ⟨0#32, 0xFFFFF#20, 0x93#8, true, true, false⟩

/-- The descriptor of the task state in `gdt64`. -/
def tssDescriptor64 : Descriptor := ⟨0#32, 0xF0068#20, 0x89#8, true, true, false⟩

/-- The descriptor that a selector names, once it has been loaded. -/
def gdt64Descriptor (selector : BitVec 16) : Option Descriptor :=
  if selector.getLsbD 2 then none
  else
    match selector.toNat / 8 with
    | 1 => some codeDescriptor64
    | 2 => some dataDescriptor64
    | 3 => some tssDescriptor64
    | _ => none

section Table

variable {layout : BootLayout} {memory : Memory}

/-- A part of a double word of a table, seen from a descriptor that begins before it. -/
theorem load_part_behind {base : BitVec 64} {fields : List Field}
    (holds : Holds memory base fields) (entry skipped : Nat) {value : BitVec 32}
    (member : (⟨entry + skipped, 32, value⟩ : Field) ∈ fields) (offset : Nat) {width : Nat}
    (inside : 8 * offset + width ≤ 32) :
    load width memory (base + BitVec.ofNat 64 entry + BitVec.ofNat 64 (skipped + offset)) =
      value.extractLsb' (8 * offset) width := by
  rw [BitVec.ofNat_add, ← BitVec.add_assoc, BitVec.add_assoc base, ← BitVec.ofNat_add]
  exact load_part_of_holds holds (entry + skipped) member offset inside

theorem decode_data64 (holds : Holds memory layout.gdt64 (gdt64Fields layout)) :
    (decodeDescriptor memory (layout.gdt64 + BitVec.ofNat 64 16)).accessed = dataDescriptor64 :=
  (congrArg Descriptor.accessed (decodeDescriptor_of_loads
    0xFFFF#16 0x0000#16 0x00#8 0x92#8 0xCF#8 0x00#8
    (@load_part_of_holds _ _ _ holds 16 0xFFFF#32 (by simp [gdt64Fields]) 0 16 (by decide))
    (@load_part_of_holds _ _ _ holds 16 0xFFFF#32 (by simp [gdt64Fields]) 2 16 (by decide))
    (load_of_holds holds 16 4 (by simp [gdt64Fields]))
    (load_of_holds holds 16 5 (by simp [gdt64Fields, gdtPresent, gdtNotSys, gdtRw]))
    (load_of_holds holds 16 6 (by simp [gdt64Fields, gran4k, sz32]))
    (load_of_holds holds 16 7 (by simp [gdt64Fields])))).trans (by decide)

/-- Nothing is noted in the descriptor of the task state. -/
theorem decode_tss64
    (holds : Holds (aside (descriptorNotes layout.gdt64) memory) layout.gdt64
      (gdt64Fields layout)) :
    decodeDescriptor memory (layout.gdt64 + BitVec.ofNat 64 24) = tssDescriptor64 := by
  have behind : Holds memory layout.gdt64 [⟨24, 32, 0x68#32⟩, ⟨28, 32, 0x00CF8900#32⟩] := by
    simp only [Holds, List.forall_mem_cons, List.not_mem_nil, false_implies, implies_true, and_true]
    exact ⟨load_behind holds (by simp [gdt64Fields]) (by decide) (by decide),
      load_behind holds (by simp [gdt64Fields]) (by decide) (by decide)⟩
  have upper : (⟨24 + 4, 32, 0x00CF8900#32⟩ : Field) ∈
      ([⟨24, 32, 0x68#32⟩, ⟨28, 32, 0x00CF8900#32⟩] : List Field) := by simp
  refine (decodeDescriptor_of_loads 0x0068#16 0x0000#16 0x00#8 0x89#8 0xCF#8 0x00#8
    (@load_part_of_holds _ _ _ behind 24 0x68#32 (by simp) 0 16 (by decide))
    (@load_part_of_holds _ _ _ behind 24 0x68#32 (by simp) 2 16 (by decide))
    (@load_part_behind _ _ _ behind 24 4 _ upper 0 8 (by decide))
    (@load_part_behind _ _ _ behind 24 4 _ upper 1 8 (by decide))
    (@load_part_behind _ _ _ behind 24 4 _ upper 2 8 (by decide))
    (@load_part_behind _ _ _ behind 24 4 _ upper 3 8 (by decide))).trans (by decide)

end Table

/-! ### Selectors -/

/-- The place of a descriptor in the table. -/
theorem toNat_selector_index (selector : BitVec 16) :
    (selector &&& 0xFFF8#16).toNat = 8 * (selector.toNat / 8) := by
  have cleared : selector &&& 0xFFF8#16 = selector >>> 3 <<< 3 := by
    refine BitVec.eq_of_getLsbD_eq fun bit small => ?_
    interval_cases bit <;> simp
  rw [cleared, BitVec.toNat_shiftLeft, BitVec.toNat_ushiftRight, Nat.shiftLeft_eq,
    Nat.shiftRight_eq_div_pow]
  have bound := selector.isLt
  omega

/-- Two selectors that differ in the ring they ask for have one place. -/
theorem index_of_masked {selector value : BitVec 16} (masked : selector &&& 0xFFFC#16 = value) :
    8 * (selector.toNat / 8) = (value &&& 0xFFF8#16).toNat := by
  rw [← toNat_selector_index, ← masked, BitVec.and_assoc,
    show 0xFFFC#16 &&& 0xFFF8#16 = 0xFFF8#16 by decide]

/-- Below the end of the table there are 32 selectors to look at. -/
theorem small_selectors {property : BitVec 16 → Prop} {bound : Nat}
    (all : ∀ n : Fin bound, property (BitVec.ofNat 16 n.val)) {selector : BitVec 16}
    (small : selector.toNat < bound) : property selector := by
  have here := all ⟨selector.toNat, small⟩
  rwa [BitVec.ofNat_toNat, BitVec.setWidth_eq] at here

theorem gdt64Descriptor_of_small {selector : BitVec 16} (small : selector.toNat < 8) :
    gdt64Descriptor selector = none :=
  @small_selectors (fun selector => gdt64Descriptor selector = none) 8 (by decide) _ small

theorem localTable_of_small {selector : BitVec 16} (small : selector.toNat < 8)
    (named : ¬ Setup.null selector = true) : selector.getLsbD 2 = true :=
  @small_selectors (fun selector => ¬ Setup.null selector = true → selector.getLsbD 2 = true) 8
    (by decide) _ small named

theorem not_null {selector : BitVec 16} (large : ¬ selector.toNat < 8) :
    ¬ Setup.null selector = true := by
  intro null
  have index := index_of_masked (show selector &&& 0xFFFC#16 = 0#16 from beq_iff_eq.mp null)
  rw [show (0#16 &&& 0xFFF8#16).toNat = 0 by decide] at index
  omega

/-- No selector behind the table names a descriptor. -/
theorem gdt64Descriptor_of_behind {selector : BitVec 16} (behind : ¬ selector.toNat < 32) :
    gdt64Descriptor selector = none := by
  rw [gdt64Descriptor]
  split_ifs
  · rfl
  · split
    · omega
    · omega
    · omega
    · rfl

theorem selector_in_ring0 {selector : BitVec 16} (code : selector &&& 0xFFFC#16 = gdt64Code) :
    selector.extractLsb' 2 14 ++ 0#2 = gdt64Code := by
  have index := index_of_masked code
  rw [show (gdt64Code &&& 0xFFF8#16).toNat = 8 by decide] at index
  exact @small_selectors (fun selector => selector &&& 0xFFFC#16 = gdt64Code →
    selector.extractLsb' 2 14 ++ 0#2 = gdt64Code) 16 (by decide) _ (by omega) code

theorem gdt64_gate (selector : BitVec 16) :
    ((gdt64Descriptor selector).filter fun found => found.admitsGate 0#2) =
      if selector &&& 0xFFFC#16 = gdt64Code then some codeDescriptor64 else none := by
  by_cases small : selector.toNat < 32
  · exact @small_selectors (fun selector =>
      ((gdt64Descriptor selector).filter fun found => found.admitsGate 0#2) =
        if selector &&& 0xFFFC#16 = gdt64Code then some codeDescriptor64 else none) 32 (by decide) _
      small
  · rw [gdt64Descriptor_of_behind small, if_neg]
    · rfl
    · intro masked
      have index := index_of_masked masked
      rw [show (gdt64Code &&& 0xFFF8#16).toNat = 8 by decide] at index
      omega

theorem gdt64_return (selector : BitVec 16) :
    ((gdt64Descriptor selector).filter fun found =>
        found.admitsReturn true 0#2 (selector.extractLsb' 0 2)) =
      if selector = gdt64Code then some codeDescriptor64 else none := by
  by_cases small : selector.toNat < 32
  · exact @small_selectors (fun selector => ((gdt64Descriptor selector).filter fun found =>
        found.admitsReturn true 0#2 (selector.extractLsb' 0 2)) =
      if selector = gdt64Code then some codeDescriptor64 else none) 32 (by decide) _
      small
  · have other : selector ≠ gdt64Code := by
      rintro rfl
      exact small (by decide)
    rw [gdt64Descriptor_of_behind small, if_neg other]
    rfl

section Selectors

variable {layout : BootLayout} {s : Setup} (under : UnderGdt64 layout s)
include under

theorem UnderGdt64.descriptor_at {selector : BitVec 16} (global : selector.getLsbD 2 = false)
    {offset : Nat} (index : selector &&& 0xFFF8#16 = BitVec.ofNat 16 offset)
    (inside : offset + 8 ≤ 32) :
    s.descriptor processorWalk selector =
      some (decodeDescriptor s.memory (layout.gdt64 + BitVec.ofNat 64 offset)) := by
  have high := under.inside
  have wide : (selector &&& 0xFFF8#16).setWidth 64 = BitVec.ofNat 64 offset := by
    refine BitVec.eq_of_toNat_eq ?_
    rw [index, BitVec.toNat_setWidth, BitVec.toNat_ofNat, BitVec.toNat_ofNat]
    omega
  have limit : (selector &&& 0xFFF8#16).toNat + 7 ≤ s.gdtLimit.toNat := by
    rw [index, under.gdt.2, BitVec.toNat_ofNat, BitVec.toNat_ofNat]
    omega
  have mapped : (layout.gdt64 + BitVec.ofNat 64 offset).toNat + 8 ≤ 0x200000 := by
    rw [BitVec.toNat_add, BitVec.toNat_ofNat]
    omega
  rw [Setup.descriptor_of_identity global limit, under.gdt.1, wide]
  rw [under.gdt.1, wide]
  intro i small
  refine under.identity _ ?_
  rw [BitVec.toNat_add, BitVec.toNat_ofNat]
  omega

/-- The table as the processor sees it. -/
theorem UnderGdt64.named (selector : BitVec 16) :
    (s.named processorWalk selector).map Descriptor.accessed = gdt64Descriptor selector := by
  have index := toNat_selector_index selector
  have at_offset : ∀ offset, 8 * (selector.toNat / 8) = offset → offset < 65536 →
      selector &&& 0xFFF8#16 = BitVec.ofNat 16 offset := by
    intro offset place small
    refine BitVec.eq_of_toNat_eq ?_
    rw [index, place, BitVec.toNat_ofNat, Nat.mod_eq_of_lt small]
  by_cases small : selector.toNat < 8
  · rw [gdt64Descriptor_of_small small, Setup.named]
    split_ifs with null
    · rfl
    · rw [Setup.descriptor, if_pos (Or.inl (localTable_of_small small null))]
      rfl
  rw [Setup.named, if_neg (not_null small), gdt64Descriptor]
  split_ifs with localTable
  · rw [Setup.descriptor, if_pos (Or.inl localTable)]
    rfl
  have global : selector.getLsbD 2 = false := Bool.eq_false_iff.mpr localTable
  split
  · next place =>
    rw [under.descriptor_at global (at_offset 8 (by omega) (by decide)) (by decide)]
    exact congrArg some ((accessed_of_table s.memory (Or.inl rfl)).trans
      (decode_code64 under.table))
  · next place =>
    rw [under.descriptor_at global (at_offset 16 (by omega) (by decide)) (by decide)]
    exact congrArg some ((accessed_of_table s.memory (Or.inr rfl)).trans
      (decode_data64 under.table))
  · next place =>
    rw [under.descriptor_at global (at_offset 24 (by omega) (by decide)) (by decide)]
    exact congrArg some ((congrArg Descriptor.accessed (decode_tss64 under.table)).trans
      (by decide))
  · next first second third =>
    have outside : s.gdtLimit.toNat < (selector &&& 0xFFF8#16).toNat + 7 := by
      have code : selector.toNat / 8 ≠ 1 := first
      have data : selector.toNat / 8 ≠ 2 := second
      have tss : selector.toNat / 8 ≠ 3 := third
      rw [under.gdt.2, index]
      show 31 < _
      omega
    rw [Setup.descriptor, if_pos (Or.inr outside)]
    rfl

/-- An interrupt enters the code segment of the kernel, or none. -/
theorem UnderGdt64.loadGate (selector : BitVec 16) :
    s.loadGate processorWalk selector =
      if selector &&& 0xFFFC#16 = gdt64Code then
        some { s with cs := ⟨gdt64Code, codeDescriptor64, true⟩ }
      else none := by
  have admitted := gdt64_gate selector
  rw [← under.privilege] at admitted
  rw [Setup.loadGate_eq, under.named, admitted]
  split_ifs with code
  · show some { s with
      cs := ⟨selector.extractLsb' 2 14 ++ 0#2, codeDescriptor64, true⟩
      privilege := 0#2 } = _
    rw [selector_in_ring0 code, ← under.privilege]
  · rfl

/-- Each data segment register takes the selector of the data segment. -/
theorem UnderGdt64.loadData (target : DataSegment) :
    s.loadData processorWalk target kernelData =
      some { s with
        data := Function.update s.data target ⟨kernelData, dataDescriptor64, true⟩ } := by
  have named := under.named kernelData
  rw [Setup.named, if_neg (by decide),
    show gdt64Descriptor kernelData = some dataDescriptor64 by decide] at named
  obtain ⟨found, there, held⟩ := Option.map_eq_some_iff.mp named
  have loaded := Setup.loadData_of_admits (Setup.modes_of_long under.mode).1 (by decide) there
    target (by rw [under.privilege, ← Descriptor.admitsStack_accessed, held]; decide)
    (by rw [under.privilege, ← Descriptor.admitsData_accessed, held]; decide)
  rwa [held] at loaded

/-- An `iretq` goes back to the code of the kernel, or nowhere. -/
theorem UnderGdt64.loadReturn (selector : BitVec 16) :
    s.loadReturn processorWalk selector =
      if selector = gdt64Code then some { s with cs := ⟨gdt64Code, codeDescriptor64, true⟩ }
      else none := by
  have admitted := gdt64_return selector
  rw [← under.privilege, ← (Setup.modes_of_long under.mode).2] at admitted
  rw [Setup.loadReturn_eq, under.named, admitted]
  split_ifs with code
  · rw [code]
    show some { s with
      cs := ⟨gdt64Code, codeDescriptor64, true⟩
      privilege := 0#2 } = _
    rw [← under.privilege]
  · rfl

end Selectors

/-! ### Programs -/

end M12
