/-
This file compares the address space before `Init_Paging` with the one after it.

The boot loader's tables map the first 2 MB to themselves and nothing else. The new
PML4 shares the boot PDPT, so whatever the function manages to build, an address
that translated keeps its translation; and when it builds everything, the kernel's
2 MB at `KERNEL_VIRTUAL_BASE` are the only addresses it adds, at the constant
offset that `get_physical_address` subtracts.
-/

import M12.TableOwnership

namespace M12

open ByteMemory

/-! ### Two ranges of addresses -/

/-- Bits 47 to 63 of the address are equal. -/
def Canonical (v : BitVec 64) : Prop := v.toNat < 2 ^ 47 ∨ 2 ^ 64 - 2 ^ 47 ≤ v.toNat

/-- The first 2 MB, and the 2 MB from `KERNEL_VIRTUAL_BASE`. -/
def InKernelRanges (v : BitVec 64) : Prop :=
  v.toNat < 0x200000 ∨
    kernelVirtualBase.toNat ≤ v.toNat ∧ v.toNat < kernelVirtualBase.toNat + 0x200000

instance (v : BitVec 64) : Decidable (Canonical v) := inferInstanceAs (Decidable (_ ∨ _))
instance (v : BitVec 64) : Decidable (InKernelRanges v) := inferInstanceAs (Decidable (_ ∨ _ ∧ _))

theorem toNat_kernelVirtualBase : kernelVirtualBase.toNat = 2 ^ 64 - 2 ^ 31 := by decide

section Ranges

variable {v : BitVec 64}

theorem region_low_iff (canonical : Canonical v) :
    (pml4Index v = 0 ∧ pdptIndex v = 0 ∧ pdIndex v = 0) ↔ v.toNat < 0x200000 := by
  have bound := v.isLt
  rw [pml4Index_eq, pdptIndex_eq, pdIndex_eq]
  unfold Canonical at canonical
  omega

theorem region_kernel_iff (canonical : Canonical v) :
    (pml4Index v = 511 ∧ pdptIndex v = 510 ∧ pdIndex v = 0) ↔
      kernelVirtualBase.toNat ≤ v.toNat ∧ v.toNat < kernelVirtualBase.toNat + 0x200000 := by
  have bound := v.isLt
  rw [pml4Index_eq, pdptIndex_eq, pdIndex_eq, toNat_kernelVirtualBase]
  unfold Canonical at canonical
  omega

/-- In both ranges the shortcut gives the offset in the 2 MB page. -/
theorem getPhysicalAddress_of_range (range : InKernelRanges v) :
    getPhysicalAddress v = v % 0x200000#64 := by
  have bound := v.isLt
  unfold InKernelRanges at range
  rw [toNat_kernelVirtualBase] at range
  apply BitVec.eq_of_toNat_eq
  rw [getPhysicalAddress, BitVec.toNat_umod, show (0x200000#64).toNat = 0x200000 from rfl]
  split_ifs with high
  · have above : kernelVirtualBase.toNat ≤ v.toNat := high
    rw [BitVec.toNat_sub, toNat_kernelVirtualBase] at *
    omega
  · have below : ¬ kernelVirtualBase.toNat ≤ v.toNat := high
    rw [toNat_kernelVirtualBase] at below
    omega

end Ranges

/-! ### Before and after -/

theorem resolve_zero (v : BitVec 64) : resolve 0#64 v = none := by
  rw [resolve, show hasFlag 0#64 pagePresent = false by decide]
  rfl

theorem resolve_pageTable (v : BitVec 64) : resolve 0x4003#64 v = some (v % 0x200000#64) := by
  rw [resolve, show hasFlag 0x4003#64 pagePresent = true by decide,
    show hasFlag 0x4003#64 pageHuge = false by decide]
  rfl

theorem resolve_kernel (v : BitVec 64) : resolve 0x183#64 v = some (v % 0x200000#64) := by
  have mapped := resolve_mapped v (show (0#64).toNat % 2 ^ 21 = 0 by decide) (by decide)
    (show 0x103#64 &&& ~~~ pageFlags = 0#64 by decide) (by decide)
  rw [BitVec.zero_add] at mapped
  exact mapped

/-- Under the boot loader's tables the first 2 MB region is all there is. -/
theorem translate_boot {ram : Memory} (mapped : BootMapped ram) (v : BitVec 64) :
    translate ram 0x1000#64 v =
      resolve (if pml4Index v = 0 ∧ pdptIndex v = 0 ∧ pdIndex v = 0 then 0x4003#64 else 0#64)
        v := by
  have absent (outside : ¬ (pml4Index v = 0 ∧ pdptIndex v = 0 ∧ pdIndex v = 0)) :
      resolve (if pml4Index v = 0 ∧ pdptIndex v = 0 ∧ pdIndex v = 0 then 0x4003#64 else 0#64) v =
        none := by
    rw [if_neg outside, resolve_zero]
  rw [translate, walk]
  simp only
  rw [mapped.pml4 _ (pml4Index_lt v)]
  by_cases first : pml4Index v = 0
  · rw [if_pos first, show nextTable 0x2003#64 = 0x2000#64 by decide,
      mapped.pdpt _ (pdptIndex_lt v)]
    by_cases second : pdptIndex v = 0
    · rw [if_pos second, show nextTable 0x3003#64 = 0x3000#64 by decide,
        mapped.pd _ (pdIndex_lt v)]
      by_cases third : pdIndex v = 0
      · have here : resolve (if pml4Index v = 0 ∧ pdptIndex v = 0 ∧ pdIndex v = 0 then 0x4003#64
            else 0#64) v = some (v % 0x200000#64) := by
          rw [if_pos ⟨first, second, third⟩, resolve_pageTable]
        rw [here, if_pos third, show nextTable 0x4003#64 = 0x4000#64 by decide,
          mapped.pt _ (ptIndex_lt v), hasFlag_present_pageTable]
        exact congrArg some (leafAddress_pageTable v)
      · rw [absent fun all => third all.2.2, if_neg third]
        rfl
    · rw [absent fun all => second all.2.1, if_neg second]
      rfl
  · rw [absent fun all => first all.1, if_neg first]
    rfl

/-! ### Init_Paging -/

theorem noneHeld {s : MemoryState} : ∀ page ∈ (∅ : Finset (BitVec 64)), ∃ i, UsedPage s page i :=
  fun page member => absurd member (Finset.notMem_empty page)

/-- When each allocation succeeded, the new tables are the kernel's, in force, with the boot
loader's PD among them. -/
theorem owned_initPaging {s : PagingState} (managed : Managed s.toMemoryState)
    (mapped : BootMapped s.ram) (boot : s.cr3 = bootCr3) (complete : (initPaging s).2 = true) :
    OwnedTables (initPaging s).1 ∅ ∧
      Live (initPaging s).1.ram (initPaging s).1.kernelPml4 (.pd 0 0) ∧
      getCurrentPml4 (initPaging s).1 = (initPaging s).1.kernelPml4 := by
  rcases initPaging_cases managed mapped boot noneHeld with
    ⟨i, next, fresh, least, result, tables, grows, -⟩ | none
  · have live := live_fresh (bootMapped_freshPml4 managed least.1 mapped)
      fun _ inside => freshPml4_root managed least.1 inside
    rw [result]
    exact ⟨tables.switch _, (grows.live _).mpr (Or.inl ((live _).mpr (Or.inr (Or.inr rfl)))),
      tableOf_of_aligned (aligned_tablePage tables.managed (tables.owned .pml4 trivial))⟩
  · rw [none] at complete
    exact absurd complete Bool.false_ne_true

/-- The tables a successful or unsuccessful `Init_Paging` leaves in force map each region as the
boot loader's did, except that success adds the kernel's. -/
theorem translate_initPaging {s : PagingState} (managed : Managed s.toMemoryState)
    (mapped : BootMapped s.ram) (boot : s.cr3 = bootCr3) (v : BitVec 64) :
    translate (initPaging s).1.ram (getCurrentPml4 (initPaging s).1) v =
      if (initPaging s).2 = true ∧ pml4Index v = 511 ∧ pdptIndex v = 510 ∧ pdIndex v = 0 then
        some (v % 0x200000#64)
      else translate s.ram 0x1000#64 v := by
  rcases initPaging_cases managed mapped boot noneHeld with
    ⟨i, next, fresh, least, result, tables, -, cases⟩ | none
  · have root : tableOf next.kernelPml4 = next.kernelPml4 :=
      tableOf_of_aligned (aligned_tablePage tables.managed (tables.owned .pml4 trivial))
    have boot : leafEntry (freshPml4 s i).ram (freshPml4 s i).kernelPml4 (pml4Index v) (pdptIndex v)
        (pdIndex v) =
          if pml4Index v = 0 ∧ pdptIndex v = 0 ∧ pdIndex v = 0 then 0x4003#64 else 0#64 :=
      leafEntry_fresh (bootMapped_freshPml4 managed least.1 mapped)
        (fun _ inside => freshPml4_root managed least.1 inside) _ _ (pdIndex_lt v)
    rw [result]
    show translate next.ram (tableOf next.kernelPml4) v = _
    rw [root, translate_eq_resolve tables, translate_boot mapped, ← boot]
    rcases cases with ⟨success, leaves⟩ | ⟨failure, grown⟩
    · rw [leaves _ _ _ (pdIndex_lt v), success]
      simp only [true_and]
      split_ifs with kernel
      · exact resolve_kernel v
      · rfl
    · rw [grown.leaves _ _ _ (pdIndex_lt v), failure, if_neg fun both => Bool.noConfusion both.1]
  · rw [none, if_neg fun both => Bool.noConfusion both.1]
    show translate s.ram (getCurrentPml4 s) v = _
    rw [getCurrentPml4_boot boot]

/-- After each allocation succeeded, the canonical addresses that translate are those of the two
ranges, and `get_physical_address` agrees with the walk on them. -/
theorem translate_complete {s : PagingState} (managed : Managed s.toMemoryState)
    (mapped : BootMapped s.ram) (boot : s.cr3 = bootCr3) (complete : (initPaging s).2 = true)
    {v : BitVec 64} (canonical : Canonical v) :
    translate (initPaging s).1.ram (getCurrentPml4 (initPaging s).1) v =
      if InKernelRanges v then some (getPhysicalAddress v) else none := by
  rw [translate_initPaging managed mapped boot, complete, translate_boot mapped]
  simp only [true_and, region_low_iff canonical, region_kernel_iff canonical]
  by_cases range : InKernelRanges v
  · rw [if_pos range, getPhysicalAddress_of_range range]
    rcases range with low | kernel
    · rw [if_neg (by rw [toNat_kernelVirtualBase]; omega), if_pos low, resolve_pageTable]
    · rw [if_pos kernel]
  · rw [if_neg range, if_neg fun kernel => range (Or.inr kernel),
      if_neg fun low => range (Or.inl low), resolve_zero]

/-- `Init_Paging` only extends the address space. In any state of the allocator, an address that
translated under the boot loader's tables translates to the same physical address under the tables
then in force; and when each allocation succeeded, the canonical addresses that translate are those
of the two ranges, to what `get_physical_address` gives. -/
theorem initPaging_extends_address_space (s : PagingState) (managed : Managed s.toMemoryState)
    (mapped : BootMapped s.ram) (boot : s.cr3 = bootCr3) :
    (∀ v physical, translate s.ram (getCurrentPml4 s) v = some physical →
      translate (initPaging s).1.ram (getCurrentPml4 (initPaging s).1) v = some physical) ∧
    ((initPaging s).2 = true → ∀ v, Canonical v →
      translate (initPaging s).1.ram (getCurrentPml4 (initPaging s).1) v =
        if InKernelRanges v then some (getPhysicalAddress v) else none) := by
  refine ⟨fun v physical old => ?_, fun success v canonical => ?_⟩
  · rw [getCurrentPml4_boot boot] at old
    rw [translate_initPaging managed mapped boot]
    split_ifs with kernel
    · rw [translate_boot mapped, if_neg (by omega), resolve_zero] at old
      exact absurd old.symm (Option.some_ne_none physical)
    · exact old
  · exact translate_complete managed mapped boot success canonical

/-- The machine of a blank memory, once its boot loader and `Init_Memory` have run. -/
theorem initPaging_extends_address_space_blank :
    (initPaging (bootPaging fun _ => 0#8)).2 = true ∧ ∀ v, Canonical v →
      translate (initPaging (bootPaging fun _ => 0#8)).1.ram
          (getCurrentPml4 (initPaging (bootPaging fun _ => 0#8)).1) v =
        if InKernelRanges v then some (getPhysicalAddress v) else none := by
  have before := beforePaging_boot zeroedTables_blank
  have extended := initPaging_extends_address_space (bootPaging fun _ => 0#8) before.managed
    (bootMapped_bootPaging zeroedTables_blank) before.boot
  exact ⟨complete_blank.1, extended.2 complete_blank.1⟩

end M12
