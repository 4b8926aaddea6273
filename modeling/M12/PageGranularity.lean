/-
This file asks how much a call of `map_page` maps.

The allocator hands out pages of 4 KB, and so the names `map_page` and PAGE_SIZE
suggest; but the entry the function writes is a PD entry with PAGE_HUGE. A call
therefore decides the translation of the whole 2 MB region of its address, sends
that region to the 2 MB page it was given, and leaves every other address as it
was. A page that does not start at a multiple of 2 MB has no such entry, and the
walk does not find it.
-/

import M12.IdentityMap
import M12.PagePermissions

namespace M12

open ByteMemory

/-! ### Regions of addresses -/

/-- The two addresses lie in one 2 MB region. -/
def SameRegion (v w : BitVec 64) : Prop := v.toNat / 2 ^ 21 = w.toNat / 2 ^ 21

instance (v w : BitVec 64) : Decidable (SameRegion v w) := inferInstanceAs (Decidable (_ = _))

/-- The walk finds the 4 KB of the call's page behind the 4 KB from its address. -/
def FindsPage (s : PagingState) (call : MapCall) : Prop :=
  ∀ k < 4096, translate (mapStep s call).ram (mapStep s call).kernelPml4
    (call.virtualAddr + BitVec.ofNat 64 k) = some (call.physicalAddr + BitVec.ofNat 64 k)

/-- No address outside these 4 KB changes its translation. -/
def LeavesOthers (s : PagingState) (call : MapCall) : Prop :=
  ∀ v, Canonical v →
    ¬ (call.virtualAddr.toNat ≤ v.toNat ∧ v.toNat < call.virtualAddr.toNat + 4096) →
      translate (mapStep s call).ram (mapStep s call).kernelPml4 v =
        translate s.ram s.kernelPml4 v

/-- Canonical addresses lie in one region when their three indices agree. -/
theorem sameRegion_iff {v w : BitVec 64} (canonicalV : Canonical v) (canonicalW : Canonical w) :
    SameRegion v w ↔
      pml4Index v = pml4Index w ∧ pdptIndex v = pdptIndex w ∧ pdIndex v = pdIndex w := by
  constructor
  · intro same
    unfold SameRegion at same
    rw [pml4Index_eq, pml4Index_eq, pdptIndex_eq, pdptIndex_eq, pdIndex_eq, pdIndex_eq]
    omega
  · rintro ⟨first, second, third⟩
    exact page_of_region canonicalV canonicalW first second third

/-! ### One call -/

/-- A call that wrote its leaf sends its region to a 2 MB page. -/
theorem translate_inside {s : PagingState} {held : Finset (BitVec 64)}
    (tables : OwnedTables s held) {call : MapCall}
    (made : call.flags &&& ~~~ pageFlags = 0#64)
    (present : hasFlag call.flags pagePresent = true) (written : Writes s call)
    (multiple : call.physicalAddr.toNat % 2 ^ 21 = 0) (below : call.physicalAddr.toNat < 2 ^ 52)
    {v : BitVec 64} (same : pml4Index v = pml4Index call.virtualAddr ∧
      pdptIndex v = pdptIndex call.virtualAddr ∧ pdIndex v = pdIndex call.virtualAddr) :
    translate (mapStep s call).ram (mapStep s call).kernelPml4 v =
      some (call.physicalAddr + v % 0x200000#64) := by
  have small := flags_small made
  rw [translate_written tables present written same, leafAddress_huge v multiple below (by omega)]

/-- It changes the translation of no address outside its region. -/
theorem translate_outside {s : PagingState} {held : Finset (BitVec 64)}
    (tables : OwnedTables s held) {call : MapCall} {v : BitVec 64}
    (apart : ¬ (pml4Index v = pml4Index call.virtualAddr ∧
      pdptIndex v = pdptIndex call.virtualAddr ∧ pdIndex v = pdIndex call.virtualAddr)) :
    translate (mapStep s call).ram (mapStep s call).kernelPml4 v =
      translate s.ram s.kernelPml4 v := by
  rw [mapStep]
  obtain ⟨next, -, tablesNext, -, ⟨result, leaves⟩ | ⟨result, grown⟩⟩ :=
    mapPage_grows tables call.virtualAddr call.physicalAddr call.flags
  · rw [result, translate_eq_resolve tablesNext, translate_eq_resolve tables,
      leaves _ _ _ (pdIndex_lt v), if_neg apart]
  · rw [result]
    exact translate_of_extends tables tablesNext grown v

/-- `map_page` maps a 2 MB region to the 2 MB page it is given. After a successful `Init_Paging` in
any state of the allocator and any calls of `map_page`, allocations and frees of held pages, a
successful call with PAGE_PRESENT sends each canonical address of the region of its own to the same
offset in its page, and changes the translation of no canonical address outside the region. -/
theorem mapPage_maps_region (c : ClientState) (before : BeforePaging c)
    (complete : (initPaging c.toPagingState).2 = true) (calls : List PagingCall)
    (holds : FreesOnlyHeld (beginPaging c) calls) (call : MapCall)
    (canonical : Canonical call.virtualAddr) (made : call.flags &&& ~~~ pageFlags = 0#64)
    (present : hasFlag call.flags pagePresent = true)
    (written : Writes (takenRun (beginPaging c) calls).toPagingState call) :
    (call.physicalAddr.toNat % 2 ^ 21 = 0 → call.physicalAddr.toNat < 2 ^ 52 →
      ∀ v, Canonical v → SameRegion v call.virtualAddr →
        translate (mapStep (takenRun (beginPaging c) calls).toPagingState call).ram
            (mapStep (takenRun (beginPaging c) calls).toPagingState call).kernelPml4 v =
          some (call.physicalAddr + v % 0x200000#64)) ∧
    ∀ v, Canonical v → ¬ SameRegion v call.virtualAddr →
      translate (mapStep (takenRun (beginPaging c) calls).toPagingState call).ram
          (mapStep (takenRun (beginPaging c) calls).toPagingState call).kernelPml4 v =
        translate (takenRun (beginPaging c) calls).ram (takenRun (beginPaging c) calls).kernelPml4
          v := by
  have tables := (run_beginPaging before complete holds).1.tables
  refine ⟨fun multiple below v canonicalV same => ?_, fun v canonicalV apart => ?_⟩
  · exact translate_inside tables made present written multiple below
      ((sameRegion_iff canonicalV canonical).mp same)
  · exact translate_outside tables fun same =>
      apart ((sameRegion_iff canonicalV canonical).mpr same)

/-- On a blank machine a client takes a page and the second 2 MB of memory are mapped. -/
theorem mapPage_maps_region_blank :
    Writes (takenRun (beginPaging blankClient) [.get]).toPagingState
        ⟨0x200000#64, 0x200000#64, 3#64⟩ ∧
      ∀ v, Canonical v → SameRegion v 0x200000#64 →
        translate
            (mapStep (takenRun (beginPaging blankClient) [.get]).toPagingState
              ⟨0x200000#64, 0x200000#64, 3#64⟩).ram
            (mapStep (takenRun (beginPaging blankClient) [.get]).toPagingState
              ⟨0x200000#64, 0x200000#64, 3#64⟩).kernelPml4 v =
          some (0x200000#64 + v % 0x200000#64) := by
  have before : BeforePaging blankClient := beforePaging_boot zeroedTables_blank
  have complete : (initPaging blankClient.toPagingState).2 = true := complete_blank.1
  generalize blankClient = c at *
  obtain ⟨holds, written⟩ := writes_afterTake before complete 0x200000#64 3#64
  exact ⟨written, (mapPage_maps_region c before complete [.get] holds _ (by decide) (by decide)
    (by decide) written).1 (by decide) (by decide)⟩

/-- The lowest free page once `Init_Paging` has taken three. -/
theorem getPage_of_started {s : PagingState} {pages : Nat}
    (started : Started (initPaging s).1 pages) (enough : 3 < pages) :
    (getPage (beginPaging { toPagingState := s, held := ∅ }).toPagingState).2 = 0x103000#64 := by
  show (getPage (initPaging s).1).2 = 0x103000#64
  have least := isLeast_Ico enough
  rw [← started.free] at least
  rcases getPage_cases started.managed with ⟨i, leastI, result⟩ | ⟨none, -⟩
  · have place := toNat_pageAddress started.managed (IndexPool.lt_total leastI.1)
    rw [leastI.unique least] at place
    rw [result, leastI.unique least]
    exact BitVec.eq_of_toNat_eq place
  · have member := least.1
    rw [none] at member
    exact absurd member (Finset.notMem_empty 3)

/-- Mapping the page at `0x103000` where the second 2 MB were mapped before misses the page and
moves what lies behind it. -/
theorem misses_page {c : ClientState} (before : BeforePaging c)
    (complete : (initPaging c.toPagingState).2 = true) :
    Writes (takenRun (beginPaging c) [.get, .map 0x200000#64 0x400000#64 3#64]).toPagingState
        ⟨0x200000#64, 0x103000#64, 3#64⟩ ∧
      ¬ FindsPage (takenRun (beginPaging c)
        [.get, .map 0x200000#64 0x400000#64 3#64]).toPagingState
          ⟨0x200000#64, 0x103000#64, 3#64⟩ ∧
      ¬ LeavesOthers (takenRun (beginPaging c)
        [.get, .map 0x200000#64 0x400000#64 3#64]).toPagingState
          ⟨0x200000#64, 0x103000#64, 3#64⟩ := by
  have holds (calls : List PagingCall) (none : ∀ page, .free page ∉ calls) :
      FreesOnlyHeld (beginPaging c) calls := freesOnlyHeld_of_no_free none
  have earlier := (run_beginPaging before complete (holds [.get] (by simp))).1
  have later := (run_beginPaging before complete
    (holds [.get, .map 0x200000#64 0x400000#64 3#64] (by simp))).1
  have writtenEarlier : Writes (takenRun (beginPaging c) [.get]).toPagingState
      ⟨0x200000#64, 0x400000#64, 3#64⟩ := writes_of_live earlier.tables earlier.livePd
  have written : Writes (takenRun (beginPaging c)
      [.get, .map 0x200000#64 0x400000#64 3#64]).toPagingState
        ⟨0x200000#64, 0x103000#64, 3#64⟩ := writes_of_live later.tables later.livePd
  refine ⟨written, fun finds => ?_, fun leaves => ?_⟩
  · have found := (finds 0 (by decide)).symm.trans
      (translate_written later.tables (by decide) written ⟨rfl, rfl, rfl⟩)
    exact absurd found (by decide)
  · have moved := leaves 0x201000#64 (by decide) (by decide)
    have old := translate_written earlier.tables (v := 0x201000#64) (by decide)
      writtenEarlier ⟨rfl, rfl, rfl⟩
    have new := translate_written later.tables (v := 0x201000#64) (by decide) written
      ⟨rfl, rfl, rfl⟩
    exact absurd ((new.symm.trans moved).trans old) (by decide)

/-- A client of a blank machine takes its first page, at `0x103000`, and maps it where the second
2 MB were mapped before. The walk does not find the page, and the 4 KB behind it move too. -/
theorem mapPage_misses_page :
    (initPaging blankClient.toPagingState).2 = true ∧
      (getPage (beginPaging blankClient).toPagingState).2 = 0x103000#64 ∧
      Writes (takenRun (beginPaging blankClient)
        [.get, .map 0x200000#64 0x400000#64 3#64]).toPagingState
          ⟨0x200000#64, 0x103000#64, 3#64⟩ ∧
      ¬ FindsPage (takenRun (beginPaging blankClient)
        [.get, .map 0x200000#64 0x400000#64 3#64]).toPagingState
          ⟨0x200000#64, 0x103000#64, 3#64⟩ ∧
      ¬ LeavesOthers (takenRun (beginPaging blankClient)
        [.get, .map 0x200000#64 0x400000#64 3#64]).toPagingState
          ⟨0x200000#64, 0x103000#64, 3#64⟩ := by
  obtain ⟨complete, enough⟩ := complete_blank
  have started := started_initPaging zeroedTables_blank complete
  exact ⟨complete, getPage_of_started started (by omega),
    misses_page (beforePaging_boot zeroedTables_blank) complete⟩

end M12
