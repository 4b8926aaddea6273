/-
This file compares the two ways to translate an address: the processor's walk of
the tables, and `get_physical_address`, which subtracts a constant and looks at no
table.

They agree when `Init_Paging` has succeeded, and a later `map_page` keeps them in
agreement exactly when it maps its region to the page the shortcut gives for it.
-/

import M12.AddressSpace

namespace M12

open ByteMemory

/-! ### Runs of map_page -/

/-- The arguments of a call of `map_page`. -/
structure MapCall where
  virtualAddr : BitVec 64
  physicalAddr : BitVec 64
  flags : BitVec 64
deriving DecidableEq

/-- The state after a call. -/
def mapStep (s : PagingState) (call : MapCall) : PagingState :=
  (mapPage s call.virtualAddr call.physicalAddr call.flags).1

/-- The call reached its last statement. -/
def Writes (s : PagingState) (call : MapCall) : Prop :=
  (mapPage s call.virtualAddr call.physicalAddr call.flags).2 = true

/-- The shortcut gives what the walk gives, for each canonical address that is present. -/
def ShortcutAgrees (s : PagingState) : Prop :=
  ∀ v, Canonical v → ∀ physical, translate s.ram s.kernelPml4 v = some physical →
    getPhysicalAddress v = physical

/-- The two agree in every state of a run. -/
def ShortcutAgreesThroughout (s : PagingState) : List MapCall → Prop
  | [] => ShortcutAgrees s
  | call :: rest => ShortcutAgrees s ∧ ShortcutAgreesThroughout (mapStep s call) rest

/-- The canonical address with the same low 48 bits. -/
def canonicalForm (v : BitVec 64) : BitVec 64 := (v.setWidth 48).signExtend 64

/-- The page the call maps has the address where the shortcut puts it. -/
def Direct (call : MapCall) : Prop :=
  leafAddress (call.physicalAddr ||| call.flags ||| pageHuge) (canonicalForm call.virtualAddr) 21 =
    getPhysicalAddress (canonicalForm call.virtualAddr)

instance (call : MapCall) : Decidable (Direct call) := inferInstanceAs (Decidable (_ = _))

/-- Each call of a run that writes its leaf maps its region to the page of the shortcut. -/
def DirectRun (s : PagingState) : List MapCall → Prop
  | [] => True
  | call :: rest => (Writes s call → Direct call) ∧ DirectRun (mapStep s call) rest

/-! ### Canonical addresses -/

theorem toNat_canonicalForm (v : BitVec 64) :
    (canonicalForm v).toNat =
      v.toNat % 2 ^ 48 + if 2 ^ 47 ≤ v.toNat % 2 ^ 48 then 2 ^ 64 - 2 ^ 48 else 0 := by
  rw [canonicalForm, BitVec.toNat_signExtend, BitVec.msb_eq_decide, BitVec.toNat_setWidth,
    BitVec.toNat_setWidth, Nat.mod_eq_of_lt (show v.toNat % 2 ^ 48 < 2 ^ 64 by omega)]
  simp only [decide_eq_true_eq, Nat.add_one_sub_one]

theorem canonical_canonicalForm (v : BitVec 64) : Canonical (canonicalForm v) := by
  unfold Canonical
  rw [toNat_canonicalForm]
  split_ifs with high
  · omega
  · omega

theorem region_canonicalForm (v : BitVec 64) :
    pml4Index (canonicalForm v) = pml4Index v ∧ pdptIndex (canonicalForm v) = pdptIndex v ∧
      pdIndex (canonicalForm v) = pdIndex v := by
  simp only [pml4Index_eq, pdptIndex_eq, pdIndex_eq, toNat_canonicalForm]
  split_ifs with high
  · omega
  · omega

/-- Canonical addresses with the same indices share their 2 MB page. -/
theorem page_of_region {v w : BitVec 64} (canonicalV : Canonical v) (canonicalW : Canonical w)
    (first : pml4Index v = pml4Index w) (second : pdptIndex v = pdptIndex w)
    (third : pdIndex v = pdIndex w) : v.toNat / 2 ^ 21 = w.toNat / 2 ^ 21 := by
  have boundV := v.isLt
  have boundW := w.isLt
  rw [pml4Index_eq, pml4Index_eq] at first
  rw [pdptIndex_eq, pdptIndex_eq] at second
  rw [pdIndex_eq, pdIndex_eq] at third
  unfold Canonical at canonicalV canonicalW
  omega

theorem toNat_getPhysicalAddress (v : BitVec 64) :
    (getPhysicalAddress v).toNat =
      if 2 ^ 64 - 2 ^ 31 ≤ v.toNat then v.toNat - (2 ^ 64 - 2 ^ 31) else v.toNat := by
  have bound := v.isLt
  have compare : v ≥ kernelVirtualBase ↔ 2 ^ 64 - 2 ^ 31 ≤ v.toNat := by
    rw [← toNat_kernelVirtualBase]
    rfl
  rw [getPhysicalAddress]
  simp only [compare]
  split_ifs with high
  · rw [BitVec.toNat_sub, toNat_kernelVirtualBase]
    omega
  · rfl

/-- Both translations keep the offset in the 2 MB page, so they agree on all of it or nowhere. -/
theorem leafAddress_eq_shortcut {entry v w : BitVec 64} (page : v.toNat / 2 ^ 21 = w.toNat / 2 ^ 21)
    (direct : leafAddress entry w 21 = getPhysicalAddress w) :
    leafAddress entry v 21 = getPhysicalAddress v := by
  have here := congrArg BitVec.toNat direct
  apply BitVec.eq_of_toNat_eq
  rw [toNat_leafAddress _ _ (by decide), toNat_getPhysicalAddress] at here ⊢
  split_ifs at here ⊢ <;> omega

/-- For the page and the flags a caller should pass, a call is direct when its page is the one the
shortcut gives. -/
theorem direct_iff_page {call : MapCall} (multiple : call.physicalAddr.toNat % 2 ^ 21 = 0)
    (below : call.physicalAddr.toNat < 2 ^ 52) (made : call.flags &&& ~~~ pageFlags = 0#64) :
    Direct call ↔ call.physicalAddr.toNat =
      (getPhysicalAddress (canonicalForm call.virtualAddr)).toNat / 2 ^ 21 * 2 ^ 21 := by
  have small := flags_small made
  rw [Direct, leafAddress_huge _ multiple below (by omega), ← BitVec.toNat_inj, BitVec.toNat_add,
    BitVec.toNat_umod, show (0x200000#64).toNat = 2 ^ 21 from rfl, toNat_getPhysicalAddress]
  split_ifs with high
  · omega
  · omega

/-! ### One call -/

/-- A call that writes its leaf changes no other one. -/
theorem mapStep_written {s : PagingState} {held : Finset (BitVec 64)}
    (tables : OwnedTables s held) {call : MapCall} (written : Writes s call) :
    OwnedTables (mapStep s call) held ∧ ∀ a b c, c < 512 →
      leafEntry (mapStep s call).ram (mapStep s call).kernelPml4 a b c =
        if a = pml4Index call.virtualAddr ∧ b = pdptIndex call.virtualAddr ∧
            c = pdIndex call.virtualAddr then
          call.physicalAddr ||| call.flags ||| pageHuge
        else leafEntry s.ram s.kernelPml4 a b c := by
  rw [Writes] at written
  rw [mapStep]
  obtain ⟨next, -, tablesNext, -, ⟨result, leaves⟩ | ⟨result, -⟩⟩ :=
    mapPage_grows tables call.virtualAddr call.physicalAddr call.flags
  · rw [result]
    exact ⟨tablesNext, leaves⟩
  · rw [result] at written
    exact absurd written Bool.false_ne_true

/-- Such a call decides the translation of its region. -/
theorem translate_written {s : PagingState} {held : Finset (BitVec 64)}
    (tables : OwnedTables s held) {call : MapCall}
    (present : hasFlag call.flags pagePresent = true) (written : Writes s call) {v : BitVec 64}
    (same : pml4Index v = pml4Index call.virtualAddr ∧
      pdptIndex v = pdptIndex call.virtualAddr ∧ pdIndex v = pdIndex call.virtualAddr) :
    translate (mapStep s call).ram (mapStep s call).kernelPml4 v =
      some (leafAddress (call.physicalAddr ||| call.flags ||| pageHuge) v 21) := by
  obtain ⟨tablesNext, leaves⟩ := mapStep_written tables written
  rw [translate_eq_resolve tablesNext, leaves _ _ _ (pdIndex_lt v), if_pos same,
    resolve_written present]

/-- A region whose PD exists needs no page. -/
theorem writes_of_live {s : PagingState} {held : Finset (BitVec 64)} (tables : OwnedTables s held)
    {call : MapCall} (live : Live s.ram s.kernelPml4
      (.pd (pml4Index call.virtualAddr) (pdptIndex call.virtualAddr))) : Writes s call := by
  have top : hasFlag (WordTable.read s.ram s.kernelPml4 (pml4Index call.virtualAddr))
      pagePresent = true := live.1.2
  have middle : hasFlag (WordTable.read s.ram (tableOf (WordTable.read s.ram s.kernelPml4
      (pml4Index call.virtualAddr))) (pdptIndex call.virtualAddr)) pagePresent = true := live.2.2
  rw [Writes, mapPage_eq tables.root_ne_zero, ensureLeaf, ensureTable, if_pos top]
  simp only
  rw [ensureTable, if_pos middle]

/-- A call keeps the two in agreement exactly when it gives up or is direct. -/
theorem shortcutAgrees_step {s : PagingState} {held : Finset (BitVec 64)}
    (tables : OwnedTables s held) (agrees : ShortcutAgrees s) {call : MapCall}
    (present : hasFlag call.flags pagePresent = true) :
    OwnedTables (mapStep s call) held ∧
      (ShortcutAgrees (mapStep s call) ↔ (Writes s call → Direct call)) := by
  have onlyIf : ShortcutAgrees (mapStep s call) → Writes s call → Direct call := by
    intro agreesNext written
    exact (agreesNext _ (canonical_canonicalForm call.virtualAddr) _
      (translate_written tables present written (region_canonicalForm call.virtualAddr))).symm
  rw [mapStep, Writes] at *
  obtain ⟨next, -, tablesNext, -, ⟨result, leaves⟩ | ⟨result, extended⟩⟩ :=
    mapPage_grows tables call.virtualAddr call.physicalAddr call.flags
  · rw [result] at onlyIf ⊢
    refine ⟨tablesNext, onlyIf, ?_⟩
    · intro writesDirect v canonical physical found
      have direct := writesDirect rfl
      rw [translate_eq_resolve tablesNext, leaves _ _ _ (pdIndex_lt v)] at found
      split_ifs at found with same
      · obtain ⟨first, second, third⟩ := region_canonicalForm call.virtualAddr
        have page := page_of_region canonical (canonical_canonicalForm call.virtualAddr)
          (same.1.trans first.symm) (same.2.1.trans second.symm) (same.2.2.trans third.symm)
        rw [resolve_written present, leafAddress_eq_shortcut page direct] at found
        exact Option.some.inj found
      · rw [← translate_eq_resolve tables] at found
        exact agrees v canonical physical found
  · rw [result]
    refine ⟨tablesNext, iff_of_true (fun v canonical physical found => ?_)
      fun written => absurd written Bool.false_ne_true⟩
    rw [translate_of_extends tables tablesNext extended v] at found
    exact agrees v canonical physical found

/-! ### Every run -/

theorem shortcutAgreesThroughout_iff {s : PagingState} {held : Finset (BitVec 64)}
    (tables : OwnedTables s held) (agrees : ShortcutAgrees s) {calls : List MapCall}
    (present : ∀ call ∈ calls, hasFlag call.flags pagePresent = true) :
    ShortcutAgreesThroughout s calls ↔ DirectRun s calls := by
  induction calls generalizing s with
  | nil => exact iff_of_true agrees trivial
  | cons call rest inductionHypothesis =>
    rw [List.forall_mem_cons] at present
    obtain ⟨tablesNext, step⟩ := shortcutAgrees_step tables agrees present.1
    rw [ShortcutAgreesThroughout, DirectRun, and_iff_right agrees, ← step]
    constructor
    · intro along
      have agreesNext : ShortcutAgrees (mapStep s call) := by
        cases rest with
        | nil => exact along
        | cons _ _ => exact along.1
      exact ⟨agreesNext, (inductionHypothesis tablesNext agreesNext present.2).mp along⟩
    · rintro ⟨agreesNext, directs⟩
      exact (inductionHypothesis tablesNext agreesNext present.2).mpr directs

theorem shortcutAgrees_initPaging {s : PagingState} (managed : Managed s.toMemoryState)
    (mapped : BootMapped s.ram) (boot : s.cr3 = bootCr3) (complete : (initPaging s).2 = true) :
    ShortcutAgrees (initPaging s).1 := by
  intro v canonical physical found
  rw [← (owned_initPaging managed mapped boot complete).2.2,
    translate_complete managed mapped boot complete canonical] at found
  split_ifs at found
  exact Option.some.inj found

/-- The shortcut agrees with the walk, for each canonical address that is present, in every state
of a run of `map_page` after a successful `Init_Paging` exactly when each call that wrote its leaf
mapped its region to the page the shortcut gives. -/
theorem shortcut_agrees_iff_direct (s : PagingState) (managed : Managed s.toMemoryState)
    (mapped : BootMapped s.ram) (boot : s.cr3 = bootCr3) (complete : (initPaging s).2 = true)
    (calls : List MapCall) (present : ∀ call ∈ calls, hasFlag call.flags pagePresent = true) :
    ShortcutAgreesThroughout (initPaging s).1 calls ↔ DirectRun (initPaging s).1 calls :=
  shortcutAgreesThroughout_iff (owned_initPaging managed mapped boot complete).1
    (shortcutAgrees_initPaging managed mapped boot complete) present

/-- A blank machine that maps the second 2 MB of the address space to themselves. -/
theorem shortcut_agrees_iff_direct_blank :
    ShortcutAgreesThroughout (initPaging (bootPaging fun _ => 0#8)).1
        [⟨0x200000#64, 0x200000#64, 3#64⟩] ↔
      DirectRun (initPaging (bootPaging fun _ => 0#8)).1 [⟨0x200000#64, 0x200000#64, 3#64⟩] := by
  have before := beforePaging_boot zeroedTables_blank
  refine shortcut_agrees_iff_direct (bootPaging fun _ => 0#8) before.managed
    (bootMapped_bootPaging zeroedTables_blank) before.boot complete_blank.1 _ ?_
  rw [List.forall_mem_singleton]
  decide

/-- On a blank machine, mapping the second 2 MB of the address space to the third of memory makes
the walk and the shortcut differ. -/
theorem shortcut_disagrees :
    (initPaging (bootPaging fun _ => 0#8)).2 = true ∧
      translate (mapStep (initPaging (bootPaging fun _ => 0#8)).1
          ⟨0x200000#64, 0x400000#64, 3#64⟩).ram
        (mapStep (initPaging (bootPaging fun _ => 0#8)).1
          ⟨0x200000#64, 0x400000#64, 3#64⟩).kernelPml4 0x200000#64 = some 0x400000#64 ∧
      getPhysicalAddress 0x200000#64 = 0x200000#64 := by
  have before := beforePaging_boot zeroedTables_blank
  obtain ⟨tables, live, -⟩ := owned_initPaging before.managed
    (bootMapped_bootPaging zeroedTables_blank) before.boot complete_blank.1
  refine ⟨complete_blank.1, ?_, by decide⟩
  have written : Writes (initPaging (bootPaging fun _ => 0#8)).1
      ⟨0x200000#64, 0x400000#64, 3#64⟩ := writes_of_live tables live
  rw [translate_written tables (by decide) written ⟨rfl, rfl, rfl⟩]
  decide

end M12
