/-
This file proves that the kernel's page tables are a finite map from 2 MB regions
to physical pages.

The abstract state is the map itself. A call of `map_page` that reaches its last
statement updates one region; a call that gives up, an allocation and a client's
free of a page it holds change nothing. The tables refine that: along every run
the processor's walk from `kernel_pml4` gives, for every address, what the map
says about its region, and what `Init_Paging` left where the map says nothing. A
call gives up only for want of pages: it needs one for each table that is missing.
-/

import M12.IdentityMap

namespace M12

open ByteMemory

/-! ### Runs of the kernel and its clients -/

/-- A call that reaches the page tables or the allocator. -/
inductive PagingCall where
  | map (virtualAddr physicalAddr flags : BitVec 64)
  | get
  | free (page : BitVec 64)
deriving DecidableEq

/-- The kernel's state with the pages its clients hold: those they obtained and have not
freed. -/
structure ClientState extends PagingState where
  held : Finset (BitVec 64)

/-- The state after one call. -/
def pagingStep (c : ClientState) : PagingCall → ClientState
  | .map virtualAddr physicalAddr flags =>
    { c with toPagingState := (mapPage c.toPagingState virtualAddr physicalAddr flags).1 }
  | .get =>
    match getPage c.toPagingState with
    | (s, page) =>
      { toPagingState := s, held := if page = 0#64 then c.held else insert page c.held }
  | .free page =>
    { toPagingState := freePage c.toPagingState page, held := c.held.erase page }

/-- What a caller may ask for: a 2 MB page below `2 ^ 52` with `PAGE_*` flags that include
`PAGE_PRESENT`, any allocation, and a free of a page the clients hold. -/
def Permitted (c : ClientState) : PagingCall → Prop
  | .map _ physicalAddr flags =>
    physicalAddr.toNat % 2 ^ 21 = 0 ∧ physicalAddr.toNat < 2 ^ 52 ∧
      flags &&& ~~~ pageFlags = 0#64 ∧ hasFlag flags pagePresent = true
  | .get => True
  | .free page => page ∈ c.held

instance (c : ClientState) (call : PagingCall) : Decidable (Permitted c call) :=
  match call with
  | .map _ _ _ => inferInstanceAs (Decidable (_ ∧ _ ∧ _ ∧ _))
  | .get => inferInstanceAs (Decidable True)
  | .free page => inferInstanceAs (Decidable (page ∈ c.held))

/-- Every call of a run is permitted when it is made. -/
def PermittedRun (c : ClientState) : List PagingCall → Prop
  | [] => True
  | call :: rest => Permitted c call ∧ PermittedRun (pagingStep c call) rest

/-- The state after a run. -/
def pagingRun (c : ClientState) (calls : List PagingCall) : ClientState := calls.foldl pagingStep c

/-! ### The abstract map -/

/-- The (PML4, PDPT, PD) index triple of an address. -/
def region (v : BitVec 64) : Nat × Nat × Nat := (pml4Index v, pdptIndex v, pdIndex v)

/-- The physical page of each region that has been mapped. -/
abbrev Regions := Nat × Nat × Nat → Option (BitVec 64)

/-- What a call does to the map: a successful `map_page` sets its region. -/
def regionsStep (c : ClientState) (regions : Regions) : PagingCall → Regions
  | .map virtualAddr physicalAddr flags =>
    if (mapPage c.toPagingState virtualAddr physicalAddr flags).2 then
      Function.update regions (region virtualAddr) (some physicalAddr)
    else regions
  | .get => regions
  | .free _ => regions

/-- The map after a run: each region has the page of the last successful `map_page` in it. -/
def regionsRun (c : ClientState) (regions : Regions) : List PagingCall → Regions
  | [] => regions
  | call :: rest => regionsRun (pagingStep c call) (regionsStep c regions call) rest

/-- The translation the map gives, over the one `start` that was there before. -/
def Regions.translate (regions : Regions) (start : BitVec 64 → Option (BitVec 64))
    (v : BitVec 64) : Option (BitVec 64) :=
  match regions (region v) with
  | some physicalAddr => some (physicalAddr + v % 0x200000#64)
  | none => start v

/-! ### One call -/

theorem flags_small {flags : BitVec 64} (made : flags &&& ~~~ pageFlags = 0#64) :
    flags.toNat < 512 := by
  have masked : flags = flags &&& pageFlags := by
    refine BitVec.eq_of_getLsbD_eq fun bit inside => ?_
    have clear := congrArg (fun word => BitVec.getLsbD word bit) made
    simp only [BitVec.getLsbD_and, BitVec.getLsbD_not, decide_eq_true inside, Bool.true_and,
      BitVec.getLsbD_zero] at clear
    rw [BitVec.getLsbD_and]
    cases held : flags.getLsbD bit with
    | false => rfl
    | true =>
      rw [held, Bool.true_and, Bool.not_eq_false'] at clear
      rw [clear, Bool.and_self]
  rw [masked, BitVec.toNat_and]
  exact lt_of_le_of_lt Nat.and_le_right (by decide)

theorem hasFlag_present_leaf {flags : BitVec 64} (present : hasFlag flags pagePresent = true)
    (physicalAddr : BitVec 64) :
    hasFlag (physicalAddr ||| flags ||| pageHuge) pagePresent = true := by
  rw [hasFlag_present, BitVec.getLsbD_or, BitVec.getLsbD_or, ← hasFlag_present flags, present,
    Bool.or_true, Bool.true_or]

/-- An entry of `map_page` whose flags include `PAGE_PRESENT` is the leaf of a 2 MB page. -/
theorem resolve_written {physicalAddr flags : BitVec 64}
    (present : hasFlag flags pagePresent = true) (v : BitVec 64) :
    resolve (physicalAddr ||| flags ||| pageHuge) v =
      some (leafAddress (physicalAddr ||| flags ||| pageHuge) v 21) := by
  rw [resolve, hasFlag_present_leaf present, hasFlag_or_huge]
  rfl

/-- It resolves to the page the call was given. -/
theorem resolve_mapped {physicalAddr flags : BitVec 64} (v : BitVec 64)
    (multiple : physicalAddr.toNat % 2 ^ 21 = 0) (below : physicalAddr.toNat < 2 ^ 52)
    (made : flags &&& ~~~ pageFlags = 0#64) (present : hasFlag flags pagePresent = true) :
    resolve (physicalAddr ||| flags ||| pageHuge) v =
      some (physicalAddr + v % 0x200000#64) := by
  have small := flags_small made
  rw [resolve_written present]
  exact congrArg some (leafAddress_huge v multiple below (by omega))

theorem region_eq_iff {v w : BitVec 64} :
    region v = region w ↔
      pml4Index v = pml4Index w ∧ pdptIndex v = pdptIndex w ∧ pdIndex v = pdIndex w := by
  rw [region, region, Prod.mk.injEq, Prod.mk.injEq]

/-- Where one leaf changes to that of a page, the map changes at its region. -/
theorem translate_update {s next : PagingState} {held : Finset (BitVec 64)}
    (tables : OwnedTables s held) (tablesNext : OwnedTables next held)
    {virtualAddr physicalAddr flags : BitVec 64}
    (multiple : physicalAddr.toNat % 2 ^ 21 = 0) (below : physicalAddr.toNat < 2 ^ 52)
    (made : flags &&& ~~~ pageFlags = 0#64) (present : hasFlag flags pagePresent = true)
    (leaves : ∀ a b c, c < 512 → leafEntry next.ram next.kernelPml4 a b c =
      if a = pml4Index virtualAddr ∧ b = pdptIndex virtualAddr ∧ c = pdIndex virtualAddr then
        physicalAddr ||| flags ||| pageHuge
      else leafEntry s.ram s.kernelPml4 a b c)
    {regions : Regions} {start : BitVec 64 → Option (BitVec 64)} {v : BitVec 64}
    (refines : translate s.ram s.kernelPml4 v = regions.translate start v) :
    translate next.ram next.kernelPml4 v =
      Regions.translate (Function.update regions (region virtualAddr) (some physicalAddr))
        start v := by
  rw [translate_eq_resolve tablesNext, leaves _ _ _ (pdIndex_lt v), Regions.translate]
  by_cases same : region v = region virtualAddr
  · rw [if_pos (region_eq_iff.mp same), same, Function.update_self]
    exact resolve_mapped v multiple below made present
  · rw [if_neg fun indices => same (region_eq_iff.mpr indices), Function.update_of_ne same,
      ← translate_eq_resolve tables]
    exact refines

/-- A permitted call keeps the tables in order and does to the translation what it does to the
map. -/
theorem pagingStep_refines {c : ClientState} (tables : OwnedTables c.toPagingState c.held)
    {call : PagingCall} (permitted : Permitted c call) {regions : Regions}
    {start : BitVec 64 → Option (BitVec 64)}
    (refines : ∀ v, translate c.ram c.kernelPml4 v = regions.translate start v) :
    OwnedTables (pagingStep c call).toPagingState (pagingStep c call).held ∧
      ∀ v, translate (pagingStep c call).ram (pagingStep c call).kernelPml4 v =
        (regionsStep c regions call).translate start v := by
  cases call with
  | map virtualAddr physicalAddr flags =>
    obtain ⟨multiple, below, made, present⟩ := permitted
    rw [pagingStep, regionsStep]
    obtain ⟨next, -, tablesNext, -, ⟨result, leaves⟩ | ⟨result, grown⟩⟩ :=
      mapPage_grows tables virtualAddr physicalAddr flags
    · rw [result]
      simp only [if_true]
      exact ⟨tablesNext, fun v =>
        translate_update tables tablesNext multiple below made present leaves (refines v)⟩
    · rw [result]
      refine ⟨tablesNext, fun v => ?_⟩
      rw [translate_of_extends tables tablesNext grown v, refines v]
      simp
  | get =>
    rw [pagingStep, regionsStep]
    rcases getPage_owned tables with ⟨next, page, result, nonNull, -, tablesNext, root, changes⟩ |
      none
    · rw [result]
      simp only [if_neg nonNull]
      refine ⟨tablesNext, fun v => ?_⟩
      rw [translate_of_extends tables tablesNext (extends_of_changesNothing changes root) v,
        refines v]
    · rw [none]
      simp only [if_true]
      exact ⟨tables, refines⟩
  | free page =>
    obtain ⟨tablesNext, changes⟩ := freePage_owned tables permitted
    refine ⟨tablesNext, fun v => ?_⟩
    exact (translate_of_extends tables tablesNext (extends_of_changesNothing changes rfl) v).trans
      (refines v)

/-! ### Every run -/

theorem pagingRun_refines {c : ClientState} (tables : OwnedTables c.toPagingState c.held)
    {calls : List PagingCall} (permitted : PermittedRun c calls) (regions : Regions)
    {start : BitVec 64 → Option (BitVec 64)}
    (refines : ∀ v, translate c.ram c.kernelPml4 v = regions.translate start v) :
    OwnedTables (pagingRun c calls).toPagingState (pagingRun c calls).held ∧
      ∀ v, translate (pagingRun c calls).ram (pagingRun c calls).kernelPml4 v =
        (regionsRun c regions calls).translate start v := by
  induction calls generalizing c regions with
  | nil => exact ⟨tables, refines⟩
  | cons call rest inductionHypothesis =>
    obtain ⟨tablesNext, refinesNext⟩ := pagingStep_refines tables permitted.1 refines
    exact inductionHypothesis tablesNext permitted.2 _ refinesNext

/-- The client's state after `Init_Paging`: nobody holds a page yet. -/
def startedPaging (ram : Memory) : ClientState where
  toPagingState := (initPaging (bootPaging ram)).1
  held := ∅

theorem owned_startedPaging {ram : Memory} (zeroed : ZeroedTables ram)
    (complete : (initPaging (bootPaging ram)).2 = true) :
    OwnedTables (startedPaging ram).toPagingState ∅ := by
  rcases initPaging_spec zeroed with ⟨-, grown, result, tables, -, live, -⟩ | ⟨-, failed⟩
  · obtain ⟨tablesLeaf, -⟩ := leaf_owned tables ((live _).mpr (Or.inr (Or.inr rfl)))
      (show 0 < 512 by decide) (show hasFlag 0x183#64 pageHuge = true by decide)
    rw [startedPaging, result]
    exact tablesLeaf.switch _
  · rw [failed] at complete
    exact absurd complete Bool.false_ne_true

theorem card_free_startedPaging {ram : Memory} (zeroed : ZeroedTables ram)
    (complete : (initPaging (bootPaging ram)).2 = true) :
    (pool (startedPaging ram).toMemoryState).free.card = detectedPages (setUpBootTables ram) - 3 :=
  (congrArg Finset.card (started_initPaging zeroed complete).free).trans (Nat.card_Ico 3 _)

/-- The page tables refine the map of regions. After a successful `Init_Paging` and any run of
permitted calls, the walk of every address gives the page of the last successful `map_page` in
its region, or what `Init_Paging` left there; a `map_page` succeeds unless there are fewer free
pages than tables missing on its way; and one that gives up changes the translation of no
address. -/
theorem page_tables_refine_regions (ram : Memory) (zeroed : ZeroedTables ram)
    (complete : (initPaging (bootPaging ram)).2 = true) (calls : List PagingCall)
    (permitted : PermittedRun (startedPaging ram) calls) :
    (∀ v, translate (pagingRun (startedPaging ram) calls).ram
        (pagingRun (startedPaging ram) calls).kernelPml4 v =
      (regionsRun (startedPaging ram) (fun _ => none) calls).translate
        (translate (startedPaging ram).ram (startedPaging ram).kernelPml4) v) ∧
    (∀ virtualAddr physicalAddr flags,
      (mapPage (pagingRun (startedPaging ram) calls).toPagingState virtualAddr physicalAddr
          flags).2 = true ↔
        missingTables (pagingRun (startedPaging ram) calls).toPagingState (pml4Index virtualAddr)
            (pdptIndex virtualAddr) ≤
          (pool (pagingRun (startedPaging ram) calls).toMemoryState).free.card) ∧
    ∀ virtualAddr physicalAddr flags next,
      mapPage (pagingRun (startedPaging ram) calls).toPagingState virtualAddr physicalAddr flags =
        (next, false) →
      ∀ v, translate next.ram next.kernelPml4 v =
        translate (pagingRun (startedPaging ram) calls).ram
          (pagingRun (startedPaging ram) calls).kernelPml4 v := by
  obtain ⟨tables, refines⟩ := pagingRun_refines (owned_startedPaging zeroed complete) permitted
    (fun _ => none) fun _ => rfl
  refine ⟨refines, mapPage_succeeds_iff tables, fun virtualAddr physicalAddr flags next failed v =>
    ?_⟩
  obtain ⟨other, -, tablesOther, -, ⟨result, -⟩ | ⟨result, grown⟩⟩ :=
    mapPage_grows tables virtualAddr physicalAddr flags
  · rw [failed, Prod.mk.injEq] at result
    exact absurd result.2 Bool.false_ne_true
  · obtain rfl : next = other := congrArg Prod.fst (failed.symm.trans result)
    exact translate_of_extends tables tablesOther grown v

theorem pagingRun_nil (c : ClientState) : pagingRun c [] = c := rfl

/-- On a machine whose memory is zero, with the 512 MB the allocator then assumes, the second
gigabyte is mapped, and the walk finds the page. -/
theorem page_tables_refine_regions_blank :
    (mapPage (startedPaging fun _ => 0#8).toPagingState 0x40000000#64 0x200000#64 3#64).2 = true ∧
      translate (pagingRun (startedPaging fun _ => 0#8)
          [.map 0x40000000#64 0x200000#64 3#64, .get]).ram
        (pagingRun (startedPaging fun _ => 0#8)
          [.map 0x40000000#64 0x200000#64 3#64, .get]).kernelPml4 0x40000123#64 =
        some 0x200123#64 := by
  obtain ⟨complete, enough⟩ := complete_blank
  have free := card_free_startedPaging zeroedTables_blank complete
  have succeeds := (page_tables_refine_regions _ zeroedTables_blank complete [] trivial).2.1
    0x40000000#64 0x200000#64 3#64
  have refines := (page_tables_refine_regions _ zeroedTables_blank complete
    [.map 0x40000000#64 0x200000#64 3#64, .get]
    ⟨⟨by decide, by decide, by decide, by decide⟩, trivial, trivial⟩).1 0x40000123#64
  rw [pagingRun_nil, free] at succeeds
  generalize startedPaging (fun _ => 0#8) = c at succeeds refines ⊢
  have mapped := succeeds.mpr ((missingTables_le_two _ _ _).trans (by omega))
  refine ⟨mapped, refines.trans ?_⟩
  have recorded : regionsRun c (fun _ => none) [.map 0x40000000#64 0x200000#64 3#64, .get] =
      Function.update (fun _ => none) (region 0x40000000#64) (some 0x200000#64) := if_pos mapped
  rw [recorded, Regions.translate, show region 0x40000123#64 = region 0x40000000#64 by decide,
    Function.update_self]
  rfl

end M12
