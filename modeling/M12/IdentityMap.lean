/-
This file asks whether the pages the allocator clears are mapped.

`get_physical_page` and `free_physical_page` clear a page through its physical
address, so it has to be identity-mapped and writable in the tables `CR3` points
to. The boot loader maps only the first 2 MB that way and `Init_Paging` adds no
other identity mapping, while the allocator works its way up from 1 MB: the page
it clears is mapped exactly when it is one of the first 256, and only as long as
no call has freed, and so cleared, the page of `kernel_pml4` itself.
-/

import M12.InitPaging

namespace M12

open ByteMemory

/-! ### What a call clears -/

/-- The checks of `free_physical_page` all pass, so that it reaches its `memset`. -/
def ReachesMemset (s : MemoryState) (page : BitVec 64) : Prop :=
  s.memoryMap ≠ 0#64 ∧ ¬ (page < s.memoryStart ∨ page ≥ s.memoryEnd) ∧ page % pageSize = 0#64 ∧
    ¬ (page - s.memoryStart) / pageSize ≥ s.totalPages ∧
    pageFree s ((page - s.memoryStart) / pageSize).toNat = false

instance (s : MemoryState) (page : BitVec 64) : Decidable (ReachesMemset s page) :=
  inferInstanceAs (Decidable (_ ∧ _ ∧ _ ∧ _ ∧ _))

/-- The page a call clears with `memset`, if it gets that far: `get_physical_page` clears the
page it is about to return, `free_physical_page` its argument. -/
def clearedPage (s : MemoryState) : MemoryCall → Option (BitVec 64)
  | .get => if (getPhysicalPage s).2 = 0#64 then none else some (getPhysicalPage s).2
  | .free page => if ReachesMemset s page then some page else none

/-- All 4096 bytes of a page translate to themselves and may be written. -/
def IdentityMapped (ram : Memory) (cr3 page : BitVec 64) : Prop :=
  ∀ offset < 4096, ∃ found, walk ram (nextTable cr3) (page + BitVec.ofNat 64 offset) = some found ∧
    found.physical = page + BitVec.ofNat 64 offset ∧ found.writable = true

/-- Along a run every page is identity-mapped and writable when it is cleared. -/
def ClearsMapped (s : MemoryState) (cr3 : BitVec 64) (calls : List MemoryCall) : Prop :=
  ∀ done call rest, calls = done ++ call :: rest →
    ∀ page, clearedPage (memoryRun s done) call = some page →
      IdentityMapped (memoryRun s done).ram cr3 page

/-- The call is going to hand out, or to take back, page number `i`. -/
def Moves (s : MemoryState) (call : MemoryCall) (i : Nat) : Prop :=
  (call = .get ∧ IsLeast ((pool s).free : Set Nat) i) ∨
    ∃ page, call = .free page ∧ UsedPage s page i

/-- Along a run every page that moves is one of the first 256, and moves before any call has
freed the page of the PML4. -/
def MovesLowPages (s : MemoryState) (cr3 : BitVec 64) (calls : List MemoryCall) : Prop :=
  ∀ done call rest, calls = done ++ call :: rest →
    ∀ i, Moves (memoryRun s done) call i → i < 256 ∧ MemoryCall.free cr3 ∉ done

theorem reachesMemset_iff {s : MemoryState} (managed : Managed s) (page : BitVec 64) :
    ReachesMemset s page ↔ ∃ i, UsedPage s page i := by
  have counter : s.usedPages - 1#64 ≠ s.usedPages := by
    intro same
    have numbers := congrArg BitVec.toNat same
    rw [BitVec.toNat_sub, BitVec.toNat_ofNat] at numbers
    have bound := s.usedPages.isLt
    omega
  constructor
  · rintro ⟨started, inRange, aligned, inside, used⟩
    rcases freePhysicalPage_cases managed page with ⟨i, usedPage, -⟩ | ⟨-, result⟩
    · exact ⟨i, usedPage⟩
    · rw [freePhysicalPage, if_neg started, if_neg inRange, if_neg (not_not.mpr aligned)] at result
      simp only [if_neg inside, used, Bool.not_false, if_true] at result
      exact absurd (congrArg MemoryState.usedPages result) counter
  · rintro ⟨i, usedPage⟩
    by_contra stopped
    rcases freePhysicalPage_cases managed page with ⟨j, -, result⟩ | ⟨unused, -⟩
    · have same : freePhysicalPage s page = s := by
        unfold freePhysicalPage
        simp only
        split_ifs with started outside misaligned beyond used
        · rfl
        · rfl
        · rfl
        · rfl
        · rw [Bool.not_eq_eq_eq_not, Bool.not_true] at used
          exact absurd ⟨started, outside, not_not.mp misaligned, beyond, used⟩ stopped
        · rfl
      rw [same] at result
      exact absurd (congrArg MemoryState.usedPages result).symm counter
    · exact unused i usedPage

/-- A call clears the page it moves. -/
theorem clearedPage_eq_some {s : MemoryState} (managed : Managed s) {call : MemoryCall}
    {page : BitVec 64} :
    clearedPage s call = some page ↔ ∃ i, Moves s call i ∧ page = pageAddress s i := by
  cases call with
  | get =>
    rw [clearedPage]
    rcases getPhysicalPage_cases managed with ⟨i, least, result⟩ | ⟨exhausted, result⟩
    · rw [result]
      simp only [if_neg (pageAddress_ne_zero managed (IndexPool.lt_total least.1)),
        Option.some.injEq]
      constructor
      · rintro rfl
        exact ⟨i, Or.inl ⟨rfl, least⟩, rfl⟩
      · rintro ⟨j, ⟨-, leastJ⟩ | ⟨_, other, -⟩, rfl⟩
        · rw [least.unique leastJ]
        · exact MemoryCall.noConfusion other
    · rw [result]
      simp only [if_true]
      refine iff_of_false nofun ?_
      rintro ⟨j, ⟨-, leastJ⟩ | ⟨_, other, -⟩, -⟩
      · have member := leastJ.1
        rw [exhausted] at member
        exact Finset.notMem_empty j member
      · exact MemoryCall.noConfusion other
  | free freed =>
    rw [clearedPage]
    constructor
    · intro cleared
      split_ifs at cleared with reaches
      obtain rfl := Option.some.inj cleared
      obtain ⟨i, used⟩ := (reachesMemset_iff managed freed).mp reaches
      exact ⟨i, Or.inr ⟨freed, rfl, used⟩, used.2.2⟩
    · rintro ⟨i, ⟨other, -⟩ | ⟨_, same, used⟩, rfl⟩
      · exact MemoryCall.noConfusion other
      · obtain rfl := MemoryCall.free.inj same
        rw [if_pos ((reachesMemset_iff managed freed).mpr ⟨i, used⟩), used.2.2]

/-! ### The first 512 GB -/

/-- The tables of the boot loader below its PML4, which map the first 2 MB to themselves and
nothing else. -/
structure LowTables (ram : Memory) : Prop where
  pdptFirst : WordTable.read ram 0x2000#64 0 = 0x3003#64
  pdptRest : ∀ j < 512, j ≠ 0 → hasFlag (WordTable.read ram 0x2000#64 j) pagePresent = false
  pd : ∀ k < 512, WordTable.read ram 0x3000#64 k = if k = 0 then 0x4003#64 else 0#64
  pt : ∀ k < 512, WordTable.read ram 0x4000#64 k = 3#64 + BitVec.ofNat 64 (4096 * k)

/-- They depend only on memory below 1 MB and off the bitmap. -/
theorem LowTables.congr {first second : Memory} (tables : LowTables first)
    (same : ∀ x : BitVec 64, x.toNat < 0x60000 → second x = first x) : LowTables second := by
  refine ⟨?_, fun j inside nonzero => ?_, fun k inside => ?_, fun k inside => ?_⟩
  · rw [read_low_congr same aligned_0x2000 (by decide) (by decide), tables.pdptFirst]
  · rw [read_low_congr same aligned_0x2000 (by decide) inside, tables.pdptRest j inside nonzero]
  · rw [read_low_congr same aligned_0x3000 (by decide) inside, tables.pd k inside]
  · rw [read_low_congr same aligned_0x4000 (by decide) inside, tables.pt k inside]

theorem pml4Index_low {v : BitVec 64} (low : v.toNat < 2 ^ 39) : pml4Index v = 0 := by
  rw [pml4Index_eq]
  omega

/-- A PML4 whose first entry is absent maps nothing there. -/
theorem walk_unlinked {ram : Memory} {root v : BitVec 64}
    (absent : hasFlag (WordTable.read ram root 0) pagePresent = false) (low : v.toNat < 2 ^ 39) :
    walk ram root v = none := by
  rw [walk]
  simp only
  rw [pml4Index_low low, absent]
  rfl

theorem hasFlag_writable_pageTable (k : Nat) :
    hasFlag (3#64 + BitVec.ofNat 64 (4096 * k)) pageWritable = true := by
  rw [hasFlag_writable, BitVec.getLsbD, Nat.testBit, Nat.shiftRight_eq_div_pow, BitVec.toNat_add,
    BitVec.toNat_ofNat, BitVec.toNat_ofNat, Nat.one_and_eq_mod_two, bne_iff_ne]
  omega

section Linked

variable {ram : Memory} (tables : LowTables ram) {root : BitVec 64}
  (linked : WordTable.read ram root 0 = 0x2003#64) {v : BitVec 64}
include tables linked

theorem walk_first_2MB (low : v.toNat < 0x200000) :
    walk ram root v = some ⟨v, true, false⟩ := by
  have first : pdptIndex v = 0 := by
    rw [pdptIndex_eq]
    omega
  have second : pdIndex v = 0 := by
    rw [pdIndex_eq]
    omega
  have offset : v % 0x200000#64 = v := by
    apply BitVec.eq_of_toNat_eq
    rw [BitVec.toNat_umod]
    exact Nat.mod_eq_of_lt low
  rw [walk]
  simp only
  rw [pml4Index_low (by omega), linked, show nextTable 0x2003#64 = 0x2000#64 from by decide, first,
    tables.pdptFirst, show nextTable 0x3003#64 = 0x3000#64 from by decide, second,
    tables.pd 0 (by decide), if_pos rfl, show nextTable 0x4003#64 = 0x4000#64 from by decide,
    tables.pt _ (ptIndex_lt v), hasFlag_present_pageTable]
  have leaf : leafTranslation v (3#64 + BitVec.ofNat 64 (4096 * ptIndex v)) 12
      [0x2003#64, 0x3003#64, 0x4003#64, 3#64 + BitVec.ofNat 64 (4096 * ptIndex v)] =
      ⟨v, true, false⟩ := by
    rw [leafTranslation, leafAddress_pageTable, offset]
    simp only [List.all_cons, List.all_nil, hasFlag_writable_pageTable]
    rfl
  rw [← leaf]
  rfl

theorem walk_above_2MB (above : 0x200000 ≤ v.toNat) (low : v.toNat < 2 ^ 39) :
    walk ram root v = none := by
  rw [walk]
  simp only
  rw [pml4Index_low low, linked, show nextTable 0x2003#64 = 0x2000#64 from by decide]
  by_cases first : pdptIndex v = 0
  · have second : pdIndex v ≠ 0 := by
      rw [pdptIndex_eq] at first
      rw [pdIndex_eq]
      omega
    rw [first, tables.pdptFirst, show nextTable 0x3003#64 = 0x3000#64 from by decide,
      tables.pd _ (pdIndex_lt v), if_neg second]
    rfl
  · rw [tables.pdptRest _ (pdptIndex_lt v) first]
    rfl

end Linked

/-! ### After Init_Paging -/

section Grown

/- The tree under the fresh PML4, and what it has grown into for the kernel's half. -/
variable {fresh grown : PagingState} (mapped : BootMapped fresh.ram)
  (root : ∀ e < 512, WordTable.read fresh.ram fresh.kernelPml4 e =
    if e = 0 then 0x2003#64 else 0#64)
  (extended : Extends fresh grown)
include mapped root extended

theorem lowPages_grown :
    nodePage grown.ram grown.kernelPml4 (.pdpt 0) = 0x2000#64 ∧
      nodePage grown.ram grown.kernelPml4 (.pd 0 0) = 0x3000#64 := by
  have live := live_fresh mapped root
  refine ⟨(extended.pages _ ((live _).mpr (Or.inr (Or.inl rfl)))).trans (nodePage_fresh_pdpt root),
    (extended.pages _ ((live _).mpr (Or.inr (Or.inr rfl)))).trans (nodePage_fresh_pd mapped root)⟩

omit mapped in
theorem linked_grown : WordTable.read grown.ram grown.kernelPml4 0 = 0x2003#64 := by
  have entry : nodeEntry fresh.ram fresh.kernelPml4 .pml4 0 = 0x2003#64 := root 0 (by decide)
  refine (extended.entries .pml4 trivial 0 (by decide) ?_).trans entry
  rw [entry]
  decide

theorem lowTables_grown {held : Finset (BitVec 64)} (owned : OwnedTables grown held)
    (alone : ∀ j, Live grown.ram grown.kernelPml4 (.pd 0 j) → j = 0) : LowTables grown.ram := by
  have live := live_fresh mapped root
  have livePdpt := (live (.pdpt 0)).mpr (Or.inr (Or.inl rfl))
  have livePd := (live (.pd 0 0)).mpr (Or.inr (Or.inr rfl))
  obtain ⟨pdptPage, pdPage⟩ := lowPages_grown mapped root extended
  refine ⟨?_, fun j inside nonzero => ?_, fun k inside => ?_, owned.pageTable⟩
  · have entry := extended.entries _ livePdpt 0 (by decide) livePd.2.2
    rw [nodeEntry, pdptPage, nodeEntry, nodePage_fresh_pdpt root] at entry
    exact entry.trans (mapped.pdpt 0 (by decide))
  · rw [← Bool.not_eq_true, ← pdptPage]
    exact fun flag => nonzero (alone j ⟨extended.live _ livePdpt, inside, flag⟩)
  · have leaf := extended.leaves 0 0 k inside
    rw [leafEntry_of_live (extended.live _ livePd), leafEntry_of_live livePd, nodeEntry, pdPage,
      nodeEntry, nodePage_fresh_pd mapped root] at leaf
    exact leaf.trans (mapped.pd k inside)

end Grown

/-- What `Init_Paging` leaves behind: the boot loader's tables under a PML4 of its own. -/
structure Started (s : PagingState) (pages : Nat) : Prop where
  managed : Managed s.toMemoryState
  tables : LowTables s.ram
  linked : WordTable.read s.ram s.cr3 0 = 0x2003#64
  pml4 : ∃ i, UsedPage s.toMemoryState s.cr3 i
  free : (pool s.toMemoryState).free = Finset.Ico 3 pages

/-- Every table but the boot loader's two sits in an allocated page. -/
theorem used_of_live {s : PagingState} {held : Finset (BitVec 64)} (owned : OwnedTables s held)
    (pdpt : nodePage s.ram s.kernelPml4 (.pdpt 0) = 0x2000#64)
    (pd : nodePage s.ram s.kernelPml4 (.pd 0 0) = 0x3000#64)
    (livePd : Live s.ram s.kernelPml4 (.pd 0 0)) {n : Node} (live : Live s.ram s.kernelPml4 n)
    (notPdpt : n ≠ .pdpt 0) (notPd : n ≠ .pd 0 0) :
    ∃ i, UsedPage s.toMemoryState (nodePage s.ram s.kernelPml4 n) i := by
  rcases owned.owned n live with low | low | used
  · exact absurd (owned.distinct n (.pdpt 0) live livePd.1 (low.trans pdpt.symm)) notPdpt
  · exact absurd (owned.distinct n _ live livePd (low.trans pd.symm)) notPd
  · exact used

theorem started_initPaging {ram : Memory} (zeroed : ZeroedTables ram)
    (complete : (initPaging (bootPaging ram)).2 = true) :
    Started (initPaging (bootPaging ram)).1 (detectedPages (setUpBootTables ram)) := by
  rcases initPaging_spec zeroed with
    ⟨enough, grown, result, owned, extended, live, free⟩ | ⟨-, failed⟩
  · have managedBoot : Managed (bootPaging ram).toMemoryState := managed_initMemory _
    have first : 0 ∈ (pool (bootPaging ram).toMemoryState).free := by
      rw [show (pool (bootPaging ram).toMemoryState).free =
        Finset.range (detectedPages (setUpBootTables ram)) from free_initMemory _]
      exact Finset.mem_range.mpr (by omega)
    have mapped := bootMapped_freshPml4 managedBoot first (bootMapped_bootPaging zeroed)
    have root := fun e (inside : e < 512) => freshPml4_root managedBoot first inside
    obtain ⟨pdpt, pd⟩ := lowPages_grown mapped root extended
    have livePd := (live (.pd 0 0)).mpr (by simp)
    have kernelPd := (live (.pd 511 510)).mpr (by simp)
    have changes := changesOnly_write owned kernelPd (show 0 < 512 by decide) 0x183#64
    have offBitmap := write_off_bitmap owned kernelPd (show 0 < 512 by decide) 0x183#64
    rw [result]
    refine ⟨managed_congr owned.managed offBitmap, ?_, ?_, ?_, ?_⟩
    · refine (lowTables_grown mapped root extended owned fun j liveJ => ?_).congr fun x low => ?_
      · have cases := (live _).mp liveJ
        simpa using cases
      · obtain ⟨i, used⟩ := used_of_live owned pdpt pd livePd kernelPd nofun (by simp)
        have place := toNat_usedPage owned.managed used
        have aligned := aligned_tablePage owned.managed (owned.owned _ kernelPd)
        refine WordTable.write_of_not_within _ aligned (by decide) _ fun close => ?_
        rw [WordTable.within_page aligned] at close
        omega
    · refine (changes .pml4 trivial 0 (by decide)).trans ?_
      rw [if_neg (fun both => Node.noConfusion both.1)]
      exact linked_grown root extended
    · obtain ⟨i, used⟩ := used_of_live owned pdpt pd livePd (n := .pml4) trivial nofun nofun
      exact ⟨i, usedPage_congr owned.managed offBitmap used⟩
    · exact (congrArg IndexPool.free (pool_congr owned.managed offBitmap)).trans free
  · rw [failed] at complete
    exact absurd complete Bool.false_ne_true

/-! ### Memory along a run of calls -/

section Run

variable {s : MemoryState} (managed : Managed s)
include managed

/-- A call writes to the bitmap and to managed pages only. -/
theorem memoryStep_low (call : MemoryCall) {x : BitVec 64} (low : x.toNat < 0x60000) :
    (memoryStep s call).ram x = s.ram x := by
  have outside {i : Nat} (inside : i < s.totalPages.toNat) :=
    not_within_page managed inside (show x.toNat < 0x100000 by omega)
  rcases memoryStep_cases managed call with ⟨i, -, least, result⟩ | ⟨i, _, -, used, result⟩ | result
  · rw [result]
    exact claimed_frame managed (IndexPool.lt_total least.1) (Or.inl low)
      (outside (IndexPool.lt_total least.1))
  · rw [result]
    exact released_frame managed used.1 (Or.inl low) (outside used.1)
  · rw [result]

/-- A page in use keeps its content until it is freed. -/
theorem memoryStep_used {call : MemoryCall} {page : BitVec 64} {i : Nat} (used : UsedPage s page i)
    (kept : call ≠ .free page) : UsedPage (memoryStep s call) page i ∧
      ∀ x, Within page 4096 x → (memoryStep s call).ram x = s.ram x := by
  have apart {j : Nat} {x : BitVec 64} (inside : j < s.totalPages.toNat) (different : j ≠ i)
      (close : Within page 4096 x) :
      (x.toNat < 0x60000 ∨ 0x80000 ≤ x.toNat) ∧ ¬ Within (pageAddress s j) 4096 x := by
    rw [used.2.2, within_page_iff managed used.1] at close
    rw [within_page_iff managed inside]
    omega
  rcases memoryStep_cases managed call with ⟨j, -, least, result⟩ |
    ⟨j, freed, named, usedJ, result⟩ | result
  · have inside := IndexPool.lt_total least.1
    rw [result]
    refine ⟨usedPage_claimed managed inside used, fun x close => ?_⟩
    have different : j ≠ i := by
      rintro rfl
      exact used.2.1 least.1
    exact claimed_frame managed inside (apart inside different close).1
      (apart inside different close).2
  · have different : j ≠ i := by
      rintro rfl
      rw [named, usedJ.2.2, ← used.2.2] at kept
      exact kept rfl
    rw [result]
    refine ⟨usedPage_released managed usedJ.1 used fun same => different ?_, fun x close => ?_⟩
    · exact pageAddress_injective managed usedJ.1 used.1 (same.symm.trans used.2.2)
    · exact released_frame managed usedJ.1 (apart usedJ.1 different close).1
        (apart usedJ.1 different close).2
  · rw [result]
    exact ⟨used, fun _ _ => rfl⟩

/-- A zeroed page stays zero: nothing but a clear reaches it. -/
theorem memoryStep_zero (call : MemoryCall) {i : Nat} (inside : i < s.totalPages.toNat)
    (zero : ∀ x, Within (pageAddress s i) 4096 x → s.ram x = 0#8) {x : BitVec 64}
    (close : Within (pageAddress s i) 4096 x) : (memoryStep s call).ram x = 0#8 := by
  have high := ((within_page_iff managed inside x).mp close).1
  rcases memoryStep_cases managed call with ⟨j, -, least, result⟩ | ⟨j, _, -, used, result⟩ | result
  · rw [result]
    by_cases inJ : Within (pageAddress s j) 4096 x
    · exact claimed_zero s j inJ
    · rw [claimed_frame managed (IndexPool.lt_total least.1) (Or.inr (by omega)) inJ]
      exact zero x close
  · rw [result]
    by_cases inJ : Within (pageAddress s j) 4096 x
    · exact fill_of_within _ _ (by decide) inJ
    · rw [released_frame managed used.1 (Or.inr (by omega)) inJ]
      exact zero x close
  · rw [result]
    exact zero x close

end Run

theorem memoryRun_low {s : MemoryState} (managed : Managed s) (calls : List MemoryCall)
    {x : BitVec 64} (low : x.toNat < 0x60000) : (memoryRun s calls).ram x = s.ram x := by
  induction calls generalizing s with
  | nil => rfl
  | cons call rest inductionHypothesis =>
    exact (inductionHypothesis (managed_memoryStep managed call)).trans
      (memoryStep_low managed call low)

theorem memoryRun_zero {s : MemoryState} (managed : Managed s) (calls : List MemoryCall) {i : Nat}
    (inside : i < s.totalPages.toNat)
    (zero : ∀ x, Within (pageAddress s i) 4096 x → s.ram x = 0#8) {x : BitVec 64}
    (close : Within (pageAddress s i) 4096 x) : (memoryRun s calls).ram x = 0#8 := by
  induction calls generalizing s with
  | nil => exact zero x close
  | cons call rest inductionHypothesis =>
    obtain ⟨total, start⟩ := memoryStep_range managed call
    have same : pageAddress (memoryStep s call) i = pageAddress s i := by
      rw [pageAddress, pageAddress, start]
    refine inductionHypothesis (managed_memoryStep managed call) (by rwa [total]) ?_
      (by rwa [same])
    rw [same]
    exact fun y => memoryStep_zero managed call inside zero

/-- The page of the PML4 keeps its content in a run that does not free it, and is zero after one
that does. -/
theorem memoryRun_used {s : MemoryState} (managed : Managed s) {page : BitVec 64} {i : Nat}
    (used : UsedPage s page i) (calls : List MemoryCall) {x : BitVec 64}
    (close : Within page 4096 x) :
    (memoryRun s calls).ram x = if MemoryCall.free page ∈ calls then 0#8 else s.ram x := by
  induction calls generalizing s with
  | nil => rfl
  | cons call rest inductionHypothesis =>
    by_cases freed : call = .free page
    · rw [if_pos (by rw [freed]; exact List.mem_cons_self), memoryRun_cons, freed, memoryStep]
      have result : freePhysicalPage s page = released s i := by
        rcases freePhysicalPage_cases managed page with ⟨j, usedJ, result⟩ | ⟨unused, -⟩
        · rw [result, usedPage_unique managed used usedJ]
        · exact absurd used (unused i)
      rw [used.2.2] at close
      rw [result]
      exact memoryRun_zero (managed_released managed used.1 used.2.1) rest used.1
        (fun y inPage => fill_of_within _ _ (by decide) inPage) close
    · obtain ⟨usedNext, same⟩ := memoryStep_used managed used freed
      rw [memoryRun_cons, inductionHypothesis (managed_memoryStep managed call) usedNext,
        same x close]
      simp [List.mem_cons, Ne.symm freed]

/-! ### The pages cleared -/

theorem nextTable_page {page : BitVec 64} (aligned : WordTable.Aligned page)
    (small : page.toNat < 2 ^ 52) : nextTable page = page := by
  have masked := tableOf_of_aligned aligned
  rw [nextTable_eq (by rwa [masked]), masked]

/-- Along a run from the state `Init_Paging` left, a managed page is identity-mapped exactly
when it is one of the first 256 and the PML4 has not been freed. -/
theorem identityMapped_iff {s : PagingState} {pages : Nat} (started : Started s pages)
    (calls : List MemoryCall) {i : Nat}
    (inside : i < (memoryRun s.toMemoryState calls).totalPages.toNat) :
    IdentityMapped (memoryRun s.toMemoryState calls).ram s.cr3
        (pageAddress (memoryRun s.toMemoryState calls) i) ↔
      i < 256 ∧ MemoryCall.free s.cr3 ∉ calls := by
  obtain ⟨root, used⟩ := started.pml4
  have managed := managed_memoryRun started.managed calls
  have aligned := aligned_tablePage started.managed (Or.inr (Or.inr ⟨root, used⟩))
  have place := toNat_usedPage started.managed used
  have few := totalPages_lt managed
  have position := toNat_pageAddress managed inside
  have tables := started.tables.congr fun x low => memoryRun_low started.managed calls low
  have byte {offset : Nat} (small : offset < 4096) :
      (pageAddress (memoryRun s.toMemoryState calls) i + BitVec.ofNat 64 offset).toNat =
        0x100000 + 4096 * i + offset := by
    rw [BitVec.toNat_add, position, BitVec.toNat_ofNat]
    omega
  have content {x : BitVec 64} (close : Within s.cr3 4096 x) :=
    memoryRun_used started.managed used calls close
  rw [IdentityMapped, nextTable_page aligned (by omega)]
  by_cases freed : MemoryCall.free s.cr3 ∈ calls
  · refine iff_of_false (fun mapped => ?_) fun both => both.2 freed
    obtain ⟨found, walked, -⟩ := mapped 0 (by decide)
    have zero : WordTable.read (memoryRun s.toMemoryState calls).ram s.cr3 0 = 0#64 :=
      WordTable.read_of_zero aligned (by decide) fun x close => by
        rw [content close, if_pos freed]
    rw [walk_unlinked (by rw [zero]; decide) (by rw [byte (by decide)]; omega)] at walked
    exact absurd walked nofun
  · have linked : WordTable.read (memoryRun s.toMemoryState calls).ram s.cr3 0 = 0x2003#64 := by
      rw [WordTable.read_congr aligned (by decide) fun x close => ?_, started.linked]
      rw [content close, if_neg freed]
    rw [and_iff_left freed]
    constructor
    · intro mapped
      by_contra high
      obtain ⟨found, walked, -⟩ := mapped 0 (by decide)
      rw [walk_above_2MB tables linked (by rw [byte (by decide)]; omega)
        (by rw [byte (by decide)]; omega)] at walked
      exact absurd walked nofun
    · intro low offset small
      exact ⟨_, walk_first_2MB tables linked (by rw [byte small]; omega), rfl, rfl⟩

/-- After a successful `Init_Paging`, every page the allocator clears in a run is identity-mapped
and writable under `CR3` exactly when every page the run moves is one of the first 256, below
2 MB, and moves before the page of the PML4 has been freed. -/
theorem clearsMapped_iff (ram : Memory) (zeroed : ZeroedTables ram)
    (complete : (initPaging (bootPaging ram)).2 = true) (calls : List MemoryCall) :
    ClearsMapped (initPaging (bootPaging ram)).1.toMemoryState
        (initPaging (bootPaging ram)).1.cr3 calls ↔
      MovesLowPages (initPaging (bootPaging ram)).1.toMemoryState
        (initPaging (bootPaging ram)).1.cr3 calls := by
  have started := started_initPaging zeroed complete
  refine forall_congr' fun done => forall_congr' fun call => forall_congr' fun rest =>
    forall_congr' fun _ => ?_
  have managed := managed_memoryRun started.managed done
  have inside {i : Nat} (moves : Moves (memoryRun
      (initPaging (bootPaging ram)).1.toMemoryState done) call i) :
      i < (memoryRun (initPaging (bootPaging ram)).1.toMemoryState done).totalPages.toNat := by
    rcases moves with ⟨-, least⟩ | ⟨_, -, used⟩
    · exact IndexPool.lt_total least.1
    · exact used.1
  constructor
  · intro mapped i moves
    rw [← identityMapped_iff started done (inside moves)]
    exact mapped _ ((clearedPage_eq_some managed).mpr ⟨i, moves, rfl⟩)
  · intro low page cleared
    obtain ⟨i, moves, rfl⟩ := (clearedPage_eq_some managed).mp cleared
    exact (identityMapped_iff started done (inside moves)).mpr (low i moves)

/-- The first page handed out after `Init_Paging` is page 3. -/
theorem movesLowPages_first {s : PagingState} {pages : Nat} (started : Started s pages)
    (enough : 3 < pages) : MovesLowPages s.toMemoryState s.cr3 [.get] := by
  intro done call rest split i moves
  rcases List.cons_eq_append_iff.mp split with ⟨rfl, rest⟩ | ⟨other, rfl, nothing⟩
  · obtain ⟨rfl, rfl⟩ := List.cons.inj rest
    refine ⟨?_, List.not_mem_nil⟩
    rcases moves with ⟨-, least⟩ | ⟨_, named, -⟩
    · rw [memoryRun, List.foldl_nil, started.free] at least
      rw [least.unique (isLeast_Ico enough)]
      decide
    · exact MemoryCall.noConfusion named
  · exact absurd nothing (by simp)

/-- On a machine whose memory is zero, the first page handed out is mapped when it is cleared. -/
theorem clearsMapped_first_page :
    ClearsMapped (initPaging (bootPaging fun _ => 0#8)).1.toMemoryState
      (initPaging (bootPaging fun _ => 0#8)).1.cr3 [.get] := by
  obtain ⟨complete, enough⟩ := complete_blank
  have started := started_initPaging zeroedTables_blank complete
  exact (clearsMapped_iff _ (fun _ _ _ => rfl) complete [.get]).mpr
    (movesLowPages_first started (by omega))

/-- When the lowest free page is the one at 2 MB, it is not mapped when it is cleared. -/
theorem clears_unmapped {s : PagingState} {pages : Nat} (started : Started s pages)
    {calls : List MemoryCall}
    (least : IsLeast ((pool (memoryRun s.toMemoryState calls)).free : Set Nat) 256) :
    clearedPage (memoryRun s.toMemoryState calls) .get = some 0x200000#64 ∧
      ¬ IdentityMapped (memoryRun s.toMemoryState calls).ram s.cr3 0x200000#64 := by
  have managed := managed_memoryRun started.managed calls
  have inside : 256 < (memoryRun s.toMemoryState calls).totalPages.toNat :=
    IndexPool.lt_total least.1
  have page : pageAddress (memoryRun s.toMemoryState calls) 256 = 0x200000#64 := by
    apply BitVec.eq_of_toNat_eq
    rw [toNat_pageAddress managed inside]
    rfl
  refine ⟨(clearedPage_eq_some managed).mpr ⟨256, Or.inl ⟨rfl, least⟩, page.symm⟩, fun mapped => ?_⟩
  rw [← page, identityMapped_iff started calls inside] at mapped
  exact lt_irrefl 256 mapped.1

/-- On a machine whose memory is zero, the 254th page handed out after `Init_Paging` is not
mapped when it is cleared. -/
theorem clears_unmapped_page :
    (initPaging (bootPaging fun _ => 0#8)).2 = true ∧
    clearedPage (memoryRun (initPaging (bootPaging fun _ => 0#8)).1.toMemoryState
        (List.replicate 253 .get)) .get = some 0x200000#64 ∧
      ¬ IdentityMapped (memoryRun (initPaging (bootPaging fun _ => 0#8)).1.toMemoryState
        (List.replicate 253 .get)).ram (initPaging (bootPaging fun _ => 0#8)).1.cr3
          0x200000#64 := by
  obtain ⟨complete, enough⟩ := complete_blank
  have started := started_initPaging zeroedTables_blank complete
  have least := isLeast_Ico (show 3 + 253 < detectedPages (setUpBootTables fun _ => 0#8) by omega)
  rw [← free_replicate_get started.managed started.free (by omega)] at least
  exact ⟨complete, clears_unmapped started least⟩

end M12
