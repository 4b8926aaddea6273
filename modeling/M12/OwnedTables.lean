/-
This file proves that the kernel's page tables stay a tree of pages that nobody
else owns.

`OwnedTables` is the invariant. Every live table sits in a page of its own, one
that the allocator has marked used and that no client holds, or in one of the two
tables the boot loader left below 1 MB. Because the allocator only hands out and
only clears pages outside the tree, the calls of a client change no entry of a
live table, and linking a page the allocator has just handed out adds one empty
node. Under the invariant the processor's walk is decided by the leaf entry of
the address's 2 MB region alone.
-/

import M12.TableTree
import M12.HeldPages

namespace M12

open ByteMemory

/-! ### Pages of tables -/

/-- A page a live table may sit in: the boot loader's PDPT or PD, or an allocated page. -/
def TablePage (s : MemoryState) (page : BitVec 64) : Prop :=
  page = 0x2000#64 ∨ page = 0x3000#64 ∨ ∃ i, UsedPage s page i

section TablePages

variable {s : MemoryState} (managed : Managed s)
include managed

theorem aligned_pageAddress {i : Nat} (inside : i < s.totalPages.toNat) :
    WordTable.Aligned (pageAddress s i) := by
  unfold WordTable.Aligned
  rw [toNat_pageAddress managed inside]
  omega

/-- Where a table's page can lie. -/
theorem toNat_tablePage {page : BitVec 64} (table : TablePage s page) :
    page.toNat % 4096 = 0 ∧ page.toNat < 2 ^ 33 ∧
      (page.toNat = 0x2000 ∨ page.toNat = 0x3000 ∨ 0x100000 ≤ page.toNat) := by
  rcases table with rfl | rfl | ⟨i, used⟩
  · exact ⟨by decide, by decide, Or.inl rfl⟩
  · exact ⟨by decide, by decide, Or.inr (Or.inl rfl)⟩
  · have place := toNat_usedPage managed used
    omega

theorem aligned_tablePage {page : BitVec 64} (table : TablePage s page) :
    WordTable.Aligned page := (toNat_tablePage managed table).1

/-- The bytes of a table lie off the bitmap and off the page table of the boot loader. -/
theorem within_tablePage {page x : BitVec 64} (table : TablePage s page)
    (close : Within page 4096 x) :
    (x.toNat < 0x60000 ∨ 0x80000 ≤ x.toNat) ∧ ¬ Within 0x4000#64 4096 x := by
  have place := toNat_tablePage managed table
  rw [WordTable.within_page (aligned_tablePage managed table)] at close
  rw [WordTable.within_page (show WordTable.Aligned 0x4000#64 by decide), BitVec.toNat_ofNat]
  omega

/-- A free page is not a table's page. -/
theorem ne_of_tablePage {page : BitVec 64} (table : TablePage s page) {i : Nat}
    (free : i ∈ (pool s).free) : page ≠ pageAddress s i := by
  have inside : i < s.totalPages.toNat := IndexPool.lt_total free
  have place := toNat_pageAddress managed inside
  rintro rfl
  rcases table with low | low | ⟨j, used⟩
  · rw [low, BitVec.toNat_ofNat] at place
    omega
  · rw [low, BitVec.toNat_ofNat] at place
    omega
  · obtain rfl := pageAddress_injective managed inside used.1 used.2.2
    exact used.2.1 free

end TablePages

/-! ### The invariant -/

/-- The tables under `kernel_pml4` are a tree of pages none of which is free, held by a client
or used twice, and their leaves are 2 MB pages or the boot loader's page table. -/
structure OwnedTables (s : PagingState) (held : Finset (BitVec 64)) : Prop where
  managed : Managed s.toMemoryState
  heldUsed : ∀ page ∈ held, ∃ i, UsedPage s.toMemoryState page i
  owned : ∀ n, Live s.ram s.kernelPml4 n →
    TablePage s.toMemoryState (nodePage s.ram s.kernelPml4 n)
  notHeld : ∀ n, Live s.ram s.kernelPml4 n → nodePage s.ram s.kernelPml4 n ∉ held
  distinct : ∀ m n, Live s.ram s.kernelPml4 m → Live s.ram s.kernelPml4 n →
    nodePage s.ram s.kernelPml4 m = nodePage s.ram s.kernelPml4 n → m = n
  links : ∀ i j, Live s.ram s.kernelPml4 (.pd i j) →
    hasFlag (nodeEntry s.ram s.kernelPml4 (.pdpt i) j) pageHuge = false
  leaves : ∀ i j k, k < 512 → hasFlag (leafEntry s.ram s.kernelPml4 i j k) pagePresent = true →
    hasFlag (leafEntry s.ram s.kernelPml4 i j k) pageHuge = true ∨
      leafEntry s.ram s.kernelPml4 i j k = 0x4003#64
  pageTable : ∀ k < 512, WordTable.read s.ram 0x4000#64 k = 3#64 + BitVec.ofNat 64 (4096 * k)

/-- The invariant does not depend on `CR3`. -/
theorem OwnedTables.switch {s : PagingState} {held : Finset (BitVec 64)}
    (tables : OwnedTables s held) (cr3 : BitVec 64) : OwnedTables { s with cr3 := cr3 } held :=
  ⟨tables.managed, tables.heldUsed, tables.owned, tables.notHeld, tables.distinct, tables.links,
    tables.leaves, tables.pageTable⟩

/-- Clients may hold any used pages that are not tables. -/
theorem OwnedTables.hold {s : PagingState} (tables : OwnedTables s ∅) {held : Finset (BitVec 64)}
    (heldUsed : ∀ page ∈ held, ∃ i, UsedPage s.toMemoryState page i)
    (notHeld : ∀ n, Live s.ram s.kernelPml4 n → nodePage s.ram s.kernelPml4 n ∉ held) :
    OwnedTables s held :=
  ⟨tables.managed, heldUsed, tables.owned, notHeld, tables.distinct, tables.links, tables.leaves,
    tables.pageTable⟩

/-- The tree may have grown, but no live table moved and no leaf entry changed. -/
structure Extends (s next : PagingState) : Prop where
  root : next.kernelPml4 = s.kernelPml4
  live : ∀ n, Live s.ram s.kernelPml4 n → Live next.ram next.kernelPml4 n
  pages : ∀ n, Live s.ram s.kernelPml4 n →
    nodePage next.ram next.kernelPml4 n = nodePage s.ram s.kernelPml4 n
  entries : ∀ n, Live s.ram s.kernelPml4 n → ∀ e < 512,
    hasFlag (nodeEntry s.ram s.kernelPml4 n e) pagePresent = true →
      nodeEntry next.ram next.kernelPml4 n e = nodeEntry s.ram s.kernelPml4 n e
  leaves : ∀ i j k, k < 512 →
    leafEntry next.ram next.kernelPml4 i j k = leafEntry s.ram s.kernelPml4 i j k

theorem Extends.refl (s : PagingState) : Extends s s :=
  ⟨rfl, fun _ live => live, fun _ _ => rfl, fun _ _ _ _ _ => rfl, fun _ _ _ _ => rfl⟩

theorem Extends.trans {first second third : PagingState} (early : Extends first second)
    (late : Extends second third) : Extends first third where
  root := late.root.trans early.root
  live n live := late.live n (early.live n live)
  pages n live := (late.pages n (early.live n live)).trans (early.pages n live)
  entries n live e inside present := by
    have first := early.entries n live e inside present
    rw [← first] at present ⊢
    exact late.entries n (early.live n live) e inside present
  leaves i j k inside := (late.leaves i j k inside).trans (early.leaves i j k inside)

/-! ### The walk under the invariant -/

/-- What the leaf entry of a region makes of an address in it. -/
def resolve (leaf v : BitVec 64) : Option (BitVec 64) :=
  if !hasFlag leaf pagePresent then none
  else if hasFlag leaf pageHuge then some (leafAddress leaf v 21)
  else some (v % 0x200000#64)

/-- The page table of the boot loader maps its 2 MB to themselves. -/
theorem leafAddress_pageTable (v : BitVec 64) :
    leafAddress (3#64 + BitVec.ofNat 64 (4096 * ptIndex v)) v 12 = v % 0x200000#64 := by
  have index := ptIndex_lt v
  apply BitVec.eq_of_toNat_eq
  rw [toNat_leafAddress _ _ (by decide), BitVec.toNat_umod, BitVec.toNat_add, BitVec.toNat_ofNat,
    BitVec.toNat_ofNat, BitVec.toNat_ofNat, ptIndex_eq, show 0x200000 % 2 ^ 64 = 0x200000 from rfl]
  omega

theorem hasFlag_present_pageTable (k : Nat) :
    hasFlag (3#64 + BitVec.ofNat 64 (4096 * k)) pagePresent = true := by
  rw [hasFlag_present, BitVec.getLsbD, Nat.testBit_zero, BitVec.toNat_add, BitVec.toNat_ofNat,
    BitVec.toNat_ofNat, decide_eq_true_eq]
  omega

/-- The processor and the kernel follow a link to the same live table. -/
theorem nextTable_of_live {s : PagingState} {held : Finset (BitVec 64)}
    (tables : OwnedTables s held) {parent child : Node} {index : Nat}
    (below : Below parent index child) (live : Live s.ram s.kernelPml4 child) :
    nextTable (nodeEntry s.ram s.kernelPml4 parent index) = nodePage s.ram s.kernelPml4 child := by
  have page := nodePage_below below s.ram s.kernelPml4
  have place := toNat_tablePage tables.managed (tables.owned child live)
  rw [page] at place ⊢
  exact nextTable_eq (by omega)

/-- Under the invariant the walk is decided by the leaf entry of the address's region. -/
theorem translate_eq_resolve {s : PagingState} {held : Finset (BitVec 64)}
    (tables : OwnedTables s held) (v : BitVec 64) :
    translate s.ram s.kernelPml4 v =
      resolve (leafEntry s.ram s.kernelPml4 (pml4Index v) (pdptIndex v) (pdIndex v)) v := by
  rw [translate, walk]
  simp only
  rw [show WordTable.read s.ram s.kernelPml4 (pml4Index v) =
    nodeEntry s.ram s.kernelPml4 .pml4 (pml4Index v) from rfl]
  cases present4 : hasFlag (nodeEntry s.ram s.kernelPml4 .pml4 (pml4Index v)) pagePresent with
  | false =>
    rw [leafEntry_of_not_live fun live => Bool.noConfusion (present4.symm.trans live.1.2)]
    rfl
  | true =>
    have live4 : Live s.ram s.kernelPml4 (.pdpt (pml4Index v)) := ⟨pml4Index_lt v, present4⟩
    rw [nextTable_of_live tables (Below.pdpt _) live4,
      show WordTable.read s.ram (nodePage s.ram s.kernelPml4 (.pdpt (pml4Index v)))
        (pdptIndex v) = nodeEntry s.ram s.kernelPml4 (.pdpt (pml4Index v)) (pdptIndex v) from rfl]
    cases present3 : hasFlag (nodeEntry s.ram s.kernelPml4 (.pdpt (pml4Index v)) (pdptIndex v))
        pagePresent with
    | false =>
      rw [leafEntry_of_not_live fun live => Bool.noConfusion (present3.symm.trans live.2.2)]
      rfl
    | true =>
      have live3 : Live s.ram s.kernelPml4 (.pd (pml4Index v) (pdptIndex v)) :=
        ⟨live4, pdptIndex_lt v, present3⟩
      rw [tables.links _ _ live3, nextTable_of_live tables (Below.pd _ _) live3,
        show WordTable.read s.ram (nodePage s.ram s.kernelPml4 (.pd (pml4Index v)
          (pdptIndex v))) (pdIndex v) = leafEntry s.ram s.kernelPml4 (pml4Index v) (pdptIndex v)
            (pdIndex v) from (leafEntry_of_live live3 _).symm]
      cases present2 : hasFlag (leafEntry s.ram s.kernelPml4 (pml4Index v) (pdptIndex v)
          (pdIndex v)) pagePresent with
      | false =>
        rw [resolve, present2]
        rfl
      | true =>
        rw [resolve, present2]
        cases huge : hasFlag (leafEntry s.ram s.kernelPml4 (pml4Index v) (pdptIndex v)
            (pdIndex v)) pageHuge with
        | true => rfl
        | false =>
          have small := (tables.leaves _ _ _ (pdIndex_lt v) present2).resolve_left (by
            rw [huge]
            exact Bool.noConfusion)
          rw [small, show nextTable 0x4003#64 = 0x4000#64 from by decide,
            tables.pageTable _ (ptIndex_lt v), hasFlag_present_pageTable]
          exact congrArg some (leafAddress_pageTable v)

theorem translate_of_extends {s next : PagingState} {held heldNext : Finset (BitVec 64)}
    (tables : OwnedTables s held) (tablesNext : OwnedTables next heldNext)
    (same : Extends s next) (v : BitVec 64) :
    translate next.ram next.kernelPml4 v = translate s.ram s.kernelPml4 v := by
  rw [translate_eq_resolve tables, translate_eq_resolve tablesNext,
    same.leaves _ _ _ (pdIndex_lt v)]

/-! ### What leaves the tables alone -/

/-- A change that touches no live table, and keeps the pages of the tables and of the clients in
use, keeps the invariant. -/
theorem OwnedTables.frame {s : PagingState} {held : Finset (BitVec 64)}
    (tables : OwnedTables s held) (next : PagingState) (heldNext : Finset (BitVec 64))
    (root : next.kernelPml4 = s.kernelPml4) (managed : Managed next.toMemoryState)
    (owned : ∀ n, Live s.ram s.kernelPml4 n →
      TablePage next.toMemoryState (nodePage s.ram s.kernelPml4 n))
    (heldUsed : ∀ page ∈ heldNext, ∃ i, UsedPage next.toMemoryState page i)
    (notHeld : ∀ n, Live s.ram s.kernelPml4 n → nodePage s.ram s.kernelPml4 n ∉ heldNext)
    (same : ∀ n, Live s.ram s.kernelPml4 n → ∀ x, Within (nodePage s.ram s.kernelPml4 n) 4096 x →
      next.ram x = s.ram x)
    (samePageTable : ∀ x, Within 0x4000#64 4096 x → next.ram x = s.ram x) :
    OwnedTables next heldNext ∧ ChangesNothing s.ram next.ram s.kernelPml4 := by
  have changes : ChangesNothing s.ram next.ram s.kernelPml4 := by
    intro n live e inside
    exact WordTable.read_congr (aligned_tablePage tables.managed (tables.owned n live)) inside
      (same n live)
  have live (n : Node) := live_unchanged changes n
  refine ⟨⟨managed, heldUsed, ?_, ?_, ?_, ?_, ?_, ?_⟩, changes⟩
  · rw [root]
    intro n liveNext
    rw [nodePage_unchanged changes ((live n).mp liveNext)]
    exact owned n ((live n).mp liveNext)
  · rw [root]
    intro n liveNext
    rw [nodePage_unchanged changes ((live n).mp liveNext)]
    exact notHeld n ((live n).mp liveNext)
  · rw [root]
    intro m n liveM liveN samePage
    rw [nodePage_unchanged changes ((live m).mp liveM),
      nodePage_unchanged changes ((live n).mp liveN)] at samePage
    exact tables.distinct m n ((live m).mp liveM) ((live n).mp liveN) samePage
  · rw [root]
    intro i j liveNext
    have old := (live _).mp liveNext
    have above : Live s.ram s.kernelPml4 (.pdpt i) := old.1
    rw [nodeEntry, nodePage_unchanged changes above, changes _ above j old.2.1]
    exact tables.links i j old
  · rw [root]
    intro i j k inside
    rw [leafEntry_unchanged changes i j inside]
    exact tables.leaves i j k inside
  · intro k inside
    rw [WordTable.read_congr (by decide) inside samePageTable]
    exact tables.pageTable k inside

theorem extends_of_changesNothing {s next : PagingState}
    (changes : ChangesNothing s.ram next.ram s.kernelPml4)
    (root : next.kernelPml4 = s.kernelPml4) : Extends s next := by
  refine ⟨root, ?_, ?_, ?_, ?_⟩ <;> rw [root]
  · exact fun n => (live_unchanged changes n).mpr
  · exact fun n => nodePage_unchanged changes
  · intro n live e inside _
    rw [nodeEntry, nodePage_unchanged changes live, changes n live e inside]
  · exact fun i j k => leafEntry_unchanged changes i j

theorem getPage_cases {s : PagingState} (managed : Managed s.toMemoryState) :
    (∃ i, IsLeast ((pool s.toMemoryState).free : Set Nat) i ∧
        getPage s = ({ s with toMemoryState := claimed s.toMemoryState i },
          pageAddress s.toMemoryState i)) ∨
      ((pool s.toMemoryState).free = ∅ ∧ getPage s = (s, 0#64)) := by
  unfold getPage
  rcases getPhysicalPage_cases managed with ⟨i, least, result⟩ | ⟨exhausted, result⟩
  · exact Or.inl ⟨i, least, by rw [result]⟩
  · exact Or.inr ⟨exhausted, by rw [result]⟩

/-- The bytes of a table are neither in the bitmap nor in a page that is not the table's. -/
theorem OwnedTables.off_page {s : PagingState} {held : Finset (BitVec 64)}
    (tables : OwnedTables s held) {i : Nat} (inside : i < s.totalPages.toNat) {n : Node}
    (live : Live s.ram s.kernelPml4 n)
    (apart : nodePage s.ram s.kernelPml4 n ≠ pageAddress s.toMemoryState i) {x : BitVec 64}
    (close : Within (nodePage s.ram s.kernelPml4 n) 4096 x) :
    (x.toNat < 0x60000 ∨ 0x80000 ≤ x.toNat) ∧
      ¬ Within (pageAddress s.toMemoryState i) 4096 x := by
  have place := tables.owned n live
  refine ⟨(within_tablePage tables.managed place close).1, fun inPage => apart ?_⟩
  exact WordTable.eq_of_within (aligned_tablePage tables.managed place)
    (aligned_pageAddress tables.managed inside) close inPage

/-- The client's view of `get_physical_page`: a page that is zero and belongs to nobody, with no
change to the tables, or nothing. -/
theorem getPage_owned {s : PagingState} {held : Finset (BitVec 64)} (tables : OwnedTables s held) :
    (∃ next page, getPage s = (next, page) ∧ page ≠ 0#64 ∧ page ∉ held ∧
        OwnedTables next (insert page held) ∧ next.kernelPml4 = s.kernelPml4 ∧
        ChangesNothing s.ram next.ram s.kernelPml4) ∨
      getPage s = (s, 0#64) := by
  have managed := tables.managed
  rcases getPage_cases managed with ⟨i, least, result⟩ | ⟨-, result⟩
  · refine Or.inl ⟨_, _, result, ?_⟩
    have inside : i < s.totalPages.toNat := IndexPool.lt_total least.1
    have fresh : pageAddress s.toMemoryState i ∉ held := by
      intro member
      obtain ⟨j, used⟩ := tables.heldUsed _ member
      exact ne_of_tablePage managed (Or.inr (Or.inr ⟨j, used⟩)) least.1 rfl
    have apart (n : Node) (live : Live s.ram s.kernelPml4 n) :=
      ne_of_tablePage managed (tables.owned n live) least.1
    refine ⟨pageAddress_ne_zero managed inside, fresh, ?_⟩
    have framed := tables.frame { s with toMemoryState := claimed s.toMemoryState i }
      (insert (pageAddress s.toMemoryState i) held) rfl (managed_claimed managed least.1)
      ?_ ?_ ?_ ?_ ?_
    · exact ⟨framed.1, rfl, framed.2⟩
    · intro n live
      exact (tables.owned n live).imp id (Or.imp id fun ⟨j, used⟩ =>
        ⟨j, usedPage_claimed managed inside used⟩)
    · intro page member
      rcases Finset.mem_insert.mp member with rfl | member
      · exact ⟨i, usedPage_claimed_self managed inside⟩
      · obtain ⟨j, used⟩ := tables.heldUsed page member
        exact ⟨j, usedPage_claimed managed inside used⟩
    · intro n live member
      rcases Finset.mem_insert.mp member with same | member
      · exact apart n live same
      · exact tables.notHeld n live member
    · intro n live x close
      obtain ⟨offBitmap, offPage⟩ := tables.off_page inside live (apart n live) close
      exact claimed_frame managed inside offBitmap offPage
    · intro x close
      rw [WordTable.within_page (by decide), BitVec.toNat_ofNat] at close
      exact claimed_frame managed inside (by omega) (not_within_page managed inside (by omega))
  · exact Or.inr result

/-- A client that frees a page it holds changes no table. -/
theorem freePage_owned {s : PagingState} {held : Finset (BitVec 64)} (tables : OwnedTables s held)
    {page : BitVec 64} (member : page ∈ held) :
    OwnedTables (freePage s page) (held.erase page) ∧
      ChangesNothing s.ram (freePage s page).ram s.kernelPml4 := by
  have managed := tables.managed
  obtain ⟨i, used⟩ := tables.heldUsed page member
  have inside := used.1
  have apart (n : Node) (live : Live s.ram s.kernelPml4 n) :
      nodePage s.ram s.kernelPml4 n ≠ pageAddress s.toMemoryState i := by
    rw [← used.2.2]
    rintro rfl
    exact tables.notHeld n live member
  have result : freePage s page = { s with toMemoryState := released s.toMemoryState i } := by
    rw [freePage]
    rcases freePhysicalPage_cases managed page with ⟨j, usedJ, result⟩ | ⟨unused, -⟩
    · rw [result, usedPage_unique managed used usedJ]
    · exact absurd used (unused i)
  rw [result]
  refine tables.frame { s with toMemoryState := released s.toMemoryState i } (held.erase page)
    rfl (managed_released managed inside used.2.1) ?_ ?_ ?_ ?_ ?_
  · intro n live
    exact (tables.owned n live).imp id (Or.imp id fun ⟨j, usedJ⟩ =>
      ⟨j, usedPage_released managed inside usedJ (apart n live)⟩)
  · intro other otherMember
    obtain ⟨different, otherMember⟩ := Finset.mem_erase.mp otherMember
    obtain ⟨j, usedJ⟩ := tables.heldUsed other otherMember
    rw [used.2.2] at different
    exact ⟨j, usedPage_released managed inside usedJ different⟩
  · intro n live otherMember
    exact tables.notHeld n live (Finset.mem_of_mem_erase otherMember)
  · intro n live x close
    obtain ⟨offBitmap, offPage⟩ := tables.off_page inside live (apart n live) close
    exact released_frame managed inside offBitmap offPage
  · intro x close
    rw [WordTable.within_page (by decide), BitVec.toNat_ofNat] at close
    exact released_frame managed inside (by omega) (not_within_page managed inside (by omega))

/-! ### What the kernel writes -/

theorem tablePage_congr {s : MemoryState} (managed : Managed s) {ram : Memory}
    (same : ∀ x : BitVec 64, 0x60000 ≤ x.toNat → x.toNat < 0x80000 → ram x = s.ram x)
    {page : BitVec 64} (table : TablePage s page) : TablePage { s with ram := ram } page :=
  table.imp id (Or.imp id fun ⟨i, used⟩ => ⟨i, usedPage_congr managed same used⟩)

/-- Writing to a page the caller holds changes no table. -/
theorem OwnedTables.writeHeld {s : PagingState} {held : Finset (BitVec 64)}
    (tables : OwnedTables s held) {page : BitVec 64} (member : page ∈ held) {ram : Memory}
    (same : ∀ x, ¬ Within page 4096 x → ram x = s.ram x) :
    OwnedTables { s with ram := ram } held ∧ ChangesNothing s.ram ram s.kernelPml4 := by
  have managed := tables.managed
  obtain ⟨i, used⟩ := tables.heldUsed page member
  have place : TablePage s.toMemoryState page := Or.inr (Or.inr ⟨i, used⟩)
  have offBitmap (x : BitVec 64) (low : 0x60000 ≤ x.toNat) (high : x.toNat < 0x80000) :
      ram x = s.ram x := by
    refine same x fun close => ?_
    have bounds := (within_tablePage managed place close).1
    omega
  refine tables.frame { s with ram := ram } held rfl (managed_congr managed offBitmap) ?_ ?_
    tables.notHeld ?_ ?_
  · intro n live
    exact tablePage_congr managed offBitmap (tables.owned n live)
  · intro other otherMember
    obtain ⟨j, usedJ⟩ := tables.heldUsed other otherMember
    exact ⟨j, usedPage_congr managed offBitmap usedJ⟩
  · intro n live x close
    refine same x fun inPage => ?_
    have equal := WordTable.eq_of_within (aligned_tablePage managed (tables.owned n live))
      (aligned_tablePage managed place) close inPage
    exact tables.notHeld n live (equal ▸ member)
  · intro x close
    exact same x fun inPage => (within_tablePage managed place inPage).2 close

/-- A new node in a page its holder gives up, with a link that is not a leaf, keeps the
invariant. -/
theorem OwnedTables.link {s : PagingState} {held : Finset (BitVec 64)} {page : BitVec 64}
    (tables : OwnedTables s (insert page held)) (fresh : page ∉ held) {next : Memory}
    {child : Node} {value : BitVec 64} (linked : Linked s.ram next s.kernelPml4 child value)
    (target : tableOf value = page) (inner : hasFlag value pageHuge = false)
    (offBitmap : ∀ x : BitVec 64, 0x60000 ≤ x.toNat → x.toNat < 0x80000 → next x = s.ram x)
    (pageTable : ∀ k < 512,
      WordTable.read next 0x4000#64 k = 3#64 + BitVec.ofNat 64 (4096 * k)) :
    OwnedTables { s with ram := next } held := by
  have managed := tables.managed
  have member : page ∈ insert page held := Finset.mem_insert_self page held
  have notPage {n : Node} (live : Live s.ram s.kernelPml4 n) :
      nodePage s.ram s.kernelPml4 n ≠ page := by
    rintro rfl
    exact tables.notHeld n live member
  have pageChild : nodePage next s.kernelPml4 child = page := linked.page.trans target
  refine ⟨managed_congr managed offBitmap, ?_, ?_, ?_, ?_, ?_, ?_, pageTable⟩
  · intro other otherMember
    obtain ⟨j, used⟩ := tables.heldUsed other (Finset.mem_insert_of_mem otherMember)
    exact ⟨j, usedPage_congr managed offBitmap used⟩
  · intro n live
    refine tablePage_congr managed offBitmap ?_
    rcases (linked.live n).mp live with old | rfl
    · rw [linked.pages n old]
      exact tables.owned n old
    · rw [pageChild]
      exact Or.inr (Or.inr (tables.heldUsed page member))
  · intro n live otherMember
    rcases (linked.live n).mp live with old | rfl
    · rw [linked.pages n old] at otherMember
      exact tables.notHeld n old (Finset.mem_insert_of_mem otherMember)
    · rw [pageChild] at otherMember
      exact fresh otherMember
  · intro m n liveM liveN samePage
    rcases (linked.live m).mp liveM with oldM | rfl <;>
      rcases (linked.live n).mp liveN with oldN | rfl
    · rw [linked.pages m oldM, linked.pages n oldN] at samePage
      exact tables.distinct m n oldM oldN samePage
    · rw [linked.pages m oldM, pageChild] at samePage
      exact absurd samePage (notPage oldM)
    · rw [linked.pages n oldN, pageChild] at samePage
      exact absurd samePage.symm (notPage oldN)
    · rfl
  · intro i j live
    rw [linked.links i j live]
    split_ifs with new
    · exact inner
    · exact tables.links i j (((linked.live _).mp live).resolve_right new)
  · intro i j k inside
    rw [linked.leaves i j k inside]
    exact tables.leaves i j k inside

section EntryWrite

/- Entry `index` of the live table `target` is written. -/
variable {s : PagingState} {held : Finset (BitVec 64)} (tables : OwnedTables s held)
  {target : Node} (live : Live s.ram s.kernelPml4 target) {index : Nat} (inside : index < 512)
  (value : BitVec 64)
include tables live inside

/-- Because live tables are distinct, the write changes one entry of the tree. -/
theorem changesOnly_write :
    ChangesOnly s.ram (WordTable.write s.ram (nodePage s.ram s.kernelPml4 target) index value)
      s.kernelPml4 target index value := by
  intro n liveN e eInside
  have managed := tables.managed
  have alignedN := aligned_tablePage managed (tables.owned n liveN)
  have alignedTarget := aligned_tablePage managed (tables.owned target live)
  split_ifs with here
  · rw [here.1, here.2, WordTable.read_write_self]
  · refine WordTable.read_write_other _ alignedTarget alignedN inside eInside value ?_
    rintro ⟨samePage, sameIndex⟩
    exact here ⟨tables.distinct n target liveN live samePage, sameIndex⟩

theorem write_off_bitmap (x : BitVec 64) (low : 0x60000 ≤ x.toNat) (high : x.toNat < 0x80000) :
    WordTable.write s.ram (nodePage s.ram s.kernelPml4 target) index value x = s.ram x := by
  have managed := tables.managed
  have place := tables.owned target live
  refine WordTable.write_of_not_within s.ram (aligned_tablePage managed place) inside value
    fun close => ?_
  have bounds := (within_tablePage managed place close).1
  omega

theorem pageTable_write {k : Nat} (kInside : k < 512) :
    WordTable.read (WordTable.write s.ram (nodePage s.ram s.kernelPml4 target) index value)
      0x4000#64 k = 3#64 + BitVec.ofNat 64 (4096 * k) := by
  have managed := tables.managed
  have place := tables.owned target live
  rw [WordTable.read_congr (by decide) kInside fun x close => ?_, tables.pageTable k kInside]
  exact WordTable.write_of_not_within s.ram (aligned_tablePage managed place) inside value
    fun inPage => (within_tablePage managed place inPage).2 close

end EntryWrite

/-- Linking a zeroed page into an absent slot moves the page from its holder to the tree. -/
theorem link_owned {s : PagingState} {held : Finset (BitVec 64)} {page : BitVec 64}
    (tables : OwnedTables s (insert page held)) (fresh : page ∉ held)
    (zeroed : ∀ e < 512, WordTable.read s.ram page e = 0#64) {parent child : Node} {index : Nat}
    (below : Below parent index child) (live : Live s.ram s.kernelPml4 parent)
    (inside : index < 512)
    (absent : hasFlag (nodeEntry s.ram s.kernelPml4 parent index) pagePresent = false)
    {flags : BitVec 64} (small : flags.toNat < 128) (present : hasFlag flags pagePresent = true) :
    OwnedTables (writeEntry s (nodePage s.ram s.kernelPml4 parent) index (page ||| flags)) held ∧
      Extends s (writeEntry s (nodePage s.ram s.kernelPml4 parent) index (page ||| flags)) ∧
      ∀ n, Live (writeEntry s (nodePage s.ram s.kernelPml4 parent) index (page ||| flags)).ram
        s.kernelPml4 n ↔ Live s.ram s.kernelPml4 n ∨ n = child := by
  have managed := tables.managed
  have member : page ∈ insert page held := Finset.mem_insert_self page held
  have aligned := aligned_tablePage managed (Or.inr (Or.inr (tables.heldUsed page member)))
  have target : tableOf (page ||| flags) = page := tableOf_link aligned (by omega)
  have linkPresent : hasFlag (page ||| flags) pagePresent = true := by
    rw [hasFlag_present, BitVec.getLsbD_or, ← hasFlag_present flags, present, Bool.or_true]
  have inner : hasFlag (page ||| flags) pageHuge = false := by
    rw [hasFlag_huge, BitVec.getLsbD_or, getLsbD_of_multiple 12 aligned (by decide),
      getLsbD_of_small 7 small le_rfl, Bool.or_false]
  have linked := linked_of_changesOnly below
    (changesOnly_write tables live inside (page ||| flags)) live inside absent linkPresent
    fun e eInside => by
      rw [target, WordTable.read_write_other _
        (aligned_tablePage managed (tables.owned parent live)) aligned inside eInside]
      · exact zeroed e eInside
      · rintro ⟨rfl, -⟩
        exact tables.notHeld parent live member
  refine ⟨?_, ⟨rfl, fun n old => (linked.live n).mpr (Or.inl old), linked.pages,
    fun n old e eInside presentE => ?_, linked.leaves⟩, linked.live⟩
  · exact tables.link fresh linked target inner (write_off_bitmap tables live inside _)
      fun k kInside => pageTable_write tables live inside _ kInside
  · refine (congrArg (fun table => WordTable.read _ table e) (linked.pages n old)).trans
      ((changesOnly_write tables live inside (page ||| flags) n old e eInside).trans (if_neg ?_))
    rintro ⟨rfl, rfl⟩
    exact Bool.noConfusion (absent.symm.trans presentE)

/-- A change of one leaf to a 2 MB page keeps the invariant. -/
theorem OwnedTables.writeLeaf {s : PagingState} {held : Finset (BitVec 64)}
    (tables : OwnedTables s held) {next : Memory} {a b c : Nat} {value : BitVec 64}
    (live : Live s.ram s.kernelPml4 (.pd a b))
    (changes : ChangesOnly s.ram next s.kernelPml4 (.pd a b) c value)
    (huge : hasFlag value pageHuge = true)
    (offBitmap : ∀ x : BitVec 64, 0x60000 ≤ x.toNat → x.toNat < 0x80000 → next x = s.ram x)
    (pageTable : ∀ k < 512,
      WordTable.read next 0x4000#64 k = 3#64 + BitVec.ofNat 64 (4096 * k)) :
    OwnedTables { s with ram := next } held := by
  have managed := tables.managed
  have old {n : Node} := (live_writeLeaf changes n).mp
  have page {n : Node} (liveN : Live s.ram s.kernelPml4 n) := nodePage_writeLeaf changes liveN
  refine ⟨managed_congr managed offBitmap, ?_, ?_, ?_, ?_, ?_, ?_, pageTable⟩
  · intro other member
    obtain ⟨i, used⟩ := tables.heldUsed other member
    exact ⟨i, usedPage_congr managed offBitmap used⟩
  · intro n liveN
    refine tablePage_congr managed offBitmap ?_
    rw [page (old liveN)]
    exact tables.owned n (old liveN)
  · intro n liveN
    rw [page (old liveN)]
    exact tables.notHeld n (old liveN)
  · intro m n liveM liveN
    rw [page (old liveM), page (old liveN)]
    exact tables.distinct m n (old liveM) (old liveN)
  · intro i j liveN
    have above : Live s.ram s.kernelPml4 (.pdpt i) := (old liveN).1
    rw [nodeEntry, page above, changes _ above j (old liveN).2.1,
      if_neg (fun both => Node.noConfusion both.1)]
    exact tables.links i j (old liveN)
  · intro i j k inside
    rw [leafEntry_writeLeaf changes live i j inside]
    split_ifs
    · exact fun _ => Or.inl huge
    · exact tables.leaves i j k inside

theorem leaf_owned {s : PagingState} {held : Finset (BitVec 64)} (tables : OwnedTables s held)
    {a b c : Nat} (live : Live s.ram s.kernelPml4 (.pd a b)) (inside : c < 512)
    {value : BitVec 64} (huge : hasFlag value pageHuge = true) :
    OwnedTables (writeEntry s (nodePage s.ram s.kernelPml4 (.pd a b)) c value) held ∧
      ∀ i j k, k < 512 →
        leafEntry (writeEntry s (nodePage s.ram s.kernelPml4 (.pd a b)) c value).ram
            s.kernelPml4 i j k =
          if i = a ∧ j = b ∧ k = c then value else leafEntry s.ram s.kernelPml4 i j k := by
  have changes := changesOnly_write tables live inside value
  refine ⟨?_, fun i j k kInside => leafEntry_writeLeaf changes live i j kInside⟩
  exact tables.writeLeaf live changes huge (write_off_bitmap tables live inside value)
    fun k kInside => pageTable_write tables live inside value kInside

/-! ### The kernel's functions -/

/-- Clearing a page just obtained and linking it into an absent slot. -/
theorem install_owned {s : PagingState} {held : Finset (BitVec 64)} {page : BitVec 64}
    (tables : OwnedTables s (insert page held)) (fresh : page ∉ held) {parent child : Node}
    {index : Nat} (below : Below parent index child) (live : Live s.ram s.kernelPml4 parent)
    (inside : index < 512)
    (absent : hasFlag (nodeEntry s.ram s.kernelPml4 parent index) pagePresent = false)
    {flags : BitVec 64} (small : flags.toNat < 128) (present : hasFlag flags pagePresent = true)
    {next : PagingState}
    (result : next = writeEntry { s with ram := WordTable.clear s.ram page }
      (nodePage s.ram s.kernelPml4 parent) index (page ||| flags)) :
    OwnedTables next held ∧ Extends s next ∧
      ∀ n, Live next.ram next.kernelPml4 n ↔ Live s.ram s.kernelPml4 n ∨ n = child := by
  have member : page ∈ insert page held := Finset.mem_insert_self page held
  have aligned := aligned_tablePage tables.managed (Or.inr (Or.inr (tables.heldUsed page member)))
  have zeroed (e : Nat) (eInside : e < 512) :
      WordTable.read (WordTable.clear s.ram page) page e = 0#64 :=
    WordTable.read_of_zero aligned eInside fun x close =>
      WordTable.clear_of_within s.ram aligned close
  obtain ⟨tablesClear, changes⟩ := tables.writeHeld member
    fun x outside => WordTable.clear_of_not_within s.ram aligned outside
  generalize WordTable.clear s.ram page = cleared at *
  have liveClear := (live_unchanged changes parent).mpr live
  have absentClear : hasFlag (nodeEntry cleared s.kernelPml4 parent index) pagePresent =
      false := by
    rw [nodeEntry, nodePage_unchanged changes live, changes parent live index inside]
    exact absent
  rw [← nodePage_unchanged changes live] at result
  subst result
  obtain ⟨tablesNext, grown, liveNext⟩ := link_owned tablesClear fresh zeroed below liveClear inside
    absentClear small present
  have grownClear : Extends s { s with ram := cleared } :=
    extends_of_changesNothing changes rfl
  refine ⟨tablesNext, grownClear.trans grown, fun n => ?_⟩
  rw [← live_unchanged changes n]
  exact liveNext n

/-- The level pattern of the paging code: it fails without a change, or the table below exists
afterwards and every leaf entry is as before. -/
theorem ensureTable_owned {s : PagingState} {held : Finset (BitVec 64)}
    (tables : OwnedTables s held) {parent child : Node} {index : Nat}
    (below : Below parent index child) (live : Live s.ram s.kernelPml4 parent)
    (inside : index < 512) {flags : BitVec 64} (small : flags.toNat < 128)
    (present : hasFlag flags pagePresent = true) :
    (∃ next, ensureTable s (nodePage s.ram s.kernelPml4 parent) index flags = (next, true) ∧
        OwnedTables next held ∧ Extends s next ∧
        ∀ n, Live next.ram next.kernelPml4 n ↔ Live s.ram s.kernelPml4 n ∨ n = child) ∨
      ensureTable s (nodePage s.ram s.kernelPml4 parent) index flags = (s, false) := by
  rw [ensureTable, show WordTable.read s.ram (nodePage s.ram s.kernelPml4 parent) index =
    nodeEntry s.ram s.kernelPml4 parent index from rfl]
  cases absent : hasFlag (nodeEntry s.ram s.kernelPml4 parent index) pagePresent with
  | true =>
    have liveChild := (live_below below _ _).mpr ⟨live, inside, absent⟩
    refine Or.inl ⟨s, rfl, tables, Extends.refl s, fun n => ⟨Or.inl, ?_⟩⟩
    rintro (old | rfl)
    · exact old
    · exact liveChild
  | false =>
    rw [if_neg Bool.false_ne_true]
    rcases getPage_owned tables with ⟨got, page, result, nonNull, fresh, tablesGot, root, changes⟩
      | none
    · rw [result]
      refine Or.inl ⟨_, if_neg nonNull, ?_⟩
      have samePage := nodePage_unchanged changes live
      have sameEntry := changes parent live index inside
      have liveGot := (live_unchanged changes parent).mpr live
      have grownGot := extends_of_changesNothing changes root
      rw [← samePage, ← root] at sameEntry
      rw [← samePage]
      rw [← root] at liveGot ⊢
      obtain ⟨tablesNext, grown, liveNext⟩ := install_owned tablesGot fresh below liveGot inside
        (by rw [nodeEntry, sameEntry, root, absent]) small present rfl
      refine ⟨tablesNext, grownGot.trans grown, fun n => ?_⟩
      have sameLive := live_unchanged changes n
      rw [← root] at sameLive
      rw [← sameLive]
      exact liveNext n
    · rw [none]
      exact Or.inr (if_pos rfl)

/-- A level that is absent costs the lowest free page, and fails when there is none. -/
theorem ensureTable_absent {s : PagingState} (managed : Managed s.toMemoryState)
    {table : BitVec 64} (place : TablePage s.toMemoryState table) {index : Nat}
    (inside : index < 512)
    (absent : hasFlag (WordTable.read s.ram table index) pagePresent = false) (flags : BitVec 64) :
    (∃ i, IsLeast ((pool s.toMemoryState).free : Set Nat) i ∧
        (ensureTable s table index flags).2 = true ∧
        (pool (ensureTable s table index flags).1.toMemoryState).free =
          (pool s.toMemoryState).free.erase i) ∨
      ((pool s.toMemoryState).free = ∅ ∧ ensureTable s table index flags = (s, false)) := by
  rw [ensureTable, absent, if_neg Bool.false_ne_true]
  rcases getPage_cases managed with ⟨i, least, result⟩ | ⟨exhausted, result⟩
  · have iInside : i < s.totalPages.toNat := IndexPool.lt_total least.1
    rw [result]
    simp only [if_neg (pageAddress_ne_zero managed iInside)]
    refine Or.inl ⟨i, least, trivial, ?_⟩
    have offBitmap (x : BitVec 64) (low : 0x60000 ≤ x.toNat) (high : x.toNat < 0x80000) :
        (writeEntry { s with toMemoryState := { claimed s.toMemoryState i with
            ram := WordTable.clear (claimed s.toMemoryState i).ram
              (pageAddress s.toMemoryState i) } }
          table index (pageAddress s.toMemoryState i ||| flags)).ram x =
        (claimed s.toMemoryState i).ram x := by
      have cleared : WordTable.clear (claimed s.toMemoryState i).ram
          (pageAddress s.toMemoryState i) x = (claimed s.toMemoryState i).ram x := by
        refine WordTable.clear_of_not_within _ (aligned_pageAddress managed iInside) fun close => ?_
        have bounds := (within_page_iff managed iInside x).mp close
        omega
      rw [← cleared]
      refine WordTable.write_of_not_within _ (aligned_tablePage managed place) inside _
        fun close => ?_
      have bounds := (within_tablePage managed place close).1
      omega
    have unchanged := pool_congr (managed_claimed managed least.1) offBitmap
    refine (congrArg IndexPool.free unchanged).trans ?_
    exact free_claimed managed iInside
  · rw [result]
    exact Or.inr ⟨exhausted, if_pos rfl⟩

end M12
