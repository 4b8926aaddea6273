/-
This file is about the pages the clients of the allocator hold, and proves that
their contents are isolated.

The bitmap lies in the memory it manages, below 1 MB, and all pages lie above. So
a client that writes only to pages it holds cannot reach the bitmap, and a call
that clears a page cannot reach another page. What the allocator answers is then
a function of the calls alone: a run with the clients' writes left out gets the
same pages.
-/

import M12.FreePages

namespace M12

open ByteMemory

/-! ### Pages in use -/

section UsedPages

variable {s : MemoryState} (managed : Managed s)
include managed

theorem toNat_usedPage {page : BitVec 64} {i : Nat} (used : UsedPage s page i) :
    page.toNat = 0x100000 + 4096 * i ∧ i < 2 ^ 20 := by
  have few := totalPages_lt managed
  have inside := used.1
  refine ⟨?_, by omega⟩
  rw [used.2.2, toNat_pageAddress managed inside]

theorem usedPage_unique {page : BitVec 64} {i j : Nat} (first : UsedPage s page i)
    (second : UsedPage s page j) : i = j :=
  pageAddress_injective managed first.1 second.1 (first.2.2.symm.trans second.2.2)

/-- A free page is not in use under any number. -/
theorem not_usedPage_of_free {i : Nat} (free : i ∈ (pool s).free) (j : Nat) :
    ¬ UsedPage s (pageAddress s i) j := by
  intro used
  have same := pageAddress_injective managed (IndexPool.lt_total free) used.1 used.2.2
  exact used.2.1 (same ▸ free)

theorem free_ne_used {i : Nat} (free : i ∈ (pool s).free) {page : BitVec 64}
    (used : ∃ j, UsedPage s page j) : pageAddress s i ≠ page := by
  rintro rfl
  obtain ⟨j, used⟩ := used
  exact not_usedPage_of_free managed free j used

theorem usedPage_claimed {i : Nat} (inside : i < s.totalPages.toNat) {page : BitVec 64} {j : Nat}
    (used : UsedPage s page j) : UsedPage (claimed s i) page j := by
  refine ⟨used.1, fun free => ?_, used.2.2⟩
  rw [free_claimed managed inside] at free
  exact used.2.1 (Finset.mem_of_mem_erase free)

theorem usedPage_claimed_self {i : Nat} (inside : i < s.totalPages.toNat) :
    UsedPage (claimed s i) (pageAddress s i) i := by
  refine ⟨inside, ?_, rfl⟩
  rw [free_claimed managed inside]
  exact Finset.notMem_erase i _

theorem usedPage_released {i : Nat} (inside : i < s.totalPages.toNat) {page : BitVec 64} {j : Nat}
    (used : UsedPage s page j) (different : page ≠ pageAddress s i) :
    UsedPage (released s i) page j := by
  refine ⟨used.1, fun free => ?_, used.2.2⟩
  rw [free_released managed inside, Finset.mem_insert] at free
  rcases free with rfl | free
  · exact different used.2.2
  · exact used.2.1 free

theorem usedPage_congr {ram : Memory}
    (same : ∀ x : BitVec 64, 0x60000 ≤ x.toNat → x.toNat < 0x80000 → ram x = s.ram x)
    {page : BitVec 64} {i : Nat} (used : UsedPage s page i) :
    UsedPage { s with ram := ram } page i := by
  refine ⟨used.1, ?_, used.2.2⟩
  rw [pool_congr managed same]
  exact used.2.1

/-- The bytes of a page in use lie off the bitmap and off every other page. -/
theorem within_usedPage {page x : BitVec 64} {i : Nat} (used : UsedPage s page i)
    (close : Within page 4096 x) :
    (x.toNat < 0x60000 ∨ 0x80000 ≤ x.toNat) ∧
      ∀ j < s.totalPages.toNat, pageAddress s j ≠ page → ¬ Within (pageAddress s j) 4096 x := by
  have here := (within_page_iff managed used.1 x).mp (used.2.2 ▸ close)
  refine ⟨by omega, fun j inside different inPage => different ?_⟩
  have there := (within_page_iff managed inside x).mp inPage
  rw [used.2.2, show j = i by omega]

end UsedPages

/-! ### Clients -/

/-- A call of a client, or one byte it writes. -/
inductive HolderCall where
  | get
  | free (page : BitVec 64)
  | write (address : BitVec 64) (value : BitVec 8)
deriving DecidableEq

/-- The state of the allocator with the pages the clients hold. -/
structure HolderState extends MemoryState where
  held : Finset (BitVec 64)

/-- One call or write, with what it does to the pages the clients hold. -/
def holderStep (c : HolderState) : HolderCall → HolderState
  | .get =>
    match getPhysicalPage c.toMemoryState with
    | (memory, page) =>
      { toMemoryState := memory
        held := if page = 0#64 then c.held else insert page c.held }
  | .free page =>
    { toMemoryState := freePhysicalPage c.toMemoryState page
      held := c.held.erase page }
  | .write address value => { c with ram := store c.ram address value }

/-- The state after a sequence of calls and writes. -/
def holderRun (c : HolderState) (calls : List HolderCall) : HolderState := calls.foldl holderStep c

/-- The clients hold nothing when `Init_Memory` has finished. -/
def startedHolder (ram : Memory) : HolderState where
  toMemoryState := initMemory (bootMemory ram)
  held := ∅

/-- The address lies in a page the clients hold. -/
def InHeld (c : HolderState) (address : BitVec 64) : Prop :=
  ∃ page ∈ c.held, Within page 4096 address

/-- The clients write only to pages they hold at that time. -/
def Confined (c : HolderState) (calls : List HolderCall) : Prop :=
  ∀ done address value, done ++ [.write address value] <+: calls →
    InHeld (holderRun c done) address

/-- The calls of a run without its writes. -/
def allocatorCalls (calls : List HolderCall) : List MemoryCall :=
  calls.filterMap fun call =>
    match call with
    | .get => some .get
    | .free page => some (.free page)
    | .write _ _ => none

/-- What the clients can rely on in a state. -/
structure IsolatesPages (c : HolderState) : Prop where
  /-- A page handed out is zero. -/
  zero : (getPhysicalPage c.toMemoryState).2 ≠ 0#64 →
    ∀ x, Within (getPhysicalPage c.toMemoryState).2 4096 x →
      (getPhysicalPage c.toMemoryState).1.ram x = 0#8
  /-- Handing out a page changes no page that is held. -/
  getFrame : ∀ page ∈ c.held, ∀ x, Within page 4096 x →
    (getPhysicalPage c.toMemoryState).1.ram x = c.ram x
  /-- Freeing any address changes no other page that is held. -/
  freeFrame : ∀ freed, ∀ page ∈ c.held, page ≠ freed → ∀ x, Within page 4096 x →
    (freePhysicalPage c.toMemoryState freed).ram x = c.ram x
  /-- A write to a page that is held changes no byte of the bitmap. -/
  bitmap : ∀ address, InHeld c address → ∀ value : BitVec 8, ∀ x,
    Within c.memoryMap ((c.totalPages.toNat + 7) / 8) x → store c.ram address value x = c.ram x

/-! ### The invariant -/

/-- The pages the clients hold are in use. -/
structure HoldsUsed (c : HolderState) : Prop where
  managed : Managed c.toMemoryState
  used : ∀ page ∈ c.held, ∃ i, UsedPage c.toMemoryState page i

theorem HoldsUsed.write {c : HolderState} (holds : HoldsUsed c) {address : BitVec 64}
    (inHeld : InHeld c address) (value : BitVec 8) {x : BitVec 64} (low : 0x60000 ≤ x.toNat)
    (high : x.toNat < 0x80000) : store c.ram address value x = c.ram x := by
  obtain ⟨page, member, close⟩ := inHeld
  obtain ⟨i, used⟩ := holds.used page member
  refine store_byte_other c.ram value ?_
  rintro rfl
  have outside := (within_usedPage holds.managed used close).1
  omega

theorem isolatesPages_of_holds {c : HolderState} (holds : HoldsUsed c) : IsolatesPages c := by
  have managed := holds.managed
  refine ⟨?_, fun page member x close => ?_, fun freed page member different x close => ?_,
    fun address inHeld value x inBitmap => ?_⟩
  · rcases getPhysicalPage_cases managed with ⟨i, -, result⟩ | ⟨-, result⟩
    · rw [result]
      exact fun _ x close => claimed_zero c.toMemoryState i close
    · rw [result]
      exact fun nonNull => absurd rfl nonNull
  · obtain ⟨j, used⟩ := holds.used page member
    obtain ⟨offBitmap, offPages⟩ := within_usedPage managed used close
    rcases getPhysicalPage_cases managed with ⟨i, least, result⟩ | ⟨-, result⟩
    · have inside : i < c.totalPages.toNat := IndexPool.lt_total least.1
      rw [result]
      exact claimed_frame managed inside offBitmap
        (offPages i inside (free_ne_used managed least.1 ⟨j, used⟩))
    · rw [result]
  · obtain ⟨j, used⟩ := holds.used page member
    obtain ⟨offBitmap, offPages⟩ := within_usedPage managed used close
    rcases freePhysicalPage_cases managed freed with ⟨i, usedFreed, result⟩ | ⟨-, result⟩
    · rw [result]
      refine released_frame managed usedFreed.1 offBitmap (offPages i usedFreed.1 ?_)
      rw [← usedFreed.2.2]
      exact different.symm
    · rw [result]
  · have bounds := within_bitmap managed inBitmap
    exact holds.write inHeld value bounds.1 bounds.2

theorem holdsUsed_step {c : HolderState} (holds : HoldsUsed c) (call : HolderCall)
    (confined : ∀ address value, call = .write address value → InHeld c address) :
    HoldsUsed (holderStep c call) := by
  have managed := holds.managed
  cases call with
  | get =>
    rw [holderStep]
    rcases getPhysicalPage_cases managed with ⟨i, least, result⟩ | ⟨-, result⟩
    · have inside : i < c.totalPages.toNat := IndexPool.lt_total least.1
      rw [result]
      simp only [if_neg (pageAddress_ne_zero managed inside)]
      refine ⟨managed_claimed managed least.1, fun page member => ?_⟩
      rcases Finset.mem_insert.mp member with rfl | member
      · exact ⟨i, usedPage_claimed_self managed inside⟩
      · obtain ⟨j, used⟩ := holds.used page member
        exact ⟨j, usedPage_claimed managed inside used⟩
    · rw [result]
      simp only [if_true]
      exact ⟨managed, holds.used⟩
  | free freed =>
    rw [holderStep]
    rcases freePhysicalPage_cases managed freed with ⟨i, usedFreed, result⟩ | ⟨-, result⟩
    · rw [result]
      refine ⟨managed_released managed usedFreed.1 usedFreed.2.1, fun page member => ?_⟩
      obtain ⟨different, member⟩ := Finset.mem_erase.mp member
      obtain ⟨j, used⟩ := holds.used page member
      exact ⟨j, usedPage_released managed usedFreed.1 used (usedFreed.2.2 ▸ different)⟩
    · rw [result]
      exact ⟨managed, fun page member => holds.used page (Finset.mem_of_mem_erase member)⟩
  | write address value =>
    have same : ∀ x : BitVec 64, 0x60000 ≤ x.toNat → x.toNat < 0x80000 →
        store c.ram address value x = c.ram x := fun x low high =>
      holds.write (confined address value rfl) value low high
    refine ⟨managed_congr managed same, fun page member => ?_⟩
    obtain ⟨j, used⟩ := holds.used page member
    exact ⟨j, usedPage_congr managed same used⟩

/-! ### Runs -/

theorem holderRun_append (c : HolderState) (done : List HolderCall) (call : HolderCall) :
    holderRun c (done ++ [call]) = holderStep (holderRun c done) call :=
  List.foldl_append ..

theorem holdsUsed_run {c : HolderState} (holds : HoldsUsed c) {calls : List HolderCall}
    (confined : Confined c calls) {done : List HolderCall} (isPrefix : done <+: calls) :
    HoldsUsed (holderRun c done) := by
  induction done using List.reverseRecOn with
  | nil => exact holds
  | append_singleton done call inductionHypothesis =>
    rw [holderRun_append]
    refine holdsUsed_step (inductionHypothesis ((List.prefix_append done [call]).trans isPrefix))
      call fun address value write => ?_
    rw [write] at isPrefix
    exact confined done address value isPrefix

/-- The pool sees only the calls. -/
theorem pool_holderStep {c : HolderState} (holds : HoldsUsed c) (call : HolderCall)
    (confined : ∀ address value, call = .write address value → InHeld c address) :
    pool (holderStep c call).toMemoryState =
      (allocatorCalls [call]).foldl poolStep (pool c.toMemoryState) := by
  cases call with
  | get => exact pool_memoryStep holds.managed .get
  | free page => exact pool_memoryStep holds.managed (.free page)
  | write address value =>
    exact pool_congr holds.managed fun x low high =>
      holds.write (confined address value rfl) value low high

theorem pool_holderRun {c : HolderState} (holds : HoldsUsed c) {calls : List HolderCall}
    (confined : Confined c calls) {done : List HolderCall} (isPrefix : done <+: calls) :
    pool (holderRun c done).toMemoryState =
      (allocatorCalls done).foldl poolStep (pool c.toMemoryState) := by
  induction done using List.reverseRecOn with
  | nil => rfl
  | append_singleton done call inductionHypothesis =>
    have earlier := (List.prefix_append done [call]).trans isPrefix
    rw [holderRun_append, pool_holderStep (holdsUsed_run holds confined earlier) call ?_,
      inductionHypothesis earlier, ← List.foldl_append, allocatorCalls, allocatorCalls,
      ← List.filterMap_append]
    · rfl
    · intro address value write
      rw [write] at isPrefix
      exact confined done address value isPrefix

/-- The answer of `get_physical_page` depends on the pool alone. -/
theorem getPhysicalPage_of_pool {first second : MemoryState} (managedFirst : Managed first)
    (managedSecond : Managed second) (same : pool first = pool second) :
    (getPhysicalPage first).2 = (getPhysicalPage second).2 := by
  have address : ∀ i, pageAddress first i = pageAddress second i := by
    intro i
    rw [pageAddress, pageAddress, managedFirst.memoryStart, managedSecond.memoryStart]
  rcases getPhysicalPage_cases managedFirst with ⟨i, least, result⟩ | ⟨exhausted, result⟩
  · rw [same] at least
    rcases getPhysicalPage_cases managedSecond with ⟨j, leastJ, resultJ⟩ | ⟨exhausted, -⟩
    · rw [result, resultJ, least.unique leastJ, address]
    · rw [exhausted] at least
      exact absurd least.1 (Finset.notMem_empty i)
  · rw [same] at exhausted
    rcases getPhysicalPage_cases managedSecond with ⟨j, leastJ, -⟩ | ⟨-, resultJ⟩
    · rw [exhausted] at leastJ
      exact absurd leastJ.1 (Finset.notMem_empty j)
    · rw [result, resultJ]

theorem startedHolder_memory (ram : Memory) :
    (startedHolder ram).toMemoryState = initMemory (bootMemory ram) := rfl

theorem holdsUsed_startedHolder (ram : Memory) : HoldsUsed (startedHolder ram) :=
  ⟨managed_initMemory ram, fun page member => absurd member (Finset.notMem_empty page)⟩

/-- For every memory map and every run of clients that write only to pages they hold, page
contents are isolated in every state, and the allocator answers as it would without the writes. -/
theorem page_contents_isolated (ram : Memory) (calls : List HolderCall)
    (confined : Confined (startedHolder ram) calls) :
    IsolatesPages (holderRun (startedHolder ram) calls) ∧
      pool (holderRun (startedHolder ram) calls).toMemoryState =
        pool (memoryRun (initMemory (bootMemory ram)) (allocatorCalls calls)) ∧
      (getPhysicalPage (holderRun (startedHolder ram) calls).toMemoryState).2 =
        (getPhysicalPage (memoryRun (initMemory (bootMemory ram)) (allocatorCalls calls))).2 := by
  have started := holdsUsed_startedHolder ram
  have holds := holdsUsed_run started confined (List.prefix_refl calls)
  have managed := managed_memoryRun (managed_initMemory ram) (allocatorCalls calls)
  have same : pool (holderRun (startedHolder ram) calls).toMemoryState =
      pool (memoryRun (initMemory (bootMemory ram)) (allocatorCalls calls)) := by
    rw [pool_holderRun started confined (List.prefix_refl calls),
      pool_memoryRun (managed_initMemory ram)]
    rfl
  exact ⟨isolatesPages_of_holds holds, same, getPhysicalPage_of_pool holds.managed managed same⟩

theorem holderStep_get_held (c : HolderState) {page : BitVec 64}
    (answer : (getPhysicalPage c.toMemoryState).2 = page) (nonNull : page ≠ 0#64) :
    page ∈ (holderStep c .get).held := by
  rw [holderStep]
  generalize getPhysicalPage c.toMemoryState = result at answer ⊢
  simp only [answer, if_neg nonNull]
  exact Finset.mem_insert_self page c.held

theorem getPhysicalPage_first {s : MemoryState} (managed : Managed s) {high : Nat}
    (free : (pool s).free = Finset.Ico 0 high) (some : 0 < high) :
    (getPhysicalPage s).2 = 0x100000#64 := by
  apply BitVec.eq_of_toNat_eq
  exact getPhysicalPage_replicate managed free (show 0 + 0 < high from some)

/-- A client that writes to the first page it was handed keeps to its own pages. -/
theorem confined_first_page {c : HolderState} (managed : Managed c.toMemoryState) {high : Nat}
    (free : (pool c.toMemoryState).free = Finset.Ico 0 high) (some : 0 < high) (byte : BitVec 8) :
    Confined c [.get, .write 0x100000#64 byte] := by
  have page := getPhysicalPage_first managed free some
  have held := holderStep_get_held c page (by decide)
  intro done address value isPrefix
  rcases done with _ | ⟨call, _ | ⟨next, rest⟩⟩
  · simp at isPrefix
  · obtain ⟨rfl, rfl, -⟩ : call = .get ∧ address = 0x100000#64 ∧ value = byte := by
      simpa using isPrefix
    exact ⟨_, held, by decide⟩
  · simp at isPrefix

/-- A client gets a page and writes to its first byte; all memory was zero before. -/
theorem page_contents_isolated_first_page :
    IsolatesPages (holderRun (startedHolder fun _ => 0#8) [.get, .write 0x100000#64 7#8]) ∧
      pool (holderRun (startedHolder fun _ => 0#8) [.get, .write 0x100000#64 7#8]).toMemoryState =
        pool (memoryRun (initMemory (bootMemory fun _ => 0#8)) [.get]) ∧
      (getPhysicalPage (holderRun (startedHolder fun _ => 0#8)
          [.get, .write 0x100000#64 7#8]).toMemoryState).2 =
        (getPhysicalPage (memoryRun (initMemory (bootMemory fun _ => 0#8)) [.get])).2 := by
  refine page_contents_isolated (fun _ => 0#8) [.get, .write 0x100000#64 7#8] ?_
  have free := free_initMemory fun _ => 0#8
  rw [← startedHolder_memory, Finset.range_eq_Ico, detectedEnd_blank] at free
  exact confined_first_page (holdsUsed_startedHolder fun _ => 0#8).managed free (by decide) 7#8

end M12
