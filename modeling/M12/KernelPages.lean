/-
This file proves that every page the allocator has given out has exactly one owner.

The kernel takes pages for two purposes, page tables and the stacks of processes,
and its clients take pages for themselves. Seen from the paging code the process
manager is one more client: each of its calls is a short sequence of allocations
and frees, also when a creation gives up half-way. So the account of the paging
code is carried along a run of the whole kernel with the stacks among the pages
that are held, and the pages in use are the tables, the stacks and the clients'
pages, each of them once.
-/

import M12.ProcessStacks
import M12.TableOwnership

namespace M12

open ByteMemory

/-! ### The managed range is fixed -/

theorem searchPage_totalPages (s : MemoryState) (i remaining : Nat) :
    (searchPage s i remaining).1.totalPages = s.totalPages := by
  induction remaining generalizing i with
  | zero => rfl
  | succ remaining inductionHypothesis =>
    rw [searchPage]
    split
    · rw [claimPage]
      dsimp only
      split
      · rfl
      · rfl
    · exact inductionHypothesis (i + 1)

theorem getPage_totalPages (s : PagingState) : (getPage s).1.totalPages = s.totalPages := by
  show (getPhysicalPage s.toMemoryState).1.totalPages = s.totalPages
  rw [getPhysicalPage]
  split
  · rfl
  · exact searchPage_totalPages s.toMemoryState 0 _

theorem ensureTable_totalPages (s : PagingState) (table : BitVec 64) (index : Nat)
    (flags : BitVec 64) : (ensureTable s table index flags).1.totalPages = s.totalPages := by
  rw [ensureTable]
  split
  · rfl
  · dsimp only
    split
    · exact getPage_totalPages s
    · exact getPage_totalPages s

theorem ensureLeaf_totalPages (s : PagingState) (root : BitVec 64) (i j k : Nat)
    (flags leaf : BitVec 64) :
    (ensureLeaf s root i j k flags leaf).1.totalPages = s.totalPages := by
  have first := ensureTable_totalPages s root i flags
  rw [ensureLeaf]
  generalize ensureTable s root i flags = linked at first ⊢
  obtain ⟨next, made⟩ := linked
  cases made with
  | false => exact first
  | true =>
    dsimp only
    have second := ensureTable_totalPages next (tableOf (WordTable.read next.ram root i)) j flags
    generalize ensureTable next (tableOf (WordTable.read next.ram root i)) j flags = linked
      at second ⊢
    obtain ⟨last, made⟩ := linked
    cases made with
    | false => exact second.trans first
    | true => exact second.trans first

theorem mapPage_totalPages (s : PagingState) (virtualAddr physicalAddr flags : BitVec 64) :
    (mapPage s virtualAddr physicalAddr flags).1.totalPages = s.totalPages := by
  by_cases started : s.kernelPml4 = 0#64
  · rw [mapPage, if_pos started]
  · rw [mapPage_eq started]
    exact ensureLeaf_totalPages s s.kernelPml4 _ _ _ _ _

/-! ### The paging code and its clients -/

/-- The account of the tables is in order, and the pages in use are as many as the tables and the
pages that are held. -/
structure Audited (c : TakenState) : Prop where
  managed : Managed c.toMemoryState
  heldUsed : ∀ page ∈ c.held, ∃ i, UsedPage c.toMemoryState page i
  accounted : Accounted c
  balance : (pool c.toMemoryState).used = c.taken + c.held.card

section Audited

variable {c : TakenState} (audited : Audited c)
include audited

theorem audited_get : Audited (takenStep c .get) := by
  have accounted := @accounted_step c audited.accounted .get fun _ => PagingCall.noConfusion
  have managed := audited.managed
  rw [takenStep, pagingStep] at accounted ⊢
  rcases getPage_cases managed with ⟨i, least, result⟩ | ⟨-, result⟩
  · have inside : i < c.totalPages.toNat := IndexPool.lt_total least.1
    have fresh : pageAddress c.toMemoryState i ∉ c.held := fun member =>
      free_ne_used managed least.1 (audited.heldUsed _ member) rfl
    rw [result] at accounted ⊢
    simp only [if_neg (pageAddress_ne_zero managed inside)] at accounted ⊢
    refine ⟨managed_claimed managed least.1, fun page member => ?_, accounted, ?_⟩
    · rcases Finset.mem_insert.mp member with rfl | old
      · exact ⟨i, usedPage_claimed_self managed inside⟩
      · obtain ⟨j, used⟩ := audited.heldUsed page old
        exact ⟨j, usedPage_claimed managed inside used⟩
    · have count := IndexPool.used_of_erase (pool c.toMemoryState)
        (pool (claimed c.toMemoryState i)) rfl (free_claimed managed inside) least.1
      rw [Finset.card_insert_of_notMem fresh, ← Nat.add_assoc, ← audited.balance]
      exact count
  · rw [result] at accounted ⊢
    exact ⟨managed, audited.heldUsed, accounted, audited.balance⟩

theorem audited_free {page : BitVec 64} (member : page ∈ c.held) :
    Audited (takenStep c (.free page)) := by
  have accounted := @accounted_step c audited.accounted (.free page) fun freed same =>
    PagingCall.free.inj same ▸ member
  have managed := audited.managed
  obtain ⟨i, used⟩ := audited.heldUsed page member
  have freed : freePhysicalPage c.toMemoryState page = released c.toMemoryState i := by
    rcases freePhysicalPage_cases managed page with ⟨j, usedJ, result⟩ | ⟨unused, -⟩
    · rw [result, usedPage_unique managed used usedJ]
    · exact absurd used (unused i)
  rw [takenStep, pagingStep, freePage, freed] at accounted ⊢
  refine ⟨managed_released managed used.1 used.2.1, fun other inside => ?_, accounted, ?_⟩
  · obtain ⟨different, inside⟩ := Finset.mem_erase.mp inside
    obtain ⟨j, usedOther⟩ := audited.heldUsed other inside
    exact ⟨j, usedPage_released managed used.1 usedOther (used.2.2 ▸ different)⟩
  · have count := IndexPool.used_of_insert (pool c.toMemoryState)
      (pool (released c.toMemoryState i)) rfl (free_released managed used.1) used.2.1
    have positive := Finset.card_pos.mpr ⟨page, member⟩
    have balance := audited.balance
    show (pool (released c.toMemoryState i)).used = c.taken + (c.held.erase page).card
    rw [Finset.card_erase_of_mem member]
    omega

theorem audited_map (virtualAddr physicalAddr flags : BitVec 64) :
    Audited (takenStep c (.map virtualAddr physicalAddr flags)) := by
  have accounted := @accounted_step c audited.accounted (.map virtualAddr physicalAddr flags)
    fun _ => PagingCall.noConfusion
  have total := mapPage_totalPages c.toPagingState virtualAddr physicalAddr flags
  rw [takenStep, pagingStep] at accounted ⊢
  rcases audited.accounted with ⟨zero, none⟩ | counted
  · have same : (mapPage c.toPagingState virtualAddr physicalAddr flags).1 = c.toPagingState := by
      rw [mapPage, if_pos zero]
    rw [same] at accounted ⊢
    refine ⟨audited.managed, audited.heldUsed, accounted, ?_⟩
    show (pool c.toMemoryState).used = c.taken + pagesTaken c.toPagingState c.toPagingState + _
    rw [pagesTaken_self]
    exact audited.balance
  · obtain ⟨next, fresh, tables, grows, cases⟩ :=
      mapPage_grows counted.tables virtualAddr physicalAddr flags
    have result : (mapPage c.toPagingState virtualAddr physicalAddr flags).1 = next := by
      rcases cases with ⟨result, -⟩ | ⟨result, -⟩
      · rw [result]
      · rw [result]
    rw [result] at accounted total ⊢
    refine ⟨tables.managed, tables.heldUsed, accounted, ?_⟩
    have before := (pool c.toMemoryState).used_add_card_free
    have after := (pool next.toMemoryState).used_add_card_free
    have same : (pool next.toMemoryState).total = (pool c.toMemoryState).total :=
      congrArg BitVec.toNat total
    have balance := audited.balance
    have taken := grows.taken
    show (pool next.toMemoryState).used = c.taken + pagesTaken c.toPagingState next + c.held.card
    rw [pagesTaken_of_grows grows]
    omega

end Audited

/-! ### The kernel and its books -/

/-- A call into the process manager, the allocator or the paging code. -/
inductive KernelCall where
  | process (call : ProcessCall)
  | map (virtualAddr physicalAddr flags : BitVec 64)
deriving DecidableEq

/-- The kernel's state with the pages the clients hold, the slots that were given stacks and the
number of pages taken for tables. -/
structure KernelBooks extends KernelState where
  held : Finset (BitVec 64)
  stacked : Finset Slot
  taken : Nat

/-- The slot a call sets up with stacks. -/
def createdSlot (s : KernelState) : ProcessCall → Option Slot
  | .create entryPoint => (createProcess s entryPoint).2
  | .fork =>
    match s.current with
    | none => none
    | some parent => (createProcess s (s.processes parent).context.rip).2
  | _ => none

/-- A slot has been given stacks, if any has. -/
def addSlot (stacked : Finset Slot) : Option Slot → Finset Slot
  | none => stacked
  | some slot => insert slot stacked

/-- The state after one call. -/
def bookStep (b : KernelBooks) : KernelCall → KernelBooks
  | .process call =>
    { toKernelState := processStep b.toKernelState call
      held :=
        match call with
        | .get =>
          if (getPage b.toPagingState).2 = 0#64 then b.held
          else insert (getPage b.toPagingState).2 b.held
        | .free page => b.held.erase page
        | _ => b.held
      stacked := addSlot b.stacked (createdSlot b.toKernelState call)
      taken := b.taken }
  | .map virtualAddr physicalAddr flags =>
    let next := (mapPage b.toPagingState virtualAddr physicalAddr flags).1
    { b with toPagingState := next, taken := b.taken + pagesTaken b.toPagingState next }

/-- The state after a run. -/
def bookRun (b : KernelBooks) (calls : List KernelCall) : KernelBooks := calls.foldl bookStep b

/-- The clients free only pages they hold. -/
def FreesOwn (b : KernelBooks) : List KernelCall → Prop
  | [] => True
  | call :: rest =>
    (∀ page, call = .process (.free page) → page ∈ b.held) ∧ FreesOwn (bookStep b call) rest

/-- The kernel when `InitProcessManager` has finished, over what the boot loader, `Init_Memory` and
`Init_Paging` have left. -/
def startedBooks (ram : Memory) (idle : BitVec 64) : KernelBooks :=
  let s := loadedKernel (initPaging (bootPaging ram)).1
  { toKernelState := initProcessManager s idle
    held := ∅
    stacked := addSlot ∅ (createProcess (resetProcesses s) idle).2
    taken := pagesTaken (bootPaging ram) (initPaging (bootPaging ram)).1 }

/-- The pages under the stacks. -/
def KernelBooks.stackPages (b : KernelBooks) : Finset (BitVec 64) :=
  (b.stacked ×ˢ {StackKind.kernel, StackKind.user}).image fun place =>
    (b.processes place.1).stack place.2

/-- The books as the paging code's account, for which a stack is a page somebody holds. -/
def KernelBooks.account (b : KernelBooks) : TakenState where
  toPagingState := b.toPagingState
  held := b.held ∪ b.stackPages
  taken := b.taken

/-- Who a page can belong to. -/
inductive PageOwner where
  | table (n : Node)
  | stack (slot : Slot) (kind : StackKind)
  | client
deriving DecidableEq

/-- The page is a table the kernel reaches, the page under a stack, or one a client holds. -/
def Owns (b : KernelBooks) (page : BitVec 64) : PageOwner → Prop
  | .table n => OwnTable b.toPagingState n ∧ nodePage b.ram b.kernelPml4 n = page
  | .stack slot kind => slot ∈ b.stacked ∧ (b.processes slot).stack kind = page
  | .client => page ∈ b.held

/-- Every page in use has one owner, every page that is owned is in use, and `used_pages` adds the
owners up. -/
structure OneOwner (b : KernelBooks) : Prop where
  owned : ∀ page, (∃ i, UsedPage b.toMemoryState page i) ↔ ∃ owner, Owns b page owner
  unique : ∀ page first second, Owns b page first → Owns b page second → first = second
  counted : b.usedPages.toNat =
    {page | ∃ n, Owns b page (.table n)}.ncard + 2 * b.stacked.card + b.held.card

/-! ### What a creation does to the allocator -/

theorem finishProcess_paging (s : KernelState) (slot : Slot) (entryPoint kernelStack : BitVec 64) :
    ((getPage s.toPagingState).2 = 0#64 ∧
        (finishProcess s slot entryPoint kernelStack).2 = none ∧
        (finishProcess s slot entryPoint kernelStack).1.toPagingState =
          freePage (getPage s.toPagingState).1 kernelStack) ∨
      (getPage s.toPagingState).2 ≠ 0#64 ∧
        (finishProcess s slot entryPoint kernelStack).2 = some slot ∧
        (finishProcess s slot entryPoint kernelStack).1.toPagingState =
          (getPage s.toPagingState).1 ∧
        ((finishProcess s slot entryPoint kernelStack).1.processes slot).kernelStack =
          (s.processes slot).kernelStack ∧
        ((finishProcess s slot entryPoint kernelStack).1.processes slot).userStack =
          (getPage s.toPagingState).2 := by
  rw [finishProcess, allocateUserStack]
  generalize getPage s.toPagingState = result
  obtain ⟨paging, page⟩ := result
  simp only
  by_cases none : page = 0#64
  · simp only [if_pos none]
    exact Or.inl ⟨none, trivial, rfl⟩
  · simp only [if_neg none]
    refine Or.inr ⟨none, trivial, rfl, ?_, ?_⟩
    · simp [KernelState.modify]
    · simp [KernelState.modify]

/-- A creation that finds a slot takes two pages, or gives back what it could take. -/
theorem createProcess_paging {s : KernelState} {slot : Slot} (found : freeSlot s = some slot)
    (entryPoint : BitVec 64) :
    ((getPage s.toPagingState).2 = 0#64 ∧ (createProcess s entryPoint).2 = none ∧
        (createProcess s entryPoint).1.toPagingState = (getPage s.toPagingState).1) ∨
      (getPage s.toPagingState).2 ≠ 0#64 ∧
        (((getPage (getPage s.toPagingState).1).2 = 0#64 ∧ (createProcess s entryPoint).2 = none ∧
            (createProcess s entryPoint).1.toPagingState =
              freePage (getPage (getPage s.toPagingState).1).1 (getPage s.toPagingState).2) ∨
          ((getPage (getPage s.toPagingState).1).2 ≠ 0#64 ∧
            (createProcess s entryPoint).2 = some slot ∧
            (createProcess s entryPoint).1.toPagingState =
              (getPage (getPage s.toPagingState).1).1 ∧
            ((createProcess s entryPoint).1.processes slot).kernelStack =
              (getPage s.toPagingState).2 ∧
            ((createProcess s entryPoint).1.processes slot).userStack =
              (getPage (getPage s.toPagingState).1).2)) := by
  have claim : (claimSlot s slot).toPagingState = s.toPagingState := rfl
  rw [createProcess, found]
  simp only [allocateKernelStack, claim]
  generalize getPage s.toPagingState = result
  obtain ⟨paging, page⟩ := result
  simp only
  by_cases first : page = 0#64
  · simp only [if_pos first]
    exact Or.inl ⟨first, trivial, rfl⟩
  · simp only [if_neg first]
    refine Or.inr ⟨first, ?_⟩
    rcases finishProcess_paging
        (KernelState.modify { claimSlot s slot with toPagingState := paging } slot fun proc =>
          { proc with kernelStack := page })
        slot entryPoint page with
      ⟨none, answer, kept⟩ | ⟨second, answer, kept, kernelStack, userStack⟩
    · exact Or.inl ⟨none, answer, kept⟩
    · refine Or.inr ⟨second, answer, kept, kernelStack.trans ?_, userStack⟩
      simp [KernelState.modify]

/-! ### The invariant -/

/-- The paging code's account is in order, no stack is a client's page, and no page is under two
stacks. -/
structure OwnedBooks (b : KernelBooks) : Prop where
  audited : Audited b.account
  apart : Disjoint b.held b.stackPages
  different : ∀ first ∈ b.stacked, ∀ second ∈ b.stacked, ∀ kind other,
    (b.processes first).stack kind = (b.processes second).stack other →
      first = second ∧ kind = other
  occupied : ∀ slot ∈ b.stacked, (b.processes slot).state ≠ .unused

theorem StackKind.mem_both (kind : StackKind) :
    kind ∈ ({.kernel, .user} : Finset StackKind) := by
  cases kind <;> decide

theorem mem_stackPages {b : KernelBooks} {page : BitVec 64} :
    page ∈ b.stackPages ↔
      ∃ slot ∈ b.stacked, ∃ kind, (b.processes slot).stack kind = page := by
  rw [KernelBooks.stackPages, Finset.mem_image]
  constructor
  · rintro ⟨⟨slot, kind⟩, member, same⟩
    exact ⟨slot, (Finset.mem_product.mp member).1, kind, same⟩
  · rintro ⟨slot, member, kind, same⟩
    exact ⟨(slot, kind), Finset.mem_product.mpr ⟨member, kind.mem_both⟩, same⟩

theorem card_stackPages {b : KernelBooks} (owned : OwnedBooks b) :
    b.stackPages.card = 2 * b.stacked.card := by
  rw [KernelBooks.stackPages, Finset.card_image_of_injOn, Finset.card_product,
    show ({StackKind.kernel, StackKind.user} : Finset StackKind).card = 2 from rfl, Nat.mul_comm]
  rintro ⟨first, kind⟩ memberFirst ⟨second, other⟩ memberSecond same
  rw [Finset.mem_coe, Finset.mem_product] at memberFirst memberSecond
  obtain ⟨slots, kinds⟩ := owned.different first memberFirst.1 second memberSecond.1 kind other same
  rw [slots, kinds]

/-- The stack pages are those of the records of the slots that were given stacks. -/
theorem stackPages_congr {b c : KernelBooks} (slots : c.stacked = b.stacked)
    (stack : ∀ slot ∈ b.stacked, (c.processes slot).stack = (b.processes slot).stack) :
    c.stackPages = b.stackPages := by
  ext page
  rw [mem_stackPages, mem_stackPages, slots]
  constructor
  · rintro ⟨slot, member, kind, same⟩
    exact ⟨slot, member, kind, (stack slot member) ▸ same⟩
  · rintro ⟨slot, member, kind, same⟩
    exact ⟨slot, member, kind, (stack slot member).symm ▸ same⟩

theorem takenState_eq {first second : TakenState}
    (paging : first.toPagingState = second.toPagingState) (held : first.held = second.held)
    (taken : first.taken = second.taken) : first = second := by
  obtain ⟨⟨pagingFirst, heldFirst⟩, takenFirst⟩ := first
  obtain ⟨⟨pagingSecond, heldSecond⟩, takenSecond⟩ := second
  obtain rfl : pagingFirst = pagingSecond := paging
  obtain rfl : heldFirst = heldSecond := held
  obtain rfl : takenFirst = takenSecond := taken
  rfl

/-! ### Calls that allocate nothing -/

theorem schedule_paging (s : KernelState) (savedRsp : BitVec 64) :
    (schedule s savedRsp).toPagingState = s.toPagingState := by
  rw [schedule]
  repeat' split
  all_goals rfl

theorem markExited_paging (s : KernelState) (status : BitVec 32) :
    (markExited s status).toPagingState = s.toPagingState := by
  rw [markExited]
  split <;> rfl

theorem sysBrkHandler_paging (s : KernelState) (addr : BitVec 64) :
    (sysBrkHandler s addr).1.toPagingState = s.toPagingState := by
  rw [sysBrkHandler]
  repeat' split
  all_goals rfl

/-- A change of the table that gives no slot another stack keeps the books in order. -/
theorem OwnedBooks.keeps {b : KernelBooks} (owned : OwnedBooks b) {next : KernelState}
    (keeps : KeepsStacks b.toKernelState next) (paging : next.toPagingState = b.toPagingState) :
    OwnedBooks { b with toKernelState := next } := by
  have pages : KernelBooks.stackPages { b with toKernelState := next } = b.stackPages :=
    stackPages_congr rfl fun slot _ => keeps.stack slot
  have account : KernelBooks.account { b with toKernelState := next } = b.account :=
    takenState_eq paging (congrArg (b.held ∪ ·) pages) rfl
  refine ⟨account ▸ owned.audited, pages ▸ owned.apart, ?_, fun slot member => ?_⟩
  · intro first memberFirst second memberSecond kind other same
    simp only [keeps.stack] at same
    exact owned.different first memberFirst second memberSecond kind other same
  · rcases keeps.state slot with same | zombie
    · exact same.trans_ne (owned.occupied slot member)
    · exact zombie.trans_ne ProcessState.noConfusion

/-! ### Creating a process -/

theorem takenStep_get_null {c : TakenState} (null : (getPage c.toPagingState).2 = 0#64) :
    takenStep c .get = { c with toPagingState := (getPage c.toPagingState).1 } :=
  takenState_eq rfl (if_pos null) rfl

theorem takenStep_get_page {c : TakenState} (nonNull : (getPage c.toPagingState).2 ≠ 0#64) :
    takenStep c .get =
      { toPagingState := (getPage c.toPagingState).1
        held := insert (getPage c.toPagingState).2 c.held
        taken := c.taken } :=
  takenState_eq rfl (if_neg nonNull) rfl

/-- A page that has just been handed out was nobody's. -/
theorem fresh_getPage {c : TakenState} (audited : Audited c)
    (nonNull : (getPage c.toPagingState).2 ≠ 0#64) : (getPage c.toPagingState).2 ∉ c.held := by
  rcases getPage_cases audited.managed with ⟨i, least, result⟩ | ⟨-, result⟩
  · rw [result]
    exact fun member => free_ne_used audited.managed least.1 (audited.heldUsed _ member) rfl
  · rw [result] at nonNull
    exact absurd rfl nonNull

/-- A page that is given back at once leaves the account as it was. -/
theorem audited_return {c : TakenState} (audited : Audited c)
    (nonNull : (getPage c.toPagingState).2 ≠ 0#64)
    (null : (getPage (getPage c.toPagingState).1).2 = 0#64) :
    Audited { c with
      toPagingState := freePage (getPage (getPage c.toPagingState).1).1
        (getPage c.toPagingState).2 } := by
  have first := audited_get audited
  rw [takenStep_get_page nonNull] at first
  have second := audited_get first
  rw [takenStep_get_null (c := TakenState.mk (ClientState.mk _ _) _) null] at second
  have third := audited_free second (Finset.mem_insert_self _ _)
  have restored : (insert (getPage c.toPagingState).2 c.held).erase (getPage c.toPagingState).2 =
      c.held := Finset.erase_insert (fresh_getPage audited nonNull)
  rw [takenStep, pagingStep] at third
  simp only [restored] at third
  exact third

/-- A slot gets two pages that nobody had. -/
theorem OwnedBooks.addStacks {b : KernelBooks} (owned : OwnedBooks b) {next : KernelState}
    {slot : Slot} (unused : (b.processes slot).state = .unused)
    (others : ∀ other ∈ b.stacked, next.processes other = b.processes other)
    (ready : (next.processes slot).state ≠ .unused)
    (fresh : ∀ kind, (next.processes slot).stack kind ∉ b.account.held)
    (two : (next.processes slot).kernelStack ≠ (next.processes slot).userStack)
    (audited : Audited
      { toPagingState := next.toPagingState
        held := insert (next.processes slot).userStack
          (insert (next.processes slot).kernelStack b.account.held)
        taken := b.taken }) :
    OwnedBooks { b with toKernelState := next, stacked := insert slot b.stacked } := by
  have outside : slot ∉ b.stacked := fun member => owned.occupied slot member unused
  have old {other : Slot} (member : other ∈ b.stacked) (kind : StackKind) :
      (next.processes other).stack kind ∈ b.account.held := by
    rw [others other member]
    exact Finset.mem_union_right _ (mem_stackPages.mpr ⟨other, member, kind, rfl⟩)
  have pages : KernelBooks.stackPages
      { b with toKernelState := next, stacked := insert slot b.stacked } =
        insert (next.processes slot).userStack
          (insert (next.processes slot).kernelStack b.stackPages) := by
    ext page
    rw [mem_stackPages, Finset.mem_insert, Finset.mem_insert, mem_stackPages]
    constructor
    · rintro ⟨other, member, kind, same⟩
      rcases Finset.mem_insert.mp member with rfl | member
      · cases kind with
        | kernel => exact Or.inr (Or.inl same.symm)
        | user => exact Or.inl same.symm
      · exact Or.inr (Or.inr ⟨other, member, kind, others other member ▸ same⟩)
    · rintro (rfl | rfl | ⟨other, member, kind, same⟩)
      · exact ⟨slot, Finset.mem_insert_self _ _, .user, rfl⟩
      · exact ⟨slot, Finset.mem_insert_self _ _, .kernel, rfl⟩
      · refine ⟨other, Finset.mem_insert_of_mem member, kind, ?_⟩
        rw [← same]
        exact congrArg (fun proc => Process.stack proc kind) (others other member)
  have held : b.held ∪ KernelBooks.stackPages
      { b with toKernelState := next, stacked := insert slot b.stacked } =
        insert (next.processes slot).userStack
          (insert (next.processes slot).kernelStack b.account.held) := by
    rw [pages, Finset.union_insert, Finset.union_insert]
    rfl
  refine ⟨?_, ?_, ?_, fun other member => ?_⟩
  · rw [KernelBooks.account, held]
    exact audited
  · rw [pages, Finset.disjoint_insert_right, Finset.disjoint_insert_right]
    exact ⟨fun member => fresh .user (Finset.mem_union_left _ member),
      fun member => fresh .kernel (Finset.mem_union_left _ member), owned.apart⟩
  · intro first memberFirst second memberSecond kind other same
    rcases Finset.mem_insert.mp memberFirst with rfl | oldFirst
    · rcases Finset.mem_insert.mp memberSecond with rfl | oldSecond
      · refine ⟨rfl, ?_⟩
        cases kind <;> cases other
        · rfl
        · exact absurd same two
        · exact absurd same.symm two
        · rfl
      · exact absurd (old oldSecond other) (same ▸ fresh kind)
    · rcases Finset.mem_insert.mp memberSecond with rfl | oldSecond
      · exact absurd (old oldFirst kind) (same.symm ▸ fresh other)
      · refine owned.different first oldFirst second oldSecond kind other ?_
        rw [← others first oldFirst, ← others second oldSecond]
        exact same
  · rcases Finset.mem_insert.mp member with rfl | member
    · exact ready
    · exact (congrArg Process.state (others other member)).trans_ne (owned.occupied other member)

/-- A call that gives nobody a page. -/
theorem OwnedBooks.sameOwners {b : KernelBooks} (owned : OwnedBooks b) {next : KernelState}
    (others : ∀ other ∈ b.stacked, next.processes other = b.processes other)
    (audited : Audited { b.account with toPagingState := next.toPagingState }) :
    OwnedBooks { b with toKernelState := next } := by
  have pages : KernelBooks.stackPages { b with toKernelState := next } = b.stackPages :=
    stackPages_congr rfl fun slot member => congrArg Process.stack (others slot member)
  refine ⟨?_, pages ▸ owned.apart, ?_, fun slot member => ?_⟩
  · rw [KernelBooks.account, pages]
    exact audited
  · intro first memberFirst second memberSecond kind other same
    simp only [others first memberFirst, others second memberSecond] at same
    exact owned.different first memberFirst second memberSecond kind other same
  · exact (congrArg Process.state (others slot member)).trans_ne (owned.occupied slot member)

/-- A creation, also one that gives up, keeps the books in order. -/
theorem OwnedBooks.create {b : KernelBooks} (owned : OwnedBooks b) (entryPoint : BitVec 64) :
    OwnedBooks { b with
      toKernelState := (createProcess b.toKernelState entryPoint).1
      stacked := addSlot b.stacked (createProcess b.toKernelState entryPoint).2 } := by
  have managed : Managed b.toMemoryState := owned.audited.managed
  cases found : freeSlot b.toKernelState with
  | none =>
    have result : createProcess b.toKernelState entryPoint = (b.toKernelState, none) := by
      rw [createProcess, found]
    rw [result]
    exact owned
  | some slot =>
    have others : ∀ other ∈ b.stacked,
        (createProcess b.toKernelState entryPoint).1.processes other = b.processes other :=
      fun other member => (createProcess_other managed (owned.occupied other member) entryPoint).1
    have first := audited_get owned.audited
    rcases createProcess_paging found entryPoint with ⟨null, failed, paging⟩ |
      ⟨nonNull, ⟨null, failed, paging⟩ | ⟨nonNullUser, answer, paging, kernelStack, userStack⟩⟩
    · rw [failed]
      refine owned.sameOwners others ?_
      rw [paging]
      rw [takenStep_get_null (c := b.account) null] at first
      exact first
    · rw [failed]
      refine owned.sameOwners others ?_
      rw [paging]
      exact audited_return owned.audited nonNull null
    · have second := audited_get first
      have freshKernel := fresh_getPage owned.audited nonNull
      rw [takenStep_get_page (c := b.account) nonNull] at first second
      have freshUser := fresh_getPage first nonNullUser
      rw [takenStep_get_page (by exact nonNullUser)] at second
      rw [answer]
      refine owned.addStacks (freeSlot_some found) others ?_ (fun kind => ?_) ?_ ?_
      · rcases createProcess_cases managed entryPoint with ⟨-, result⟩ |
          ⟨taken, next, i, j, found', -, -, result, created⟩ | ⟨taken, next, -, -, result, -⟩
        · rw [result] at answer
          exact absurd answer (Option.some_ne_none slot).symm
        · rw [result]
          obtain rfl := Option.some.inj (found.symm.trans found')
          rw [created.process]
          exact ProcessState.noConfusion
        · rw [result] at answer
          exact absurd answer (Option.some_ne_none slot).symm
      · cases kind with
        | kernel =>
          rw [Process.stack, kernelStack]
          exact freshKernel
        | user =>
          rw [Process.stack, userStack]
          exact fun member => freshUser (Finset.mem_insert_of_mem member)
      · rw [kernelStack, userStack]
        exact fun same => freshUser (same ▸ Finset.mem_insert_self _ _)
      · rw [kernelStack, userStack, paging]
        exact second

/-! ### Every call -/

theorem sysForkHandler_paging {s : KernelState} {parent : Slot}
    (running : s.current = some parent) :
    (sysForkHandler s).1.toPagingState =
      (createProcess s (s.processes parent).context.rip).1.toPagingState := by
  rw [sysForkHandler, running]
  simp only
  split
  case h_1 next result => rw [result]
  case h_2 next child result =>
    rw [result]
    rfl

theorem createdSlot_none {s : KernelState} (nobody : s.current = none) :
    createdSlot s .fork = none := by
  unfold createdSlot
  rw [nobody]

theorem createdSlot_some {s : KernelState} {parent : Slot} (running : s.current = some parent) :
    createdSlot s .fork = (createProcess s (s.processes parent).context.rip).2 := by
  unfold createdSlot
  rw [running]

section Step

variable {b : KernelBooks} (owned : OwnedBooks b)
include owned

theorem OwnedBooks.fork : OwnedBooks (bookStep b (.process .fork)) := by
  show OwnedBooks { b with
    toKernelState := (sysForkHandler b.toKernelState).1
    stacked := addSlot b.stacked (createdSlot b.toKernelState .fork) }
  cases running : b.current with
  | none =>
    have same : sysForkHandler b.toKernelState = (b.toKernelState, -1#64) := by
      rw [sysForkHandler, running]
    rw [same, createdSlot_none running]
    exact owned
  | some parent =>
    rw [createdSlot_some running]
    exact (owned.create (b.processes parent).context.rip).keeps
      (keepsStacks_sysForkHandler running) (sysForkHandler_paging running)

theorem OwnedBooks.get : OwnedBooks (bookStep b (.process .get)) := by
  have audited := audited_get owned.audited
  by_cases null : (getPage b.toPagingState).2 = 0#64
  · rw [takenStep_get_null (c := b.account) null] at audited
    have step : bookStep b (.process .get) =
        { b with toPagingState := (getPage b.toPagingState).1 } :=
      congrArg (fun held => KernelBooks.mk _ held _ _) (if_pos null)
    rw [step]
    exact ⟨audited, owned.apart, owned.different, owned.occupied⟩
  · have fresh := fresh_getPage owned.audited null
    rw [takenStep_get_page (c := b.account) null] at audited
    have step : bookStep b (.process .get) = { b with
        toPagingState := (getPage b.toPagingState).1
        held := insert (getPage b.toPagingState).2 b.held } :=
      congrArg (fun held => KernelBooks.mk _ held _ _) (if_neg null)
    rw [step]
    refine ⟨?_, ?_, owned.different, owned.occupied⟩
    · have held : insert (getPage b.toPagingState).2 b.held ∪ b.stackPages =
          insert (getPage b.toPagingState).2 b.account.held := Finset.insert_union ..
      rw [KernelBooks.account]
      show Audited { toPagingState := _, held := insert _ b.held ∪ b.stackPages, taken := _ }
      rw [held]
      exact audited
    · exact Finset.disjoint_insert_left.mpr
        ⟨fun member => fresh (Finset.mem_union_right _ member), owned.apart⟩

theorem OwnedBooks.free {page : BitVec 64} (member : page ∈ b.held) :
    OwnedBooks (bookStep b (.process (.free page))) := by
  have audited := audited_free owned.audited (Finset.mem_union_left b.stackPages member)
  have notStack : page ∉ b.stackPages := Finset.disjoint_left.mp owned.apart member
  refine ⟨?_, owned.apart.mono_left (Finset.erase_subset _ _), owned.different, owned.occupied⟩
  have held : b.held.erase page ∪ b.stackPages = b.account.held.erase page := by
    rw [KernelBooks.account, Finset.erase_union_distrib, Finset.erase_eq_of_notMem notStack]
  rw [KernelBooks.account]
  show Audited { toPagingState := _, held := b.held.erase page ∪ b.stackPages, taken := _ }
  rw [held]
  exact audited

/-- Every call keeps the books in order. -/
theorem ownedBooks_step {call : KernelCall}
    (frees : ∀ page, call = .process (.free page) → page ∈ b.held) :
    OwnedBooks (bookStep b call) := by
  cases call with
  | map virtualAddr physicalAddr flags =>
    exact ⟨audited_map owned.audited virtualAddr physicalAddr flags, owned.apart, owned.different,
      owned.occupied⟩
  | process call =>
    cases call with
    | create entryPoint => exact owned.create entryPoint
    | fork => exact owned.fork
    | schedule savedRsp =>
      exact owned.keeps (keepsStacks_schedule _ savedRsp) (schedule_paging _ savedRsp)
    | exit status savedRsp =>
      exact owned.keeps ((keepsStacks_markExited _ status).trans (keepsStacks_schedule _ savedRsp))
        ((schedule_paging _ savedRsp).trans (markExited_paging _ status))
    | brk addr => exact owned.keeps (keepsStacks_sysBrkHandler _ addr) (sysBrkHandler_paging _ addr)
    | get => exact owned.get
    | free page => exact owned.free (frees page rfl)

end Step

theorem ownedBooks_run {b : KernelBooks} (owned : OwnedBooks b) {calls : List KernelCall}
    (frees : FreesOwn b calls) : OwnedBooks (bookRun b calls) := by
  induction calls generalizing b with
  | nil => exact owned
  | cons call rest inductionHypothesis =>
    exact inductionHypothesis (ownedBooks_step owned frees.1) frees.2

/-! ### The start -/

theorem switchPml4_totalPages (s : PagingState) (currentPml4 : BitVec 64) :
    (switchPml4 s currentPml4).totalPages = s.totalPages := by
  rw [switchPml4]
  split
  · rfl
  · rfl

/-- `Init_Paging` over an allocator whose used pages are the ones the clients hold. -/
theorem audited_beginPaging {c : ClientState} (before : BeforePaging c)
    (balance : (pool c.toMemoryState).used = c.held.card) : Audited (beginPaging c) := by
  have accounted := accounted_beginPaging before
  have old := (pool c.toMemoryState).used_add_card_free
  rcases initPaging_cases before.managed before.mapped before.boot before.heldUsed with
    ⟨i, next, fresh, least, result, tables, grows, -⟩ | none
  · have total : next.totalPages = c.totalPages := by
      have same := congrArg (fun s : PagingState => s.totalPages) result
      rw [initPaging_some before.managed before.mapped before.boot least] at same
      refine same.symm.trans ((switchPml4_totalPages _ _).trans ?_)
      rw [setupKernelMappings_eq]
      exact ensureLeaf_totalPages _ _ _ _ _ _ _
    rw [beginPaging, result] at accounted ⊢
    refine ⟨tables.managed, tables.heldUsed, accounted, ?_⟩
    show (pool next.toMemoryState).used = pagesTaken c.toPagingState next + c.held.card
    have new := (pool next.toMemoryState).used_add_card_free
    have same : (pool next.toMemoryState).total = (pool c.toMemoryState).total :=
      congrArg BitVec.toNat total
    have fewer : (pool next.toMemoryState).free.card ≤ (pool c.toMemoryState).free.card := by
      have taken := grows.taken
      have less := Finset.card_erase_le (s := (pool c.toMemoryState).free) (a := i)
      rw [← free_freshPml4 before.managed least.1] at less
      omega
    rw [pagesTaken]
    omega
  · rw [beginPaging, none] at accounted ⊢
    refine ⟨before.managed, before.heldUsed, accounted, ?_⟩
    show (pool c.toMemoryState).used = pagesTaken c.toPagingState c.toPagingState + c.held.card
    rw [pagesTaken_self, balance, Nat.zero_add]

/-- `Init_Memory` leaves no page in use. -/
theorem used_initMemory (ram : Memory) : (pool (initMemory (bootMemory ram))).used = 0 := by
  have total : (pool (initMemory (bootMemory ram))).total =
      (detectedEnd ram - 0x100000) / 4096 := by
    rw [initMemory_eq]
    exact setUpBitmap_totalPages ram
  rw [IndexPool.used, free_initMemory, Finset.card_range, total, Nat.sub_self]

theorem keepsStacks_setPid (s : KernelState) (slot : Slot) (pid : BitVec 32)
    (current : Option Slot) :
    KeepsStacks s
      { s.modify slot fun proc => { proc with pid := pid } with current := current } where
  memory := rfl
  state other := by
    refine Or.inl ?_
    by_cases same : other = slot
    · rw [same]
      simp [KernelState.modify]
    · simp [KernelState.modify, Function.update_of_ne same]
  stack other := by
    funext kind
    by_cases same : other = slot
    · rw [same]
      cases kind <;> simp [KernelState.modify, Process.stack]
    · simp [KernelState.modify, Function.update_of_ne same]

/-- The books are in order when no slot has been given a stack. -/
theorem ownedBooks_of_no_stacks {s : KernelState} {taken : Nat}
    (audited : Audited { toPagingState := s.toPagingState, held := ∅, taken := taken }) :
    OwnedBooks { toKernelState := s, held := ∅, stacked := ∅, taken := taken } := by
  have none : KernelBooks.stackPages
      { toKernelState := s, held := ∅, stacked := ∅, taken := taken } = ∅ := by
    rw [KernelBooks.stackPages, Finset.empty_product, Finset.image_empty]
  refine ⟨?_, Finset.disjoint_empty_left _, fun first member => absurd member
    (Finset.notMem_empty first), fun slot member => absurd member (Finset.notMem_empty slot)⟩
  rw [KernelBooks.account, none, Finset.union_empty]
  exact audited

/-- The books are in order when the scheduler starts. -/
theorem ownedBooks_started {ram : Memory} (zeroed : ZeroedTables ram) (idle : BitVec 64) :
    OwnedBooks (startedBooks ram idle) := by
  have booted : (pool (bootPaging ram).toMemoryState).used = (∅ : Finset (BitVec 64)).card :=
    (used_initMemory (setUpBootTables ram)).trans Finset.card_empty.symm
  have audited := audited_beginPaging (beforePaging_boot zeroed) booted
  rw [beginPaging] at audited
  have empty := ownedBooks_of_no_stacks
    (s := resetProcesses (loadedKernel (initPaging (bootPaging ram)).1)) audited
  have created := empty.create idle
  rw [startedBooks]
  simp only [initProcessManager]
  generalize createProcess (resetProcesses (loadedKernel (initPaging (bootPaging ram)).1)) idle =
    result at created ⊢
  obtain ⟨next, answer⟩ := result
  cases answer with
  | none =>
    exact @OwnedBooks.sameOwners _ created (fallbackProcess next)
      (fun slot member => absurd member (Finset.notMem_empty slot)) created.audited
  | some slot => exact created.keeps (keepsStacks_setPid next slot 1#32 (some slot)) rfl

/-! ### Who owns a page -/

/-- The used pages, counted. -/
theorem ncard_usedPages {s : MemoryState} (managed : Managed s) :
    {page | ∃ i, UsedPage s page i}.ncard = (pool s).used := by
  have image : {page | ∃ i, UsedPage s page i} =
      ((Finset.range s.totalPages.toNat \ (pool s).free).image (pageAddress s) :
        Finset (BitVec 64)) := by
    ext page
    rw [Finset.mem_coe, Finset.mem_image, Set.mem_ofPred_eq]
    constructor
    · rintro ⟨i, inside, used, same⟩
      exact ⟨i, Finset.mem_sdiff.mpr ⟨Finset.mem_range.mpr inside, used⟩, same.symm⟩
    · rintro ⟨i, member, same⟩
      rw [Finset.mem_sdiff, Finset.mem_range] at member
      exact ⟨i, member.1, member.2, same.symm⟩
  have injective : Set.InjOn (pageAddress s)
      (Finset.range s.totalPages.toNat \ (pool s).free : Finset Nat) := by
    intro i memberI j memberJ same
    rw [Finset.mem_coe, Finset.mem_sdiff, Finset.mem_range] at memberI memberJ
    exact pageAddress_injective managed memberI.1 memberJ.1 same
  rw [image, Set.ncard_coe_finset, Finset.card_image_of_injOn injective]
  exact (pool s).used_eq_card.symm

theorem oneOwner_of_ownedBooks {b : KernelBooks} (owned : OwnedBooks b) : OneOwner b := by
  have tree := ownedTree_of_accounted owned.audited.accounted
  have managed : Managed b.toMemoryState := owned.audited.managed
  have balance : (pool b.toMemoryState).used = b.taken + (b.held ∪ b.stackPages).card :=
    owned.audited.balance
  have heldUsed : ∀ page ∈ b.held ∪ b.stackPages, ∃ i, UsedPage b.toMemoryState page i :=
    owned.audited.heldUsed
  have used {page : BitVec 64} {owner : PageOwner} (owns : Owns b page owner) :
      ∃ i, UsedPage b.toMemoryState page i := by
    cases owner with
    | table n => exact owns.2 ▸ tree.used n owns.1
    | stack slot kind =>
      have member := mem_stackPages.mpr ⟨slot, owns.1, kind, owns.2⟩
      exact heldUsed page (Finset.mem_union_right _ member)
    | client => exact heldUsed page (Finset.mem_union_left _ owns)
  -- Tables and held pages are as many as the used pages, and are among them.
  have everything :
      {page | ∃ n, OwnTable b.toPagingState n ∧ nodePage b.ram b.kernelPml4 n = page} ∪
        (b.held ∪ b.stackPages : Finset (BitVec 64)) =
      {page | ∃ i, UsedPage b.toMemoryState page i} := by
    have finite : {page | ∃ i, UsedPage b.toMemoryState page i}.Finite := Set.toFinite _
    refine Set.eq_of_subset_of_ncard_le ?_ ?_ finite
    · rintro page (⟨n, own, same⟩ | member)
      · exact @used page (.table n) ⟨own, same⟩
      · exact heldUsed page member
    · have apart : Disjoint
          {page | ∃ n, OwnTable b.toPagingState n ∧ nodePage b.ram b.kernelPml4 n = page}
          ((b.held ∪ b.stackPages : Finset (BitVec 64)) : Set (BitVec 64)) := by
        rw [Set.disjoint_left]
        rintro page ⟨n, own, rfl⟩
        exact tree.notHeld n own
      rw [Set.ncard_union_eq apart (Set.toFinite _) (Set.toFinite _), Set.ncard_coe_finset,
        ncard_usedPages managed, balance]
      exact Nat.add_le_add_right tree.counted.ge _
  refine ⟨fun page => ⟨fun inUse => ?_, fun ⟨owner, owns⟩ => used owns⟩, ?_, ?_⟩
  · have member : page ∈ {page | ∃ i, UsedPage b.toMemoryState page i} := inUse
    rw [← everything] at member
    rcases member with ⟨n, own, same⟩ | member
    · exact ⟨.table n, own, same⟩
    · rcases Finset.mem_union.mp member with held | stacked
      · exact ⟨.client, held⟩
      · obtain ⟨slot, member, kind, same⟩ := mem_stackPages.mp stacked
        exact ⟨.stack slot kind, member, same⟩
  · have tableApart {page : BitVec 64} {n : Node} (owns : Owns b page (.table n)) :
        page ∉ b.held ∪ b.stackPages := owns.2 ▸ tree.notHeld n owns.1
    have stackMember {page : BitVec 64} {slot : Slot} {kind : StackKind}
        (owns : Owns b page (.stack slot kind)) : page ∈ b.stackPages :=
      mem_stackPages.mpr ⟨slot, owns.1, kind, owns.2⟩
    intro page first second ownsFirst ownsSecond
    cases first with
    | table m =>
      cases second with
      | table n =>
        exact congrArg _ (tree.distinct m n ownsFirst.1 ownsSecond.1
          (ownsFirst.2.trans ownsSecond.2.symm))
      | stack slot kind =>
        exact absurd (Finset.mem_union_right _ (stackMember ownsSecond)) (tableApart ownsFirst)
      | client => exact absurd (Finset.mem_union_left _ ownsSecond) (tableApart ownsFirst)
    | stack slot kind =>
      cases second with
      | table n =>
        exact absurd (Finset.mem_union_right _ (stackMember ownsFirst)) (tableApart ownsSecond)
      | stack other otherKind =>
        obtain ⟨rfl, rfl⟩ := owned.different slot ownsFirst.1 other ownsSecond.1 kind otherKind
          (ownsFirst.2.trans ownsSecond.2.symm)
        rfl
      | client =>
        exact absurd (stackMember ownsFirst) (Finset.disjoint_left.mp owned.apart ownsSecond)
    | client =>
      cases second with
      | table n => exact absurd (Finset.mem_union_left _ ownsFirst) (tableApart ownsSecond)
      | stack slot kind =>
        exact absurd (stackMember ownsSecond) (Finset.disjoint_left.mp owned.apart ownsFirst)
      | client => rfl
  · have tables : {page | ∃ n, Owns b page (.table n)}.ncard = b.taken := tree.counted
    rw [managed.usedPages, balance, Finset.card_union_of_disjoint owned.apart,
      card_stackPages owned, tables]
    omega

/-- Every page has one owner. The boot code clears the PML4 only, so the memory of the tables under
it has to be zero before. Then after the boot code, `Init_Memory`, `Init_Paging` and
`InitProcessManager`, and after any calls of the process manager, the allocator and the paging code
in which clients free only pages they hold: a page is in use exactly if it is a table the kernel
reaches, the page under a stack or a page a client holds, it is one of these only, and `used_pages`
is the number of tables, twice the number of slots with stacks and the clients' pages together. -/
theorem kernel_pages_have_one_owner (ram : Memory) (zeroed : ZeroedTables ram) (idle : BitVec 64)
    (calls : List KernelCall) (frees : FreesOwn (startedBooks ram idle) calls) :
    OneOwner (bookRun (startedBooks ram idle) calls) :=
  oneOwner_of_ownedBooks (ownedBooks_run (ownedBooks_started zeroed idle) frees)

theorem freesOwn_of_no_free {b : KernelBooks} {calls : List KernelCall}
    (none : ∀ page, .process (.free page) ∉ calls) : FreesOwn b calls := by
  induction calls generalizing b with
  | nil => trivial
  | cons call rest inductionHypothesis =>
    refine ⟨?_, inductionHypothesis fun page member => none page (List.mem_cons_of_mem _ member)⟩
    rintro page rfl
    exact absurd List.mem_cons_self (none page)

/-- The machine of a blank memory, with a mapping, an allocation and two creations. -/
theorem kernel_pages_have_one_owner_blank :
    OneOwner (bookRun (startedBooks (fun _ => 0#8) 0x11000#64)
      [.map 0x40000000#64 0x200000#64 3#64, .process .get, .process (.create 0x12000#64),
        .process .fork]) := by
  exact kernel_pages_have_one_owner _ zeroedTables_blank _ _ (freesOwn_of_no_free (by simp))

end M12
