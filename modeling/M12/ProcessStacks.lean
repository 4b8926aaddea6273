/-
This file is about the pages under the processes' stacks.

Every process `create_process` sets up should own its two stack pages: they are
in use in the bitmap, they are different, and no other process has them. Clients
of the allocator may free only what they obtained themselves. The invariant that
carries this over a run adds that the clients' pages are in use too and are not
stacks. One kind of call breaks it: creating a process with fewer than two free
pages leaves a ready slot whose kernel stack is not an allocated page, and the
page may later become a stack of another process.
-/

import M12.ProcessCount
import M12.Usable

namespace M12

/-! ### Stacks -/

inductive StackKind where
  | kernel
  | user
deriving DecidableEq

/-- The page under a stack of a process. -/
def Process.stack (proc : Process) : StackKind → BitVec 64
  | .kernel => proc.kernelStack
  | .user => proc.userStack

/-- A ready or running slot, unless it was set up without `create_process`. -/
def Stacked (s : KernelState) (byHand : Finset Slot) (slot : Slot) : Prop :=
  slot ∉ byHand ∧ ((s.processes slot).state = .ready ∨ (s.processes slot).state = .running)

/-- The stacks are pages in use, and no two of them are the same page. -/
structure ExclusiveStacks (s : KernelState) (byHand : Finset Slot) : Prop where
  used : ∀ slot, Stacked s byHand slot → ∀ kind,
    ∃ i, UsedPage s.toMemoryState ((s.processes slot).stack kind) i
  exclusive : ∀ first second, Stacked s byHand first → Stacked s byHand second →
    ∀ kind other, (s.processes first).stack kind = (s.processes second).stack other →
      first = second ∧ kind = other

/-- The invariant: the stacks are exclusive, and apart from the pages the clients hold. -/
structure OwnedStacks (s : KernelState) (byHand : Finset Slot) (held : Finset (BitVec 64)) :
    Prop extends ExclusiveStacks s byHand where
  managed : Managed s.toMemoryState
  heldUsed : ∀ page ∈ held, ∃ i, UsedPage s.toMemoryState page i
  apart : ∀ slot, Stacked s byHand slot → ∀ kind, (s.processes slot).stack kind ∉ held
  occupied : ∀ slot ∈ byHand, (s.processes slot).state ≠ .unused

/-! ### Calls that create nothing -/

/-- The table of `next` has no new stacks. -/
structure KeepsStacks (s next : KernelState) : Prop where
  memory : next.toMemoryState = s.toMemoryState
  state : ∀ slot, (next.processes slot).state = (s.processes slot).state ∨
    (next.processes slot).state = .zombie
  stack : ∀ slot, (next.processes slot).stack = (s.processes slot).stack

theorem KeepsStacks.refl (s : KernelState) : KeepsStacks s s :=
  ⟨rfl, fun _ => Or.inl rfl, fun _ => rfl⟩

theorem KeepsStacks.trans {first second third : KernelState} (early : KeepsStacks first second)
    (late : KeepsStacks second third) : KeepsStacks first third := by
  refine ⟨late.memory.trans early.memory, fun slot => ?_,
    fun slot => (late.stack slot).trans (early.stack slot)⟩
  rcases late.state slot with same | zombie
  · rw [same]
    exact early.state slot
  · exact Or.inr zombie

theorem KeepsStacks.stacked {s next : KernelState} (keeps : KeepsStacks s next)
    {byHand : Finset Slot} {slot : Slot} (stacked : Stacked next byHand slot) :
    Stacked s byHand slot := by
  refine ⟨stacked.1, ?_⟩
  rcases keeps.state slot with same | zombie
  · rw [← same]
    exact stacked.2
  · have active := stacked.2
    rw [zombie] at active
    rcases active with ready | running
    · exact ProcessState.noConfusion ready
    · exact ProcessState.noConfusion running

theorem OwnedStacks.keeps {s next : KernelState} {byHand : Finset Slot}
    {held : Finset (BitVec 64)} (owned : OwnedStacks s byHand held) (keeps : KeepsStacks s next) :
    OwnedStacks next byHand held where
  used := by
    intro slot stacked kind
    rw [keeps.memory, keeps.stack]
    exact owned.used slot (keeps.stacked stacked) kind
  exclusive := by
    intro first second stackedFirst stackedSecond kind other same
    rw [keeps.stack, keeps.stack] at same
    exact owned.exclusive first second (keeps.stacked stackedFirst) (keeps.stacked stackedSecond)
      kind other same
  managed := by
    rw [keeps.memory]
    exact owned.managed
  heldUsed := by
    rw [keeps.memory]
    exact owned.heldUsed
  apart := by
    intro slot stacked kind
    rw [keeps.stack]
    exact owned.apart slot (keeps.stacked stacked) kind
  occupied := by
    intro slot inside
    rcases keeps.state slot with same | zombie
    · rw [same]
      exact owned.occupied slot inside
    · rw [zombie]
      exact ProcessState.noConfusion

theorem keepsStacks_modify (s : KernelState) (slot : Slot) (assign : Process → Process)
    (state : ∀ proc, (assign proc).state = proc.state ∨ (assign proc).state = .zombie)
    (stack : ∀ proc, (assign proc).stack = proc.stack) : KeepsStacks s (s.modify slot assign) := by
  refine ⟨rfl, fun other => ?_, fun other => ?_⟩
  · by_cases same : other = slot
    · rw [same, modify_self]
      exact state _
    · rw [modify_other s slot assign same]
      exact Or.inl rfl
  · by_cases same : other = slot
    · rw [same, modify_self]
      exact stack _
    · rw [modify_other s slot assign same]

theorem AssignsCurrent.keepsStacks {s next : KernelState} {assign : Process → Process}
    (assigns : AssignsCurrent s next assign)
    (state : ∀ proc, (assign proc).state = proc.state ∨ (assign proc).state = .zombie)
    (stack : ∀ proc, (assign proc).stack = proc.stack) : KeepsStacks s next := by
  refine ⟨assigns.memory, fun slot => ?_, fun slot => ?_⟩
  · rcases assigns.record slot with same | ⟨-, assigned⟩
    · exact Or.inl (congrArg Process.state same)
    · rw [assigned]
      exact state _
  · rcases assigns.record slot with same | ⟨-, assigned⟩
    · rw [same]
    · rw [assigned]
      exact stack _

theorem keepsStacks_schedule (s : KernelState) (savedRsp : BitVec 64) :
    KeepsStacks s (schedule s savedRsp) :=
  (assignsCurrent_schedule s savedRsp).keepsStacks (fun _ => Or.inl rfl) fun _ => rfl

theorem keepsStacks_markExited (s : KernelState) (status : BitVec 32) :
    KeepsStacks s (markExited s status) :=
  (assignsCurrent_markExited s status).keepsStacks (fun _ => Or.inr rfl) fun _ => rfl

theorem keepsStacks_sysBrkHandler (s : KernelState) (addr : BitVec 64) :
    KeepsStacks s (sysBrkHandler s addr).1 :=
  (assignsCurrent_sysBrkHandler s addr).keepsStacks (fun _ => Or.inl rfl) fun _ => rfl

/-! ### Creating a process -/

section Created

variable {s next : KernelState} {slot : Slot} {entryPoint : BitVec 64} {i j : Nat}
  (managed : Managed s.toMemoryState) (created : Created s next slot entryPoint i j)
  (first : i ∈ (pool s.toMemoryState).free) (second : j ∈ (pool s.toMemoryState).free.erase i)

include managed created first second

/-- The new stacks were free pages and are now in use. -/
theorem Created.stack (kind : StackKind) :
    ∃ k, k ∈ (pool s.toMemoryState).free ∧
      (next.processes slot).stack kind = pageAddress s.toMemoryState k ∧
      UsedPage next.toMemoryState ((next.processes slot).stack kind) k := by
  have insideFirst : i < s.totalPages.toNat := IndexPool.lt_total first
  have insideSecond : j < s.totalPages.toNat := IndexPool.lt_total (Finset.mem_of_mem_erase second)
  have managedFirst := managed_claimed managed first
  rw [created.process, created.memory]
  cases kind with
  | kernel =>
    exact ⟨i, first, rfl,
      usedPage_claimed managedFirst insideSecond (usedPage_claimed_self managed insideFirst)⟩
  | user =>
    exact ⟨j, Finset.mem_of_mem_erase second, rfl,
      usedPage_claimed_self managedFirst insideSecond⟩

theorem Created.used {page : BitVec 64} (used : ∃ k, UsedPage s.toMemoryState page k) :
    ∃ k, UsedPage next.toMemoryState page k := by
  obtain ⟨k, used⟩ := used
  have insideFirst : i < s.totalPages.toNat := IndexPool.lt_total first
  have insideSecond : j < s.totalPages.toNat := IndexPool.lt_total (Finset.mem_of_mem_erase second)
  rw [created.memory]
  exact ⟨k, usedPage_claimed (managed_claimed managed first) insideSecond
    (usedPage_claimed managed insideFirst used)⟩

theorem Created.stack_injective {kind other : StackKind}
    (same : (next.processes slot).stack kind = (next.processes slot).stack other) :
    kind = other := by
  have different : pageAddress s.toMemoryState i ≠ pageAddress s.toMemoryState j := fun equal =>
    Finset.ne_of_mem_erase second (pageAddress_injective managed (IndexPool.lt_total first)
      (IndexPool.lt_total (Finset.mem_of_mem_erase second)) equal).symm
  rw [created.process] at same
  cases kind with
  | kernel =>
    cases other with
    | kernel => rfl
    | user => exact absurd same different
  | user =>
    cases other with
    | kernel => exact absurd same.symm different
    | user => rfl

omit managed first second in
theorem Created.stacked_other {byHand : Finset Slot} {other : Slot} (different : other ≠ slot)
    (stacked : Stacked next byHand other) : Stacked s byHand other := by
  rw [Stacked, created.others other different] at stacked
  exact stacked

/-- A stack of an older process is not one of the new pages: those were free. -/
theorem Created.fresh {byHand : Finset Slot} {held : Finset (BitVec 64)}
    (owned : OwnedStacks s byHand held) {other : Slot} (different : other ≠ slot)
    (stacked : Stacked next byHand other) (kind otherKind : StackKind) :
    (next.processes slot).stack kind ≠ (next.processes other).stack otherKind := by
  obtain ⟨k, free, page, -⟩ := Created.stack managed created first second kind
  rw [page, created.others other different]
  exact free_ne_used managed free
    (owned.used other (created.stacked_other different stacked) otherKind)

theorem ownedStacks_created (unused : (s.processes slot).state = .unused) {byHand : Finset Slot}
    {held : Finset (BitVec 64)} (owned : OwnedStacks s byHand held) :
    OwnedStacks next byHand held := by
  have fresh := @Created.fresh s next slot entryPoint i j managed created first second byHand held
    owned
  refine ⟨⟨?_, ?_⟩, ?_, ?_, ?_, ?_⟩
  · intro other stacked kind
    by_cases same : other = slot
    · obtain ⟨k, -, -, used⟩ := Created.stack managed created first second kind
      rw [same]
      exact ⟨k, used⟩
    · rw [created.others other same]
      exact Created.used managed created first second
        (owned.used other (created.stacked_other same stacked) kind)
  · intro one two stackedOne stackedTwo kind other same
    by_cases oneNew : one = slot
    · by_cases twoNew : two = slot
      · rw [oneNew, twoNew] at same
        exact ⟨oneNew.trans twoNew.symm, Created.stack_injective managed created first second same⟩
      · rw [oneNew] at same
        exact absurd same (fresh twoNew stackedTwo kind other)
    · by_cases twoNew : two = slot
      · rw [twoNew] at same
        exact absurd same.symm (fresh oneNew stackedOne other kind)
      · rw [created.others one oneNew, created.others two twoNew] at same
        exact owned.exclusive one two (created.stacked_other oneNew stackedOne)
          (created.stacked_other twoNew stackedTwo) kind other same
  · rw [created.memory]
    exact (takesTwo_claimed_claimed managed first second).managed
  · intro page inside
    exact Created.used managed created first second (owned.heldUsed page inside)
  · intro other stacked kind inside
    by_cases same : other = slot
    · obtain ⟨k, free, page, -⟩ := Created.stack managed created first second kind
      rw [same, page] at inside
      exact free_ne_used managed free (owned.heldUsed _ inside) rfl
    · rw [created.others other same] at inside
      exact owned.apart other (created.stacked_other same stacked) kind inside
  · intro other inside
    have different : other ≠ slot := by
      rintro rfl
      exact owned.occupied other inside unused
    rw [created.others other different]
    exact owned.occupied other inside

end Created

/-- A process that could not get its pages is left ready without a stack. -/
theorem Stranded.not_exclusive {s next : KernelState} {slot : Slot}
    (stranded : Stranded s next slot) {byHand : Finset Slot} (outside : slot ∉ byHand) :
    ¬ ExclusiveStacks next byHand := by
  intro exclusive
  obtain ⟨i, used⟩ := exclusive.used slot ⟨outside, Or.inl stranded.state⟩ .kernel
  exact stranded.kernelStack i used

theorem ownedStacks_createProcess {s : KernelState} {byHand : Finset Slot}
    {held : Finset (BitVec 64)} (owned : OwnedStacks s byHand held)
    (enough : EnoughPages s) (entryPoint : BitVec 64) :
    OwnedStacks (createProcess s entryPoint).1 byHand held := by
  rcases createProcess_cases owned.managed entryPoint with ⟨-, result⟩ |
    ⟨slot, next, i, j, found, least, leastJ, result, created⟩ | ⟨slot, next, found, few, result, -⟩
  · rw [result]
    exact owned
  · rw [result]
    exact ownedStacks_created owned.managed created least.1 leastJ.1 (freeSlot_some found) owned
  · exact absurd (enough ⟨slot, freeSlot_some found⟩) (Nat.not_le.mpr few)

theorem not_exclusive_createProcess {s : KernelState} {byHand : Finset Slot}
    {held : Finset (BitVec 64)} (owned : OwnedStacks s byHand held) (few : ¬ EnoughPages s)
    (entryPoint : BitVec 64) :
    ∃ next, createProcess s entryPoint = (next, none) ∧ ¬ ExclusiveStacks next byHand := by
  rw [EnoughPages, Classical.not_imp] at few
  obtain ⟨⟨unused, free⟩, few⟩ := few
  rcases createProcess_cases owned.managed entryPoint with ⟨full, -⟩ |
    ⟨slot, next, i, j, -, least, leastJ, -, -⟩ | ⟨slot, next, found, -, result, stranded⟩
  · exact absurd free (freeSlot_none full unused)
  · exact absurd (twoFree_of_least least.1 leastJ.1) few
  · refine ⟨next, result, stranded.not_exclusive fun inside => ?_⟩
    exact owned.occupied slot inside (freeSlot_some found)

/-- `sys_fork_handler` is `create_process` as far as stacks are concerned. -/
theorem keepsStacks_sysForkHandler {s : KernelState} {parent : Slot}
    (running : s.current = some parent) :
    KeepsStacks (createProcess s (s.processes parent).context.rip).1 (sysForkHandler s).1 := by
  rw [sysForkHandler, running]
  simp only
  split
  case h_1 next result =>
    rw [result]
    exact KeepsStacks.refl next
  case h_2 next child result =>
    rw [result]
    exact keepsStacks_modify next child (fun proc => { proc with
      context := { (next.processes parent).context with rax := 0#64 } })
      (fun _ => Or.inl rfl) (fun _ => rfl)

/-! ### Allocating and freeing -/

theorem ownedStacks_get {s : KernelState} {byHand : Finset Slot} {held : Finset (BitVec 64)}
    (owned : OwnedStacks s byHand held) :
    OwnedStacks { s with toPagingState := (getPage s.toPagingState).1 } byHand
      (if (getPage s.toPagingState).2 = 0#64 then held
        else insert (getPage s.toPagingState).2 held) := by
  rcases getPage_cases owned.managed with ⟨i, least, result⟩ | ⟨-, result⟩
  · have inside : i < s.totalPages.toNat := IndexPool.lt_total least.1
    rw [result, if_neg (pageAddress_ne_zero owned.managed inside)]
    refine ⟨⟨fun slot stacked kind => ?_, owned.exclusive⟩, managed_claimed owned.managed least.1,
      fun page member => ?_, fun slot stacked kind member => ?_, owned.occupied⟩
    · obtain ⟨j, used⟩ := owned.used slot stacked kind
      exact ⟨j, usedPage_claimed owned.managed inside used⟩
    · rcases Finset.mem_insert.mp member with rfl | member
      · exact ⟨i, usedPage_claimed_self owned.managed inside⟩
      · obtain ⟨j, used⟩ := owned.heldUsed page member
        exact ⟨j, usedPage_claimed owned.managed inside used⟩
    · rcases Finset.mem_insert.mp member with same | member
      · exact free_ne_used owned.managed least.1 (owned.used slot stacked kind) same.symm
      · exact owned.apart slot stacked kind member
  · rw [result, if_pos rfl]
    exact owned

theorem ownedStacks_free {s : KernelState} {byHand : Finset Slot} {held : Finset (BitVec 64)}
    (owned : OwnedStacks s byHand held) {page : BitVec 64} (member : page ∈ held) :
    OwnedStacks { s with toPagingState := freePage s.toPagingState page } byHand
      (held.erase page) := by
  obtain ⟨i, used⟩ := owned.heldUsed page member
  have result : freePage s.toPagingState page =
      { s.toPagingState with toMemoryState := released s.toMemoryState i } := by
    rw [freePage]
    rcases freePhysicalPage_cases owned.managed page with ⟨j, usedJ, result⟩ | ⟨unused, -⟩
    · rw [result, usedPage_unique owned.managed used usedJ]
    · exact absurd used (unused i)
  have kept : ∀ other, (∃ j, UsedPage s.toMemoryState other j) → other ≠ page →
      ∃ j, UsedPage (released s.toMemoryState i) other j := by
    rintro other ⟨j, usedOther⟩ different
    refine ⟨j, usedPage_released owned.managed used.1 usedOther ?_⟩
    rw [← used.2.2]
    exact different
  rw [result]
  refine ⟨⟨fun slot stacked kind => ?_, owned.exclusive⟩,
    managed_released owned.managed used.1 used.2.1, fun other memberOther => ?_,
    fun slot stacked kind memberOther => ?_, owned.occupied⟩
  · refine kept _ (owned.used slot stacked kind) fun same => ?_
    exact owned.apart slot stacked kind (same.symm ▸ member)
  · exact kept other (owned.heldUsed other (Finset.mem_of_mem_erase memberOther))
      (Finset.ne_of_mem_erase memberOther)
  · exact owned.apart slot stacked kind (Finset.mem_of_mem_erase memberOther)

/-! ### Runs -/

/-- The kernel's state with the pages its clients hold. -/
structure OwnerState extends KernelState where
  held : Finset (BitVec 64)

/-- One call, with what it does to the pages the clients hold. -/
def ownerStep (c : OwnerState) (call : ProcessCall) : OwnerState where
  toKernelState := processStep c.toKernelState call
  held :=
    match call with
    | .get =>
      if (getPage c.toPagingState).2 = 0#64 then c.held
      else insert (getPage c.toPagingState).2 c.held
    | .free page => c.held.erase page
    | _ => c.held

/-- The state after a sequence of calls. -/
def ownerRun (c : OwnerState) (calls : List ProcessCall) : OwnerState := calls.foldl ownerStep c

/-- The clients free only pages they hold. -/
def FreesHeld (c : OwnerState) (calls : List ProcessCall) : Prop :=
  ∀ done page, done ++ [.free page] <+: calls → page ∈ (ownerRun c done).held

/-- The call does not create a process with too few pages for its stacks. -/
def PagedCall (s : KernelState) : ProcessCall → Prop
  | .create _ => EnoughPages s
  | .fork => EnoughPages s
  | _ => True

theorem ownerRun_append (c : OwnerState) (done : List ProcessCall) (call : ProcessCall) :
    ownerRun c (done ++ [call]) = ownerStep (ownerRun c done) call :=
  List.foldl_append ..

theorem ownerRun_kernel (c : OwnerState) (calls : List ProcessCall) :
    (ownerRun c calls).toKernelState = processRun c.toKernelState calls := by
  induction calls generalizing c with
  | nil => rfl
  | cons call rest inductionHypothesis => exact inductionHypothesis (ownerStep c call)

theorem ownedStacks_ownerStep {c : OwnerState} {byHand : Finset Slot}
    (owned : OwnedStacks c.toKernelState byHand c.held) {running : Slot}
    (current : c.current = some running) {call : ProcessCall}
    (permitted : ∀ page, call = .free page → page ∈ c.held)
    (paged : PagedCall c.toKernelState call) :
    OwnedStacks (ownerStep c call).toKernelState byHand (ownerStep c call).held := by
  cases call with
  | create entryPoint => exact ownedStacks_createProcess owned paged entryPoint
  | fork =>
    exact (ownedStacks_createProcess owned paged _).keeps (keepsStacks_sysForkHandler current)
  | schedule savedRsp => exact owned.keeps (keepsStacks_schedule _ savedRsp)
  | exit status savedRsp =>
    exact owned.keeps ((keepsStacks_markExited _ status).trans (keepsStacks_schedule _ savedRsp))
  | brk addr => exact owned.keeps (keepsStacks_sysBrkHandler _ addr)
  | get => exact ownedStacks_get owned
  | free page => exact ownedStacks_free owned (permitted page rfl)

theorem pagedCall_of_exclusive {c : OwnerState} {byHand : Finset Slot}
    (owned : OwnedStacks c.toKernelState byHand c.held) {running : Slot}
    (current : c.current = some running) {call : ProcessCall}
    (exclusive : ExclusiveStacks (ownerStep c call).toKernelState byHand) :
    PagedCall c.toKernelState call := by
  by_contra few
  cases call with
  | create entryPoint =>
    obtain ⟨next, failed, broken⟩ := not_exclusive_createProcess owned few entryPoint
    have after : (ownerStep c (.create entryPoint)).toKernelState = next :=
      congrArg Prod.fst failed
    exact broken (after ▸ exclusive)
  | fork =>
    obtain ⟨next, failed, broken⟩ := not_exclusive_createProcess owned few _
    have after : (ownerStep c .fork).toKernelState = next :=
      congrArg Prod.fst (sysForkHandler_eq current failed)
    exact broken (after ▸ exclusive)
  | schedule savedRsp => exact few trivial
  | exit status savedRsp => exact few trivial
  | brk addr => exact few trivial
  | get => exact few trivial
  | free page => exact few trivial

/-! ### The start -/

/-- The slot `InitProcessManager` sets up by hand when it cannot create the idle process. -/
def byHandSlots (s : KernelState) (idle : BitVec 64) : Finset Slot :=
  match (createProcess (resetProcesses s) idle).2 with
  | some _ => ∅
  | none => {0}

/-- The clients hold nothing when the process manager starts. -/
def startedOwner (s : KernelState) (idle : BitVec 64) : OwnerState where
  toKernelState := initProcessManager s idle
  held := ∅

theorem startedOwner_kernel (s : KernelState) (idle : BitVec 64) :
    (startedOwner s idle).toKernelState = initProcessManager s idle := rfl

theorem ownedStacks_of_not_stacked {s : KernelState} {byHand : Finset Slot}
    (managed : Managed s.toMemoryState) (unstacked : ∀ slot, ¬ Stacked s byHand slot)
    (occupied : ∀ slot ∈ byHand, (s.processes slot).state ≠ .unused) :
    OwnedStacks s byHand ∅ where
  used := fun slot stacked => absurd stacked (unstacked slot)
  exclusive := fun first _ stacked => absurd stacked (unstacked first)
  managed := managed
  heldUsed := fun page member => absurd member (Finset.notMem_empty page)
  apart := fun _ _ _ => Finset.notMem_empty _
  occupied := occupied

theorem not_stacked_of_unused {s : KernelState} {byHand : Finset Slot} {slot : Slot}
    (unused : (s.processes slot).state = .unused) : ¬ Stacked s byHand slot := by
  rintro ⟨-, ready | running⟩
  · exact ProcessState.noConfusion (unused.symm.trans ready)
  · exact ProcessState.noConfusion (unused.symm.trans running)

theorem ownedStacks_startedOwner {s : KernelState} (managed : Managed s.toMemoryState)
    (idle : BitVec 64) :
    OwnedStacks (startedOwner s idle).toKernelState (byHandSlots s idle) ∅ := by
  have reset : OwnedStacks (resetProcesses s) ∅ ∅ :=
    ownedStacks_of_not_stacked managed (fun _ => not_stacked_of_unused rfl)
      fun slot member => absurd member (Finset.notMem_empty slot)
  rw [startedOwner, initProcessManager, byHandSlots]
  rcases createProcess_cases (s := resetProcesses s) managed idle with ⟨full, -⟩ |
    ⟨slot, next, i, j, found, least, leastJ, result, created⟩ |
    ⟨slot, next, found, few, result, stranded⟩
  · rw [freeSlot_resetProcesses] at full
    exact absurd full (Option.some_ne_none 0)
  · rw [result]
    have owned := ownedStacks_created reset.managed created least.1 leastJ.1 rfl reset
    have keeps := keepsStacks_modify next slot (fun proc => { proc with pid := 1#32 })
      (fun _ => Or.inl rfl) (fun _ => rfl)
    exact owned.keeps ⟨keeps.memory, keeps.state, keeps.stack⟩
  · rw [result]
    obtain rfl : 0 = slot := by
      rw [freeSlot_resetProcesses] at found
      exact Option.some.inj found
    have states := congrArg Roster.states (roster_fallbackProcess next)
    refine ownedStacks_of_not_stacked stranded.managed (fun other stacked => ?_)
      fun other member => ?_
    · have different : other ≠ 0 := fun same => stacked.1 (Finset.mem_singleton.mpr same)
      refine not_stacked_of_unused ?_ stacked
      have state := congrFun states other
      simp only [Function.update_of_ne different] at state
      exact state.trans (congrArg Process.state (stranded.others other different))
    · have state := congrFun states 0
      simp only [Function.update_self] at state
      rw [Finset.mem_singleton.mp member]
      exact fun unused => ProcessState.noConfusion (state.symm.trans unused)

/-- Along a run whose calls, from states that satisfy the invariant, have the pages they need, the
invariant holds. -/
theorem ownedStacks_ownerRun {c : OwnerState} {byHand : Finset Slot}
    (owned : OwnedStacks c.toKernelState byHand c.held) (occupied : c.roster.Occupied)
    {calls : List ProcessCall} (frees : FreesHeld c calls)
    (paged : ∀ done call, done ++ [call] <+: calls →
      OwnedStacks (ownerRun c done).toKernelState byHand (ownerRun c done).held →
        PagedCall (ownerRun c done).toKernelState call)
    {done : List ProcessCall} (isPrefix : done <+: calls) :
    OwnedStacks (ownerRun c done).toKernelState byHand (ownerRun c done).held := by
  induction done using List.reverseRecOn with
  | nil => exact owned
  | append_singleton done call inductionHypothesis =>
    have before := inductionHypothesis ((List.prefix_append done [call]).trans isPrefix)
    obtain ⟨running, current, -⟩ := occupied_processRun owned.managed occupied done
    rw [← ownerRun_kernel] at current
    rw [ownerRun_append]
    refine ownedStacks_ownerStep before current (fun page free => ?_)
      (paged done call isPrefix before)
    rw [free] at isPrefix
    exact frees done page isPrefix

/-- When the clients free only their own pages, the stacks are exclusive in every state of a run
from `InitProcessManager` on, exactly when no call of the run creates a process with too few
pages. -/
theorem stacks_exclusive_iff (s : KernelState) (managed : Managed s.toMemoryState)
    (idle : BitVec 64) (calls : List ProcessCall) (frees : FreesHeld (startedOwner s idle) calls) :
    (∀ done, done <+: calls →
        ExclusiveStacks (ownerRun (startedOwner s idle) done).toKernelState (byHandSlots s idle)) ↔
      ∀ done call, done ++ [call] <+: calls →
        PagedCall (ownerRun (startedOwner s idle) done).toKernelState call := by
  have owned := ownedStacks_startedOwner managed idle
  have occupied : (startedOwner s idle).roster.Occupied := occupied_initProcessManager managed idle
  have running : ∀ done, ∃ slot, (ownerRun (startedOwner s idle) done).current = some slot := by
    intro done
    obtain ⟨slot, current, -⟩ := occupied_processRun owned.managed occupied done
    rw [← ownerRun_kernel] at current
    exact ⟨slot, current⟩
  constructor
  · intro exclusive
    have step : ∀ done call, done ++ [call] <+: calls →
        OwnedStacks (ownerRun (startedOwner s idle) done).toKernelState (byHandSlots s idle)
          (ownerRun (startedOwner s idle) done).held →
        PagedCall (ownerRun (startedOwner s idle) done).toKernelState call := by
      intro done call isPrefix before
      obtain ⟨slot, current⟩ := running done
      have after := exclusive _ isPrefix
      rw [ownerRun_append] at after
      exact pagedCall_of_exclusive before current after
    intro done call isPrefix
    exact step done call isPrefix (ownedStacks_ownerRun owned occupied frees step
      ((List.prefix_append done [call]).trans isPrefix))
  · intro paged done isPrefix
    exact (ownedStacks_ownerRun owned occupied frees
      (fun done call isPrefix _ => paged done call isPrefix) isPrefix).toExclusiveStacks

/-- On a machine whose memory is zero, a run that creates one process keeps its stacks exclusive. -/
theorem stacks_exclusive_create : Managed blankKernel.toMemoryState ∧
    ∀ done, done <+: [.create 0x1B00#64] →
      ExclusiveStacks (ownerRun (startedOwner blankKernel 0x1A00#64) done).toKernelState
        (byHandSlots blankKernel 0x1A00#64) := by
  obtain ⟨managed, many⟩ := managed_blankKernel
  generalize blankKernel = s at managed many ⊢
  refine ⟨managed, (stacks_exclusive_iff s managed 0x1A00#64 [.create 0x1B00#64] ?_).mpr ?_⟩
  · intro done page isPrefix
    exact absurd (eq_of_prefix_singleton isPrefix).2 ProcessCall.noConfusion
  · intro done call isPrefix
    obtain ⟨rfl, rfl⟩ := eq_of_prefix_singleton isPrefix
    refine fun _ => ?_
    have few := (takesTwo_initProcessManager managed 0x1A00#64).few
    rw [ownerRun_kernel, processRun_nil, startedOwner_kernel, TwoFree]
    omega

/-- A machine with five pages, up to the start of the process manager. -/
def scarceKernel : KernelState :=
  loadedKernel (initPaging (bootPaging (oneEntryTable 0x100000#64 0x5000#64))).1

theorem zeroedTables_oneEntryTable (base length : BitVec 64) :
    ZeroedTables (oneEntryTable base length) := by
  intro x low high
  have outside : ∀ start : BitVec 64, 0x5000 ≤ start.toNat → start.toNat < 0x6000 →
      ∀ width ≤ 64, ¬ 8 * (x - start).toNat < width := by
    intro start above below width small
    rw [BitVec.toNat_sub]
    omega
  have count := outside 0x5000#64 (by decide) (by decide) 16 (by decide)
  have first := outside 0x5002#64 (by decide) (by decide) 64 (by decide)
  have second := outside 0x500A#64 (by decide) (by decide) 64 (by decide)
  have kind := outside 0x5012#64 (by decide) (by decide) 32 (by decide)
  rw [oneEntryTable, ByteMemory.store_of_not_within _ _ kind,
    ByteMemory.store_of_not_within _ _ second, ByteMemory.store_of_not_within _ _ first,
    ByteMemory.store_of_not_within _ _ count]

theorem managed_scarceKernel : Managed scarceKernel.toMemoryState ∧
    (pool scarceKernel.toMemoryState).free.card = 2 := by
  have five : detectedPages (setUpBootTables (oneEntryTable 0x100000#64 0x5000#64)) = 5 := by
    rw [detectedPages_setUpBootTables]
    decide +kernel
  have zeroed := zeroedTables_oneEntryTable 0x100000#64 0x5000#64
  have complete : (initPaging (bootPaging (oneEntryTable 0x100000#64 0x5000#64))).2 = true := by
    rcases initPaging_spec zeroed with ⟨-, grown, result, -⟩ | ⟨few, -⟩
    · rw [result]
    · omega
  have loaded := managed_loadedKernel (started_initPaging zeroed complete)
  rw [five] at loaded
  exact loaded

/-- With two free pages `InitProcessManager` takes both. -/
theorem free_initProcessManager {s : KernelState} (managed : Managed s.toMemoryState)
    (two : (pool s.toMemoryState).free.card = 2) (idle : BitVec 64) :
    ¬ TwoFree (initProcessManager s idle).toMemoryState := by
  rw [initProcessManager]
  rcases createProcess_cases (s := resetProcesses s) managed idle with ⟨full, -⟩ |
    ⟨slot, next, i, j, -, least, leastJ, result, created⟩ | ⟨slot, next, -, few, -, -⟩
  · rw [freeSlot_resetProcesses] at full
    exact absurd full (Option.some_ne_none 0)
  · have free := free_claimed_claimed managed least.1 leastJ.1
    have empty : (pool next.toMemoryState).free.card = 0 := by
      rw [created.memory, show (resetProcesses s).toMemoryState = s.toMemoryState from rfl, free,
        Finset.card_erase_of_mem (show j ∈ (pool s.toMemoryState).free.erase i from leastJ.1),
        Finset.card_erase_of_mem (show i ∈ (pool s.toMemoryState).free from least.1), two]
    rw [result, TwoFree]
    exact fun enough => absurd (enough.trans_eq empty) (by decide)
  · exact absurd two (Nat.ne_of_lt few)

/-- There the next process is left ready with a kernel stack that is not a page in use. -/
theorem stacks_not_exclusive_scarce :
    FreesHeld (startedOwner scarceKernel 0x1A00#64) [.create 0x1B00#64] ∧
      ¬ ∀ done, done <+: [.create 0x1B00#64] →
        ExclusiveStacks (ownerRun (startedOwner scarceKernel 0x1A00#64) done).toKernelState
          (byHandSlots scarceKernel 0x1A00#64) := by
  obtain ⟨managed, two⟩ := managed_scarceKernel
  generalize scarceKernel = s at managed two ⊢
  have few := free_initProcessManager managed two 0x1A00#64
  have frees : FreesHeld (startedOwner s 0x1A00#64) [.create 0x1B00#64] := fun done page isPrefix =>
    absurd (eq_of_prefix_singleton isPrefix).2 ProcessCall.noConfusion
  have owned := ownedStacks_startedOwner managed 0x1A00#64
  refine ⟨frees, fun exclusive => few ?_⟩
  have after := exclusive [.create 0x1B00#64] (List.prefix_refl _)
  rw [ownerRun_kernel, processRun_cons, processRun_nil, startedOwner_kernel] at after
  rw [startedOwner_kernel] at owned
  have unused := unused_initProcessManager managed 0x1A00#64 (show (1 : Slot) ≠ 0 by decide)
  by_contra missing
  obtain ⟨next, failed, broken⟩ := not_exclusive_createProcess owned
    (fun enough => missing (enough ⟨1, unused⟩)) 0x1B00#64
  rw [processStep, failed] at after
  exact broken after

end M12
