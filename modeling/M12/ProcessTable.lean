/-
This file says once what each call does to the process table.

`create_process` has three outcomes: no unused slot, and nothing happens; two
free pages, and the slot becomes a ready process that owns them; or a slot but
fewer than two pages, and the slot is left ready, uncounted and with a kernel
stack that is not an allocated page. Everything about the process manager is
read off that case distinction and off the one for the scheduler's search.
-/

import M12.Process
import M12.OwnedTables

namespace M12

open ByteMemory

/-! ### Assigning fields -/

section Modify

variable (s : KernelState) (slot : Slot) (assign : Process → Process)

theorem modify_self : (s.modify slot assign).processes slot = assign (s.processes slot) :=
  Function.update_self ..

theorem modify_other {other : Slot} (different : other ≠ slot) :
    (s.modify slot assign).processes other = s.processes other :=
  Function.update_of_ne different ..

/-- Two assignments to one slot are one. -/
theorem modify_modify (next : Process → Process) :
    (s.modify slot assign).modify slot next = s.modify slot fun proc => next (assign proc) := by
  have self := modify_self s slot assign
  rw [KernelState.modify, self]
  exact congrArg (fun processes => { s with processes := processes })
    (Function.update_idem ..)

end Modify

/-! ### The calls that create nothing -/

/-- A call that assigns to the record of the current process, if to any, and touches neither the
other records nor the allocator. -/
structure AssignsCurrent (s next : KernelState) (assign : Process → Process) : Prop where
  memory : next.toMemoryState = s.toMemoryState
  nextPid : next.nextPid = s.nextPid
  record : ∀ slot, next.processes slot = s.processes slot ∨
    s.current = some slot ∧ next.processes slot = assign (s.processes slot)

theorem AssignsCurrent.refl (s : KernelState) (assign : Process → Process) :
    AssignsCurrent s s assign := ⟨rfl, rfl, fun _ => Or.inl rfl⟩

theorem assignsCurrent_modify {s : KernelState} {slot : Slot} (current : s.current = some slot)
    (assign : Process → Process) : AssignsCurrent s (s.modify slot assign) assign := by
  refine ⟨rfl, rfl, fun other => ?_⟩
  by_cases same : other = slot
  · rw [same, modify_self]
    exact Or.inr ⟨current, rfl⟩
  · exact Or.inl (modify_other s slot assign same)

theorem AssignsCurrent.other {s next : KernelState} {assign : Process → Process}
    (assigns : AssignsCurrent s next assign) {slot : Slot} (waiting : s.current ≠ some slot) :
    next.processes slot = s.processes slot :=
  (assigns.record slot).resolve_right fun both => waiting both.1

/-- The scheduler saves the stack pointer of the process it leaves. -/
theorem assignsCurrent_schedule (s : KernelState) (savedRsp : BitVec 64) :
    AssignsCurrent s (schedule s savedRsp) fun proc =>
      { proc with context := { proc.context with r15 := savedRsp } } := by
  rw [schedule]
  split
  · exact AssignsCurrent.refl s _
  · split
    · exact AssignsCurrent.refl s _
    case h_2 old current =>
      split
      · exact AssignsCurrent.refl s _
      · have saved := assignsCurrent_modify current fun proc =>
          { proc with context := { proc.context with r15 := savedRsp } }
        exact ⟨saved.memory, saved.nextPid, saved.record⟩

theorem assignsCurrent_markExited (s : KernelState) (status : BitVec 32) :
    AssignsCurrent s (markExited s status) fun proc =>
      { proc with state := .zombie, exitCode := status } := by
  rw [markExited]
  split
  · exact AssignsCurrent.refl s _
  case h_2 slot current =>
    have ended := assignsCurrent_modify current fun proc =>
      { proc with state := .zombie, exitCode := status }
    exact ⟨ended.memory, ended.nextPid, ended.record⟩

theorem assignsCurrent_sysBrkHandler (s : KernelState) (addr : BitVec 64) :
    AssignsCurrent s (sysBrkHandler s addr).1 fun proc => { proc with brk := addr } := by
  rw [sysBrkHandler]
  split
  · exact AssignsCurrent.refl s _
  case h_2 slot current =>
    split
    · exact assignsCurrent_modify current fun proc => { proc with brk := addr }
    · exact AssignsCurrent.refl s _

/-! ### The free slot -/

theorem freeSlot_some {s : KernelState} {slot : Slot} (found : freeSlot s = some slot) :
    (s.processes slot).state = .unused := by
  have held := List.find?_some found
  exact of_decide_eq_true held

theorem freeSlot_none {s : KernelState} (none : freeSlot s = none) (slot : Slot) :
    (s.processes slot).state ≠ .unused := by
  have failed := List.find?_eq_none.mp none slot (List.mem_finRange slot)
  exact fun unused => failed (decide_eq_true unused)

/-! ### The outcomes of create_process -/

/-- A process has been created in `slot` with the pages `i` and `j` as its stacks. -/
structure Created (s next : KernelState) (slot : Slot) (entryPoint : BitVec 64) (i j : Nat) :
    Prop where
  memory : next.toMemoryState = claimed (claimed s.toMemoryState i) j
  process : next.processes slot =
    { pid := s.nextPid
      state := .ready
      context := freshContext entryPoint (pageAddress s.toMemoryState i)
      pageTable := s.kernelPml4
      kernelStack := pageAddress s.toMemoryState i
      userStack := pageAddress s.toMemoryState j
      exitCode := (s.processes slot).exitCode
      parent := s.current
      brk := 0x400000#64 }
  others : ∀ other ≠ slot, next.processes other = s.processes other
  current : next.current = s.current
  nextPid : next.nextPid = s.nextPid + 1#32
  processCount : next.processCount = s.processCount + 1#32

/-- An allocation failed after `slot` had been claimed: the slot is ready, but it has not been
counted and its kernel stack is not an allocated page. -/
structure Stranded (s next : KernelState) (slot : Slot) : Prop where
  managed : Managed next.toMemoryState
  pages : pool next.toMemoryState = pool s.toMemoryState
  state : (next.processes slot).state = .ready
  pid : (next.processes slot).pid = s.nextPid
  parent : (next.processes slot).parent = s.current
  kernelStack : ∀ i, ¬ UsedPage next.toMemoryState (next.processes slot).kernelStack i
  others : ∀ other ≠ slot, next.processes other = s.processes other
  current : next.current = s.current
  nextPid : next.nextPid = s.nextPid + 1#32
  processCount : next.processCount = s.processCount

theorem usedPage_ne_zero {s : MemoryState} (managed : Managed s) (i : Nat) :
    ¬ UsedPage s 0#64 i := fun used => pageAddress_ne_zero managed used.1 used.2.2.symm

/-- Handing a page out and taking it back leaves the pool as it was. -/
theorem pool_released_claimed {s : MemoryState} (managed : Managed s) {i : Nat}
    (free : i ∈ (pool s).free) : pool (released (claimed s i) i) = pool s := by
  have inside : i < s.totalPages.toNat := IndexPool.lt_total free
  refine IndexPool.ext rfl ?_
  rw [free_released (managed_claimed managed free) inside, free_claimed managed inside,
    Finset.insert_erase free]

theorem managed_released_claimed {s : MemoryState} (managed : Managed s) {i : Nat}
    (free : i ∈ (pool s).free) : Managed (released (claimed s i) i) := by
  have inside : i < s.totalPages.toNat := IndexPool.lt_total free
  refine managed_released (managed_claimed managed free) inside ?_
  rw [free_claimed managed inside]
  exact Finset.notMem_erase i _

/-- The same table over another state of the allocator. -/
def KernelState.withMemory (s : KernelState) (memory : MemoryState) : KernelState :=
  { s with toMemoryState := memory }

/-- The two allocations, as one statement about the field they assign. -/
theorem allocate_cases (allocate : KernelState → Slot → KernelState × BitVec 64)
    (assign : BitVec 64 → Process → Process)
    (unfolded : ∀ s slot, allocate s slot =
      ({ s with toPagingState := (getPage s.toPagingState).1 }.modify slot
        (assign (getPage s.toPagingState).2), (getPage s.toPagingState).2))
    {s : KernelState} {m : MemoryState} (memory : s.toMemoryState = m) (managed : Managed m)
    (slot : Slot) :
    (∃ i, IsLeast ((pool m).free : Set Nat) i ∧ allocate s slot =
        ((s.withMemory (claimed m i)).modify slot (assign (pageAddress m i)), pageAddress m i)) ∨
      ((pool m).free = ∅ ∧ allocate s slot = (s.modify slot (assign 0#64), 0#64)) := by
  subst memory
  rw [unfolded]
  rcases getPage_cases managed with ⟨i, least, result⟩ | ⟨exhausted, result⟩
  · rw [result]
    exact Or.inl ⟨i, least, rfl⟩
  · rw [result]
    exact Or.inr ⟨exhausted, rfl⟩

theorem allocateKernelStack_cases {s : KernelState} {m : MemoryState}
    (memory : s.toMemoryState = m) (managed : Managed m) (slot : Slot) :
    (∃ i, IsLeast ((pool m).free : Set Nat) i ∧ allocateKernelStack s slot =
        ((s.withMemory (claimed m i)).modify slot fun proc =>
          { proc with kernelStack := pageAddress m i }, pageAddress m i)) ∨
      ((pool m).free = ∅ ∧ allocateKernelStack s slot =
        (s.modify slot fun proc => { proc with kernelStack := 0#64 }, 0#64)) :=
  allocate_cases allocateKernelStack (fun page proc => { proc with kernelStack := page })
    (fun _ _ => rfl) memory managed slot

theorem allocateUserStack_cases {s : KernelState} {m : MemoryState}
    (memory : s.toMemoryState = m) (managed : Managed m) (slot : Slot) :
    (∃ i, IsLeast ((pool m).free : Set Nat) i ∧ allocateUserStack s slot =
        ((s.withMemory (claimed m i)).modify slot fun proc =>
          { proc with userStack := pageAddress m i }, pageAddress m i)) ∨
      ((pool m).free = ∅ ∧ allocateUserStack s slot =
        (s.modify slot fun proc => { proc with userStack := 0#64 }, 0#64)) :=
  allocate_cases allocateUserStack (fun page proc => { proc with userStack := page })
    (fun _ _ => rfl) memory managed slot

/-- The second half of `create_process`, once page `i` is the kernel stack. -/
theorem finishProcess_cases {s : KernelState} {m : MemoryState} (managed : Managed m) {i : Nat}
    (free : i ∈ (pool m).free) (memory : s.toMemoryState = claimed m i) (slot : Slot)
    (entryPoint : BitVec 64) :
    (∃ j, IsLeast (((pool m).free.erase i : Finset Nat) : Set Nat) j ∧
        finishProcess s slot entryPoint (pageAddress m i) =
          ({ (s.withMemory (claimed (claimed m i) j)).modify slot fun proc => { proc with
              userStack := pageAddress m j
              context := freshContext entryPoint (pageAddress m i) } with
            processCount := s.processCount + 1#32 }, some slot)) ∨
      ((pool m).free.erase i = ∅ ∧ finishProcess s slot entryPoint (pageAddress m i) =
        ((s.withMemory (released (claimed m i) i)).modify slot fun proc =>
          { proc with userStack := 0#64 }, none)) := by
  have inside : i < m.totalPages.toNat := IndexPool.lt_total free
  have managedFirst := managed_claimed managed free
  have freeFirst := free_claimed managed inside
  rw [finishProcess]
  rcases allocateUserStack_cases memory managedFirst slot with ⟨j, least, result⟩ |
    ⟨exhausted, result⟩
  · have nonNull : pageAddress (claimed m i) j ≠ 0#64 :=
      pageAddress_ne_zero managedFirst (IndexPool.lt_total least.1)
    rw [freeFirst] at least
    refine Or.inl ⟨j, least, ?_⟩
    rw [result]
    simp only [if_neg nonNull]
    rw [modify_modify]
    rfl
  · rw [freeFirst] at exhausted
    refine Or.inr ⟨exhausted, ?_⟩
    rw [result]
    simp only [if_true]
    have freed : freePhysicalPage s.toMemoryState (pageAddress m i) =
        released (claimed m i) i := by
      have used := usedPage_claimed_self managed inside
      rw [memory]
      rcases freePhysicalPage_cases managedFirst (pageAddress m i) with ⟨j, usedJ, result⟩ |
        ⟨unused, -⟩
      · rw [result, usedPage_unique managedFirst used usedJ]
      · exact absurd used (unused i)
    rw [← freed]
    rfl

/-- Without a page for the kernel stack. -/
theorem stranded_noKernelStack {s : KernelState} (managed : Managed s.toMemoryState)
    (slot : Slot) :
    Stranded s ((claimSlot s slot).modify slot fun proc => { proc with kernelStack := 0#64 })
      slot := by
  refine ⟨managed, rfl, ?_, ?_, ?_, ?_, ?_, rfl, rfl, rfl⟩
  · simp [KernelState.modify, claimSlot]
  · simp [KernelState.modify, claimSlot]
  · simp [KernelState.modify, claimSlot]
  · intro i
    rw [modify_self]
    exact usedPage_ne_zero managed i
  · intro other different
    simp [KernelState.modify, claimSlot, different]

/-- Without one for the user stack: the page of the kernel stack has been given back. -/
theorem stranded_noUserStack {s : KernelState} (managed : Managed s.toMemoryState) {i : Nat}
    (free : i ∈ (pool s.toMemoryState).free) (slot : Slot) :
    Stranded s
      (((((claimSlot s slot).withMemory (claimed s.toMemoryState i)).modify slot fun proc =>
        { proc with kernelStack := pageAddress s.toMemoryState i }).withMemory
          (released (claimed s.toMemoryState i) i)).modify slot fun proc =>
            { proc with userStack := 0#64 }) slot := by
  have managedNext := managed_released_claimed managed free
  refine ⟨managedNext, pool_released_claimed managed free, ?_, ?_, ?_, ?_, ?_, rfl, rfl, rfl⟩
  · simp [KernelState.modify, KernelState.withMemory, claimSlot]
  · simp [KernelState.modify, KernelState.withMemory, claimSlot]
  · simp [KernelState.modify, KernelState.withMemory, claimSlot]
  · intro j
    rw [← pool_released_claimed managed free] at free
    have unused : ¬ UsedPage (released (claimed s.toMemoryState i) i)
        (pageAddress s.toMemoryState i) j := not_usedPage_of_free managedNext free j
    simpa [KernelState.modify, KernelState.withMemory] using unused
  · intro other different
    simp [KernelState.modify, KernelState.withMemory, claimSlot, different]

theorem createProcess_cases {s : KernelState} (managed : Managed s.toMemoryState)
    (entryPoint : BitVec 64) :
    (freeSlot s = none ∧ createProcess s entryPoint = (s, none)) ∨
      (∃ slot next i j, freeSlot s = some slot ∧ IsLeast ((pool s.toMemoryState).free : Set Nat) i ∧
        IsLeast (((pool s.toMemoryState).free.erase i : Finset Nat) : Set Nat) j ∧
        createProcess s entryPoint = (next, some slot) ∧ Created s next slot entryPoint i j) ∨
      ∃ slot next, freeSlot s = some slot ∧ (pool s.toMemoryState).free.card < 2 ∧
        createProcess s entryPoint = (next, none) ∧ Stranded s next slot := by
  rw [createProcess]
  cases found : freeSlot s with
  | none => exact Or.inl ⟨rfl, rfl⟩
  | some slot =>
    refine Or.inr ?_
    simp only
    rcases allocateKernelStack_cases (s := claimSlot s slot) (m := s.toMemoryState) rfl managed
        slot with ⟨i, least, result⟩ | ⟨exhausted, result⟩
    · have inside : i < s.totalPages.toNat := IndexPool.lt_total least.1
      have nonNull : pageAddress s.toMemoryState i ≠ 0#64 := pageAddress_ne_zero managed inside
      rw [result]
      simp only [if_neg nonNull]
      rcases finishProcess_cases (s := ((claimSlot s slot).withMemory
          (claimed s.toMemoryState i)).modify slot fun proc =>
            { proc with kernelStack := pageAddress s.toMemoryState i }) managed least.1 rfl slot
          entryPoint with ⟨j, leastJ, resultJ⟩ | ⟨exhausted, resultJ⟩
      · refine Or.inl ⟨slot, _, i, j, rfl, least, leastJ, resultJ, rfl, ?_, ?_, rfl, rfl, rfl⟩
        · simp [KernelState.modify, KernelState.withMemory, claimSlot]
        · intro other different
          simp [KernelState.modify, KernelState.withMemory, claimSlot, different]
      · refine Or.inr ⟨slot, _, rfl, ?_, resultJ, stranded_noUserStack managed least.1 slot⟩
        have card := Finset.card_erase_of_mem least.1
        rw [exhausted, Finset.card_empty] at card
        omega
    · rw [result]
      simp only [if_true]
      refine Or.inr ⟨slot, _, rfl, ?_, rfl, stranded_noKernelStack managed slot⟩
      rw [exhausted]
      decide

/-! ### The records of the other slots -/

theorem createProcess_other {s : KernelState} (managed : Managed s.toMemoryState) {slot : Slot}
    (used : (s.processes slot).state ≠ .unused) (entryPoint : BitVec 64) :
    (createProcess s entryPoint).1.processes slot = s.processes slot ∧
      (createProcess s entryPoint).2 ≠ some slot := by
  rcases createProcess_cases managed entryPoint with ⟨-, result⟩ |
    ⟨taken, next, i, j, found, -, -, result, created⟩ | ⟨taken, next, found, -, result, stranded⟩
  · rw [result]
    exact ⟨rfl, (Option.some_ne_none slot).symm⟩
  · have different : slot ≠ taken := by
      rintro rfl
      exact used (freeSlot_some found)
    rw [result]
    exact ⟨created.others slot different, fun same => different (Option.some.inj same).symm⟩
  · have different : slot ≠ taken := by
      rintro rfl
      exact used (freeSlot_some found)
    rw [result]
    exact ⟨stranded.others slot different, (Option.some_ne_none slot).symm⟩

theorem markExited_current (s : KernelState) (status : BitVec 32) :
    (markExited s status).current = s.current := by
  rw [markExited]
  split <;> rfl

theorem sysForkHandler_other {s : KernelState} (managed : Managed s.toMemoryState) {slot : Slot}
    (used : (s.processes slot).state ≠ .unused) :
    (sysForkHandler s).1.processes slot = s.processes slot := by
  rw [sysForkHandler]
  split
  · rfl
  case h_2 parent current =>
    obtain ⟨same, other⟩ := createProcess_other managed used (s.processes parent).context.rip
    split
    case h_1 next result =>
      rw [result] at same
      exact same
    case h_2 next child result =>
      rw [result] at same other
      have different : slot ≠ child := fun equal => other (congrArg some equal.symm)
      exact (Function.update_of_ne different ..).trans same

/-- `sys_fork_handler`, when `create_process` has answered. -/
theorem sysForkHandler_eq {s next : KernelState} {parent : Slot} {child : Option Slot}
    (running : s.current = some parent)
    (result : createProcess s (s.processes parent).context.rip = (next, child)) :
    sysForkHandler s =
      match child with
      | none => (next, -1#64)
      | some child =>
        (next.modify child fun proc => { proc with
            context := { (next.processes parent).context with rax := 0#64 } },
          (next.processes child).pid.setWidth 64) := by
  rw [sysForkHandler, running]
  simp only [result]
  cases child <;> rfl

/-- The record of a slot in use changes only while the slot is current. -/
theorem processStep_other {s : KernelState} (managed : Managed s.toMemoryState) {slot : Slot}
    (used : (s.processes slot).state ≠ .unused) (waiting : s.current ≠ some slot)
    (call : ProcessCall) : (processStep s call).processes slot = s.processes slot := by
  cases call with
  | create entryPoint => exact (createProcess_other managed used entryPoint).1
  | fork => exact sysForkHandler_other managed used
  | schedule savedRsp => exact (assignsCurrent_schedule s savedRsp).other waiting
  | exit status savedRsp =>
    have still : (markExited s status).current ≠ some slot := by
      rw [markExited_current]
      exact waiting
    exact ((assignsCurrent_schedule _ savedRsp).other still).trans
      ((assignsCurrent_markExited s status).other waiting)
  | brk addr => exact (assignsCurrent_sysBrkHandler s addr).other waiting
  | get => rfl
  | free page => rfl

/-! ### The allocator under the process manager -/

/-- The allocator is consistent, and at most two pages have been taken from it. -/
structure TakesTwo (before after : MemoryState) : Prop where
  managed : Managed after
  few : (pool before).free.card ≤ (pool after).free.card + 2

theorem TakesTwo.refl {s : MemoryState} (managed : Managed s) : TakesTwo s s :=
  ⟨managed, Nat.le_add_right _ _⟩

theorem takesTwo_claimed {s : MemoryState} (managed : Managed s) {i : Nat}
    (free : i ∈ (pool s).free) : TakesTwo s (claimed s i) := by
  refine ⟨managed_claimed managed free, ?_⟩
  rw [free_claimed managed (IndexPool.lt_total free), Finset.card_erase_of_mem free]
  omega

theorem free_claimed_claimed {s : MemoryState} (managed : Managed s) {i j : Nat}
    (first : i ∈ (pool s).free) (second : j ∈ (pool s).free.erase i) :
    (pool (claimed (claimed s i) j)).free = ((pool s).free.erase i).erase j := by
  have inside : j < s.totalPages.toNat := IndexPool.lt_total (Finset.mem_of_mem_erase second)
  rw [free_claimed (managed_claimed managed first) inside,
    free_claimed managed (IndexPool.lt_total first)]

theorem takesTwo_claimed_claimed {s : MemoryState} (managed : Managed s) {i j : Nat}
    (first : i ∈ (pool s).free) (second : j ∈ (pool s).free.erase i) :
    TakesTwo s (claimed (claimed s i) j) := by
  have freeFirst := free_claimed managed (IndexPool.lt_total first)
  refine ⟨managed_claimed (managed_claimed managed first) (freeFirst ▸ second), ?_⟩
  rw [free_claimed_claimed managed first second, Finset.card_erase_of_mem second,
    Finset.card_erase_of_mem first]
  omega

theorem takesTwo_freePhysicalPage {s : MemoryState} (managed : Managed s) (page : BitVec 64) :
    TakesTwo s (freePhysicalPage s page) := by
  rcases freePhysicalPage_cases managed page with ⟨i, used, result⟩ | ⟨-, result⟩
  · rw [result]
    refine ⟨managed_released managed used.1 used.2.1, ?_⟩
    rw [free_released managed used.1, Finset.card_insert_of_notMem used.2.1]
    omega
  · rw [result]
    exact TakesTwo.refl managed

theorem takesTwo_createProcess {s : KernelState} (managed : Managed s.toMemoryState)
    (entryPoint : BitVec 64) :
    TakesTwo s.toMemoryState (createProcess s entryPoint).1.toMemoryState := by
  rcases createProcess_cases managed entryPoint with ⟨-, result⟩ |
    ⟨slot, next, i, j, -, least, leastJ, result, created⟩ | ⟨slot, next, -, -, result, stranded⟩
  · rw [result]
    exact TakesTwo.refl managed
  · rw [result, created.memory]
    exact takesTwo_claimed_claimed managed least.1 leastJ.1
  · rw [result]
    refine ⟨stranded.managed, ?_⟩
    rw [stranded.pages]
    exact Nat.le_add_right _ _

theorem sysForkHandler_memory (s : KernelState) :
    (sysForkHandler s).1.toMemoryState = s.toMemoryState ∨
      ∃ entryPoint, (sysForkHandler s).1.toMemoryState =
        (createProcess s entryPoint).1.toMemoryState := by
  rw [sysForkHandler]
  cases s.current with
  | none => exact Or.inl rfl
  | some parent =>
    refine Or.inr ⟨(s.processes parent).context.rip, ?_⟩
    simp only
    split
    case h_1 next result => rw [result]
    case h_2 next child result =>
      rw [result]
      rfl

theorem takesTwo_processStep {s : KernelState} (managed : Managed s.toMemoryState)
    (call : ProcessCall) : TakesTwo s.toMemoryState (processStep s call).toMemoryState := by
  cases call with
  | create entryPoint => exact takesTwo_createProcess managed entryPoint
  | fork =>
    rw [processStep]
    rcases sysForkHandler_memory s with same | ⟨entryPoint, created⟩
    · rw [same]
      exact TakesTwo.refl managed
    · rw [created]
      exact takesTwo_createProcess managed entryPoint
  | schedule savedRsp =>
    rw [processStep, (assignsCurrent_schedule s savedRsp).memory]
    exact TakesTwo.refl managed
  | exit status savedRsp =>
    rw [processStep, sysExitHandlerReal, (assignsCurrent_schedule _ savedRsp).memory,
      (assignsCurrent_markExited s status).memory]
    exact TakesTwo.refl managed
  | brk addr =>
    rw [processStep, (assignsCurrent_sysBrkHandler s addr).memory]
    exact TakesTwo.refl managed
  | get =>
    rw [processStep]
    rcases getPage_cases managed with ⟨i, least, result⟩ | ⟨-, result⟩
    · rw [result]
      exact takesTwo_claimed managed least.1
    · rw [result]
      exact TakesTwo.refl managed
  | free page => exact takesTwo_freePhysicalPage managed page

theorem managed_processRun {s : KernelState} (managed : Managed s.toMemoryState)
    (calls : List ProcessCall) : Managed (processRun s calls).toMemoryState := by
  induction calls generalizing s with
  | nil => exact managed
  | cons call rest inductionHypothesis =>
    exact inductionHypothesis (takesTwo_processStep managed call).managed

theorem takesTwo_initProcessManager {s : KernelState} (managed : Managed s.toMemoryState)
    (idle : BitVec 64) :
    TakesTwo s.toMemoryState (initProcessManager s idle).toMemoryState := by
  have created := takesTwo_createProcess (s := resetProcesses s) managed idle
  rw [initProcessManager]
  split
  case h_1 next slot result =>
    rw [result] at created
    exact created
  case h_2 next result =>
    rw [result] at created
    exact created

end M12
