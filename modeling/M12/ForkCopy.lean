/-
This file settles what a forked child has of its parent.

The child comes from `create_process`, which fills it in as a new process, and then
its context is overwritten by the parent's. The page table needs no copy, since
every process has the kernel's. The break is not copied: a child has the break of
a new process, which is the parent's only as long as the parent has not moved its
own.
-/

import M12.ProcessCount

namespace M12

/-! ### One page table for all -/

/-- Every process has the kernel's page table. -/
def SharesTable (s : KernelState) : Prop :=
  ∀ slot, (s.processes slot).state ≠ .unused → (s.processes slot).pageTable = s.kernelPml4

theorem SharesTable.modify {s : KernelState} (shares : SharesTable s) (slot : Slot)
    (assign : Process → Process)
    (table : (assign (s.processes slot)).pageTable = (s.processes slot).pageTable)
    (used : (assign (s.processes slot)).state ≠ .unused → (s.processes slot).state ≠ .unused) :
    SharesTable (s.modify slot assign) := by
  intro other otherUsed
  by_cases same : other = slot
  · rw [same, modify_self] at otherUsed ⊢
    exact table.trans (shares slot (used otherUsed))
  · rw [modify_other s slot assign same] at otherUsed ⊢
    exact shares other otherUsed

theorem sharesTable_claimSlot {s : KernelState} (shares : SharesTable s) (slot : Slot) :
    SharesTable (claimSlot s slot) := by
  intro other used
  by_cases same : other = slot
  · rw [same]
    show (Function.update s.processes slot _ slot).pageTable = s.kernelPml4
    rw [Function.update_self]
  · have kept : (claimSlot s slot).processes other = s.processes other :=
      Function.update_of_ne same ..
    rw [kept] at used ⊢
    exact shares other used

theorem SharesTable.getPage {s : KernelState} (shares : SharesTable s) :
    SharesTable { s with toPagingState := (getPage s.toPagingState).1 } :=
  fun other used => shares other used

theorem sharesTable_allocateKernelStack {s : KernelState} (shares : SharesTable s) (slot : Slot) :
    SharesTable (allocateKernelStack s slot).1 := by
  rw [allocateKernelStack]
  have moved := shares.getPage
  generalize getPage s.toPagingState = result at moved ⊢
  exact moved.modify slot (fun proc => { proc with kernelStack := result.2 }) rfl id

theorem sharesTable_finishProcess {s : KernelState} (shares : SharesTable s) (slot : Slot)
    (entryPoint kernelStack : BitVec 64) :
    SharesTable (finishProcess s slot entryPoint kernelStack).1 := by
  rw [finishProcess, allocateUserStack]
  have moved := shares.getPage
  generalize getPage s.toPagingState = result at moved ⊢
  have stacked := moved.modify slot (fun proc => { proc with userStack := result.2 }) rfl id
  simp only
  split
  · exact stacked
  · exact stacked.modify slot (fun proc => { proc with
      context := freshContext entryPoint kernelStack }) rfl id

theorem sharesTable_createProcess {s : KernelState} (shares : SharesTable s)
    (entryPoint : BitVec 64) : SharesTable (createProcess s entryPoint).1 := by
  rw [createProcess]
  split
  · exact shares
  case h_2 slot found =>
    have stacked := sharesTable_allocateKernelStack (sharesTable_claimSlot shares slot) slot
    generalize allocateKernelStack (claimSlot s slot) slot = result at stacked ⊢
    simp only
    split
    · exact stacked
    · exact sharesTable_finishProcess stacked slot entryPoint result.2

theorem sharesTable_sysForkHandler {s : KernelState} (shares : SharesTable s) :
    SharesTable (sysForkHandler s).1 := by
  rw [sysForkHandler]
  split
  · exact shares
  case h_2 parent current =>
    have created := sharesTable_createProcess shares (s.processes parent).context.rip
    split
    case h_1 next result =>
      rw [result] at created
      exact created
    case h_2 next child result =>
      rw [result] at created
      exact created.modify child (fun proc => { proc with
        context := { (next.processes parent).context with rax := 0#64 } }) rfl id

/-- The calls that assign to the current process. -/
theorem SharesTable.of_assigns {s next : KernelState} {assign : Process → Process}
    (shares : SharesTable s) (assigns : AssignsCurrent s next assign)
    (pml4 : next.kernelPml4 = s.kernelPml4)
    (table : ∀ proc, (assign proc).pageTable = proc.pageTable)
    (occupied : s.roster.Occupied) : SharesTable next := by
  intro slot used
  rw [pml4]
  rcases assigns.record slot with same | ⟨running, assigned⟩
  · rw [same] at used ⊢
    exact shares slot used
  · obtain ⟨current, here, currentUsed⟩ := occupied
    have same : slot = current := Option.some.inj (running.symm.trans here)
    rw [assigned, table, same]
    exact shares current currentUsed

theorem sharesTable_schedule {s : KernelState} (shares : SharesTable s)
    (occupied : s.roster.Occupied) (savedRsp : BitVec 64) : SharesTable (schedule s savedRsp) := by
  refine shares.of_assigns (assignsCurrent_schedule s savedRsp) ?_ (fun _ => rfl) occupied
  rw [schedule]
  repeat' split
  all_goals rfl

theorem sharesTable_markExited {s : KernelState} (shares : SharesTable s)
    (occupied : s.roster.Occupied) (status : BitVec 32) : SharesTable (markExited s status) := by
  refine shares.of_assigns (assignsCurrent_markExited s status) ?_ (fun _ => rfl) occupied
  rw [markExited]
  split <;> rfl

theorem occupied_markExited {s : KernelState} (occupied : s.roster.Occupied) (status : BitVec 32) :
    (markExited s status).roster.Occupied := by
  obtain ⟨slot, running, -⟩ := occupied
  rw [roster_markExited, Roster.markExited, running]
  refine ⟨slot, rfl, ?_⟩
  simp only [Function.update_self]
  exact ProcessState.noConfusion

theorem sharesTable_sysBrkHandler {s : KernelState} (shares : SharesTable s)
    (occupied : s.roster.Occupied) (addr : BitVec 64) : SharesTable (sysBrkHandler s addr).1 := by
  refine shares.of_assigns (assignsCurrent_sysBrkHandler s addr) ?_ (fun _ => rfl) occupied
  rw [sysBrkHandler]
  repeat' split
  all_goals rfl

theorem sharesTable_processStep {s : KernelState} (shares : SharesTable s)
    (occupied : s.roster.Occupied) (call : ProcessCall) : SharesTable (processStep s call) := by
  cases call with
  | create entryPoint => exact sharesTable_createProcess shares entryPoint
  | fork => exact sharesTable_sysForkHandler shares
  | schedule savedRsp => exact sharesTable_schedule shares occupied savedRsp
  | exit status savedRsp =>
    exact sharesTable_schedule (sharesTable_markExited shares occupied status)
      (occupied_markExited occupied status) savedRsp
  | brk addr => exact sharesTable_sysBrkHandler shares occupied addr
  | get => exact shares
  | free page => exact shares

theorem sharesTable_processRun {s : KernelState} (managed : Managed s.toMemoryState)
    (occupied : s.roster.Occupied) (shares : SharesTable s) (calls : List ProcessCall) :
    SharesTable (processRun s calls) := by
  induction calls using List.reverseRecOn with
  | nil => exact shares
  | append_singleton done call inductionHypothesis =>
    rw [processRun_append]
    exact sharesTable_processStep inductionHypothesis
      (occupied_processRun managed occupied done) call

theorem sharesTable_initProcessManager (s : KernelState) (idle : BitVec 64) :
    SharesTable (initProcessManager s idle) := by
  have reset : SharesTable (resetProcesses s) := fun slot used => absurd rfl used
  have created := sharesTable_createProcess reset idle
  rw [initProcessManager]
  split
  case h_1 next slot result =>
    rw [result] at created
    exact created.modify slot (fun proc => { proc with pid := 1#32 }) rfl id
  case h_2 next result =>
    rw [result] at created
    intro other used
    by_cases first : other = 0
    · rw [first]
      have assigned := modify_self next 0 fun proc => { proc with
        pid := 1#32
        state := .running
        pageTable := next.kernelPml4
        brk := 0x400000#64 }
      exact congrArg Process.pageTable assigned
    · have kept : (fallbackProcess next).processes other = next.processes other :=
        Function.update_of_ne first ..
      rw [kept] at used ⊢
      exact created other used

/-! ### The child -/

/-- `sys_fork_handler` has made `child` a copy of `caller`. Its stack pointer is its own affair. -/
structure Duplicates (s : KernelState) (caller child : Slot) (result : KernelState × BitVec 64) :
    Prop where
  unused : (s.processes child).state = .unused
  returned : result.2 = (result.1.processes child).pid.setWidth 64
  pageTable : (result.1.processes child).pageTable = (s.processes caller).pageTable
  brk : (result.1.processes child).brk = (s.processes caller).brk
  context : { (result.1.processes child).context with
      rax := (s.processes caller).context.rax
      rsp := (s.processes caller).context.rsp } = (s.processes caller).context
  rax : (result.1.processes child).context.rax = 0#64
  parent : (result.1.processes child).parent = some caller
  record : result.1.processes caller = s.processes caller
  others : ∀ slot ≠ child, result.1.processes slot = s.processes slot

/-- The current process has been duplicated. -/
def ForkDuplicates (s : KernelState) : Prop :=
  ∃ caller child, s.current = some caller ∧ Duplicates s caller child (sysForkHandler s)

/-- What a fork that succeeds leaves: a new process but for the context. -/
structure Forked (s : KernelState) (caller child : Slot) : Prop where
  unused : (s.processes child).state = .unused
  created : ∃ kernelStack userStack, (sysForkHandler s).1.processes child =
    { s.processes child with
      pid := s.nextPid
      state := .ready
      context := { (s.processes caller).context with rax := 0#64 }
      pageTable := s.kernelPml4
      kernelStack := kernelStack
      userStack := userStack
      parent := some caller
      brk := 0x400000#64 }
  returned : (sysForkHandler s).2 = s.nextPid.setWidth 64
  others : ∀ slot ≠ child, (sysForkHandler s).1.processes slot = s.processes slot

theorem forked_of_succeeds {s : KernelState} (managed : Managed s.toMemoryState)
    {caller : Slot} (running : s.current = some caller)
    (used : (s.processes caller).state ≠ .unused) (succeeds : (sysForkHandler s).2 ≠ -1#64) :
    ∃ child, Forked s caller child := by
  rcases createProcess_cases managed (s.processes caller).context.rip with ⟨-, result⟩ |
    ⟨child, next, i, j, found, -, -, result, created⟩ | ⟨slot, next, -, -, result, -⟩
  · rw [sysForkHandler_eq running result] at succeeds
    exact absurd rfl succeeds
  · have unused := freeSlot_some found
    have different : caller ≠ child := by
      rintro rfl
      exact used unused
    have forked : sysForkHandler s =
        (next.modify child fun proc => { proc with
            context := { (next.processes caller).context with rax := 0#64 } },
          (next.processes child).pid.setWidth 64) := sysForkHandler_eq running result
    refine ⟨child, unused, ⟨pageAddress s.toMemoryState i, pageAddress s.toMemoryState j, ?_⟩, ?_,
      fun slot apart => ?_⟩
    · rw [forked, modify_self, created.process, created.others caller different, running]
    · rw [forked, created.process]
    · rw [forked, modify_other next child _ apart, created.others slot apart]
  · rw [sysForkHandler_eq running result] at succeeds
    exact absurd rfl succeeds

/-- The break decides. -/
theorem Forked.duplicates_iff {s : KernelState} {caller child : Slot}
    (forked : Forked s caller child) (running : s.current = some caller) (shares : SharesTable s)
    (used : (s.processes caller).state ≠ .unused) :
    ForkDuplicates s ↔ (s.processes caller).brk = 0x400000#64 := by
  obtain ⟨kernelStack, userStack, record⟩ := forked.created
  constructor
  · rintro ⟨other, copy, otherRunning, same⟩
    obtain rfl : other = caller := Option.some.inj (otherRunning.symm.trans running)
    have isChild : copy = child := by
      by_contra apart
      have unchanged := congrArg Process.state (same.others child (Ne.symm apart))
      rw [record, forked.unused] at unchanged
      exact ProcessState.noConfusion unchanged
    rw [← same.brk, isChild, record]
  · intro still
    have different : caller ≠ child := by
      rintro rfl
      exact used forked.unused
    refine ⟨caller, child, running, forked.unused, ?_, ?_, ?_, ?_, ?_, ?_,
      forked.others caller different, forked.others⟩
    · rw [record]
      exact forked.returned
    · rw [record]
      exact (shares caller used).symm
    · rw [record]
      exact still.symm
    · rw [record]
    · rw [record]
    · rw [record]

/-- In every state the process manager reaches, a fork that succeeds duplicates its caller exactly
when the caller's break is where that of a new process is. -/
theorem fork_duplicates_iff (s : KernelState) (managed : Managed s.toMemoryState)
    (idle : BitVec 64) (calls : List ProcessCall)
    (succeeds : (sysForkHandler (processRun (initProcessManager s idle) calls)).2 ≠ -1#64) :
    ForkDuplicates (processRun (initProcessManager s idle) calls) ↔
      ∀ caller, (processRun (initProcessManager s idle) calls).current = some caller →
        ((processRun (initProcessManager s idle) calls).processes caller).brk = 0x400000#64 := by
  have managedInit := (takesTwo_initProcessManager managed idle).managed
  have occupiedInit := occupied_initProcessManager managed idle
  have managedRun := managed_processRun managedInit calls
  have occupied := occupied_processRun managedInit occupiedInit calls
  have shares := sharesTable_processRun managedInit occupiedInit
    (sharesTable_initProcessManager s idle) calls
  generalize processRun (initProcessManager s idle) calls = s at *
  obtain ⟨caller, running, used⟩ := occupied
  obtain ⟨child, forked⟩ := forked_of_succeeds managedRun running used succeeds
  rw [forked.duplicates_iff running shares used]
  constructor
  · intro still other otherRunning
    rw [Option.some.inj (otherRunning.symm.trans running)]
    exact still
  · exact fun still => still caller running

/-! ### Forks that succeed -/

/-- With a slot and two pages a fork succeeds. -/
theorem sysForkHandler_enough {s : KernelState} (managed : Managed s.toMemoryState)
    (occupied : s.roster.Occupied) (enough : TwoFree s.toMemoryState)
    (room : ∃ slot, (s.processes slot).state = .unused) : (sysForkHandler s).2 ≠ -1#64 := by
  obtain ⟨caller, running, -⟩ := occupied
  have running : s.current = some caller := running
  rcases createProcess_cases managed (s.processes caller).context.rip with ⟨full, -⟩ |
    ⟨child, next, i, j, -, -, -, result, -⟩ | ⟨slot, next, -, few, -, -⟩
  · obtain ⟨slot, unused⟩ := room
    exact absurd unused (freeSlot_none full slot)
  · have answer : (sysForkHandler s).2 = (next.processes child).pid.setWidth 64 := by
      rw [sysForkHandler_eq running result]
    have small := (next.processes child).pid.isLt
    intro failed
    have value := congrArg BitVec.toNat (answer.symm.trans failed)
    rw [BitVec.toNat_setWidth, show (-1#64).toNat = 2 ^ 64 - 1 from rfl] at value
    omega
  · exact absurd enough (Nat.not_le.mpr few)

/-- The first process has the break of a new process, however it was set up. -/
theorem brk_initProcessManager {s : KernelState} (managed : Managed s.toMemoryState)
    (idle : BitVec 64) {caller : Slot}
    (running : (initProcessManager s idle).current = some caller) :
    ((initProcessManager s idle).processes caller).brk = 0x400000#64 := by
  rcases createProcess_cases (s := resetProcesses s) managed idle with ⟨full, -⟩ |
    ⟨slot, next, i, j, -, -, -, result, created⟩ | ⟨slot, next, -, -, result, -⟩
  · rw [freeSlot_resetProcesses] at full
    exact absurd full (Option.some_ne_none 0)
  · have started : initProcessManager s idle =
        { next.modify slot fun proc => { proc with pid := 1#32 } with current := some slot } := by
      rw [initProcessManager, result]
    rw [started] at running ⊢
    rw [← Option.some.inj running]
    have renamed := modify_self next slot fun proc => { proc with pid := 1#32 }
    exact (congrArg Process.brk renamed).trans (by rw [created.process])
  · have started : initProcessManager s idle = fallbackProcess next := by
      rw [initProcessManager, result]
    rw [started] at running ⊢
    rw [← Option.some.inj running]
    have assigned := modify_self next 0 fun proc => { proc with
      pid := 1#32
      state := .running
      pageTable := next.kernelPml4
      brk := 0x400000#64 }
    exact congrArg Process.brk assigned

/-- On a machine whose memory is zero there is room for a child of the idle process. -/
theorem enough_blankKernel : Managed (initProcessManager blankKernel 0x1A00#64).toMemoryState ∧
    TwoFree (initProcessManager blankKernel 0x1A00#64).toMemoryState ∧
    (initProcessManager blankKernel 0x1A00#64).roster.Occupied ∧
    ((initProcessManager blankKernel 0x1A00#64).processes 1).state = .unused := by
  obtain ⟨managed, many⟩ := managed_blankKernel
  generalize blankKernel = s at managed many ⊢
  have init := takesTwo_initProcessManager managed 0x1A00#64
  have few := init.few
  refine ⟨init.managed, ?_, occupied_initProcessManager managed 0x1A00#64,
    unused_initProcessManager managed 0x1A00#64 (show (1 : Slot) ≠ 0 by decide)⟩
  rw [TwoFree]
  omega

/-- A fork of the idle process, right after the start. -/
theorem fork_duplicates_idle : Managed blankKernel.toMemoryState ∧
    ForkDuplicates (processRun (initProcessManager blankKernel 0x1A00#64) []) := by
  have managed := managed_blankKernel.1
  obtain ⟨managedInit, enough, occupied, unused⟩ := enough_blankKernel
  generalize blankKernel = s at *
  have succeeds := sysForkHandler_enough managedInit occupied enough ⟨1, unused⟩
  rw [← processRun_nil (initProcessManager s 0x1A00#64)] at succeeds
  refine ⟨managed, (fork_duplicates_iff s managed 0x1A00#64 [] succeeds).mpr ?_⟩
  rw [processRun_nil]
  exact fun caller running => brk_initProcessManager managed 0x1A00#64 running

/-- A process that has moved its break forks a child with another one. -/
theorem not_duplicates_after_brk {s : KernelState} (managed : Managed s.toMemoryState)
    (occupied : s.roster.Occupied) (shares : SharesTable s) (enough : TwoFree s.toMemoryState)
    (room : ∃ slot, (s.processes slot).state = .unused) {addr : BitVec 64} (set : addr ≠ 0#64)
    (moved : addr ≠ 0x400000#64) :
    (sysForkHandler (processStep s (.brk addr))).2 ≠ -1#64 ∧
      ¬ ForkDuplicates (processStep s (.brk addr)) := by
  have occupiedAfter := Roster.occupied_step occupied (decide (TwoFree s.toMemoryState)) (.brk addr)
  rw [← roster_processStep managed] at occupiedAfter
  have sharesAfter := sharesTable_processStep shares occupied (.brk addr)
  have managedAfter := (takesTwo_processStep managed (.brk addr)).managed
  obtain ⟨caller, running, used⟩ := occupied
  have running : s.current = some caller := running
  have assigned : processStep s (.brk addr) =
      s.modify caller fun proc => { proc with brk := addr } := by
    rw [processStep, sysBrkHandler, running]
    simp only [if_pos set]
  have states (slot : Slot) : ((processStep s (.brk addr)).processes slot).state =
      (s.processes slot).state := by
    rw [assigned, ← roster_states, roster_modify s caller (fun proc =>
      { proc with brk := addr }) fun _ => rfl, roster_states]
  have runningAfter : (processStep s (.brk addr)).current = some caller := by
    rw [assigned]
    exact running
  have broken : ((processStep s (.brk addr)).processes caller).brk = addr := by
    rw [assigned, modify_self]
  have enoughAfter : TwoFree (processStep s (.brk addr)).toMemoryState := by
    rw [assigned]
    exact enough
  obtain ⟨slot, unused⟩ := room
  have usedAfter : ((processStep s (.brk addr)).processes caller).state ≠ .unused := by
    rw [states]
    exact used
  have succeeds := sysForkHandler_enough managedAfter occupiedAfter enoughAfter
    ⟨slot, (states slot).trans unused⟩
  obtain ⟨child, forked⟩ := forked_of_succeeds managedAfter runningAfter usedAfter succeeds
  rw [forked.duplicates_iff runningAfter sharesAfter usedAfter, broken]
  exact ⟨succeeds, moved⟩

/-- A fork of the idle process after it has moved its break. -/
theorem fork_loses_break : Managed blankKernel.toMemoryState ∧
    (sysForkHandler
      (processRun (initProcessManager blankKernel 0x1A00#64) [.brk 0x500000#64])).2 ≠ -1#64 ∧
    ¬ ForkDuplicates
      (processRun (initProcessManager blankKernel 0x1A00#64) [.brk 0x500000#64]) := by
  obtain ⟨managedInit, enough, occupied, unused⟩ := enough_blankKernel
  have managed := managed_blankKernel.1
  generalize blankKernel = s at *
  have shares := sharesTable_initProcessManager s 0x1A00#64
  rw [processRun_cons, processRun_nil]
  exact ⟨managed, not_duplicates_after_brk managedInit occupied shares enough ⟨1, unused⟩
    (by decide) (by decide)⟩

end M12
