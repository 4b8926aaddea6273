/-
This file models the process manager of `kernel/process.c`.

The process table is a function from its 64 slots, a `process_t *` is a slot or
`NULL`, and the static variables join the state of the allocator and the page
tables. The table itself lies in the kernel image, apart from the pages the
allocator manages. `schedule` calls the assembly routine `switch_process`, whose
effect on the table is one store, of the old stack pointer to the first word of
the old context; the stack pointer at that moment is an argument of the calls
here. The register and stack effects of that routine are a model of their own.

The stubs `sys_exec_handler` and `sys_wait_handler`, which change nothing, and
the debug messages are left out.
-/

import M12.Paging

namespace M12

open ByteMemory

/-! ### The process table -/

/-- `process_state_t`. -/
inductive ProcessState where
  | unused
  | running
  | ready
  | blocked
  | zombie
deriving DecidableEq

/-- `process_context_t`. -/
structure ProcessContext where
  r15 : BitVec 64
  r14 : BitVec 64
  r13 : BitVec 64
  r12 : BitVec 64
  r11 : BitVec 64
  r10 : BitVec 64
  r9 : BitVec 64
  r8 : BitVec 64
  rdi : BitVec 64
  rsi : BitVec 64
  rbp : BitVec 64
  rbx : BitVec 64
  rdx : BitVec 64
  rcx : BitVec 64
  rax : BitVec 64
  rip : BitVec 64
  cs : BitVec 64
  rflags : BitVec 64
  rsp : BitVec 64
  ss : BitVec 64
deriving DecidableEq

/-- `memset(&context, 0, sizeof(process_context_t))`. -/
def ProcessContext.zero : ProcessContext :=
  ⟨0#64, 0#64, 0#64, 0#64, 0#64, 0#64, 0#64, 0#64, 0#64, 0#64, 0#64, 0#64, 0#64, 0#64, 0#64, 0#64,
    0#64, 0#64, 0#64, 0#64⟩

/-- `process_t *`, when it is not `NULL`: one of the `MAX_PROCESSES` slots. -/
abbrev Slot := Fin 64

/-- There is a first slot. -/
instance neZeroSlots : NeZero (64 : Nat) := ⟨by decide⟩

/-- `process_t`. -/
structure Process where
  pid : BitVec 32
  state : ProcessState
  context : ProcessContext
  pageTable : BitVec 64
  kernelStack : BitVec 64
  userStack : BitVec 64
  exitCode : BitVec 32
  parent : Option Slot
  brk : BitVec 64

/-- `KERNEL_STACK_SIZE`. -/
def kernelStackSize : BitVec 64 := 4096#64

/-- The static variables of `kernel/process.c` with the rest of the kernel's state. -/
structure KernelState extends PagingState where
  processes : Slot → Process
  current : Option Slot
  nextPid : BitVec 32
  processCount : BitVec 32

/-- The kernel before `InitProcessManager`: the static variables are as the image holds them. -/
def loadedKernel (paging : PagingState) : KernelState where
  toPagingState := paging
  processes := fun _ =>
    { pid := 0#32
      state := .unused
      context := ProcessContext.zero
      pageTable := 0#64
      kernelStack := 0#64
      userStack := 0#64
      exitCode := 0#32
      parent := none
      brk := 0#64 }
  current := none
  nextPid := 1#32
  processCount := 0#32

/-- `processes[slot]` with some fields assigned. -/
def KernelState.modify (s : KernelState) (slot : Slot) (assign : Process → Process) : KernelState :=
  { s with processes := Function.update s.processes slot (assign (s.processes slot)) }

/-! ### create_process -/

/-- The first `PROCESS_UNUSED` slot. -/
def freeSlot (s : KernelState) : Option Slot :=
  (List.finRange 64).find? fun slot => (s.processes slot).state = .unused

/-- The assignments of `create_process` before its allocations. -/
def claimSlot (s : KernelState) (slot : Slot) : KernelState :=
  { s.modify slot fun proc => { proc with
      pid := s.nextPid
      state := .ready
      pageTable := s.kernelPml4
      parent := s.current
      brk := 0x400000#64 } with
    nextPid := s.nextPid + 1#32 }

/-- The context of a process that has not run yet. -/
def freshContext (entryPoint kernelStack : BitVec 64) : ProcessContext :=
  { ProcessContext.zero with
    rip := entryPoint
    cs := 0x08#64
    ss := 0x10#64
    rsp := kernelStack + kernelStackSize
    rflags := 0x202#64 }

/-- `proc->kernel_stack = get_physical_page()`. -/
def allocateKernelStack (s : KernelState) (slot : Slot) : KernelState × BitVec 64 :=
  match getPage s.toPagingState with
  | (paging, page) =>
    ({ s with toPagingState := paging }.modify slot fun proc => { proc with kernelStack := page },
      page)

/-- `proc->user_stack = get_physical_page()`. -/
def allocateUserStack (s : KernelState) (slot : Slot) : KernelState × BitVec 64 :=
  match getPage s.toPagingState with
  | (paging, page) =>
    ({ s with toPagingState := paging }.modify slot fun proc => { proc with userStack := page },
      page)

/-- `create_process` from the allocation of the user stack on. -/
def finishProcess (s : KernelState) (slot : Slot) (entryPoint kernelStack : BitVec 64) :
    KernelState × Option Slot :=
  match allocateUserStack s slot with
  | (s, userStack) =>
    if userStack = 0#64 then
      ({ s with toPagingState := freePage s.toPagingState kernelStack }, none)
    else
      ({ s.modify slot fun proc => { proc with
          context := freshContext entryPoint kernelStack } with
        processCount := s.processCount + 1#32 }, some slot)

/-- `create_process`. -/
def createProcess (s : KernelState) (entryPoint : BitVec 64) : KernelState × Option Slot :=
  match freeSlot s with
  | none => (s, none)
  | some slot =>
    match allocateKernelStack (claimSlot s slot) slot with
    | (s, kernelStack) =>
      if kernelStack = 0#64 then (s, none) else finishProcess s slot entryPoint kernelStack

/-! ### schedule -/

/-- The search of `schedule`: the slots from `nextIndex` on, wrapping from 63 to 0. -/
def searchReady (s : KernelState) (current nextIndex : Slot) : Nat → Option Slot
  | 0 => none
  | remaining + 1 =>
    if (s.processes nextIndex).state = .ready ∧ nextIndex ≠ current then some nextIndex
    else searchReady s current (nextIndex + 1) remaining

/-- `schedule`; `savedRsp` is the stack pointer `switch_process` stores in the old context. A
null `current_process` is never met: `InitProcessManager` sets it. -/
def schedule (s : KernelState) (savedRsp : BitVec 64) : KernelState :=
  if s.processCount ≤ 1#32 then s
  else
    match s.current with
    | none => s
    | some old =>
      match searchReady s old (old + 1) 64 with
      | none => s
      | some next =>
        { s.modify old fun proc =>
            { proc with context := { proc.context with r15 := savedRsp } } with
          current := some next }

/-! ### The system calls -/

/-- `sys_fork_handler`. -/
def sysForkHandler (s : KernelState) : KernelState × BitVec 64 :=
  match s.current with
  | none => (s, -1#64)
  | some parent =>
    match createProcess s (s.processes parent).context.rip with
    | (s, none) => (s, -1#64)
    | (s, some child) =>
      (s.modify child fun proc => { proc with
          context := { (s.processes parent).context with rax := 0#64 } },
        (s.processes child).pid.setWidth 64)

/-- The part of `sys_exit_handler_real` before it calls `schedule`. -/
def markExited (s : KernelState) (status : BitVec 32) : KernelState :=
  match s.current with
  | none => s
  | some slot =>
    { s.modify slot fun proc => { proc with state := .zombie, exitCode := status } with
      processCount := s.processCount - 1#32 }

/-- `sys_exit_handler_real`. -/
def sysExitHandlerReal (s : KernelState) (status : BitVec 32) (savedRsp : BitVec 64) :
    KernelState := schedule (markExited s status) savedRsp

/-- `get_current_pid`. -/
def getCurrentPid (s : KernelState) : BitVec 32 :=
  match s.current with
  | none => 0#32
  | some slot => if (s.processes slot).pid = 0#32 then 0#32 else (s.processes slot).pid

/-- `sys_getpid_handler_real`. -/
def sysGetpidHandlerReal (s : KernelState) : BitVec 64 := (getCurrentPid s).setWidth 64

/-- `sys_brk_handler`. -/
def sysBrkHandler (s : KernelState) (addr : BitVec 64) : KernelState × BitVec 64 :=
  match s.current with
  | none => (s, 0#64)
  | some slot =>
    if addr ≠ 0#64 then (s.modify slot fun proc => { proc with brk := addr }, addr)
    else (s, (s.processes slot).brk)

/-! ### InitProcessManager -/

/-- The assignments of `InitProcessManager` before it creates the idle process. -/
def resetProcesses (s : KernelState) : KernelState :=
  { s with
    current := none
    nextPid := 1#32
    processCount := 0#32
    processes := fun slot => { s.processes slot with
      state := .unused
      pid := 0#32
      parent := none
      kernelStack := 0#64
      userStack := 0#64
      pageTable := 0#64 } }

/-- The fallback of `InitProcessManager`: slot 0 set up by hand. -/
def fallbackProcess (s : KernelState) : KernelState :=
  { s.modify 0 fun proc => { proc with
      pid := 1#32
      state := .running
      pageTable := s.kernelPml4
      brk := 0x400000#64 } with
    current := some 0
    processCount := 1#32 }

/-- `InitProcessManager`, with the address of `idle_process`. -/
def initProcessManager (s : KernelState) (idle : BitVec 64) : KernelState :=
  match createProcess (resetProcesses s) idle with
  | (s, some slot) =>
    { s.modify slot fun proc => { proc with pid := 1#32 } with current := some slot }
  | (s, none) => fallbackProcess s

/-! ### Runs -/

/-- A call into the process manager or the allocator. The calls that may switch processes carry
the stack pointer `switch_process` finds. -/
inductive ProcessCall where
  | create (entryPoint : BitVec 64)
  | fork
  | schedule (savedRsp : BitVec 64)
  | exit (status : BitVec 32) (savedRsp : BitVec 64)
  | brk (addr : BitVec 64)
  | get
  | free (page : BitVec 64)
deriving DecidableEq

/-- The state after one call. -/
def processStep (s : KernelState) : ProcessCall → KernelState
  | .create entryPoint => (createProcess s entryPoint).1
  | .fork => (sysForkHandler s).1
  | .schedule savedRsp => schedule s savedRsp
  | .exit status savedRsp => sysExitHandlerReal s status savedRsp
  | .brk addr => (sysBrkHandler s addr).1
  | .get => { s with toPagingState := (getPage s.toPagingState).1 }
  | .free page => { s with toPagingState := freePage s.toPagingState page }

/-- The state after a sequence of calls. -/
def processRun (s : KernelState) (calls : List ProcessCall) : KernelState :=
  calls.foldl processStep s

end M12
