/-
This file proves that the system calls see a list of tasks.

To a program the kernel is `syscall_handler` with the number and the arguments of
a call. Behind the handler lies the process manager with its slots, records,
stacks and the allocator; but what the calls return depends on very little of it.
The abstract model is a list of tasks that only grows: a task is known by its
place in the list, an exited one keeps its place, and the scheduler goes through
the places in order. Of the allocator it is told whether two pages were free when
a task was to be created, and nothing else.

A run of the kernel and a run of this model with the same calls return the same
results. So a place is never used twice, and no kernel creates more than 63
processes after its first, however many of them exit.
-/

import M12.ForkCopy
import M12.ProcessIds
import M12.RoundRobin
import M12.SyscallWrite

namespace M12

open ByteMemory

/-! ### The abstract model -/

/-- A task: whether the scheduler may pick it, its status once it has exited, its program break,
and the place of the task that created it. -/
structure Task where
  ready : Bool
  status : Option (BitVec 32)
  brk : BitVec 64
  parent : Option Nat
deriving DecidableEq

/-- The tasks in the order of their creation, the place of the current one, the counter the
scheduler asks, and the characters written so far. -/
structure TaskSystem where
  tasks : List Task
  current : Nat
  live : BitVec 32
  sent : List (BitVec 8)
deriving DecidableEq

/-- A call into the kernel: a system call with its arguments, the memory its caller sees and the
stack pointer a switch would save, or what the kernel itself calls. -/
inductive SystemEvent where
  | call (number arg1 arg2 arg3 : BitVec 64) (memory : Memory) (savedRsp : BitVec 64)
  | create (entryPoint : BitVec 64)
  | schedule (savedRsp : BitVec 64)
  | get
  | free (page : BitVec 64)

namespace TaskSystem

/-- The system when its first task is there. -/
def started (enough : Bool) : TaskSystem where
  tasks := [⟨enough, none, 0x400000#64, none⟩]
  current := 0
  live := 1#32
  sent := []

/-- A task is created, if there is a place for it. Without enough pages it takes its place all the
same, but it is not counted and its creator gets nothing. -/
def spawn (t : TaskSystem) (enough : Bool) : TaskSystem × Option (BitVec 64) :=
  if t.tasks.length < 64 then
    ({ t with
        tasks := t.tasks ++ [⟨true, none, 0x400000#64, some t.current⟩]
        live := if enough then t.live + 1#32 else t.live },
      if enough then some (BitVec.ofNat 64 (t.tasks.length + 1)) else none)
  else (t, none)

/-- The task at a place is ready. -/
def readyAt (t : TaskSystem) (place : Nat) : Bool := t.tasks[place]?.any Task.ready

/-- The first ready task behind the current one, or else before it. -/
def nextTask (t : TaskSystem) : Option Nat :=
  (List.range' (t.current + 1) (t.tasks.length - (t.current + 1)) ++
    List.range' 0 t.current).find? t.readyAt

/-- The scheduler runs. -/
def schedule (t : TaskSystem) : TaskSystem :=
  if t.live ≤ 1#32 then t
  else
    match t.nextTask with
    | none => t
    | some next => { t with current := next }

/-- The current task is changed. -/
def modifyCurrent (t : TaskSystem) (change : Task → Task) : TaskSystem :=
  { t with tasks := t.tasks.modify t.current change }

/-- The current task exits, and the scheduler runs. -/
def exit (t : TaskSystem) (status : BitVec 32) : TaskSystem :=
  { t.modifyCurrent fun task => { task with ready := false, status := some status } with
    live := t.live - 1#32 }.schedule

/-- The current task moves its program break, or asks for it. -/
def moveBreak (t : TaskSystem) (addr : BitVec 64) : TaskSystem × BitVec 64 :=
  if addr ≠ 0#64 then (t.modifyCurrent fun task => { task with brk := addr }, addr)
  else (t, (t.tasks[t.current]?.map Task.brk).getD 0#64)

/-- One call, with what it returns. -/
def act (t : TaskSystem) (memory : Memory) (enough : Bool) :
    SyscallAction → TaskSystem × BitVec 64
  | .rejected => (t, -1#64)
  | .dummy => (t, 0#64)
  | .exit status => (t.exit status, 0#64)
  | .write _ buffer count =>
    ({ t with sent := t.sent ++ writtenText (stringAt memory buffer) count.toNat }, count)
  | .getpid => (t, BitVec.ofNat 64 (t.current + 1))
  | .fork => ((t.spawn enough).1, (t.spawn enough).2.getD (-1#64))
  | .exec _ _ => (t, -1#64)
  | .wait _ => (t, -1#64)
  | .brk addr => t.moveBreak addr

/-- One event, with what it returns, when `enough` says whether two pages are free. -/
def step (t : TaskSystem) (enough : Bool) : SystemEvent → TaskSystem × Option (BitVec 64)
  | .call number arg1 arg2 arg3 memory _ =>
    let result := t.act memory enough (syscallHandler number arg1 arg2 arg3)
    (result.1, some result.2)
  | .create _ => t.spawn enough
  | .schedule _ => (t.schedule, none)
  | .get => (t, none)
  | .free _ => (t, none)

/-- A run, with what each event returns. -/
def run (t : TaskSystem) : List (SystemEvent × Bool) → TaskSystem × List (Option (BitVec 64))
  | [] => (t, [])
  | (event, enough) :: rest =>
    let later := (t.step enough event).1.run rest
    (later.1, (t.step enough event).2 :: later.2)

end TaskSystem

/-! ### The kernel -/

/-- The kernel with the characters `SYS_WRITE` has sent to the console. The lines of `DEBUGER`
are left out. -/
structure SystemState where
  kernel : KernelState
  sent : List (BitVec 8)

namespace SystemState

/-- What `syscall_handler` does, with what it returns. -/
def act (s : SystemState) (memory : Memory) (savedRsp : BitVec 64) :
    SyscallAction → SystemState × BitVec 64
  | .rejected => (s, -1#64)
  | .dummy => (s, 0#64)
  | .exit status => ({ s with kernel := sysExitHandlerReal s.kernel status savedRsp }, 0#64)
  | .write fd buffer count =>
    let result := sysWriteHandler (fun sent character => sent ++ [character]) memory s.sent fd
      buffer count 0#64 0#64
    ({ s with sent := result.1 }, result.2)
  | .getpid => (s, sysGetpidHandlerReal s.kernel)
  | .fork => ({ s with kernel := (sysForkHandler s.kernel).1 }, (sysForkHandler s.kernel).2)
  | .exec _ _ => (s, -1#64)
  | .wait _ => (s, -1#64)
  | .brk addr =>
    ({ s with kernel := (sysBrkHandler s.kernel addr).1 }, (sysBrkHandler s.kernel addr).2)

/-- One event, with what it returns: for `create_process` the pid in the record it points to. -/
def step (s : SystemState) : SystemEvent → SystemState × Option (BitVec 64)
  | .call number arg1 arg2 arg3 memory savedRsp =>
    let result := s.act memory savedRsp (syscallHandler number arg1 arg2 arg3)
    (result.1, some result.2)
  | .create entryPoint =>
    let result := createProcess s.kernel entryPoint
    ({ s with kernel := result.1 },
      result.2.map fun slot => (result.1.processes slot).pid.setWidth 64)
  | .schedule savedRsp => ({ s with kernel := M12.schedule s.kernel savedRsp }, none)
  | .get => ({ s with kernel := processStep s.kernel .get }, none)
  | .free page => ({ s with kernel := processStep s.kernel (.free page) }, none)

/-- A run, with what each event returns. -/
def run (s : SystemState) : List SystemEvent → SystemState × List (Option (BitVec 64))
  | [] => (s, [])
  | event :: rest =>
    let later := (s.step event).1.run rest
    (later.1, (s.step event).2 :: later.2)

/-- Whether two pages are free at each event of a run. -/
def pagesFree (s : SystemState) : List SystemEvent → List Bool
  | [] => []
  | event :: rest =>
    decide (TwoFree s.kernel.toMemoryState) :: (s.step event).1.pagesFree rest

end SystemState

/-- Searches that agree on every member of a list find the same. -/
theorem find?_of_agree {α : Type} {first second : α → Bool} {members : List α}
    (agree : ∀ member ∈ members, first member = second member) :
    members.find? first = members.find? second := by
  induction members with
  | nil => rfl
  | cons head rest inductionHypothesis =>
    rw [List.forall_mem_cons] at agree
    rw [List.find?_cons, List.find?_cons, agree.1, inductionHypothesis agree.2]

/-! ### What the slots represent -/

/-- The task of a record. -/
def Process.task (proc : Process) : Task where
  ready := decide (proc.state = .ready)
  status := if proc.state = .zombie then some proc.exitCode else none
  brk := proc.brk
  parent := proc.parent.map Fin.val

/-- The first slots hold the tasks, one in each place, and the rest of the slots are unused. -/
structure Represents (t : TaskSystem) (s : SystemState) : Prop where
  managed : Managed s.kernel.toMemoryState
  numbered : Numbered s.kernel t.tasks.length
  current : ∃ slot, s.kernel.current = some slot ∧ slot.val = t.current
  task : ∀ slot : Slot, slot.val < t.tasks.length →
    t.tasks[slot.val]? = some (s.kernel.processes slot).task
  live : s.kernel.processCount = t.live
  sent : s.sent = t.sent

theorem managed_processStep {s : KernelState} (managed : Managed s.toMemoryState)
    (call : ProcessCall) : Managed (processStep s call).toMemoryState :=
  managed_processRun managed [call]

theorem brk_finishProcess (s : KernelState) (slot : Slot) (entryPoint kernelStack : BitVec 64) :
    ((finishProcess s slot entryPoint kernelStack).1.processes slot).brk =
      (s.processes slot).brk := by
  rw [finishProcess, allocateUserStack]
  generalize getPage s.toPagingState = result
  obtain ⟨paging, page⟩ := result
  simp only
  by_cases none : page = 0#64
  · simp only [if_pos none]
    simp [KernelState.modify]
  · simp only [if_neg none]
    simp [KernelState.modify]

/-- The break of a new process is set before anything can fail. -/
theorem brk_createProcess {s : KernelState} {slot : Slot} (found : freeSlot s = some slot)
    (entryPoint : BitVec 64) :
    ((createProcess s entryPoint).1.processes slot).brk = 0x400000#64 := by
  have claim : (claimSlot s slot).toPagingState = s.toPagingState := rfl
  rw [createProcess, found]
  simp only [allocateKernelStack, claim]
  generalize getPage s.toPagingState = result
  obtain ⟨paging, page⟩ := result
  simp only
  by_cases none : page = 0#64
  · simp only [if_pos none]
    simp [KernelState.modify, claimSlot]
  · simp only [if_neg none]
    rw [brk_finishProcess]
    simp [KernelState.modify, claimSlot]

section Represents

variable {t : TaskSystem} {s : SystemState} (represents : Represents t s)
include represents

theorem Represents.full (none : freeSlot s.kernel = none) : ¬ t.tasks.length < 64 := by
  intro room
  have unused : (s.kernel.processes ⟨t.tasks.length, room⟩).state = .unused := by
    by_contra used
    have inside := (represents.numbered.used ⟨t.tasks.length, room⟩).mp
      ((identity_used _).mpr used)
    exact Nat.lt_irrefl _ inside
  exact freeSlot_none none _ unused

/-- A slot that has been taken is the task at the end of the list. -/
theorem Represents.append {next : KernelState} {slot : Slot} {live : BitVec 32}
    (enrolls : Enrolls s.kernel next slot)
    (others : ∀ other ≠ slot, next.processes other = s.kernel.processes other)
    (managed : Managed next.toMemoryState) (counted : next.processCount = live)
    (state : (next.processes slot).state = .ready) (brk : (next.processes slot).brk = 0x400000#64)
    (parent : (next.processes slot).parent = s.kernel.current) :
    Represents { t with
        tasks := t.tasks ++ [⟨true, none, 0x400000#64, some t.current⟩]
        live := live }
      { s with kernel := next } := by
  have place := represents.numbered.freeSlot enrolls.found
  obtain ⟨running, current, same⟩ := represents.current
  have length : (t.tasks ++ [(⟨true, none, 0x400000#64, some t.current⟩ : Task)]).length =
      t.tasks.length + 1 := List.length_append
  refine ⟨managed, length ▸ represents.numbered.of_enrolls enrolls,
    ⟨running, enrolls.current.trans current, same⟩, fun other inside => ?_, counted,
    represents.sent⟩
  show (t.tasks ++ [_])[other.val]? = some (next.processes other).task
  by_cases new : other = slot
  · rw [new, place, List.getElem?_append_right (Nat.le_refl _), Nat.sub_self,
      List.getElem?_cons_zero, Process.task, state, brk, parent, current, ← same]
    rfl
  · have apart : other.val ≠ t.tasks.length := fun last => new (Fin.ext (last.trans place.symm))
    have before : other.val < t.tasks.length := by
      have inside' : other.val < t.tasks.length + 1 := length ▸ inside
      omega
    rw [List.getElem?_append_left before, represents.task other before, others other new]

/-- Creating a process is spawning a task. -/
theorem Represents.create (entryPoint : BitVec 64) :
    Represents (t.spawn (decide (TwoFree s.kernel.toMemoryState))).1
        { s with kernel := (createProcess s.kernel entryPoint).1 } ∧
      (createProcess s.kernel entryPoint).2.map (fun slot =>
          ((createProcess s.kernel entryPoint).1.processes slot).pid.setWidth 64) =
        (t.spawn (decide (TwoFree s.kernel.toMemoryState))).2 := by
  have managed := managed_processStep represents.managed (.create entryPoint)
  rw [processStep] at managed
  have brk := fun slot found => @brk_createProcess s.kernel slot found entryPoint
  rcases createProcess_enrolls s.kernel entryPoint with ⟨none, full⟩ | ⟨slot, enrolls, -⟩
  · rw [TaskSystem.spawn, if_neg (represents.full none), full]
    exact ⟨represents, rfl⟩
  · have place := represents.numbered.freeSlot enrolls.found
    have room : t.tasks.length < 64 := place ▸ slot.isLt
    rw [TaskSystem.spawn, if_pos room]
    rcases createProcess_cases represents.managed entryPoint with ⟨full, -⟩ |
      ⟨taken, next, i, j, found, least, leastJ, result, created⟩ |
      ⟨taken, next, found, few, result, stranded⟩
    · exact absurd (enrolls.found.symm.trans full) (Option.some_ne_none slot)
    · obtain rfl : slot = taken := Option.some.inj (enrolls.found.symm.trans found)
      have enough : TwoFree s.kernel.toMemoryState := twoFree_of_least least.1 leastJ.1
      rw [result] at enrolls managed ⊢
      simp only [enough, decide_true, if_true, Option.map_some]
      refine ⟨represents.append enrolls created.others managed ?_ ?_ ?_ ?_, ?_⟩
      · rw [created.processCount, represents.live]
      · rw [created.process]
      · rw [created.process]
      · rw [created.process]
      · rw [created.process, represents.numbered.nextPid]
        refine congrArg some (BitVec.eq_of_toNat_eq ?_)
        rw [BitVec.toNat_setWidth, BitVec.toNat_ofNat, BitVec.toNat_ofNat]
        omega
    · obtain rfl : slot = taken := Option.some.inj (enrolls.found.symm.trans found)
      have missing : ¬ TwoFree s.kernel.toMemoryState := Nat.not_le.mpr few
      have brk' := brk slot found
      rw [result] at enrolls managed brk' ⊢
      simp only [missing, decide_false, Bool.false_eq_true, if_false, Option.map_none, and_true]
      exact represents.append enrolls stranded.others managed
        (stranded.processCount.trans represents.live) stranded.state brk' stranded.parent

/-- Changes that the tasks do not show. -/
theorem Represents.unseen {next : KernelState} (managed : Managed next.toMemoryState)
    (keeps : KeepsIdentities s.kernel next)
    (task : ∀ slot, (next.processes slot).task = (s.kernel.processes slot).task)
    (counted : next.processCount = s.kernel.processCount) {place : Nat}
    (current : ∃ slot, next.current = some slot ∧ slot.val = place)
    (inside : place < t.tasks.length) :
    Represents { t with current := place } { s with kernel := next } := by
  obtain ⟨running, here, same⟩ := current
  exact ⟨managed, represents.numbered.of_keeps keeps ⟨running, here, same ▸ inside⟩,
    ⟨running, here, same⟩, fun slot below => (represents.task slot below).trans
      (congrArg some (task slot).symm), counted.trans represents.live, represents.sent⟩

/-- A place is ready exactly if its slot is. -/
theorem Represents.readyAt (slot : Slot) :
    t.readyAt slot.val = true ↔ (s.kernel.processes slot).state = .ready := by
  rw [TaskSystem.readyAt]
  by_cases inside : slot.val < t.tasks.length
  · rw [represents.task slot inside, Option.any_some, Process.task]
    exact decide_eq_true_iff
  · have unused := inside ∘ (represents.numbered.used slot).mp ∘ (identity_used _).mpr
    rw [not_not.mp unused, List.getElem?_eq_none (Nat.not_lt.mp inside), Option.any_none]
    exact iff_of_false Bool.false_ne_true ProcessState.noConfusion

/-- The search of the ring of slots is the search of the list of tasks. -/
theorem Represents.nextTask {old : Slot} (current : old.val = t.current) :
    (s.kernel.roster.nextSlot old).map Fin.val = t.nextTask := by
  have inside : t.current < t.tasks.length := by
    obtain ⟨running, here, below⟩ := represents.numbered.current
    obtain ⟨slot, same, place⟩ := represents.current
    rw [← place, ← Option.some.inj (here.symm.trans same)]
    exact below
  have bounded := represents.numbered.bounded
  have test : ∀ slot : Slot, (t.readyAt slot.val && decide (slot.val ≠ t.current)) = true ↔
      s.kernel.roster.Eligible old slot := by
    intro slot
    rw [Bool.and_eq_true, represents.readyAt, decide_eq_true_iff, ← current, Roster.Eligible,
      Ne, Ne, Fin.ext_iff]
    rfl
  have unusedBehind : (List.range' t.tasks.length (64 - t.tasks.length)).find?
      (fun k => t.readyAt k && decide (k ≠ t.current)) = none := by
    rw [List.find?_eq_none]
    intro k member
    have behind : t.tasks.length ≤ k := (List.mem_range'_1.mp member).1
    rw [TaskSystem.readyAt, List.getElem?_eq_none behind]
    exact Bool.false_ne_true
  have parts : List.range' (t.current + 1) (64 - (t.current + 1)) =
      List.range' (t.current + 1) (t.tasks.length - (t.current + 1)) ++
        List.range' t.tasks.length (64 - t.tasks.length) := by
    have joined := @List.range'_append_1 (t.current + 1) (t.tasks.length - (t.current + 1))
      (64 - t.tasks.length)
    rw [show t.current + 1 + (t.tasks.length - (t.current + 1)) = t.tasks.length by omega] at joined
    rw [joined]
    congr 1
    omega
  have own : (fun k => t.readyAt k && decide (k ≠ t.current)) t.current = false := by
    simp only [ne_eq, not_true_eq_false, decide_false, Bool.and_false]
  have agree : ∀ k ≠ t.current, (t.readyAt k && decide (k ≠ t.current)) = t.readyAt k := by
    intro k other
    rw [decide_eq_true other, Bool.and_true]
  have ring := @CyclicSearch.search_from_next 64 _ (s.kernel.roster.Eligible old) _
    (fun k => t.readyAt k && decide (k ≠ t.current)) test old
  rw [Roster.nextSlot, ring, current, parts, List.range'_1_concat, TaskSystem.nextTask,
    Nat.zero_add]
  simp only [List.find?_append, unusedBehind, Option.or_none, List.find?_cons, own,
    List.find?_nil]
  congr 1
  · refine find?_of_agree fun k member => agree k ?_
    have above := (List.mem_range'_1.mp member).1
    omega
  · refine find?_of_agree fun k member => agree k ?_
    have below := (List.mem_range'_1.mp member).2
    omega

theorem Represents.inside : t.current < t.tasks.length := by
  obtain ⟨running, here, below⟩ := represents.numbered.current
  obtain ⟨slot, same, place⟩ := represents.current
  rw [← place, ← Option.some.inj (here.symm.trans same)]
  exact below

theorem Represents.schedule (savedRsp : BitVec 64) :
    Represents t.schedule { s with kernel := schedule s.kernel savedRsp } := by
  obtain ⟨old, running, place⟩ := represents.current
  have managed := managed_processStep represents.managed (.schedule savedRsp)
  have counted := schedule_processCount s.kernel savedRsp
  have keeps := (schedule_identities s.kernel savedRsp).1
  have assigns := assignsCurrent_schedule s.kernel savedRsp
  have task : ∀ slot, ((M12.schedule s.kernel savedRsp).processes slot).task =
      (s.kernel.processes slot).task := by
    intro slot
    rcases assigns.record slot with same | ⟨-, saved⟩
    · rw [same]
    · rw [saved]
      rfl
  have switched : (M12.schedule s.kernel savedRsp).current = s.kernel.roster.schedule.current :=
    congrArg Roster.current (roster_schedule s.kernel savedRsp)
  have next := represents.nextTask place
  rw [Roster.schedule, roster_count, represents.live, roster_current, running] at switched
  rw [TaskSystem.schedule]
  by_cases few : t.live ≤ 1#32
  · rw [if_pos few] at switched ⊢
    exact represents.unseen managed keeps task counted ⟨old, switched.trans running, place⟩
      represents.inside
  · rw [if_neg few] at switched ⊢
    cases found : s.kernel.roster.nextSlot old with
    | none =>
      simp only [found] at switched
      rw [found, Option.map_none] at next
      rw [← next]
      exact represents.unseen managed keeps task counted ⟨old, switched.trans running, place⟩
        represents.inside
    | some slot =>
      simp only [found] at switched
      rw [found, Option.map_some] at next
      rw [← next]
      have ready := (CyclicSearch.search_some _ found).1.1
      have used := (represents.numbered.used slot).mp
        ((identity_used _).mpr (ready.trans_ne ProcessState.noConfusion))
      exact represents.unseen managed keeps task counted ⟨slot, switched, rfl⟩ used

/-- A change of the current record is a change of the current task. -/
theorem Represents.modifyCurrent {next : KernelState} {live : BitVec 32}
    (assign : Process → Process) (change : Task → Task) (managed : Managed next.toMemoryState)
    (keeps : KeepsIdentities s.kernel next) (current : next.current = s.kernel.current)
    (own : ∀ slot, s.kernel.current = some slot →
      next.processes slot = assign (s.kernel.processes slot))
    (others : ∀ slot, s.kernel.current ≠ some slot →
      next.processes slot = s.kernel.processes slot)
    (shown : ∀ slot, s.kernel.current = some slot →
      (assign (s.kernel.processes slot)).task = change (s.kernel.processes slot).task)
    (counted : next.processCount = live) :
    Represents { t.modifyCurrent change with live := live } { s with kernel := next } := by
  obtain ⟨running, here, place⟩ := represents.current
  have length : (t.tasks.modify t.current change).length = t.tasks.length := List.length_modify ..
  refine ⟨managed, length.symm ▸ represents.numbered.of_keeps keeps
      ⟨running, current.trans here, place ▸ represents.inside⟩,
    ⟨running, current.trans here, place⟩, fun slot inside => ?_, counted, represents.sent⟩
  have old := represents.task slot (length ▸ inside)
  show (t.tasks.modify t.current change)[slot.val]? = some (next.processes slot).task
  by_cases same : slot = running
  · subst same
    rw [← place, List.getElem?_modify_eq, old, own slot here, shown slot here]
    rfl
  · have different : t.current ≠ slot.val := fun equal =>
      same (Fin.ext (equal.symm.trans place.symm))
    rw [List.getElem?_modify_ne _ _ different, old,
      others slot fun equal => same (Option.some.inj (equal.symm.trans here))]

theorem Represents.exit (status : BitVec 32) (savedRsp : BitVec 64) :
    Represents (t.exit status)
      { s with kernel := sysExitHandlerReal s.kernel status savedRsp } := by
  obtain ⟨running, here, -⟩ := represents.current
  have exited : markExited s.kernel status = { s.kernel.modify running fun proc =>
      { proc with state := .zombie, exitCode := status } with
        processCount := s.kernel.processCount - 1#32 } := by
    rw [markExited, here]
  have memory : (markExited s.kernel status).toMemoryState = s.kernel.toMemoryState := by
    rw [exited]
    rfl
  have own : ∀ slot, s.kernel.current = some slot → (markExited s.kernel status).processes slot =
      { s.kernel.processes slot with state := .zombie, exitCode := status } := by
    intro slot current
    obtain rfl := Option.some.inj (current.symm.trans here)
    rw [exited]
    exact modify_self s.kernel slot fun proc =>
      { proc with state := .zombie, exitCode := status }
  have counted : (markExited s.kernel status).processCount = t.live - 1#32 := by
    rw [exited, ← represents.live]
  have marked := represents.modifyCurrent
    (fun proc => { proc with state := .zombie, exitCode := status })
    (fun task => { task with ready := false, status := some status })
    (memory ▸ represents.managed)
    (keepsIdentities_markExited represents.numbered.occupied status)
    (markExited_current s.kernel status) own
    (fun slot other => (assignsCurrent_markExited s.kernel status).other other)
    (fun slot _ => rfl) counted
  exact marked.schedule savedRsp

theorem Represents.moveBreak (addr : BitVec 64) :
    Represents (t.moveBreak addr).1 { s with kernel := (sysBrkHandler s.kernel addr).1 } ∧
      (sysBrkHandler s.kernel addr).2 = (t.moveBreak addr).2 := by
  obtain ⟨running, here, place⟩ := represents.current
  have managed := managed_processStep represents.managed (.brk addr)
  have assigns := assignsCurrent_sysBrkHandler s.kernel addr
  rw [processStep] at managed
  rw [sysBrkHandler, here] at managed assigns ⊢
  rw [TaskSystem.moveBreak]
  by_cases moved : addr ≠ 0#64
  · simp only [if_pos moved] at managed assigns ⊢
    have own : ∀ slot, s.kernel.current = some slot →
        (s.kernel.modify running fun proc => { proc with brk := addr }).processes slot =
          { s.kernel.processes slot with brk := addr } := by
      intro slot current
      obtain rfl := Option.some.inj (current.symm.trans here)
      exact modify_self s.kernel slot fun proc => { proc with brk := addr }
    exact ⟨represents.modifyCurrent (fun proc => { proc with brk := addr })
      (fun task => { task with brk := addr }) managed (assigns.keepsIdentities fun _ _ => rfl) rfl
      own (fun slot other => assigns.other other) (fun slot _ => rfl) represents.live, trivial⟩
  · simp only [if_neg moved]
    refine ⟨represents, ?_⟩
    rw [← place, represents.task running (place ▸ represents.inside)]
    rfl

theorem Represents.getpid :
    sysGetpidHandlerReal s.kernel = BitVec.ofNat 64 (t.current + 1) := by
  obtain ⟨running, here, place⟩ := represents.current
  have pid : (s.kernel.processes running).pid = BitVec.ofNat 32 (running.val + 1) :=
    represents.numbered.pid running (place ▸ represents.inside)
  have runningLt := running.isLt
  have nonzero : (s.kernel.processes running).pid ≠ 0#32 := by
    rw [pid]
    intro zero
    have number := congrArg BitVec.toNat zero
    rw [BitVec.toNat_ofNat, BitVec.toNat_ofNat] at number
    omega
  rw [sysGetpidHandlerReal, getCurrentPid, here]
  simp only [if_neg nonzero]
  rw [pid, place]
  refine BitVec.eq_of_toNat_eq ?_
  rw [BitVec.toNat_setWidth, BitVec.toNat_ofNat, BitVec.toNat_ofNat]
  omega

theorem Represents.fork :
    Represents (t.spawn (decide (TwoFree s.kernel.toMemoryState))).1
        { s with kernel := (sysForkHandler s.kernel).1 } ∧
      (sysForkHandler s.kernel).2 =
        (t.spawn (decide (TwoFree s.kernel.toMemoryState))).2.getD (-1#64) := by
  obtain ⟨parent, here, -⟩ := represents.current
  obtain ⟨created, answer⟩ := represents.create (s.kernel.processes parent).context.rip
  cases result : createProcess s.kernel (s.kernel.processes parent).context.rip with
  | mk next child =>
    rw [result] at created answer
    rw [sysForkHandler_eq here result]
    cases child with
    | none =>
      rw [← answer]
      exact ⟨created, rfl⟩
    | some child =>
      rw [← answer]
      refine ⟨?_, rfl⟩
      have copied := keepsIdentities_modify next child (fun proc => { proc with
        context := { (next.processes parent).context with rax := 0#64 } }) rfl
      have task : ∀ slot, ((next.modify child fun proc => { proc with
          context := { (next.processes parent).context with rax := 0#64 } }).processes slot).task =
            (next.processes slot).task := by
        intro slot
        by_cases own : slot = child
        · rw [own, modify_self]
          rfl
        · rw [modify_other _ _ _ own]
      have managed : Managed (next.modify child fun proc => { proc with
          context := { (next.processes parent).context with rax := 0#64 } }).toMemoryState :=
        created.managed
      exact created.unseen managed copied task rfl created.current created.inside

/-- A system call returns what the model says. -/
theorem Represents.act (memory : Memory) (savedRsp : BitVec 64) (action : SyscallAction) :
    Represents (t.act memory (decide (TwoFree s.kernel.toMemoryState)) action).1
        (s.act memory savedRsp action).1 ∧
      (s.act memory savedRsp action).2 =
        (t.act memory (decide (TwoFree s.kernel.toMemoryState)) action).2 := by
  cases action with
  | rejected => exact ⟨represents, rfl⟩
  | dummy => exact ⟨represents, rfl⟩
  | exit status => exact ⟨represents.exit status savedRsp, rfl⟩
  | write fd buffer count =>
    have sent : (s.act memory savedRsp (.write fd buffer count)).1.sent =
        t.sent ++ writtenText (stringAt memory buffer) count.toNat := by
      show (sysWriteHandler _ memory s.sent fd buffer count 0#64 0#64).1 = _
      rw [sysWriteHandler_sends, represents.sent]
      generalize writtenText (stringAt memory buffer) count.toNat = text
      induction text using List.reverseRecOn with
      | nil => rw [List.foldl_nil, List.append_nil]
      | append_singleton text character inductionHypothesis =>
        rw [List.foldl_append, inductionHypothesis, List.foldl_cons, List.foldl_nil,
          List.append_assoc]
    exact ⟨⟨represents.managed, represents.numbered, represents.current, represents.task,
      represents.live, sent⟩, rfl⟩
  | getpid => exact ⟨represents, represents.getpid⟩
  | fork => exact represents.fork
  | exec path argv => exact ⟨represents, rfl⟩
  | wait status => exact ⟨represents, rfl⟩
  | brk addr => exact represents.moveBreak addr

theorem Represents.step (event : SystemEvent) :
    Represents (t.step (decide (TwoFree s.kernel.toMemoryState)) event).1 (s.step event).1 ∧
      (s.step event).2 = (t.step (decide (TwoFree s.kernel.toMemoryState)) event).2 := by
  have allocator (call : ProcessCall) (tables : (processStep s.kernel call).processes =
      s.kernel.processes) (nextPid : (processStep s.kernel call).nextPid = s.kernel.nextPid)
      (current : (processStep s.kernel call).current = s.kernel.current)
      (counted : (processStep s.kernel call).processCount = s.kernel.processCount) :
      Represents t { s with kernel := processStep s.kernel call } :=
    represents.unseen (managed_processStep represents.managed call)
      ⟨fun slot => congrArg Process.identity (congrFun tables slot), nextPid⟩
      (fun slot => congrArg Process.task (congrFun tables slot)) counted
      (current ▸ represents.current) represents.inside
  cases event with
  | call number arg1 arg2 arg3 memory savedRsp =>
    obtain ⟨state, result⟩ := represents.act memory savedRsp (syscallHandler number arg1 arg2 arg3)
    exact ⟨state, congrArg some result⟩
  | create entryPoint => exact represents.create entryPoint
  | schedule savedRsp => exact ⟨represents.schedule savedRsp, rfl⟩
  | get => exact ⟨allocator .get rfl rfl rfl rfl, rfl⟩
  | free page => exact ⟨allocator (.free page) rfl rfl rfl rfl, rfl⟩

theorem Represents.run (events : List SystemEvent) :
    Represents (t.run (events.zip (s.pagesFree events))).1 (s.run events).1 ∧
      (s.run events).2 = (t.run (events.zip (s.pagesFree events))).2 := by
  induction events generalizing t s with
  | nil => exact ⟨represents, rfl⟩
  | cons event rest inductionHypothesis =>
    obtain ⟨state, result⟩ := represents.step event
    obtain ⟨final, results⟩ := inductionHypothesis state
    exact ⟨final, congrArg₂ List.cons result results⟩

end Represents

/-! ### Runs from the start -/

/-- The process manager starts with one task. -/
theorem represents_started {s : KernelState} (managed : Managed s.toMemoryState)
    (idle : BitVec 64) :
    Represents (TaskSystem.started (decide (TwoFree s.toMemoryState)))
      ⟨initProcessManager s idle, []⟩ := by
  obtain ⟨numbered, current⟩ := numbered_initProcessManager s idle
  have roster := roster_initProcessManager managed idle
  have state := congrFun (congrArg Roster.states roster) 0
  rw [roster_states, Roster.started] at state
  simp only [Function.update_self] at state
  refine ⟨(takesTwo_initProcessManager managed idle).managed, numbered, ⟨0, current, rfl⟩,
    fun slot inside => ?_, congrArg Roster.count roster, rfl⟩
  obtain rfl : slot = 0 := Fin.ext (Nat.lt_one_iff.mp inside)
  have brk := brk_initProcessManager managed idle current
  have parent : ((initProcessManager s idle).processes 0).parent = none := numbered.root
  show some (Task.mk _ none 0x400000#64 none) = some (Process.task _)
  rw [Process.task, state, brk, parent]
  cases decide (TwoFree s.toMemoryState) with
  | true => rfl
  | false => rfl

/-- The system calls see a list of tasks. From the start of the process manager, whatever the
allocator holds, and for any system calls with any numbers and arguments, mixed with creations,
switches, allocations and frees: the results are those of the list of tasks, which is told of the
allocator only whether two pages are free, and the slots represent the list. -/
theorem system_calls_refine_tasks (s : KernelState) (managed : Managed s.toMemoryState)
    (idle : BitVec 64) (events : List SystemEvent) :
    Represents
        ((TaskSystem.started (decide (TwoFree s.toMemoryState))).run
          (events.zip (SystemState.pagesFree ⟨initProcessManager s idle, []⟩ events))).1
        (SystemState.run ⟨initProcessManager s idle, []⟩ events).1 ∧
      (SystemState.run ⟨initProcessManager s idle, []⟩ events).2 =
        ((TaskSystem.started (decide (TwoFree s.toMemoryState))).run
          (events.zip (SystemState.pagesFree ⟨initProcessManager s idle, []⟩ events))).2 :=
  (represents_started managed idle).run events

/-- A program forks, moves its break, exits and asks for its pid. -/
def oneProgram : List SystemEvent :=
  [.call 5#64 0#64 0#64 0#64 (fun _ => 0#8) 0#64,
    .call 9#64 0x500000#64 0#64 0#64 (fun _ => 0#8) 0#64,
    .call 0#64 7#64 0#64 0#64 (fun _ => 0#8) 0#64, .call 8#64 0#64 0#64 0#64 (fun _ => 0#8) 0#64]

/-- The program on the machine of a blank memory. -/
theorem system_calls_refine_tasks_blank :
    (SystemState.run ⟨initProcessManager blankKernel 0x11000#64, []⟩ oneProgram).2 =
      ((TaskSystem.started (decide (TwoFree blankKernel.toMemoryState))).run
        (oneProgram.zip (SystemState.pagesFree ⟨initProcessManager blankKernel 0x11000#64, []⟩
          oneProgram))).2 :=
  (system_calls_refine_tasks blankKernel managed_blankKernel.1 0x11000#64 oneProgram).2

/-! ### Places run out -/

/-- The pid an event has created, by what it returned. -/
def createdPid : SystemEvent × Option (BitVec 64) → Option Nat
  | (.call number arg1 arg2 arg3 _ _, some result) =>
    if syscallHandler number arg1 arg2 arg3 = .fork ∧ result ≠ -1#64 then some result.toNat
    else none
  | (.create _, some result) => some result.toNat
  | _ => none

/-- The pids the events of a run have created, in order. -/
def createdPids (s : SystemState) (events : List SystemEvent) : List Nat :=
  (events.zip (s.run events).2).filterMap createdPid

/-- The list of tasks does not shrink, has 64 places, and grows by the task that is created. -/
structure Grown (before after : TaskSystem) (created : Option Nat) : Prop where
  kept : before.tasks.length ≤ after.tasks.length
  bounded : before.tasks.length ≤ 64 → after.tasks.length ≤ 64
  pid : ∀ pid, created = some pid →
    pid = before.tasks.length + 1 ∧ after.tasks.length = before.tasks.length + 1

theorem grown_of_length {before after : TaskSystem}
    (length : after.tasks.length = before.tasks.length) : Grown before after none :=
  ⟨length.ge, fun bounded => length.trans_le bounded,
    fun pid never => absurd never.symm (Option.some_ne_none pid)⟩

namespace TaskSystem

theorem schedule_tasks (t : TaskSystem) : t.schedule.tasks = t.tasks := by
  rw [schedule]
  split
  · rfl
  · split
    · rfl
    · rfl

theorem length_exit (t : TaskSystem) (status : BitVec 32) :
    (t.exit status).tasks.length = t.tasks.length := by
  rw [exit, schedule_tasks]
  exact List.length_modify ..

theorem length_moveBreak (t : TaskSystem) (addr : BitVec 64) :
    (t.moveBreak addr).1.tasks.length = t.tasks.length := by
  rw [moveBreak]
  split
  · exact List.length_modify ..
  · rfl

theorem grown_spawn (t : TaskSystem) (enough : Bool) :
    Grown t (t.spawn enough).1 ((t.spawn enough).2.map BitVec.toNat) := by
  rw [spawn]
  by_cases room : t.tasks.length < 64
  · simp only [if_pos room]
    have length : (t.tasks ++ [(⟨true, none, 0x400000#64, some t.current⟩ : Task)]).length =
        t.tasks.length + 1 := List.length_append
    refine ⟨length.ge.trans' (Nat.le_succ _), fun _ => length.trans_le room,
      fun pid created => ⟨?_, length⟩⟩
    cases enough with
    | false => exact absurd created.symm (Option.some_ne_none pid)
    | true =>
      rw [if_pos rfl, Option.map_some, BitVec.toNat_ofNat] at created
      have number := Option.some.inj created
      omega
  · rw [if_neg room]
    exact grown_of_length rfl

/-- What one event creates is the next place. -/
theorem grown_step (t : TaskSystem) (enough : Bool) (event : SystemEvent) :
    Grown t (t.step enough event).1 (createdPid (event, (t.step enough event).2)) := by
  cases event with
  | call number arg1 arg2 arg3 memory savedRsp =>
    have spawned := t.grown_spawn enough
    rw [step, createdPid]
    simp only
    cases syscallHandler number arg1 arg2 arg3 with
    | fork =>
      refine ⟨spawned.kept, spawned.bounded, fun pid created => spawned.pid pid ?_⟩
      simp only [act] at created
      cases answer : (t.spawn enough).2 with
      | none =>
        rw [answer] at created
        simp at created
      | some result =>
        rw [answer, Option.getD_some] at created
        simp only [true_and] at created
        by_cases failed : result ≠ -1#64
        · rwa [if_pos failed] at created
        · rw [if_neg failed] at created
          exact absurd created.symm (Option.some_ne_none pid)
    | exit status =>
      rw [if_neg fun both => SyscallAction.noConfusion both.1]
      exact grown_of_length (t.length_exit status)
    | brk addr =>
      rw [if_neg fun both => SyscallAction.noConfusion both.1]
      exact grown_of_length (t.length_moveBreak addr)
    | _ =>
      rw [if_neg fun both => SyscallAction.noConfusion both.1]
      exact grown_of_length rfl
  | create entryPoint =>
    have spawned := t.grown_spawn enough
    rw [step]
    cases answer : (t.spawn enough).2 with
    | none =>
      rw [answer] at spawned
      exact spawned
    | some result =>
      rw [answer] at spawned
      exact spawned
  | schedule savedRsp => exact grown_of_length (congrArg List.length t.schedule_tasks)
  | get => exact grown_of_length rfl
  | free page => exact grown_of_length rfl

theorem createdPids_run (t : TaskSystem) (bounded : t.tasks.length ≤ 64)
    (events : List SystemEvent) (enough : List Bool) :
    ((events.zip (t.run (events.zip enough)).2).filterMap createdPid).Pairwise (· < ·) ∧
      ∀ pid ∈ (events.zip (t.run (events.zip enough)).2).filterMap createdPid,
        t.tasks.length < pid ∧ pid ≤ 64 := by
  induction events generalizing t enough with
  | nil => exact ⟨List.Pairwise.nil, fun pid member => absurd member List.not_mem_nil⟩
  | cons event rest inductionHypothesis =>
    cases enough with
    | nil => exact ⟨List.Pairwise.nil, fun pid member => absurd member List.not_mem_nil⟩
    | cons free others =>
      have grown := t.grown_step free event
      obtain ⟨increasing, range⟩ := inductionHypothesis (t.step free event).1
        (grown.bounded bounded) others
      have later : ∀ pid ∈ (rest.zip ((t.step free event).1.run (rest.zip others)).2).filterMap
          createdPid, t.tasks.length < pid ∧ pid ≤ 64 := fun pid member =>
        ⟨lt_of_le_of_lt grown.kept (range pid member).1, (range pid member).2⟩
      show (((event, (t.step free event).2) ::
        rest.zip ((t.step free event).1.run (rest.zip others)).2).filterMap createdPid).Pairwise
          (· < ·) ∧ ∀ pid ∈ ((event, (t.step free event).2) ::
            rest.zip ((t.step free event).1.run (rest.zip others)).2).filterMap createdPid, _
      cases created : createdPid (event, (t.step free event).2) with
      | none =>
        rw [List.filterMap_cons_none created]
        exact ⟨increasing, later⟩
      | some first =>
        obtain ⟨number, length⟩ := grown.pid first created
        have limit := grown.bounded bounded
        rw [List.filterMap_cons_some created, List.pairwise_cons, List.forall_mem_cons]
        refine ⟨⟨fun pid member => ?_, increasing⟩, ⟨by omega, by omega⟩, later⟩
        have above := (range pid member).1
        omega

end TaskSystem

/-- Places run out. In every run of system calls and creations the pids of the processes that are
created rise from 2 to at most 64, however many processes have exited: at most 63 are created. -/
theorem created_pids_rise (s : KernelState) (managed : Managed s.toMemoryState) (idle : BitVec 64)
    (events : List SystemEvent) :
    (createdPids ⟨initProcessManager s idle, []⟩ events).Pairwise (· < ·) ∧
      (∀ pid ∈ createdPids ⟨initProcessManager s idle, []⟩ events, 2 ≤ pid ∧ pid ≤ 64) ∧
      (createdPids ⟨initProcessManager s idle, []⟩ events).length ≤ 63 := by
  have results := ((represents_started managed idle).run events).2
  obtain ⟨increasing, range⟩ :=
    (TaskSystem.started (decide (TwoFree s.toMemoryState))).createdPids_run
      (show 1 ≤ 64 by decide) events
      (SystemState.pagesFree ⟨initProcessManager s idle, []⟩ events)
  rw [← results] at increasing range
  refine ⟨increasing, range, ?_⟩
  have inside : (createdPids ⟨initProcessManager s idle, []⟩ events).toFinset ⊆
      Finset.Icc 2 64 := by
    intro pid member
    exact Finset.mem_Icc.mpr (range pid (List.mem_toFinset.mp member))
  have distinct : (createdPids ⟨initProcessManager s idle, []⟩ events).Nodup :=
    increasing.imp fun less => Nat.ne_of_lt less
  have card := Finset.card_le_card inside
  rw [List.toFinset_card_of_nodup distinct, Nat.card_Icc] at card
  exact card

/-- The blank machine and one program. -/
theorem created_pids_rise_blank :
    (createdPids ⟨initProcessManager blankKernel 0x11000#64, []⟩ oneProgram).length ≤ 63 :=
  (created_pids_rise blankKernel managed_blankKernel.1 0x11000#64 oneProgram).2.2

end M12
