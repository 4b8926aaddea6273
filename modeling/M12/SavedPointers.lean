/-
This file is about the stack pointers saved in the contexts of ready processes.

`create_process` points the stack pointer of a new process to the end of its own
kernel stack. `sys_fork_handler` then copies the whole context of the parent over
the child's, stack pointer included, so the child is left with a stack of its own
and a stack pointer into the stack of its parent. Among runs in which every
create and fork succeeds, those without a fork are exactly those that keep every
saved stack pointer on its own stack.
-/

import M12.ProcessStacks

namespace M12

/-! ### Saved stack pointers -/

/-- The pointer lies on the stack in this page: above its first byte, at most at its end. -/
def OnStack (page pointer : BitVec 64) : Prop :=
  page.toNat < pointer.toNat ∧ pointer.toNat ≤ page.toNat + 4096

/-- A ready slot that `create_process` has set up, alone or for `sys_fork_handler`. -/
def ReadySlot (s : KernelState) (byHand : Finset Slot) (slot : Slot) : Prop :=
  slot ∉ byHand ∧ (s.processes slot).state = .ready

/-- Every saved stack pointer lies on the stack of its process, and no two of them lie in the
same page. -/
structure OwnPointers (s : KernelState) (byHand : Finset Slot) : Prop where
  own : ∀ slot, ReadySlot s byHand slot →
    OnStack (s.processes slot).kernelStack (s.processes slot).context.rsp
  alone : ∀ first second, ReadySlot s byHand first → ReadySlot s byHand second →
    ∀ i < s.totalPages.toNat,
      OnStack (pageAddress s.toMemoryState i) (s.processes first).context.rsp →
      OnStack (pageAddress s.toMemoryState i) (s.processes second).context.rsp → first = second

/-- The end of a page lies on the stack in that page and in no other. -/
theorem onStack_end_iff {s : MemoryState} (managed : Managed s) {i j : Nat}
    (inside : i < s.totalPages.toNat) (insideOther : j < s.totalPages.toNat) :
    OnStack (pageAddress s j) (pageAddress s i + kernelStackSize) ↔ i = j := by
  have first := toNat_pageAddress managed inside
  have second := toNat_pageAddress managed insideOther
  have small := managed.endBelow
  have total := managed.totalPages
  have stackEnd : (pageAddress s i + kernelStackSize).toNat = (pageAddress s i).toNat + 4096 := by
    rw [BitVec.toNat_add, show kernelStackSize.toNat = 4096 from rfl, Nat.mod_eq_of_lt]
    omega
  rw [OnStack, stackEnd]
  omega

/-! ### The invariant -/

/-- Every process `create_process` has set up, exited or not, has a kernel stack of its own and a
stack pointer at its end. If a process was set up by hand, there are no pages for another. -/
structure Seated (s : KernelState) (byHand : Finset Slot) : Prop where
  managed : Managed s.toMemoryState
  page : ∀ slot ∉ byHand, (s.processes slot).state ≠ .unused →
    ∃ i, UsedPage s.toMemoryState (s.processes slot).kernelStack i
  pointer : ∀ slot ∉ byHand, (s.processes slot).state ≠ .unused →
    (s.processes slot).context.rsp = (s.processes slot).kernelStack + kernelStackSize
  different : ∀ first ∉ byHand, (s.processes first).state ≠ .unused →
    ∀ second ∉ byHand, (s.processes second).state ≠ .unused →
      (s.processes first).kernelStack = (s.processes second).kernelStack → first = second
  scarce : byHand.Nonempty → ¬ TwoFree s.toMemoryState

theorem Seated.ownPointers {s : KernelState} {byHand : Finset Slot} (seated : Seated s byHand) :
    OwnPointers s byHand := by
  have used : ∀ slot, ReadySlot s byHand slot → (s.processes slot).state ≠ .unused := by
    intro slot ready
    rw [ready.2]
    exact ProcessState.noConfusion
  refine ⟨fun slot ready => ?_, fun first second readyFirst readySecond i inside on onToo => ?_⟩
  · obtain ⟨i, inside, -, here⟩ := seated.page slot ready.1 (used slot ready)
    rw [seated.pointer slot ready.1 (used slot ready), here]
    exact (onStack_end_iff seated.managed inside inside).mpr rfl
  · obtain ⟨j, insideJ, -, here⟩ := seated.page first readyFirst.1 (used first readyFirst)
    obtain ⟨k, insideK, -, there⟩ := seated.page second readySecond.1 (used second readySecond)
    rw [seated.pointer first readyFirst.1 (used first readyFirst), here,
      onStack_end_iff seated.managed insideJ inside] at on
    rw [seated.pointer second readySecond.1 (used second readySecond), there,
      onStack_end_iff seated.managed insideK inside] at onToo
    refine seated.different first readyFirst.1 (used first readyFirst) second readySecond.1
      (used second readySecond) ?_
    rw [here, there, on, onToo]

/-- What the calls that create nothing leave of a table. -/
structure KeepsPointers (s next : KernelState) : Prop where
  memory : next.toMemoryState = s.toMemoryState
  used : ∀ slot, (next.processes slot).state ≠ .unused → (s.processes slot).state ≠ .unused
  kernelStack : ∀ slot, (next.processes slot).kernelStack = (s.processes slot).kernelStack
  pointer : ∀ slot, (next.processes slot).context.rsp = (s.processes slot).context.rsp

theorem KeepsPointers.seated {s next : KernelState} {byHand : Finset Slot}
    (keeps : KeepsPointers s next) (seated : Seated s byHand) : Seated next byHand where
  managed := by
    rw [keeps.memory]
    exact seated.managed
  page := by
    intro slot outside used
    rw [keeps.memory, keeps.kernelStack]
    exact seated.page slot outside (keeps.used slot used)
  pointer := by
    intro slot outside used
    rw [keeps.pointer, keeps.kernelStack]
    exact seated.pointer slot outside (keeps.used slot used)
  different := by
    intro first outside used second outsideToo usedToo same
    rw [keeps.kernelStack, keeps.kernelStack] at same
    exact seated.different first outside (keeps.used first used) second outsideToo
      (keeps.used second usedToo) same
  scarce := by
    rw [keeps.memory]
    exact seated.scarce

theorem keepsPointers_modify (s : KernelState) (slot : Slot) (assign : Process → Process)
    (used : (s.processes slot).state = .unused → (assign (s.processes slot)).state = .unused)
    (kernelStack : (assign (s.processes slot)).kernelStack = (s.processes slot).kernelStack)
    (pointer : (assign (s.processes slot)).context.rsp = (s.processes slot).context.rsp) :
    KeepsPointers s (s.modify slot assign) := by
  have cases : ∀ other, (s.modify slot assign).processes other = s.processes other ∨
      (other = slot ∧ (s.modify slot assign).processes other = assign (s.processes slot)) := by
    intro other
    by_cases same : other = slot
    · rw [same, modify_self]
      exact Or.inr ⟨rfl, rfl⟩
    · exact Or.inl (modify_other s slot assign same)
  refine ⟨rfl, fun other => ?_, fun other => ?_, fun other => ?_⟩
  · rcases cases other with same | ⟨rfl, same⟩
    · rw [same]
      exact id
    · rw [same]
      exact fun later unused => later (used unused)
  · rcases cases other with same | ⟨rfl, same⟩
    · rw [same]
    · rw [same, kernelStack]
  · rcases cases other with same | ⟨rfl, same⟩
    · rw [same]
    · rw [same, pointer]

theorem AssignsCurrent.keepsPointers {s next : KernelState} {assign : Process → Process}
    (assigns : AssignsCurrent s next assign)
    (used : ∀ slot, s.current = some slot → (s.processes slot).state = .unused →
      (assign (s.processes slot)).state = .unused)
    (kernelStack : ∀ proc, (assign proc).kernelStack = proc.kernelStack)
    (pointer : ∀ proc, (assign proc).context.rsp = proc.context.rsp) : KeepsPointers s next := by
  refine ⟨assigns.memory, fun slot => ?_, fun slot => ?_, fun slot => ?_⟩
  · rcases assigns.record slot with same | ⟨current, assigned⟩
    · rw [same]
      exact id
    · rw [assigned]
      exact fun later unused => later (used slot current unused)
  · rcases assigns.record slot with same | ⟨-, assigned⟩
    · rw [same]
    · rw [assigned, kernelStack]
  · rcases assigns.record slot with same | ⟨-, assigned⟩
    · rw [same]
    · rw [assigned, pointer]

theorem keepsPointers_schedule (s : KernelState) (savedRsp : BitVec 64) :
    KeepsPointers s (schedule s savedRsp) :=
  (assignsCurrent_schedule s savedRsp).keepsPointers (fun _ _ => id) (fun _ => rfl) fun _ => rfl

theorem keepsPointers_markExited {s : KernelState} (occupied : s.roster.Occupied)
    (status : BitVec 32) : KeepsPointers s (markExited s status) := by
  obtain ⟨slot, current, used⟩ := occupied
  rw [roster_current] at current
  rw [roster_states] at used
  refine (assignsCurrent_markExited s status).keepsPointers (fun other running unused => ?_)
    (fun _ => rfl) fun _ => rfl
  rw [current, Option.some_inj] at running
  rw [← running] at unused
  exact absurd unused used

theorem keepsPointers_sysBrkHandler (s : KernelState) (addr : BitVec 64) :
    KeepsPointers s (sysBrkHandler s addr).1 :=
  (assignsCurrent_sysBrkHandler s addr).keepsPointers (fun _ _ => id) (fun _ => rfl) fun _ => rfl

/-! ### Creating and forking -/

section Created

variable {s next : KernelState} {byHand : Finset Slot} {slot : Slot} {entryPoint : BitVec 64}
  {i j : Nat} (seated : Seated s byHand) (created : Created s next slot entryPoint i j)
  (first : i ∈ (pool s.toMemoryState).free) (second : j ∈ (pool s.toMemoryState).free.erase i)

include seated created first second

/-- The kernel stack of a new process is not the kernel stack of another. -/
theorem Seated.fresh {other : Slot} (outside : other ∉ byHand)
    (used : (s.processes other).state ≠ .unused) :
    (next.processes slot).kernelStack ≠ (s.processes other).kernelStack := by
  obtain ⟨k, free, page, -⟩ := Created.stack seated.managed created first second .kernel
  have kernel : (next.processes slot).kernelStack = pageAddress s.toMemoryState k := page
  rw [kernel]
  exact free_ne_used seated.managed free (seated.page other outside used)

theorem seated_created : Seated next byHand := by
  have same : ∀ other, other ≠ slot → next.processes other = s.processes other :=
    created.others
  refine ⟨?_, fun other outside used => ?_, fun other outside used => ?_,
    fun one outside used two outsideToo usedToo equal => ?_, fun byHand => ?_⟩
  · rw [created.memory]
    exact (takesTwo_claimed_claimed seated.managed first second).managed
  · by_cases new : other = slot
    · obtain ⟨k, -, -, used⟩ := Created.stack seated.managed created first second .kernel
      rw [new]
      exact ⟨k, used⟩
    · rw [same other new] at used ⊢
      exact Created.used seated.managed created first second (seated.page other outside used)
  · by_cases new : other = slot
    · rw [new, created.process]
      rfl
    · rw [same other new] at used ⊢
      exact seated.pointer other outside used
  · by_cases oneNew : one = slot
    · by_cases twoNew : two = slot
      · exact oneNew.trans twoNew.symm
      · rw [same two twoNew] at usedToo equal
        rw [oneNew] at equal
        exact absurd equal (seated.fresh created first second outsideToo usedToo)
    · rw [same one oneNew] at used equal
      by_cases twoNew : two = slot
      · rw [twoNew] at equal
        exact absurd equal.symm (seated.fresh created first second outside used)
      · rw [same two twoNew] at usedToo equal
        exact seated.different one outside used two outsideToo usedToo equal
  · exact absurd (twoFree_of_least first second) (seated.scarce byHand)

end Created

/-- The calls of a run that does not fail: what is created gets its pages, and nobody frees any. -/
def Succeeds (s : KernelState) : ProcessCall → Prop
  | .create entryPoint => (createProcess s entryPoint).2 ≠ none
  | .fork => (sysForkHandler s).2 ≠ -1#64
  | .free _ => False
  | _ => True

/-- A `create_process` that succeeds has two pages. -/
theorem createProcess_succeeds {s : KernelState} (managed : Managed s.toMemoryState)
    {entryPoint : BitVec 64} (succeeds : (createProcess s entryPoint).2 ≠ none) :
    ∃ slot next i j, freeSlot s = some slot ∧ i ∈ (pool s.toMemoryState).free ∧
      j ∈ (pool s.toMemoryState).free.erase i ∧ createProcess s entryPoint = (next, some slot) ∧
      Created s next slot entryPoint i j := by
  rcases createProcess_cases managed entryPoint with ⟨-, result⟩ |
    ⟨slot, next, i, j, found, least, leastJ, result, created⟩ | ⟨slot, next, -, -, result, -⟩
  · rw [result] at succeeds
    exact absurd rfl succeeds
  · exact ⟨slot, next, i, j, found, least.1, leastJ.1, result, created⟩
  · rw [result] at succeeds
    exact absurd rfl succeeds

theorem seated_processStep {s : KernelState} {byHand : Finset Slot} (seated : Seated s byHand)
    (occupied : s.roster.Occupied) {call : ProcessCall} (succeeds : Succeeds s call)
    (noFork : call ≠ .fork) : Seated (processStep s call) byHand := by
  cases call with
  | create entryPoint =>
    obtain ⟨slot, next, i, j, -, first, second, result, created⟩ :=
      createProcess_succeeds seated.managed succeeds
    rw [processStep, result]
    exact seated_created seated created first second
  | fork => exact absurd rfl noFork
  | schedule savedRsp => exact (keepsPointers_schedule s savedRsp).seated seated
  | exit status savedRsp =>
    exact (keepsPointers_schedule _ savedRsp).seated
      ((keepsPointers_markExited occupied status).seated seated)
  | brk addr => exact (keepsPointers_sysBrkHandler s addr).seated seated
  | get =>
    rw [processStep]
    rcases getPage_cases seated.managed with ⟨i, least, result⟩ | ⟨-, result⟩
    · have inside : i < s.totalPages.toNat := IndexPool.lt_total least.1
      rw [result]
      refine ⟨managed_claimed seated.managed least.1, fun slot outside used => ?_, seated.pointer,
        seated.different, fun byHand enough => seated.scarce byHand ?_⟩
      · obtain ⟨j, page⟩ := seated.page slot outside used
        exact ⟨j, usedPage_claimed seated.managed inside page⟩
      · have fewer : (pool (claimed s.toMemoryState i)).free.card ≤
            (pool s.toMemoryState).free.card := by
          rw [free_claimed seated.managed inside]
          exact Finset.card_erase_le
        exact le_trans enough fewer
    · rw [result]
      exact seated
  | free page => exact absurd succeeds not_false

/-- The child of a fork gets the stack pointer of its parent, which is not on the child's stack. -/
theorem not_ownPointers_fork {s : KernelState} {byHand : Finset Slot} (seated : Seated s byHand)
    (occupied : s.roster.Occupied) (succeeds : Succeeds s .fork) :
    ¬ OwnPointers (processStep s .fork) byHand := by
  obtain ⟨parent, current, used⟩ := occupied
  rw [roster_current] at current
  rw [roster_states] at used
  have succeeds : (sysForkHandler s).2 ≠ -1#64 := succeeds
  rw [processStep]
  rcases createProcess_cases seated.managed (s.processes parent).context.rip with ⟨-, result⟩ |
    ⟨slot, next, i, j, found, least, leastJ, result, created⟩ | ⟨slot, next, -, -, result, -⟩
  · rw [sysForkHandler_eq current result] at succeeds
    exact absurd rfl succeeds
  · have enough := twoFree_of_least least.1 leastJ.1
    have nobody : byHand = ∅ := Finset.not_nonempty_iff_eq_empty.mp fun byHand =>
      seated.scarce byHand enough
    have different : parent ≠ slot := by
      rintro rfl
      exact used (freeSlot_some found)
    have outside : ∀ other, other ∉ byHand := fun other => nobody ▸ Finset.notMem_empty other
    obtain ⟨k, inside, taken, here⟩ := seated.page parent (outside parent) used
    have pointer := seated.pointer parent (outside parent) used
    rw [sysForkHandler_eq current result]
    intro own
    have copied := modify_self next slot fun proc => { proc with
      context := { (next.processes parent).context with rax := 0#64 } }
    have child := own.own slot ⟨outside slot, by
      rw [copied, created.process]⟩
    rw [copied, created.process, created.others parent different] at child
    simp only [pointer, here] at child
    have same := (onStack_end_iff seated.managed inside (IndexPool.lt_total least.1)).mp child
    exact taken (same ▸ least.1)
  · rw [sysForkHandler_eq current result] at succeeds
    exact absurd rfl succeeds

/-! ### Runs -/

theorem seated_initProcessManager {s : KernelState} (managed : Managed s.toMemoryState)
    (idle : BitVec 64) : Seated (initProcessManager s idle) (byHandSlots s idle) := by
  have reset : Seated (resetProcesses s) ∅ :=
    ⟨managed, fun _ _ used => absurd rfl used, fun _ _ used => absurd rfl used,
      fun _ _ used => absurd rfl used, fun byHand => absurd byHand Finset.not_nonempty_empty⟩
  rw [initProcessManager, byHandSlots]
  rcases createProcess_cases (s := resetProcesses s) managed idle with ⟨full, -⟩ |
    ⟨slot, next, i, j, -, least, leastJ, result, created⟩ |
    ⟨slot, next, found, few, result, stranded⟩
  · rw [freeSlot_resetProcesses] at full
    exact absurd full (Option.some_ne_none 0)
  · rw [result]
    have seated := seated_created reset created least.1 leastJ.1
    have keeps := keepsPointers_modify next slot (fun proc => { proc with pid := 1#32 }) id rfl rfl
    exact KeepsPointers.seated ⟨keeps.memory, keeps.used, keeps.kernelStack, keeps.pointer⟩ seated
  · rw [result]
    obtain rfl : 0 = slot := by
      rw [freeSlot_resetProcesses] at found
      exact Option.some.inj found
    have unused : ∀ other ∉ ({0} : Finset Slot),
        ((fallbackProcess next).processes other).state = .unused := by
      intro other outside
      have different : other ≠ 0 := fun same => outside (Finset.mem_singleton.mpr same)
      have state := congrFun (congrArg Roster.states (roster_fallbackProcess next)) other
      simp only [Function.update_of_ne different] at state
      exact state.trans (congrArg Process.state (stranded.others other different))
    refine ⟨stranded.managed, fun other outside used => absurd (unused other outside) used,
      fun other outside used => absurd (unused other outside) used,
      fun other outside used => absurd (unused other outside) used, fun _ enough => ?_⟩
    have pages : 2 ≤ (pool next.toMemoryState).free.card := enough
    rw [stranded.pages] at pages
    exact absurd pages (Nat.not_le.mpr few)

/-- Every call of the run succeeds. -/
def RunSucceeds (s : KernelState) (calls : List ProcessCall) : Prop :=
  ∀ done call, done ++ [call] <+: calls → Succeeds (processRun s done) call

theorem seated_processRun {s : KernelState} {byHand : Finset Slot} (seated : Seated s byHand)
    (occupied : s.roster.Occupied) {calls : List ProcessCall} (succeeds : RunSucceeds s calls)
    {done : List ProcessCall} (isPrefix : done <+: calls) (noFork : .fork ∉ done) :
    Seated (processRun s done) byHand := by
  induction done using List.reverseRecOn with
  | nil => exact seated
  | append_singleton done call inductionHypothesis =>
    have before := inductionHypothesis ((List.prefix_append done [call]).trans isPrefix)
      fun member => noFork (List.mem_append_left _ member)
    rw [processRun_append]
    refine seated_processStep before (occupied_processRun seated.managed occupied done)
      (succeeds done call isPrefix) fun same => noFork ?_
    rw [same]
    exact List.mem_append_right _ (List.mem_singleton_self _)

/-- In a run whose calls succeed, every saved stack pointer is on its own stack in every state
exactly when nothing is forked. -/
theorem saved_pointers_own_iff (s : KernelState) (managed : Managed s.toMemoryState)
    (idle : BitVec 64) (calls : List ProcessCall)
    (succeeds : RunSucceeds (initProcessManager s idle) calls) :
    (∀ done, done <+: calls →
        OwnPointers (processRun (initProcessManager s idle) done) (byHandSlots s idle)) ↔
      .fork ∉ calls := by
  have seated := seated_initProcessManager managed idle
  have occupied := occupied_initProcessManager managed idle
  constructor
  · intro own forks
    obtain ⟨done, rest, whole, noFork⟩ := List.eq_append_cons_of_mem forks
    have isPrefix : done ++ [.fork] <+: calls := by
      rw [whole]
      exact ⟨rest, List.append_assoc ..⟩
    have before := seated_processRun seated occupied succeeds
      ((List.prefix_append done [.fork]).trans isPrefix) noFork
    have after := own _ isPrefix
    rw [processRun_append] at after
    exact not_ownPointers_fork before (occupied_processRun seated.managed occupied done)
      (succeeds done .fork isPrefix) after
  · intro noFork done isPrefix
    exact (seated_processRun seated occupied succeeds isPrefix fun member =>
      noFork (isPrefix.subset member)).ownPointers

/-- On a machine whose memory is zero, a run that creates one process keeps the pointers apart. -/
theorem saved_pointers_own_create : Managed blankKernel.toMemoryState ∧
    ∀ done, done <+: [.create 0x1B00#64] →
      OwnPointers (processRun (initProcessManager blankKernel 0x1A00#64) done)
        (byHandSlots blankKernel 0x1A00#64) := by
  obtain ⟨managed, many⟩ := managed_blankKernel
  generalize blankKernel = s at managed many ⊢
  obtain ⟨-, next, created, -⟩ := createProcess_started managed (by omega) 0x1A00#64 0x1B00#64
  have succeeds : (createProcess (initProcessManager s 0x1A00#64) 0x1B00#64).2 ≠ none := by
    rw [created]
    exact Option.some_ne_none 1
  refine ⟨managed,
    (saved_pointers_own_iff s managed 0x1A00#64 [.create 0x1B00#64] ?_).mpr (by decide)⟩
  intro done call isPrefix
  obtain ⟨rfl, rfl⟩ := eq_of_prefix_singleton isPrefix
  rw [processRun_nil]
  exact succeeds

theorem setWidth_ne_minusOne (pid : BitVec 32) : pid.setWidth 64 ≠ -1#64 := by
  intro same
  have numbers := congrArg BitVec.toNat same
  have small := pid.isLt
  rw [BitVec.toNat_setWidth, show (-1#64 : BitVec 64).toNat = 2 ^ 64 - 1 from rfl] at numbers
  omega

/-- There the idle process forks a child whose stack pointer is at the end of another stack. -/
theorem saved_pointers_shared_fork :
    RunSucceeds (initProcessManager blankKernel 0x1A00#64) [.fork] ∧
      ¬ ∀ done, done <+: [.fork] →
        OwnPointers (processRun (initProcessManager blankKernel 0x1A00#64) done)
          (byHandSlots blankKernel 0x1A00#64) := by
  obtain ⟨managed, many⟩ := managed_blankKernel
  generalize blankKernel = s at managed many ⊢
  have seated := seated_initProcessManager managed 0x1A00#64
  have occupied := occupied_initProcessManager managed 0x1A00#64
  obtain ⟨running, current, -⟩ := occupied
  rw [roster_current] at current
  obtain ⟨-, next, created, -⟩ := createProcess_started managed (by omega) 0x1A00#64
    ((initProcessManager s 0x1A00#64).processes running).context.rip
  have succeeds : Succeeds (initProcessManager s 0x1A00#64) .fork := by
    have result := sysForkHandler_eq current created
    intro failed
    rw [result] at failed
    exact setWidth_ne_minusOne _ failed
  refine ⟨fun done call isPrefix => ?_, fun own => ?_⟩
  · obtain ⟨rfl, rfl⟩ := eq_of_prefix_singleton isPrefix
    rw [processRun_nil]
    exact succeeds
  · have after := own [.fork] (List.prefix_refl _)
    rw [processRun_cons, processRun_nil] at after
    exact not_ownPointers_fork seated (occupied_initProcessManager managed 0x1A00#64) succeeds after

end M12
