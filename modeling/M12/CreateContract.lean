/-
This file proves what a successful `create_process` has done.

What happens to the record and to the two pages is read off the outcomes of
`create_process`. That no other process has the new pid is not: it rests on the
numbering of all slots, which every run keeps, including the slots of creations
that failed.
-/

import M12.ProcessCount
import M12.ProcessIds

namespace M12

open ByteMemory

/-- The state after a process has been created in `slot`. -/
structure CreatesProcess (s next : KernelState) (slot : Slot) (entryPoint : BitVec 64) : Prop where
  unused : (s.processes slot).state = .unused
  lowest : ∀ earlier < slot, (s.processes earlier).state ≠ .unused
  ready : (next.processes slot).state = .ready
  pid : (next.processes slot).pid ≠ 0#32
  distinct : ∀ other ≠ slot, (next.processes other).state ≠ .unused →
    (next.processes other).pid ≠ (next.processes slot).pid
  rip : (next.processes slot).context.rip = entryPoint
  rsp : (next.processes slot).context.rsp = (next.processes slot).kernelStack + 4096#64
  registers : { (next.processes slot).context with
    rip := 0#64, cs := 0#64, rflags := 0#64, rsp := 0#64, ss := 0#64 } = ProcessContext.zero
  pages : ∃ kernelPage userPage, kernelPage ≠ userPage ∧
    kernelPage ∈ (pool s.toMemoryState).free ∧ userPage ∈ (pool s.toMemoryState).free ∧
    UsedPage next.toMemoryState (next.processes slot).kernelStack kernelPage ∧
    UsedPage next.toMemoryState (next.processes slot).userStack userPage ∧
    ∀ page, page ≠ kernelPage → page ≠ userPage →
      (page ∈ (pool next.toMemoryState).free ↔ page ∈ (pool s.toMemoryState).free)
  zeroed : ∀ x, Within (next.processes slot).kernelStack 4096 x ∨
    Within (next.processes slot).userStack 4096 x → next.ram x = 0#8
  processCount : next.processCount = s.processCount + 1#32
  others : ∀ other ≠ slot, next.processes other = s.processes other
  current : next.current = s.current

section Pages

variable {s : MemoryState} (managed : Managed s) {i j : Nat} (first : i ∈ (pool s).free)
  (second : j ∈ (pool s).free.erase i)
include managed first second

/-- The page handed out first is still zero when the second has been handed out. -/
theorem claimed_claimed_zero {x : BitVec 64}
    (inPages : Within (pageAddress s i) 4096 x ∨ Within (pageAddress s j) 4096 x) :
    (claimed (claimed s i) j).ram x = 0#8 := by
  have iInside : i < s.totalPages.toNat := IndexPool.lt_total first
  have jInside : j < s.totalPages.toNat := IndexPool.lt_total (Finset.mem_of_mem_erase second)
  rcases inPages with inFirst | inSecond
  · have place := (within_page_iff managed iInside x).mp inFirst
    have apart : ¬ Within (pageAddress (claimed s i) j) 4096 x := by
      intro here
      have there := (within_page_iff managed jInside x).mp here
      have different := Finset.ne_of_mem_erase second
      omega
    rw [claimed_frame (managed_claimed managed first) jInside (Or.inr (by omega)) apart]
    exact claimed_zero s i inFirst
  · exact claimed_zero (claimed s i) j inSecond

end Pages

/-- What the outcome of a creation says, in a state whose slots are numbered afterwards. -/
theorem createsProcess_of_created {s next : KernelState} (managed : Managed s.toMemoryState)
    {slot : Slot} {entryPoint : BitVec 64} {i j : Nat} (found : freeSlot s = some slot)
    (first : i ∈ (pool s.toMemoryState).free) (second : j ∈ (pool s.toMemoryState).free.erase i)
    (created : Created s next slot entryPoint i j) {count : Nat} (numbered : Numbered next count) :
    CreatesProcess s next slot entryPoint := by
  have record := created.process
  have sound := soundIdentities_numbered numbered
  have free := free_claimed_claimed managed first second
  have used : (next.processes slot).state ≠ .unused := by
    rw [record]
    exact ProcessState.noConfusion
  refine ⟨freeSlot_some found, fun earlier before => used_of_lt_freeSlot found before, ?_,
    sound.nonzero slot used, fun other apart otherUsed same => ?_, ?_, ?_, ?_, ?_, ?_,
    created.processCount, created.others, created.current⟩
  · rw [record]
  · exact apart (sound.distinct other slot otherUsed used same)
  · rw [record]
    rfl
  · rw [record]
    rfl
  · rw [record]
    rfl
  · refine ⟨i, j, (Finset.ne_of_mem_erase second).symm, first, Finset.mem_of_mem_erase second, ?_,
      ?_, fun page notFirst notSecond => ?_⟩
    · rw [created.memory, record]
      refine ⟨IndexPool.lt_total first, ?_, rfl⟩
      rw [free]
      exact fun here => Finset.notMem_erase i _ (Finset.mem_of_mem_erase here)
    · rw [created.memory, record]
      refine ⟨IndexPool.lt_total (Finset.mem_of_mem_erase second), ?_, rfl⟩
      rw [free]
      exact Finset.notMem_erase j _
    · rw [created.memory, free, Finset.mem_erase, Finset.mem_erase]
      exact ⟨fun here => here.2.2, fun here => ⟨notSecond, notFirst, here⟩⟩
  · intro x inPages
    rw [record] at inPages
    rw [created.memory]
    exact claimed_claimed_zero managed first second inPages

/-- In every state the process manager reaches, a creation that returns a slot has met its
contract. -/
theorem createProcess_meets_contract (s : KernelState) (managed : Managed s.toMemoryState)
    (idle : BitVec 64) (calls : List ProcessCall) (entryPoint : BitVec 64) (slot : Slot)
    (succeeds : (createProcess (processRun (initProcessManager s idle) calls) entryPoint).2 =
      some slot) :
    CreatesProcess (processRun (initProcessManager s idle) calls)
      (createProcess (processRun (initProcessManager s idle) calls) entryPoint).1 slot
      entryPoint := by
  have managedRun :=
    managed_processRun (takesTwo_initProcessManager managed idle).managed calls
  obtain ⟨count, later⟩ := numbered_processRun (numbered_initProcessManager s idle).1
    (calls ++ [.create entryPoint])
  rw [processRun_append, processStep] at later
  generalize processRun (initProcessManager s idle) calls = s at *
  rcases createProcess_cases managedRun entryPoint with ⟨-, result⟩ |
    ⟨taken, next, i, j, found, least, leastJ, result, created⟩ | ⟨taken, next, -, -, result, -⟩
  · rw [result] at succeeds
    exact absurd succeeds.symm (Option.some_ne_none slot)
  · rw [result] at succeeds later ⊢
    obtain rfl : taken = slot := Option.some.inj succeeds
    exact createsProcess_of_created managedRun found least.1 leastJ.1 created later
  · rw [result] at succeeds
    exact absurd succeeds.symm (Option.some_ne_none slot)

/-- The first process after the idle one, on a machine whose memory is zero, is created in
slot 1. -/
theorem createProcess_meets_contract_first : Managed blankKernel.toMemoryState ∧
    (createProcess (processRun (initProcessManager blankKernel 0x1A00#64) []) 0x1B00#64).2 =
      some 1 ∧
    CreatesProcess (processRun (initProcessManager blankKernel 0x1A00#64) [])
      (createProcess (processRun (initProcessManager blankKernel 0x1A00#64) []) 0x1B00#64).1 1
      0x1B00#64 := by
  obtain ⟨managed, many⟩ := managed_blankKernel
  refine ⟨managed, ?_⟩
  generalize blankKernel = s at managed many ⊢
  obtain ⟨-, next, result, -⟩ := createProcess_started managed (by omega) 0x1A00#64 0x1B00#64
  have succeeds := congrArg Prod.snd result
  rw [← processRun_nil (initProcessManager s 0x1A00#64)] at succeeds
  exact ⟨succeeds, createProcess_meets_contract s managed 0x1A00#64 [] 0x1B00#64 1 succeeds⟩

end M12
