/-
This file settles when `create_process` fails cleanly.

A call that finds no slot touches nothing. A call that has claimed a slot and then
finds too few pages gives the first page back but not the slot: it stays ready, and
the scheduler takes it for a process. So a call fails cleanly exactly when it does
not claim a slot it has no pages for.
-/

import M12.ProcessStacks
import M12.ProcessIds

namespace M12

/-- The call may claim a slot. -/
def ProcessCall.creates : ProcessCall → Bool
  | .create _ => true
  | .fork => true
  | _ => false

/-- Nothing is left of a failed creation, and until the next creation no slot that was unused
becomes the current one. -/
structure Untouched (s after : KernelState) : Prop where
  state : ∀ slot, (after.processes slot).state = (s.processes slot).state
  current : after.current = s.current
  processCount : after.processCount = s.processCount
  free : (pool after.toMemoryState).free = (pool s.toMemoryState).free
  usedPages : after.usedPages = s.usedPages
  unselected : ∀ slot, (s.processes slot).state = .unused → ∀ later : List ProcessCall,
    (∀ call ∈ later, call.creates = false) → (processRun after later).current ≠ some slot

/-- If `create_process` fails, nothing has happened. -/
def FailsCleanly (s : KernelState) (entryPoint : BitVec 64) : Prop :=
  (createProcess s entryPoint).2 = none → Untouched s (createProcess s entryPoint).1

theorem untouched_of_full {s : KernelState} (full : freeSlot s = none) : Untouched s s :=
  ⟨fun _ => rfl, rfl, rfl, rfl, rfl, fun slot unused => absurd unused (freeSlot_none full slot)⟩

/-- A slot that could not get its pages is not unused any more. -/
theorem Stranded.not_untouched {s next : KernelState} {slot : Slot}
    (stranded : Stranded s next slot) (found : freeSlot s = some slot) : ¬ Untouched s next := by
  intro untouched
  have state := untouched.state slot
  rw [stranded.state, freeSlot_some found] at state
  exact ProcessState.noConfusion state

theorem failsCleanly_iff {s : KernelState} (managed : Managed s.toMemoryState)
    (entryPoint : BitVec 64) : FailsCleanly s entryPoint ↔ EnoughPages s := by
  rw [FailsCleanly, EnoughPages]
  rcases createProcess_cases managed entryPoint with ⟨full, result⟩ |
    ⟨slot, next, i, j, -, least, leastJ, result, -⟩ | ⟨slot, next, found, few, result, stranded⟩
  · refine iff_of_true (fun _ => ?_) ?_
    · rw [result]
      exact untouched_of_full full
    · rintro ⟨slot, unused⟩
      exact absurd unused (freeSlot_none full slot)
  · refine iff_of_true (fun failed => ?_) fun _ => twoFree_of_least least.1 leastJ.1
    rw [result] at failed
    exact absurd failed (Option.some_ne_none slot)
  · refine iff_of_false (fun clean => ?_) fun enough => ?_
    · rw [result] at clean
      exact stranded.not_untouched found (clean rfl)
    · exact absurd (enough ⟨slot, freeSlot_some found⟩) (Nat.not_le.mpr few)

/-- In every state the process manager reaches, `create_process` fails cleanly exactly when no slot
is unused or two pages are free. -/
theorem createProcess_fails_cleanly_iff (s : KernelState) (managed : Managed s.toMemoryState)
    (idle : BitVec 64) (calls : List ProcessCall) (entryPoint : BitVec 64) :
    FailsCleanly (processRun (initProcessManager s idle) calls) entryPoint ↔
      EnoughPages (processRun (initProcessManager s idle) calls) :=
  failsCleanly_iff
    (managed_processRun (takesTwo_initProcessManager managed idle).managed calls) entryPoint

/-- Creations fill the slots one after another, also those that get no pages. -/
theorem Numbered.creations {s : KernelState} {count : Nat} (numbered : Numbered s count)
    (entryPoint : BitVec 64) {times : Nat} (room : count + times ≤ 64) :
    Numbered (processRun s (List.replicate times (.create entryPoint))) (count + times) := by
  induction times generalizing s count with
  | zero => exact numbered
  | succ times inductionHypothesis =>
    rw [List.replicate_succ, processRun_cons, processStep]
    rcases createProcess_enrolls s entryPoint with ⟨full, -⟩ | ⟨slot, enrolls, -⟩
    · have used := (numbered.used ⟨count, by omega⟩).mp
        ((identity_used _).mpr (freeSlot_none full ⟨count, by omega⟩))
      exact absurd used (Nat.lt_irrefl count)
    · have rest := inductionHypothesis (numbered.of_enrolls enrolls) (by omega)
      rwa [show count + 1 + times = count + (times + 1) by omega] at rest

/-- With all slots in use none is found. -/
theorem freeSlot_full {s : KernelState} (numbered : Numbered s 64) : freeSlot s = none := by
  cases found : freeSlot s with
  | none => rfl
  | some slot => exact absurd (numbered.freeSlot found) (Nat.ne_of_lt slot.isLt)

/-- After 63 creations no slot is unused: one more fails and leaves nothing. -/
theorem createProcess_fails_cleanly_full : Managed blankKernel.toMemoryState ∧
    (createProcess (processRun (initProcessManager blankKernel 0x1A00#64)
      (List.replicate 63 (.create 0x1B00#64))) 0x1B00#64).2 = none ∧
    FailsCleanly (processRun (initProcessManager blankKernel 0x1A00#64)
      (List.replicate 63 (.create 0x1B00#64))) 0x1B00#64 := by
  obtain ⟨managed, -⟩ := managed_blankKernel
  refine ⟨managed, ?_⟩
  generalize blankKernel = s at managed ⊢
  have full := freeSlot_full ((numbered_initProcessManager s 0x1A00#64).1.creations 0x1B00#64
    (show 1 + 63 ≤ 64 by decide))
  have clean := (createProcess_fails_cleanly_iff s managed 0x1A00#64
    (List.replicate 63 (.create 0x1B00#64)) 0x1B00#64).mpr
  generalize processRun (initProcessManager s 0x1A00#64)
    (List.replicate 63 (.create 0x1B00#64)) = t at full clean ⊢
  refine ⟨?_, clean ?_⟩
  · rw [createProcess, full]
  · rintro ⟨slot, unused⟩
    exact absurd unused (freeSlot_none full slot)

/-- On a machine with five pages the idle process takes the last two, and the next creation
leaves its slot behind. -/
theorem createProcess_fails_unclean : Managed scarceKernel.toMemoryState ∧
    (createProcess (processRun (initProcessManager scarceKernel 0x1A00#64) []) 0x1B00#64).2 = none ∧
    ¬ FailsCleanly (processRun (initProcessManager scarceKernel 0x1A00#64) []) 0x1B00#64 := by
  obtain ⟨managed, two⟩ := managed_scarceKernel
  refine ⟨managed, ?_⟩
  generalize scarceKernel = s at managed two ⊢
  have few := free_initProcessManager managed two 0x1A00#64
  have managedInit := (takesTwo_initProcessManager managed 0x1A00#64).managed
  have unused := unused_initProcessManager managed 0x1A00#64 (show (1 : Slot) ≠ 0 by decide)
  rw [processRun_nil]
  have unclean : ¬ FailsCleanly (initProcessManager s 0x1A00#64) 0x1B00#64 := fun clean =>
    few ((failsCleanly_iff managedInit 0x1B00#64).mp clean ⟨1, unused⟩)
  refine ⟨?_, unclean⟩
  by_contra succeeded
  exact unclean fun failed => absurd failed succeeded

end M12
