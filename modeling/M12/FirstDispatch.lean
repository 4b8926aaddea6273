/-
This file follows a process from its creation to the first switch to it.

Until it becomes current nothing touches its record, so its context is still the
one `create_process` filled in, with the entry point in `rip` and the end of the
kernel stack in `rsp`. `switch_process` looks at neither: it takes the stack
pointer from the first word of the context, which is `r15` and is zero. The
machine then pops from address 0 and leaves with the stack pointer at 56.
-/

import M12.ContextSwitch
import M12.ProcessCount

namespace M12

open ByteMemory WordStack X64

/-! ### A process that waits -/

theorem processRun_waiting {s : KernelState} (managed : Managed s.toMemoryState) {slot : Slot}
    (used : (s.processes slot).state ≠ .unused) {calls : List ProcessCall}
    (waiting : ∀ done, done <+: calls → (processRun s done).current ≠ some slot) :
    (processRun s calls).processes slot = s.processes slot := by
  induction calls generalizing s with
  | nil => rfl
  | cons call rest inductionHypothesis =>
    have same := processStep_other managed used (waiting [] List.nil_prefix) call
    have later := inductionHypothesis (takesTwo_processStep managed call).managed
      (by rw [same]; exact used) fun done isPrefix =>
        waiting (call :: done) (List.cons_prefix_cons.mpr ⟨rfl, isPrefix⟩)
    rw [processRun_cons, later, same]

/-! ### The process table in memory -/

/-- The words of a `process_context_t` in the order of its fields. -/
def contextWords (context : ProcessContext) : List (BitVec 64) :=
  [context.r15, context.r14, context.r13, context.r12, context.r11, context.r10, context.r9,
    context.r8, context.rdi, context.rsi, context.rbp, context.rbx, context.rdx, context.rcx,
    context.rax, context.rip, context.cs, context.rflags, context.rsp, context.ss]

/-- `&processes[slot].context`: a `process_t` takes 216 bytes, and its context follows the two
32-bit fields `pid` and `state`. -/
def contextAddress (table : BitVec 64) (slot : Slot) : BitVec 64 :=
  table + BitVec.ofNat 64 (216 * slot.val) + 8#64

/-- The context is at this address in memory. -/
def ContextAt (memory : Memory) (address : BitVec 64) (context : ProcessContext) : Prop :=
  ∀ k (inside : k < 20), load 64 memory (address + BitVec.ofNat 64 (8 * k)) =
    (contextWords context).get ⟨k, inside⟩

theorem toNat_contextAddress {table : BitVec 64} (fits : table.toNat + 64 * 216 ≤ 2 ^ 64)
    (slot : Slot) : (contextAddress table slot).toNat = table.toNat + 216 * slot.val + 8 := by
  have inside := slot.isLt
  rw [contextAddress, BitVec.toNat_add, BitVec.toNat_add, BitVec.toNat_ofNat, BitVec.toNat_ofNat]
  omega

/-- The context cells of two processes do not overlap. -/
theorem contextCell_apart {table : BitVec 64} (fits : table.toNat + 64 * 216 ≤ 2 ^ 64)
    {first second : Slot} (different : first ≠ second) :
    Disjoint (contextCell (contextAddress table first))
      (contextCell (contextAddress table second)) := by
  have apart : first.val ≠ second.val := fun same => different (Fin.ext same)
  have firstAt := toNat_contextAddress fits first
  have secondAt := toNat_contextAddress fits second
  have firstInside := first.isLt
  have secondInside := second.isLt
  refine Set.disjoint_left.mpr fun x inFirst inSecond => ?_
  rw [contextCell, Set.mem_ofPred_eq, within_iff (by omega)] at inFirst inSecond
  omega

/-! ### The first switch -/

/-- The machine is at the entry point of a process, on its kernel stack. -/
def StartsProcess (m : Machine) (entryPoint kernelStack : BitVec 64) : Prop :=
  m.rip = entryPoint ∧ kernelStack.toNat < (m.regs .rsp).toNat ∧
    (m.regs .rsp).toNat ≤ kernelStack.toNat + 4096

/-- `switch_process` takes the word of `r15` for the stack pointer. -/
theorem newPointer_eq_r15 {table : BitVec 64} (fits : table.toNat + 64 * 216 ≤ 2 ^ 64)
    {old slot : Slot} (different : old ≠ slot) {c : SwitchCall}
    (oldContext : c.machine.regs .rdi = contextAddress table old)
    (newContext : c.machine.regs .rsi = contextAddress table slot) {context : ProcessContext}
    (stored : ContextAt c.machine.memory (contextAddress table slot) context)
    (apart : Disjoint c.area (contextCell (contextAddress table slot))) :
    c.newPointer = context.r15 := by
  have word := stored 0 (by decide)
  rw [Nat.mul_zero, BitVec.add_zero] at word
  rw [SwitchCall.newPointer, newContext]
  refine (load_congr fun offset byte => ?_).trans word
  have member : contextAddress table slot + BitVec.ofNat 64 offset ∈
      contextCell (contextAddress table slot) := within_add _ (by omega) (by omega)
  refine c.suspended_frame (fun pushed => Set.disjoint_left.mp apart pushed member) ?_
  rw [oldContext]
  exact fun overlap => Set.disjoint_left.mp (contextCell_apart fits different) overlap member

/-- A stack pointer of 56 is on no kernel stack. -/
theorem not_startsProcess {c : SwitchCall} (zero : c.newPointer = 0#64)
    (entryPoint : BitVec 64) {kernelStack : BitVec 64} (high : 0x100000 ≤ kernelStack.toNat) :
    ¬ StartsProcess c.after entryPoint kernelStack := by
  rintro ⟨-, above, -⟩
  rw [c.switched_after.rsp, zero, BitVec.toNat_add, BitVec.toNat_ofNat, BitVec.toNat_ofNat] at above
  omega

/-- What `create_process` puts in a record it returns. -/
theorem createProcess_record {s next : KernelState} (managed : Managed s.toMemoryState)
    {entryPoint : BitVec 64} {slot : Slot}
    (created : createProcess s entryPoint = (next, some slot)) :
    (next.processes slot).state = .ready ∧
      (next.processes slot).context =
        freshContext entryPoint (next.processes slot).kernelStack ∧
      0x100000 ≤ (next.processes slot).kernelStack.toNat := by
  rcases createProcess_cases managed entryPoint with ⟨-, result⟩ |
    ⟨taken, after, i, j, -, least, -, result, made⟩ | ⟨taken, after, -, -, result, -⟩
  · exact absurd (congrArg Prod.snd (created.symm.trans result)) (Option.some_ne_none slot)
  · obtain ⟨rfl, same⟩ := Prod.mk.inj (created.symm.trans result)
    obtain rfl := Option.some.inj same
    rw [made.process]
    refine ⟨rfl, rfl, ?_⟩
    rw [toNat_pageAddress managed (IndexPool.lt_total least.1)]
    exact Nat.le_add_right _ _
  · exact absurd (congrArg Prod.snd (created.symm.trans result)) (Option.some_ne_none slot)

/-- Whatever the caller's registers and memory are, the first switch to a process that
`create_process` has returned does not start it, neither right away nor after calls during which
the process waits. -/
theorem first_dispatch_never_starts (s : KernelState) (managed : Managed s.toMemoryState)
    (entryPoint : BitVec 64) (next : KernelState) (slot : Slot)
    (created : createProcess s entryPoint = (next, some slot)) (later : List ProcessCall)
    (waiting : ∀ done, done <+: later → (processRun next done).current ≠ some slot)
    (table : BitVec 64) (fits : table.toNat + 64 * 216 ≤ 2 ^ 64) (old : Slot)
    (different : old ≠ slot) (c : SwitchCall)
    (oldContext : c.machine.regs .rdi = contextAddress table old)
    (newContext : c.machine.regs .rsi = contextAddress table slot)
    (stored : ContextAt c.machine.memory (contextAddress table slot)
      ((processRun next later).processes slot).context)
    (apart : Disjoint c.area (contextCell (contextAddress table slot))) :
    ¬ StartsProcess c.after entryPoint ((processRun next later).processes slot).kernelStack := by
  obtain ⟨ready, context, high⟩ := createProcess_record managed created
  have used : (next.processes slot).state ≠ .unused := by
    rw [ready]
    exact ProcessState.noConfusion
  have managedNext : Managed next.toMemoryState := by
    have taken := (takesTwo_createProcess managed entryPoint).managed
    rwa [created] at taken
  rw [processRun_waiting managedNext used waiting] at stored ⊢
  rw [context] at stored
  exact not_startsProcess
    (newPointer_eq_r15 fits different oldContext newContext stored apart) entryPoint high

/-! ### A first switch on a blank machine -/

/-- The first process switches to the second one, whose context lies in the table. -/
def dispatchCall (context : ProcessContext) : SwitchCall where
  machine :=
    { regs := fun r => match r with
        | .rdi => contextAddress 0x20000#64 0
        | .rsi => contextAddress 0x20000#64 1
        | .rsp => 0x9000#64
        | _ => 0#64
      rip := 0x10400#64
      memory := pushWords (fun _ => 0#8) (contextAddress 0x20000#64 1 + 160#64)
        (contextWords context).reverse }
  routine := 0x10800#64
  returnAddress := 0x10405#64

theorem contextAt_dispatchCall (context : ProcessContext) :
    ContextAt (dispatchCall context).machine.memory (contextAddress 0x20000#64 1) context := by
  intro k inside
  have length : (contextWords context).reverse.length = 20 := rfl
  have word := load_pushWords (fun _ => 0#8) (contextAddress 0x20000#64 1 + 160#64)
    (show 8 * (contextWords context).reverse.length < 2 ^ 64 by rw [length]; decide)
    (show 19 - k < (contextWords context).reverse.length by rw [length]; omega)
  have place : below (contextAddress 0x20000#64 1 + 160#64) (19 - k + 1) =
      contextAddress 0x20000#64 1 + BitVec.ofNat 64 (8 * k) := by
    have up := below_add (contextAddress 0x20000#64 1 + 160#64) (show k ≤ 20 by omega)
    rw [show 19 - k + 1 = 20 - k by omega, ← up]
    rfl
  rw [place, List.getElem_reverse] at word
  refine word.trans ?_
  rw [List.get_eq_getElem]
  congr 1
  show 20 - 1 - (19 - k) = k
  omega

theorem area_dispatchCall (context : ProcessContext) :
    Disjoint (dispatchCall context).area (contextCell (contextAddress 0x20000#64 1)) := by
  have low : (dispatchCall context).pointer = 0x8FC8#64 :=
    show below 0x9000#64 7 = 0x8FC8#64 by decide
  have high : contextAddress 0x20000#64 1 = 0x200E0#64 := by decide
  refine Set.disjoint_left.mpr fun x pushed member => ?_
  rw [SwitchCall.area, Set.mem_ofPred_eq, low, within_iff (by decide), BitVec.toNat_ofNat] at pushed
  rw [contextCell, Set.mem_ofPred_eq, high, within_iff (by decide), BitVec.toNat_ofNat] at member
  omega

theorem createProcess_blankKernel :
    Managed (initProcessManager blankKernel 0x1A00#64).toMemoryState ∧
      ∃ next, createProcess (initProcessManager blankKernel 0x1A00#64) 0x1B00#64 = (next, some 1) ∧
        next.current = some 0 := by
  obtain ⟨managed, many⟩ := managed_blankKernel
  exact createProcess_started managed (by omega) 0x1A00#64 0x1B00#64

/-- On a machine whose memory is zero, the first switch to the second process does not start
it. -/
theorem first_dispatch_never_starts_blank :
    ∃ next, createProcess (initProcessManager blankKernel 0x1A00#64) 0x1B00#64 = (next, some 1) ∧
      ¬ StartsProcess (dispatchCall (next.processes 1).context).after 0x1B00#64
        (next.processes 1).kernelStack := by
  obtain ⟨managed, next, created, current⟩ := createProcess_blankKernel
  generalize initProcessManager blankKernel 0x1A00#64 = s at managed created ⊢
  refine ⟨next, created, ?_⟩
  refine first_dispatch_never_starts s managed 0x1B00#64 next 1 created [] ?_ 0x20000#64 (by decide)
    0 (by decide) (dispatchCall (next.processes 1).context) rfl rfl
    (contextAt_dispatchCall _) (area_dispatchCall _)
  intro done isPrefix
  rw [List.prefix_nil.mp isPrefix, processRun_nil, current]
  decide

/-- There the switch leaves the machine with the stack pointer at 56. -/
theorem first_dispatch_misses_stack :
    ∃ next, createProcess (initProcessManager blankKernel 0x1A00#64) 0x1B00#64 = (next, some 1) ∧
      (dispatchCall (next.processes 1).context).after.regs .rsp = 56#64 ∧
      ¬ StartsProcess (dispatchCall (next.processes 1).context).after 0x1B00#64
        (next.processes 1).kernelStack := by
  obtain ⟨managed, next, created, -⟩ := createProcess_blankKernel
  refine ⟨next, created, ?_⟩
  obtain ⟨-, context, high⟩ := createProcess_record managed created
  have pointer : (dispatchCall (next.processes 1).context).newPointer =
      (next.processes 1).context.r15 :=
    newPointer_eq_r15 (show (0x20000#64).toNat + 64 * 216 ≤ 2 ^ 64 by decide)
      (show (0 : Slot) ≠ 1 by decide) rfl rfl (contextAt_dispatchCall _) (area_dispatchCall _)
  have zero : (next.processes 1).context.r15 = 0#64 := by
    rw [context]
    rfl
  rw [zero] at pointer
  refine ⟨?_, not_startsProcess pointer 0x1B00#64 high⟩
  rw [(dispatchCall (next.processes 1).context).switched_after.rsp, pointer]
  rfl

end M12
