/-
This file models `switch_process` of `kernel/context_switch_.asm` and proves that
it is a coroutine switch.

The routine pushes the callee-saved registers on the caller's stack above which
the return address already lies, stores the stack pointer in the first word of
the old context, takes the new one from the first word of the new context, and
pops and returns from there. A call of it therefore puts the caller into a shape
that a later call by anybody else undoes, as long as the seven words and the
context cell stay as they are.
-/

import M12.Library.X64

namespace M12

open ByteMemory WordStack X64

/-! ### The routine -/

/-- The body of `switch_process` up to its `ret`. -/
def switchBody : List Instr :=
  [.push .rbp, .push .rbx, .push .r12, .push .r13, .push .r14, .push .r15,
    .movStore .rdi .rsp,
    .movLoad .rsp .rsi,
    .pop .r15, .pop .r14, .pop .r13, .pop .r12, .pop .rbx, .pop .rbp]

/-- `switch_process`, from its first instruction through its `ret`. -/
def switchProcess (m : Machine) : Machine := ret (run m switchBody)

/-- An instruction `call switch_process`: the machine before it, the address of the routine and
the address of the next instruction. -/
structure SwitchCall where
  machine : Machine
  routine : BitVec 64
  returnAddress : BitVec 64

namespace SwitchCall

/-- The machine when the routine has returned, on whatever stack. -/
def after (c : SwitchCall) : Machine :=
  switchProcess (X64.call c.machine c.routine c.returnAddress)

/-- The registers `switch_process` saves, in the order it pushes them. -/
def savedRegs : List Reg := [.rbp, .rbx, .r12, .r13, .r14, .r15]

/-- The words the call leaves on the caller's stack, highest first. -/
def savedWords (c : SwitchCall) : List (BitVec 64) :=
  c.returnAddress :: savedRegs.map c.machine.regs

/-- The stack pointer the call leaves in the old context. -/
def pointer (c : SwitchCall) : BitVec 64 := below (c.machine.regs .rsp) 7

/-- Memory once the caller is suspended. -/
def suspended (c : SwitchCall) : Memory :=
  store (pushWords c.machine.memory (c.machine.regs .rsp) c.savedWords) (c.machine.regs .rdi)
    c.pointer

/-- The stack pointer found in the new context. -/
def newPointer (c : SwitchCall) : BitVec 64 := load 64 c.suspended (c.machine.regs .rsi)

/-- What the routine does, in terms of memory at the moment the stacks change. -/
structure Switched (c : SwitchCall) (m : Machine) : Prop where
  memory : m.memory = c.suspended
  rip : m.rip = load 64 c.suspended (c.newPointer + 48#64)
  rsp : m.regs .rsp = c.newPointer + 56#64
  popped : ∀ (k : Nat) (inside : k < savedRegs.reverse.length),
    m.regs savedRegs.reverse[k] = load 64 c.suspended (c.newPointer + BitVec.ofNat 64 (8 * k))

/-- The machine once it is on the new stack. -/
def onNewStack (c : SwitchCall) : Machine :=
  run (run (X64.call c.machine c.routine c.returnAddress) (savedRegs.map .push))
    [.movStore .rdi .rsp, .movLoad .rsp .rsi]

theorem onNewStack_spec (c : SwitchCall) :
    c.onNewStack.memory = c.suspended ∧ c.onNewStack.regs .rsp = c.newPointer := by
  have pointer : below (below (c.machine.regs .rsp) 1) savedRegs.length = c.pointer :=
    below_below ..
  have saved : savedRegs.map (X64.call c.machine c.routine c.returnAddress).regs =
      savedRegs.map c.machine.regs := rfl
  have memory : c.onNewStack.memory = c.suspended := by
    rw [onNewStack, run_push _ (by decide), saved, suspended, ← pointer]
    rfl
  refine ⟨memory, ?_⟩
  rw [newPointer, ← memory, onNewStack, run_push _ (by decide)]
  rfl

theorem after_eq (c : SwitchCall) :
    c.after = ret (run c.onNewStack (savedRegs.reverse.map .pop)) := by
  have body : switchBody = savedRegs.map .push ++ ([.movStore .rdi .rsp, .movLoad .rsp .rsi] ++
      savedRegs.reverse.map .pop) := rfl
  rw [after, switchProcess, body, run_append, run_append, onNewStack]

theorem switched_after (c : SwitchCall) : c.Switched c.after := by
  obtain ⟨atMemory, atPointer⟩ := c.onNewStack_spec
  have noRsp : Reg.rsp ∉ savedRegs.reverse := by decide
  obtain ⟨memory, pointer, words, -⟩ := run_pop c.onNewStack noRsp (by decide)
  rw [atMemory] at memory
  rw [atPointer] at pointer
  rw [atMemory, atPointer] at words
  rw [after_eq]
  generalize run c.onNewStack (savedRegs.reverse.map .pop) = m at memory pointer words
  refine ⟨memory, ?_, ?_, fun k inside => ?_⟩
  · show load 64 m.memory (m.regs .rsp) = _
    rw [memory, pointer]
    rfl
  · show m.regs .rsp + 8#64 = _
    rw [pointer, BitVec.add_assoc]
    rfl
  · have notRsp : savedRegs.reverse[k] ≠ .rsp := fun same =>
      noRsp (same ▸ List.getElem_mem inside)
    rw [ret_regs m notRsp]
    exact words k inside

/-- The seven words the call leaves on the caller's stack. -/
def area (c : SwitchCall) : Set (BitVec 64) := {x | Within c.pointer 56 x}

end SwitchCall

/-- The first word of a context, which holds the stack pointer of a suspended thread. -/
def contextCell (context : BitVec 64) : Set (BitVec 64) := {x | Within context 8 x}

namespace SwitchCall

theorem length_savedWords (c : SwitchCall) : c.savedWords.length = 7 := rfl

/-- Suspending the caller changes its saved words and its context cell only. -/
theorem suspended_frame (c : SwitchCall) {x : BitVec 64} (offStack : x ∉ c.area)
    (offContext : x ∉ contextCell (c.machine.regs .rdi)) : c.suspended x = c.machine.memory x := by
  rw [suspended, store_of_not_within _ _ fun close => offContext (show _ < 8 by omega)]
  refine pushWords_of_not_within _ (by rw [length_savedWords]; decide) ?_
  rw [length_savedWords]
  exact offStack

theorem load_context (c : SwitchCall) : load 64 c.suspended (c.machine.regs .rdi) = c.pointer :=
  load_store_self _ _ _ (by decide)

theorem add_mem_area (c : SwitchCall) {k offset : Nat} (word : k < 7) (byte : 8 * offset < 64) :
    c.pointer + BitVec.ofNat 64 (8 * k) + BitVec.ofNat 64 offset ∈ c.area := by
  rw [BitVec.add_assoc, ← BitVec.ofNat_add]
  exact within_add _ (by omega) (by omega)

/-- The words on the stack of a suspended thread, lowest first. -/
theorem load_saved (c : SwitchCall)
    (apart : Disjoint (contextCell (c.machine.regs .rdi)) c.area) {k : Nat} (inside : k < 7) :
    load 64 c.suspended (c.pointer + BitVec.ofNat 64 (8 * k)) =
      c.savedWords.get ⟨6 - k, by rw [length_savedWords]; omega⟩ := by
  have intact : load 64 c.suspended (c.pointer + BitVec.ofNat 64 (8 * k)) =
      load 64 (pushWords c.machine.memory (c.machine.regs .rsp) c.savedWords)
        (c.pointer + BitVec.ofNat 64 (8 * k)) := by
    refine load_store_of_disjoint _ _ fun offset byte close => ?_
    exact Set.disjoint_left.mp apart (show _ < 8 by omega) (c.add_mem_area inside byte)
  rw [intact, pointer, below_add _ (by omega), show 7 - k = 6 - k + 1 by omega]
  exact load_pushWords _ _ (by rw [length_savedWords]; decide) (by rw [length_savedWords]; omega)

/-- The machine goes on behind the call `c` with the registers a C function may rely on. -/
structure ResumedAs (m : Machine) (c : SwitchCall) : Prop where
  rip : m.rip = c.returnAddress
  regs : ∀ r ∈ Reg.rsp :: savedRegs, m.regs r = c.machine.regs r

/-- A call that finds another call's words intact resumes it. -/
theorem resumedAs_after (c resumed : SwitchCall)
    (context : c.machine.regs .rsi = resumed.machine.regs .rdi)
    (apart : Disjoint (contextCell (resumed.machine.regs .rdi)) resumed.area)
    (intact : ∀ x ∈ contextCell (resumed.machine.regs .rdi) ∪ resumed.area,
      c.suspended x = resumed.suspended x) : ResumedAs c.after resumed := by
  have switched := c.switched_after
  have found : c.newPointer = resumed.pointer := by
    rw [newPointer, context, ← resumed.load_context]
    refine load_congr fun offset byte => intact _ (Or.inl ?_)
    exact within_add _ (by omega) (by omega)
  have word : ∀ k (inside : k < 7), load 64 c.suspended (c.newPointer + BitVec.ofNat 64 (8 * k)) =
      resumed.savedWords.get ⟨6 - k, by rw [length_savedWords]; omega⟩ := by
    intro k inside
    rw [← resumed.load_saved apart inside, found]
    exact load_congr fun offset byte => intact _ (Or.inr (resumed.add_mem_area inside byte))
  have popped := fun k (inside : k < savedRegs.reverse.length) =>
    (switched.popped k inside).trans (word k (Nat.lt_succ_of_lt inside))
  refine ⟨switched.rip.trans (word 6 (by decide)), ?_⟩
  have top : c.after.regs .rsp = resumed.machine.regs .rsp := by
    rw [switched.rsp, found]
    exact BitVec.sub_add_cancel ..
  simp only [savedRegs, List.forall_mem_cons]
  exact ⟨top, popped 5 (by decide), popped 4 (by decide), popped 3 (by decide),
    popped 2 (by decide), popped 1 (by decide), popped 0 (by decide), List.forall_mem_nil _⟩

end SwitchCall

/-! ### Threads -/

/-- Where the threads keep their contexts and their stacks. -/
structure ThreadLayout (T : Type) where
  context : T → BitVec 64
  stack : T → Set (BitVec 64)
  stacksApart : ∀ t u, t ≠ u → Disjoint (stack t) (stack u)
  contextsApart : ∀ t u, t ≠ u → Disjoint (contextCell (context t)) (contextCell (context u))
  offStack : ∀ t u, Disjoint (contextCell (context t)) (stack u)

/-- The threads of a system: the machine, the thread it runs, and the last call of
`switch_process` each of the others made. -/
structure Threads (T : Type) where
  machine : Machine
  running : T
  lastCall : T → SwitchCall

variable {T : Type} (layout : ThreadLayout T)

/-- The thread was suspended by the call `c`, and what that call saved is still there. -/
structure SuspendedBy (memory : Memory) (t : T) (c : SwitchCall) : Prop where
  context : c.machine.regs .rdi = layout.context t
  area : c.area ⊆ layout.stack t
  intact : ∀ x ∈ contextCell (layout.context t) ∪ c.area, memory x = c.suspended x

/-- The running thread calls `switch_process` to switch to `next`, on its own stack. -/
structure CanSwitch (s : Threads T) (next : T) (c : SwitchCall) : Prop where
  machine : c.machine = s.machine
  old : c.machine.regs .rdi = layout.context s.running
  new : c.machine.regs .rsi = layout.context next
  area : c.area ⊆ layout.stack s.running

variable [DecidableEq T]

/-- The threads after that call. -/
def Threads.switch (s : Threads T) (next : T) (c : SwitchCall) : Threads T where
  machine := c.after
  running := next
  lastCall := Function.update s.lastCall s.running c

/-- The running thread computes, leaving alone what the others have saved, or switches. -/
inductive ThreadStep : Threads T → Threads T → Prop where
  | compute (s : Threads T) (machine : Machine)
      (keeps : ∀ t ≠ s.running, ∀ x ∈ contextCell (layout.context t) ∪ (s.lastCall t).area,
        machine.memory x = s.machine.memory x) :
      ThreadStep s { s with machine := machine }
  | switch (s : Threads T) (next : T) (c : SwitchCall) (can : CanSwitch layout s next c) :
      ThreadStep s (s.switch next c)

/-- Every thread but the running one is suspended. -/
def AllSuspended (s : Threads T) : Prop :=
  ∀ t ≠ s.running, SuspendedBy layout s.machine.memory t (s.lastCall t)

/-- When the stacks change, every thread is suspended by its last call, the caller included. -/
theorem suspendedBy_switch {s : Threads T} (all : AllSuspended layout s) {next : T}
    {c : SwitchCall} (can : CanSwitch layout s next c) (t : T) :
    SuspendedBy layout c.suspended t ((s.switch next c).lastCall t) := by
  by_cases caller : t = s.running
  · have last : (s.switch next c).lastCall s.running = c := Function.update_self ..
    rw [caller, last]
    exact ⟨can.old, can.area, fun _ _ => rfl⟩
  · have last : (s.switch next c).lastCall t = s.lastCall t := Function.update_of_ne caller ..
    rw [last]
    obtain ⟨context, area, intact⟩ := all t caller
    refine ⟨context, area, fun x member => ?_⟩
    rw [← intact x member, ← can.machine]
    -- The call writes to the caller's stack and the caller's context cell only.
    refine c.suspended_frame (fun onStack => ?_) fun inContext => ?_
    · have own := can.area onStack
      rcases member with cell | saved
      · exact Set.disjoint_left.mp (layout.offStack t s.running) cell own
      · exact Set.disjoint_left.mp (layout.stacksApart t s.running caller) (area saved) own
    · rw [can.old] at inContext
      rcases member with cell | saved
      · exact Set.disjoint_left.mp (layout.contextsApart t s.running caller) cell inContext
      · exact Set.disjoint_left.mp (layout.offStack s.running t) inContext (area saved)

theorem allSuspended_step {s next : Threads T} (all : AllSuspended layout s)
    (step : ThreadStep layout s next) : AllSuspended layout next := by
  cases step with
  | compute machine keeps =>
    intro t other
    obtain ⟨context, area, intact⟩ := all t other
    exact ⟨context, area, fun x member => (keeps t other x member).trans (intact x member)⟩
  | switch target c can =>
    intro t _
    have memory : (s.switch target c).machine.memory = c.suspended := c.switched_after.memory
    rw [memory]
    exact suspendedBy_switch layout all can t

theorem allSuspended_run {start now : Threads T} (all : AllSuspended layout start)
    (run : Relation.ReflTransGen (ThreadStep layout) start now) : AllSuspended layout now := by
  induction run with
  | refl => exact all
  | tail _ step inductionHypothesis => exact allSuspended_step layout inductionHypothesis step

/-- In every run of threads that have been suspended by `switch_process`, a thread that is
resumed goes on behind its own last call, with the registers it had then. -/
theorem switchProcess_resumes (start now : Threads T) (all : AllSuspended layout start)
    (run : Relation.ReflTransGen (ThreadStep layout) start now) (next : T) (c : SwitchCall)
    (can : CanSwitch layout now next c) :
    SwitchCall.ResumedAs (now.switch next c).machine ((now.switch next c).lastCall next) := by
  have suspended := suspendedBy_switch layout (allSuspended_run layout all run) can next
  generalize (now.switch next c).lastCall next = resumed at suspended
  have context := suspended.context
  refine c.resumedAs_after resumed ?_ ?_ ?_
  · rw [can.new, context]
  · rw [context]
    exact (layout.offStack next next).mono_right suspended.area
  · rw [context]
    exact suspended.intact

/-- Two threads with their contexts at 4 KB and 8 KB and a stack page each. -/
def twoThreads : ThreadLayout Bool where
  context := fun t => if t then 0x2000#64 else 0x1000#64
  stack := fun t => {x | Within (if t then 0x20000#64 else 0x10000#64) 4096 x}
  stacksApart := by
    intro t u different
    refine Set.disjoint_left.mpr fun x first second => different ?_
    rw [Set.mem_ofPred_eq, within_iff (by cases t <;> decide)] at first
    rw [Set.mem_ofPred_eq, within_iff (by cases u <;> decide)] at second
    cases t <;> cases u <;> simp at first second ⊢ <;> omega
  contextsApart := by
    intro t u different
    refine Set.disjoint_left.mpr fun x first second => different ?_
    rw [contextCell, Set.mem_ofPred_eq, within_iff (by cases t <;> decide)] at first
    rw [contextCell, Set.mem_ofPred_eq, within_iff (by cases u <;> decide)] at second
    cases t <;> cases u <;> simp at first second ⊢ <;> omega
  offStack := by
    intro t u
    refine Set.disjoint_left.mpr fun x first second => ?_
    rw [contextCell, Set.mem_ofPred_eq, within_iff (by cases t <;> decide)] at first
    rw [Set.mem_ofPred_eq, within_iff (by cases u <;> decide)] at second
    cases t <;> cases u <;> simp at first second <;> omega

/-- Thread `true` calls `switch_process` on a machine whose memory is zero. -/
def secondCall : SwitchCall where
  machine :=
    { regs := fun r => match r with
        | .rdi => 0x2000#64
        | .rsi => 0x1000#64
        | .rsp => 0x20800#64
        | .rbp => 7#64
        | _ => 5#64
      rip := 0x9000#64
      memory := fun _ => 0#8 }
  routine := 0x8000#64
  returnAddress := 0x9005#64

/-- Thread `false` then calls it in turn. -/
def firstCall : SwitchCall where
  machine :=
    { regs := fun r => match r with
        | .rdi => 0x1000#64
        | .rsi => 0x2000#64
        | .rsp => 0x10800#64
        | _ => 3#64
      rip := 0x9100#64
      memory := secondCall.suspended }
  routine := 0x8000#64
  returnAddress := 0x9105#64

/-- Thread `true` has gone on for a while and calls it once more. -/
def thirdCall : SwitchCall where
  machine :=
    { regs := fun r => match r with
        | .rdi => 0x2000#64
        | .rsi => 0x1000#64
        | .rsp => 0x20800#64
        | _ => 9#64
      rip := 0x9200#64
      memory := firstCall.suspended }
  routine := 0x8000#64
  returnAddress := 0x9205#64

/-- The first thread goes on behind its call, when the second one has been resumed, has computed
and has switched back. -/
theorem switchProcess_resumes_first : SwitchCall.ResumedAs thirdCall.after firstCall := by
  have area : ∀ (c : SwitchCall) (base : BitVec 64), c.pointer.toNat = base.toNat + 0x7C8 →
      base.toNat ≤ 0x20000 → c.area ⊆ {x | Within base 4096 x} := by
    intro c base pointer low x member
    rw [SwitchCall.area, Set.mem_ofPred_eq, within_iff (by omega)] at member
    rw [Set.mem_ofPred_eq, within_iff (by omega)]
    omega
  obtain ⟨start, same⟩ : ∃ start : Threads Bool,
      start = ⟨firstCall.machine, false, fun _ => secondCall⟩ := ⟨_, rfl⟩
  have all : AllSuspended twoThreads start := by
    intro t other
    obtain rfl : t = true := by simpa [same] using other
    rw [same]
    exact ⟨rfl, area secondCall 0x20000#64 (by decide) (by decide), fun _ _ => rfl⟩
  have first : CanSwitch twoThreads start true firstCall := by
    rw [same]
    exact ⟨rfl, rfl, rfl, area firstCall 0x10000#64 (by decide) (by decide)⟩
  have computes : ThreadStep twoThreads (start.switch true firstCall)
      { start.switch true firstCall with machine := thirdCall.machine } :=
    .compute _ _ fun _ _ x _ => (congrFun firstCall.switched_after.memory x).symm
  have resumed := switchProcess_resumes twoThreads start _ all
    ((Relation.ReflTransGen.single (.switch start true firstCall first)).tail computes) false
    thirdCall ⟨rfl, rfl, rfl, area thirdCall 0x20000#64 (by decide) (by decide)⟩
  rw [same] at resumed
  exact resumed

end M12
