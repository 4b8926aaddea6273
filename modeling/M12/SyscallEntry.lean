/-
This file models the system call stub `syscall_entry` of `kernel/syscall_.asm` and
the dispatch in `syscall_handler`.

The stub saves the return address and the flags on the caller's stack, pushes the
stack pointer there too, and moves to the kernel stack. On the way out it pops
the stack pointer, but from the kernel stack, where nobody put it: what it gets
is the word just above `kernel_stack_top`. It also takes `rcx` as a scratch
register for the segment loads before it is passed on as an argument.
-/

import M12.Library.X64

namespace M12

open ByteMemory WordStack X64

/-! ### The stub -/

/-- `syscall_entry` up to its `call syscall_handler`; `top` is `kernel_stack_top`. -/
def syscallProlog (top : BitVec 64) : List Instr :=
  [.push .rcx,
    .push .r11,
    .movImm .rcx 0x10#64,
    .movSegment .rcx, .movSegment .rcx, .movSegment .rcx, .movSegment .rcx,
    .push .rsp,
    .movImm .rsp top,
    .mov .rdi .rax,
    .mov .rsi .rbx,
    .mov .rdx .rdx,
    .mov .rcx .rcx,
    .mov .r8 .r8,
    .mov .r9 .r9]

/-- `syscall_entry` from the return of the handler to `sysret`. -/
def syscallEpilog : List Instr := [.pop .rsp, .pop .r11, .pop .rcx]

/-- An entry to the stub: the machine, and the addresses the linker has put into it. -/
structure SyscallEntry where
  machine : Machine
  kernelStackTop : BitVec 64
  handler : BitVec 64
  returnAddress : BitVec 64

namespace SyscallEntry

/-- The machine at the first instruction of `syscall_handler`. -/
def called (e : SyscallEntry) : Machine :=
  X64.call (run e.machine (syscallProlog e.kernelStackTop)) e.handler e.returnAddress

/-- The words the stub puts on the caller's stack: return address, flags and stack pointer. -/
def callerWords (e : SyscallEntry) : List (BitVec 64) :=
  [e.machine.regs .rcx, e.machine.regs .r11, below (e.machine.regs .rsp) 2]

/-- Memory when the handler is called: the caller's words are pushed, and the return address is
on the kernel stack. -/
def stacked (e : SyscallEntry) : Memory :=
  store (pushWords e.machine.memory (e.machine.regs .rsp) e.callerWords)
    (below e.kernelStackTop 1) e.returnAddress

/-- The caller's stack words and the word at `kernel_stack_top`. -/
def kept (e : SyscallEntry) : Set (BitVec 64) :=
  {x | Within (below (e.machine.regs .rsp) 3) 24 x} ∪ {x | Within e.kernelStackTop 8 x}

theorem called_memory (e : SyscallEntry) : e.called.memory = e.stacked := by
  have pointer : below (below (e.machine.regs .rsp) 1) 1 = below (e.machine.regs .rsp) 2 :=
    below_below ..
  rw [stacked, callerWords, ← pointer]
  rfl

theorem called_rsp (e : SyscallEntry) : e.called.regs .rsp = below e.kernelStackTop 1 := rfl

/-! ### The way back -/

/-- What `sysret` finds in the three registers it depends on is what the caller had. -/
def Restores (e : SyscallEntry) (m : Machine) : Prop :=
  m.regs .rsp = e.machine.regs .rsp ∧ m.regs .rcx = e.machine.regs .rcx ∧
    m.regs .r11 = e.machine.regs .r11

/-- The word at `kernel_stack_top` happens to be the stack pointer the stub has pushed elsewhere,
and the return address of the call has not overwritten the caller's two words. -/
def LuckyTop (e : SyscallEntry) : Prop :=
  load 64 e.stacked e.kernelStackTop = below (e.machine.regs .rsp) 2 ∧
    load 64 e.stacked (below (e.machine.regs .rsp) 2) = e.machine.regs .r11 ∧
    load 64 e.stacked (below (e.machine.regs .rsp) 1) = e.machine.regs .rcx

theorem epilog_regs (m : Machine) :
    (run m syscallEpilog).regs .rsp = load 64 m.memory (m.regs .rsp) + 8#64 + 8#64 ∧
      (run m syscallEpilog).regs .r11 = load 64 m.memory (load 64 m.memory (m.regs .rsp)) ∧
      (run m syscallEpilog).regs .rcx =
        load 64 m.memory (load 64 m.memory (m.regs .rsp) + 8#64) := ⟨rfl, rfl, rfl⟩

theorem load_returned {e : SyscallEntry} {returned : Machine}
    (returns : ReturnsFrom e.called returned e.kept) {address : BitVec 64}
    (inside : ∀ offset, 8 * offset < 64 → address + BitVec.ofNat 64 offset ∈ e.kept) :
    load 64 returned.memory address = load 64 e.stacked address := by
  refine load_congr fun offset byte => ?_
  rw [returns.memory _ (inside offset byte), called_memory]

theorem caller_mem_kept (e : SyscallEntry) {word : Nat} (low : 1 ≤ word) (high : word ≤ 3)
    (offset : Nat) (byte : 8 * offset < 64) :
    below (e.machine.regs .rsp) word + BitVec.ofNat 64 offset ∈ e.kept := by
  have place := below_add (e.machine.regs .rsp) (show 3 - word ≤ 3 by omega)
  rw [show 3 - (3 - word) = word by omega] at place
  rw [← place, BitVec.add_assoc, ← BitVec.ofNat_add]
  exact Or.inl (within_add _ (by omega) (by omega))

theorem add_eq_iff_below (address top : BitVec 64) :
    address + 8#64 + 8#64 = top ↔ address = below top 2 := by
  rw [below, BitVec.add_assoc, show (8#64 + 8#64 : BitVec 64) = BitVec.ofNat 64 (8 * 2) from rfl]
  constructor
  · intro sum
    rw [← sum, BitVec.add_sub_cancel]
  · intro difference
    rw [difference, BitVec.sub_add_cancel]

/-- Whatever the handler does within its rights, the stub restores its caller exactly when the
word at `kernel_stack_top` is right by luck. -/
theorem syscallEntry_restores_iff (e : SyscallEntry) (returned : Machine)
    (returns : ReturnsFrom e.called returned e.kept) :
    e.Restores (run returned syscallEpilog) ↔ e.LuckyTop := by
  obtain ⟨rsp, r11, rcx⟩ := epilog_regs returned
  have pointer : returned.regs .rsp = e.kernelStackTop := by
    rw [returns.rsp, called_rsp]
    exact BitVec.sub_add_cancel ..
  have top : load 64 returned.memory (returned.regs .rsp) = load 64 e.stacked e.kernelStackTop := by
    rw [pointer]
    exact load_returned returns fun offset byte => Or.inr (within_add _ (by omega) (by omega))
  have flags : load 64 returned.memory (below (e.machine.regs .rsp) 2) =
      load 64 e.stacked (below (e.machine.regs .rsp) 2) :=
    load_returned returns (e.caller_mem_kept (by decide) (by decide))
  have address : load 64 returned.memory (below (e.machine.regs .rsp) 1) =
      load 64 e.stacked (below (e.machine.regs .rsp) 1) :=
    load_returned returns (e.caller_mem_kept (by decide) (by decide))
  have up : below (e.machine.regs .rsp) 2 + 8#64 = below (e.machine.regs .rsp) 1 :=
    below_add _ (show 1 ≤ 2 by decide)
  rw [Restores, LuckyTop, rsp, r11, rcx, top, add_eq_iff_below]
  refine and_congr_right fun lucky => ?_
  rw [lucky, up, flags, address]
  exact and_comm

/-- The caller's stack words are apart from the two words around `kernel_stack_top`. -/
def StacksApart (e : SyscallEntry) : Prop :=
  ∀ x, Within (below (e.machine.regs .rsp) 3) 24 x → ¬ Within (below e.kernelStackTop 1) 16 x

/-- Then luck is a matter of what the word at `kernel_stack_top` was before the system call. -/
theorem luckyTop_iff_of_apart {e : SyscallEntry} (apart : e.StacksApart) :
    e.LuckyTop ↔ load 64 e.machine.memory e.kernelStackTop = below (e.machine.regs .rsp) 2 := by
  have length : e.callerWords.length = 3 := rfl
  have caller : ∀ (word offset : Nat), 1 ≤ word → word ≤ 3 → 8 * offset < 64 →
      Within (below (e.machine.regs .rsp) 3) 24
        (below (e.machine.regs .rsp) word + BitVec.ofNat 64 offset) := by
    intro word offset low high byte
    have place := below_add (e.machine.regs .rsp) (show 3 - word ≤ 3 by omega)
    rw [show 3 - (3 - word) = word by omega] at place
    rw [← place, BitVec.add_assoc, ← BitVec.ofNat_add]
    exact within_add _ (by omega) (by omega)
  have pushed : ∀ word, 1 ≤ word → word ≤ 3 →
      load 64 e.stacked (below (e.machine.regs .rsp) word) =
        load 64 (pushWords e.machine.memory (e.machine.regs .rsp) e.callerWords)
          (below (e.machine.regs .rsp) word) := by
    intro word low high
    refine load_store_of_disjoint _ _ fun offset byte close => ?_
    exact apart _ (caller word offset low high byte) (show _ < 16 by omega)
  have flags := load_pushWords e.machine.memory (e.machine.regs .rsp)
    (show 8 * e.callerWords.length < 2 ^ 64 by rw [length]; decide)
    (show 1 < e.callerWords.length by rw [length]; decide)
  have address := load_pushWords e.machine.memory (e.machine.regs .rsp)
    (show 8 * e.callerWords.length < 2 ^ 64 by rw [length]; decide)
    (show 0 < e.callerWords.length by rw [length]; decide)
  have above : ∀ offset, 8 * offset < 64 →
      (e.kernelStackTop + BitVec.ofNat 64 offset - below e.kernelStackTop 1).toNat =
        offset + 8 := by
    intro offset byte
    have itself := toNat_add_sub_self e.kernelStackTop (show offset < 2 ^ 64 by omega)
    rw [toNat_sub_below _ _ (by decide) (by rw [itself]; omega), itself]
  have top : load 64 e.stacked e.kernelStackTop = load 64 e.machine.memory e.kernelStackTop := by
    refine (load_store_of_disjoint _ _ fun offset byte close => ?_).trans
      (load_congr fun offset byte => ?_)
    · rw [above offset byte] at close
      omega
    · refine pushWords_of_not_within _ (by rw [length]; decide) fun inside => ?_
      rw [length] at inside
      exact apart _ inside (show _ < 16 by rw [above offset byte]; omega)
  rw [LuckyTop, top, pushed 2 (by decide) (by decide), pushed 1 (by decide) (by decide), flags,
    address]
  exact and_iff_left ⟨rfl, rfl⟩

/-- A system call from a caller whose stack pointer is `0x7000`, with this word at
`kernel_stack_top`. -/
def callWithTop (word : BitVec 64) : SyscallEntry where
  machine :=
    { regs := fun r => match r with
        | .rsp => 0x7000#64
        | .rcx => 0x401000#64
        | .r11 => 0x202#64
        | _ => 1#64
      rip := 0x10A00#64
      memory := store (fun _ => 0#8) 0x30000#64 word }
  kernelStackTop := 0x30000#64
  handler := 0x10C00#64
  returnAddress := 0x10A40#64

theorem stacksApart_callWithTop (word : BitVec 64) : (callWithTop word).StacksApart := by
  intro x caller top
  have low : below ((callWithTop word).machine.regs .rsp) 3 = 0x6FE8#64 :=
    show below 0x7000#64 3 = 0x6FE8#64 by decide
  have high : below (callWithTop word).kernelStackTop 1 = 0x2FFF8#64 :=
    show below 0x30000#64 1 = 0x2FFF8#64 by decide
  rw [low, within_iff (by decide), BitVec.toNat_ofNat] at caller
  rw [high, within_iff (by decide), BitVec.toNat_ofNat] at top
  omega

theorem luckyTop_callWithTop (word : BitVec 64) :
    (callWithTop word).LuckyTop ↔ word = 0x6FF0#64 := by
  rw [luckyTop_iff_of_apart (stacksApart_callWithTop word)]
  have loaded : load 64 (callWithTop word).machine.memory (callWithTop word).kernelStackTop =
      word := load_store_self _ _ _ (by decide)
  have pointer : below ((callWithTop word).machine.regs .rsp) 2 = 0x6FF0#64 :=
    show below 0x7000#64 2 = 0x6FF0#64 by decide
  rw [loaded, pointer]

/-- With the right word there, a handler that returns at once leaves the caller restored. -/
theorem syscallEntry_restores_lucky :
    (callWithTop 0x6FF0#64).Restores
      (run (ret (callWithTop 0x6FF0#64).called) syscallEpilog) :=
  (syscallEntry_restores_iff (callWithTop 0x6FF0#64) _ (returnsFrom_ret _ _)).mpr
    ((luckyTop_callWithTop 0x6FF0#64).mpr rfl)

/-- With a zero word there, the caller gets the stack pointer 16. -/
theorem syscallEntry_loses_caller :
    ReturnsFrom (callWithTop 0#64).called (ret (callWithTop 0#64).called) (callWithTop 0#64).kept ∧
      ¬ (callWithTop 0#64).Restores (run (ret (callWithTop 0#64).called) syscallEpilog) := by
  refine ⟨returnsFrom_ret _ _, fun restores => ?_⟩
  have top : load 64 (ret (callWithTop 0#64).called).memory
      ((ret (callWithTop 0#64).called).regs .rsp) = 0#64 := by decide +kernel
  have rsp := restores.1
  rw [(epilog_regs _).1, top] at rsp
  exact absurd rsp (by decide)

end SyscallEntry

/-! ### The arguments -/

/-- `SYS_WRITE` -/
def sysWrite : BitVec 64 := 2#64

/-- What `syscall_handler` does: it returns -1, or one of the functions `Init_Syscall` has
registered runs with these arguments. -/
inductive SyscallAction where
  | rejected
  | dummy
  | exit (status : BitVec 32)
  | write (fd buffer count : BitVec 64)
  | getpid
  | fork
  | exec (path argv : BitVec 64)
  | wait (status : BitVec 64)
  | brk (addr : BitVec 64)
deriving DecidableEq

/-- `syscall_handler` with the table as `Init_Syscall` leaves it. No registered function looks at
`arg4` or `arg5`. -/
def syscallHandler (number arg1 arg2 arg3 : BitVec 64) : SyscallAction :=
  if 10#64 ≤ number then .rejected
  else
    match number.toNat with
    | 0 => .exit (arg1.setWidth 32)
    | 2 => .write arg1 arg2 arg3
    | 5 => .fork
    | 6 => .exec arg1 arg2
    | 7 => .wait arg1
    | 8 => .getpid
    | 9 => .brk arg1
    | _ => .dummy

/-- The registers in which a C function finds its first six arguments. -/
def argumentRegs : List Reg := [.rdi, .rsi, .rdx, .rcx, .r8, .r9]

/-- The registers in which the caller passes the number and the five arguments. -/
def syscallRegs : List Reg := [.rax, .rbx, .rdx, .rcx, .r8, .r9]

namespace SyscallEntry

/-- What the handler does with the arguments it gets. -/
def action (e : SyscallEntry) : SyscallAction :=
  syscallHandler (e.called.regs .rdi) (e.called.regs .rsi) (e.called.regs .rdx)
    (e.called.regs .rcx)

/-- The handler gets what the caller passed, and `SYS_WRITE` uses it. -/
structure ArgumentsArrive (e : SyscallEntry) : Prop where
  arguments : argumentRegs.map e.called.regs = syscallRegs.map e.machine.regs
  write : e.machine.regs .rax = sysWrite → e.action =
    .write (e.machine.regs .rbx) (e.machine.regs .rdx) (e.machine.regs .rcx)

/-- All arguments but the third arrive; the third is always 16. -/
theorem called_arguments (e : SyscallEntry) :
    argumentRegs.map e.called.regs =
      [e.machine.regs .rax, e.machine.regs .rbx, e.machine.regs .rdx, 0x10#64, e.machine.regs .r8,
        e.machine.regs .r9] := rfl

theorem action_of_write {e : SyscallEntry} (write : e.machine.regs .rax = sysWrite) :
    e.action = .write (e.machine.regs .rbx) (e.machine.regs .rdx) 0x10#64 := by
  have number : e.called.regs .rdi = sysWrite := write
  rw [action, number]
  rfl

/-- The arguments arrive exactly when the third one is the segment selector the stub has put in
its place. -/
theorem syscall_arguments_arrive_iff (e : SyscallEntry) :
    e.ArgumentsArrive ↔ e.machine.regs .rcx = 0x10#64 := by
  constructor
  · intro arrive
    have same := arrive.arguments
    rw [called_arguments] at same
    exact (congrArg (fun words => words.getD 3 0#64) same).symm
  · intro selector
    refine ⟨?_, fun write => ?_⟩
    · rw [called_arguments, ← selector]
      rfl
    · rw [action_of_write write, selector]

/-- A caller writes five characters. -/
def writeCall : SyscallEntry where
  machine :=
    { regs := fun r => match r with
        | .rax => sysWrite
        | .rbx => 1#64
        | .rdx => 0x8000#64
        | .rcx => 5#64
        | _ => 0#64
      rip := 0x10A00#64
      memory := fun _ => 0#8 }
  kernelStackTop := 0x30000#64
  handler := 0x10C00#64
  returnAddress := 0x10A40#64

/-- The handler is told to write sixteen. -/
theorem syscall_write_count_lost :
    writeCall.action = .write 1#64 0x8000#64 0x10#64 ∧ ¬ writeCall.ArgumentsArrive := by
  refine ⟨by decide, fun arrive => ?_⟩
  have same := arrive.arguments
  rw [called_arguments] at same
  exact absurd (congrArg (fun words => words.getD 3 0#64) same) (by decide)

end SyscallEntry

end M12
