/-
This file models the interrupt stubs of `kernel/isr_.asm` and `kernel/irq_.asm` and
proves that an interrupt is transparent to the code it interrupts.

The processor pushes five words, and an error code for some exceptions. The stub
of the vector pushes a zero where there is none, then the vector, and the common
stub pushes the fifteen general registers. These 22 words are the
`InterruptFrame` the C handler gets a pointer to, and the way back pops the same
words in the opposite order. The two common stubs are the same code but for the
handler they call.
-/

import M12.Library.X64

namespace M12

open ByteMemory WordStack X64

/-! ### The processor -/

/-- The state an interrupt saves: the machine with its segment selectors and flags. -/
structure Processor where
  machine : Machine
  cs : BitVec 16
  ss : BitVec 16
  rflags : BitVec 64

/-- The exceptions for which the processor pushes an error code. -/
def pushesErrorCode (vector : Nat) : Bool :=
  vector == 8 || (10 ≤ vector && vector ≤ 14) || vector == 17

/-- The words the processor pushes, highest first. -/
def processorWords (p : Processor) (vector : Nat) (errorCode : BitVec 64) : List (BitVec 64) :=
  [p.ss.setWidth 64, p.machine.regs .rsp, p.rflags, p.cs.setWidth 64, p.machine.rip] ++
    if pushesErrorCode vector then [errorCode] else []

/-- Delivery of an interrupt: the processor pushes its words downwards from `top` and goes to the
stub. -/
def deliver (p : Processor) (vector : Nat) (errorCode top stub : BitVec 64) : Machine where
  regs := Function.update p.machine.regs .rsp
    (below top (processorWords p vector errorCode).length)
  rip := stub
  memory := pushWords p.machine.memory top (processorWords p vector errorCode)

/-- `iretq` -/
def iretq (m : Machine) : Processor where
  machine :=
    { m with
      regs := Function.update m.regs .rsp (load 64 m.memory (m.regs .rsp + 24#64))
      rip := load 64 m.memory (m.regs .rsp) }
  cs := (load 64 m.memory (m.regs .rsp + 8#64)).setWidth 16
  rflags := load 64 m.memory (m.regs .rsp + 16#64)
  ss := (load 64 m.memory (m.regs .rsp + 32#64)).setWidth 16

/-! ### The stubs -/

/-- The macros of `isr_.asm`. -/
inductive IsrMacro where
  | noErrCode
  | errCode
deriving DecidableEq

/-- The stubs `isr0` to `isr31` as they are declared. -/
def isrMacros : List IsrMacro :=
  [.noErrCode, .noErrCode, .noErrCode, .noErrCode, .noErrCode, .noErrCode, .noErrCode, .noErrCode,
    .errCode, .noErrCode, .errCode, .errCode, .errCode, .errCode, .errCode, .noErrCode,
    .noErrCode, .errCode, .noErrCode, .noErrCode, .noErrCode, .noErrCode, .noErrCode, .noErrCode,
    .noErrCode, .noErrCode, .noErrCode, .noErrCode, .noErrCode, .noErrCode, .noErrCode, .noErrCode]

/-- The vectors of the stubs `irq0` to `irq15` as they are declared. -/
def irqVectors : List Nat := [32, 33, 34, 35, 36, 37, 38, 39, 40, 41, 42, 43, 44, 45, 46, 47]

/-- `ISR_NOERRCODE`, `ISR_ERRCODE` -/
def IsrMacro.pushes (vector : Nat) : IsrMacro → List Instr
  | .noErrCode => [.pushImm 0#64, .pushImm (BitVec.ofNat 64 vector)]
  | .errCode => [.pushImm (BitVec.ofNat 64 vector)]

/-- What the stub of a vector pushes before it jumps to the common stub: `isr` stubs up to 31,
`irq` stubs from 32 on. -/
def stubPushes (vector : Fin 48) : List Instr :=
  if vector.val < 32 then (isrMacros.getD vector.val .noErrCode).pushes vector.val
  else [.pushImm 0#64, .pushImm (BitVec.ofNat 64 (irqVectors.getD (vector.val - 32) 0))]

/-- The registers the common stubs push, in order. -/
def frameRegs : List Reg :=
  [.rax, .rbx, .rcx, .rdx, .rbp, .rsi, .rdi, .r8, .r9, .r10, .r11, .r12, .r13, .r14, .r15]

/-- The common stubs up to their call. -/
def commonProlog : List Instr :=
  [.push .rax, .push .rbx, .push .rcx, .push .rdx, .push .rbp, .push .rsi, .push .rdi, .push .r8,
    .push .r9, .push .r10, .push .r11, .push .r12, .push .r13, .push .r14, .push .r15,
    .mov .rdi .rsp]

/-- The common stubs from the return of the handler to `iretq`. -/
def commonEpilog : List Instr :=
  [.pop .r15, .pop .r14, .pop .r13, .pop .r12, .pop .r11, .pop .r10, .pop .r9, .pop .r8, .pop .rdi,
    .pop .rsi, .pop .rbp, .pop .rdx, .pop .rcx, .pop .rbx, .pop .rax,
    .addImm .rsp 16#64]

/-- An interrupt: the state it hits, the vector with the processor's error code, where the
processor pushes, and the addresses in the stub. -/
structure Interrupt where
  processor : Processor
  vector : Fin 48
  errorCode : BitVec 64
  top : BitVec 64
  stub : BitVec 64
  handler : BitVec 64
  returnAddress : BitVec 64

namespace Interrupt

/-- The machine at the first instruction of `isr_handler` or `irq_handler`. -/
def called (i : Interrupt) : Machine :=
  X64.call (run (deliver i.processor i.vector.val i.errorCode i.top i.stub)
    (stubPushes i.vector ++ commonProlog)) i.handler i.returnAddress

/-- The words of the frame, highest first. -/
def frameWords (i : Interrupt) : List (BitVec 64) :=
  [i.processor.ss.setWidth 64, i.processor.machine.regs .rsp, i.processor.rflags,
    i.processor.cs.setWidth 64, i.processor.machine.rip,
    if pushesErrorCode i.vector.val then i.errorCode else 0#64, BitVec.ofNat 64 i.vector.val] ++
    frameRegs.map i.processor.machine.regs

theorem length_frameWords (i : Interrupt) : i.frameWords.length = 22 := rfl

/-- The stub of every vector makes up for a missing error code. -/
theorem stubPushes_eq (vector : Fin 48) :
    stubPushes vector =
      ((if pushesErrorCode vector.val then [] else [0#64]) ++
        [BitVec.ofNat 64 vector.val]).map .pushImm := by
  revert vector
  decide

/-- The first seven words of the frame are on the stack. -/
theorem run_stubPushes (i : Interrupt) :
    run (deliver i.processor i.vector.val i.errorCode i.top i.stub) (stubPushes i.vector) =
      { regs := Function.update i.processor.machine.regs .rsp (below i.top 7)
        rip := i.stub
        memory := pushWords i.processor.machine.memory i.top
          [i.processor.ss.setWidth 64, i.processor.machine.regs .rsp, i.processor.rflags,
            i.processor.cs.setWidth 64, i.processor.machine.rip,
            if pushesErrorCode i.vector.val then i.errorCode else 0#64,
            BitVec.ofNat 64 i.vector.val] } := by
  rw [stubPushes_eq, run_pushImm]
  simp only [deliver, Function.update_self, Function.update_idem, below_below]
  rw [← pushWords_append]
  cases pushes : pushesErrorCode i.vector.val <;> simp [processorWords, pushes]

/-- The frame and the return address lie below `top`, and the handler gets the address of the
frame. -/
theorem called_eq (i : Interrupt) :
    i.called.memory = pushWords i.processor.machine.memory i.top
        (i.frameWords ++ [i.returnAddress]) ∧
      i.called.regs .rdi = below i.top 22 ∧ i.called.regs .rsp = below i.top 23 := by
  have prolog : commonProlog = frameRegs.map .push ++ [.mov .rdi .rsp] := rfl
  have registers : ∀ pointer : BitVec 64,
      frameRegs.map (Function.update i.processor.machine.regs .rsp pointer) =
        frameRegs.map i.processor.machine.regs := fun pointer => rfl
  have count : frameRegs.length = 15 := rfl
  rw [called, run_append, run_stubPushes, prolog, run_append, run_push _ (by decide)]
  simp only [run, List.foldl_cons, List.foldl_nil, exec, X64.call, Function.update_self,
    Function.update_idem, below_below, registers, count,
    Function.update_of_ne (show Reg.rsp ≠ Reg.rdi by decide), and_true]
  have last : below i.top (7 + 15 + 1) = below (below i.top 22) 1 := (below_below ..).symm
  refine ⟨?_, rfl⟩
  rw [pushWords_append, length_frameWords, frameWords, pushWords_append, last]
  rfl

/-! ### The frame -/

/-- The bytes of the frame. -/
def frameBytes (i : Interrupt) : Set (BitVec 64) := {x | Within (below i.top 22) 176 x}

theorem word_mem_frameBytes (i : Interrupt) {k : Nat} (inside : k < 22) {offset : Nat}
    (byte : 8 * offset < 64) :
    below i.top (k + 1) + BitVec.ofNat 64 offset ∈ i.frameBytes := by
  have place := below_add i.top (show 21 - k ≤ 22 by omega)
  rw [show 22 - (21 - k) = k + 1 by omega] at place
  rw [← place, BitVec.add_assoc, ← BitVec.ofNat_add]
  exact within_add _ (by omega) (by omega)

/-- As long as nobody writes to the frame, its words are there. -/
theorem load_frame {i : Interrupt} {memory : Memory}
    (kept : ∀ x ∈ i.frameBytes, memory x = i.called.memory x) {k : Nat} (inside : k < 22) :
    load 64 memory (below i.top (k + 1)) = i.frameWords.getD k 0#64 := by
  have length : k < i.frameWords.length := i.length_frameWords.symm ▸ inside
  have total : (i.frameWords ++ [i.returnAddress]).length = 23 := rfl
  have same : load 64 memory (below i.top (k + 1)) =
      load 64 i.called.memory (below i.top (k + 1)) :=
    load_congr fun offset byte => kept _ (i.word_mem_frameBytes inside byte)
  rw [same, i.called_eq.1, load_pushWords _ _ (by rw [total]; decide) (by omega),
    List.getElem_append_left length, List.getD_eq_getElem _ _ length]

/-- The same words, counted upwards from a word of the frame. -/
theorem load_frame_up {i : Interrupt} {memory : Memory}
    (kept : ∀ x ∈ i.frameBytes, memory x = i.called.memory x) {start k : Nat}
    (low : k < start) (high : start ≤ 22) :
    load 64 memory (below i.top start + BitVec.ofNat 64 (8 * k)) =
      i.frameWords.getD (start - 1 - k) 0#64 := by
  rw [below_add _ (by omega), show start - k = start - 1 - k + 1 by omega]
  exact load_frame kept (by omega)

end Interrupt

/-- `InterruptFrame` -/
structure InterruptFrame where
  r15 : BitVec 64
  r14 : BitVec 64
  r13 : BitVec 64
  r12 : BitVec 64
  r11 : BitVec 64
  r10 : BitVec 64
  r9 : BitVec 64
  r8 : BitVec 64
  rdi : BitVec 64
  rsi : BitVec 64
  rbp : BitVec 64
  rdx : BitVec 64
  rcx : BitVec 64
  rbx : BitVec 64
  rax : BitVec 64
  interruptNumber : BitVec 64
  errorCode : BitVec 64
  rip : BitVec 64
  cs : BitVec 64
  rflags : BitVec 64
  rsp : BitVec 64
  ss : BitVec 64

/-- The structure at an address: its fields are consecutive words. -/
def frameAt (memory : Memory) (address : BitVec 64) : InterruptFrame :=
  let word k := load 64 memory (address + BitVec.ofNat 64 (8 * k))
  { r15 := word 0, r14 := word 1, r13 := word 2, r12 := word 3
    r11 := word 4, r10 := word 5, r9 := word 6, r8 := word 7
    rdi := word 8, rsi := word 9, rbp := word 10, rdx := word 11
    rcx := word 12, rbx := word 13, rax := word 14
    interruptNumber := word 15, errorCode := word 16
    rip := word 17, cs := word 18, rflags := word 19, rsp := word 20, ss := word 21 }

namespace Interrupt

/-- The frame of an interrupt: every field has the value its name says. -/
def frame (i : Interrupt) : InterruptFrame where
  r15 := i.processor.machine.regs .r15
  r14 := i.processor.machine.regs .r14
  r13 := i.processor.machine.regs .r13
  r12 := i.processor.machine.regs .r12
  r11 := i.processor.machine.regs .r11
  r10 := i.processor.machine.regs .r10
  r9 := i.processor.machine.regs .r9
  r8 := i.processor.machine.regs .r8
  rdi := i.processor.machine.regs .rdi
  rsi := i.processor.machine.regs .rsi
  rbp := i.processor.machine.regs .rbp
  rdx := i.processor.machine.regs .rdx
  rcx := i.processor.machine.regs .rcx
  rbx := i.processor.machine.regs .rbx
  rax := i.processor.machine.regs .rax
  interruptNumber := BitVec.ofNat 64 i.vector.val
  errorCode := if pushesErrorCode i.vector.val then i.errorCode else 0#64
  rip := i.processor.machine.rip
  cs := i.processor.cs.setWidth 64
  rflags := i.processor.rflags
  rsp := i.processor.machine.regs .rsp
  ss := i.processor.ss.setWidth 64

theorem frameAt_called (i : Interrupt) :
    frameAt i.called.memory (i.called.regs .rdi) = i.frame := by
  have word : ∀ k < 22, load 64 i.called.memory (below i.top 22 + BitVec.ofNat 64 (8 * k)) =
      i.frameWords.getD (21 - k) 0#64 := fun k inside =>
    load_frame_up (fun _ _ => rfl) inside le_rfl
  rw [i.called_eq.2.1, frame, frameAt, InterruptFrame.mk.injEq]
  exact ⟨word 0 (by decide), word 1 (by decide), word 2 (by decide), word 3 (by decide),
    word 4 (by decide), word 5 (by decide), word 6 (by decide), word 7 (by decide),
    word 8 (by decide), word 9 (by decide), word 10 (by decide), word 11 (by decide),
    word 12 (by decide), word 13 (by decide), word 14 (by decide), word 15 (by decide),
    word 16 (by decide), word 17 (by decide), word 18 (by decide), word 19 (by decide),
    word 20 (by decide), word 21 (by decide)⟩

/-! ### The way back -/

/-- What the interrupted code can see of the processor. -/
structure Resumes (before after : Processor) : Prop where
  regs : after.machine.regs = before.machine.regs
  rip : after.machine.rip = before.machine.rip
  cs : after.cs = before.cs
  rflags : after.rflags = before.rflags
  ss : after.ss = before.ss

section Return

variable {i : Interrupt} {returned : Machine}

/-- The fifteen registers are popped back, and `iretq` finds the words of the processor. -/
theorem run_commonEpilog (returns : ReturnsFrom i.called returned i.frameBytes) :
    (run returned commonEpilog).memory = returned.memory ∧
      (run returned commonEpilog).regs .rsp = below i.top 5 ∧
      ∀ r ≠ Reg.rsp, (run returned commonEpilog).regs r = i.processor.machine.regs r := by
  have epilog : commonEpilog = frameRegs.reverse.map .pop ++ [.addImm .rsp 16#64] := rfl
  have pointer : returned.regs .rsp = below i.top 22 := by
    rw [returns.rsp, i.called_eq.2.2]
    exact below_add i.top (show 1 ≤ 23 by decide)
  obtain ⟨memory, top, words, -⟩ := run_pop returned
    (show Reg.rsp ∉ frameRegs.reverse by decide) (by decide)
  rw [pointer] at top words
  rw [epilog, run_append]
  generalize run returned (frameRegs.reverse.map .pop) = popped at *
  have last : run popped [.addImm .rsp 16#64] =
      { popped with regs := Function.update popped.regs .rsp (popped.regs .rsp + 16#64) } := rfl
  have up : below i.top 22 + BitVec.ofNat 64 (8 * frameRegs.reverse.length) = below i.top 7 :=
    below_add i.top (show 15 ≤ 22 by decide)
  have next : below i.top 7 + 16#64 = below i.top 5 := below_add i.top (show 2 ≤ 7 by decide)
  rw [last, top, up, next]
  refine ⟨memory, Function.update_self Reg.rsp _ popped.regs, fun r notRsp => ?_⟩
  have member : r ∈ frameRegs.reverse := by
    cases r <;> first | exact absurd rfl notRsp | decide
  obtain ⟨k, inside, rfl⟩ := List.getElem_of_mem member
  have place : i.frameWords.getD (21 - k) 0#64 =
      i.processor.machine.regs frameRegs.reverse[k] := by
    have short : k < 15 := inside
    interval_cases k <;> rfl
  show Function.update popped.regs .rsp _ frameRegs.reverse[k] = _
  rw [Function.update_of_ne notRsp, words k inside,
    load_frame_up returns.memory (lt_of_lt_of_le inside (by decide)) le_rfl]
  exact place

/-- `iretq` takes the five words of the processor off the stack. -/
theorem resumes_iretq (returns : ReturnsFrom i.called returned i.frameBytes) :
    Resumes i.processor (iretq (run returned commonEpilog)) := by
  obtain ⟨memory, pointer, registers⟩ := run_commonEpilog returns
  have word : ∀ k < 5, load 64 (run returned commonEpilog).memory
      ((run returned commonEpilog).regs .rsp + BitVec.ofNat 64 (8 * k)) =
        i.frameWords.getD (4 - k) 0#64 := by
    intro k inside
    rw [memory, pointer]
    exact load_frame_up returns.memory inside (by decide)
  generalize run returned commonEpilog = popped at *
  have stack : load 64 popped.memory (popped.regs .rsp + 24#64) = i.processor.machine.regs .rsp :=
    word 3 (by decide)
  have code : load 64 popped.memory (popped.regs .rsp + 8#64) = i.processor.cs.setWidth 64 :=
    word 1 (by decide)
  have stackSegment : load 64 popped.memory (popped.regs .rsp + 32#64) =
      i.processor.ss.setWidth 64 := word 4 (by decide)
  have address := word 0 (by decide)
  rw [Nat.mul_zero, BitVec.add_zero] at address
  refine ⟨funext fun r => ?_, address, ?_, word 2 (by decide), ?_⟩
  · show Function.update popped.regs .rsp _ r = i.processor.machine.regs r
    by_cases pointed : r = .rsp
    · rw [pointed, Function.update_self, stack]
    · rw [Function.update_of_ne pointed, registers r pointed]
  · show (load 64 popped.memory (popped.regs .rsp + 8#64)).setWidth 16 = i.processor.cs
    rw [code, BitVec.setWidth_setWidth_of_le _ (by decide), BitVec.setWidth_eq]
  · show (load 64 popped.memory (popped.regs .rsp + 32#64)).setWidth 16 = i.processor.ss
    rw [stackSegment, BitVec.setWidth_setWidth_of_le _ (by decide), BitVec.setWidth_eq]

/-- An interrupt is transparent: the handler gets a frame in which every field has its value, and
when it returns the interrupted code goes on as if nothing had happened. -/
theorem interrupt_transparent (returns : ReturnsFrom i.called returned i.frameBytes) :
    frameAt i.called.memory (i.called.regs .rdi) = i.frame ∧
      Resumes i.processor (iretq (run returned commonEpilog)) :=
  ⟨i.frameAt_called, resumes_iretq returns⟩

end Return

/-- A page fault in the kernel. -/
def pageFault : Interrupt where
  processor :=
    { machine :=
        { regs := fun r => if r = .rsp then 0x8FF0#64 else 7#64
          rip := 0x10400#64
          memory := fun _ => 0#8 }
      cs := 0x8#16
      ss := 0x10#16
      rflags := 0x202#64 }
  vector := 14
  errorCode := 2#64
  top := 0x8FF0#64
  stub := 0x10200#64
  handler := 0x10C00#64
  returnAddress := 0x10240#64

/-- A handler that returns at once. -/
theorem interrupt_transparent_pageFault :
    frameAt pageFault.called.memory (pageFault.called.regs .rdi) = pageFault.frame ∧
      Resumes pageFault.processor (iretq (run (ret pageFault.called) commonEpilog)) :=
  interrupt_transparent (returnsFrom_ret pageFault.called pageFault.frameBytes)

end Interrupt

end M12
