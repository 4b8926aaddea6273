/-
This file is a library for straight-line x86-64 code: the general registers, the
instruction pointer and memory, and the instructions that move words between
them.

The instruction pointer is followed only where control is transferred, by `call`
and `ret`; a block of other instructions is a function on machines. A row of
pushes is one block of words on the stack, and a row of pops into different
registers reads one back.
-/

import M12.Library.WordStack

namespace X64

open ByteMemory WordStack

inductive Reg where
  | rax
  | rbx
  | rcx
  | rdx
  | rsi
  | rdi
  | rbp
  | rsp
  | r8
  | r9
  | r10
  | r11
  | r12
  | r13
  | r14
  | r15
deriving DecidableEq

structure Machine where
  regs : Reg → BitVec 64
  rip : BitVec 64
  memory : Memory

inductive Instr where
  /-- `push r` -/
  | push (r : Reg)
  /-- `pop r` -/
  | pop (r : Reg)
  /-- `mov target, [address]` -/
  | movLoad (target address : Reg)
  /-- `mov [address], source` -/
  | movStore (address source : Reg)
  /-- `push value` -/
  | pushImm (value : BitVec 64)
  /-- `mov target, source` -/
  | mov (target source : Reg)
  /-- `mov target, value` -/
  | movImm (target : Reg) (value : BitVec 64)
  /-- `mov ds, source` and the like -/
  | movSegment (source : Reg)
  /-- `add target, value` -/
  | addImm (target : Reg) (value : BitVec 64)
deriving DecidableEq

/-- One instruction. A pop into `rsp` keeps the word popped; segment registers are not part of
the machine. -/
def exec (m : Machine) : Instr → Machine
  | .push r =>
    { m with
      regs := Function.update m.regs .rsp (below (m.regs .rsp) 1)
      memory := store m.memory (below (m.regs .rsp) 1) (m.regs r) }
  | .pop r =>
    { m with
      regs := Function.update (Function.update m.regs .rsp (m.regs .rsp + 8#64)) r
        (load 64 m.memory (m.regs .rsp)) }
  | .movLoad target address =>
    { m with regs := Function.update m.regs target (load 64 m.memory (m.regs address)) }
  | .movStore address source =>
    { m with memory := store m.memory (m.regs address) (m.regs source) }
  | .pushImm value =>
    { m with
      regs := Function.update m.regs .rsp (below (m.regs .rsp) 1)
      memory := store m.memory (below (m.regs .rsp) 1) value }
  | .mov target source => { m with regs := Function.update m.regs target (m.regs source) }
  | .movImm target value => { m with regs := Function.update m.regs target value }
  | .movSegment _ => m
  | .addImm target value =>
    { m with regs := Function.update m.regs target (m.regs target + value) }

/-- A block of instructions. -/
def run (m : Machine) (block : List Instr) : Machine := block.foldl exec m

/-- `call target`, from the instruction before `returnAddress`. -/
def call (m : Machine) (target returnAddress : BitVec 64) : Machine where
  regs := Function.update m.regs .rsp (below (m.regs .rsp) 1)
  rip := target
  memory := store m.memory (below (m.regs .rsp) 1) returnAddress

/-- `ret` -/
def ret (m : Machine) : Machine :=
  { m with
    regs := Function.update m.regs .rsp (m.regs .rsp + 8#64)
    rip := load 64 m.memory (m.regs .rsp) }

theorem ret_regs (m : Machine) {r : Reg} (notRsp : r ≠ .rsp) : (ret m).regs r = m.regs r :=
  Function.update_of_ne notRsp ..

theorem ret_rsp (m : Machine) : (ret m).regs .rsp = m.regs .rsp + 8#64 :=
  Function.update_self Reg.rsp _ m.regs

/-- The registers a C function leaves as it finds them. -/
def calleeSaved : List Reg := [.rbx, .rbp, .r12, .r13, .r14, .r15]

/-- A C function entered in the machine `called` has returned: the stack pointer is back above
the return address, the registers it must keep and the bytes in `kept` are as they were. -/
structure ReturnsFrom (called returned : Machine) (kept : Set (BitVec 64)) : Prop where
  rip : returned.rip = load 64 called.memory (called.regs .rsp)
  rsp : returned.regs .rsp = called.regs .rsp + 8#64
  saved : ∀ r ∈ calleeSaved, returned.regs r = called.regs r
  memory : ∀ x ∈ kept, returned.memory x = called.memory x

/-- A function that returns at once. -/
theorem returnsFrom_ret (m : Machine) (kept : Set (BitVec 64)) : ReturnsFrom m (ret m) kept := by
  refine ⟨rfl, ret_rsp m, fun r member => ret_regs m ?_, fun _ _ => rfl⟩
  rintro rfl
  exact absurd member (by decide)

theorem run_append (m : Machine) (first second : List Instr) :
    run m (first ++ second) = run (run m first) second := List.foldl_append ..

/-- A row of pushes puts the registers on the stack as they were before. -/
theorem run_push (m : Machine) {rs : List Reg} (noRsp : Reg.rsp ∉ rs) :
    run m (rs.map .push) =
      { m with
        regs := Function.update m.regs .rsp (below (m.regs .rsp) rs.length)
        memory := pushWords m.memory (m.regs .rsp) (rs.map m.regs) } := by
  induction rs generalizing m with
  | nil =>
    rw [List.map_nil, List.map_nil, pushWords, List.length_nil, below, BitVec.sub_zero,
      Function.update_eq_self]
    rfl
  | cons r rs inductionHypothesis =>
    have other : Reg.rsp ∉ rs := fun member => noRsp (List.mem_cons_of_mem r member)
    have same : rs.map (Function.update m.regs .rsp (below (m.regs .rsp) 1)) = rs.map m.regs := by
      refine List.map_congr_left fun register member => Function.update_of_ne ?_ ..
      rintro rfl
      exact other member
    have step := inductionHypothesis (exec m (.push r)) other
    simp only [exec, Function.update_self, Function.update_idem, same, below_below] at step
    rw [List.map_cons, List.map_cons, pushWords, List.length_cons, Nat.add_comm]
    exact step

/-- A row of pushed constants. -/
theorem run_pushImm (m : Machine) (words : List (BitVec 64)) :
    run m (words.map .pushImm) =
      { m with
        regs := Function.update m.regs .rsp (below (m.regs .rsp) words.length)
        memory := pushWords m.memory (m.regs .rsp) words } := by
  induction words generalizing m with
  | nil =>
    rw [List.map_nil, pushWords, List.length_nil, below, BitVec.sub_zero, Function.update_eq_self]
    rfl
  | cons word words inductionHypothesis =>
    have step := inductionHypothesis (exec m (.pushImm word))
    simp only [exec, Function.update_self, Function.update_idem, below_below] at step
    rw [List.map_cons, pushWords, List.length_cons, Nat.add_comm]
    exact step

/-- A row of pops into different registers reads them off the stack. -/
theorem run_pop (m : Machine) {rs : List Reg} (noRsp : Reg.rsp ∉ rs) (different : rs.Nodup) :
    (run m (rs.map .pop)).memory = m.memory ∧
      (run m (rs.map .pop)).regs .rsp = m.regs .rsp + BitVec.ofNat 64 (8 * rs.length) ∧
      (∀ (k : Nat) (inside : k < rs.length), (run m (rs.map .pop)).regs rs[k] =
        load 64 m.memory (m.regs .rsp + BitVec.ofNat 64 (8 * k))) ∧
      ∀ r ∉ rs, r ≠ .rsp → (run m (rs.map .pop)).regs r = m.regs r := by
  induction rs generalizing m with
  | nil =>
    refine ⟨rfl, ?_, fun k inside => absurd inside (Nat.not_lt_zero k), fun _ _ _ => rfl⟩
    rw [List.length_nil, Nat.mul_zero, BitVec.add_zero]
    rfl
  | cons first rs inductionHypothesis =>
    have other : Reg.rsp ∉ rs := fun member => noRsp (List.mem_cons_of_mem first member)
    have notRsp : Reg.rsp ≠ first := fun same => noRsp (same ▸ List.mem_cons_self)
    obtain ⟨fresh, rest⟩ := List.nodup_cons.mp different
    obtain ⟨memory, pointer, words, kept⟩ := inductionHypothesis (exec m (.pop first)) other rest
    have top : (exec m (.pop first)).regs .rsp = m.regs .rsp + 8#64 := by
      simp only [exec, Function.update_of_ne notRsp, Function.update_self]
    have step : run m ((first :: rs).map .pop) = run (exec m (.pop first)) (rs.map .pop) := rfl
    rw [step]
    refine ⟨memory, ?_, fun k inside => ?_, fun r outside notPointer => ?_⟩
    · rw [pointer, top, BitVec.add_assoc, List.length_cons, Nat.mul_succ, Nat.add_comm,
        BitVec.ofNat_add]
    · cases k with
      | zero =>
        rw [List.getElem_cons_zero, kept first fresh notRsp.symm, Nat.mul_zero, BitVec.add_zero]
        simp only [exec, Function.update_self]
      | succ k =>
        rw [List.getElem_cons_succ, words k (Nat.lt_of_succ_lt_succ inside), top, BitVec.add_assoc,
          Nat.mul_succ, Nat.add_comm, BitVec.ofNat_add]
        rfl
    · have notFirst : r ≠ first := fun same => outside (same ▸ List.mem_cons_self)
      rw [kept r (fun member => outside (List.mem_cons_of_mem first member)) notPointer]
      simp only [exec, Function.update_of_ne notFirst, Function.update_of_ne notPointer]

end X64
