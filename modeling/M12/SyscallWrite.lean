/-
This file settles what `SYS_WRITE` reports.

The handler sends the characters of the buffer up to the first NUL, or as many as
it was asked for when there is none among them. What it returns is the number it
was asked for in both cases.
-/

import Mathlib.Data.List.TakeWhile
import M12.Printing
import M12.SyscallEntry

namespace M12

open ByteMemory

/-! ### The handler -/

/-- The loop of `sys_write_handler` from `i` on, with what `VGA_Putc` does to a state. The buffer
is taken to lie outside the screen. -/
def writeLoop {State : Type} (putc : State → BitVec 8 → State) (str : CString) (count i : Nat)
    (state : State) : State :=
  if i < count ∧ str i ≠ 0#8 then writeLoop putc str count (i + 1) (putc state (str i)) else state
termination_by count - i

/-- `sys_write_handler`: the state it leaves, and what it returns. It looks at none of `fd`, `arg4`
and `arg5`. -/
def sysWriteHandler {State : Type} (putc : State → BitVec 8 → State) (memory : Memory)
    (state : State) (_fd buffer count _arg4 _arg5 : BitVec 64) : State × BitVec 64 :=
  (writeLoop putc (stringAt memory buffer) count.toNat 0 state, count)

/-! ### What is written -/

/-- The characters of a string before its first NUL, `count` of them at most. -/
def writtenText (str : CString) (count : Nat) : List (BitVec 8) :=
  ((List.range count).map str).takeWhile (· ≠ 0#8)

theorem writeLoop_eq {State : Type} (putc : State → BitVec 8 → State) (str : CString)
    (remaining i : Nat) (state : State) :
    writeLoop putc str (i + remaining) i state =
      (((List.range' i remaining).map str).takeWhile (· ≠ 0#8)).foldl putc state := by
  induction remaining generalizing i state with
  | zero =>
    rw [writeLoop, if_neg fun both => Nat.lt_irrefl i both.1]
    rfl
  | succ remaining inductionHypothesis =>
    rw [writeLoop, List.range'_succ, List.map_cons, List.takeWhile_cons]
    by_cases ends : str i = 0#8
    · rw [if_neg fun both => both.2 ends, if_neg (by simpa using ends)]
      rfl
    · rw [if_pos ⟨by omega, ends⟩, if_pos (by simpa using ends), List.foldl_cons,
        ← inductionHypothesis (i + 1) (putc state (str i)), Nat.add_right_comm]
      rfl

/-- The characters sent are the characters before the first NUL, in their order. -/
theorem sysWriteHandler_sends {State : Type} (putc : State → BitVec 8 → State) (memory : Memory)
    (state : State) (fd buffer count arg4 arg5 : BitVec 64) :
    (sysWriteHandler putc memory state fd buffer count arg4 arg5).1 =
      (writtenText (stringAt memory buffer) count.toNat).foldl putc state := by
  have loop := writeLoop_eq putc (stringAt memory buffer) count.toNat 0 state
  rw [Nat.zero_add, ← List.range_eq_range'] at loop
  exact loop

/-- No character is left out exactly when there is no NUL among them. -/
theorem length_writtenText_iff (str : CString) (count : Nat) :
    (writtenText str count).length = count ↔ ∀ i < count, str i ≠ 0#8 := by
  have all : ((List.range count).map str).length = count := by
    rw [List.length_map, List.length_range]
  have same : (writtenText str count).length = count ↔
      writtenText str count = (List.range count).map str := by
    refine ⟨fun length => ?_, fun text => by rw [text, all]⟩
    exact (List.takeWhile_prefix _).eq_of_length (length.trans all.symm)
  rw [same, writtenText, List.takeWhile_eq_self_iff]
  simp only [List.mem_map, List.mem_range, forall_exists_index, and_imp,
    forall_apply_eq_imp_iff₂, decide_eq_true_eq]

/-! ### What is reported -/

/-- `SYS_WRITE` comes to the handler, which sends the characters before the first NUL, `count` of
them at most, and returns how many it has sent. The state can be the console or a record of the
characters sent. -/
structure ReportsWritten (memory : Memory) (fd buffer count arg4 arg5 : BitVec 64) : Prop where
  dispatched : syscallHandler sysWrite fd buffer count = .write fd buffer count
  sent : ∀ {State : Type} (putc : State → BitVec 8 → State) (state : State),
    (sysWriteHandler putc memory state fd buffer count arg4 arg5).1 =
      (writtenText (stringAt memory buffer) count.toNat).foldl putc state
  reported : ∀ {State : Type} (putc : State → BitVec 8 → State) (state : State),
    (sysWriteHandler putc memory state fd buffer count arg4 arg5).2.toNat =
      (writtenText (stringAt memory buffer) count.toNat).length

/-- The count that is reported is right exactly when the buffer has no NUL before it. -/
theorem sysWrite_reports_iff (memory : Memory) (fd buffer count arg4 arg5 : BitVec 64) :
    ReportsWritten memory fd buffer count arg4 arg5 ↔
      ∀ i < count.toNat, stringAt memory buffer i ≠ 0#8 := by
  rw [← length_writtenText_iff]
  constructor
  · intro reports
    exact (reports.reported (fun (_ : Unit) _ => ()) ()).symm
  · intro length
    exact ⟨rfl, fun putc state => sysWriteHandler_sends putc memory state fd buffer count arg4 arg5,
      fun putc state => length.symm⟩

/-- One character is asked for, and there is none. -/
theorem sysWrite_reports_more :
    ¬ ReportsWritten (fun _ => 0#8) 1#64 0x200000#64 1#64 0#64 0#64 := by
  intro reports
  have reported := reports.reported (fun sent character => sent ++ [character]) []
  exact absurd reported (by decide)

end M12
