/-
This file models `disk_load` of `boot/disk.asm`, the boot sector's one call of the
BIOS disk service.

The routine is 16-bit code. It saves its caller's registers with `pusha`, asks the
BIOS for DH sectors of drive DL, and afterwards compares the number of sectors the
BIOS has read with the byte at `[esp + 10]` of the frame. That byte is the low half
of the saved DX, the drive number; the count it means is one byte further up. The
address is a 32-bit one, so it also takes in the upper half of ESP, which 16-bit
pushes leave alone. What `disk_load` detects is a read of DL sectors.
-/

import M12.Library.SegmentStack

namespace M12

open SegmentStack

/-! ### The machine -/

/-- The general registers, the stack segment and `DISK_ERROR_CODE`. -/
structure RealMachine where
  ax : BitVec 16
  cx : BitVec 16
  dx : BitVec 16
  bx : BitVec 16
  esp : BitVec 32
  bp : BitVec 16
  si : BitVec 16
  di : BitVec 16
  stack : Segment
  diskErrorCode : BitVec 8

/-- The low byte of a register, as AL is of AX. -/
def lowByte (register : BitVec 16) : BitVec 8 := register.setWidth 8
/-- The high byte of a register, as AH is of AX. -/
def highByte (register : BitVec 16) : BitVec 8 := register.extractLsb' 8 8
/-- `mov` to a low byte register. -/
def setLowByte (register : BitVec 16) (value : BitVec 8) : BitVec 16 := highByte register ++ value
/-- `mov` to a high byte register. -/
def setHighByte (register : BitVec 16) (value : BitVec 8) : BitVec 16 := value ++ lowByte register

/-- What `int 0x13` returns: the carry flag, the status and the number of sectors read. -/
structure DiskReply where
  carry : Bool
  ah : BitVec 8
  al : BitVec 8

namespace RealMachine

/-- SP, the low half of ESP. -/
def sp (m : RealMachine) : BitVec 16 := m.esp.setWidth 16

/-- A 16-bit push or pop moves SP and keeps the upper half of ESP. -/
def withSp (m : RealMachine) (sp : BitVec 16) : RealMachine :=
  { m with esp := m.esp.extractLsb' 16 16 ++ sp }

/-- The words `pusha` pushes, the last one lowest. -/
def saved (m : RealMachine) : List (BitVec 16) :=
  [m.ax, m.cx, m.dx, m.bx, m.sp, m.bp, m.si, m.di]

/-- `pusha` -/
def pusha (m : RealMachine) : RealMachine :=
  { m.withSp (below m.sp 8) with stack := pushWords m.stack m.sp m.saved }

/-- `pusha` raises an exception when one of its words would straddle the end of the segment. -/
def PushaRaises (m : RealMachine) : Prop := m.sp.toNat % 2 = 1 ∧ m.sp.toNat < 16

instance (m : RealMachine) : Decidable m.PushaRaises := inferInstanceAs (Decidable (_ ∧ _))

/-- `popa`, which skips the SP that `pusha` has saved. -/
def popa (m : RealMachine) : RealMachine :=
  { m.withSp (m.sp + 16#16) with
    di := word m.stack m.sp
    si := word m.stack (m.sp + 2#16)
    bp := word m.stack (m.sp + 4#16)
    bx := word m.stack (m.sp + 8#16)
    dx := word m.stack (m.sp + 10#16)
    cx := word m.stack (m.sp + 12#16)
    ax := word m.stack (m.sp + 14#16) }

/-- The byte at a 32-bit address in the stack segment; an address above its limit raises an
exception. -/
def stackByte (m : RealMachine) (address : BitVec 32) : Option (BitVec 8) :=
  if address < 0x10000#32 then some (m.stack (address.setWidth 16)) else none

/-- `int 0x13`, which keeps the other registers and the stack. -/
def int13 (m : RealMachine) (reply : DiskReply) : RealMachine :=
  { m with ax := reply.ah ++ reply.al }

end RealMachine

/-! ### The routine -/

/-- Where a run of `disk_load` ends: back at the address `ip`, in `disk_loop`, or in an
exception. -/
inductive DiskOutcome where
  | returned (m : RealMachine) (ip : BitVec 16)
  | looping (m : RealMachine)
  | exception

/-- `disk_error` -/
def diskError (m : RealMachine) : DiskOutcome :=
  .looping { m with diskErrorCode := highByte m.ax }

/-- `sectors_error` -/
def sectorsError (m : RealMachine) : DiskOutcome := .looping m

/-- `disk_load` up to its `int 0x13`. -/
def diskRequest (m : RealMachine) : RealMachine :=
  let m := m.pusha
  let m := { m with ax := setHighByte m.ax 0x02#8 }
  let m := { m with ax := setLowByte m.ax (highByte m.dx) }
  let m := { m with cx := setLowByte m.cx 0x02#8 }
  let m := { m with cx := setHighByte m.cx (highByte m.cx ^^^ highByte m.cx) }
  { m with dx := setHighByte m.dx (highByte m.dx ^^^ highByte m.dx) }

/-- `disk_load` -/
def diskLoad (m : RealMachine) (reply : DiskReply) : DiskOutcome :=
  if m.PushaRaises then .exception
  else
    let m := (diskRequest m).int13 reply
    if reply.carry then diskError m
    else
      match m.stackByte (m.esp + 10#32) with
      | none => .exception
      | some requested =>
        if lowByte m.ax ≠ requested then sectorsError m
        else
          let m := m.popa
          .returned (m.withSp (m.sp + 2#16)) (word m.stack m.sp)

/-- The state `call disk_load` leaves: the return address is a word inside the stack segment. -/
structure DiskCall extends RealMachine where
  pushed : toRealMachine.sp ≠ 0xFFFF#16

/-- The routine returns to its caller with every register restored if the BIOS reports success and
the requested number of sectors, and otherwise ends in `disk_loop`. -/
def DetectsShortRead (m : RealMachine) (reply : DiskReply) : Prop :=
  if reply.carry = false ∧ reply.al = highByte m.dx then
    ∃ stack, diskLoad m reply =
      .returned { m.withSp (m.sp + 2#16) with stack := stack } (word m.stack m.sp)
  else ∃ halted, diskLoad m reply = .looping halted

/-! ### Halves of registers -/

theorem lowByte_append (high low : BitVec 8) : lowByte (high ++ low) = low := by
  refine BitVec.eq_of_getLsbD_eq fun bit inside => ?_
  rw [lowByte, BitVec.getLsbD_setWidth, decide_eq_true inside, Bool.true_and,
    BitVec.getLsbD_append, if_pos inside]

/-- The byte at a word's offset is its low byte. -/
theorem lowByte_word (segment : Segment) (offset : BitVec 16) :
    lowByte (word segment offset) = segment offset := lowByte_append ..

namespace RealMachine

theorem sp_withSp (m : RealMachine) (sp : BitVec 16) : (m.withSp sp).sp = sp := by
  refine BitVec.eq_of_getLsbD_eq fun bit inside => ?_
  rw [RealMachine.sp, withSp, BitVec.getLsbD_setWidth, decide_eq_true inside, Bool.true_and,
    BitVec.getLsbD_append, if_pos inside]

theorem upper_withSp (m : RealMachine) (sp : BitVec 16) :
    (m.withSp sp).esp.extractLsb' 16 16 = m.esp.extractLsb' 16 16 := by
  refine BitVec.eq_of_getLsbD_eq fun bit inside => ?_
  rw [withSp, BitVec.getLsbD_extractLsb', BitVec.getLsbD_append, if_neg (by omega),
    Nat.add_sub_cancel_left, decide_eq_true inside, Bool.true_and]

/-- Writing back the stack pointer that was there. -/
theorem withSp_self (m : RealMachine) : m.withSp m.sp = m := by
  have same : m.esp.extractLsb' 16 16 ++ m.sp = m.esp := by
    refine BitVec.eq_of_getLsbD_eq fun bit inside => ?_
    rw [BitVec.getLsbD_append, sp, BitVec.getLsbD_setWidth, BitVec.getLsbD_extractLsb']
    split_ifs with low
    · rw [decide_eq_true low, Bool.true_and]
    · rw [decide_eq_true (by omega), Bool.true_and, show 16 + (bit - 16) = bit by omega]
  rw [withSp, same]

end RealMachine

/-! ### The frame of pusha -/

theorem word_pusha (m : RealMachine) {k : Nat} (inside : k < 8) :
    word m.pusha.stack (below m.sp (k + 1)) = m.saved.get ⟨k, inside⟩ := by
  have fits : 2 * m.saved.length < 2 ^ 16 := show 2 * 8 < 2 ^ 16 by decide
  exact word_pushWords m.stack m.sp fits inside

section Frame

/- A machine whose stack pointer is still the one `pusha` has left. -/
variable {m n : RealMachine} (esp : n.esp = m.pusha.esp)
include esp

theorem sp_frame : n.sp = below m.sp 8 := by
  rw [RealMachine.sp, esp]
  exact m.sp_withSp (below m.sp 8)

theorem upper_frame : n.esp.extractLsb' 16 16 = m.esp.extractLsb' 16 16 := by
  rw [esp]
  exact m.upper_withSp (below m.sp 8)

/-- `[esp + 10]` is the low byte of the saved DX, if it lies in the segment at all. -/
theorem stackByte_frame (stack : n.stack = m.pusha.stack) :
    n.stackByte (n.esp + 10#32) =
      if m.pusha.esp + 10#32 < 0x10000#32 then some (lowByte m.dx) else none := by
  have offset : (n.esp + 10#32).setWidth 16 = below m.sp (2 + 1) := by
    rw [BitVec.setWidth_add _ _ (by decide)]
    show n.sp + 10#16 = below m.sp (2 + 1)
    rw [sp_frame esp]
    exact below_add m.sp (show 5 ≤ 8 by decide)
  have low : n.stack (below m.sp (2 + 1)) = lowByte m.dx := by
    rw [stack, ← lowByte_word m.pusha.stack, word_pusha m (show 2 < 8 by decide)]
    rfl
  rw [RealMachine.stackByte, offset, low, esp]

/-- `popa` undoes `pusha`. -/
theorem popa_frame (stack : n.stack = m.pusha.stack) :
    n.popa = { m with stack := n.stack, diskErrorCode := n.diskErrorCode } := by
  have slot {j : Nat} (inside : j < 8) (offset : BitVec 16)
      (place : offset = BitVec.ofNat 16 (2 * j)) :
      word n.stack (n.sp + offset) = m.saved.get ⟨7 - j, show 7 - j < 8 by omega⟩ := by
    rw [sp_frame esp, place, below_add m.sp (show j ≤ 8 by omega),
      show 8 - j = 7 - j + 1 by omega, stack]
    exact word_pusha m (show 7 - j < 8 by omega)
  have bottom := slot (show 0 < 8 by decide) 0#16 rfl
  rw [BitVec.add_zero] at bottom
  have top : (n.withSp (n.sp + 16#16)).esp = m.esp := by
    have same := congrArg RealMachine.esp m.withSp_self
    have up : n.sp + 16#16 = m.sp := by
      have back := below_add m.sp (show 8 ≤ 8 by decide)
      rw [sp_frame esp]
      exact back.trans (BitVec.sub_zero m.sp)
    rw [RealMachine.withSp, upper_frame esp, up]
    exact same
  rw [RealMachine.popa, bottom, slot (show 1 < 8 by decide) 2#16 rfl,
    slot (show 2 < 8 by decide) 4#16 rfl, slot (show 4 < 8 by decide) 8#16 rfl,
    slot (show 5 < 8 by decide) 10#16 rfl, slot (show 6 < 8 by decide) 12#16 rfl,
    slot (show 7 < 8 by decide) 14#16 rfl, top]
  rfl

end Frame

/-- The return address is above the frame. -/
theorem word_return (m : RealMachine) : word m.pusha.stack m.sp = word m.stack m.sp := by
  have kept (offset : BitVec 16) (near : offset.toNat < 2) :
      m.pusha.stack (m.sp + offset) = m.stack (m.sp + offset) := by
    refine pushWords_of_far m.stack ?_
    rw [BitVec.add_comm, BitVec.add_sub_cancel, show m.saved.length = 8 from rfl]
    omega
  have first := kept 0#16 (by decide)
  rw [BitVec.add_zero] at first
  rw [word, word, first, kept 1#16 (by decide)]

/-! ### What the routine detects -/

/-- The byte compared lies in the stack segment and tells the requested count from others. -/
def ComparesCount (m : RealMachine) (reply : DiskReply) : Prop :=
  m.pusha.esp + 10#32 < 0x10000#32 ∧ (reply.al = lowByte m.dx ↔ reply.al = highByte m.dx)

/-- The ways a run of `disk_load` goes: it meets an exception, it reads the byte and returns, or it
ends in `disk_loop`. -/
theorem diskLoad_cases (call : DiskCall) (reply : DiskReply) :
    ((call.PushaRaises ∨ reply.carry = false ∧ ¬ call.pusha.esp + 10#32 < 0x10000#32) ∧
      diskLoad call.toRealMachine reply = .exception) ∨
    (¬ call.PushaRaises ∧ reply.carry = false ∧ call.pusha.esp + 10#32 < 0x10000#32 ∧
      reply.al = lowByte call.dx ∧
      ∃ stack, diskLoad call.toRealMachine reply =
        .returned { call.withSp (call.sp + 2#16) with stack := stack }
          (word call.stack call.sp)) ∨
    (¬ call.PushaRaises ∧ (reply.carry = true ∨ call.pusha.esp + 10#32 < 0x10000#32 ∧
        reply.al ≠ lowByte call.dx) ∧
      ∃ halted, diskLoad call.toRealMachine reply = .looping halted) := by
  obtain ⟨m, -⟩ := call
  have requested := stackByte_frame (n := (diskRequest m).int13 reply) rfl rfl
  have read : lowByte ((diskRequest m).int13 reply).ax = reply.al := lowByte_append ..
  have popped := popa_frame (n := (diskRequest m).int13 reply) rfl rfl
  rw [diskLoad]
  simp only [requested, read, popped]
  by_cases raises : m.PushaRaises
  · rw [if_pos raises]
    exact Or.inl ⟨Or.inl raises, rfl⟩
  · rw [if_neg raises]
    cases failed : reply.carry with
    | true => exact Or.inr (Or.inr ⟨raises, Or.inl rfl, _, rfl⟩)
    | false =>
      rw [if_neg Bool.false_ne_true]
      by_cases inside : m.pusha.esp + 10#32 < 0x10000#32
      · by_cases count : reply.al = lowByte m.dx
        · refine Or.inr (Or.inl ⟨raises, rfl, inside, count, m.pusha.stack, ?_⟩)
          simp only [if_pos inside, count, ne_eq, not_true_eq_false, if_false]
          exact congrArg (DiskOutcome.returned _) (word_return m)
        · refine Or.inr (Or.inr ⟨raises, Or.inr ⟨inside, count⟩, ?_⟩)
          simp only [if_pos inside, count, ne_eq, not_false_eq_true, if_true]
          exact ⟨_, rfl⟩
      · refine Or.inl ⟨Or.inr ⟨rfl, inside⟩, ?_⟩
        simp only [if_neg inside]

section Verdicts

/- One way a run can end, and what the request makes of it. -/
variable {m : RealMachine} {reply : DiskReply}

theorem not_detects_of_exception (result : diskLoad m reply = .exception) :
    ¬ DetectsShortRead m reply := by
  rw [DetectsShortRead, result]
  split_ifs
  · rintro ⟨stack, ⟨⟩⟩
  · rintro ⟨halted, ⟨⟩⟩

theorem detects_iff_of_returned {stack : Segment}
    (result : diskLoad m reply =
      .returned { m.withSp (m.sp + 2#16) with stack := stack } (word m.stack m.sp)) :
    DetectsShortRead m reply ↔ reply.carry = false ∧ reply.al = highByte m.dx := by
  rw [DetectsShortRead, result]
  split_ifs with complete
  · exact iff_of_true ⟨stack, rfl⟩ complete
  · refine iff_of_false ?_ complete
    rintro ⟨halted, ⟨⟩⟩

theorem detects_iff_of_looping {halted : RealMachine}
    (result : diskLoad m reply = .looping halted) :
    DetectsShortRead m reply ↔ ¬ (reply.carry = false ∧ reply.al = highByte m.dx) := by
  rw [DetectsShortRead, result]
  split_ifs with complete
  · refine iff_of_false ?_ (not_not.mpr complete)
    rintro ⟨stack, ⟨⟩⟩
  · exact iff_of_true ⟨halted, rfl⟩ complete

end Verdicts

/-- `disk_load` detects short reads exactly when the byte it compares does. For every drive, count
and register state, and every outcome the BIOS reports, it returns with all registers restored on
success with the requested count and ends in `disk_loop` otherwise, if and only if `pusha` has
room, and the BIOS reports an error or the byte compared lies in the stack segment and the number
read equals the drive number just when it equals the count. -/
theorem diskLoad_detects_iff (call : DiskCall) (reply : DiskReply) :
    DetectsShortRead call.toRealMachine reply ↔ ¬ call.PushaRaises ∧
      (reply.carry = true ∨ ComparesCount call.toRealMachine reply) := by
  rw [ComparesCount]
  rcases diskLoad_cases call reply with ⟨reason, result⟩ |
    ⟨room, carry, inside, same, stack, result⟩ | ⟨room, reason, halted, result⟩
  · refine iff_of_false (not_detects_of_exception result) ?_
    rintro ⟨room, detected⟩
    rcases reason with raises | ⟨carry, outside⟩
    · exact room raises
    · rcases detected with failed | compares
      · exact Bool.noConfusion (carry.symm.trans failed)
      · exact outside compares.1
  · -- The byte compared is the number read, so the count has to be that number as well.
    rw [detects_iff_of_returned result, carry]
    constructor
    · exact fun requested => ⟨room, Or.inr ⟨inside, iff_of_true same requested.2⟩⟩
    · rintro ⟨-, failed | compares⟩
      · exact Bool.noConfusion failed
      · exact ⟨rfl, compares.2.mp same⟩
  · rw [detects_iff_of_looping result]
    rcases reason with failed | ⟨inside, other⟩
    · refine iff_of_true (fun success => ?_) ⟨room, Or.inl failed⟩
      exact Bool.noConfusion (success.1.symm.trans failed)
    · constructor
      · intro short
        refine ⟨room, ?_⟩
        cases carry : reply.carry with
        | true => exact Or.inl rfl
        | false =>
          exact Or.inr ⟨inside, iff_of_false other fun requested => short ⟨carry, requested⟩⟩
      · rintro ⟨-, failed | compares⟩ ⟨carry, requested⟩
        · exact Bool.noConfusion (carry.symm.trans failed)
        · exact other (compares.2.mpr requested)

/-- The boot sector's call from a floppy disk: drive 0 and 128 sectors. -/
def floppyCall : DiskCall where
  ax := 0x1000#16
  cx := 0#16
  dx := 0x8000#16
  bx := 0#16
  esp := 0x7FFE#32
  bp := 0#16
  si := 0#16
  di := 0#16
  stack := fun _ => 0#8
  diskErrorCode := 0#8
  pushed := by decide

/-- All 128 sectors are read and `disk_load` halts. -/
theorem diskLoad_rejects_full_read :
    ¬ DetectsShortRead floppyCall.toRealMachine ⟨false, 0#8, 128#8⟩ := by
  rcases diskLoad_cases floppyCall ⟨false, 0#8, 128#8⟩ with ⟨-, exception⟩ | ⟨-, -, -, same, -⟩ |
    ⟨-, -, halted, looping⟩
  · exact not_detects_of_exception exception
  · exact absurd same (by decide)
  · exact (detects_iff_of_looping looping).not.mpr (not_not.mpr ⟨rfl, by decide⟩)

end M12
