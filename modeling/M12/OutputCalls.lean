/-
This file models the printing functions by the calls they make.

What a printing function does to the screen, it does through `VGA_Putc` and
`rmline`. Which of these it calls, and in what order, depends on its arguments
alone, so the calls can be listed without the screen. The numbers go through their
buffers here, which start out with any contents. Making the listed calls one after
the other gives the screen the function leaves.
-/

import M12.DigitBuffers

namespace M12

open ByteMemory

/-- A call that changes the screen. -/
inductive Output where
  | putc (character : BitVec 8)
  | rmline
deriving DecidableEq

/-- The calls that put a text on the screen. -/
def putAll (text : List (BitVec 8)) : List Output := text.map Output.putc

/-- The buffers on the stack when `vkprintf` comes to a directive. -/
structure Frame where
  buf : DigitBuffer
  hexBuf : HexBuffer

/-! ### The calls -/

/-- `while (*str) VGA_Putc(*str++)`, for at most `fuel` rounds. -/
def putStringOutput : Nat → CString → List Output × Bool
  | 0, _ => ([], false)
  | fuel + 1, str =>
    if str 0 = 0#8 then ([], true)
    else
      let (output, returned) := putStringOutput fuel fun i => str (i + 1)
      (.putc (str 0) :: output, returned)

/-- `kprint`, and whether it has returned. -/
def kprintOutput (fuel : Nat) (str : CString) : List Output × Bool :=
  if strcmp 5 str (buffer (literal "\x1b[2k")) = some 0 then ([.rmline], true)
  else putStringOutput fuel str

/-- `kprint` of a string that was built in a buffer. An access outside the buffer is no return. -/
def kprintBuilt (fuel : Nat) : Option (List (BitVec 8)) → List Output × Bool
  | some text => kprintOutput fuel (buffer text)
  | none => ([], false)

/-- `kprint_num`. -/
def kprintNumOutput (fuel : Nat) (buf : DigitBuffer) (num : BitVec 32) : List Output × Bool :=
  kprintBuilt fuel (kprintNumText buf num)

/-- `kprint_unsigned`. -/
def kprintUnsignedOutput (fuel : Nat) (buf : DigitBuffer) (num : BitVec 32) :
    List Output × Bool := kprintBuilt fuel (kprintUnsignedText buf num)

/-- The `switch` of `vkprintf`, and the arguments left. -/
def directiveOutput (memory : Memory) (fuel : Nat) (frame : Frame) (kind : BitVec 8)
    (args : Arguments) : (List Output × Bool) × Arguments :=
  if kind = 0x64#8 then (kprintNumOutput fuel frame.buf ((args 0).setWidth 32), args.rest)
  else if kind = 0x73#8 then (kprintOutput fuel (stringAt memory (args 0)), args.rest)
  else if kind = 0x63#8 then (([.putc ((args 0).setWidth 8)], true), args.rest)
  else if kind = 0x78#8 then (kprintBuilt fuel (hexText frame.hexBuf (args 0)), args.rest)
  else if kind = 0x75#8 then
    (kprintUnsignedOutput fuel frame.buf ((args 0).setWidth 32), args.rest)
  else (([.putc Console.percent, .putc kind], true), args)

/-- The loop of `vkprintf`, with `p` as an offset, for at most `fuel` rounds. -/
def vkprintfOutputLoop (memory : Memory) :
    Nat → (Nat → Frame) → CString → Arguments → Nat → List Output × Bool
  | 0, _, _, _, _ => ([], false)
  | fuel + 1, frames, format, args, p =>
    if format p = 0#8 then ([], true)
    else if format p = Console.percent then
      let ((output, returned), args) := directiveOutput memory fuel (frames p) (format (p + 1)) args
      if returned then
        let rest := vkprintfOutputLoop memory fuel frames format args (p + 1 + 1)
        (output ++ rest.1, rest.2)
      else (output, false)
    else
      let rest := vkprintfOutputLoop memory fuel frames format args (p + 1)
      (.putc (format p) :: rest.1, rest.2)

/-- The calls of `vkprintf`, and whether it has returned. -/
def vkprintfOutput (memory : Memory) (fuel : Nat) (frames : Nat → Frame) (format : CString)
    (args : Arguments) : List Output × Bool := vkprintfOutputLoop memory fuel frames format args 0

/-! ### The screen after the calls -/

namespace Console

/-- The console after one of the calls. -/
def emit (c : Console) : Output → Console
  | .putc character => c.vgaPutc character
  | .rmline => c.rmline

/-- The console after all of them. -/
def emitAll (c : Console) (output : List Output) : Console := output.foldl emit c

theorem emitAll_append (c : Console) (first second : List Output) :
    c.emitAll (first ++ second) = (c.emitAll first).emitAll second := List.foldl_append

theorem putString_eq_emitAll (fuel : Nat) (c : Console) (str : CString) :
    putString fuel c str =
      (c.emitAll (putStringOutput fuel str).1, (putStringOutput fuel str).2) := by
  induction fuel generalizing c str with
  | zero => rfl
  | succ fuel inductionHypothesis =>
    rw [putString, putStringOutput]
    split_ifs
    · rfl
    · exact inductionHypothesis (c.vgaPutc (str 0)) fun i => str (i + 1)

theorem kprint_eq_emitAll (fuel : Nat) (c : Console) (str : CString) :
    c.kprint fuel str = (c.emitAll (kprintOutput fuel str).1, (kprintOutput fuel str).2) := by
  rw [kprint, kprintOutput]
  split_ifs
  · rfl
  · exact putString_eq_emitAll fuel c str

/-- Whatever the buffers held, the calls of a directive are those of the screen's model. -/
theorem directive_eq_emitAll (memory : Memory) (fuel : Nat) (frame : Frame) (c : Console)
    (kind : BitVec 8) (args : Arguments) :
    directive memory fuel c kind args =
      ((c.emitAll (directiveOutput memory fuel frame kind args).1.1,
        (directiveOutput memory fuel frame kind args).1.2),
        (directiveOutput memory fuel frame kind args).2) := by
  rw [directive, directiveOutput, kprintNumOutput, kprintUnsignedOutput, kprintNumText_eq,
    kprintUnsignedText_eq, hexText_eq, kprintNum_eq, kprintUnsigned]
  split_ifs
  · rw [kprint_eq_emitAll, kprintBuilt]
  · rw [kprint_eq_emitAll]
  · rfl
  · rw [kprint_eq_emitAll, kprintBuilt]
  · rw [kprint_eq_emitAll, kprintBuilt]
  · rfl

theorem vkprintfLoop_eq_emitAll (memory : Memory) (fuel : Nat) (frames : Nat → Frame)
    (c : Console) (format : CString) (args : Arguments) (p : Nat) :
    (vkprintfLoop memory fuel c format args p).console =
        c.emitAll (vkprintfOutputLoop memory fuel frames format args p).1 ∧
      (vkprintfLoop memory fuel c format args p).finished =
        (vkprintfOutputLoop memory fuel frames format args p).2 := by
  induction fuel generalizing c args p with
  | zero => exact ⟨rfl, rfl⟩
  | succ fuel inductionHypothesis =>
    rw [vkprintfLoop, vkprintfOutputLoop]
    by_cases ends : format p = 0#8
    · rw [if_pos ends, if_pos ends]
      exact ⟨rfl, rfl⟩
    by_cases directed : format p = percent
    · rw [if_neg ends, if_neg ends, if_pos directed, if_pos directed,
        directive_eq_emitAll memory fuel (frames p)]
      generalize directiveOutput memory fuel (frames p) (format (p + 1)) args = done
      obtain ⟨⟨output, returned⟩, left⟩ := done
      cases returned with
      | false => exact ⟨rfl, rfl⟩
      | true =>
        obtain ⟨console, finished⟩ := inductionHypothesis (c.emitAll output) left (p + 1 + 1)
        exact ⟨console.trans (emitAll_append c output _).symm, finished⟩
    · rw [if_neg ends, if_neg ends, if_neg directed, if_neg directed]
      exact inductionHypothesis (c.vgaPutc (format p)) args (p + 1)

/-- `vkprintf` leaves the screen its calls leave. -/
theorem vkprintf_eq_emitAll (memory : Memory) (fuel : Nat) (frames : Nat → Frame) (c : Console)
    (format : CString) (args : Arguments) :
    (vkprintf memory fuel c format args).console =
        c.emitAll (vkprintfOutput memory fuel frames format args).1 ∧
      (vkprintf memory fuel c format args).finished =
        (vkprintfOutput memory fuel frames format args).2 :=
  vkprintfLoop_eq_emitAll memory fuel frames c format args 0

end Console

end M12
