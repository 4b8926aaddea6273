/-
This file models the printing functions of `kernel/vga.c`.

A `char *` is the sequence of the bytes that follow it, so the same functions read
a string in memory, a literal and a buffer on the stack. The strings are taken to
lie outside the screen. A loop over a string ends where the string does, which
need not be anywhere, so the loops run for a number of rounds and say whether they
have come to their end. `vkprintf` also says which bytes of its format it has read.
-/

import M12.Console
import M12.Library.ByteMemory

namespace M12

open ByteMemory

/-- What a `const char *` points to: byte `i` lies `i` bytes after it. -/
abbrev CString := Nat → BitVec 8

/-- The string at an address. -/
def stringAt (memory : Memory) (address : BitVec 64) : CString :=
  fun i => memory (address + BitVec.ofNat 64 i)

/-- A buffer that holds these characters and the terminator. -/
def buffer (characters : List (BitVec 8)) : CString := fun i => characters.getD i 0#8

/-- The characters of a string literal. -/
def literal (text : String) : List (BitVec 8) :=
  text.toList.map fun character => BitVec.ofNat 8 character.toNat

/-- `strcmp`, for at most `fuel` rounds. -/
def strcmp : Nat → CString → CString → Option Int
  | 0, _, _ => none
  | fuel + 1, s1, s2 =>
    if s1 0 ≠ 0#8 ∧ s1 0 = s2 0 then strcmp fuel (fun i => s1 (i + 1)) fun i => s2 (i + 1)
    else some ((s1 0).toNat - (s2 0).toNat)

/-- The slots of a `va_list`, from the next argument on. -/
abbrev Arguments := Nat → BitVec 64

/-- The arguments after the next one. -/
def Arguments.rest (args : Arguments) : Arguments := fun i => args (i + 1)

namespace Console

/-- `CURSOR_START_REG`. -/
def cursorStartReg : BitVec 8 := 0x0A#8
/-- `CURSOR_END_REG`. -/
def cursorEndReg : BitVec 8 := 0x0B#8

/-- `LIGHT_GREEN`. -/
def lightGreen : BitVec 32 := 0xA#32
/-- `LIGHT_RED`. -/
def lightRed : BitVec 32 := 0xC#32

/-! ### Strings -/

/-- `rmline`. -/
def rmline (c : Console) : Console :=
  let (c, _, y) := c.vgaGetCursor
  let c := c.vgaSetCursor 0 y
  let c := (List.range vgaWidth).foldl (fun c _ => c.vgaPutc space) c
  c.vgaSetCursor 0 y

/-- `while (*str) VGA_Putc(*str++)`, for at most `fuel` rounds. -/
def putString : Nat → Console → CString → Console × Bool
  | 0, c, _ => (c, false)
  | fuel + 1, c, str =>
    if str 0 = 0#8 then (c, true) else putString fuel (c.vgaPutc (str 0)) fun i => str (i + 1)

/-- `kprint`, and whether it has returned. -/
def kprint (fuel : Nat) (c : Console) (str : CString) : Console × Bool :=
  -- The literal has four characters and a terminator, so the comparison ends in five rounds.
  if strcmp 5 str (buffer (literal "\x1b[2k")) = some 0 then (c.rmline, true)
  else putString fuel c str

/-! ### Numbers -/

/-- The decimal digits of a number, the last one first, at most `room` of them. -/
def digits : Nat → Nat → List (BitVec 8)
  | 0, _ => []
  | room + 1, num =>
    if num > 0 then BitVec.ofNat 8 (48 + num % 10) :: digits room (num / 10) else []

/-- What `kprint_num` and `kprint_unsigned` put into `buf` for a number without its sign. -/
def digitBuffer (num : Nat) : List (BitVec 8) :=
  if num = 0 then literal "0" else digits 15 num

/-- `kprint_num`, and whether it has returned. The last loop reverses the buffer. -/
def kprintNum (fuel : Nat) (c : Console) (num : BitVec 32) : Console × Bool :=
  if num.toInt = -2147483648 then c.kprint fuel (buffer (literal "-2147483648"))
  else
    let buf := digitBuffer num.toInt.natAbs
    let buf := if num.toInt < 0 then buf ++ literal "-" else buf
    c.kprint fuel (buffer buf.reverse)

/-- `kprint_unsigned`, and whether it has returned. The last loop reverses the buffer. -/
def kprintUnsigned (fuel : Nat) (c : Console) (num : BitVec 32) : Console × Bool :=
  c.kprint fuel (buffer (digitBuffer num.toNat).reverse)

/-- The hexadecimal digits of a number, put in front of one another. -/
def hexDigits (num : Nat) (behind : List (BitVec 8)) : List (BitVec 8) :=
  if num > 0 then
    let digit := num % 16
    hexDigits (num / 16)
      (BitVec.ofNat 8 (if digit < 10 then 48 + digit else 97 + digit - 10) :: behind)
  else behind
termination_by num

/-- The string `vkprintf` builds in `hex_buf`. -/
def hexBuffer (num : BitVec 64) : List (BitVec 8) :=
  if num.toNat = 0 then literal "0" else hexDigits num.toNat []

/-! ### vkprintf -/

/-- `'%'`. -/
def percent : BitVec 8 := 0x25#8

/-- The `switch` of `vkprintf`: the console, whether the calls in it have returned, and the
arguments left. -/
def directive (memory : Memory) (fuel : Nat) (c : Console) (kind : BitVec 8) (args : Arguments) :
    (Console × Bool) × Arguments :=
  if kind = 0x64#8 then (c.kprintNum fuel ((args 0).setWidth 32), args.rest)
  else if kind = 0x73#8 then (c.kprint fuel (stringAt memory (args 0)), args.rest)
  else if kind = 0x63#8 then ((c.vgaPutc ((args 0).setWidth 8), true), args.rest)
  else if kind = 0x78#8 then (c.kprint fuel (buffer (hexBuffer (args 0))), args.rest)
  else if kind = 0x75#8 then (c.kprintUnsigned fuel ((args 0).setWidth 32), args.rest)
  else (((c.vgaPutc percent).vgaPutc kind, true), args)

/-- What `vkprintf` has done: the console, the offsets of the bytes of the format it has read, and
whether it has returned. -/
structure Printed where
  console : Console
  reads : List Nat
  finished : Bool

/-- The loop of `vkprintf`, with `p` as an offset, for at most `fuel` rounds. -/
def vkprintfLoop (memory : Memory) : Nat → Console → CString → Arguments → Nat → Printed
  | 0, c, _, _, _ => ⟨c, [], false⟩
  | fuel + 1, c, format, args, p =>
    if format p = 0#8 then ⟨c, [p], true⟩
    else if format p = percent then
      let ((c, returned), args) := directive memory fuel c (format (p + 1)) args
      if returned then
        let rest := vkprintfLoop memory fuel c format args (p + 1 + 1)
        { rest with reads := p :: (p + 1) :: rest.reads }
      else ⟨c, [p, p + 1], false⟩
    else
      let rest := vkprintfLoop memory fuel (c.vgaPutc (format p)) format args (p + 1)
      { rest with reads := p :: rest.reads }

/-- `vkprintf`. -/
def vkprintf (memory : Memory) (fuel : Nat) (c : Console) (format : CString) (args : Arguments) :
    Printed := vkprintfLoop memory fuel c format args 0

/-- `kprintf`. -/
def kprintf (memory : Memory) (fuel : Nat) (c : Console) (format : CString) (args : Arguments) :
    Console := (vkprintf memory fuel c format args).console

/-- `SetColor`. -/
def setColor (c : Console) (newColor : BitVec 32) : Console :=
  { c with color := newColor.setWidth 8 }

/-- `kprintcolor`. -/
def kprintcolor (memory : Memory) (fuel : Nat) (c : Console) (new : BitVec 32) (format : CString)
    (args : Arguments) : Console :=
  let temp := c.color.setWidth 32
  let c := c.setColor new
  let c := (vkprintf memory fuel c format args).console
  c.setColor temp

/-! ### The shape of the cursor -/

/-- `VGA_SetCursorStyle`. -/
def vgaSetCursorStyle (c : Console) (startScanline endScanline : BitVec 8) : Console :=
  let c := c.outb vgaCtrlReg cursorStartReg
  let c := c.outb vgaDataReg startScanline
  let c := c.outb vgaCtrlReg cursorEndReg
  c.outb vgaDataReg endScanline

/-- `VGA_EnableCursor`. -/
def vgaEnableCursor (c : Console) : Console :=
  let c := c.vgaSetCursorStyle 14#8 15#8
  let c := c.outb vgaCtrlReg cursorStartReg
  let start := c.inb vgaDataReg
  if start &&& 0x20#8 ≠ 0#8 then c.outb vgaDataReg (start &&& ~~~0x20#8) else c

/-- `VGA_DisableCursor`. -/
def vgaDisableCursor (c : Console) : Console :=
  let c := c.outb vgaCtrlReg cursorStartReg
  c.outb vgaDataReg 0x20#8

/-! ### Calls -/

/-- `Init_VGA`. The message at its end takes no arguments. -/
def initVga (memory : Memory) (fuel : Nat) (c : Console) (args : Arguments) : Console :=
  let c := c.vgaClear
  let c := c.setColor lightGreen
  let c := c.vgaEnableCursor
  let c := c.vgaSetCursor 0 0
  kprintcolor memory fuel c lightRed
    (buffer (literal "[DEBUG] VGA initialized successfully\n")) args

/-- A call of the console's users. A call that prints finds the memory as it is at the time. -/
inductive ConsoleCall where
  | putc (character : BitVec 8)
  | kprint (str : CString)
  | kprintf (memory : Memory) (format : CString) (args : Arguments)
  | kprintcolor (memory : Memory) (new : BitVec 32) (format : CString) (args : Arguments)
  | rmline
  | setCursor (x y : Int)
  | enableCursor
  | disableCursor

/-- The console after one call. -/
def consoleStep (fuel : Nat) (c : Console) : ConsoleCall → Console
  | .putc character => c.vgaPutc character
  | .kprint str => (c.kprint fuel str).1
  | .kprintf memory format args => c.kprintf memory fuel format args
  | .kprintcolor memory new format args => c.kprintcolor memory fuel new format args
  | .rmline => c.rmline
  | .setCursor x y => c.vgaSetCursor x y
  | .enableCursor => c.vgaEnableCursor
  | .disableCursor => c.vgaDisableCursor

/-- The console after a sequence of calls. -/
def consoleRun (fuel : Nat) (c : Console) (calls : List ConsoleCall) : Console :=
  calls.foldl (consoleStep fuel) c

end Console

end M12
