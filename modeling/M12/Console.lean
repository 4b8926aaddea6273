/-
This file models the console of `kernel/vga.c`.

The screen is the 80 by 25 cells of text memory, a character in the low byte of
each and its colours in the high byte. The cursor's position is held by the
display controller in two registers, which the code reaches through an index port
and a data port.
-/

import Mathlib.Logic.Function.Basic

namespace M12

/-- `VGA_MEMORY`, the index and the data registers of the display controller, and `color`. -/
structure Console where
  vgaMemory : Nat → BitVec 16
  crtcIndex : BitVec 8
  crtcData : BitVec 8 → BitVec 8
  color : BitVec 8

namespace Console

/-- `VGA_WIDTH`. -/
def vgaWidth : Nat := 80
/-- `VGA_HEIGHT`. -/
def vgaHeight : Nat := 25
/-- `VGA_CTRL_REG`. -/
def vgaCtrlReg : BitVec 16 := 0x3D4#16
/-- `VGA_DATA_REG`. -/
def vgaDataReg : BitVec 16 := 0x3D5#16
/-- `CURSOR_HIGH_REG`. -/
def cursorHighReg : BitVec 8 := 0x0E#8
/-- `CURSOR_LOW_REG`. -/
def cursorLowReg : BitVec 8 := 0x0F#8

/-- `'\n'`. -/
def newline : BitVec 8 := 0x0A#8
/-- `'\t'`. -/
def tab : BitVec 8 := 0x09#8
/-- `'\b'`. -/
def backspace : BitVec 8 := 0x08#8
/-- `' '`. -/
def space : BitVec 8 := 0x20#8

/-! ### Ports and memory -/

/-- `outb`, for the two ports of the display controller. -/
def outb (c : Console) (port : BitVec 16) (value : BitVec 8) : Console :=
  if port = vgaCtrlReg then { c with crtcIndex := value }
  else if port = vgaDataReg then
    { c with crtcData := Function.update c.crtcData c.crtcIndex value }
  else c

/-- `inb`, for the two ports of the display controller. -/
def inb (c : Console) (port : BitVec 16) : BitVec 8 :=
  if port = vgaDataReg then c.crtcData c.crtcIndex else c.crtcIndex

/-- `VGA_MEMORY[i] = value`. -/
def writeCell (c : Console) (i : Nat) (value : BitVec 16) : Console :=
  { c with vgaMemory := Function.update c.vgaMemory i value }

/-- `(uint16_t)character | (color << 8)`; a `char` is signed. -/
def cellOf (c : Console) (character : BitVec 8) : BitVec 16 :=
  character.signExtend 16 ||| c.color.setWidth 16 <<< 8

/-! ### The cursor -/

/-- `VGA_SetCursor`. -/
def vgaSetCursor (c : Console) (x y : Int) : Console :=
  let x := if x < 0 then 0 else x
  let x := if x ≥ vgaWidth then (vgaWidth : Int) - 1 else x
  let y := if y < 0 then 0 else y
  let y := if y ≥ vgaHeight then (vgaHeight : Int) - 1 else y
  let position := BitVec.ofInt 16 (y * vgaWidth + x)
  let c := c.outb vgaCtrlReg cursorLowReg
  let c := c.outb vgaDataReg ((position &&& 0xFF#16).setWidth 8)
  let c := c.outb vgaCtrlReg cursorHighReg
  c.outb vgaDataReg ((position >>> 8 &&& 0xFF#16).setWidth 8)

/-- `VGA_GetCursorPosition`. -/
def vgaGetCursorPosition (c : Console) : Console × BitVec 16 :=
  let c := c.outb 0x3D4#16 0x0F#8
  let position := 0#16 ||| (c.inb 0x3D5#16).setWidth 16
  let c := c.outb 0x3D4#16 0x0E#8
  (c, position ||| (c.inb 0x3D5#16).setWidth 16 <<< 8)

/-- `VGA_GetCursor`: the column and the row. -/
def vgaGetCursor (c : Console) : Console × Nat × Nat :=
  let c := c.outb vgaCtrlReg cursorLowReg
  let position := 0#16 ||| (c.inb vgaDataReg).setWidth 16
  let c := c.outb vgaCtrlReg cursorHighReg
  let position := position ||| (c.inb vgaDataReg).setWidth 16 <<< 8
  (c, position.toNat % vgaWidth, position.toNat / vgaWidth)

/-! ### Output -/

/-- One row of the copy in `scroll`. -/
def scrollRow (c : Console) (y : Nat) : Console :=
  (List.range vgaWidth).foldl
    (fun c x => c.writeCell ((y - 1) * vgaWidth + x) (c.vgaMemory (y * vgaWidth + x))) c

/-- `scroll`. -/
def scroll (c : Console) : Console :=
  let c := (List.range' 1 (vgaHeight - 1)).foldl scrollRow c
  (List.range vgaWidth).foldl
    (fun c x => c.writeCell ((vgaHeight - 1) * vgaWidth + x) (c.cellOf space)) c

/-- `VGA_Clear`. -/
def vgaClear (c : Console) : Console :=
  (List.range (vgaWidth * vgaHeight)).foldl (fun c i => c.writeCell i 0x0F20#16) c

/-- The body of `VGA_Putc`, with what it does for each of the four spaces of a tab. -/
def putcBody (putSpace : Console → Console) (c : Console) (character : BitVec 8) : Console :=
  let (c, position) := c.vgaGetCursorPosition
  let (c, position) :=
    if position.toNat ≥ vgaWidth * vgaHeight then c.scroll.vgaGetCursorPosition else (c, position)
  if character = newline then
    let row := position.toNat / vgaWidth
    let (c, row) := if row ≥ vgaHeight - 1 then (c.scroll, vgaHeight - 2) else (c, row)
    c.vgaSetCursor 0 (row + 1)
  else if character = tab then (List.range 4).foldl (fun c _ => putSpace c) c
  else if character = backspace then
    if position.toNat > 0 then
      let position := position - 1#16
      let c := c.vgaSetCursor (position.toNat % vgaWidth) (position.toNat / vgaWidth)
      c.writeCell position.toNat (c.cellOf space)
    else c
  else
    let c := c.writeCell position.toNat (c.cellOf character)
    let position := position + 1#16
    let c := c.vgaSetCursor (position.toNat % vgaWidth) (position.toNat / vgaWidth)
    if position.toNat ≥ vgaWidth * vgaHeight then c.scroll else c

/-- `VGA_Putc`. The call for a space makes no further call. -/
def vgaPutc (c : Console) (character : BitVec 8) : Console :=
  putcBody (fun c => putcBody id c space) c character

end Console

end M12
