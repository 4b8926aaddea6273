/-
This file proves that the console shows the last 25 lines of its output.

The output is split into lines with no regard to the screen: a line ends at a
newline or with its 80th character. `Shows` says that the screen is a window onto
the last lines of that text with the cursor at the end of the unfinished one, and
each character sent keeps it: the scroll after the last cell and the one before a
newline both make the row for the line that begins.
-/

import M12.Console
import M12.Library.LineWindow

namespace M12

namespace Console

open LineWindow

/-! ### Cells -/

/-- The character byte of a cell. -/
def character (c : Console) (i : Nat) : BitVec 8 := (c.vgaMemory i).setWidth 8

theorem setWidth_cellOf (c : Console) (byte : BitVec 8) : (c.cellOf byte).setWidth 8 = byte := by
  refine BitVec.eq_of_getLsbD_eq fun bit inside => ?_
  rw [BitVec.getLsbD_setWidth, cellOf, BitVec.getLsbD_or, BitVec.getLsbD_signExtend,
    BitVec.getLsbD_shiftLeft, decide_eq_true inside, decide_eq_true (show bit < 16 by omega),
    if_pos inside]
  simp

theorem character_writeCell (c : Console) (i : Nat) (byte : BitVec 8) (j : Nat) :
    (c.writeCell i (c.cellOf byte)).character j = if j = i then byte else c.character j := by
  show BitVec.setWidth 8 (Function.update c.vgaMemory i (c.cellOf byte) j) = _
  rw [Function.update_apply]
  split_ifs with here
  · exact setWidth_cellOf c byte
  · rfl

/-! ### Scrolling -/

theorem memory_congr (c : Console) {first second : Nat → BitVec 16}
    (same : ∀ i, first i = second i) :
    { c with vgaMemory := first } = { c with vgaMemory := second } := by
  rw [funext same]

/-- A row of the copy takes its cells from the row below. -/
theorem scrollRow_eq (c : Console) (y : Nat) :
    c.scrollRow (y + 1) = { c with vgaMemory := fun i =>
      if y * 80 ≤ i ∧ i < y * 80 + 80 then c.vgaMemory (i + 80) else c.vgaMemory i } := by
  have cells (count : Nat) (bound : count ≤ 80) : (List.range count).foldl
      (fun c x => c.writeCell ((y + 1 - 1) * vgaWidth + x) (c.vgaMemory ((y + 1) * vgaWidth + x)))
        c = { c with vgaMemory := fun i =>
          if y * 80 ≤ i ∧ i < y * 80 + count then c.vgaMemory (i + 80) else c.vgaMemory i } := by
    induction count with
    | zero => exact memory_congr c fun i => (if_neg (by omega)).symm
    | succ count inductionHypothesis =>
      rw [List.range_succ, List.foldl_append, inductionHypothesis (by omega), List.foldl_cons,
        List.foldl_nil, Nat.add_sub_cancel, vgaWidth]
      refine memory_congr c fun i => ?_
      simp only [Function.update_apply]
      by_cases here : i = y * 80 + count
      · rw [if_pos here, if_neg (by omega), if_pos (by omega)]
        exact congrArg c.vgaMemory (by omega)
      · rw [if_neg here]
        exact if_congr (by omega) rfl rfl
  exact cells 80 (by omega)

theorem scrollRows_eq (c : Console) (count : Nat) :
    (List.range' 1 count).foldl scrollRow c = { c with vgaMemory := (fun i =>
      if i < count * 80 then c.vgaMemory (i + 80) else c.vgaMemory i) } := by
  induction count with
  | zero => exact memory_congr c fun i => (if_neg (by omega)).symm
  | succ count inductionHypothesis =>
    rw [List.range'_concat, List.foldl_append, inductionHypothesis, List.foldl_cons,
      List.foldl_nil, Nat.one_mul, Nat.add_comm 1 count, scrollRow_eq]
    refine memory_congr c fun i => ?_
    simp only
    by_cases here : count * 80 ≤ i ∧ i < count * 80 + 80
    · rw [if_pos here, if_neg (by omega), if_pos (by omega)]
    · rw [if_neg here]
      exact if_congr (by omega) rfl rfl

/-- A loop that writes a run of cells, each with a value the cells do not bear on. -/
theorem writeCells_eq (c : Console) {value : Console → BitVec 16}
    (kept : ∀ memory, value { c with vgaMemory := memory } = value c) (start count : Nat) :
    (List.range count).foldl (fun c x => c.writeCell (start + x) (value c)) c =
      { c with vgaMemory := fun i =>
        if start ≤ i ∧ i < start + count then value c else c.vgaMemory i } := by
  induction count with
  | zero => exact memory_congr c fun i => (if_neg (by omega)).symm
  | succ count inductionHypothesis =>
    rw [List.range_succ, List.foldl_append, inductionHypothesis, List.foldl_cons, List.foldl_nil]
    refine memory_congr c fun i => ?_
    rw [Function.update_apply]
    by_cases here : i = start + count
    · rw [if_pos here, if_pos (by omega)]
      exact kept _
    · rw [if_neg here]
      exact if_congr (by omega) rfl rfl

theorem blankRow_eq (c : Console) (count : Nat) :
    (List.range count).foldl
        (fun c x => c.writeCell ((vgaHeight - 1) * vgaWidth + x) (c.cellOf space)) c =
      { c with vgaMemory := fun i =>
        if 1920 ≤ i ∧ i < 1920 + count then c.cellOf space else c.vgaMemory i } :=
  writeCells_eq c (fun _ => rfl) 1920 count

/-- `scroll` moves every row up by one and blanks the last. -/
theorem scroll_eq (c : Console) :
    c.scroll = { c with vgaMemory := fun i =>
      if i < 1920 then c.vgaMemory (i + 80)
      else if i < 2000 then c.cellOf space else c.vgaMemory i } := by
  rw [scroll, scrollRows_eq, blankRow_eq, vgaHeight, vgaWidth]
  refine memory_congr c fun i => ?_
  by_cases copied : i < 1920
  · rw [if_neg (by omega), if_pos copied]
    exact if_pos copied
  · by_cases blank : i < 2000
    · rw [if_pos (by omega), if_neg copied, if_pos blank]
      rfl
    · rw [if_neg (by omega), if_neg copied, if_neg blank]
      exact if_neg copied

theorem character_scroll (c : Console) {row column : Nat} (rowInside : row < 25)
    (columnInside : column < 80) :
    c.scroll.character (row * 80 + column) =
      if row + 1 < 25 then c.character ((row + 1) * 80 + column) else space := by
  rw [character, scroll_eq]
  simp only
  by_cases next : row + 1 < 25
  · rw [if_pos next, if_pos (by omega), character,
      show row * 80 + column + 80 = (row + 1) * 80 + column by omega]
  · rw [if_neg next, if_neg (by omega), if_pos (by omega), setWidth_cellOf]

/-! ### The cursor -/

/-- The position the two cursor registers hold. -/
def position (c : Console) : BitVec 16 :=
  (c.crtcData cursorLowReg).setWidth 16 ||| (c.crtcData cursorHighReg).setWidth 16 <<< 8

theorem vgaGetCursorPosition_eq (c : Console) :
    c.vgaGetCursorPosition = ({ c with crtcIndex := cursorHighReg }, c.position) := by
  rw [vgaGetCursorPosition, position]
  simp only [BitVec.zero_or]
  rfl

theorem vgaGetCursor_eq (c : Console) :
    c.vgaGetCursor =
      ({ c with crtcIndex := cursorHighReg }, c.position.toNat % 80, c.position.toNat / 80) := by
  rw [vgaGetCursor, position]
  simp only [BitVec.zero_or]
  rfl

/-- A position sent in two bytes is read back. -/
theorem join_bytes (position : BitVec 16) :
    ((position &&& 0xFF#16).setWidth 8).setWidth 16 |||
      ((position >>> 8 &&& 0xFF#16).setWidth 8).setWidth 16 <<< 8 = position := by
  refine BitVec.eq_of_getLsbD_eq fun bit inside => ?_
  have mask (index : Nat) : (0xFF#16).getLsbD index = decide (index < 8) := by
    rw [show 0xFF#16 = BitVec.ofNat 16 (2 ^ 8 - 1) from rfl, BitVec.getLsbD_ofNat,
      Nat.testBit_two_pow_sub_one]
    by_cases low : index < 8
    · rw [decide_eq_true low, decide_eq_true (show index < 16 by omega), Bool.true_and]
    · rw [decide_eq_false low, Bool.and_false]
  simp only [BitVec.getLsbD_or, BitVec.getLsbD_setWidth, BitVec.getLsbD_shiftLeft,
    BitVec.getLsbD_and, BitVec.getLsbD_ushiftRight, mask]
  by_cases low : bit < 8
  · simp [low, inside]
  · simp [low, inside, show bit - 8 < 16 by omega, show bit - 8 < 8 by omega,
      show 8 + (bit - 8) = bit by omega]

/-- `VGA_SetCursor` clamps the row and the column to the screen. -/
theorem toNat_position_vgaSetCursor_int (c : Console) (x y : Int) :
    (c.vgaSetCursor x y).position.toNat =
      (max 0 (min y 24)).toNat * 80 + (max 0 (min x 79)).toNat := by
  have clamp (value : Int) (limit : Nat) :
      (if (if value < 0 then 0 else value) ≥ ((limit + 1 : Nat) : Int) then
        ((limit + 1 : Nat) : Int) - 1 else if value < 0 then 0 else value) =
        max 0 (min value limit) := by
    split_ifs <;> omega
  have placed : (c.vgaSetCursor x y).position =
      BitVec.ofInt 16 (max 0 (min y (24 : Nat)) * (vgaWidth : Nat) + max 0 (min x (79 : Nat))) := by
    rw [← clamp y 24, ← clamp x 79]
    exact join_bytes _
  rw [placed, vgaWidth, BitVec.toNat_ofInt]
  omega

/-- A cursor set by a row and a column that are not negative. -/
theorem toNat_position_vgaSetCursor (c : Console) (column row : Nat) :
    (c.vgaSetCursor column row).position.toNat = min row 24 * 80 + min column 79 := by
  rw [toNat_position_vgaSetCursor_int]
  omega

@[simp] theorem character_vgaSetCursor (c : Console) (x y : Int) (i : Nat) :
    (c.vgaSetCursor x y).character i = c.character i := rfl

theorem position_scroll (c : Console) : c.scroll.position = c.position := by
  rw [scroll_eq]
  rfl

/-! ### What the text is -/

/-- A tab counts as four spaces. -/
def spaces (byte : BitVec 8) : List (BitVec 8) :=
  if byte = tab then List.replicate 4 space else [byte]

/-- A line ends at a newline or with its 80th character. -/
def textStep (text : Text (BitVec 8)) (byte : BitVec 8) : Text (BitVec 8) :=
  if byte = newline then text.endLine else text.write 80 byte

/-- The output split into lines. -/
def consoleText (output : List (BitVec 8)) : Text (BitVec 8) :=
  (output.flatMap spaces).foldl textStep ⟨[], []⟩

/-- The characters sent one after the other. -/
def putcRun (c : Console) (output : List (BitVec 8)) : Console := output.foldl vgaPutc c

/-- The screen is the window onto the last 25 lines of the text. -/
def ShowsLines (c : Console) (text : Text (BitVec 8)) : Prop :=
  ∀ row < 25, ∀ column < 80,
    c.character (row * 80 + column) = cell space 25 text.lines row column

/-- The screen is that window, and the cursor stands at the end of the unfinished line. -/
structure Shows (c : Console) (text : Text (BitVec 8)) : Prop where
  fits : text.current.length < 80
  cursor : c.position.toNat = lastRow 25 text.lines * 80 + text.current.length
  lines : ShowsLines c text

/-! ### Rows -/

theorem lastRow_le (text : Text (BitVec 8)) : lastRow 25 text.lines ≤ 24 := by
  rw [lastRow]
  omega

theorem lastRow_put (text : Text (BitVec 8)) (byte : BitVec 8) :
    lastRow 25 (text.put byte).lines = lastRow 25 text.lines := by
  rw [lastRow, lastRow, Text.length_lines, Text.length_lines]
  rfl

theorem lastRow_endLine (text : Text (BitVec 8)) :
    lastRow 25 text.endLine.lines = min (lastRow 25 text.lines + 1) 24 := by
  rw [lastRow, lastRow, Text.lines_endLine, List.length_append, List.length_singleton,
    Text.length_lines]
  omega

theorem length_endLine (text : Text (BitVec 8)) : text.endLine.current.length = 0 := rfl

section Lines

variable {c : Console} {text : Text (BitVec 8)} (lines : ShowsLines c text)
include lines

/-- Moving the cursor shows nothing new. -/
theorem ShowsLines.move (x y : Int) : ShowsLines (c.vgaSetCursor x y) text := lines

theorem ShowsLines.put (fits : text.current.length < 80) (byte : BitVec 8) :
    ShowsLines (c.writeCell (lastRow 25 text.lines * 80 + text.current.length) (c.cellOf byte))
      (text.put byte) := by
  intro row rowInside column columnInside
  rw [character_writeCell, cell_put _ _ _ rowInside, lines row rowInside column columnInside]
  exact if_congr (by omega) rfl rfl

theorem ShowsLines.endLine_room (room : lastRow 25 text.lines < 24) :
    ShowsLines c text.endLine := by
  intro row rowInside column columnInside
  rw [lastRow, Text.length_lines] at room
  rw [lines row rowInside column columnInside, Text.lines_endLine,
    cell_endLine_of_room _ (by rw [Text.length_lines]; omega)]

theorem ShowsLines.endLine_scroll (full : ¬ lastRow 25 text.lines < 24) :
    ShowsLines c.scroll text.endLine := by
  intro row rowInside column columnInside
  rw [lastRow, Text.length_lines] at full
  rw [character_scroll c rowInside columnInside, Text.lines_endLine,
    cell_endLine_of_full _ (by rw [Text.length_lines]; omega) rowInside]
  split_ifs with next
  · exact lines (row + 1) next column columnInside
  · rfl

end Lines

/-! ### One character -/

section Putc

variable {c : Console} {text : Text (BitVec 8)} (shows : Shows c text)
include shows

/-- The cursor of a screen that shows a text is on the screen. -/
theorem Shows.position_lt : ¬ c.position.toNat ≥ vgaWidth * vgaHeight := by
  have cursor := shows.cursor
  have fits := shows.fits
  have row := lastRow_le text
  rw [vgaWidth, vgaHeight]
  omega

/-- A newline goes to the start of the next row, which a scroll makes at the bottom. -/
theorem Shows.putc_newline (putSpace : Console → Console) :
    Shows (putcBody putSpace c newline) text.endLine := by
  have cursor := shows.cursor
  have fits := shows.fits
  have row : c.position.toNat / vgaWidth = lastRow 25 text.lines := by
    rw [vgaWidth]
    omega
  rw [putcBody, vgaGetCursorPosition_eq]
  simp only [if_neg shows.position_lt, if_true, row]
  by_cases room : lastRow 25 text.lines < 24
  · rw [if_neg (show ¬ lastRow 25 text.lines ≥ vgaHeight - 1 by rw [vgaHeight]; omega)]
    have moved := toNat_position_vgaSetCursor { c with crtcIndex := cursorHighReg } 0
      (lastRow 25 text.lines + 1)
    refine ⟨by rw [length_endLine]; omega, ?_, (shows.lines.endLine_room room).move _ _⟩
    rw [lastRow_endLine, length_endLine]
    exact moved
  · have bottom : lastRow 25 text.lines = 24 := by
      have row := lastRow_le text
      omega
    rw [if_pos (show lastRow 25 text.lines ≥ vgaHeight - 1 by rw [vgaHeight]; omega)]
    have scrolled : ShowsLines (scroll { c with crtcIndex := cursorHighReg }) text.endLine :=
      ShowsLines.endLine_scroll shows.lines room
    generalize scroll { c with crtcIndex := cursorHighReg } = moved at scrolled ⊢
    refine ⟨by rw [length_endLine]; omega, ?_, scrolled.move _ _⟩
    rw [lastRow_endLine, length_endLine, bottom]
    exact toNat_position_vgaSetCursor moved 0 24

/-- Any other character goes into the cell under the cursor; after the last cell of a row the
line is finished. -/
theorem Shows.putc_write (putSpace : Console → Console) {byte : BitVec 8}
    (notNewline : byte ≠ newline) (notTab : byte ≠ tab) (notBackspace : byte ≠ backspace) :
    Shows (putcBody putSpace c byte) (text.write 80 byte) := by
  have cursor := shows.cursor
  have fits := shows.fits
  have row := lastRow_le text
  have next : (c.position + 1#16).toNat = c.position.toNat + 1 := by
    rw [BitVec.toNat_add, BitVec.toNat_ofNat]
    omega
  have written : ShowsLines (writeCell { c with crtcIndex := cursorHighReg } c.position.toNat
      (cellOf { c with crtcIndex := cursorHighReg } byte)) (text.put byte) := by
    rw [cursor]
    exact ShowsLines.put shows.lines fits byte
  rw [putcBody, vgaGetCursorPosition_eq]
  simp only [if_neg shows.position_lt, if_neg notNewline, if_neg notTab, if_neg notBackspace, next]
  generalize writeCell { c with crtcIndex := cursorHighReg } c.position.toNat
    (cellOf { c with crtcIndex := cursorHighReg } byte) = placed at written ⊢
  have moved := toNat_position_vgaSetCursor placed ((c.position.toNat + 1) % 80)
    ((c.position.toNat + 1) / 80)
  have width : (text.put byte).current.length = text.current.length + 1 := by
    rw [Text.put, List.length_append, List.length_singleton]
  rw [Text.write, width]
  by_cases ends : text.current.length + 1 = 80
  · rw [if_pos ends]
    by_cases room : lastRow 25 text.lines < 24
    · rw [if_neg (show ¬ c.position.toNat + 1 ≥ vgaWidth * vgaHeight by
        rw [vgaWidth, vgaHeight]; omega)]
      have ended := written.endLine_room (by rw [lastRow_put]; exact room)
      refine ⟨by rw [length_endLine]; omega, moved.trans ?_, ended.move _ _⟩
      rw [lastRow_endLine, lastRow_put, length_endLine]
      omega
    · rw [if_pos (show c.position.toNat + 1 ≥ vgaWidth * vgaHeight by
        rw [vgaWidth, vgaHeight]; omega)]
      have ended := (written.move ((c.position.toNat + 1) % 80 : Nat)
        ((c.position.toNat + 1) / 80 : Nat)).endLine_scroll (by rw [lastRow_put]; exact room)
      refine ⟨by rw [length_endLine]; omega, ?_, ended⟩
      rw [position_scroll, lastRow_endLine, lastRow_put, length_endLine]
      refine moved.trans ?_
      omega
  · rw [if_neg ends, if_neg (show ¬ c.position.toNat + 1 ≥ vgaWidth * vgaHeight by
      rw [vgaWidth, vgaHeight]; omega)]
    refine ⟨by rw [width]; omega, moved.trans ?_, written.move _ _⟩
    rw [lastRow_put, width]
    omega

/-- A tab is as many spaces. -/
theorem Shows.putc_spaces (count : Nat) :
    Shows ((List.range count).foldl (fun c _ => putcBody id c space) c)
      ((List.replicate count space).foldl textStep text) := by
  induction count with
  | zero => exact shows
  | succ count inductionHypothesis =>
    rw [List.range_succ, List.foldl_append, List.foldl_cons, List.foldl_nil,
      List.replicate_succ', List.foldl_append, List.foldl_cons, List.foldl_nil, textStep,
      if_neg (by decide)]
    exact inductionHypothesis.putc_write id (by decide) (by decide) (by decide)

/-- One character sent is one step of the text. -/
theorem Shows.putc {byte : BitVec 8} (notBackspace : byte ≠ backspace) :
    Shows (c.vgaPutc byte) ((spaces byte).foldl textStep text) := by
  rw [vgaPutc, spaces]
  by_cases isTab : byte = tab
  · have indexed : Shows { c with crtcIndex := cursorHighReg } text :=
      ⟨shows.fits, shows.cursor, shows.lines⟩
    rw [if_pos isTab, isTab, putcBody, vgaGetCursorPosition_eq]
    simp only [if_neg shows.position_lt]
    rw [if_neg (by decide), if_pos trivial]
    exact indexed.putc_spaces 4
  · rw [if_neg isTab, List.foldl_cons, List.foldl_nil, textStep]
    by_cases isNewline : byte = newline
    · rw [if_pos isNewline, isNewline]
      exact shows.putc_newline _
    · rw [if_neg isNewline]
      exact shows.putc_write _ isNewline isTab notBackspace

end Putc

/-! ### Clearing the screen -/

theorem vgaClear_eq (c : Console) :
    c.vgaClear = { c with vgaMemory := (fun i =>
      if i < 2000 then 0x0F20#16 else c.vgaMemory i) } := by
  have cells := @writeCells_eq c (fun _ => 0x0F20#16) (fun _ => rfl) 0 2000
  simp only [Nat.zero_add, Nat.zero_le, true_and] at cells
  exact cells

theorem vgaGetCursor_home (c : Console) : (c.vgaSetCursor 0 0).vgaGetCursor.2 = (0, 0) := by
  have home : (c.vgaSetCursor 0 0).position.toNat = 0 := toNat_position_vgaSetCursor c 0 0
  rw [vgaGetCursor_eq, home]

/-- `VGA_Clear` and `VGA_SetCursor(0, 0)` leave a cleared screen with the cursor at its start. -/
theorem cleared_vgaClear (c : Console) :
    (∀ i < 2000, (c.vgaClear.vgaSetCursor 0 0).character i = space) ∧
      (c.vgaClear.vgaSetCursor 0 0).vgaGetCursor.2 = (0, 0) := by
  refine ⟨fun i inside => ?_, vgaGetCursor_home c.vgaClear⟩
  rw [character_vgaSetCursor, character, vgaClear_eq]
  simp only [if_pos inside]
  decide

/-! ### The whole output -/

theorem Shows.run {c : Console} {text : Text (BitVec 8)} (shows : Shows c text)
    {output : List (BitVec 8)} (noBackspace : backspace ∉ output) :
    Shows (c.putcRun output) ((output.flatMap spaces).foldl textStep text) := by
  induction output generalizing c text with
  | nil => exact shows
  | cons byte rest inductionHypothesis =>
    rw [List.mem_cons, not_or] at noBackspace
    rw [List.flatMap_cons, List.foldl_append]
    exact inductionHypothesis (shows.putc (Ne.symm noBackspace.1)) noBackspace.2

/-- A cleared screen with the cursor at its start shows the text of nothing. -/
theorem shows_cleared {c : Console} (cleared : ∀ i < 2000, c.character i = space)
    (home : c.vgaGetCursor.2 = (0, 0)) : Shows c ⟨[], []⟩ := by
  refine ⟨by rw [List.length_nil]; omega, ?_, fun row rowInside column columnInside => ?_⟩
  · rw [vgaGetCursor_eq, Prod.mk.injEq] at home
    show c.position.toNat = 0
    omega
  · rw [cleared _ (by omega)]
    exact (cell_empty space row column).symm

/-- The console shows the last 25 lines of its output. From a cleared screen with the cursor at its
start, after any characters but backspaces, each row of the screen is a line of the last 25,
padded with spaces, and the cursor is where the unfinished line ends. -/
theorem console_shows_last_lines (c : Console) (cleared : ∀ i < 2000, c.character i = space)
    (home : c.vgaGetCursor.2 = (0, 0)) (output : List (BitVec 8))
    (noBackspace : backspace ∉ output) :
    (∀ row < 25, ∀ column < 80, (c.putcRun output).character (row * 80 + column) =
      cell space 25 (consoleText output).lines row column) ∧
    (c.putcRun output).vgaGetCursor.2 =
      ((consoleText output).current.length, lastRow 25 (consoleText output).lines) := by
  have shows : Shows (c.putcRun output) (consoleText output) :=
    (shows_cleared cleared home).run noBackspace
  have fits := shows.fits
  have cursor := shows.cursor
  refine ⟨shows.lines, ?_⟩
  rw [vgaGetCursor_eq, Prod.mk.injEq]
  omega

/-- Two lines on a screen that was just cleared. -/
theorem console_shows_last_lines_cleared :
    ((vgaClear ⟨fun _ => 0#16, 0#8, fun _ => 0#8, 0x0F#8⟩).vgaSetCursor 0 0 |>.putcRun
      [0x48#8, newline, 0x69#8]).vgaGetCursor.2 = (1, 1) := by
  obtain ⟨cleared, home⟩ := cleared_vgaClear ⟨fun _ => 0#16, 0#8, fun _ => 0#8, 0x0F#8⟩
  rw [(console_shows_last_lines _ cleared home _ (by decide)).2]
  decide

end Console

end M12
