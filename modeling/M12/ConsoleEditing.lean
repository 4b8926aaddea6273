/-
This file proves what the console shows when characters are taken back.

With backspaces the screen is no window onto the lines of its output: a backspace
at the start of a row goes to the last cell of the row above, whatever the length
of the line there was. It is a strip of cells, and a stack: a newline pushes the
blanks up to the end of the row, a backspace pops one cell, and a scroll drops the
80 cells at the bottom of the stack. So what was typed can be taken back
character by character, and all that is lost are the rows it has scrolled away.
-/

import M12.ConsoleLines
import M12.Library.ScrollStrip

namespace M12

namespace Console

open ScrollStrip

/-! ### The strip -/

/-- One character sent, on the strip of cells before the cursor. -/
def stripStep (strip : List (BitVec 8)) (byte : BitVec 8) : List (BitVec 8) :=
  if byte = newline then newLine space 80 25 strip
  else if byte = tab then puts 80 25 strip (List.replicate 4 space)
  else if byte = backspace then strip.dropLast
  else put 80 25 strip byte

/-- The strip after any characters. -/
def consoleStrip (output : List (BitVec 8)) : List (BitVec 8) := output.foldl stripStep []

/-- The screen is the strip, blank behind its end. -/
def ShowsCells (c : Console) (strip : List (BitVec 8)) : Prop :=
  ∀ i < 2000, c.character i = shown space strip i

/-- The screen is that strip, and the cursor stands at its end. -/
structure ShowsStrip (c : Console) (strip : List (BitVec 8)) : Prop where
  fits : strip.length < 25 * 80
  cursor : c.position.toNat = strip.length
  cells : ShowsCells c strip

section Cells

variable {c : Console} {strip : List (BitVec 8)} (cells : ShowsCells c strip)
include cells

theorem ShowsCells.move (x y : Int) : ShowsCells (c.vgaSetCursor x y) strip := cells

theorem ShowsCells.put (byte : BitVec 8) :
    ShowsCells (c.writeCell strip.length (c.cellOf byte)) (strip ++ [byte]) := by
  intro i inside
  rw [character_writeCell, shown_put, cells i inside]

theorem ShowsCells.blanks (count : Nat) : ShowsCells c (strip ++ List.replicate count space) := by
  intro i inside
  rw [shown_blanks, cells i inside]

theorem ShowsCells.erase :
    ShowsCells (c.writeCell (strip.length - 1) (c.cellOf space)) strip.dropLast := by
  intro i inside
  rw [character_writeCell, shown_dropLast, cells i inside]

/-- A scroll drops the first row. -/
theorem ShowsCells.scroll (fits : strip.length ≤ 25 * 80) :
    ShowsCells c.scroll (strip.drop 80) := by
  intro i inside
  have moved := character_scroll c (show i / 80 < 25 by omega)
    (Nat.mod_lt i (show 0 < 80 by decide))
  rw [show i / 80 * 80 + i % 80 = i by omega,
    show (i / 80 + 1) * 80 + i % 80 = i + 80 by omega] at moved
  rw [moved, shown_drop]
  split_ifs with below
  · exact cells (i + 80) (by omega)
  · rw [shown_of_length_le _ (by omega)]

end Cells

/-! ### One character -/

section Putc

variable {c : Console} {strip : List (BitVec 8)} (shows : ShowsStrip c strip)
include shows

theorem ShowsStrip.position_lt : ¬ c.position.toNat ≥ vgaWidth * vgaHeight := by
  have cursor := shows.cursor
  have fits := shows.fits
  rw [vgaWidth, vgaHeight]
  omega

/-- A newline fills the row with blanks. -/
theorem ShowsStrip.putc_newline (putSpace : Console → Console) :
    ShowsStrip (putcBody putSpace c newline) (newLine space 80 25 strip) := by
  have fits := shows.fits
  have filled : ShowsCells { c with crtcIndex := cursorHighReg }
      (strip ++ List.replicate (80 - strip.length % 80) space) := shows.cells.blanks _
  obtain ⟨row, quotient⟩ : ∃ row, row = c.position.toNat / vgaWidth := ⟨_, rfl⟩
  have above : row = strip.length / 80 := by rw [quotient, shows.cursor, vgaWidth]
  have length : (strip ++ List.replicate (80 - strip.length % 80) space).length =
      (row + 1) * 80 := by
    rw [List.length_append, List.length_replicate]
    omega
  rw [putcBody, vgaGetCursorPosition_eq, newLine]
  simp only [if_neg shows.position_lt, if_true, ← quotient]
  clear quotient
  generalize strip ++ List.replicate (80 - strip.length % 80) space = longer at filled length ⊢
  by_cases room : row < 24
  · have short : longer.length < 25 * 80 := by omega
    rw [if_neg (show ¬ row ≥ vgaHeight - 1 by rw [vgaHeight]; omega), settle_of_room short]
    have moved := toNat_position_vgaSetCursor { c with crtcIndex := cursorHighReg } 0 (row + 1)
    refine ⟨by omega, moved.trans ?_, filled.move _ _⟩
    omega
  · have bottom : row = 24 := by omega
    have full : longer.length = 25 * 80 := by rw [length, bottom]
    have scrolled : ShowsCells (scroll { c with crtcIndex := cursorHighReg }) (longer.drop 80) :=
      ShowsCells.scroll filled (Nat.le_of_eq full)
    rw [if_pos (show row ≥ vgaHeight - 1 by rw [vgaHeight]; omega), settle_of_full full]
    generalize scroll { c with crtcIndex := cursorHighReg } = after at scrolled ⊢
    have moved := toNat_position_vgaSetCursor after 0 24
    refine ⟨by rw [List.length_drop]; omega, moved.trans ?_, scrolled.move _ _⟩
    rw [List.length_drop]
    omega

/-- A character that is no control character goes to the end of the strip. -/
theorem ShowsStrip.putc_write (putSpace : Console → Console) {byte : BitVec 8}
    (notNewline : byte ≠ newline) (notTab : byte ≠ tab) (notBackspace : byte ≠ backspace) :
    ShowsStrip (putcBody putSpace c byte) (put 80 25 strip byte) := by
  have cursor := shows.cursor
  have fits := shows.fits
  have next : (c.position + 1#16).toNat = c.position.toNat + 1 := by
    rw [BitVec.toNat_add, BitVec.toNat_ofNat]
    omega
  have written : ShowsCells (writeCell { c with crtcIndex := cursorHighReg } c.position.toNat
      (cellOf { c with crtcIndex := cursorHighReg } byte)) (strip ++ [byte]) := by
    rw [cursor]
    exact ShowsCells.put shows.cells byte
  have length : (strip ++ [byte]).length = strip.length + 1 := List.length_append
  rw [putcBody, vgaGetCursorPosition_eq, put]
  simp only [if_neg shows.position_lt, if_neg notNewline, if_neg notTab, if_neg notBackspace, next]
  generalize writeCell { c with crtcIndex := cursorHighReg } c.position.toNat
    (cellOf { c with crtcIndex := cursorHighReg } byte) = placed at written ⊢
  generalize strip ++ [byte] = longer at written length ⊢
  have moved := toNat_position_vgaSetCursor placed ((c.position.toNat + 1) % 80)
    ((c.position.toNat + 1) / 80)
  by_cases room : strip.length + 1 < 25 * 80
  · rw [if_neg (show ¬ c.position.toNat + 1 ≥ vgaWidth * vgaHeight by
      rw [vgaWidth, vgaHeight]; omega), settle_of_room (show longer.length < 25 * 80 by omega)]
    refine ⟨by omega, moved.trans ?_, written.move _ _⟩
    omega
  · have scrolled := (written.move ((c.position.toNat + 1) % 80 : Nat)
      ((c.position.toNat + 1) / 80 : Nat)).scroll (by omega)
    rw [if_pos (show c.position.toNat + 1 ≥ vgaWidth * vgaHeight by
      rw [vgaWidth, vgaHeight]; omega), settle_of_full (show longer.length = 25 * 80 by omega)]
    refine ⟨by rw [List.length_drop]; omega, ?_, scrolled⟩
    rw [position_scroll, List.length_drop]
    refine moved.trans ?_
    omega

theorem ShowsStrip.putc_spaces (count : Nat) :
    ShowsStrip ((List.range count).foldl (fun c _ => putcBody id c space) c)
      (puts 80 25 strip (List.replicate count space)) := by
  induction count with
  | zero => exact shows
  | succ count inductionHypothesis =>
    rw [List.range_succ, List.foldl_append, List.foldl_cons, List.foldl_nil,
      List.replicate_succ', puts_concat]
    exact inductionHypothesis.putc_write id (by decide) (by decide) (by decide)

/-- A backspace takes the last cell off, if there is one. -/
theorem ShowsStrip.putc_backspace (putSpace : Console → Console) :
    ShowsStrip (putcBody putSpace c backspace) strip.dropLast := by
  have cursor := shows.cursor
  have fits := shows.fits
  rw [putcBody, vgaGetCursorPosition_eq]
  simp only [if_neg shows.position_lt, if_neg (show backspace ≠ newline by decide),
    if_neg (show backspace ≠ tab by decide), if_true]
  by_cases some : c.position.toNat > 0
  · have before : (c.position - 1#16).toNat = strip.length - 1 := by
      rw [BitVec.toNat_sub_of_le (show 1 ≤ c.position.toNat from some), cursor]
      rfl
    rw [if_pos some, before]
    have moved := toNat_position_vgaSetCursor { c with crtcIndex := cursorHighReg }
      ((strip.length - 1) % 80) ((strip.length - 1) / 80)
    refine ⟨by rw [List.length_dropLast]; omega, moved.trans ?_,
      ShowsCells.erase (shows.cells.move _ _)⟩
    rw [List.length_dropLast]
    omega
  · have empty : strip = [] := List.eq_nil_of_length_eq_zero (by omega)
    subst empty
    rw [if_neg some]
    exact ⟨fits, cursor, shows.cells⟩

/-- One character sent is one step of the strip. -/
theorem ShowsStrip.putc (byte : BitVec 8) : ShowsStrip (c.vgaPutc byte) (stripStep strip byte) := by
  rw [vgaPutc, stripStep]
  by_cases isNewline : byte = newline
  · rw [if_pos isNewline, isNewline]
    exact shows.putc_newline _
  · rw [if_neg isNewline]
    by_cases isTab : byte = tab
    · have indexed : ShowsStrip { c with crtcIndex := cursorHighReg } strip :=
        ⟨shows.fits, shows.cursor, shows.cells⟩
      rw [if_pos isTab, isTab, putcBody, vgaGetCursorPosition_eq]
      simp only [if_neg shows.position_lt]
      rw [if_neg (by decide), if_pos trivial]
      exact indexed.putc_spaces 4
    · rw [if_neg isTab]
      by_cases isBackspace : byte = backspace
      · rw [if_pos isBackspace, isBackspace]
        exact shows.putc_backspace _
      · rw [if_neg isBackspace]
        exact shows.putc_write _ isNewline isTab isBackspace

theorem ShowsStrip.run (output : List (BitVec 8)) :
    ShowsStrip (c.putcRun output) (output.foldl stripStep strip) := by
  induction output generalizing c strip with
  | nil => exact shows
  | cons byte rest inductionHypothesis => exact inductionHypothesis (shows.putc byte)

end Putc

/-! ### Any output -/

theorem showsStrip_cleared {c : Console} (cleared : ∀ i < 2000, c.character i = space)
    (home : c.vgaGetCursor.2 = (0, 0)) : ShowsStrip c [] := by
  refine ⟨by decide, ?_, fun i inside => ?_⟩
  · rw [vgaGetCursor_eq, Prod.mk.injEq] at home
    show c.position.toNat = 0
    omega
  · rw [cleared i inside, shown_of_length_le _ (Nat.zero_le i)]

/-- The console is a strip of cells. From a cleared screen with the cursor at its start, after any
characters, backspaces included, the screen is the strip and the cursor stands at its end. -/
theorem console_shows_strip (c : Console) (cleared : ∀ i < 2000, c.character i = space)
    (home : c.vgaGetCursor.2 = (0, 0)) (output : List (BitVec 8)) :
    (∀ i < 2000, (c.putcRun output).character i = shown space (consoleStrip output) i) ∧
      (c.putcRun output).vgaGetCursor.2 =
        ((consoleStrip output).length % 80, (consoleStrip output).length / 80) := by
  have shows : ShowsStrip (c.putcRun output) (consoleStrip output) :=
    (showsStrip_cleared cleared home).run output
  exact ⟨shows.cells, by rw [vgaGetCursor_eq, shows.cursor]⟩

/-- Two lines, and the second one taken back as far as the end of the row of the first. -/
theorem console_shows_strip_cleared :
    ((vgaClear ⟨fun _ => 0#16, 0#8, fun _ => 0#8, 0x0F#8⟩).vgaSetCursor 0 0 |>.putcRun
      [0x48#8, newline, 0x69#8, backspace, backspace]).vgaGetCursor.2 = (79, 0) := by
  obtain ⟨cleared, home⟩ := cleared_vgaClear ⟨fun _ => 0#16, 0#8, fun _ => 0#8, 0x0F#8⟩
  rw [(console_shows_strip _ cleared home _).2]
  decide

/-! ### Taking back -/

/-- No newline, tab or backspace. -/
def Plain (text : List (BitVec 8)) : Prop :=
  ∀ byte ∈ text, byte ≠ newline ∧ byte ≠ tab ∧ byte ≠ backspace

theorem foldl_stripStep_plain {text : List (BitVec 8)} (plain : Plain text)
    (strip : List (BitVec 8)) : text.foldl stripStep strip = puts 80 25 strip text := by
  induction text generalizing strip with
  | nil => rfl
  | cons byte rest inductionHypothesis =>
    rw [Plain, List.forall_mem_cons] at plain
    obtain ⟨⟨notNewline, notTab, notBackspace⟩, others⟩ := plain
    rw [List.foldl_cons, stripStep, if_neg notNewline, if_neg notTab, if_neg notBackspace,
      inductionHypothesis others]
    rfl

theorem foldl_stripStep_backspaces (strip : List (BitVec 8)) (count : Nat) :
    (List.replicate count backspace).foldl stripStep strip = List.dropLast^[count] strip := by
  induction count generalizing strip with
  | zero => rfl
  | succ count inductionHypothesis =>
    rw [List.replicate_succ, List.foldl_cons, inductionHypothesis, Function.iterate_succ_apply]
    rfl

/-- What was typed can be taken back. After any output, a text without control characters and as
many backspaces leave the screen and the cursor as they were before the text, moved up by the rows
the text has made the screen scroll; these rows are lost. -/
theorem backspaces_take_back (c : Console) (cleared : ∀ i < 2000, c.character i = space)
    (home : c.vgaGetCursor.2 = (0, 0)) (output text : List (BitVec 8)) (plain : Plain text) :
    let before := c.putcRun output
    let after := (before.putcRun text).putcRun (List.replicate text.length backspace)
    let lost := 80 * rowsDropped 80 25 before.position.toNat text.length
    (∀ i < 2000, after.character i =
        if i + lost < 2000 then before.character (i + lost) else space) ∧
      after.position.toNat = before.position.toNat - lost := by
  intro before after lost
  have shows : ShowsStrip before (consoleStrip output) :=
    (showsStrip_cleared cleared home).run output
  have taken := ((shows.run text).run (List.replicate text.length backspace))
  rw [foldl_stripStep_plain plain, foldl_stripStep_backspaces,
    erase_puts (by decide) (by decide) shows.fits] at taken
  have fits := shows.fits
  refine ⟨fun i inside => ?_, ?_⟩
  · rw [taken.cells i inside, shown_drop, ← shows.cursor]
    split_ifs with onScreen
    · exact (shows.cells _ onScreen).symm
    · exact shown_of_length_le _ (by omega)
  · rw [taken.cursor, List.length_drop, ← shows.cursor]

/-- A word behind a prompt on a screen that was just cleared. -/
theorem backspaces_take_back_cleared :
    let before := (vgaClear ⟨fun _ => 0#16, 0#8, fun _ => 0#8, 0x0F#8⟩).vgaSetCursor 0 0 |>.putcRun
      [0x3E#8, space]
    ((before.putcRun [0x6C#8, 0x73#8]).putcRun [backspace, backspace]).position =
      before.position := by
  obtain ⟨cleared, home⟩ := cleared_vgaClear ⟨fun _ => 0#16, 0#8, fun _ => 0#8, 0x0F#8⟩
  intro before
  have two := ((showsStrip_cleared cleared home).run [0x3E#8, space]).cursor
  have cursor : before.position.toNat = 2 := two
  have taken := (backspaces_take_back _ cleared home [0x3E#8, space] [0x6C#8, 0x73#8]
    (by unfold Plain; decide)).2
  refine BitVec.eq_of_toNat_eq (taken.trans ?_)
  show before.position.toNat - 80 * rowsDropped 80 25 before.position.toNat 2 = _
  rw [cursor]
  decide

end Console

end M12
