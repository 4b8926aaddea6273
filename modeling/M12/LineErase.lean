/-
This file settles what erasing a line does to the other lines.

`rmline` sends 80 spaces from the start of its row. On every row but the last the
80th space only moves the cursor on. On the last row it comes to the last cell of
the screen, and `VGA_Putc` scrolls: the line that was erased moves up with all the
others, and the first row is lost. Nothing shows of that exactly when the rows
above were as blank as the erased one.
-/

import M12.ConsoleBounds
import M12.Rendering

namespace M12

open ByteMemory

namespace Console

/-- The line is blank, the others are as they were, and the cursor is at the start of the line. -/
structure ErasesLine (c after : Console) (y : Nat) : Prop where
  blank : ∀ x < vgaWidth, after.vgaMemory (y * vgaWidth + x) = c.cellOf space
  others : ∀ i < vgaWidth * vgaHeight, i / vgaWidth ≠ y → after.vgaMemory i = c.vgaMemory i
  cursor : after.vgaGetCursor.2 = (0, y)

/-! ### A space -/

theorem vgaMemory_vgaSetCursor (c : Console) (x y : Int) :
    (c.vgaSetCursor x y).vgaMemory = c.vgaMemory := rfl

theorem cellOf_of_color {c other : Console} (same : other.color = c.color) (byte : BitVec 8) :
    other.cellOf byte = c.cellOf byte := by
  rw [cellOf, cellOf, same]

/-- A character that is written: into the cell under the cursor, which moves on, and the last cell
of the screen makes it scroll. -/
theorem vgaPutc_space {c : Console} (onScreen : c.OnScreen) :
    c.vgaPutc space =
      let placed := (writeCell { c with crtcIndex := cursorHighReg } c.position.toNat
        (c.cellOf space)).vgaSetCursor ((c.position.toNat + 1) % 80 : Nat)
          ((c.position.toNat + 1) / 80 : Nat)
      if c.position.toNat + 1 < 2000 then placed else placed.scroll := by
  have inside : c.position.toNat < 2000 := onScreen
  have fits : ¬ c.position.toNat ≥ vgaWidth * vgaHeight := by
    rw [vgaWidth, vgaHeight]
    omega
  have next : (c.position + 1#16).toNat = c.position.toNat + 1 := by
    rw [BitVec.toNat_add, BitVec.toNat_ofNat]
    omega
  have notNewline : space ≠ newline := by decide
  have notTab : space ≠ tab := by decide
  have notBackspace : space ≠ backspace := by decide
  rw [vgaPutc, putcBody, vgaGetCursorPosition_eq]
  simp only [if_neg fits, if_neg notNewline, if_neg notTab, if_neg notBackspace, next]
  by_cases room : c.position.toNat + 1 < 2000
  · rw [if_pos room, if_neg (by rw [vgaWidth, vgaHeight]; omega)]
    rfl
  · rw [if_neg room, if_pos (by rw [vgaWidth, vgaHeight]; omega)]
    rfl

/-- The console after `count` cells from `start` on have been made blank. -/
structure Blanked (c : Console) (start count : Nat) (after : Console) : Prop where
  cells : ∀ i, after.vgaMemory i =
    if start ≤ i ∧ i < start + count then c.cellOf space else c.vgaMemory i
  position : after.position.toNat = start + count
  color : after.color = c.color

section Blanked

variable {c after : Console} {start count : Nat} (blanked : Blanked c start count after)
include blanked

/-- One more cell is blank when a space has been written into it. -/
theorem Blanked.write (i : Nat) :
    Function.update after.vgaMemory (start + count) (after.cellOf space) i =
      if start ≤ i ∧ i < start + (count + 1) then c.cellOf space else c.vgaMemory i := by
  rw [Function.update_apply, blanked.cells, cellOf_of_color blanked.color]
  by_cases here : i = start + count
  · rw [if_pos here, if_pos (by omega)]
  · rw [if_neg here]
    exact if_congr (by omega) rfl rfl

/-- A space before the last cell of the screen makes one cell blank. -/
theorem Blanked.putc (room : start + count + 1 < 2000) :
    Blanked c start (count + 1) (after.vgaPutc space) := by
  have onScreen : after.OnScreen := by
    rw [OnScreen, blanked.position]
    omega
  rw [vgaPutc_space onScreen, blanked.position]
  simp only [if_pos room]
  refine ⟨blanked.write, ?_, blanked.color⟩
  rw [toNat_position_vgaSetCursor]
  omega

/-- The space in the last cell scrolls the screen. -/
theorem Blanked.putc_last (last : start + count = 1999) (row : start = 1920) {i : Nat}
    (inside : i < 2000) : (after.vgaPutc space).vgaMemory i =
      if i < 1840 then c.vgaMemory (i + 80) else c.cellOf space := by
  have onScreen : after.OnScreen := by
    rw [OnScreen, blanked.position]
    omega
  rw [vgaPutc_space onScreen, blanked.position]
  simp only [if_neg (show ¬ start + count + 1 < 2000 by omega)]
  rw [scroll_eq]
  show (if i < 1920 then
      Function.update after.vgaMemory (start + count) (after.cellOf space) (i + 80)
    else if i < 2000 then after.cellOf space
    else Function.update after.vgaMemory (start + count) (after.cellOf space) i) = _
  rw [blanked.write, if_pos inside, cellOf_of_color blanked.color]
  by_cases upper : i < 1840
  · rw [if_pos (by omega), if_neg (by omega), if_pos upper]
  · rw [if_neg upper]
    by_cases copied : i < 1920
    · rw [if_pos copied, if_pos (by omega)]
    · rw [if_neg copied]

end Blanked

/-! ### The line -/

/-- The spaces of a row, as far as the cell before the last of the screen. -/
theorem blanked_spaces {c : Console} {y : Nat} (position : c.position.toNat = y * 80)
    {count : Nat} (room : y * 80 + count < 2000) :
    Blanked c (y * 80) count ((List.range count).foldl (fun c _ => c.vgaPutc space) c) := by
  induction count with
  | zero => exact ⟨fun i => (if_neg (by omega)).symm, position, rfl⟩
  | succ count inductionHypothesis =>
    rw [List.range_succ, List.foldl_append, List.foldl_cons, List.foldl_nil]
    exact (inductionHypothesis (by omega)).putc room

theorem rmline_eq {c : Console} {y : Nat} (cursor : c.position.toNat / 80 = y) :
    c.rmline = ((List.range vgaWidth).foldl (fun c _ => c.vgaPutc space)
      (vgaSetCursor { c with crtcIndex := cursorHighReg } 0 y)).vgaSetCursor 0 y := by
  rw [rmline, vgaGetCursor_eq, cursor]

/-- What `rmline` leaves in the cells of the screen. -/
theorem vgaMemory_rmline {c : Console} {y : Nat} (row : y < 25)
    (cursor : c.position.toNat / 80 = y) {i : Nat} (inside : i < 2000) :
    c.rmline.vgaMemory i =
      if y < 24 then if i / 80 = y then c.cellOf space else c.vgaMemory i
      else if i < 1840 then c.vgaMemory (i + 80) else c.cellOf space := by
  have start : (vgaSetCursor { c with crtcIndex := cursorHighReg } 0 y).position.toNat =
      y * 80 := by
    rw [← Nat.cast_zero, toNat_position_vgaSetCursor]
    omega
  have memory : (vgaSetCursor { c with crtcIndex := cursorHighReg } 0 y).vgaMemory =
      c.vgaMemory := rfl
  have cell : (vgaSetCursor { c with crtcIndex := cursorHighReg } 0 y).cellOf space =
      c.cellOf space := rfl
  rw [rmline_eq cursor, vgaMemory_vgaSetCursor, vgaWidth]
  generalize vgaSetCursor { c with crtcIndex := cursorHighReg } 0 y = home at start memory cell ⊢
  rw [← memory, ← cell]
  by_cases upper : y < 24
  · rw [if_pos upper, (blanked_spaces start (by omega)).cells]
    exact if_congr (by omega) rfl rfl
  · rw [if_neg upper, List.range_succ, List.foldl_append, List.foldl_cons, List.foldl_nil]
    exact (blanked_spaces start (by omega)).putc_last (by omega) (by omega) inside

theorem vgaGetCursor_rmline {c : Console} {y : Nat} (row : y < 25)
    (cursor : c.position.toNat / 80 = y) : c.rmline.vgaGetCursor.2 = (0, y) := by
  rw [rmline_eq cursor, vgaGetCursor_vgaSetCursor, Prod.mk.injEq]
  omega

/-- Every row is the one below it, and the last of them is blank, so all are blank. -/
theorem blank_of_moved {memory : Nat → BitVec 16} {blank : BitVec 16}
    (same : ∀ i < 1920, (if i < 1840 then memory (i + 80) else blank) = memory i) (row : Nat)
    {i : Nat} (inside : i < 1920) (near : 1840 ≤ i + row * 80) : memory i = blank := by
  induction row generalizing i with
  | zero => rw [← same i inside, if_neg (by omega)]
  | succ row inductionHypothesis =>
    rw [← same i inside]
    by_cases last : i < 1840
    · rw [if_pos last]
      exact inductionHypothesis (by omega) (by omega)
    · rw [if_neg last]

/-- Erasing a line leaves the others alone on every row but the last, where it does so when the
rows above are blank. -/
theorem erasesLine_rmline {c : Console} {y : Nat} (row : y < 25)
    (cursor : c.position.toNat / 80 = y) :
    ErasesLine c c.rmline y ↔ y < 24 ∨ ∀ i < 1920, c.vgaMemory i = c.cellOf space := by
  have cells : ∀ i < 2000, c.rmline.vgaMemory i = _ := fun i => vgaMemory_rmline row cursor
  by_cases upper : y < 24
  · simp only [if_pos upper] at cells
    refine iff_of_true ⟨fun x inside => ?_, fun i inside other => ?_,
      vgaGetCursor_rmline row cursor⟩ (Or.inl upper)
    · rw [vgaWidth] at inside ⊢
      rw [cells _ (by omega), if_pos (by omega)]
    · rw [vgaWidth] at other
      rw [cells i inside, if_neg other]
  · simp only [if_neg upper] at cells
    have last : y = 24 := by omega
    constructor
    · intro erases
      refine Or.inr fun i inside => blank_of_moved (fun k insideK => ?_) 23 inside (by omega)
      rw [← cells k (by omega)]
      refine erases.others k (by rw [vgaWidth, vgaHeight]; omega) ?_
      rw [vgaWidth]
      omega
    · rintro (before | blank)
      · exact absurd before upper
      · refine ⟨fun x inside => ?_, fun i inside other => ?_, vgaGetCursor_rmline row cursor⟩
        · rw [vgaWidth] at inside ⊢
          rw [cells _ (by omega), if_neg (by omega)]
        · rw [vgaWidth] at other
          rw [vgaWidth, vgaHeight] at inside
          rw [cells i inside, blank i (by omega)]
          by_cases copied : i < 1840
          · rw [if_pos copied, blank (i + 80) (by omega)]
          · rw [if_neg copied]

/-- `kprint` of the command does what `rmline` does. -/
theorem kprint_command {str : CString} (command : HasText str (literal "\x1b[2k")) (fuel : Nat)
    (c : Console) : c.kprint fuel str = (c.rmline, true) := by
  have equal : strcmp 5 str (buffer (literal "\x1b[2k")) = some 0 :=
    (strcmp_eq_zero_iff command (hasText_buffer (by decide)) (by decide)).mpr rfl
  rw [kprint, if_pos equal]

/-- `rmline`, and `kprint` of the command for it, erase the line of the cursor and no other exactly
on the first 24 rows, and on the last row when all rows above it are blank. -/
theorem rmline_erases_line_iff (c : Console) (x y : Nat) (row : y < 25)
    (cursor : c.vgaGetCursor.2 = (x, y)) :
    (ErasesLine c c.rmline y ↔ y < 24 ∨ ∀ i < 1920, c.vgaMemory i = c.cellOf space) ∧
    ∀ fuel str, HasText str (literal "\x1b[2k") →
      ((c.kprint fuel str).2 = true ∧ ErasesLine c (c.kprint fuel str).1 y ↔
        y < 24 ∨ ∀ i < 1920, c.vgaMemory i = c.cellOf space) := by
  have there : c.position.toNat / 80 = y := by
    rw [vgaGetCursor_eq, Prod.mk.injEq] at cursor
    exact cursor.2
  refine ⟨erasesLine_rmline row there, fun fuel str command => ?_⟩
  rw [kprint_command command fuel c]
  exact (and_iff_right rfl).trans (erasesLine_rmline row there)

/-- A screen full of letters with the cursor at the start of the row above the last one. -/
def lowerConsole : Console where
  vgaMemory _ := 0x0F41#16
  crtcIndex := 0#8
  crtcData register := if register = cursorLowReg then 0x30#8 else 0x07#8
  color := 0x0F#8

/-- On the row above the last one, also through `kprint`. -/
theorem rmline_erases_line_lower :
    lowerConsole.vgaGetCursor.2 = (0, 23) ∧
      ErasesLine lowerConsole lowerConsole.rmline 23 ∧
      (lowerConsole.kprint 0 (buffer (literal "\x1b[2k"))).2 = true ∧
      ErasesLine lowerConsole (lowerConsole.kprint 0 (buffer (literal "\x1b[2k"))).1 23 := by
  have cursor : lowerConsole.vgaGetCursor.2 = (0, 23) := by decide
  obtain ⟨erases, command⟩ := rmline_erases_line_iff lowerConsole 0 23 (by decide) cursor
  have printed := command 0 (buffer (literal "\x1b[2k")) (hasText_buffer (by decide))
  exact ⟨cursor, erases.mpr (Or.inl (by decide)), printed.mpr (Or.inl (by decide))⟩

/-- The same screen with the cursor at the start of its last row. -/
def bottomConsole : Console :=
  { lowerConsole with
    crtcData := fun register => if register = cursorLowReg then 0x80#8 else 0x07#8 }

/-- On the last row the other lines move. -/
theorem rmline_moves_other_lines :
    bottomConsole.vgaGetCursor.2 = (0, 24) ∧
      ¬ ErasesLine bottomConsole bottomConsole.rmline 24 := by
  have cursor : bottomConsole.position.toNat / 80 = 24 := by decide
  refine ⟨by decide, fun erases => ?_⟩
  rcases (erasesLine_rmline (by decide) cursor).mp erases with upper | blank
  · exact absurd upper (by decide)
  · exact absurd (blank 0 (by decide)) (by decide)

end Console

end M12
