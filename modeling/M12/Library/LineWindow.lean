/-
This file is about a text of lines seen through a window of fixed height.

The text is its finished lines and the line being written. The window shows the
last `height` lines from the top, blank where a line has no character and below
the last line of a short text. Writing a character changes one cell, and ending a
line changes nothing while there is room and moves every row up by one when there
is not.
-/

import Mathlib.Data.List.Basic

namespace LineWindow

variable {α : Type*}

/-! ### Texts -/

/-- Finished lines, and the line that is not. -/
structure Text (α : Type*) where
  finished : List (List α)
  current : List α

namespace Text

/-- All lines, the unfinished one last. -/
def lines (text : Text α) : List (List α) := text.finished ++ [text.current]

/-- The unfinished line is finished, and an empty one begins. -/
def endLine (text : Text α) : Text α := ⟨text.lines, []⟩

/-- A character at the end of the unfinished line. -/
def put (text : Text α) (character : α) : Text α := ⟨text.finished, text.current ++ [character]⟩

/-- A character that ends its line when it is the line's last. -/
def write (width : Nat) (text : Text α) (character : α) : Text α :=
  if (text.put character).current.length = width then (text.put character).endLine
  else text.put character

theorem length_lines (text : Text α) : text.lines.length = text.finished.length + 1 := by
  rw [lines, List.length_append, List.length_singleton]

theorem lines_endLine (text : Text α) : text.endLine.lines = text.lines ++ [[]] := rfl

end Text

/-! ### The window -/

/-- Line `i`, empty where there is none. -/
def line (lines : List (List α)) (i : Nat) : List α := lines[i]?.getD []

/-- What the window shows in a cell. -/
def cell (blank : α) (height : Nat) (lines : List (List α)) (row column : Nat) : α :=
  (line lines (lines.length - height + row))[column]?.getD blank

/-- The row of the last line. -/
def lastRow (height : Nat) (lines : List (List α)) : Nat := min lines.length height - 1

theorem line_append (lines : List (List α)) (last : List α) (i : Nat) :
    line (lines ++ [last]) i = if i = lines.length then last else line lines i := by
  rw [line, line]
  split_ifs with here
  · rw [here, List.getElem?_concat_length, Option.getD_some]
  · by_cases inside : i < lines.length
    · rw [List.getElem?_append_left inside]
    · rw [List.getElem?_eq_none (by rw [List.length_append, List.length_singleton]; omega),
        List.getElem?_eq_none (by omega)]

theorem line_append_nil (lines : List (List α)) (i : Nat) :
    line (lines ++ [[]]) i = line lines i := by
  rw [line_append]
  split_ifs with here
  · rw [line, here, List.getElem?_eq_none (Nat.le_refl _), Option.getD_none]
  · rfl

theorem line_of_length_le {lines : List (List α)} {i : Nat} (beyond : lines.length ≤ i) :
    line lines i = [] := by
  rw [line, List.getElem?_eq_none beyond, Option.getD_none]

section Window

variable (blank : α) {height : Nat}

/-- An empty text is blank. -/
theorem cell_empty (row column : Nat) : cell blank height [[]] row column = blank := by
  rw [cell, ← List.nil_append [[]], line_append_nil, line_of_length_le (Nat.zero_le _)]
  rfl

/-- A character put at the end of the last line is the only change. -/
theorem cell_put (text : Text α) (character : α) {row : Nat} (inside : row < height)
    (column : Nat) :
    cell blank height (text.put character).lines row column =
      if row = lastRow height text.lines ∧ column = text.current.length then character
      else cell blank height text.lines row column := by
  have lengths : (text.put character).lines.length = text.lines.length := by
    rw [Text.length_lines, Text.length_lines]
    rfl
  have last : text.lines.length - height + row = text.finished.length ↔
      row = lastRow height text.lines := by
    rw [lastRow, Text.length_lines]
    omega
  have old : line text.lines (text.lines.length - height + row) =
      if row = lastRow height text.lines then text.current
      else line text.finished (text.lines.length - height + row) :=
    (line_append _ _ _).trans (if_congr last rfl rfl)
  have new : line (text.put character).lines (text.lines.length - height + row) =
      if row = lastRow height text.lines then text.current ++ [character]
      else line text.finished (text.lines.length - height + row) :=
    (line_append _ _ _).trans (if_congr last rfl rfl)
  rw [cell, cell, lengths, old, new]
  by_cases here : row = lastRow height text.lines
  · rw [if_pos here, if_pos here]
    simp only [here, true_and]
    split_ifs with there
    · rw [there, List.getElem?_concat_length, Option.getD_some]
    · by_cases before : column < text.current.length
      · rw [List.getElem?_append_left before]
      · rw [List.getElem?_eq_none (by rw [List.length_append, List.length_singleton]; omega),
          List.getElem?_eq_none (by omega)]
  · rw [if_neg here, if_neg here, if_neg fun both => here both.1]

/-- While the window has room, an empty line shows nothing new. -/
theorem cell_endLine_of_room {lines : List (List α)} (room : lines.length < height)
    (row column : Nat) :
    cell blank height (lines ++ [[]]) row column = cell blank height lines row column := by
  rw [cell, cell, line_append_nil, List.length_append, List.length_singleton,
    Nat.sub_eq_zero_of_le (by omega), Nat.sub_eq_zero_of_le (by omega)]

/-- In a full window an empty line moves the rows up. -/
theorem cell_endLine_of_full {lines : List (List α)} (full : height ≤ lines.length) {row : Nat}
    (inside : row < height) (column : Nat) :
    cell blank height (lines ++ [[]]) row column =
      if row + 1 < height then cell blank height lines (row + 1) column else blank := by
  rw [cell, cell, line_append_nil, List.length_append, List.length_singleton,
    show lines.length + 1 - height + row = lines.length - height + (row + 1) by omega]
  split_ifs with next
  · rfl
  · rw [line_of_length_le (by omega)]
    rfl

end Window

end LineWindow
