/-
This file is about a screen that is written at its end, as one strip of cells.

The strip is what has been written and is still in sight, row after row; behind
its end the screen is blank. A character is put at the end, a new line fills the
row with blanks, and when the last cell has been written the first row is
dropped. The last cell of the strip can be erased: the strip is a stack that
forgets its oldest row, so erasing takes back what was written last, and only
the rows that were dropped are lost.
-/

import Mathlib.Data.List.GetD
import Mathlib.Data.List.Induction
import Mathlib.Order.Lattice

namespace ScrollStrip

variable {α : Type*}

/-! ### Strips -/

/-- A strip that has reached the last cell loses its first row. -/
def settle (width height : Nat) (strip : List α) : List α :=
  if strip.length < height * width then strip else strip.drop width

/-- A character at the end. -/
def put (width height : Nat) (strip : List α) (character : α) : List α :=
  settle width height (strip ++ [character])

/-- The rest of the row is filled with blanks. -/
def newLine (blank : α) (width height : Nat) (strip : List α) : List α :=
  settle width height (strip ++ List.replicate (width - strip.length % width) blank)

/-- What the screen shows in a cell. -/
def shown (blank : α) (strip : List α) (i : Nat) : α := strip.getD i blank

/-- Characters put one after the other. -/
def puts (width height : Nat) (strip text : List α) : List α :=
  text.foldl (put width height) strip

/-! ### Cells -/

section Cells

variable (blank : α)

theorem shown_of_length_le {strip : List α} {i : Nat} (behind : strip.length ≤ i) :
    shown blank strip i = blank := List.getD_eq_default _ _ behind

theorem shown_append (strip last : List α) (i : Nat) :
    shown blank (strip ++ last) i =
      if i < strip.length then shown blank strip i else shown blank last (i - strip.length) := by
  split_ifs with inside
  · exact List.getD_append _ _ _ _ inside
  · exact List.getD_append_right _ _ _ _ (Nat.le_of_not_lt inside)

theorem shown_singleton (character : α) (i : Nat) :
    shown blank [character] i = if i = 0 then character else blank := by
  cases i with
  | zero => rfl
  | succ i => rfl

theorem shown_put (strip : List α) (character : α) (i : Nat) :
    shown blank (strip ++ [character]) i =
      if i = strip.length then character else shown blank strip i := by
  rw [shown_append, shown_singleton]
  by_cases inside : i < strip.length
  · rw [if_pos inside, if_neg (Nat.ne_of_lt inside)]
  · rw [if_neg inside]
    refine if_congr (by omega) rfl ?_
    exact (shown_of_length_le blank (Nat.le_of_not_lt inside)).symm

/-- Blanks at the end show nothing new. -/
theorem shown_blanks (strip : List α) (count i : Nat) :
    shown blank (strip ++ List.replicate count blank) i = shown blank strip i := by
  rw [shown_append]
  split_ifs with inside
  · rfl
  · rw [shown_of_length_le blank (Nat.le_of_not_lt inside), shown, List.getD_eq_getElem?_getD,
      List.getElem?_replicate]
    split_ifs <;> rfl

theorem shown_drop (strip : List α) (count i : Nat) :
    shown blank (strip.drop count) i = shown blank strip (i + count) := by
  rw [shown, shown, List.getD_eq_getElem?_getD, List.getD_eq_getElem?_getD, List.getElem?_drop,
    Nat.add_comm]

theorem shown_dropLast (strip : List α) (i : Nat) :
    shown blank strip.dropLast i =
      if i = strip.length - 1 then blank else shown blank strip i := by
  by_cases last : i = strip.length - 1
  · rw [if_pos last, shown_of_length_le blank (by rw [List.length_dropLast]; omega)]
  · rw [if_neg last, shown, shown, List.getD_eq_getElem?_getD, List.getD_eq_getElem?_getD,
      List.getElem?_dropLast]
    split_ifs with inside
    · rfl
    · rw [List.getElem?_eq_none (by omega)]

end Cells

/-! ### Lengths -/

section Lengths

variable {width height : Nat}

theorem settle_of_room {strip : List α} (room : strip.length < height * width) :
    settle width height strip = strip := if_pos room

theorem settle_of_full {strip : List α} (full : strip.length = height * width) :
    settle width height strip = strip.drop width := if_neg (by omega)

end Lengths

/-! ### Writing and erasing -/

/-- The rows that are dropped while a text of this length is put at the end of a strip. -/
def rowsDropped (width height before length : Nat) : Nat :=
  (before + length - (height - 1) * width) / width

section Erase

variable {width height : Nat}

theorem rowsDropped_le (before length : Nat) :
    width * rowsDropped width height before length ≤ before + length :=
  Nat.le_trans (Nat.mul_div_le _ _) (Nat.sub_le _ _)

/-- One more character drops a row when it is the last of the screen. -/
theorem rowsDropped_succ (positive : 0 < width) (tall : 0 < height) (before length : Nat) :
    rowsDropped width height before (length + 1) =
      if before + length + 1 - width * rowsDropped width height before length < height * width
      then rowsDropped width height before length
      else rowsDropped width height before length + 1 := by
  obtain ⟨rows, rfl⟩ := Nat.exists_eq_add_of_lt tall
  rw [rowsDropped, rowsDropped, show 0 + rows + 1 - 1 = rows by omega, Nat.zero_add,
    Nat.succ_mul]
  generalize rows * width = base
  by_cases reached : base ≤ before + length
  · obtain ⟨beyond, total⟩ := Nat.exists_eq_add_of_le reached
    have division := Nat.div_add_mod beyond width
    have remainder := Nat.mod_lt beyond positive
    rw [show before + (length + 1) - base = beyond + 1 by omega,
      show before + length - base = beyond by omega]
    split_ifs with room
    · refine Nat.div_eq_of_lt_le ?_ ?_
      · rw [Nat.mul_comm]
        omega
      · rw [Nat.succ_mul, Nat.mul_comm]
        omega
    · refine Nat.div_eq_of_lt_le ?_ ?_
      · rw [Nat.succ_mul, Nat.mul_comm]
        omega
      · rw [Nat.succ_mul, Nat.succ_mul, Nat.mul_comm]
        omega
  · rw [show before + (length + 1) - base = 0 by omega, show before + length - base = 0 by omega,
      Nat.zero_div, Nat.mul_zero, if_pos (by omega)]

theorem puts_concat (strip text : List α) (character : α) :
    puts width height strip (text ++ [character]) =
      put width height (puts width height strip text) character := by
  rw [puts, List.foldl_append]
  rfl

/-- Putting a text puts it all at the end and drops rows in front. -/
theorem puts_eq (positive : 0 < width) (tall : 0 < height) {strip : List α}
    (fits : strip.length < height * width) (text : List α) :
    puts width height strip text =
      (strip ++ text).drop (width * rowsDropped width height strip.length text.length) := by
  induction text using List.reverseRecOn with
  | nil =>
    obtain ⟨rows, rfl⟩ := Nat.exists_eq_add_of_lt tall
    have none : rowsDropped width (0 + rows + 1) strip.length 0 = 0 := by
      rw [Nat.succ_mul] at fits
      refine Nat.div_eq_of_lt ?_
      rw [Nat.add_sub_cancel]
      omega
    rw [List.append_nil, List.length_nil, none, Nat.mul_zero, List.drop_zero]
    rfl
  | append_singleton text character inductionHypothesis =>
    have inside : width * rowsDropped width height strip.length text.length ≤
        (strip ++ text).length := by
      rw [List.length_append]
      exact rowsDropped_le _ _
    have joined :
        (strip ++ text).drop (width * rowsDropped width height strip.length text.length) ++
          [character] = (strip ++ (text ++ [character])).drop
          (width * rowsDropped width height strip.length text.length) := by
      rw [← List.append_assoc, List.drop_append_of_le_length inside]
    rw [puts_concat, inductionHypothesis, put, joined, settle, List.length_drop,
      List.length_append, List.length_append,
      List.length_singleton, rowsDropped_succ positive tall, ← Nat.add_assoc]
    split_ifs with room
    · rfl
    · rw [List.drop_drop, Nat.mul_succ]

theorem length_puts (positive : 0 < width) (tall : 0 < height) {strip : List α}
    (fits : strip.length < height * width) (text : List α) :
    (puts width height strip text).length = strip.length + text.length -
      width * rowsDropped width height strip.length text.length := by
  rw [puts_eq positive tall fits, List.length_drop, List.length_append]

/-- The last cells of a strip erased one after the other. -/
theorem erase_eq (strip : List α) (count : Nat) :
    List.dropLast^[count] strip = strip.take (strip.length - count) := by
  induction count with
  | zero => rw [Nat.sub_zero, List.take_length]; rfl
  | succ count inductionHypothesis =>
    rw [Function.iterate_succ_apply', inductionHypothesis, List.dropLast_eq_take, List.take_take,
      List.length_take]
    exact congrArg strip.take (by omega)

/-- Erasing as many cells as were put leaves the strip without the rows that were dropped. -/
theorem erase_puts (positive : 0 < width) (tall : 0 < height) {strip : List α}
    (fits : strip.length < height * width) (text : List α) :
    List.dropLast^[text.length] (puts width height strip text) =
      strip.drop (width * rowsDropped width height strip.length text.length) := by
  rw [erase_eq, length_puts positive tall fits, puts_eq positive tall fits]
  generalize width * rowsDropped width height strip.length text.length = dropped
  rw [List.take_drop, show dropped + (strip.length + text.length - dropped - text.length) =
    max dropped strip.length by omega]
  by_cases inside : dropped ≤ strip.length
  · rw [Nat.max_eq_right inside, List.take_left]
  · rw [Nat.max_eq_left (by omega), List.drop_take_self, List.drop_eq_nil_of_le (by omega)]

end Erase

end ScrollStrip
