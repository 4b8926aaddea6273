/-
This file settles which characters are stored in the selected colour.

`Tracked` runs the console's code and notes beside each cell which character was
stored in it and in which colour. `VGA_Putc` converts its `char` to `uint16_t`
before it adds the colour, and a `char` is signed: a code from 0x80 on becomes
0xFF80 or more, and the colour is lost in the upper byte. The cells hold what was
noted as long as no such character is stored in a colour other than 0xFF.
-/

import M12.ConsoleBounds
import M12.OutputCalls

namespace M12

open ByteMemory Console

/-- A console, and what was last stored in each cell: a character and the colour at the time. -/
structure Tracked where
  console : Console
  stored : Nat → Option (BitVec 8 × BitVec 8)

namespace Tracked

/-! ### The code with its notes -/

/-- `VGA_MEMORY[i] = (uint16_t)character | (color << 8)`. -/
def store (t : Tracked) (i : Nat) (character : BitVec 8) : Tracked :=
  ⟨t.console.writeCell i (t.console.cellOf character),
    Function.update t.stored i (some (character, t.console.color))⟩

/-- `scroll`: the notes move with their cells, and the last row is blank. -/
def scroll (t : Tracked) : Tracked :=
  ⟨t.console.scroll, fun i =>
    if i < 1920 then t.stored (i + 80)
    else if i < 2000 then some (space, t.console.color) else t.stored i⟩

/-- `VGA_SetCursor`. -/
def vgaSetCursor (t : Tracked) (x y : Int) : Tracked := ⟨t.console.vgaSetCursor x y, t.stored⟩

/-- `VGA_GetCursorPosition`. -/
def vgaGetCursorPosition (t : Tracked) : Tracked × BitVec 16 :=
  let (c, position) := t.console.vgaGetCursorPosition
  (⟨c, t.stored⟩, position)

/-- The body of `VGA_Putc`, with what it does for each of the four spaces of a tab. -/
def putcBody (putSpace : Tracked → Tracked) (t : Tracked) (character : BitVec 8) : Tracked :=
  let (t, position) := t.vgaGetCursorPosition
  let (t, position) :=
    if position.toNat ≥ vgaWidth * vgaHeight then t.scroll.vgaGetCursorPosition else (t, position)
  if character = newline then
    let row := position.toNat / vgaWidth
    let (t, row) := if row ≥ vgaHeight - 1 then (t.scroll, vgaHeight - 2) else (t, row)
    t.vgaSetCursor 0 (row + 1)
  else if character = tab then (List.range 4).foldl (fun t _ => putSpace t) t
  else if character = backspace then
    if position.toNat > 0 then
      let position := position - 1#16
      let t := t.vgaSetCursor (position.toNat % vgaWidth) (position.toNat / vgaWidth)
      t.store position.toNat space
    else t
  else
    let t := t.store position.toNat character
    let position := position + 1#16
    let t := t.vgaSetCursor (position.toNat % vgaWidth) (position.toNat / vgaWidth)
    if position.toNat ≥ vgaWidth * vgaHeight then t.scroll else t

/-- `VGA_Putc`. -/
def vgaPutc (t : Tracked) (character : BitVec 8) : Tracked :=
  putcBody (fun t => putcBody id t space) t character

/-- `rmline`. -/
def rmline (t : Tracked) : Tracked :=
  let (c, _, y) := t.console.vgaGetCursor
  let t := vgaSetCursor ⟨c, t.stored⟩ 0 y
  let t := (List.range vgaWidth).foldl (fun t _ => t.vgaPutc space) t
  t.vgaSetCursor 0 y

/-- Every cell with a note holds the code of the character in its low byte and the colour in its
high byte. -/
def Kept (t : Tracked) : Prop :=
  ∀ i character color, t.stored i = some (character, color) →
    t.console.vgaMemory i = color ++ character

end Tracked

/-! ### One cell -/

/-- The cell of a character holds its code below the colour: the code has no sign bit, or the
colour has all bits set. -/
def Representable (color character : BitVec 8) : Prop := character < 0x80#8 ∨ color = 0xFF#8

instance (color character : BitVec 8) : Decidable (Representable color character) :=
  inferInstanceAs (Decidable (_ ∨ _))

theorem representable_space (color : BitVec 8) : Representable color space := Or.inl (by decide)

theorem getLsbD_cellOf (c : Console) (character : BitVec 8) {bit : Nat} (inside : bit < 16) :
    (c.cellOf character).getLsbD bit =
      if bit < 8 then character.getLsbD bit else character.msb || c.color.getLsbD (bit - 8) := by
  rw [cellOf, BitVec.getLsbD_or, BitVec.getLsbD_signExtend, BitVec.getLsbD_shiftLeft,
    BitVec.getLsbD_setWidth, decide_eq_true inside, Bool.true_and, Bool.true_and]
  by_cases low : bit < 8
  · rw [if_pos low, if_pos low, decide_eq_true low]
    simp
  · rw [if_neg low, if_neg low, decide_eq_false low, decide_eq_true (show bit - 8 < 16 by omega)]
    simp

theorem lt_iff_msb (character : BitVec 8) : character < 0x80#8 ↔ character.msb = false := by
  rw [BitVec.msb_eq_false_iff_two_mul_lt, BitVec.lt_def, BitVec.toNat_ofNat]
  omega

theorem eq_white_iff (color : BitVec 8) :
    color = 0xFF#8 ↔ ∀ bit < 8, color.getLsbD bit = true := by
  have white {bit : Nat} (inside : bit < 8) : (0xFF#8).getLsbD bit = true :=
    BitVec.getLsbD_allOnes.trans (decide_eq_true inside)
  constructor
  · rintro rfl bit inside
    exact white inside
  · intro all
    exact BitVec.eq_of_getLsbD_eq fun bit inside => (all bit inside).trans (white inside).symm

/-- The conversion of the character keeps the colour exactly when the cell is representable. -/
theorem cellOf_eq_append_iff (c : Console) (character : BitVec 8) :
    c.cellOf character = c.color ++ character ↔ Representable c.color character := by
  have bits : c.cellOf character = c.color ++ character ↔
      ∀ bit < 8, (character.msb || c.color.getLsbD bit) = c.color.getLsbD bit := by
    constructor
    · intro same bit inside
      have here : (c.cellOf character).getLsbD (bit + 8) =
          (c.color ++ character).getLsbD (bit + 8) := by rw [same]
      rw [getLsbD_cellOf c character (by omega), if_neg (by omega), Nat.add_sub_cancel,
        BitVec.getLsbD_append, if_neg (by omega), Nat.add_sub_cancel] at here
      exact here
    · intro same
      refine BitVec.eq_of_getLsbD_eq fun bit inside => ?_
      rw [getLsbD_cellOf c character inside, BitVec.getLsbD_append]
      by_cases low : bit < 8
      · rw [if_pos low, if_pos low]
      · rw [if_neg low, if_neg low, same (bit - 8) (by omega)]
  rw [bits, Representable, lt_iff_msb, eq_white_iff]
  cases character.msb with
  | false => exact iff_of_true (fun bit _ => Bool.false_or _) (Or.inl rfl)
  | true =>
    simp only [Bool.true_or, Bool.true_eq_false, false_or]
    exact forall₂_congr fun bit _ => eq_comm

/-! ### Following the console -/

/-- The notes are taken on this console, its colour is this one, and under the condition every
cell with a note is as it says. -/
structure Follows (condition : Prop) (color : BitVec 8) (c : Console) (t : Tracked) : Prop where
  console : t.console = c
  color : c.color = color
  kept : condition → t.Kept

namespace Follows

section Parts

variable {condition : Prop} {color : BitVec 8} {c : Console} {t : Tracked}
  (follows : Follows condition color c t)
include follows

theorem store {character : BitVec 8} (fits : condition → Representable color character) (i : Nat) :
    Follows condition color (c.writeCell i (c.cellOf character)) (t.store i character) := by
  obtain ⟨rfl, rfl, kept⟩ := follows
  refine ⟨rfl, rfl, fun holds j character' color' noted => ?_⟩
  show Function.update t.console.vgaMemory i (t.console.cellOf character) j = _
  rw [Tracked.store] at noted
  simp only [Function.update_apply] at noted ⊢
  by_cases here : j = i
  · rw [if_pos here] at noted ⊢
    obtain ⟨rfl, rfl⟩ := Prod.mk.inj (Option.some.inj noted)
    exact (cellOf_eq_append_iff _ _).mpr (fits holds)
  · rw [if_neg here] at noted ⊢
    exact kept holds j character' color' noted

theorem scroll : Follows condition color c.scroll t.scroll := by
  obtain ⟨rfl, rfl, kept⟩ := follows
  refine ⟨rfl, ?_, fun holds j character' color' noted => ?_⟩
  · rw [scroll_eq]
  · have cell : t.scroll.console.vgaMemory j =
        if j < 1920 then t.console.vgaMemory (j + 80)
        else if j < 2000 then t.console.cellOf space else t.console.vgaMemory j := by
      rw [Tracked.scroll, scroll_eq]
    rw [cell]
    rw [Tracked.scroll] at noted
    simp only at noted
    by_cases copied : j < 1920
    · rw [if_pos copied] at noted ⊢
      exact kept holds _ _ _ noted
    · rw [if_neg copied] at noted ⊢
      by_cases blank : j < 2000
      · rw [if_pos blank] at noted ⊢
        obtain ⟨rfl, rfl⟩ := Prod.mk.inj (Option.some.inj noted)
        exact (cellOf_eq_append_iff _ _).mpr (representable_space _)
      · rw [if_neg blank] at noted ⊢
        exact kept holds _ _ _ noted

theorem vgaSetCursor (x y : Int) :
    Follows condition color (c.vgaSetCursor x y) (t.vgaSetCursor x y) := by
  obtain ⟨rfl, rfl, kept⟩ := follows
  exact ⟨rfl, rfl, kept⟩

theorem index : Follows condition color { c with crtcIndex := cursorHighReg }
    ⟨{ t.console with crtcIndex := cursorHighReg }, t.stored⟩ := by
  obtain ⟨rfl, rfl, kept⟩ := follows
  exact ⟨rfl, rfl, kept⟩

theorem vgaGetCursorPosition : ∃ t', t.vgaGetCursorPosition = (t', c.position) ∧
    Follows condition color { c with crtcIndex := cursorHighReg } t' := by
  refine ⟨_, ?_, follows.index⟩
  rw [Tracked.vgaGetCursorPosition, vgaGetCursorPosition_eq, ← follows.console]

/-- What follows once does so any number of times. -/
theorem manyTimes {step : Console → Console} {trackedStep : Tracked → Tracked}
    (keeps : ∀ {c t}, Follows condition color c t →
      Follows condition color (step c) (trackedStep t)) (count : Nat) :
    Follows condition color ((List.range count).foldl (fun c _ => step c) c)
      ((List.range count).foldl (fun t _ => trackedStep t) t) := by
  induction count with
  | zero => exact follows
  | succ count inductionHypothesis =>
    rw [List.range_succ, List.foldl_append, List.foldl_append]
    exact keeps inductionHypothesis

/-! ### One character -/

/-- The scroll before a character that would be stored behind the last cell. -/
theorem makeRoom (position : BitVec 16) (current : c.position = position) : ∃ c' t',
    (if position.toNat ≥ vgaWidth * vgaHeight then c.scroll.vgaGetCursorPosition
      else (c, position)) = (c', position) ∧
    (if position.toNat ≥ vgaWidth * vgaHeight then t.scroll.vgaGetCursorPosition
      else (t, position)) = (t', position) ∧ Follows condition color c' t' := by
  subst current
  by_cases beyond : c.position.toNat ≥ vgaWidth * vgaHeight
  · rw [if_pos beyond, if_pos beyond, vgaGetCursorPosition_eq]
    obtain ⟨read, tracked, there⟩ := follows.scroll.vgaGetCursorPosition
    rw [tracked, position_scroll]
    exact ⟨_, _, rfl, rfl, there⟩
  · rw [if_neg beyond, if_neg beyond]
    exact ⟨_, _, rfl, rfl, follows⟩

theorem putcBody {putSpace : Console → Console} {trackedSpace : Tracked → Tracked}
    (spaced : ∀ {c t}, Follows condition color c t →
      Follows condition color (putSpace c) (trackedSpace t)) {character : BitVec 8}
    (fits : condition → Representable color character) :
    Follows condition color (putcBody putSpace c character)
      (t.putcBody trackedSpace character) := by
  obtain ⟨read, tracked, here⟩ := follows.vgaGetCursorPosition
  rw [Console.putcBody, Tracked.putcBody, vgaGetCursorPosition_eq, tracked]
  simp only
  obtain ⟨c', t', clearedEq, trackedEq, there⟩ := here.makeRoom c.position rfl
  rw [clearedEq, trackedEq]
  simp only
  generalize c.position = position
  by_cases isNewline : character = newline
  · rw [if_pos isNewline, if_pos isNewline]
    by_cases bottom : position.toNat / vgaWidth ≥ vgaHeight - 1
    · rw [if_pos bottom, if_pos bottom]
      exact there.scroll.vgaSetCursor _ _
    · rw [if_neg bottom, if_neg bottom]
      exact there.vgaSetCursor _ _
  rw [if_neg isNewline, if_neg isNewline]
  by_cases isTab : character = tab
  · rw [if_pos isTab, if_pos isTab]
    exact there.manyTimes spaced 4
  rw [if_neg isTab, if_neg isTab]
  by_cases isBackspace : character = backspace
  · rw [if_pos isBackspace, if_pos isBackspace]
    by_cases behind : position.toNat > 0
    · rw [if_pos behind, if_pos behind]
      exact (there.vgaSetCursor _ _).store (fun _ => representable_space color) _
    · rw [if_neg behind, if_neg behind]
      exact there
  · rw [if_neg isBackspace, if_neg isBackspace]
    have moved := (there.store fits position.toNat).vgaSetCursor
      ((position + 1#16).toNat % vgaWidth) ((position + 1#16).toNat / vgaWidth)
    by_cases full : (position + 1#16).toNat ≥ vgaWidth * vgaHeight
    · rw [if_pos full, if_pos full]
      exact moved.scroll
    · rw [if_neg full, if_neg full]
      exact moved

theorem vgaPutc {character : BitVec 8} (fits : condition → Representable color character) :
    Follows condition color (c.vgaPutc character) (t.vgaPutc character) :=
  follows.putcBody
    (fun inner => inner.putcBody id fun _ => representable_space color) fits

theorem rmline : Follows condition color c.rmline t.rmline := by
  have sameConsole := follows.console
  rw [Console.rmline, Tracked.rmline, sameConsole, vgaGetCursor_eq]
  have indexed := follows.index
  rw [sameConsole] at indexed
  have start := indexed.vgaSetCursor 0 (c.position.toNat / 80 : Nat)
  have blanked := start.manyTimes
    (fun inner => inner.vgaPutc fun _ => representable_space color) vgaWidth
  exact blanked.vgaSetCursor 0 (c.position.toNat / 80 : Nat)

end Parts

end Follows

/-! ### Runs -/

/-- A call of the users of colours. A call that prints finds the memory and the stack as they are
at the time. -/
inductive PrintCall where
  | setColor (newColor : BitVec 32)
  | putc (character : BitVec 8)
  | kprint (str : CString)
  | kprintf (memory : Memory) (frames : Nat → Frame) (format : CString) (args : Arguments)
  | kprintcolor (memory : Memory) (frames : Nat → Frame) (new : BitVec 32) (format : CString)
      (args : Arguments)

/-- The console after one call. -/
def printStep (fuel : Nat) (c : Console) : PrintCall → Console
  | .setColor newColor => c.setColor newColor
  | .putc character => c.vgaPutc character
  | .kprint str => (c.kprint fuel str).1
  | .kprintf memory _ format args => c.kprintf memory fuel format args
  | .kprintcolor memory _ new format args => c.kprintcolor memory fuel new format args

/-- What a call comes down to. -/
inductive Action where
  | setColor (newColor : BitVec 32)
  | output (output : Output)

/-- The console after one action. -/
def actionStep (c : Console) : Action → Console
  | .setColor newColor => c.setColor newColor
  | .output output => c.emit output

/-- The console with its notes after one action. -/
def Tracked.step (t : Tracked) : Action → Tracked
  | .setColor newColor => ⟨t.console.setColor newColor, t.stored⟩
  | .output (.putc character) => t.vgaPutc character
  | .output .rmline => t.rmline

/-- The actions of a call that is made while this colour is selected. -/
def callActions (fuel : Nat) (color : BitVec 8) : PrintCall → List Action
  | .setColor newColor => [.setColor newColor]
  | .putc character => [.output (.putc character)]
  | .kprint str => (kprintOutput fuel str).1.map .output
  | .kprintf memory frames format args =>
    (vkprintfOutput memory fuel frames format args).1.map .output
  | .kprintcolor memory frames new format args =>
    .setColor new :: (vkprintfOutput memory fuel frames format args).1.map .output ++
      [.setColor (color.setWidth 32)]

/-- The colour selected after an action. -/
def colorAfter (color : BitVec 8) : Action → BitVec 8
  | .setColor newColor => newColor.setWidth 8
  | .output _ => color

/-- The actions of a sequence of calls. -/
def runActions (fuel : Nat) : BitVec 8 → List PrintCall → List Action
  | _, [] => []
  | color, call :: calls =>
    callActions fuel color call ++
      runActions fuel ((callActions fuel color call).foldl colorAfter color) calls

/-- A character that is sent has a cell in the selected colour. -/
def ActionFits (color : BitVec 8) : Action → Prop
  | .output (.putc character) => Representable color character
  | _ => True

/-- Every character that is sent has a cell in the colour selected at the time. -/
def AllRepresentable : BitVec 8 → List Action → Prop
  | _, [] => True
  | color, action :: rest =>
    ActionFits color action ∧ AllRepresentable (colorAfter color action) rest

/-- One action. -/
theorem Follows.step {condition : Prop} {color : BitVec 8} {c : Console} {t : Tracked}
    (follows : Follows condition color c t) (action : Action)
    (fits : condition → ActionFits color action) :
    Follows condition (colorAfter color action) (actionStep c action) (t.step action) := by
  cases action with
  | setColor newColor =>
    obtain ⟨rfl, rfl, kept⟩ := follows
    exact ⟨rfl, rfl, kept⟩
  | output output =>
    cases output with
    | putc character => exact follows.vgaPutc fits
    | rmline => exact follows.rmline

/-- Any number of them. -/
theorem Follows.run {condition : Prop} {color : BitVec 8} {c : Console} {t : Tracked}
    (follows : Follows condition color c t) (actions : List Action)
    (fits : condition → AllRepresentable color actions) :
    Follows condition (actions.foldl colorAfter color) (actions.foldl actionStep c)
      (actions.foldl Tracked.step t) := by
  induction actions generalizing color c t with
  | nil => exact follows
  | cons action rest inductionHypothesis =>
    exact inductionHypothesis (follows.step action fun holds => (fits holds).1) fun holds =>
      (fits holds).2

/-- The console follows itself, with no notes to keep. -/
theorem follows_start (c : Console) (stored : Nat → Option (BitVec 8 × BitVec 8)) :
    Follows False c.color c ⟨c, stored⟩ := ⟨rfl, rfl, False.elim⟩

theorem foldl_actionStep_output (c : Console) (output : List Output) :
    (output.map Action.output).foldl actionStep c = c.emitAll output := List.foldl_map

/-- The actions of a call do what the call does. -/
theorem foldl_callActions (fuel : Nat) (c : Console) (call : PrintCall) :
    (callActions fuel c.color call).foldl actionStep c = printStep fuel c call := by
  cases call with
  | setColor newColor => rfl
  | putc character => rfl
  | kprint str => rw [callActions, foldl_actionStep_output, printStep, kprint_eq_emitAll]
  | kprintf memory frames format args =>
    rw [callActions, foldl_actionStep_output, printStep, kprintf,
      (vkprintf_eq_emitAll memory fuel frames c format args).1]
  | kprintcolor memory frames new format args =>
    rw [callActions, List.cons_append, List.foldl_cons, List.foldl_append,
      foldl_actionStep_output, printStep, kprintcolor]
    simp only [(vkprintf_eq_emitAll memory fuel frames (c.setColor new) format args).1]
    rfl

/-- And the actions of a sequence of calls what the calls do. -/
theorem foldl_runActions (fuel : Nat) (c : Console) (calls : List PrintCall) :
    (runActions fuel c.color calls).foldl actionStep c = calls.foldl (printStep fuel) c := by
  induction calls generalizing c with
  | nil => rfl
  | cons call rest inductionHypothesis =>
    have color := ((follows_start c fun _ => none).run (callActions fuel c.color call)
      False.elim).color
    rw [runActions, List.foldl_append, foldl_callActions, ← color, foldl_callActions]
    exact inductionHypothesis (printStep fuel c call)

/-- `kprintcolor` selects the colour again that it has found. -/
theorem color_kprintcolor (memory : Memory) (fuel : Nat) (c : Console) (new : BitVec 32)
    (format : CString) (args : Arguments) :
    (c.kprintcolor memory fuel new format args).color = c.color := by
  show (c.color.setWidth 32).setWidth 8 = c.color
  rw [BitVec.setWidth_setWidth_of_le _ (by decide), BitVec.setWidth_eq]

theorem color_vgaEnableCursor (c : Console) : c.vgaEnableCursor.color = c.color := by
  rw [vgaEnableCursor]
  split_ifs <;> rfl

/-- `Init_VGA` leaves its own colour selected. -/
theorem color_initVga (memory : Memory) (fuel : Nat) (c : Console) (args : Arguments) :
    (initVga memory fuel c args).color = 0x0A#8 := by
  have selected : ((c.vgaClear.setColor lightGreen).vgaEnableCursor.vgaSetCursor 0 0).color =
      0x0A#8 := color_vgaEnableCursor (c.vgaClear.setColor lightGreen)
  rw [initVga]
  exact (color_kprintcolor ..).trans selected

/-- A character that has no cell in the selected colour is stored in another. -/
theorem not_kept_vgaPutc {t : Tracked} (onScreen : t.console.OnScreen) {character : BitVec 8}
    (high : 0x80 ≤ character.toNat) (unfit : ¬ Representable t.console.color character) :
    ¬ (t.vgaPutc character).Kept := by
  intro kept
  have inside : t.console.position.toNat < 2000 := onScreen
  have fits : ¬ t.console.position.toNat ≥ vgaWidth * vgaHeight := by
    rw [vgaWidth, vgaHeight]
    omega
  have plain (other : BitVec 8) (small : other.toNat < 0x80) : character ≠ other := by
    rintro rfl
    omega
  refine unfit ((cellOf_eq_append_iff t.console character).mp ?_)
  rw [Tracked.vgaPutc, Tracked.putcBody, Tracked.vgaGetCursorPosition,
    vgaGetCursorPosition_eq] at kept
  simp only [if_neg fits, if_neg (plain newline (by decide)), if_neg (plain tab (by decide)),
    if_neg (plain backspace (by decide))] at kept
  generalize t.console.position = position at inside kept
  have stored : Function.update t.console.vgaMemory position.toNat (t.console.cellOf character)
      position.toNat = t.console.cellOf character := Function.update_self ..
  by_cases full : (position + 1#16).toNat ≥ vgaWidth * vgaHeight
  · -- The last cell of the screen has moved up by a row.
    rw [if_pos full] at kept
    rw [vgaWidth, vgaHeight, BitVec.toNat_add, BitVec.toNat_ofNat] at full
    have last : position.toNat - 80 + 80 = position.toNat := by omega
    have cell := kept (position.toNat - 80) character t.console.color (by
      rw [Tracked.scroll]
      simp only
      rw [if_pos (by omega), last]
      exact Function.update_self ..)
    rw [Tracked.scroll, scroll_eq] at cell
    simp only at cell
    rw [if_pos (by omega), last] at cell
    exact stored.symm.trans cell
  · rw [if_neg full] at kept
    have cell := kept position.toNat character t.console.color (Function.update_self ..)
    exact stored.symm.trans cell

/-! ### Cells and their colours -/

/-- After `Init_VGA`, in every state of a run of calls in which each character sent was either below
0x80 or sent in the colour 0xFF, every cell holds the character stored in it and the colour it was
stored in; the run is that of the calls, and `kprintcolor` leaves the colour as it was. -/
theorem cells_keep_color (memory : Memory) (fuel : Nat) (c : Console) (args : Arguments)
    (calls : List PrintCall) (done rest : List Action)
    (split : runActions fuel (initVga memory fuel c args).color calls = done ++ rest)
    (representable : AllRepresentable (initVga memory fuel c args).color done) :
    (done.foldl Tracked.step ⟨initVga memory fuel c args, fun _ => none⟩).Kept ∧
    (done.foldl Tracked.step ⟨initVga memory fuel c args, fun _ => none⟩).console =
      done.foldl actionStep (initVga memory fuel c args) ∧
    (done ++ rest).foldl actionStep (initVga memory fuel c args) =
      calls.foldl (printStep fuel) (initVga memory fuel c args) ∧
    ∀ console memory new format args,
      (kprintcolor memory fuel console new format args).color = console.color := by
  have start : Follows True (initVga memory fuel c args).color (initVga memory fuel c args)
      ⟨initVga memory fuel c args, fun _ => none⟩ :=
    ⟨rfl, rfl, fun _ i character color noted => absurd noted.symm (Option.some_ne_none _)⟩
  have follows := start.run done fun _ => representable
  refine ⟨follows.kept trivial, follows.console, ?_, fun console memory new format args =>
    color_kprintcolor memory fuel console new format args⟩
  rw [← split, foldl_runActions]

/-- A letter and a coloured line. -/
theorem cells_keep_color_letters :
    (([.output (.putc 0x41#8), .setColor 0x0C#32, .output (.putc 0x42#8)] :
      List Action).foldl Tracked.step
        ⟨initVga (fun _ => 0#8) 100 ⟨fun _ => 0#16, 0#8, fun _ => 0#8, 0x0F#8⟩ (fun _ => 0#64),
          fun _ => none⟩).Kept := by
  refine (cells_keep_color (fun _ => 0#8) 100 ⟨fun _ => 0#16, 0#8, fun _ => 0#8, 0x0F#8⟩
    (fun _ => 0#64) [.putc 0x41#8, .setColor 0x0C#32, .putc 0x42#8] _ [] ?_ ?_).1
  · rw [color_initVga]
    rfl
  · rw [color_initVga]
    exact ⟨Or.inl (by decide), trivial, Or.inl (by decide), trivial⟩

/-- The first character with a sign bit loses its colour. -/
theorem vgaPutc_loses_color :
    ¬ ((runActions 100 (initVga (fun _ => 0#8) 100 ⟨fun _ => 0#16, 0#8, fun _ => 0#8, 0x0F#8⟩
        (fun _ => 0#64)).color [.putc 0x80#8]).foldl Tracked.step
      ⟨initVga (fun _ => 0#8) 100 ⟨fun _ => 0#16, 0#8, fun _ => 0#8, 0x0F#8⟩ (fun _ => 0#64),
        fun _ => none⟩).Kept := by
  have onScreen := onScreen_initVga (fun _ => 0#8) 100 ⟨fun _ => 0#16, 0#8, fun _ => 0#8, 0x0F#8⟩
    (fun _ => 0#64)
  have color := color_initVga (fun _ => 0#8) 100 ⟨fun _ => 0#16, 0#8, fun _ => 0#8, 0x0F#8⟩
    (fun _ => 0#64)
  generalize initVga (fun _ => 0#8) 100 ⟨fun _ => 0#16, 0#8, fun _ => 0#8, 0x0F#8⟩
    (fun _ => 0#64) = c at onScreen color ⊢
  have unfit : ¬ Representable c.color 0x80#8 := by
    rw [color]
    decide
  exact not_kept_vgaPutc (t := ⟨c, fun _ => none⟩) onScreen (by decide) unfit

end M12
