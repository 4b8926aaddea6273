/-
This file proves that the console never writes outside the screen.

The cursor is kept on the screen by `VGA_SetCursor`, which clamps, and every store
goes to the cell under the cursor or to a cell of the screen that a loop names.
To say which cells a call writes, two consoles are compared that differ in one cell
outside the screen: whatever is in that cell stays there, and nothing else depends
on it.
-/

import M12.ConsoleLines
import M12.Printing

namespace M12

open ByteMemory

namespace Console

/-- The cursor is on the screen. -/
def OnScreen (c : Console) : Prop := c.position.toNat < 2000

/-- A call writes a cell: the cell could hold something that does not survive. -/
def WritesCell (call : Console → Console) (c : Console) (i : Nat) : Prop :=
  ∃ value, (call (c.writeCell i value)).vgaMemory i ≠ value

/-! ### Setting the cursor -/

theorem onScreen_vgaSetCursor (c : Console) (x y : Int) : (c.vgaSetCursor x y).OnScreen := by
  rw [OnScreen, toNat_position_vgaSetCursor_int]
  omega

/-- A cursor that has been set is read back, clamped to the screen. -/
theorem vgaGetCursor_vgaSetCursor (c : Console) (x y : Int) :
    (c.vgaSetCursor x y).vgaGetCursor.2 =
      ((max 0 (min x 79)).toNat, (max 0 (min y 24)).toNat) := by
  rw [vgaGetCursor_eq, toNat_position_vgaSetCursor_int, Prod.mk.injEq]
  omega

/-! ### Consoles beside each other -/

/-- The second console is the first with another value in cell `i`, and the cursor is on the
screen. -/
structure Beside (i : Nat) (value : BitVec 16) (c other : Console) : Prop where
  onScreen : c.OnScreen
  other : other = c.writeCell i value

section Beside

variable {i : Nat} {value : BitVec 16} {c other : Console}

theorem beside_vgaSetCursor (same : other = c.writeCell i value) (x y : Int) :
    Beside i value (c.vgaSetCursor x y) (other.vgaSetCursor x y) := by
  refine ⟨onScreen_vgaSetCursor c x y, ?_⟩
  rw [same]
  rfl

variable (beside : Beside i value c other)
include beside

theorem Beside.position : other.position = c.position := by
  rw [beside.other]
  rfl

theorem Beside.cellOf (character : BitVec 8) : other.cellOf character = c.cellOf character := by
  rw [beside.other]
  rfl

theorem Beside.color : other.color = c.color := by
  rw [beside.other]
  rfl

theorem Beside.index (register : BitVec 8) :
    Beside i value { c with crtcIndex := register } { other with crtcIndex := register } := by
  refine ⟨beside.onScreen, ?_⟩
  rw [beside.other]
  rfl

theorem Beside.setColor (newColor : BitVec 32) :
    Beside i value (c.setColor newColor) (other.setColor newColor) := by
  refine ⟨beside.onScreen, ?_⟩
  rw [beside.other]
  rfl

/-- A value for a register that does not hold the position. -/
theorem Beside.setRegister {register : BitVec 8} (notLow : register ≠ cursorLowReg)
    (notHigh : register ≠ cursorHighReg) (stored : BitVec 8) :
    Beside i value ((c.outb vgaCtrlReg register).outb vgaDataReg stored)
      ((other.outb vgaCtrlReg register).outb vgaDataReg stored) := by
  have kept : ((c.outb vgaCtrlReg register).outb vgaDataReg stored).position = c.position := by
    show BitVec.setWidth 16 (Function.update c.crtcData register stored cursorLowReg) |||
      BitVec.setWidth 16 (Function.update c.crtcData register stored cursorHighReg) <<< 8 = _
    rw [Function.update_of_ne notLow.symm, Function.update_of_ne notHigh.symm]
    rfl
  refine ⟨?_, ?_⟩
  · rw [OnScreen, kept]
    exact beside.onScreen
  · rw [beside.other]
    rfl

theorem Beside.vgaSetCursor (x y : Int) :
    Beside i value (c.vgaSetCursor x y) (other.vgaSetCursor x y) :=
  beside_vgaSetCursor beside.other x y

/-- What keeps two consoles beside each other does so any number of times. -/
theorem Beside.repeat {step : Console → Console}
    (keeps : ∀ {c other}, Beside i value c other → Beside i value (step c) (step other))
    (count : Nat) :
    Beside i value ((List.range count).foldl (fun c _ => step c) c)
      ((List.range count).foldl (fun c _ => step c) other) := by
  induction count with
  | zero => exact beside
  | succ count inductionHypothesis =>
    rw [List.range_succ, List.foldl_append, List.foldl_append]
    exact keeps inductionHypothesis

variable (outside : 2000 ≤ i)
include outside

theorem Beside.writeCell {j : Nat} (inside : j < 2000) (stored : BitVec 16) :
    Beside i value (c.writeCell j stored) (other.writeCell j stored) := by
  have different : i ≠ j := by omega
  refine ⟨beside.onScreen, ?_⟩
  rw [beside.other]
  show { c with vgaMemory := Function.update (Function.update c.vgaMemory i value) j stored } =
    { c with vgaMemory := Function.update (Function.update c.vgaMemory j stored) i value }
  rw [Function.update_comm different]

theorem Beside.scroll : Beside i value c.scroll other.scroll := by
  refine ⟨?_, ?_⟩
  · rw [OnScreen, position_scroll]
    exact beside.onScreen
  · rw [beside.other, scroll_eq, scroll_eq]
    refine memory_congr c fun k => ?_
    show (if k < 1920 then Function.update c.vgaMemory i value (k + 80)
      else if k < 2000 then c.cellOf space else Function.update c.vgaMemory i value k) = _
    rw [Function.update_apply, Function.update_apply, Function.update_apply]
    by_cases here : k = i
    · rw [if_neg (by omega), if_neg (by omega), if_pos here, if_pos here]
    · rw [if_neg here, if_neg here]
      by_cases copied : k < 1920
      · rw [if_pos copied, if_neg (by omega)]
        exact (if_pos copied).symm
      · rw [if_neg copied]
        exact (if_neg copied).symm

/-- A store under the cursor. -/
theorem Beside.putCell {j : Nat} (inside : j < 2000) (character : BitVec 8) :
    Beside i value (c.writeCell j (c.cellOf character))
      (other.writeCell j (other.cellOf character)) := by
  rw [beside.cellOf]
  exact beside.writeCell outside inside _

/-! ### One character -/

theorem Beside.putcBody {putSpace : Console → Console}
    (spaced : ∀ {c other}, Beside i value c other → Beside i value (putSpace c) (putSpace other))
    (character : BitVec 8) :
    Beside i value (putcBody putSpace c character) (putcBody putSpace other character) := by
  have onScreen : c.position.toNat < 2000 := beside.onScreen
  have fits : ¬ c.position.toNat ≥ vgaWidth * vgaHeight := by
    rw [vgaWidth, vgaHeight]
    omega
  have indexed := beside.index cursorHighReg
  rw [Console.putcBody, Console.putcBody, vgaGetCursorPosition_eq, vgaGetCursorPosition_eq,
    beside.position]
  simp only [if_neg fits]
  generalize c.position = position at onScreen ⊢
  generalize { c with crtcIndex := cursorHighReg } = c at indexed ⊢
  generalize { other with crtcIndex := cursorHighReg } = other at indexed ⊢
  by_cases isNewline : character = newline
  · rw [if_pos isNewline, if_pos isNewline]
    by_cases bottom : position.toNat / vgaWidth ≥ vgaHeight - 1
    · rw [if_pos bottom, if_pos bottom]
      exact (indexed.scroll outside).vgaSetCursor _ _
    · rw [if_neg bottom, if_neg bottom]
      exact indexed.vgaSetCursor _ _
  rw [if_neg isNewline, if_neg isNewline]
  by_cases isTab : character = tab
  · rw [if_pos isTab, if_pos isTab]
    exact indexed.repeat spaced 4
  rw [if_neg isTab, if_neg isTab]
  by_cases isBackspace : character = backspace
  · rw [if_pos isBackspace, if_pos isBackspace]
    by_cases behind : position.toNat > 0
    · rw [if_pos behind, if_pos behind]
      have inside : (position - 1#16).toNat < 2000 := by
        rw [BitVec.toNat_sub, BitVec.toNat_ofNat]
        omega
      exact (indexed.vgaSetCursor _ _).putCell outside inside space
    · rw [if_neg behind, if_neg behind]
      exact indexed
  · rw [if_neg isBackspace, if_neg isBackspace]
    have moved := ((indexed.putCell outside onScreen character).vgaSetCursor
      ((position + 1#16).toNat % vgaWidth) ((position + 1#16).toNat / vgaWidth))
    by_cases full : (position + 1#16).toNat ≥ vgaWidth * vgaHeight
    · rw [if_pos full, if_pos full]
      exact moved.scroll outside
    · rw [if_neg full, if_neg full]
      exact moved

theorem Beside.vgaPutc (character : BitVec 8) :
    Beside i value (c.vgaPutc character) (other.vgaPutc character) :=
  beside.putcBody outside (fun beside => beside.putcBody outside id space) character

theorem Beside.rmline : Beside i value c.rmline other.rmline := by
  rw [Console.rmline, Console.rmline, vgaGetCursor_eq, vgaGetCursor_eq, beside.position]
  have start := (beside.index cursorHighReg).vgaSetCursor 0 (c.position.toNat / 80 : Nat)
  have blanked := start.repeat (fun beside => beside.vgaPutc outside space) vgaWidth
  exact blanked.vgaSetCursor 0 (c.position.toNat / 80 : Nat)

/-! ### Strings and numbers -/

/-- What two calls beside each other return is the same. -/
structure BesideReturning (i : Nat) (value : BitVec 16) (done other : Console × Bool) : Prop where
  console : Beside i value done.1 other.1
  returned : other.2 = done.2

omit beside in
theorem Beside.putString (beside : Beside i value c other) (fuel : Nat) (str : CString) :
    BesideReturning i value (putString fuel c str) (putString fuel other str) := by
  induction fuel generalizing c other str with
  | zero => exact ⟨beside, rfl⟩
  | succ fuel inductionHypothesis =>
    rw [Console.putString, Console.putString]
    by_cases ends : str 0 = 0#8
    · rw [if_pos ends, if_pos ends]
      exact ⟨beside, rfl⟩
    · rw [if_neg ends, if_neg ends]
      exact inductionHypothesis (beside.vgaPutc outside (str 0)) _

theorem Beside.kprint (fuel : Nat) (str : CString) :
    BesideReturning i value (c.kprint fuel str) (other.kprint fuel str) := by
  rw [Console.kprint, Console.kprint]
  split_ifs
  · exact ⟨beside.rmline outside, rfl⟩
  · exact beside.putString outside fuel str

theorem Beside.kprintNum (fuel : Nat) (num : BitVec 32) :
    BesideReturning i value (c.kprintNum fuel num) (other.kprintNum fuel num) := by
  rw [Console.kprintNum, Console.kprintNum]
  split_ifs
  all_goals exact beside.kprint outside fuel _

theorem Beside.directive (memory : Memory) (fuel : Nat) (kind : BitVec 8) (args : Arguments) :
    BesideReturning i value (directive memory fuel c kind args).1
        (directive memory fuel other kind args).1 ∧
      (directive memory fuel other kind args).2 = (directive memory fuel c kind args).2 := by
  rw [Console.directive, Console.directive]
  split_ifs
  · exact ⟨beside.kprintNum outside fuel _, rfl⟩
  · exact ⟨beside.kprint outside fuel _, rfl⟩
  · exact ⟨⟨beside.vgaPutc outside _, rfl⟩, rfl⟩
  · exact ⟨beside.kprint outside fuel _, rfl⟩
  · exact ⟨beside.kprint outside fuel _, rfl⟩
  · exact ⟨⟨(beside.vgaPutc outside percent).vgaPutc outside kind, rfl⟩, rfl⟩

omit beside in
theorem Beside.vkprintfLoop (beside : Beside i value c other) (memory : Memory) (fuel : Nat)
    (format : CString) (args : Arguments) (p : Nat) :
    Beside i value (vkprintfLoop memory fuel c format args p).console
      (vkprintfLoop memory fuel other format args p).console := by
  induction fuel generalizing c other args p with
  | zero => exact beside
  | succ fuel inductionHypothesis =>
    rw [Console.vkprintfLoop, Console.vkprintfLoop]
    by_cases ends : format p = 0#8
    · rw [if_pos ends, if_pos ends]
      exact beside
    rw [if_neg ends, if_neg ends]
    by_cases directed : format p = percent
    · rw [if_pos directed, if_pos directed]
      obtain ⟨⟨console, returned⟩, left⟩ :=
        beside.directive outside memory fuel (format (p + 1)) args
      generalize Console.directive memory fuel c (format (p + 1)) args = done at *
      generalize Console.directive memory fuel other (format (p + 1)) args = otherDone at *
      obtain ⟨⟨c, flag⟩, rest⟩ := done
      obtain ⟨⟨other, otherFlag⟩, otherRest⟩ := otherDone
      obtain rfl : otherFlag = flag := returned
      obtain rfl : otherRest = rest := left
      cases otherFlag with
      | true => exact inductionHypothesis console _ _
      | false => exact console
    · rw [if_neg directed, if_neg directed]
      exact inductionHypothesis (beside.vgaPutc outside (format p)) _ _

theorem Beside.kprintcolor (memory : Memory) (fuel : Nat) (new : BitVec 32) (format : CString)
    (args : Arguments) :
    Beside i value (c.kprintcolor memory fuel new format args)
      (other.kprintcolor memory fuel new format args) := by
  rw [Console.kprintcolor, Console.kprintcolor, beside.color]
  exact ((beside.setColor new).vkprintfLoop outside memory fuel format args 0).setColor _

/-! ### Calls -/

omit outside in
theorem Beside.vgaEnableCursor : Beside i value c.vgaEnableCursor other.vgaEnableCursor := by
  have styled : Beside i value (c.vgaSetCursorStyle 14#8 15#8)
      (other.vgaSetCursorStyle 14#8 15#8) :=
    (beside.setRegister (by decide) (by decide) 14#8).setRegister (by decide) (by decide) 15#8
  have indexed := styled.index cursorStartReg
  have same : (other.vgaSetCursorStyle 14#8 15#8).crtcData =
      (c.vgaSetCursorStyle 14#8 15#8).crtcData := by
    rw [styled.other]
    rfl
  have start : ((other.vgaSetCursorStyle 14#8 15#8).outb vgaCtrlReg cursorStartReg).inb
      vgaDataReg = ((c.vgaSetCursorStyle 14#8 15#8).outb vgaCtrlReg cursorStartReg).inb
        vgaDataReg := congrFun same cursorStartReg
  rw [Console.vgaEnableCursor, Console.vgaEnableCursor]
  simp only [start]
  split_ifs
  · exact styled.setRegister (by decide) (by decide) _
  · exact indexed

omit outside in
theorem Beside.vgaDisableCursor : Beside i value c.vgaDisableCursor other.vgaDisableCursor :=
  beside.setRegister (by decide) (by decide) _

theorem Beside.consoleStep (fuel : Nat) (call : ConsoleCall) :
    Beside i value (consoleStep fuel c call) (consoleStep fuel other call) := by
  cases call with
  | putc character => exact beside.vgaPutc outside character
  | kprint str => exact (beside.kprint outside fuel str).console
  | kprintf memory format args => exact beside.vkprintfLoop outside memory fuel format args 0
  | kprintcolor memory new format args =>
    exact beside.kprintcolor outside memory fuel new format args
  | rmline => exact beside.rmline outside
  | setCursor x y => exact beside.vgaSetCursor x y
  | enableCursor => exact beside.vgaEnableCursor
  | disableCursor => exact beside.vgaDisableCursor

end Beside

/-! ### The console stays on the screen -/

/-- Whatever keeps consoles beside each other keeps the cursor on the screen. -/
theorem onScreen_of_beside (step : Console → Console) {c : Console} (onScreen : c.OnScreen)
    (keeps : ∀ {other}, Beside 2000 0#16 c other → Beside 2000 0#16 (step c) (step other)) :
    (step c).OnScreen := (keeps ⟨onScreen, rfl⟩).onScreen

/-- And it writes no cell outside the screen. -/
theorem lt_of_writesCell {step : Console → Console} {c : Console} (onScreen : c.OnScreen)
    (keeps : ∀ {i value other}, 2000 ≤ i → Beside i value c other →
      Beside i value (step c) (step other)) {i : Nat} (writes : WritesCell step c i) :
    i < 2000 := by
  obtain ⟨value, changed⟩ := writes
  by_contra beyond
  have after : Beside i value (step c) (step (c.writeCell i value)) :=
    keeps (Nat.le_of_not_lt beyond) ⟨onScreen, rfl⟩
  rw [after.other] at changed
  exact changed (Function.update_self ..)

theorem onScreen_initVga (memory : Memory) (fuel : Nat) (c : Console) (args : Arguments) :
    (initVga memory fuel c args).OnScreen := by
  rw [initVga]
  have home := onScreen_vgaSetCursor (c.vgaClear.setColor lightGreen).vgaEnableCursor 0 0
  generalize vgaSetCursor _ 0 0 = c at home ⊢
  exact onScreen_of_beside (fun c => c.kprintcolor memory fuel lightRed _ args) home
    fun beside => beside.kprintcolor (Nat.le_refl 2000) memory fuel lightRed _ args

theorem onScreen_consoleRun (fuel : Nat) {c : Console} (onScreen : c.OnScreen)
    (calls : List ConsoleCall) : (consoleRun fuel c calls).OnScreen := by
  induction calls generalizing c with
  | nil => exact onScreen
  | cons call rest inductionHypothesis =>
    have next : (consoleStep fuel c call).OnScreen :=
      onScreen_of_beside (fun c => consoleStep fuel c call) onScreen fun beside =>
        beside.consoleStep (Nat.le_refl 2000) fuel call
    exact inductionHypothesis next

/-- After `Init_VGA`, whatever calls are made, the cursor is on the screen between them, the next
call writes no cell outside the screen, and a cursor that is set is read back clamped. -/
theorem console_stays_on_screen (c : Console) (memory : Memory) (fuel : Nat) (args : Arguments)
    (calls : List ConsoleCall) :
    (consoleRun fuel (initVga memory fuel c args) calls).position.toNat < 2000 ∧
    (∀ call i, WritesCell (fun c => consoleStep fuel c call)
      (consoleRun fuel (initVga memory fuel c args) calls) i → i < 2000) ∧
    ∀ x y, ((consoleRun fuel (initVga memory fuel c args) calls).vgaSetCursor x y).vgaGetCursor.2 =
      ((max 0 (min x 79)).toNat, (max 0 (min y 24)).toNat) := by
  have onScreen := onScreen_consoleRun fuel (onScreen_initVga memory fuel c args) calls
  refine ⟨onScreen, fun call i writes => ?_, fun x y => vgaGetCursor_vgaSetCursor _ x y⟩
  exact lt_of_writesCell onScreen
    (fun outside beside => beside.consoleStep outside fuel call) writes

end Console

end M12
