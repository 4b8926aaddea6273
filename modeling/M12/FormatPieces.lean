/-
This file proves what the kernel's own messages look like on the screen.

The kernel prints with format literals that it cuts its values into. Such a format
is a row of pieces, texts and directives with their arguments, and each piece
prints its part: a text itself, a number its numeral, a string what lies at its
address. A report is several such messages one after the other, and what it prints
is put on the screen character by character.
-/

import M12.ConsoleLines
import M12.Rendering

namespace M12

open ByteMemory Console

/-! ### Calls of kprintf -/

/-- The slots of a `va_list` that holds these values. -/
def slots (values : List (BitVec 64)) : Arguments := fun i => values.getD i 0#64

/-- A call of `kprintf` with a literal. -/
structure KprintfCall where
  format : String
  values : List (BitVec 64)

/-- Several calls of `kprintf`. -/
def Console.printAll (memory : Memory) (fuel : Nat) (c : Console) (calls : List KprintfCall) :
    Console :=
  calls.foldl (fun c call =>
    c.kprintf memory fuel (buffer (literal call.format)) (slots call.values)) c

/-- The calls print these lines, whatever the screen shows before, when the loops have enough
rounds. -/
def Prints (memory : Memory) (calls : List KprintfCall) (lines : List String) : Prop :=
  ∃ bound, ∀ fuel, bound < fuel → ∀ c : Console,
    c.printAll memory fuel calls = c.putcRun (lines.flatMap literal)

/-! ### Pieces -/

/-- A piece of a format, with the argument it takes. -/
inductive Piece where
  | text (characters : String)
  | decimal (value : BitVec 64)
  | hexadecimal (value : BitVec 64)
  | string (address : BitVec 64) (characters : String)

namespace Piece

/-- The piece in the format. -/
def format : Piece → String
  | text characters => characters
  | decimal _ => "%d"
  | hexadecimal _ => "%x"
  | string _ _ => "%s"

/-- The piece in the arguments. -/
def values : Piece → List (BitVec 64)
  | text _ => []
  | decimal value => [value]
  | hexadecimal value => [value]
  | string address _ => [address]

/-- The numeral of a number in base 16. -/
def hexNumeral (num : Nat) : String := String.ofList (Nat.toDigits 16 num)

/-- The piece on the screen. -/
def printed : Piece → String
  | text characters => characters
  | decimal value => toString (value.setWidth 32 : BitVec 32).toInt
  | hexadecimal value => hexNumeral value.toNat
  | string _ characters => characters

/-- Texts have no directive in them, and strings lie where their addresses say and are not the
command that erases a line. -/
def Sound (memory : Memory) : List Piece → Prop
  | [] => True
  | text characters :: rest =>
    (∀ character ∈ literal characters, character ≠ 0#8 ∧ character ≠ percent) ∧ Sound memory rest
  | decimal _ :: rest => Sound memory rest
  | hexadecimal _ :: rest => Sound memory rest
  | string address characters :: rest =>
    (HasText (stringAt memory address) (literal characters) ∧
      literal characters ≠ literal "\x1b[2k") ∧ Sound memory rest

end Piece

/-- The pieces joined, as a format or as what is printed. -/
def joined (part : Piece → String) (pieces : List Piece) : String :=
  pieces.foldr (fun piece rest => part piece ++ rest) ""

theorem joined_nil (part : Piece → String) : joined part [] = "" := rfl

theorem joined_cons (part : Piece → String) (piece : Piece) (rest : List Piece) :
    joined part (piece :: rest) = part piece ++ joined part rest := rfl

/-! ### The calls of a format in pieces -/

theorem buffer_append (first second : List (BitVec 8)) (i : Nat) :
    buffer (first ++ second) (first.length + i) = buffer second i := by
  rw [buffer, buffer, List.getD_append_right _ _ _ _ (Nat.le_add_right _ _),
    Nat.add_sub_cancel_left]

/-- The format from `p` on holds these characters and its end. -/
def FormatFrom (format : CString) (p : Nat) (characters : List (BitVec 8)) : Prop :=
  ∀ i, format (p + i) = buffer characters i

theorem FormatFrom.behind {format : CString} {p : Nat} {first second : List (BitVec 8)}
    (here : FormatFrom format p (first ++ second)) :
    FormatFrom format (p + first.length) second := by
  intro i
  rw [Nat.add_assoc, here, buffer_append]

section Pieces

variable {memory : Memory} {format : CString}

/-- From `p` on, `vkprintf` prints this text. -/
def PrintsFrom (memory : Memory) (format : CString) (p : Nat) (args : Arguments)
    (text : List (BitVec 8)) : Prop :=
  ∃ bound, ∀ fuel, bound < fuel → ∀ frames,
    vkprintfOutputLoop memory fuel frames format args p = (putAll text, true)

/-- Characters that are no directive print themselves. -/
theorem PrintsFrom.text {characters more : List (BitVec 8)} {p : Nat} {args : Arguments}
    {text : List (BitVec 8)}
    (plain : ∀ character ∈ characters, character ≠ 0#8 ∧ character ≠ percent)
    (here : FormatFrom format p (characters ++ more))
    (later : PrintsFrom memory format (p + characters.length) args text) :
    PrintsFrom memory format p args (characters ++ text) := by
  induction characters generalizing p with
  | nil => exact later
  | cons character rest inductionHypothesis =>
    rw [List.forall_mem_cons] at plain
    obtain ⟨⟨notEnd, notDirective⟩, others⟩ := plain
    have first : format p = character := here 0
    have next : FormatFrom format (p + 1) (rest ++ more) :=
      @FormatFrom.behind format p [character] (rest ++ more) here
    have moved : p + (character :: rest).length = p + 1 + rest.length := by
      rw [List.length_cons]
      omega
    obtain ⟨bound, prints⟩ := inductionHypothesis others next (moved ▸ later)
    refine ⟨bound + 1, fun fuel enough frames => ?_⟩
    obtain ⟨fuel, rfl⟩ := Nat.exists_eq_add_one.mpr (Nat.zero_lt_of_lt enough)
    rw [vkprintfOutputLoop, first, if_neg notEnd, if_neg notDirective,
      prints fuel (Nat.lt_of_succ_lt_succ enough) frames]
    rfl

/-- A directive prints what its argument stands for. -/
theorem PrintsFrom.directive {kind : BitVec 8} {more : List (BitVec 8)} {p : Nat}
    {args : Arguments} {text numeral : List (BitVec 8)}
    (here : FormatFrom format p (percent :: kind :: more))
    (calls : ∃ rounds, ∀ fuel, rounds < fuel → ∀ frame,
      directiveOutput memory fuel frame kind args = ((putAll numeral, true), args.rest))
    (later : PrintsFrom memory format (p + 2) args.rest text) :
    PrintsFrom memory format p args (numeral ++ text) := by
  obtain ⟨bound, prints⟩ := later
  obtain ⟨rounds, calls⟩ := calls
  have directed : format p = percent := here 0
  have second : format (p + 1) = kind := here 1
  refine ⟨bound + rounds + 1, fun fuel enough frames => ?_⟩
  obtain ⟨fuel, rfl⟩ := Nat.exists_eq_add_one.mpr (Nat.zero_lt_of_lt enough)
  rw [vkprintfOutputLoop_directive directed
      (second.symm ▸ calls fuel (by omega) (frames p)),
    prints fuel (by omega) frames, putAll, putAll, putAll, List.map_append]

/-- A format in pieces prints what the pieces print. -/
theorem printsFrom_pieces {pieces : List Piece} (sound : Piece.Sound memory pieces)
    {p : Nat} (here : FormatFrom format p (literal (joined Piece.format pieces))) :
    PrintsFrom memory format p (slots (pieces.flatMap Piece.values))
      (literal (joined Piece.printed pieces)) := by
  induction pieces generalizing p with
  | nil =>
    have ends : format p = 0#8 := here 0
    refine ⟨0, fun fuel enough frames => ?_⟩
    obtain ⟨fuel, rfl⟩ := Nat.exists_eq_add_one.mpr enough
    rw [vkprintfOutputLoop, if_pos ends]
    rfl
  | cons piece rest inductionHypothesis =>
    rw [joined_cons, literal_append] at here
    rw [joined_cons, literal_append]
    cases piece with
    | text characters =>
      exact PrintsFrom.text sound.1 here (inductionHypothesis sound.2 here.behind)
    | decimal value =>
      rw [Piece.format, show literal "%d" = [percent, 0x64#8] by decide] at here
      refine PrintsFrom.directive here ⟨(numberText (value.setWidth 32)).length,
        fun fuel enough frame => ?_⟩
        (inductionHypothesis sound here.behind)
      have numeral := numberText_eq (value.setWidth 32)
      rw [Piece.printed, ← numeral]
      exact directiveOutput_decimal frame enough
    | hexadecimal value =>
      rw [Piece.format, show literal "%x" = [percent, 0x78#8] by decide] at here
      refine PrintsFrom.directive here ⟨(hexBuffer value).length, fun fuel enough frame => ?_⟩
        (inductionHypothesis sound here.behind)
      have numeral : hexBuffer value = literal (Piece.hexNumeral value.toNat) := by
        rw [hexBuffer_eq, literal, Piece.hexNumeral, String.toList_ofList]
        rfl
      rw [Piece.printed, ← numeral]
      exact directiveOutput_hexadecimal frame enough
    | string address characters =>
      rw [Piece.format, show literal "%s" = [percent, 0x73#8] by decide] at here
      refine PrintsFrom.directive here ⟨(literal characters).length, fun fuel enough frame => ?_⟩
        (inductionHypothesis sound.2 here.behind)
      rw [directiveOutput_string frame sound.1.1 enough, if_neg sound.1.2]
      rfl

end Pieces

/-! ### What the calls print -/

/-- The format is one in pieces, and this is what they print. -/
def KprintfCall.PrintsLine (memory : Memory) (call : KprintfCall) (line : String) : Prop :=
  ∃ pieces : List Piece, Piece.Sound memory pieces ∧
    call.format = joined Piece.format pieces ∧ call.values = pieces.flatMap Piece.values ∧
      line = joined Piece.printed pieces

theorem emitAll_putAll (c : Console) (text : List (BitVec 8)) :
    c.emitAll (putAll text) = c.putcRun text := by
  rw [emitAll, putAll, List.foldl_map]
  rfl

theorem KprintfCall.PrintsLine.kprintf {memory : Memory} {call : KprintfCall} {line : String}
    (prints : call.PrintsLine memory line) : ∃ bound, ∀ fuel, bound < fuel → ∀ c : Console,
      c.kprintf memory fuel (buffer (literal call.format)) (slots call.values) =
        c.putcRun (literal line) := by
  obtain ⟨pieces, sound, format, values, text⟩ := prints
  have here : FormatFrom (buffer (literal call.format)) 0
      (literal (joined Piece.format pieces)) := by
    intro i
    rw [format, Nat.zero_add]
  obtain ⟨bound, output⟩ := printsFrom_pieces sound here
  refine ⟨bound, fun fuel enough c => ?_⟩
  let blank : Frame := ⟨⟨fun _ => 0#8⟩, ⟨fun _ => 0#8⟩⟩
  rw [Console.kprintf, (vkprintf_eq_emitAll memory fuel (fun _ => blank) c _ _).1, values, text,
    vkprintfOutput, output fuel enough, emitAll_putAll]

/-- Calls print their lines one after the other. -/
theorem prints_lines {memory : Memory} {calls : List KprintfCall} {lines : List String}
    (each : List.Forall₂ (KprintfCall.PrintsLine memory) calls lines) :
    Prints memory calls lines := by
  induction each with
  | nil => exact ⟨0, fun fuel enough c => rfl⟩
  | cons one others inductionHypothesis =>
    obtain ⟨bound, first⟩ := one.kprintf
    obtain ⟨rounds, rest⟩ := inductionHypothesis
    refine ⟨bound + rounds, fun fuel enough c => ?_⟩
    rw [printAll, List.foldl_cons, ← printAll, first fuel (by omega), rest fuel (by omega),
      List.flatMap_cons, putcRun, putcRun, putcRun, List.foldl_append]

/-- Calls before other calls. -/
theorem Prints.append {memory : Memory} {first second : List KprintfCall} {lines more : List String}
    (one : Prints memory first lines) (other : Prints memory second more) :
    Prints memory (first ++ second) (lines ++ more) := by
  obtain ⟨bound, before⟩ := one
  obtain ⟨rounds, after⟩ := other
  refine ⟨bound + rounds, fun fuel enough c => ?_⟩
  have joined : c.printAll memory fuel (first ++ second) =
      (c.printAll memory fuel first).printAll memory fuel second := List.foldl_append
  rw [joined, before fuel (by omega), after fuel (by omega), List.flatMap_append, putcRun, putcRun,
    putcRun, List.foldl_append]

end M12
