/-
This file models the buffers in which `kernel/vga.c` builds its numbers.

`buf` has sixteen places and `hex_buf` has twenty, and both start out with whatever
the stack holds. The decimal digits are put into `buf` with the last one first and
then turned around in place; the hexadecimal ones fill `hex_buf` from its end. The
functions have no result when an index lies outside the buffer, and they always
have one: the text that `kprint` is called with is the numeral of the number.
-/

import M12.FormatReads
import M12.Library.BoundedArray

namespace M12

open ByteMemory Console

/-- `char buf[16]`. -/
abbrev DigitBuffer := BoundedArray (BitVec 8) 16

/-- `char hex_buf[20]`. -/
abbrev HexBuffer := BoundedArray (BitVec 8) 20

/-! ### The buffers -/

/-- `while (num > 0 && i < 15)`: the buffer and `i` when the loop ends. -/
def fillDigits (buf : DigitBuffer) (i num : Nat) : Option (DigitBuffer × Nat) :=
  if num > 0 ∧ i < 15 then do
    let buf ← buf.write i (BitVec.ofNat 8 (48 + num % 10))
    fillDigits buf (i + 1) (num / 10)
  else some (buf, i)
termination_by num

/-- The digits in `buf`, and `i` behind them. -/
def putDigits (buf : DigitBuffer) (num : Nat) : Option (DigitBuffer × Nat) :=
  if num = 0 then (buf.write 0 0x30#8).map fun buf => (buf, 1) else fillDigits buf 0 num

/-- `if (is_negative) buf[i++] = '-'`. -/
def putSign (buf : DigitBuffer) (i : Nat) (isNegative : Bool) : Option (DigitBuffer × Nat) :=
  if isNegative then (buf.write i 0x2D#8).map fun buf => (buf, i + 1) else some (buf, i)

/-- What `kprint_num` and `kprint_unsigned` do with `buf`, and the string they find in it. -/
def numeralIn (buf : DigitBuffer) (num : Nat) (isNegative : Bool) : Option (List (BitVec 8)) := do
  let (buf, i) ← putDigits buf num
  let (buf, i) ← putSign buf i isNegative
  let buf ← buf.write i 0#8
  let buf ← buf.reverseBetween 0 (i - 1)
  buf.textFrom 0#8 0

/-- The string `kprint_num` passes to `kprint`. -/
def kprintNumText (buf : DigitBuffer) (num : BitVec 32) : Option (List (BitVec 8)) :=
  if num.toInt = -2147483648 then some (literal "-2147483648")
  else numeralIn buf num.toInt.natAbs (num.toInt < 0)

/-- The string `kprint_unsigned` passes to `kprint`. -/
def kprintUnsignedText (buf : DigitBuffer) (num : BitVec 32) : Option (List (BitVec 8)) :=
  numeralIn buf num.toNat false

/-- `while (num > 0)` over `hex_buf`: the buffer and `p` when the loop ends. In front of the first
element there is no room. -/
def fillHex : Nat → Nat → HexBuffer → Option (HexBuffer × Nat)
  | 0, num, hexBuf => if num > 0 then none else some (hexBuf, 0)
  | p + 1, num, hexBuf =>
    if num > 0 then do
      let digit := num % 16
      let hexBuf ← hexBuf.write p
        (BitVec.ofNat 8 (if digit < 10 then 48 + digit else 97 + digit - 10))
      fillHex p (num / 16) hexBuf
    else some (hexBuf, p + 1)

/-- The digits in `hex_buf`, and `p` at the first of them. -/
def putHex (hexBuf : HexBuffer) (p num : Nat) : Option (HexBuffer × Nat) :=
  if num = 0 then (hexBuf.write (p - 1) 0x30#8).map fun hexBuf => (hexBuf, p - 1)
  else fillHex p num hexBuf

/-- The string `vkprintf` passes to `kprint` for a `%x`. -/
def hexText (hexBuf : HexBuffer) (num : BitVec 64) : Option (List (BitVec 8)) := do
  let p := 20 - 1
  let hexBuf ← hexBuf.write p 0#8
  let (hexBuf, p) ← putHex hexBuf p num.toNat
  hexBuf.textFrom 0#8 p

/-! ### Decimal digits -/

theorem digits_zero (room : Nat) : digits room 0 = [] := by
  cases room with
  | zero => rfl
  | succ room => rw [digits, if_neg (Nat.lt_irrefl 0)]

/-- A number below a power of ten has no more digits than the power. -/
theorem length_digits_le (room num count : Nat) (small : num < 10 ^ count) :
    (digits room num).length ≤ count := by
  induction room generalizing num count with
  | zero => exact Nat.zero_le count
  | succ room inductionHypothesis =>
    rw [digits]
    by_cases positive : num > 0
    · rw [if_pos positive, List.length_cons]
      cases count with
      | zero =>
        rw [pow_zero] at small
        omega
      | succ count =>
        rw [pow_succ] at small
        exact Nat.succ_le_succ (inductionHypothesis (num / 10) count (by omega))
    · rw [if_neg positive]
      exact Nat.zero_le count

theorem mem_digits {room num : Nat} {character : BitVec 8} (member : character ∈ digits room num) :
    48 ≤ character.toNat := by
  induction room generalizing num with
  | zero => exact absurd member List.not_mem_nil
  | succ room inductionHypothesis =>
    rw [digits] at member
    by_cases positive : num > 0
    · rw [if_pos positive, List.mem_cons] at member
      rcases member with rfl | later
      · rw [BitVec.toNat_ofNat]
        omega
      · exact inductionHypothesis later
    · rw [if_neg positive] at member
      exact absurd member List.not_mem_nil

theorem mem_digitBuffer {num : Nat} {character : BitVec 8}
    (member : character ∈ digitBuffer num) : 48 ≤ character.toNat := by
  rw [digitBuffer] at member
  split_ifs at member
  · exact (by decide : ∀ character ∈ literal "0", 48 ≤ character.toNat) character member
  · exact mem_digits member

/-- The loop puts the digits behind what the buffer holds. -/
theorem exists_fillDigits {buf : DigitBuffer} {text : List (BitVec 8)} (holds : buf.Holds 0 text)
    (room : text.length ≤ 15) (num : Nat) :
    ∃ filled, fillDigits buf text.length num =
        some (filled, (text ++ digits (15 - text.length) num).length) ∧
      filled.Holds 0 (text ++ digits (15 - text.length) num) := by
  induction num using Nat.strong_induction_on generalizing buf text with
  | _ num inductionHypothesis =>
    rw [fillDigits]
    by_cases more : num > 0 ∧ text.length < 15
    · obtain ⟨next, wrote, held⟩ :=
        holds.append (by omega) (BitVec.ofNat 8 (48 + num % 10))
      have length : (text ++ [BitVec.ofNat 8 (48 + num % 10)]).length = text.length + 1 := by
        rw [List.length_append, List.length_singleton]
      obtain ⟨filled, loop, heldAll⟩ := inductionHypothesis (num / 10) (by omega) held (by omega)
      have digitsEq : digits (15 - text.length) num =
          BitVec.ofNat 8 (48 + num % 10) :: digits (15 - (text.length + 1)) (num / 10) := by
        rw [show 15 - text.length = 15 - (text.length + 1) + 1 by omega, digits, if_pos more.1]
      rw [length, List.append_assoc, List.singleton_append, ← digitsEq] at loop heldAll
      rw [Nat.zero_add] at wrote
      rw [if_pos more, wrote]
      exact ⟨filled, loop, heldAll⟩
    · rw [if_neg more]
      have none : digits (15 - text.length) num = [] := by
        by_cases zero : num = 0
        · rw [zero, digits_zero]
        · rw [show 15 - text.length = 0 by omega, digits]
      rw [none, List.append_nil]
      exact ⟨buf, rfl, holds⟩

theorem length_digitBuffer_le {num : Nat} (small : num < 10 ^ 10) :
    (digitBuffer num).length ≤ 10 := by
  rw [digitBuffer]
  split_ifs
  · decide
  · exact length_digits_le 15 num 10 small

theorem exists_putDigits (buf : DigitBuffer) (num : Nat) :
    ∃ filled, putDigits buf num = some (filled, (digitBuffer num).length) ∧
      filled.Holds 0 (digitBuffer num) := by
  rw [putDigits, digitBuffer]
  by_cases zero : num = 0
  · rw [if_pos zero, if_pos zero]
    obtain ⟨filled, wrote, held⟩ :=
      (buf.holds_nil 0).append (by decide : 0 + [].length < 16) 0x30#8
    rw [List.length_nil, Nat.add_zero] at wrote
    rw [wrote]
    exact ⟨filled, rfl, held⟩
  · rw [if_neg zero, if_neg zero]
    exact exists_fillDigits (buf.holds_nil 0) (Nat.zero_le 15) num

/-- The digits with the sign behind them. -/
def signedText (text : List (BitVec 8)) (isNegative : Bool) : List (BitVec 8) :=
  if isNegative then text ++ literal "-" else text

theorem length_signedText_le (text : List (BitVec 8)) (isNegative : Bool) :
    (signedText text isNegative).length ≤ text.length + 1 := by
  rw [signedText]
  split_ifs
  · rw [List.length_append]
    exact Nat.le_refl _
  · exact Nat.le_succ _

/-- A digit or a sign is behind every control character. -/
theorem mem_signedText {num : Nat} {isNegative : Bool} {character : BitVec 8}
    (member : character ∈ signedText (digitBuffer num) isNegative) : 45 ≤ character.toNat := by
  rw [signedText] at member
  split_ifs at member
  · rw [List.mem_append] at member
    rcases member with digit | sign
    · exact (by decide : 45 ≤ 48).trans (mem_digitBuffer digit)
    · exact (by decide : ∀ character ∈ literal "-", 45 ≤ character.toNat) character sign
  · exact (by decide : 45 ≤ 48).trans (mem_digitBuffer member)

theorem exists_putSign {buf : DigitBuffer} {text : List (BitVec 8)} (holds : buf.Holds 0 text)
    (room : text.length < 16) (isNegative : Bool) :
    ∃ signed, putSign buf text.length isNegative =
        some (signed, (signedText text isNegative).length) ∧
      signed.Holds 0 (signedText text isNegative) := by
  rw [putSign, signedText]
  cases isNegative with
  | false => exact ⟨buf, rfl, holds⟩
  | true =>
    obtain ⟨signed, wrote, held⟩ := holds.append (by omega) 0x2D#8
    rw [Nat.zero_add] at wrote
    rw [if_pos rfl, if_pos rfl, wrote, List.length_append]
    exact ⟨signed, rfl, held⟩

/-- Behind the digits come the sign and the terminator, and then the exchanges. -/
theorem numeralIn_eq (buf : DigitBuffer) (num : Nat) (isNegative : Bool) (small : num < 10 ^ 10) :
    numeralIn buf num isNegative = some (signedText (digitBuffer num) isNegative).reverse := by
  have few := length_digitBuffer_le small
  have plain : 0#8 ∉ signedText (digitBuffer num) isNegative := fun member =>
    absurd (mem_signedText member) (by decide)
  obtain ⟨filled, digitsPut, held⟩ := exists_putDigits buf num
  obtain ⟨signed, signPut, heldSigned⟩ := exists_putSign held (by omega) isNegative
  have fewSigned := length_signedText_le (digitBuffer num) isNegative
  rw [numeralIn, digitsPut]
  simp only [Option.bind_eq_bind, Option.bind_some]
  rw [signPut, Option.bind_some]
  generalize signedText (digitBuffer num) isNegative = text at *
  obtain ⟨ended, terminated, heldEnded⟩ := heldSigned.append (by omega) 0#8
  obtain ⟨turned, reversed, heldTurned⟩ := heldEnded.reverse (by omega)
  rw [Nat.zero_add] at terminated
  rw [terminated, Option.bind_some, reversed, Option.bind_some]
  exact heldTurned.textFrom fun member => plain (List.mem_reverse.mp member)

/-- No access of `kprint_num` leaves its buffer. -/
theorem kprintNumText_eq (buf : DigitBuffer) (num : BitVec 32) :
    kprintNumText buf num = some (numberText num) := by
  have small : num.toInt.natAbs < 10 ^ 10 := by
    have bounds := num.isLt
    rw [BitVec.toInt_eq_toNat_cond]
    split_ifs <;> omega
  rw [kprintNumText, numberText]
  by_cases least : num.toInt = -2147483648
  · rw [if_pos least, if_pos least]
  · rw [if_neg least, if_neg least, numeralIn_eq buf _ _ small, signedText]
    by_cases negative : num.toInt < 0
    · rw [decide_eq_true negative, if_pos rfl, if_pos negative]
    · rw [decide_eq_false negative, if_neg Bool.false_ne_true, if_neg negative]

/-- Nor does one of `kprint_unsigned`. -/
theorem kprintUnsignedText_eq (buf : DigitBuffer) (num : BitVec 32) :
    kprintUnsignedText buf num = some (digitBuffer num.toNat).reverse := by
  have bounds := num.isLt
  rw [kprintUnsignedText, numeralIn_eq buf _ _ (by omega), signedText,
    if_neg Bool.false_ne_true]

/-! ### Hexadecimal digits -/

/-- The digits of a number are those of its quotient with one more. -/
theorem hexDigits_append (num : Nat) (behind : List (BitVec 8)) :
    hexDigits num behind = hexDigits num [] ++ behind := by
  induction num using Nat.strong_induction_on generalizing behind with
  | _ num inductionHypothesis =>
    rw [hexDigits, hexDigits.eq_def num []]
    by_cases positive : num > 0
    · simp only [if_pos positive]
      rw [inductionHypothesis (num / 16) (by omega),
        inductionHypothesis (num / 16) (by omega) [_], List.append_assoc, List.singleton_append]
    · rw [if_neg positive, if_neg positive, List.nil_append]

theorem mem_hexDigits {num : Nat} {behind : List (BitVec 8)} {character : BitVec 8}
    (member : character ∈ hexDigits num behind) : character ∈ behind ∨ 48 ≤ character.toNat := by
  induction num using Nat.strong_induction_on generalizing behind with
  | _ num inductionHypothesis =>
    rw [hexDigits] at member
    by_cases positive : num > 0
    · simp only [if_pos positive] at member
      rcases inductionHypothesis (num / 16) (by omega) member with here | digit
      · rw [List.mem_cons] at here
        rcases here with rfl | later
        · refine Or.inr ?_
          rw [BitVec.toNat_ofNat]
          split_ifs <;> omega
        · exact Or.inl later
      · exact Or.inr digit
    · rw [if_neg positive] at member
      exact Or.inl member

theorem mem_hexBuffer {num : BitVec 64} {character : BitVec 8}
    (member : character ∈ hexBuffer num) : 48 ≤ character.toNat := by
  rw [hexBuffer] at member
  split_ifs at member
  · exact (by decide : ∀ character ∈ literal "0", 48 ≤ character.toNat) character member
  · exact (mem_hexDigits member).resolve_left List.not_mem_nil

/-- The loop puts the digits in front of what the buffer holds, and needs a place for each. -/
theorem exists_fillHex {hexBuf : HexBuffer} {p num : Nat} {text rest : List (BitVec 8)}
    (holds : hexBuf.Holds p (text ++ rest)) (room : p ≤ 20) (small : num < 16 ^ p) :
    ∃ filled start, fillHex p num hexBuf = some (filled, start) ∧
      filled.Holds start (hexDigits num text ++ rest) := by
  induction p generalizing num hexBuf text with
  | zero =>
    rw [pow_zero] at small
    rw [fillHex, hexDigits, if_neg (by omega), if_neg (by omega)]
    exact ⟨hexBuf, 0, rfl, holds⟩
  | succ p inductionHypothesis =>
    rw [fillHex, hexDigits]
    by_cases positive : num > 0
    · simp only [if_pos positive]
      obtain ⟨next, wrote, held⟩ := holds.cons (by omega)
        (BitVec.ofNat 8 (if num % 16 < 10 then 48 + num % 16 else 97 + num % 16 - 10))
      rw [wrote, Option.bind_eq_bind, Option.bind_some]
      rw [pow_succ] at small
      exact inductionHypothesis held (by omega) (by omega)
    · rw [if_neg positive, if_neg positive]
      exact ⟨hexBuf, p + 1, rfl, holds⟩

/-- No access of a `%x` leaves its buffer. -/
theorem hexText_eq (hexBuf : HexBuffer) (num : BitVec 64) :
    hexText hexBuf num = some (hexBuffer num) := by
  have plain : 0#8 ∉ hexBuffer num := fun member => absurd (mem_hexBuffer member) (by decide)
  obtain ⟨ended, terminated, held⟩ :=
    (hexBuf.holds_nil (19 + 1)).cons (by decide : 19 < 20) 0#8
  rw [hexText]
  simp only [Option.bind_eq_bind]
  rw [terminated, Option.bind_some, putHex]
  by_cases zero : num.toNat = 0
  · rw [hexBuffer, if_pos zero] at plain ⊢
    obtain ⟨filled, wrote, heldZero⟩ := held.cons (by decide : 18 < 20) 0x30#8
    rw [if_pos zero, wrote, Option.map_some, Option.bind_some]
    exact heldZero.textFrom plain
  · rw [hexBuffer, if_neg zero] at plain ⊢
    have bounds := num.isLt
    obtain ⟨filled, start, loop, heldAll⟩ :=
      @exists_fillHex ended 19 num.toNat [] [0#8] held (by decide) (by omega)
    rw [if_neg zero, loop, Option.bind_some]
    exact heldAll.textFrom plain

end M12
