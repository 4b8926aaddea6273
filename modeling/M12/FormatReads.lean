/-
This file settles what `vkprintf` reads of its format.

A `'%'` and the character after it are read together, and the scan goes on behind
the pair. When the character after a `'%'` is the terminator, the pair ends one
byte behind the format, and the scan goes on there. That happens when the format
ends in an odd number of `'%'`: they pair off from the left, and one is left over
for the terminator.
-/

import Mathlib.Algebra.Group.Even
import Mathlib.Algebra.Ring.Parity
import M12.Printing

namespace M12

open ByteMemory Console

/-! ### Formats and their arguments -/

/-- The string has this length. -/
structure HasLength (str : CString) (length : Nat) : Prop where
  terminator : str length = 0#8
  characters : ∀ i < length, str i ≠ 0#8

/-- A directive that takes an argument: one of `d`, `s`, `c`, `x` and `u`. -/
def TakesArgument (kind : BitVec 8) : Prop :=
  kind = 0x64#8 ∨ kind = 0x73#8 ∨ kind = 0x63#8 ∨ kind = 0x78#8 ∨ kind = 0x75#8

instance (kind : BitVec 8) : Decidable (TakesArgument kind) :=
  inferInstanceAs (Decidable (_ ∨ _))

/-- The arguments match the `remaining` characters of the format from `p` on: the argument of a
`%s` is a string. -/
def Matching (memory : Memory) (format : CString) : Nat → Nat → Arguments → Prop
  | 0, _, _ => True
  | 1, _, _ => True
  | remaining + 2, p, args =>
    if format p = percent then
      (format (p + 1) = 0x73#8 → ∃ length, HasLength (stringAt memory (args 0)) length) ∧
        Matching memory format remaining (p + 1 + 1)
          (if TakesArgument (format (p + 1)) then args.rest else args)
    else Matching memory format (remaining + 1) (p + 1) args

/-- How many of `count` characters from `start` on are a `'%'`, counted from the last one back to
the first that is none. -/
def trailingPercents (format : CString) (start : Nat) : Nat → Nat
  | 0 => 0
  | count + 1 =>
    if format (start + count) = percent then trailingPercents format start count + 1 else 0

/-- The scan of the `remaining` characters from `p` on ends in a `'%'` whose pair is the
terminator. -/
def Dangling (format : CString) : Nat → Nat → Prop
  | 0, _ => False
  | 1, p => format p = percent
  | remaining + 2, p =>
    if format p = percent then Dangling format remaining (p + 1 + 1)
    else Dangling format (remaining + 1) (p + 1)

/-! ### The characters at the end -/

section Trailing

variable (format : CString)

theorem trailingPercents_le (start count : Nat) : trailingPercents format start count ≤ count := by
  induction count with
  | zero => exact Nat.le_refl 0
  | succ count inductionHypothesis =>
    rw [trailingPercents]
    split_ifs
    · exact Nat.succ_le_succ inductionHypothesis
    · exact Nat.zero_le _

/-- One more character in front counts only when it is a `'%'` and all others are. -/
theorem trailingPercents_succ_start (start count : Nat) :
    trailingPercents format start (count + 1) = trailingPercents format (start + 1) count +
      if trailingPercents format (start + 1) count = count ∧ format start = percent then 1
      else 0 := by
  induction count with
  | zero =>
    rw [trailingPercents, trailingPercents, trailingPercents, Nat.add_zero]
    by_cases first : format start = percent
    · rw [if_pos first, if_pos ⟨rfl, first⟩]
    · rw [if_neg first, if_neg fun both => first both.2]
  | succ count inductionHypothesis =>
    have few := trailingPercents_le format (start + 1) count
    rw [trailingPercents, inductionHypothesis, trailingPercents,
      show start + (count + 1) = start + 1 + count by omega]
    by_cases last : format (start + 1 + count) = percent
    · rw [if_pos last, if_pos last, Nat.add_right_comm]
      exact congrArg _ (if_congr (by rw [Nat.add_right_cancel_iff]) rfl rfl)
    · rw [if_neg last, if_neg last, if_neg fun both => Nat.succ_ne_zero count both.1.symm]

/-- The `'%'` at the end pair off, and an odd number leaves one over. -/
theorem dangling_iff (remaining p : Nat) :
    Dangling format remaining p ↔ Odd (trailingPercents format p remaining) := by
  induction remaining, p using Dangling.induct format with
  | case1 p =>
    rw [Dangling, trailingPercents]
    exact iff_of_false id (by decide)
  | case2 p =>
    rw [Dangling, trailingPercents, trailingPercents, Nat.add_zero]
    by_cases last : format p = percent
    · rw [if_pos last]
      exact iff_of_true last (by decide)
    · rw [if_neg last]
      exact iff_of_false last (by decide)
  | case3 remaining p directed inductionHypothesis =>
    have few := trailingPercents_le format (p + 1 + 1) remaining
    rw [Dangling, if_pos directed, inductionHypothesis, trailingPercents_succ_start,
      trailingPercents_succ_start, ← Nat.not_even_iff_odd, ← Nat.not_even_iff_odd]
    by_cases all : trailingPercents format (p + 1 + 1) remaining = remaining
    · by_cases second : format (p + 1) = percent
      · rw [if_pos ⟨all, second⟩, if_pos ⟨by rw [all], directed⟩]
        simp only [Nat.even_add_one, not_not]
      · rw [if_neg fun both => second both.2, Nat.add_zero, if_neg]
        · rfl
        · rintro ⟨full, -⟩
          exact Nat.succ_ne_self remaining (all.symm.trans full).symm
    · rw [if_neg fun both => all both.1, Nat.add_zero, if_neg]
      · rfl
      · rintro ⟨full, -⟩
        have beyond : trailingPercents format (p + 1 + 1) remaining = remaining + 1 := full
        omega
  | case4 remaining p plain inductionHypothesis =>
    rw [Dangling, if_neg plain, inductionHypothesis, trailingPercents_succ_start format p,
      if_neg fun both => plain both.2]
    rfl

end Trailing

/-! ### Calls that return -/

/-- A string is printed to its end. -/
theorem putString_returns {str : CString} {length : Nat} (ends : str length = 0#8) {fuel : Nat}
    (enough : length < fuel) (c : Console) : (putString fuel c str).2 = true := by
  induction length generalizing str fuel c with
  | zero =>
    obtain ⟨fuel, rfl⟩ := Nat.exists_eq_add_one.mpr (Nat.zero_lt_of_lt enough)
    rw [putString, if_pos ends]
  | succ length inductionHypothesis =>
    obtain ⟨fuel, rfl⟩ := Nat.exists_eq_add_one.mpr (Nat.zero_lt_of_lt enough)
    rw [putString]
    split_ifs
    · rfl
    · exact inductionHypothesis ends (Nat.lt_of_succ_lt_succ enough) _

theorem kprint_returns {str : CString} {length : Nat} (ends : str length = 0#8) {fuel : Nat}
    (enough : length < fuel) (c : Console) : (c.kprint fuel str).2 = true := by
  rw [kprint]
  split_ifs
  · rfl
  · exact putString_returns ends enough c

theorem buffer_length (characters : List (BitVec 8)) :
    buffer characters characters.length = 0#8 := List.getD_eq_default _ _ (Nat.le_refl _)

/-- The text `kprint_num` prints. -/
def numberText (num : BitVec 32) : List (BitVec 8) :=
  if num.toInt = -2147483648 then literal "-2147483648"
  else (if num.toInt < 0 then digitBuffer num.toInt.natAbs ++ literal "-"
    else digitBuffer num.toInt.natAbs).reverse

theorem kprintNum_eq (fuel : Nat) (c : Console) (num : BitVec 32) :
    c.kprintNum fuel num = c.kprint fuel (buffer (numberText num)) := by
  rw [kprintNum, numberText]
  split_ifs <;> rfl

/-- With enough rounds, the calls for one directive return. -/
theorem directive_returns (memory : Memory) (kind : BitVec 8) (args : Arguments)
    (matching : kind = 0x73#8 → ∃ length, HasLength (stringAt memory (args 0)) length) :
    ∃ bound, ∀ fuel, bound < fuel → ∀ c, (directive memory fuel c kind args).1.2 = true := by
  by_cases isNumber : kind = 0x64#8
  · refine ⟨(numberText ((args 0).setWidth 32)).length, fun fuel enough c => ?_⟩
    rw [directive, if_pos isNumber, kprintNum_eq]
    exact kprint_returns (buffer_length _) enough c
  by_cases isString : kind = 0x73#8
  · obtain ⟨length, string⟩ := matching isString
    refine ⟨length, fun fuel enough c => ?_⟩
    rw [directive, if_neg isNumber, if_pos isString]
    exact kprint_returns string.terminator enough c
  by_cases isCharacter : kind = 0x63#8
  · refine ⟨0, fun fuel enough c => ?_⟩
    rw [directive, if_neg isNumber, if_neg isString, if_pos isCharacter]
  by_cases isHex : kind = 0x78#8
  · refine ⟨(hexBuffer (args 0)).length, fun fuel enough c => ?_⟩
    rw [directive, if_neg isNumber, if_neg isString, if_neg isCharacter, if_pos isHex]
    exact kprint_returns (buffer_length _) enough c
  by_cases isUnsigned : kind = 0x75#8
  · refine ⟨(digitBuffer ((args 0).setWidth 32).toNat).reverse.length, fun fuel enough c => ?_⟩
    rw [directive, if_neg isNumber, if_neg isString, if_neg isCharacter, if_neg isHex,
      if_pos isUnsigned, kprintUnsigned]
    exact kprint_returns (buffer_length _) enough c
  · refine ⟨0, fun fuel enough c => ?_⟩
    rw [directive, if_neg isNumber, if_neg isString, if_neg isCharacter, if_neg isHex,
      if_neg isUnsigned]

/-- The arguments left after a directive do not depend on what was printed. -/
theorem directive_arguments (memory : Memory) (fuel : Nat) (c : Console) (kind : BitVec 8)
    (args : Arguments) : (directive memory fuel c kind args).2 =
      if TakesArgument kind then args.rest else args := by
  rw [directive]
  by_cases takes : TakesArgument kind
  · rw [if_pos takes]
    rcases takes with rfl | rfl | rfl | rfl | rfl <;> rfl
  · rw [if_neg takes]
    simp only [TakesArgument, not_or] at takes
    obtain ⟨notNumber, notString, notCharacter, notHex, notUnsigned⟩ := takes
    rw [if_neg notNumber, if_neg notString, if_neg notCharacter, if_neg notHex, if_neg notUnsigned]

/-! ### The scan -/

section Scan

variable (memory : Memory) (format : CString)

/-- The scan from `p` returns and reads no byte behind `last`. -/
def ScansWithin (p : Nat) (args : Arguments) (last : Nat) : Prop :=
  ∃ bound, ∀ fuel, bound < fuel → ∀ c,
    (vkprintfLoop memory fuel c format args p).finished = true ∧
      ∀ offset ∈ (vkprintfLoop memory fuel c format args p).reads, offset ≤ last

/-- The scan from `p` does not return without reading the byte behind `last`. -/
def ScansBeyond (p last : Nat) : Prop :=
  ∀ fuel c args, (vkprintfLoop memory fuel c format args p).finished = true →
    last + 1 ∈ (vkprintfLoop memory fuel c format args p).reads

variable {memory format} {p last : Nat} {args : Arguments}

theorem scansWithin_terminator (ends : format p = 0#8) (inside : p ≤ last) :
    ScansWithin memory format p args last := by
  refine ⟨0, fun fuel enough c => ?_⟩
  obtain ⟨fuel, rfl⟩ := Nat.exists_eq_add_one.mpr (Nat.zero_lt_of_lt enough)
  rw [vkprintfLoop, if_pos ends]
  exact ⟨rfl, fun offset here => (List.mem_singleton.mp here) ▸ inside⟩

/-- The scan goes over a character that is no `'%'`. -/
theorem scansWithin_plain (character : format p ≠ 0#8) (plain : format p ≠ percent)
    (inside : p ≤ last) (rest : ScansWithin memory format (p + 1) args last) :
    ScansWithin memory format p args last := by
  obtain ⟨bound, scans⟩ := rest
  refine ⟨bound + 1, fun fuel enough c => ?_⟩
  obtain ⟨fuel, rfl⟩ := Nat.exists_eq_add_one.mpr (Nat.zero_lt_of_lt enough)
  obtain ⟨finished, reads⟩ := scans fuel (Nat.lt_of_succ_lt_succ enough) (c.vgaPutc (format p))
  rw [vkprintfLoop, if_neg character, if_neg plain]
  exact ⟨finished, List.forall_mem_cons.mpr ⟨inside, reads⟩⟩

/-- It goes over a `'%'` together with the character after it. -/
theorem scansWithin_directive (directed : format p = percent) (inside : p + 1 ≤ last)
    (matching : format (p + 1) = 0x73#8 →
      ∃ length, HasLength (stringAt memory (args 0)) length)
    (rest : ScansWithin memory format (p + 1 + 1)
      (if TakesArgument (format (p + 1)) then args.rest else args) last) :
    ScansWithin memory format p args last := by
  obtain ⟨bound, scans⟩ := rest
  obtain ⟨rounds, returns⟩ := directive_returns memory (format (p + 1)) args matching
  have character : format p ≠ 0#8 := by
    rw [directed]
    decide
  refine ⟨bound + rounds + 1, fun fuel enough c => ?_⟩
  obtain ⟨fuel, rfl⟩ := Nat.exists_eq_add_one.mpr (Nat.zero_lt_of_lt enough)
  have returned := returns fuel (by omega) c
  have left := directive_arguments memory fuel c (format (p + 1)) args
  rw [vkprintfLoop, if_neg character, if_pos directed]
  generalize directive memory fuel c (format (p + 1)) args = done at returned left ⊢
  obtain ⟨⟨console, flag⟩, argsLeft⟩ := done
  obtain rfl : flag = true := returned
  rw [← left] at scans
  obtain ⟨finished, reads⟩ := scans fuel (by omega) console
  exact ⟨finished, List.forall_mem_cons.mpr ⟨Nat.le_of_succ_le inside,
    List.forall_mem_cons.mpr ⟨inside, reads⟩⟩⟩

/-- A scan that no `'%'` leaves dangling ends at the terminator. -/
theorem scansWithin_of_not_dangling {remaining : Nat} (terminator : format (p + remaining) = 0#8)
    (characters : ∀ i < remaining, format (p + i) ≠ 0#8)
    (matching : Matching memory format remaining p args)
    (paired : ¬ Dangling format remaining p) :
    ScansWithin memory format p args (p + remaining) := by
  induction remaining, p, args using Matching.induct format with
  | case1 p args => exact scansWithin_terminator terminator (Nat.le_refl p)
  | case2 p args =>
    refine scansWithin_plain (characters 0 Nat.one_pos) paired (Nat.le_succ p) ?_
    exact scansWithin_terminator terminator (Nat.le_refl (p + 1))
  | case3 remaining p args directed inductionHypothesis =>
    rw [Matching, if_pos directed] at matching
    rw [Dangling, if_pos directed] at paired
    have same : p + (remaining + 2) = p + 1 + 1 + remaining := by omega
    rw [same] at terminator ⊢
    refine scansWithin_directive directed (by omega) matching.1
      (inductionHypothesis terminator (fun i inside => ?_) matching.2 paired)
    have character := characters (i + 2) (by omega)
    rwa [show p + (i + 2) = p + 1 + 1 + i by omega] at character
  | case4 remaining p args plain inductionHypothesis =>
    rw [Matching, if_neg plain] at matching
    rw [Dangling, if_neg plain] at paired
    have same : p + (remaining + 2) = p + 1 + (remaining + 1) := by omega
    rw [same] at terminator ⊢
    refine scansWithin_plain (characters 0 (by omega)) plain (by omega)
      (inductionHypothesis terminator (fun i inside => ?_) matching paired)
    have character := characters (i + 1) (by omega)
    rwa [show p + (i + 1) = p + 1 + i by omega] at character

theorem scansBeyond_here : ScansBeyond memory format (last + 1) last := by
  intro fuel c args finished
  cases fuel with
  | zero => exact absurd finished Bool.false_ne_true
  | succ fuel =>
    rw [vkprintfLoop]
    split
    · exact List.mem_singleton_self _
    · split
      · split
        split
        · exact List.mem_cons_self ..
        · exact List.mem_cons_self ..
      · exact List.mem_cons_self ..

theorem scansBeyond_plain (character : format p ≠ 0#8) (plain : format p ≠ percent)
    (rest : ScansBeyond memory format (p + 1) last) : ScansBeyond memory format p last := by
  intro fuel c args finished
  cases fuel with
  | zero => exact absurd finished Bool.false_ne_true
  | succ fuel =>
    rw [vkprintfLoop, if_neg character, if_neg plain] at finished ⊢
    exact List.mem_cons_of_mem _ (rest fuel _ args finished)

theorem scansBeyond_directive (directed : format p = percent)
    (rest : ScansBeyond memory format (p + 1 + 1) last) : ScansBeyond memory format p last := by
  have character : format p ≠ 0#8 := by
    rw [directed]
    decide
  intro fuel c args finished
  cases fuel with
  | zero => exact absurd finished Bool.false_ne_true
  | succ fuel =>
    rw [vkprintfLoop, if_neg character, if_pos directed] at finished ⊢
    generalize directive memory fuel c (format (p + 1)) args = done at finished ⊢
    obtain ⟨⟨console, flag⟩, argsLeft⟩ := done
    cases flag with
    | false => exact absurd finished Bool.false_ne_true
    | true =>
      exact List.mem_cons_of_mem _ (List.mem_cons_of_mem _ (rest fuel console argsLeft finished))

/-- A `'%'` left dangling takes the scan past the terminator. -/
theorem scansBeyond_of_dangling {remaining : Nat}
    (characters : ∀ i < remaining, format (p + i) ≠ 0#8) (dangling : Dangling format remaining p) :
    ScansBeyond memory format p (p + remaining) := by
  induction remaining, p using Dangling.induct format with
  | case1 p => exact absurd dangling id
  | case2 p => exact scansBeyond_directive dangling scansBeyond_here
  | case3 remaining p directed inductionHypothesis =>
    rw [Dangling, if_pos directed] at dangling
    rw [show p + (remaining + 2) = p + 1 + 1 + remaining by omega]
    refine scansBeyond_directive directed (inductionHypothesis (fun i inside => ?_) dangling)
    have character := characters (i + 2) (by omega)
    rwa [show p + (i + 2) = p + 1 + 1 + i by omega] at character
  | case4 remaining p plain inductionHypothesis =>
    rw [Dangling, if_neg plain] at dangling
    rw [show p + (remaining + 2) = p + 1 + (remaining + 1) by omega]
    refine scansBeyond_plain (characters 0 (by omega)) plain
      (inductionHypothesis (fun i inside => ?_) dangling)
    have character := characters (i + 1) (by omega)
    rwa [show p + (i + 1) = p + 1 + i by omega] at character

end Scan

/-! ### vkprintf and its format -/

/-- `vkprintf` returns and reads no byte behind the terminator of its format. -/
def ReadsOnlyFormat (memory : Memory) (c : Console) (format : CString) (length : Nat)
    (args : Arguments) : Prop :=
  ∃ fuel, (vkprintf memory fuel c format args).finished = true ∧
    ∀ offset ∈ (vkprintf memory fuel c format args).reads, offset ≤ length

/-- `vkprintf` reads only its format exactly when the format does not end in an odd number of
`'%'`. -/
theorem vkprintf_reads_only_format_iff (memory : Memory) (c : Console) (format : CString)
    (length : Nat) (string : HasLength format length) (args : Arguments)
    (matching : Matching memory format length 0 args) :
    ReadsOnlyFormat memory c format length args ↔ Even (trailingPercents format 0 length) := by
  have terminator : format (0 + length) = 0#8 := (Nat.zero_add length).symm ▸ string.terminator
  have characters : ∀ i < length, format (0 + i) ≠ 0#8 := fun i inside =>
    (Nat.zero_add i).symm ▸ string.characters i inside
  constructor
  · rintro ⟨fuel, finished, reads⟩
    by_contra odd
    have dangling := (dangling_iff format length 0).mpr (Nat.not_even_iff_odd.mp odd)
    have beyond := reads _ (scansBeyond_of_dangling characters dangling fuel c args finished)
    omega
  · intro even
    have paired : ¬ Dangling format length 0 := fun dangling =>
      Nat.not_even_iff_odd.mpr ((dangling_iff format length 0).mp dangling) even
    obtain ⟨bound, scans⟩ := scansWithin_of_not_dangling terminator characters matching paired
    obtain ⟨finished, reads⟩ := scans (bound + 1) (Nat.lt_succ_self bound) c
    exact ⟨bound + 1, finished, fun offset read => (reads offset read).trans (by omega)⟩

/-- A format that is one number. -/
theorem vkprintf_reads_only_format_number :
    ReadsOnlyFormat (fun _ => 0#8) ⟨fun _ => 0#16, 0#8, fun _ => 0#8, 0x0F#8⟩
      (buffer (literal "%d\n")) 3 fun _ => 7#64 := by
  refine (vkprintf_reads_only_format_iff _ _ _ 3 ⟨by decide, by decide⟩ _ ?_).mpr (by decide)
  rw [Matching, if_pos (by decide)]
  exact ⟨fun isString => absurd isString (by decide), trivial⟩

/-- A format that is a lone `'%'`: the byte behind its terminator is read. -/
theorem vkprintf_reads_behind_format :
    HasLength (buffer (literal "%")) 1 ∧
      Matching (fun _ => 0#8) (buffer (literal "%")) 1 0 (fun _ => 0#64) ∧
      ¬ ReadsOnlyFormat (fun _ => 0#8) ⟨fun _ => 0#16, 0#8, fun _ => 0#8, 0x0F#8⟩
        (buffer (literal "%")) 1 fun _ => 0#64 := by
  refine ⟨⟨by decide, by decide⟩, trivial, ?_⟩
  rintro ⟨fuel, finished, reads⟩
  have dangling : Dangling (buffer (literal "%")) 1 0 := by
    rw [Dangling]
    decide
  have beyond := scansBeyond_of_dangling (by decide) dangling fuel _ _ finished
  exact absurd (reads _ beyond) (by decide)

end M12
