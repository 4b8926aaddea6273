/-
This file proves that `strcmp` of `lib/string.c` is the lexicographic order.

The loop compares `char`s, which are signed, and asks for the end of the first
string only; the result is the difference of two unsigned bytes. The second string
needs no test of its own: a character that equals one of the first string is not
its terminator. So the loop stops at the first difference or at the end of both,
and there the two bytes are ordered as the strings are.
-/

import M12.OutputCalls

namespace M12

open ByteMemory Console

/-! ### Texts -/

/-- The string consists of these characters. -/
structure HasText (str : CString) (text : List (BitVec 8)) : Prop where
  characters : ∀ i ≤ text.length, str i = buffer text i
  plain : 0#8 ∉ text

theorem hasText_buffer {text : List (BitVec 8)} (plain : 0#8 ∉ text) :
    HasText (buffer text) text := ⟨fun _ _ => rfl, plain⟩

section Text

variable {str : CString} {character : BitVec 8} {text : List (BitVec 8)}

theorem HasText.first (has : HasText str (character :: text)) : str 0 = character :=
  has.characters 0 (Nat.zero_le _)

theorem HasText.ends (has : HasText str []) : str 0 = 0#8 := has.characters 0 (Nat.le_refl 0)

theorem HasText.ne_terminator (has : HasText str (character :: text)) : character ≠ 0#8 :=
  fun same => has.plain (same ▸ List.mem_cons_self)

theorem HasText.tail (has : HasText str (character :: text)) :
    HasText (fun i => str (i + 1)) text :=
  ⟨fun i inside => has.characters (i + 1) (Nat.succ_le_succ inside),
    fun member => has.plain (List.mem_cons_of_mem _ member)⟩

theorem HasText.head (has : HasText str text) : str 0 = text.headD 0#8 := by
  cases text with
  | nil => exact has.ends
  | cons character text => exact has.first

end Text

/-! ### The code with its reads -/

/-- The result of `strcmp`, and the offsets at which it has read its strings. -/
structure Comparison where
  result : BitVec 32
  firstReads : List Nat
  secondReads : List Nat

/-- The comparison with one more read of both strings. -/
def Comparison.after (moved : Nat) (comparison : Comparison) : Comparison :=
  { comparison with
    firstReads := moved :: comparison.firstReads
    secondReads := moved :: comparison.secondReads }

/-- `strcmp` from pointers that have moved so far, for at most `fuel` rounds. -/
def strcmpReading : Nat → CString → CString → Nat → Option Comparison
  | 0, _, _, _ => none
  | fuel + 1, s1, s2, moved =>
    if (s1 0).toInt ≠ 0 ∧ (s1 0).toInt = (s2 0).toInt then
      (strcmpReading fuel (fun i => s1 (i + 1)) (fun i => s2 (i + 1)) (moved + 1)).map
        (Comparison.after moved)
    else some ⟨(s1 0).setWidth 32 - (s2 0).setWidth 32, [moved], [moved]⟩

/-- Two signed characters are equal when their bytes are. -/
theorem continues_iff (first second : BitVec 8) :
    first.toInt ≠ 0 ∧ first.toInt = second.toInt ↔ first ≠ 0#8 ∧ first = second := by
  rw [BitVec.toInt_inj, ← BitVec.toInt_zero (w := 8), Ne, BitVec.toInt_inj]

/-- The difference of two bytes, as an `int`, is the difference of their codes. -/
theorem toInt_byte_sub (first second : BitVec 8) :
    (first.setWidth 32 - second.setWidth 32 : BitVec 32).toInt =
      (first.toNat : Int) - second.toNat := by
  have firstLt := first.isLt
  have secondLt := second.isLt
  rw [BitVec.toInt_eq_toNat_cond, BitVec.toNat_sub, BitVec.toNat_setWidth, BitVec.toNat_setWidth]
  split <;> omega

/-- The reads apart, this is `strcmp`. -/
theorem strcmpReading_result (fuel : Nat) (s1 s2 : CString) (moved : Nat) :
    (strcmpReading fuel s1 s2 moved).map (fun comparison => comparison.result.toInt) =
      strcmp fuel s1 s2 := by
  induction fuel generalizing s1 s2 moved with
  | zero => rfl
  | succ fuel inductionHypothesis =>
    rw [strcmpReading, strcmp]
    simp only [continues_iff]
    split
    next => rw [Option.map_map, ← inductionHypothesis _ _ (moved + 1)]; rfl
    next => exact congrArg some (toInt_byte_sub (s1 0) (s2 0))

/-! ### Texts in order -/

section Order

variable {first second : List (BitVec 8)}

/-- Where two texts go apart, or both end, their order is that of the bytes there. -/
theorem lt_iff_of_stops (plain : 0#8 ∉ first) (plainSecond : 0#8 ∉ second)
    (stops : first.headD 0#8 = second.headD 0#8 → first.headD 0#8 = 0#8) :
    first < second ↔ first.headD 0#8 < second.headD 0#8 := by
  cases first with
  | nil =>
    cases second with
    | nil => exact iff_of_false (List.not_lt_nil []) (BitVec.lt_irrefl _)
    | cons other rest =>
      have positive : 0 < other.toNat := Nat.pos_of_ne_zero fun zero =>
        plainSecond (BitVec.eq_of_toNat_eq (y := 0#8) zero ▸ List.mem_cons_self)
      exact iff_of_true (List.nil_lt_cons other rest) (BitVec.lt_def.mpr positive)
  | cons character text =>
    cases second with
    | nil => exact iff_of_false (List.not_lt_nil _) BitVec.not_lt_zero
    | cons other rest =>
      have different : character ≠ other := fun same =>
        plain (stops same ▸ List.mem_cons_self)
      rw [List.cons_lt_cons_iff, or_iff_left fun both => different both.1]
      exact Iff.rfl

theorem eq_iff_of_stops (plain : 0#8 ∉ first) (plainSecond : 0#8 ∉ second)
    (stops : first.headD 0#8 = second.headD 0#8 → first.headD 0#8 = 0#8) :
    first = second ↔ first.headD 0#8 = second.headD 0#8 := by
  refine ⟨congrArg fun text : List (BitVec 8) => text.headD 0#8, fun same => ?_⟩
  have zero := stops same
  cases first with
  | nil =>
    cases second with
    | nil => rfl
    | cons other rest =>
      have terminator : other = 0#8 := same.symm
      exact absurd (terminator ▸ List.mem_cons_self) plainSecond
  | cons character text => exact absurd (zero ▸ List.mem_cons_self) plain

end Order

/-! ### The comparison -/

/-- The comparison has the sign of the order of the texts, and has read nothing behind their ends.
The pointers had moved so far when it began. -/
structure ComparesAs (first second : List (BitVec 8)) (moved : Nat) (comparison : Comparison) :
    Prop where
  negative : comparison.result.toInt < 0 ↔ first < second
  zero : comparison.result.toInt = 0 ↔ first = second
  positive : 0 < comparison.result.toInt ↔ second < first
  firstReads : ∀ offset ∈ comparison.firstReads, offset ≤ moved + first.length
  secondReads : ∀ offset ∈ comparison.secondReads, offset ≤ moved + second.length

section Texts

variable {s1 s2 : CString} {first second : List (BitVec 8)} {moved : Nat}

/-- Where the loop stops, the two bytes decide. -/
theorem comparesAs_of_stops (one : HasText s1 first) (other : HasText s2 second)
    (stops : ¬ (s1 0 ≠ 0#8 ∧ s1 0 = s2 0)) :
    ComparesAs first second moved
      ⟨(s1 0).setWidth 32 - (s2 0).setWidth 32, [moved], [moved]⟩ := by
  have ends : s1 0 = s2 0 → s1 0 = 0#8 := fun same => not_not.mp fun inside => stops ⟨inside, same⟩
  have endsSecond : s2 0 = s1 0 → s2 0 = 0#8 := fun same => same.trans (ends same.symm)
  rw [one.head, other.head] at ends endsSecond
  have only {length : Nat} : ∀ offset ∈ [moved], offset ≤ moved + length := fun offset member =>
    List.mem_singleton.mp member ▸ Nat.le_add_right moved length
  refine ⟨?_, ?_, ?_, only, only⟩
  · rw [lt_iff_of_stops one.plain other.plain ends, ← one.head, ← other.head, toInt_byte_sub,
      BitVec.lt_def]
    omega
  · rw [eq_iff_of_stops one.plain other.plain ends, ← one.head, ← other.head, toInt_byte_sub,
      ← BitVec.toNat_inj]
    omega
  · rw [lt_iff_of_stops other.plain one.plain endsSecond, ← one.head, ← other.head,
      toInt_byte_sub, BitVec.lt_def]
    omega

/-- A character both texts start with does not bear on their order. -/
theorem ComparesAs.cons {comparison : Comparison} (later : ComparesAs first second (moved + 1)
    comparison) (character : BitVec 8) :
    ComparesAs (character :: first) (character :: second) moved (comparison.after moved) := by
  have order (low high : List (BitVec 8)) : character :: low < character :: high ↔ low < high := by
    rw [List.cons_lt_cons_iff, or_iff_right (BitVec.lt_irrefl character), and_iff_right rfl]
  have bounded {reads : List Nat} {length : Nat}
      (before : ∀ offset ∈ reads, offset ≤ moved + 1 + length) :
      ∀ offset ∈ moved :: reads, offset ≤ moved + (length + 1) := by
    intro offset member
    rcases List.mem_cons.mp member with rfl | old
    · exact Nat.le_add_right _ _
    · have bound := before offset old
      omega
  refine ⟨?_, ?_, ?_, bounded later.firstReads, bounded later.secondReads⟩
  · exact later.negative.trans (order first second).symm
  · exact later.zero.trans (List.cons_inj_right character).symm
  · exact later.positive.trans (order second first).symm

/-- The loop comes to its end within the shorter string. -/
theorem strcmpReading_comparesAs (one : HasText s1 first) (other : HasText s2 second) :
    ∃ comparison, ComparesAs first second moved comparison ∧
      ∀ fuel, min first.length second.length < fuel →
        strcmpReading fuel s1 s2 moved = some comparison := by
  induction first generalizing s1 s2 second moved with
  | nil =>
    have stops : ¬ (s1 0 ≠ 0#8 ∧ s1 0 = s2 0) := fun both => both.1 one.ends
    refine ⟨_, comparesAs_of_stops one other stops, fun fuel enough => ?_⟩
    obtain ⟨fuel, rfl⟩ := Nat.exists_eq_add_one.mpr (Nat.zero_lt_of_lt enough)
    rw [strcmpReading, if_neg (mt (continues_iff _ _).mp stops)]
  | cons character text inductionHypothesis =>
    by_cases stops : ¬ (s1 0 ≠ 0#8 ∧ s1 0 = s2 0)
    · refine ⟨_, comparesAs_of_stops one other stops, fun fuel enough => ?_⟩
      obtain ⟨fuel, rfl⟩ := Nat.exists_eq_add_one.mpr (Nat.zero_lt_of_lt enough)
      rw [strcmpReading, if_neg (mt (continues_iff _ _).mp stops)]
    · have goesOn := not_not.mp stops
      cases second with
      | nil => exact absurd (goesOn.2.trans other.ends) goesOn.1
      | cons character' text' =>
        obtain rfl : character = character' :=
          one.first.symm.trans (goesOn.2.trans other.first)
        obtain ⟨comparison, compares, returns⟩ :=
          @inductionHypothesis _ _ text' (moved + 1) one.tail other.tail
        refine ⟨comparison.after moved, compares.cons character, fun fuel enough => ?_⟩
        obtain ⟨fuel, rfl⟩ := Nat.exists_eq_add_one.mpr (Nat.zero_lt_of_lt enough)
        rw [List.length_cons, List.length_cons, Nat.add_min_add_right] at enough
        rw [strcmpReading, if_pos ((continues_iff _ _).mpr goesOn),
          returns fuel (Nat.lt_of_succ_lt_succ enough), Option.map_some]

end Texts

/-- Two strings compare equal when their texts are. -/
theorem strcmp_eq_zero_iff {s1 s2 : CString} {first second : List (BitVec 8)}
    (one : HasText s1 first) (other : HasText s2 second) {fuel : Nat}
    (enough : second.length < fuel) : strcmp fuel s1 s2 = some 0 ↔ first = second := by
  obtain ⟨comparison, compares, returns⟩ := @strcmpReading_comparesAs s1 s2 first second 0 one other
  rw [← strcmpReading_result fuel s1 s2 0, returns fuel (min_lt_of_right_lt enough),
    Option.map_some, Option.some_inj]
  exact compares.zero

/-! ### kprint -/

theorem putStringOutput_eq {str : CString} {text : List (BitVec 8)} (has : HasText str text)
    {fuel : Nat} (enough : text.length < fuel) :
    putStringOutput fuel str = (putAll text, true) := by
  induction text generalizing str fuel with
  | nil =>
    obtain ⟨fuel, rfl⟩ := Nat.exists_eq_add_one.mpr (Nat.zero_lt_of_lt enough)
    rw [putStringOutput, if_pos has.ends]
    rfl
  | cons character text inductionHypothesis =>
    obtain ⟨fuel, rfl⟩ := Nat.exists_eq_add_one.mpr (Nat.zero_lt_of_lt enough)
    rw [putStringOutput, has.first, if_neg has.ne_terminator,
      inductionHypothesis has.tail (Nat.lt_of_succ_lt_succ enough)]
    rfl

/-- `kprint` puts out its string, or erases the line. -/
theorem kprintOutput_eq {str : CString} {text : List (BitVec 8)} (has : HasText str text)
    {fuel : Nat} (enough : text.length < fuel) :
    kprintOutput fuel str =
      (if text = literal "\x1b[2k" then [.rmline] else putAll text, true) := by
  have command : strcmp 5 str (buffer (literal "\x1b[2k")) = some 0 ↔ text = literal "\x1b[2k" :=
    strcmp_eq_zero_iff has (hasText_buffer (by decide)) (by decide)
  rw [kprintOutput]
  by_cases isCommand : text = literal "\x1b[2k"
  · rw [if_pos (command.mpr isCommand), if_pos isCommand]
  · rw [if_neg fun equal => isCommand (command.mp equal), if_neg isCommand]
    exact putStringOutput_eq has enough

/-- `strcmp` is the lexicographic order of the unsigned bytes of two strings, and reads nothing
behind the end of either. So `kprint` erases the line for its command alone, and prints every
other string as it is. -/
theorem strcmp_lexicographic (s1 s2 : CString) (first second : List (BitVec 8))
    (one : HasText s1 first) (other : HasText s2 second) :
    (∃ comparison, ComparesAs first second 0 comparison ∧
      ∀ fuel, min first.length second.length < fuel →
        strcmpReading fuel s1 s2 0 = some comparison ∧
          strcmp fuel s1 s2 = some comparison.result.toInt) ∧
    ∀ fuel, first.length < fuel →
      kprintOutput fuel s1 =
        (if first = literal "\x1b[2k" then [.rmline] else putAll first, true) ∧
      ∀ c : Console, c.kprint fuel s1 =
        (c.emitAll (if first = literal "\x1b[2k" then [.rmline] else putAll first), true) := by
  obtain ⟨comparison, compares, returns⟩ := @strcmpReading_comparesAs s1 s2 first second 0 one other
  refine ⟨⟨comparison, compares, fun fuel enough => ⟨returns fuel enough, ?_⟩⟩,
    fun fuel enough => ?_⟩
  · rw [← strcmpReading_result fuel s1 s2 0, returns fuel enough, Option.map_some]
  · have output := kprintOutput_eq one enough
    refine ⟨output, fun c => ?_⟩
    rw [kprint_eq_emitAll, output]

/-- A byte above 0x7F is greater than one below. -/
theorem strcmp_lexicographic_high :
    ∃ result, strcmp 2 (buffer [0x80#8]) (buffer [0x7F#8, 0x41#8]) = some result ∧ 0 < result := by
  obtain ⟨⟨comparison, compares, returns⟩, -⟩ :=
    strcmp_lexicographic (buffer [0x80#8]) (buffer [0x7F#8, 0x41#8]) [0x80#8] [0x7F#8, 0x41#8]
      (hasText_buffer (by decide)) (hasText_buffer (by decide))
  exact ⟨_, (returns 2 (by decide)).2, compares.positive.mpr (by decide)⟩

end M12
