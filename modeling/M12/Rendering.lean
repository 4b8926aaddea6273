/-
This file proves that `vkprintf` renders its format.

The rendering of a format is stated apart from the code: each directive stands for
the numeral, the character or the string of its argument, taken in order from the
left, and every other character stands for itself. The numerals are those of Lean's
own `toString` and `Nat.toDigits`, so they have no leading zeros. Which calls
`vkprintf` makes is then the rendering and nothing else, and every access of its
digit buffers lies inside them.
-/

import M12.StringOrder

namespace M12

open ByteMemory Console

/-! ### Texts -/

/-- A string consists of one text only. -/
theorem HasText.eq {str : CString} {first second : List (BitVec 8)} (one : HasText str first)
    (other : HasText str second) : first = second := by
  induction first generalizing str second with
  | nil =>
    cases second with
    | nil => rfl
    | cons character text => exact absurd (other.first.symm.trans one.ends) other.ne_terminator
  | cons character text inductionHypothesis =>
    cases second with
    | nil => exact absurd (one.first.symm.trans other.ends) one.ne_terminator
    | cons character' text' =>
      rw [← one.first, ← other.first, inductionHypothesis one.tail other.tail]

/-- A string with a length consists of the characters up to it. -/
theorem HasLength.exists_text {str : CString} {length : Nat} (string : HasLength str length) :
    ∃ text, text.length = length ∧ HasText str text := by
  refine ⟨(List.range length).map str, by rw [List.length_map, List.length_range],
    fun i inside => ?_, fun member => ?_⟩
  · rw [List.length_map, List.length_range] at inside
    rw [buffer, List.getD_eq_getElem?_getD, List.getElem?_map]
    by_cases atEnd : i = length
    · rw [List.getElem?_eq_none (by rw [List.length_range, atEnd]), atEnd]
      exact string.terminator
    · rw [List.getElem?_range (by omega)]
      rfl
  · obtain ⟨i, inside, terminator⟩ := List.mem_map.mp member
    exact string.characters i (List.mem_range.mp inside) terminator

/-! ### Numerals -/

/-- The bytes of a row of characters. -/
def bytes (characters : List Char) : List (BitVec 8) :=
  characters.map fun character => BitVec.ofNat 8 character.toNat

theorem literal_append (first second : String) :
    literal (first ++ second) = literal first ++ literal second := by
  rw [literal, String.toList_append, List.map_append]
  rfl

theorem byte_digitChar {digit : Nat} (small : digit < 10) :
    BitVec.ofNat 8 (Nat.digitChar digit).toNat = BitVec.ofNat 8 (48 + digit) := by
  rw [Nat.toNat_digitChar_of_lt_ten small]

theorem byte_digitChar_hex : ∀ digit < 16, BitVec.ofNat 8 (Nat.digitChar digit).toNat =
    BitVec.ofNat 8 (if digit < 10 then 48 + digit else 97 + digit - 10) := by decide

/-- The digits of a positive number, turned around, are its decimal numeral. -/
theorem digits_reverse {room num : Nat} (positive : 0 < num) (small : num < 10 ^ room) :
    (digits room num).reverse = bytes (Nat.toDigits 10 num) := by
  induction room generalizing num with
  | zero =>
    rw [pow_zero] at small
    omega
  | succ room inductionHypothesis =>
    rw [digits, if_pos positive, List.reverse_cons]
    by_cases single : num < 10
    · rw [Nat.div_eq_of_lt single, digits_zero, Nat.toDigits_of_lt_base single,
        Nat.mod_eq_of_lt single, ← byte_digitChar single]
      rfl
    · rw [pow_succ] at small
      rw [inductionHypothesis (by omega) (by omega),
        Nat.toDigits_of_base_le (by decide) (Nat.le_of_not_lt single), bytes, bytes,
        List.map_append, List.map_singleton, byte_digitChar (Nat.mod_lt num (by decide))]

/-- The text printed for an unsigned number is its decimal numeral. -/
theorem digitBuffer_reverse {num : Nat} (small : num < 10 ^ 10) :
    (digitBuffer num).reverse = literal (toString num) := by
  have numeral : literal (toString num) = bytes (Nat.toDigits 10 num) :=
    congrArg bytes Nat.toList_repr
  rw [numeral, digitBuffer]
  by_cases zero : num = 0
  · rw [if_pos zero, zero]
    rfl
  · rw [if_neg zero]
    exact digits_reverse (Nat.pos_of_ne_zero zero) (small.trans (by decide))

/-- The text printed for a signed number is its decimal numeral. -/
theorem numberText_eq (num : BitVec 32) : numberText num = literal (toString num.toInt) := by
  have bounds := num.isLt
  have small : num.toInt.natAbs < 10 ^ 10 := by
    rw [BitVec.toInt_eq_toNat_cond]
    split_ifs <;> omega
  rw [numberText]
  by_cases least : num.toInt = -2147483648
  · rw [if_pos least, least]
    decide
  · rw [if_neg least, Int.toString_eq_repr, Int.repr_eq_if]
    by_cases negative : num.toInt < 0
    · have magnitude : (-num.toInt).toNat = num.toInt.natAbs := by omega
      rw [if_pos negative, if_neg (by omega), List.reverse_append, digitBuffer_reverse small,
        magnitude, literal_append]
      rfl
    · have magnitude : num.toInt.toNat = num.toInt.natAbs := by omega
      rw [if_neg negative, if_pos (by omega), digitBuffer_reverse small, magnitude]
      rfl

theorem hexDigits_eq {num : Nat} (positive : 0 < num) :
    hexDigits num [] = bytes (Nat.toDigits 16 num) := by
  induction num using Nat.strong_induction_on with
  | _ num inductionHypothesis =>
    rw [hexDigits, if_pos positive]
    by_cases single : num < 16
    · rw [Nat.div_eq_of_lt single, hexDigits, if_neg (Nat.lt_irrefl 0),
        Nat.toDigits_of_lt_base single, Nat.mod_eq_of_lt single, ← byte_digitChar_hex num single]
      rfl
    · rw [hexDigits_append, inductionHypothesis (num / 16) (by omega) (by omega),
        Nat.toDigits_of_base_le (by decide) (Nat.le_of_not_lt single), bytes, bytes,
        List.map_append, List.map_singleton,
        byte_digitChar_hex (num % 16) (Nat.mod_lt num (by decide))]

/-- The text printed for a `%x` is the hexadecimal numeral. -/
theorem hexBuffer_eq (num : BitVec 64) : hexBuffer num = bytes (Nat.toDigits 16 num.toNat) := by
  rw [hexBuffer]
  by_cases zero : num.toNat = 0
  · rw [if_pos zero, zero]
    rfl
  · rw [if_neg zero, hexDigits_eq (Nat.pos_of_ne_zero zero)]

/-! ### The rendering of a format -/

/-- The calls a directive with an argument stands for. -/
structure Expands (memory : Memory) (kind : BitVec 8) (argument : BitVec 64)
    (output : List Output) : Prop where
  decimal : kind = 0x64#8 →
    output = putAll (literal (toString (argument.setWidth 32 : BitVec 32).toInt))
  unsigned : kind = 0x75#8 →
    output = putAll (literal (toString (argument.setWidth 32 : BitVec 32).toNat))
  hexadecimal : kind = 0x78#8 → output = putAll (bytes (Nat.toDigits 16 argument.toNat))
  character : kind = 0x63#8 → output = [.putc (argument.setWidth 8)]
  string : kind = 0x73#8 → ∃ text, HasText (stringAt memory argument) text ∧
    output = if text = literal "\x1b[2k" then [.rmline] else putAll text

/-- The calls the characters of a format from `p` on stand for. -/
inductive Renders (memory : Memory) (format : CString) (length : Nat) :
    Nat → Arguments → List Output → Prop where
  | terminator {args : Arguments} : Renders memory format length length args []
  | plain {p : Nat} {args : Arguments} {rest : List Output} (inside : p < length)
      (character : format p ≠ percent) (later : Renders memory format length (p + 1) args rest) :
      Renders memory format length p args (.putc (format p) :: rest)
  | directive {p : Nat} {args : Arguments} {output rest : List Output} (inside : p + 1 < length)
      (directed : format p = percent) (takes : TakesArgument (format (p + 1)))
      (expands : Expands memory (format (p + 1)) (args 0) output)
      (later : Renders memory format length (p + 1 + 1) args.rest rest) :
      Renders memory format length p args (output ++ rest)
  | pair {p : Nat} {args : Arguments} {rest : List Output} (inside : p + 1 < length)
      (directed : format p = percent) (other : ¬ TakesArgument (format (p + 1)))
      (later : Renders memory format length (p + 1 + 1) args rest) :
      Renders memory format length p args
        (.putc percent :: .putc (format (p + 1)) :: rest)

section Rendering

variable {memory : Memory} {format : CString} {length : Nat}

/-- A directive stands for one sequence of calls only. -/
theorem Expands.eq {kind : BitVec 8} {argument : BitVec 64} {first second : List Output}
    (takes : TakesArgument kind) (one : Expands memory kind argument first)
    (other : Expands memory kind argument second) : first = second := by
  rcases takes with isNumber | isString | isCharacter | isHex | isUnsigned
  · rw [one.decimal isNumber, other.decimal isNumber]
  · obtain ⟨text, has, here⟩ := one.string isString
    obtain ⟨text', has', there⟩ := other.string isString
    rw [here, there, has.eq has']
  · rw [one.character isCharacter, other.character isCharacter]
  · rw [one.hexadecimal isHex, other.hexadecimal isHex]
  · rw [one.unsigned isUnsigned, other.unsigned isUnsigned]

/-- And so does a format. -/
theorem Renders.eq {p : Nat} {args : Arguments} {first second : List Output}
    (one : Renders memory format length p args first)
    (other : Renders memory format length p args second) : first = second := by
  induction one generalizing second with
  | terminator =>
    cases other with
    | terminator => rfl
    | plain inside => exact absurd inside (Nat.lt_irrefl length)
    | directive inside => exact absurd inside (Nat.not_lt.mpr (Nat.le_succ length))
    | pair inside => exact absurd inside (Nat.not_lt.mpr (Nat.le_succ length))
  | plain inside character later inductionHypothesis =>
    cases other with
    | terminator => exact absurd inside (Nat.lt_irrefl length)
    | plain _ _ later' => rw [inductionHypothesis later']
    | directive _ directed => exact absurd directed character
    | pair _ directed => exact absurd directed character
  | directive inside directed takes expands later inductionHypothesis =>
    cases other with
    | terminator => exact absurd inside (Nat.not_lt.mpr (Nat.le_succ length))
    | plain _ character => exact absurd directed character
    | directive _ _ _ expands' later' =>
      rw [expands.eq takes expands', inductionHypothesis later']
    | pair _ _ other => exact absurd takes other
  | pair inside directed noArgument later inductionHypothesis =>
    cases other with
    | terminator => exact absurd inside (Nat.not_lt.mpr (Nat.le_succ length))
    | plain _ character => exact absurd directed character
    | directive _ _ takes => exact absurd takes noArgument
    | pair _ _ _ later' => rw [inductionHypothesis later']

/-! ### The calls of a directive -/

/-- A numeral has no control character, so it is neither cut short nor taken for the command. -/
theorem kprintBuilt_eq {text : List (BitVec 8)} (numeral : ∀ character ∈ text, 45 ≤ character.toNat)
    {fuel : Nat} (enough : text.length < fuel) :
    kprintBuilt fuel (some text) = (putAll text, true) := by
  have plain : 0#8 ∉ text := fun member => absurd (numeral _ member) (by decide)
  have noCommand : text ≠ literal "\x1b[2k" := fun same =>
    absurd (numeral 0x1B#8 (same ▸ by decide)) (by decide)
  rw [kprintBuilt, kprintOutput_eq (hasText_buffer plain) enough, if_neg noCommand]

theorem mem_numberText {num : BitVec 32} {character : BitVec 8}
    (member : character ∈ numberText num) : 45 ≤ character.toNat := by
  rw [numberText] at member
  split_ifs at member
  · exact (by decide : ∀ character ∈ literal "-2147483648", 45 ≤ character.toNat) character member
  · exact @mem_signedText num.toInt.natAbs true character (List.mem_reverse.mp member)
  · exact @mem_signedText num.toInt.natAbs false character (List.mem_reverse.mp member)

section Directive

variable {args : Arguments} {fuel : Nat} (frame : Frame)

theorem directiveOutput_decimal (enough : (numberText ((args 0).setWidth 32)).length < fuel) :
    directiveOutput memory fuel frame 0x64#8 args =
      ((putAll (numberText ((args 0).setWidth 32)), true), args.rest) := by
  rw [directiveOutput, if_pos rfl, kprintNumOutput, kprintNumText_eq,
    kprintBuilt_eq (fun _ => mem_numberText) enough]

theorem directiveOutput_string {text : List (BitVec 8)}
    (has : HasText (stringAt memory (args 0)) text) (enough : text.length < fuel) :
    directiveOutput memory fuel frame 0x73#8 args =
      ((if text = literal "\x1b[2k" then [.rmline] else putAll text, true), args.rest) := by
  rw [directiveOutput, if_neg (by decide), if_pos rfl, kprintOutput_eq has enough]

theorem directiveOutput_hexadecimal (enough : (hexBuffer (args 0)).length < fuel) :
    directiveOutput memory fuel frame 0x78#8 args =
      ((putAll (hexBuffer (args 0)), true), args.rest) := by
  have numeral : ∀ character ∈ hexBuffer (args 0), 45 ≤ character.toNat := fun _ member =>
    (by decide : 45 ≤ 48).trans (mem_hexBuffer member)
  rw [directiveOutput, if_neg (by decide), if_neg (by decide), if_neg (by decide), if_pos rfl,
    hexText_eq, kprintBuilt_eq numeral enough]

theorem directiveOutput_unsigned
    (enough : (digitBuffer ((args 0).setWidth 32 : BitVec 32).toNat).reverse.length < fuel) :
    directiveOutput memory fuel frame 0x75#8 args =
      ((putAll (digitBuffer ((args 0).setWidth 32 : BitVec 32).toNat).reverse, true),
        args.rest) := by
  have numeral : ∀ character ∈ (digitBuffer ((args 0).setWidth 32 : BitVec 32).toNat).reverse,
      45 ≤ character.toNat := fun _ member =>
    (by decide : 45 ≤ 48).trans (mem_digitBuffer (List.mem_reverse.mp member))
  rw [directiveOutput, if_neg (by decide), if_neg (by decide), if_neg (by decide),
    if_neg (by decide), if_pos rfl, kprintUnsignedOutput, kprintUnsignedText_eq,
    kprintBuilt_eq numeral enough]

end Directive

/-- The calls for a directive with an argument are those it stands for. -/
theorem directiveOutput_expands {kind : BitVec 8} {args : Arguments} (takes : TakesArgument kind)
    (matching : kind = 0x73#8 → ∃ length, HasLength (stringAt memory (args 0)) length) :
    ∃ output, Expands memory kind (args 0) output ∧ ∃ bound, ∀ fuel, bound < fuel → ∀ frame,
      directiveOutput memory fuel frame kind args = ((output, true), args.rest) := by
  rcases takes with rfl | rfl | rfl | rfl | rfl
  · exact ⟨_, ⟨fun _ => congrArg putAll (numberText_eq _), fun other => absurd other (by decide),
        fun other => absurd other (by decide), fun other => absurd other (by decide),
        fun other => absurd other (by decide)⟩,
      _, fun fuel enough frame => directiveOutput_decimal frame enough⟩
  · obtain ⟨length, string⟩ := matching rfl
    obtain ⟨text, sameLength, has⟩ := string.exists_text
    exact ⟨_, ⟨fun other => absurd other (by decide), fun other => absurd other (by decide),
        fun other => absurd other (by decide), fun other => absurd other (by decide),
        fun _ => ⟨text, has, rfl⟩⟩,
      _, fun fuel enough frame => directiveOutput_string frame has enough⟩
  · exact ⟨[.putc ((args 0).setWidth 8)],
      ⟨fun other => absurd other (by decide), fun other => absurd other (by decide),
        fun other => absurd other (by decide), fun _ => rfl, fun other => absurd other (by decide)⟩,
      0, fun fuel enough frame => rfl⟩
  · exact ⟨_, ⟨fun other => absurd other (by decide), fun other => absurd other (by decide),
        fun _ => congrArg putAll (hexBuffer_eq _), fun other => absurd other (by decide),
        fun other => absurd other (by decide)⟩,
      _, fun fuel enough frame => directiveOutput_hexadecimal frame enough⟩
  · have bounds := ((args 0).setWidth 32 : BitVec 32).isLt
    exact ⟨_, ⟨fun other => absurd other (by decide),
        fun _ => congrArg putAll (digitBuffer_reverse (by omega)),
        fun other => absurd other (by decide), fun other => absurd other (by decide),
        fun other => absurd other (by decide)⟩,
      _, fun fuel enough frame => directiveOutput_unsigned frame enough⟩

theorem directiveOutput_pair {kind : BitVec 8} (other : ¬ TakesArgument kind) (memory : Memory)
    (fuel : Nat) (frame : Frame) (args : Arguments) :
    directiveOutput memory fuel frame kind args =
      (([.putc percent, .putc kind], true), args) := by
  simp only [TakesArgument, not_or] at other
  obtain ⟨notNumber, notString, notCharacter, notHex, notUnsigned⟩ := other
  rw [directiveOutput, if_neg notNumber, if_neg notString, if_neg notCharacter, if_neg notHex,
    if_neg notUnsigned]

/-! ### The calls of vkprintf -/

/-- The calls from `p` on are the rendering of what is there, whatever the buffers hold. -/
def PutsOut (memory : Memory) (format : CString) (length p : Nat) (args : Arguments) : Prop :=
  ∃ output, Renders memory format length p args output ∧ ∃ bound, ∀ fuel, bound < fuel →
    ∀ frames, vkprintfOutputLoop memory fuel frames format args p = (output, true)

variable {p : Nat} {args : Arguments}

theorem putsOut_terminator (ends : format length = 0#8) :
    PutsOut memory format length length args := by
  refine ⟨[], .terminator, 0, fun fuel enough frames => ?_⟩
  obtain ⟨fuel, rfl⟩ := Nat.exists_eq_add_one.mpr (Nat.zero_lt_of_lt enough)
  rw [vkprintfOutputLoop, if_pos ends]

/-- A character that is no `'%'` stands for itself. -/
theorem putsOut_plain (inside : p < length) (character : format p ≠ 0#8)
    (plain : format p ≠ percent) (later : PutsOut memory format length (p + 1) args) :
    PutsOut memory format length p args := by
  obtain ⟨rest, renders, bound, puts⟩ := later
  refine ⟨_, .plain inside plain renders, bound + 1, fun fuel enough frames => ?_⟩
  obtain ⟨fuel, rfl⟩ := Nat.exists_eq_add_one.mpr (Nat.zero_lt_of_lt enough)
  rw [vkprintfOutputLoop, if_neg character, if_neg plain,
    puts fuel (Nat.lt_of_succ_lt_succ enough) frames]

theorem vkprintfOutputLoop_directive (directed : format p = percent) {fuel : Nat}
    {frames : Nat → Frame} {output : List Output} {left : Arguments}
    (calls : directiveOutput memory fuel (frames p) (format (p + 1)) args =
      ((output, true), left)) :
    vkprintfOutputLoop memory (fuel + 1) frames format args p =
      (output ++ (vkprintfOutputLoop memory fuel frames format left (p + 1 + 1)).1,
        (vkprintfOutputLoop memory fuel frames format left (p + 1 + 1)).2) := by
  have character : format p ≠ 0#8 := by
    rw [directed]
    decide
  rw [vkprintfOutputLoop, if_neg character, if_pos directed, calls]
  rfl

/-- A `'%'` and the character after it stand for what the directive prints. -/
theorem putsOut_directive (inside : p + 1 < length) (directed : format p = percent)
    (matching : format (p + 1) = 0x73#8 →
      ∃ length, HasLength (stringAt memory (args 0)) length)
    (later : PutsOut memory format length (p + 1 + 1)
      (if TakesArgument (format (p + 1)) then args.rest else args)) :
    PutsOut memory format length p args := by
  obtain ⟨rest, renders, bound, puts⟩ := later
  by_cases takes : TakesArgument (format (p + 1))
  · rw [if_pos takes] at renders puts
    obtain ⟨output, expands, rounds, calls⟩ := directiveOutput_expands takes matching
    refine ⟨_, .directive inside directed takes expands renders, bound + rounds + 1,
      fun fuel enough frames => ?_⟩
    obtain ⟨fuel, rfl⟩ := Nat.exists_eq_add_one.mpr (Nat.zero_lt_of_lt enough)
    rw [vkprintfOutputLoop_directive directed (calls fuel (by omega) (frames p)),
      puts fuel (by omega) frames]
  · rw [if_neg takes] at renders puts
    refine ⟨_, .pair inside directed takes renders, bound + 1, fun fuel enough frames => ?_⟩
    obtain ⟨fuel, rfl⟩ := Nat.exists_eq_add_one.mpr (Nat.zero_lt_of_lt enough)
    rw [vkprintfOutputLoop_directive directed (directiveOutput_pair takes ..),
      puts fuel (Nat.lt_of_succ_lt_succ enough) frames]
    rfl

/-- The pairs of a format are gone through from the left, and none is left dangling. -/
theorem putsOut_of_not_dangling {remaining : Nat} (all : p + remaining = length)
    (string : HasLength format length) (matching : Matching memory format remaining p args)
    (paired : ¬ Dangling format remaining p) : PutsOut memory format length p args := by
  induction remaining, p, args using Matching.induct format with
  | case1 p args =>
    rw [Nat.add_zero] at all
    exact all ▸ putsOut_terminator (all ▸ string.terminator)
  | case2 p args =>
    refine putsOut_plain (by omega) (string.characters p (by omega)) paired ?_
    exact all ▸ putsOut_terminator (all ▸ string.terminator)
  | case3 remaining p args directed inductionHypothesis =>
    rw [Matching, if_pos directed] at matching
    rw [Dangling, if_pos directed] at paired
    exact putsOut_directive (by omega) directed matching.1
      (inductionHypothesis (by omega) matching.2 paired)
  | case4 remaining p args plain inductionHypothesis =>
    rw [Matching, if_neg plain] at matching
    rw [Dangling, if_neg plain] at paired
    exact putsOut_plain (by omega) (string.characters p (by omega)) plain
      (inductionHypothesis (by omega) matching paired)

end Rendering

/-- The calls `vkprintf` makes are the rendering of its format, which is one sequence, and it
returns without an access outside its buffers. -/
theorem vkprintf_renders (memory : Memory) (format : CString) (length : Nat)
    (string : HasLength format length) (args : Arguments)
    (matching : Matching memory format length 0 args) (paired : ¬ Dangling format length 0) :
    ∃ output, (∀ other, Renders memory format length 0 args other ↔ other = output) ∧
      ∃ bound, ∀ fuel, bound < fuel →
        (∀ frames, vkprintfOutput memory fuel frames format args = (output, true)) ∧
        ∀ c, (vkprintf memory fuel c format args).console = emitAll c output ∧
          (vkprintf memory fuel c format args).finished = true := by
  obtain ⟨output, renders, bound, puts⟩ :=
    putsOut_of_not_dangling (Nat.zero_add length) string matching paired
  refine ⟨output, fun other => ⟨fun here => here.eq renders, fun same => same ▸ renders⟩, bound,
    fun fuel enough => ⟨puts fuel enough, fun c => ?_⟩⟩
  let blank : Frame := ⟨⟨fun _ => 0#8⟩, ⟨fun _ => 0#8⟩⟩
  obtain ⟨console, finished⟩ := vkprintf_eq_emitAll memory fuel (fun _ => blank) c format args
  rw [vkprintfOutput, puts fuel enough] at console finished
  exact ⟨console, finished⟩

/-- A signed number between two characters. -/
theorem vkprintf_renders_number :
    ∃ output, (∀ other, Renders (fun _ => 0#8) (buffer (literal "<%d>")) 4 0 (fun _ => 7#64) other ↔
        other = output) ∧
      ∃ bound, ∀ fuel, bound < fuel →
        (∀ frames, vkprintfOutput (fun _ => 0#8) fuel frames (buffer (literal "<%d>"))
          (fun _ => 7#64) = (output, true)) ∧
        ∀ c, (vkprintf (fun _ => 0#8) fuel c (buffer (literal "<%d>")) fun _ => 7#64).console =
            emitAll c output ∧
          (vkprintf (fun _ => 0#8) fuel c (buffer (literal "<%d>")) fun _ => 7#64).finished =
            true := by
  refine vkprintf_renders _ _ 4 ⟨by decide, by decide⟩ _ ?_ ?_
  · rw [Matching, if_neg (by decide), Matching, if_pos (by decide)]
    exact ⟨fun isString => absurd isString (by decide), trivial⟩
  · rw [Dangling, if_neg (by decide), Dangling, if_pos (by decide), Dangling]
    decide

end M12
