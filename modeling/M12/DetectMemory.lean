/-
This file models `detect_memory` of `boot/memory.asm`, which fills the memory map
the kernel reads.

Each INT 15h/E820 call stores an entry of five or six 32-bit words at `ES:DI` and
reports its size in `CX`; the loop advances `DI` by that size and counts. The
kernel reads the entries back with a fixed stride of 24 bytes and takes the count
to be 16 bits wide, while the loader stores it as 32 bits. The two agree exactly
when the first base has no bits in the two bytes the wide store clears and no
entry has moved because of a 20-byte one before it, unless the words it is then
read from happen to repeat it.
-/

import M12.MemoryMap
import M12.Library.DwordStream

namespace M12

open ByteMemory

/-! ### The loader's loop -/

/-- A successful E820 response: the entry stored and whether it has the sixth word. -/
structure Response where
  entry : MemoryMapEntry
  long : Bool
deriving DecidableEq

namespace Response

/-- The words stored at `ES:DI`. -/
def dwords (response : Response) : List (BitVec 32) :=
  [response.entry.baseLow, response.entry.baseHigh, response.entry.lengthLow,
    response.entry.lengthHigh, response.entry.type] ++
    if response.long then [response.entry.acpi] else []

/-- The size returned in `CX`. -/
def size (response : Response) : BitVec 16 := if response.long then 24#16 else 20#16

end Response

/-- What one `int 0x15` does: it sets the carry flag, or it stores an entry and returns `EAX`
and `EBX`. -/
inductive BiosReply where
  | carry
  | entry (eax ebx : BitVec 32) (response : Response)

/-- `0x534D4150`, the letters `SMAP`. -/
def smap : BitVec 32 := 0x534D4150#32

/-- Memory, `DI` and `[entry_count]`. -/
structure DetectState where
  ram : Memory
  di : BitVec 16
  entryCount : BitVec 32

/-- The state once the BIOS has stored a response and the loop has counted it. -/
def DetectState.accept (s : DetectState) (response : Response) : DetectState where
  ram := DwordStream.put s.ram (s.di.setWidth 64) response.dwords
  di := s.di + response.size
  entryCount := s.entryCount + 1#32

/-- `.memory_loop` from the BIOS call number `call`, with `ES = 0`; the flag is `false` when it
leaves through `.memory_error`. Its own limit ends it after at most 32 turns. -/
def memoryLoop (bios : Nat → BiosReply) (s : DetectState) (call : Nat) : Nat → DetectState × Bool
  | 0 => (s, true)
  | remaining + 1 =>
    match bios call with
    | .carry => (s, true)
    | .entry eax ebx response =>
      if eax ≠ smap then ({ s with ram := (s.accept response).ram }, false)
      else if ebx = 0#32 then (s.accept response, true)
      else if (s.accept response).entryCount < 32#32 then
        memoryLoop bios (s.accept response) (call + 1) remaining
      else (s.accept response, true)

/-- `detect_memory`: both exits end with a 32-bit store to `MEMORY_MAP_LOCATION`. -/
def detectMemory (bios : Nat → BiosReply) (ram : Memory) : Memory :=
  match memoryLoop bios ⟨ram, 0x5002#16, 0#32⟩ 0 32 with
  | (s, true) => store s.ram memoryMapLocation s.entryCount
  | (s, false) => store s.ram memoryMapLocation 0#32

theorem toNat_accept_entryCount {s : DetectState} (response : Response)
    (few : s.entryCount.toNat ≤ 32) :
    (s.accept response).entryCount.toNat = s.entryCount.toNat + 1 := by
  rw [DetectState.accept, BitVec.toNat_add, BitVec.toNat_ofNat]
  omega

/-- The limit of the loop, not the bound on its turns, is what ends it. -/
theorem memoryLoop_enough (bios : Nat → BiosReply) (s : DetectState) (call : Nat)
    {remaining : Nat} (count : s.entryCount.toNat + remaining = 32) (more : 0 < remaining)
    (extra : Nat) :
    memoryLoop bios s call (remaining + extra) = memoryLoop bios s call remaining := by
  induction remaining generalizing s call with
  | zero => exact absurd more (Nat.lt_irrefl 0)
  | succ remaining inductionHypothesis =>
    rw [Nat.succ_add, memoryLoop, memoryLoop]
    cases bios call with
    | carry => rfl
    | entry eax ebx response =>
      have next := toNat_accept_entryCount response (show s.entryCount.toNat ≤ 32 by omega)
      simp only
      split_ifs with failed last again
      · rfl
      · rfl
      · rw [BitVec.lt_def, next, BitVec.toNat_ofNat] at again
        exact inductionHypothesis _ _ (by omega) (by omega)
      · rfl

/-! ### A run of the BIOS -/

/-- From the call number `call` on the BIOS gives these responses: each with `EAX = 'SMAP'`, and
after the last one it ends by `EBX = 0` or by the carry flag. -/
def Answers (bios : Nat → BiosReply) (call : Nat) : List Response → Prop
  | [] => bios call = .carry
  | response :: rest => ∃ ebx, bios call = .entry smap ebx response ∧
      if ebx = 0#32 then rest = [] else Answers bios (call + 1) rest

/-- All the words the BIOS stores, in order. -/
def stream (responses : List Response) : List (BitVec 32) := responses.flatMap Response.dwords

theorem length_dwords (response : Response) :
    4 * response.dwords.length = response.size.toNat ∧ response.dwords.length ≤ 6 := by
  rw [Response.dwords, Response.size]
  cases response.long <;> exact ⟨rfl, by simp⟩

theorem length_stream_le (responses : List Response) :
    (stream responses).length ≤ 6 * responses.length := by
  induction responses with
  | nil => exact Nat.le_refl 0
  | cons response rest inductionHypothesis =>
    have six := (length_dwords response).2
    rw [stream, List.flatMap_cons, List.length_append, List.length_cons, Nat.mul_succ]
    rw [stream] at inductionHypothesis
    omega

section Accept

/- A response is stored where the offset stays below 64 KB. -/
variable (s : DetectState) {response : Response}
  (fits : s.di.toNat + 4 * response.dwords.length < 2 ^ 16)
include fits

theorem toNat_accept_di :
    (s.accept response).di.toNat = s.di.toNat + 4 * response.dwords.length := by
  have size := (length_dwords response).1
  rw [DetectState.accept, BitVec.toNat_add]
  omega

/-- The response comes first in the stream and the others are stored behind it. -/
theorem put_accept (rest : List Response) :
    DwordStream.put s.ram (s.di.setWidth 64) (stream (response :: rest)) =
      DwordStream.put (s.accept response).ram ((s.accept response).di.setWidth 64)
        (stream rest) := by
  have address : s.di.setWidth 64 + BitVec.ofNat 64 (4 * response.dwords.length) =
      (s.accept response).di.setWidth 64 := by
    apply BitVec.eq_of_toNat_eq
    rw [BitVec.toNat_setWidth, toNat_accept_di s fits, BitVec.toNat_add, BitVec.toNat_setWidth,
      BitVec.toNat_ofNat]
    omega
  rw [stream, List.flatMap_cons, ← stream, DwordStream.put_append, address,
    show (s.accept response).ram =
      DwordStream.put s.ram (s.di.setWidth 64) response.dwords from rfl]

end Accept

/-- The loop stores the responses as one stream and counts them. -/
theorem memoryLoop_of_answers {bios : Nat → BiosReply} {responses : List Response}
    {s : DetectState} {call remaining : Nat} (answers : Answers bios call responses)
    (few : s.entryCount.toNat + responses.length ≤ 32) (enough : responses.length ≤ remaining)
    (fits : s.di.toNat + 4 * (stream responses).length < 2 ^ 16) :
    ∃ di, memoryLoop bios s call remaining =
      (⟨DwordStream.put s.ram (s.di.setWidth 64) (stream responses), di,
        s.entryCount + BitVec.ofNat 32 responses.length⟩, true) := by
  induction responses generalizing s call remaining with
  | nil =>
    refine ⟨s.di, ?_⟩
    rw [stream, List.flatMap_nil, DwordStream.put_nil, List.length_nil, BitVec.add_zero]
    cases remaining with
    | zero => rfl
    | succ remaining =>
      rw [memoryLoop, show bios call = .carry from answers]
  | cons response rest inductionHypothesis =>
    obtain ⟨ebx, reply, ending⟩ := answers
    obtain ⟨remaining, rfl⟩ : ∃ more, remaining = more + 1 := by
      rw [List.length_cons] at enough
      exact ⟨remaining - 1, by omega⟩
    rw [stream, List.flatMap_cons, List.length_append, ← stream] at fits
    rw [List.length_cons] at few enough
    have count := toNat_accept_entryCount response (show s.entryCount.toNat ≤ 32 by omega)
    have firstFits : s.di.toNat + 4 * response.dwords.length < 2 ^ 16 := by omega
    have advance := toNat_accept_di s firstFits
    have stored := put_accept s firstFits rest
    have total : s.entryCount + BitVec.ofNat 32 (rest.length + 1) =
        (s.accept response).entryCount + BitVec.ofNat 32 rest.length := by
      rw [DetectState.accept, BitVec.add_assoc, ← BitVec.ofNat_add, Nat.add_comm rest.length 1]
    have finished : rest = [] → ∃ di, s.accept response =
        ⟨DwordStream.put (s.accept response).ram ((s.accept response).di.setWidth 64)
          (stream rest), di, (s.accept response).entryCount + BitVec.ofNat 32 rest.length⟩ := by
      rintro rfl
      refine ⟨(s.accept response).di, ?_⟩
      rw [stream, List.flatMap_nil, DwordStream.put_nil, List.length_nil, BitVec.add_zero]
    rw [stored, List.length_cons, total, memoryLoop, reply]
    simp only [ne_eq, not_true_eq_false, if_false]
    split_ifs with last again
    · rw [if_pos last] at ending
      obtain ⟨di, same⟩ := finished ending
      exact ⟨di, congrArg (·, true) same⟩
    · rw [if_neg last] at ending
      exact inductionHypothesis ending (by omega) (by omega) (by omega)
    · rw [BitVec.lt_def, count, BitVec.toNat_ofNat] at again
      obtain ⟨di, same⟩ := finished (List.length_eq_zero_iff.mp (by omega))
      exact ⟨di, congrArg (·, true) same⟩

/-- With at most 32 responses, the loader leaves their stream with the count stored over its
first two bytes. -/
theorem detectMemory_eq {bios : Nat → BiosReply} {responses : List Response}
    (answers : Answers bios 0 responses) (few : responses.length ≤ 32) (ram : Memory) :
    detectMemory bios ram =
      store (DwordStream.put ram 0x5002#64 (stream responses)) memoryMapLocation
        (BitVec.ofNat 32 responses.length) := by
  have length := length_stream_le responses
  have fits : (0x5002#16).toNat + 4 * (stream responses).length < 2 ^ 16 := by
    rw [BitVec.toNat_ofNat]
    omega
  obtain ⟨di, result⟩ := memoryLoop_of_answers (s := ⟨ram, 0x5002#16, 0#32⟩) answers
    (by rwa [BitVec.toNat_ofNat, Nat.zero_mod, Nat.zero_add]) few fits
  rw [detectMemory, result]
  simp only [BitVec.zero_add]
  rw [show (0x5002#16).setWidth 64 = 0x5002#64 from by decide]

/-! ### Reading the table back -/

/-- The word number `j` from `0x5002` as the BIOS left it: a word of the stream, or what memory
held before. -/
def storedDword (ram : Memory) (responses : List Response) (j : Nat) : BitVec 32 :=
  (stream responses)[j]?.getD (DwordStream.get ram 0x5002#64 j)

theorem get_put_stream (ram : Memory) {responses : List Response} (few : responses.length ≤ 32)
    {j : Nat} (small : j < 2 ^ 32) :
    DwordStream.get (DwordStream.put ram 0x5002#64 (stream responses)) 0x5002#64 j =
      storedDword ram responses j := by
  have length := length_stream_le responses
  rw [storedDword]
  by_cases inside : j < (stream responses).length
  · rw [DwordStream.get_put_of_lt ram _ (by omega) inside, List.getElem?_eq_getElem inside,
      Option.getD_some]
  · rw [DwordStream.get_put_of_le ram _ (by omega) (by omega),
      List.getElem?_eq_none (by omega), Option.getD_none]

section Table

variable {bios : Nat → BiosReply} {responses : List Response}
  (answers : Answers bios 0 responses) (few : responses.length ≤ 32) (ram : Memory)
include answers few

/-- The count store reaches no word but the first. -/
theorem get_detectMemory_of_pos {j : Nat} (later : 0 < j) (small : j < 2 ^ 32) :
    DwordStream.get (detectMemory bios ram) 0x5002#64 j = storedDword ram responses j := by
  rw [detectMemory_eq answers few, ← get_put_stream ram few small]
  refine load_store_of_disjoint _ _ fun offset close within => ?_
  have place : (0x5002#64 + BitVec.ofNat 64 (4 * j) + BitVec.ofNat 64 offset).toNat =
      0x5002 + 4 * j + offset := by
    rw [BitVec.toNat_add, BitVec.toNat_add, BitVec.toNat_ofNat, BitVec.toNat_ofNat,
      BitVec.toNat_ofNat]
    omega
  rw [BitVec.toNat_sub, place, show memoryMapLocation.toNat = 0x5000 from rfl] at within
  omega

/-- Its upper half, always zero, replaces the low half of the first word. -/
theorem get_detectMemory_zero :
    DwordStream.get (detectMemory bios ram) 0x5002#64 0 =
      storedDword ram responses 0 &&& 0xFFFF0000#32 := by
  have mask {bit : Nat} (small : bit < 32) : (0xFFFF0000#32).getLsbD bit = decide (16 ≤ bit) := by
    decide +revert
  have count {bit : Nat} (high : 16 ≤ bit) :
      (BitVec.ofNat 32 responses.length).getLsbD bit = false := by
    refine Nat.testBit_lt_two_pow (lt_of_lt_of_le ?_ (Nat.pow_le_pow_right (by decide) high))
    rw [BitVec.toNat_ofNat]
    omega
  rw [detectMemory_eq answers few, ← get_put_stream ram few (by decide)]
  refine BitVec.eq_of_getLsbD_eq fun bit small => ?_
  have place : (0x5002#64 + BitVec.ofNat 64 (4 * 0) + BitVec.ofNat 64 (bit / 8) -
      memoryMapLocation).toNat = 2 + bit / 8 := by
    rw [BitVec.toNat_sub, BitVec.toNat_add, BitVec.toNat_add, BitVec.toNat_ofNat,
      BitVec.toNat_ofNat, BitVec.toNat_ofNat, show memoryMapLocation.toNat = 0x5000 from rfl]
    omega
  rw [DwordStream.get, getLsbD_load _ _ small, BitVec.getLsbD_and, mask small, DwordStream.get,
    getLsbD_load _ _ small, store, place]
  by_cases high : 16 ≤ bit
  · rw [if_neg (by omega), decide_eq_true high, Bool.and_true]
  · rw [if_pos (by omega), decide_eq_false high, Bool.and_false, BitVec.getLsbD_extractLsb',
      count (by omega), Bool.and_false]

theorem entryCount_detectMemory :
    (entryCount (detectMemory bios ram)).toNat = responses.length := by
  have whole : entryCount (detectMemory bios ram) = BitVec.ofNat 16 responses.length := by
    rw [detectMemory_eq answers few]
    refine BitVec.eq_of_getLsbD_eq fun bit small => ?_
    rw [entryCount, getLsbD_load _ _ small, store, toNat_add_sub_self _ (by omega),
      if_pos (by omega), BitVec.getLsbD_extractLsb', Nat.div_add_mod, BitVec.getLsbD_ofNat,
      BitVec.getLsbD_ofNat, decide_eq_true (Nat.mod_lt bit (by decide)), decide_eq_true small,
      decide_eq_true (show bit < 32 by omega), Bool.true_and]
  rw [whole, BitVec.toNat_ofNat]
  omega

end Table

/-! ### When writer and reader agree -/

/-- The word number `k` of a response; the first five are base, length and type. -/
def Response.dword (response : Response) (k : Nat) : BitVec 32 := response.dwords.getD k 0#32

/-- The kernel reads back the number of responses and, for each, its base, length and type. -/
structure Agrees (ram : Memory) (responses : List Response) : Prop where
  count : (entryCount ram).toNat = responses.length
  entries : ∀ i (inside : i < responses.length),
    (entryAt ram i).base = responses[i].entry.base ∧
      (entryAt ram i).length = responses[i].entry.length ∧
      (entryAt ram i).type = responses[i].entry.type

/-- Some response before number `i` has only 20 bytes. -/
def Displaced (responses : List Response) (i : Nat) : Prop :=
  ∃ response ∈ responses.take i, response.long = false

/-- The base of the first response, if there is one, is a multiple of 64 KB. -/
def FirstBaseAligned (responses : List Response) : Prop :=
  ∀ response, responses.head? = some response → response.entry.base.toNat % 65536 = 0

/-- Every displaced response repeats: its five words are also those that the BIOS, or earlier
memory, left at the place of entry number `i`. -/
def DisplacedRepeat (ram : Memory) (responses : List Response) : Prop :=
  ∀ i (inside : i < responses.length), Displaced responses i →
    ∀ k < 5, storedDword ram responses (6 * i + k) = responses[i].dword k

theorem toNat_join (high low : BitVec 32) :
    (high.setWidth 64 <<< 32 ||| low.setWidth 64).toNat = high.toNat * 2 ^ 32 + low.toNat := by
  have highLt := high.isLt
  have lowLt := low.isLt
  rw [BitVec.toNat_or, BitVec.toNat_shiftLeft, BitVec.toNat_setWidth, BitVec.toNat_setWidth,
    Nat.mod_eq_of_lt (show high.toNat < 2 ^ 64 by omega),
    Nat.mod_eq_of_lt (show low.toNat < 2 ^ 64 by omega), Nat.shiftLeft_eq,
    Nat.mod_eq_of_lt (show high.toNat * 2 ^ 32 < 2 ^ 64 by omega), ← Nat.shiftLeft_eq,
    ← Nat.shiftLeft_add_eq_or_of_lt lowLt, Nat.shiftLeft_eq]

/-- Two halves joined are equal exactly when the halves are. -/
theorem join_eq_iff (high low high' low' : BitVec 32) :
    high.setWidth 64 <<< 32 ||| low.setWidth 64 = high'.setWidth 64 <<< 32 ||| low'.setWidth 64 ↔
      low = low' ∧ high = high' := by
  constructor
  · intro same
    have numbers := congrArg BitVec.toNat same
    rw [toNat_join, toNat_join] at numbers
    have lowLt := low.isLt
    have lowLt' := low'.isLt
    exact ⟨BitVec.eq_of_toNat_eq (by omega), BitVec.eq_of_toNat_eq (by omega)⟩
  · rintro ⟨rfl, rfl⟩
    rfl

theorem toNat_base_mod (entry : MemoryMapEntry) :
    entry.base.toNat % 65536 = entry.baseLow.toNat % 65536 := by
  rw [MemoryMapEntry.base, toNat_join]
  omega

/-- Clearing the low half changes nothing exactly when it is clear. -/
theorem and_high_half_eq_iff (word : BitVec 32) :
    word &&& 0xFFFF0000#32 = word ↔ word.toNat % 65536 = 0 := by
  have mask {bit : Nat} (small : bit < 32) : (0xFFFF0000#32).getLsbD bit = decide (16 ≤ bit) := by
    decide +revert
  constructor
  · intro same
    refine Nat.eq_of_testBit_eq fun bit => ?_
    rw [show 65536 = 2 ^ 16 from rfl, Nat.testBit_mod_two_pow, Nat.zero_testBit]
    by_cases low : bit < 16
    · have masked := congrArg (fun value => BitVec.getLsbD value bit) same
      simp only [BitVec.getLsbD_and, mask (show bit < 32 by omega),
        decide_eq_false (show ¬ 16 ≤ bit by omega), Bool.and_false] at masked
      rw [decide_eq_true low, Bool.true_and]
      exact masked.symm
    · rw [decide_eq_false low, Bool.false_and]
  · intro clear
    refine BitVec.eq_of_getLsbD_eq fun bit small => ?_
    rw [BitVec.getLsbD_and, mask small]
    by_cases low : bit < 16
    · have masked := congrArg (fun number => Nat.testBit number bit) clear
      simp only [show 65536 = 2 ^ 16 from rfl, Nat.testBit_mod_two_pow, decide_eq_true low,
        Bool.true_and, Nat.zero_testBit] at masked
      rw [show word.getLsbD bit = false from masked, Bool.false_and]
    · rw [decide_eq_true (by omega), Bool.and_true]

/-- The kernel's stride of 24 bytes is six words. -/
theorem load_entryAddress (ram : Memory) (i k : Nat) :
    load 32 ram (entryAddress i + BitVec.ofNat 64 (4 * k)) =
      DwordStream.get ram 0x5002#64 (6 * i + k) := by
  rw [DwordStream.get, entryAddress, BitVec.add_assoc, ← BitVec.ofNat_add,
    show 24 * i + 4 * k = 4 * (6 * i + k) by omega]
  rfl

theorem entryAt_eq (ram : Memory) (i : Nat) :
    entryAt ram i = ⟨DwordStream.get ram 0x5002#64 (6 * i + 0),
      DwordStream.get ram 0x5002#64 (6 * i + 1), DwordStream.get ram 0x5002#64 (6 * i + 2),
      DwordStream.get ram 0x5002#64 (6 * i + 3), DwordStream.get ram 0x5002#64 (6 * i + 4),
      DwordStream.get ram 0x5002#64 (6 * i + 5)⟩ := by
  simp only [← load_entryAddress]
  rw [Nat.mul_zero, BitVec.add_zero]
  rfl

/-- An entry is read back right exactly when its first five words are the response's. -/
theorem entryAt_agrees_iff (ram : Memory) (i : Nat) (response : Response) :
    ((entryAt ram i).base = response.entry.base ∧ (entryAt ram i).length = response.entry.length ∧
        (entryAt ram i).type = response.entry.type) ↔
      ∀ k < 5, DwordStream.get ram 0x5002#64 (6 * i + k) = response.dword k := by
  rw [entryAt_eq]
  simp only [MemoryMapEntry.base, MemoryMapEntry.length, join_eq_iff]
  constructor
  · rintro ⟨⟨first, second⟩, ⟨third, fourth⟩, fifth⟩ k small
    interval_cases k
    · exact first
    · exact second
    · exact third
    · exact fourth
    · exact fifth
  · intro same
    exact ⟨⟨same 0 (by decide), same 1 (by decide)⟩, ⟨same 2 (by decide), same 3 (by decide)⟩,
      same 4 (by decide)⟩

/-- A response that is not displaced is stored where the kernel looks for it. -/
theorem storedDword_of_not_displaced (ram : Memory) {responses : List Response} {i : Nat}
    (inside : i < responses.length) (placed : ¬ Displaced responses i) {k : Nat} (small : k < 5) :
    storedDword ram responses (6 * i + k) = responses[i].dword k := by
  have found : (stream responses)[6 * i + k]? = some (responses[i].dword k) := by
    induction responses generalizing i with
    | nil => exact absurd inside (Nat.not_lt_zero i)
    | cons response rest inductionHypothesis =>
      have five : 5 ≤ response.dwords.length := by
        rw [Response.dwords, List.length_append]
        exact Nat.le_add_right 5 _
      rw [stream, List.flatMap_cons, ← stream]
      cases i with
      | zero =>
        rw [Nat.mul_zero, Nat.zero_add, List.getElem?_append_left (by omega),
          List.getElem_cons_zero, Response.dword, List.getD_eq_getElem?_getD,
          List.getElem?_eq_getElem (by omega), Option.getD_some]
      | succ i =>
        have long : response.long = true := by
          rw [← Bool.not_eq_false]
          exact fun short => placed ⟨response, List.mem_cons_self, short⟩
        have six : response.dwords.length = 6 := by
          rw [Response.dwords, long]
          rfl
        rw [List.getElem?_append_right (by omega), six,
          show 6 * (i + 1) + k - 6 = 6 * i + k by omega, List.getElem_cons_succ]
        refine inductionHypothesis (Nat.lt_of_succ_lt_succ inside) ?_
        rintro ⟨other, member, short⟩
        exact placed ⟨other, List.mem_cons_of_mem _ member, short⟩
  rw [storedDword, found, Option.getD_some]

/-- For every run of at most 32 responses, the table the loader leaves is read back right exactly
when the first base is a multiple of 64 KB and every response behind a 20-byte one repeats. -/
theorem detectMemory_agrees_iff (bios : Nat → BiosReply) (responses : List Response)
    (answers : Answers bios 0 responses) (few : responses.length ≤ 32) (ram : Memory) :
    Agrees (detectMemory bios ram) responses ↔
      FirstBaseAligned responses ∧ DisplacedRepeat ram responses := by
  have first : ¬ Displaced responses 0 := by
    rintro ⟨_, member, -⟩
    exact absurd member List.not_mem_nil
  constructor
  · rintro ⟨-, entries⟩
    refine ⟨fun response head => ?_, fun i inside displaced k small => ?_⟩
    · obtain ⟨inside, rfl⟩ := List.getElem?_eq_some_iff.mp (List.head?_eq_getElem? ▸ head)
      have base := (entryAt_agrees_iff _ 0 _).mp (entries 0 inside) 0 (by decide)
      have stored : storedDword ram responses 0 = responses[0].dword 0 :=
        storedDword_of_not_displaced ram inside first (show 0 < 5 by decide)
      rw [get_detectMemory_zero answers few, stored, and_high_half_eq_iff] at base
      rw [toNat_base_mod]
      exact base
    · have later : 0 < i := Nat.pos_of_ne_zero fun zero => first (zero ▸ displaced)
      have word := (entryAt_agrees_iff _ i _).mp (entries i inside) k small
      rwa [get_detectMemory_of_pos answers few ram (by omega) (by omega)] at word
  · rintro ⟨aligned, repeats⟩
    refine ⟨entryCount_detectMemory answers few ram, fun i inside => ?_⟩
    refine (entryAt_agrees_iff _ i _).mpr fun k small => ?_
    have stored : storedDword ram responses (6 * i + k) = responses[i].dword k := by
      by_cases displaced : Displaced responses i
      · exact repeats i inside displaced k small
      · exact storedDword_of_not_displaced ram inside displaced small
    rcases Nat.eq_zero_or_pos (6 * i + k) with zero | later
    · obtain ⟨rfl, rfl⟩ : i = 0 ∧ k = 0 := by omega
      have low : storedDword ram responses 0 = responses[0].dword 0 := stored
      rw [get_detectMemory_zero answers few, low, and_high_half_eq_iff]
      have base := aligned responses[0] (List.head?_eq_getElem? ▸ List.getElem?_eq_getElem inside)
      rw [toNat_base_mod] at base
      exact base
    · rw [get_detectMemory_of_pos answers few ram later (by omega), stored]

/-- In particular they agree when only the last response may have 20 bytes. -/
theorem detectMemory_agrees_of_long {bios : Nat → BiosReply} {responses : List Response}
    (answers : Answers bios 0 responses) (few : responses.length ≤ 32)
    (aligned : FirstBaseAligned responses)
    (long : ∀ response ∈ responses.dropLast, response.long = true) (ram : Memory) :
    Agrees (detectMemory bios ram) responses := by
  rw [detectMemory_agrees_iff bios responses answers few]
  refine ⟨aligned, fun i inside displaced => ?_⟩
  obtain ⟨response, member, short⟩ := displaced
  have early : response ∈ responses.dropLast := by
    rw [List.dropLast_eq_take]
    exact List.take_subset_take_left responses (by omega) member
  rw [long response early] at short
  exact Bool.noConfusion short

/-- A usable range as a response. -/
def usable (base length : BitVec 32) (long : Bool) : Response where
  entry := ⟨base, 0#32, length, 0#32, 1#32, 0#32⟩
  long := long

/-- Two full-size responses, and a last one of 20 bytes. -/
def lastShort : List Response :=
  [usable 0#32 0x9FC00#32 true, usable 0x100000#32 0x7EE0000#32 true,
    usable 0xFFFC0000#32 0x40000#32 false]

/-- The BIOS that gives them. -/
def lastShortReplies (call : Nat) : BiosReply :=
  match lastShort[call]? with
  | none => .carry
  | some response => .entry smap (if call = 2 then 0#32 else 1#32) response

/-- They are read back right: the short one displaces none. -/
theorem detectMemory_agrees_last_short :
    Agrees (detectMemory lastShortReplies fun _ => 0#8) lastShort := by
  have answers : Answers lastShortReplies 0 lastShort := by
    refine ⟨1#32, rfl, ?_⟩
    rw [if_neg (by decide)]
    refine ⟨1#32, rfl, ?_⟩
    rw [if_neg (by decide)]
    refine ⟨0#32, rfl, ?_⟩
    rw [if_pos rfl]
  refine (detectMemory_agrees_iff _ _ answers (by decide) _).mpr ⟨?_, ?_⟩
  · intro response head
    obtain rfl := Option.some.inj head
    decide
  · rintro i inside ⟨response, member, short⟩
    have early : response ∈ lastShort.take 2 :=
      List.take_subset_take_left lastShort (Nat.le_of_lt_succ inside) member
    have long : ∀ response ∈ lastShort.take 2, response.long = true := by decide
    rw [long response early] at short
    exact Bool.noConfusion short

/-- The BIOS that reports the memory below 640 KB and the memory from 1 MB on in 20-byte
entries. -/
def twoShortReplies (call : Nat) : BiosReply :=
  if call = 0 then .entry smap 1#32 (usable 0#32 0x9FC00#32 false)
  else .entry smap 0#32 (usable 0x100000#32 0x7F00000#32 false)

/-- After two 20-byte responses the second entry is read from the wrong words. -/
theorem detectMemory_misreads_short :
    Answers twoShortReplies 0
        [usable 0#32 0x9FC00#32 false, usable 0x100000#32 0x7F00000#32 false] ∧
      (entryAt (detectMemory twoShortReplies fun _ => 0#8) 1).base = 0x7F0000000000000#64 ∧
      ¬ Agrees (detectMemory twoShortReplies fun _ => 0#8)
        [usable 0#32 0x9FC00#32 false, usable 0x100000#32 0x7F00000#32 false] := by
  have base : (entryAt (detectMemory twoShortReplies fun _ => 0#8) 1).base =
      0x7F0000000000000#64 := by decide +kernel
  refine ⟨⟨1#32, rfl, ?_⟩, base, fun agrees => ?_⟩
  · rw [if_neg (by decide)]
    exact ⟨0#32, rfl, if_pos rfl ▸ rfl⟩
  · have wrong := (agrees.entries 1 (by decide)).1
    rw [base] at wrong
    exact absurd wrong (by decide)

end M12
