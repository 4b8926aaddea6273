/-
This file proves that the parser of the memory map picks the largest block.

The choice is stated by places in the table: of the entries that can be picked, no
other has a longer part above 1 MB, and none before it has one as long. That the
64-bit sums and differences are those of the numbers is stated by a second version
of the parser, which has no result where one of them would wrap, and which always
has the result of the first.
-/

import M12.MemoryMap

namespace M12

open ByteMemory MemoryMapEntry

/-! ### The first of the longest -/

/-- At place `k` of the table stands the first of the candidates with the longest part. -/
structure FirstLongest (table : List MemoryMapEntry) (k : Nat) (entry : MemoryMapEntry) : Prop where
  here : table[k]? = some entry
  candidate : entry.Candidate
  longest : ∀ (j : Nat) (other : MemoryMapEntry), table[j]? = some other → other.Candidate →
    other.partLength ≤ entry.partLength
  first : ∀ j < k, ∀ other : MemoryMapEntry, table[j]? = some other → other.Candidate →
    other.partLength < entry.partLength

/-- One more entry is the largest when its part is longer than all before. -/
theorem largestEntry_concat (seen : List MemoryMapEntry) (entry : MemoryMapEntry) :
    largestEntry (seen ++ [entry]) =
      if entry.Candidate then
        match largestEntry seen with
        | some best => if best.partLength < entry.partLength then some entry else some best
        | none => some entry
      else largestEntry seen := by
  rw [largestEntry, List.filter_append, List.filter_singleton]
  by_cases candidate : entry.Candidate
  · rw [decide_eq_true candidate, cond_true, List.argmax_concat, if_pos candidate, largestEntry]
    cases (seen.filter fun entry => entry.Candidate).argmax MemoryMapEntry.partLength with
    | none => rfl
    | some best => rfl
  · rw [decide_eq_false candidate, cond_false, List.append_nil, if_neg candidate, largestEntry]

/-- An entry of a table with one more is an entry before it or the last. -/
theorem getElem?_concat {seen : List MemoryMapEntry} {entry other : MemoryMapEntry} {j : Nat}
    (there : (seen ++ [entry])[j]? = some other) :
    seen[j]? = some other ∨ j = seen.length ∧ entry = other := by
  by_cases before : j < seen.length
  · rw [List.getElem?_append_left before] at there
    exact Or.inl there
  · rw [List.getElem?_append_right (Nat.le_of_not_lt before)] at there
    obtain ⟨inside, same⟩ := List.getElem?_eq_some_iff.mp there
    rw [List.length_singleton] at inside
    refine Or.inr ⟨by omega, ?_⟩
    rw [← same, List.getElem_singleton]

theorem lt_length_of_getElem? {table : List MemoryMapEntry} {j : Nat} {other : MemoryMapEntry}
    (there : table[j]? = some other) : j < table.length :=
  (List.getElem?_eq_some_iff.mp there).1

section Concat

variable {seen : List MemoryMapEntry} {entry : MemoryMapEntry}

/-- An entry that is no longer than the first of the longest leaves it so. -/
theorem FirstLongest.concat {k : Nat} {best : MemoryMapEntry} (longest : FirstLongest seen k best)
    (shorter : entry.Candidate → entry.partLength ≤ best.partLength) :
    FirstLongest (seen ++ [entry]) k best := by
  have inside := lt_length_of_getElem? longest.here
  refine ⟨?_, longest.candidate, fun j other there candidate => ?_,
    fun j earlier other there candidate => ?_⟩
  · rw [List.getElem?_append_left inside]
    exact longest.here
  · rcases getElem?_concat there with old | ⟨-, rfl⟩
    · exact longest.longest j other old candidate
    · exact shorter candidate
  · rw [List.getElem?_append_left (earlier.trans inside)] at there
    exact longest.first j earlier other there candidate

/-- A candidate that is longer than all before is the first of the longest. -/
theorem firstLongest_last (candidate : entry.Candidate)
    (longer : ∀ other ∈ seen, other.Candidate → other.partLength < entry.partLength) :
    FirstLongest (seen ++ [entry]) seen.length entry := by
  refine ⟨List.getElem?_concat_length, candidate, fun j other there isCandidate => ?_,
    fun j earlier other there isCandidate => ?_⟩
  · rcases getElem?_concat there with old | ⟨-, rfl⟩
    · exact (longer other (List.mem_of_getElem? old) isCandidate).le
    · exact Nat.le_refl _
  · rw [List.getElem?_append_left earlier] at there
    exact longer other (List.mem_of_getElem? there) isCandidate

end Concat

theorem FirstLongest.le_of_mem {table : List MemoryMapEntry} {k : Nat}
    {entry other : MemoryMapEntry} (longest : FirstLongest table k entry) (member : other ∈ table)
    (candidate : other.Candidate) : other.partLength ≤ entry.partLength := by
  obtain ⟨j, there⟩ := List.getElem?_of_mem member
  exact longest.longest j other there candidate

/-- The largest entry of a table is the first of the longest, and a table without one has no
candidate. -/
theorem largestEntry_firstLongest (table : List MemoryMapEntry) :
    (∀ entry, largestEntry table = some entry → ∃ k, FirstLongest table k entry) ∧
      (largestEntry table = none → ∀ entry ∈ table, ¬ entry.Candidate) := by
  induction table using List.reverseRecOn with
  | nil => exact ⟨fun entry chosen => (nomatch chosen), fun _ entry member => (nomatch member)⟩
  | append_singleton seen entry inductionHypothesis =>
    obtain ⟨chosenBefore, noneBefore⟩ := inductionHypothesis
    rw [largestEntry_concat]
    by_cases candidate : entry.Candidate
    · rw [if_pos candidate]
      cases before : largestEntry seen with
      | none =>
        refine ⟨fun chosen same => ⟨seen.length, ?_⟩, fun absurdity => (nomatch absurdity)⟩
        obtain rfl := Option.some.inj same
        exact firstLongest_last candidate fun other member isCandidate =>
          absurd isCandidate (noneBefore before other member)
      | some best =>
        obtain ⟨k, longest⟩ := chosenBefore best before
        simp only
        by_cases longer : best.partLength < entry.partLength
        · rw [if_pos longer]
          refine ⟨fun chosen same => ⟨seen.length, ?_⟩, fun absurdity => (nomatch absurdity)⟩
          obtain rfl := Option.some.inj same
          exact firstLongest_last candidate fun other member isCandidate =>
            (longest.le_of_mem member isCandidate).trans_lt longer
        · rw [if_neg longer]
          refine ⟨fun chosen same => ⟨k, ?_⟩, fun absurdity => (nomatch absurdity)⟩
          obtain rfl := Option.some.inj same
          exact longest.concat fun _ => Nat.le_of_not_lt longer
    · rw [if_neg candidate]
      constructor
      · intro best chosen
        obtain ⟨k, longest⟩ := chosenBefore best chosen
        exact ⟨k, longest.concat fun isCandidate => absurd isCandidate candidate⟩
      · intro nothing other member
        rw [List.mem_append, List.mem_singleton] at member
        rcases member with old | rfl
        · exact noneBefore nothing other old
        · exact candidate

/-! ### Sums that do not wrap -/

/-- The sum of two words, where it does not wrap. -/
def checkedAdd (first second : BitVec 64) : Option (BitVec 64) :=
  if first.toNat + second.toNat < 2 ^ 64 then some (first + second) else none

/-- The difference of two words, where it does not wrap. -/
def checkedSub (first second : BitVec 64) : Option (BitVec 64) :=
  if second.toNat ≤ first.toNat then some (first - second) else none

/-- The body of the parser's loop, with the sum in its message. -/
def considerEntryChecked (memoryStart : BitVec 64) (largest : LargestBlock)
    (entry : MemoryMapEntry) : Option LargestBlock :=
  if entry.base > 0x100000000#64 ∨ entry.length > 0x100000000#64 then some largest
  else if entry.type = 1#32 then
    if entry.base ≥ memoryStart then
      if entry.length > largest.size then
        -- The message names the end of the block.
        (checkedAdd entry.base entry.length).map fun _ => ⟨entry.length, entry.base⟩
      else some largest
    else
      (checkedAdd entry.base entry.length).bind fun blockEnd =>
        if blockEnd > memoryStart then
          (checkedSub blockEnd memoryStart).map fun usableLength =>
            if usableLength > largest.size then ⟨usableLength, memoryStart⟩ else largest
        else some largest
  else some largest

/-- `safe_parse_memory_map`, without a result where a 64-bit sum or difference wraps. -/
def safeParseMemoryMapChecked (ram : Memory) (memoryStart memoryEnd : BitVec 64) :
    Option (Int × BitVec 64) :=
  if entryCount ram > 100#16 then some (-1, memoryEnd)
  else if entryCount ram = 0#16 ∨ entryCount ram > 50#16 then some (-1, memoryEnd)
  else
    ((List.range (entryCount ram).toNat).foldlM
      (fun largest index => considerEntryChecked memoryStart largest (entryAt ram index))
      ⟨0#64, memoryStart⟩).bind fun largest =>
        if largest.size > 0#64 then
          (checkedAdd largest.base largest.size).map fun blockEnd =>
            if blockEnd > maxMemory then (0, maxMemory) else (0, blockEnd)
        else some (-1, memoryEnd)

/-- No sum and no difference in the loop wraps, whatever was found before. -/
theorem considerEntryChecked_eq (memoryStart : BitVec 64) (largest : LargestBlock)
    (entry : MemoryMapEntry) :
    considerEntryChecked memoryStart largest entry =
      some (considerEntry memoryStart largest entry) := by
  rw [considerEntryChecked, considerEntry]
  by_cases filtered : entry.base > 0x100000000#64 ∨ entry.length > 0x100000000#64
  · rw [if_pos filtered, if_pos filtered]
  rw [if_neg filtered, if_neg filtered]
  have sum : checkedAdd entry.base entry.length = some (entry.base + entry.length) := by
    simp only [not_or, gt_iff_lt, BitVec.lt_def, BitVec.toNat_ofNat] at filtered
    rw [checkedAdd, if_pos (by omega)]
  by_cases usable : entry.type = 1#32
  · rw [if_pos usable, if_pos usable, sum]
    by_cases above : entry.base ≥ memoryStart
    · rw [if_pos above, if_pos above, Option.map_some]
      split_ifs <;> rfl
    · rw [if_neg above, if_neg above, Option.bind_some]
      have below : entry.base < memoryStart := by
        rw [ge_iff_le, BitVec.le_def] at above
        rw [BitVec.lt_def]
        omega
      by_cases crosses : entry.base + entry.length > memoryStart
      · have difference : checkedSub (entry.base + entry.length) memoryStart =
            some (entry.base + entry.length - memoryStart) := by
          rw [gt_iff_lt, BitVec.lt_def] at crosses
          rw [checkedSub, if_pos crosses.le]
        rw [if_pos crosses, if_pos ⟨below, crosses⟩, difference, Option.map_some]
      · rw [if_neg crosses, if_neg fun both => crosses both.2]
  · rw [if_neg usable, if_neg usable]

/-- Nor does the sum of the block that is kept. -/
theorem checkedAdd_blockOf {table : List MemoryMapEntry} :
    checkedAdd (blockOf (largestEntry table)).base (blockOf (largestEntry table)).size =
      some ((blockOf (largestEntry table)).base + (blockOf (largestEntry table)).size) := by
  rw [checkedAdd, if_pos]
  cases chosen : largestEntry table with
  | none => decide
  | some entry =>
    have candidate := (largestEntry_candidate chosen).2
    have ending := part_end candidate
    obtain ⟨-, baseLe, lengthLe, -⟩ := candidate
    rw [blockOf, BitVec.toNat_ofNat, BitVec.toNat_ofNat]
    omega

/-- The parser's sums and differences are those of the numbers. -/
theorem safeParseMemoryMapChecked_eq (ram : Memory) (memoryEnd : BitVec 64) :
    safeParseMemoryMapChecked ram 0x100000#64 memoryEnd =
      some (safeParseMemoryMap ram 0x100000#64 memoryEnd) := by
  have loop : (List.range (entryCount ram).toNat).foldlM
      (fun largest index => considerEntryChecked 0x100000#64 largest (entryAt ram index))
      ⟨0#64, 0x100000#64⟩ = some (blockOf (largestEntry (entries ram))) := by
    have steps : (fun largest index =>
          considerEntryChecked 0x100000#64 largest (entryAt ram index)) =
        fun largest index =>
          (pure (considerEntry 0x100000#64 largest (entryAt ram index)) : Option LargestBlock) := by
      funext largest index
      exact considerEntryChecked_eq ..
    rw [steps, List.foldlM_pure, foldl_considerEntry]
    rfl
  have walked : (List.range (entryCount ram).toNat).foldl
      (fun largest index => considerEntry 0x100000#64 largest (entryAt ram index))
      ⟨0#64, 0x100000#64⟩ = blockOf (largestEntry (entries ram)) := foldl_considerEntry ram _
  rw [safeParseMemoryMapChecked, safeParseMemoryMap]
  by_cases huge : entryCount ram > 100#16
  · rw [if_pos huge, if_pos huge]
  rw [if_neg huge, if_neg huge]
  by_cases rejected : entryCount ram = 0#16 ∨ entryCount ram > 50#16
  · rw [if_pos rejected, if_pos rejected]
  rw [if_neg rejected, if_neg rejected, loop, Option.bind_some, checkedAdd_blockOf,
    Option.map_some]
  simp only [walked]
  split_ifs <;> rfl

/-! ### What the parser does -/

/-- The parser succeeds on a valid count with a candidate, and stores the capped end of the first
of the longest; otherwise it fails and stores nothing. No sum in it wraps. -/
structure PicksLargest (ram : Memory) (memoryEnd : BitVec 64) : Prop where
  accepts : (safeParseMemoryMap ram 0x100000#64 memoryEnd).1 = 0 ↔
    CountValid ram ∧ ∃ entry ∈ entries ram, entry.Candidate
  stores : (safeParseMemoryMap ram 0x100000#64 memoryEnd).1 = 0 →
    ∃ k entry, FirstLongest (entries ram) k entry ∧
      (safeParseMemoryMap ram 0x100000#64 memoryEnd).2.toNat =
        min (entry.base.toNat + entry.length.toNat) (2 ^ 32)
  fails : (safeParseMemoryMap ram 0x100000#64 memoryEnd).1 ≠ 0 →
    safeParseMemoryMap ram 0x100000#64 memoryEnd = (-1, memoryEnd)
  exact : safeParseMemoryMapChecked ram 0x100000#64 memoryEnd =
    some (safeParseMemoryMap ram 0x100000#64 memoryEnd)

/-- Whatever the table holds, the parser picks its largest block. -/
theorem safeParseMemoryMap_picks_largest (ram : Memory) (memoryEnd : BitVec 64) :
    PicksLargest ram memoryEnd := by
  obtain ⟨isFirst, isNone⟩ := largestEntry_firstLongest (entries ram)
  refine ⟨?_, fun success => ?_, fun failure => ?_, safeParseMemoryMapChecked_eq ram memoryEnd⟩
  · rw [safeParseMemoryMap_accepts_iff]
    refine and_congr_right fun _ => ⟨?_, ?_⟩
    · rintro ⟨entry, chosen⟩
      obtain ⟨member, candidate⟩ := largestEntry_candidate chosen
      exact ⟨entry, member, candidate⟩
    · rintro ⟨entry, member, candidate⟩
      cases chosen : largestEntry (entries ram) with
      | none => exact absurd candidate (isNone chosen entry member)
      | some best => exact ⟨best, rfl⟩
  · obtain ⟨valid, entry, chosen⟩ := (safeParseMemoryMap_accepts_iff ram memoryEnd).mp success
    obtain ⟨k, longest⟩ := isFirst entry chosen
    refine ⟨k, entry, longest, ?_⟩
    have bounds := cappedEnd_bounds longest.candidate
    rw [safeParseMemoryMap_of_largest ram memoryEnd valid chosen, BitVec.toNat_ofNat,
      Nat.mod_eq_of_lt (by omega), cappedEnd]
  · refine safeParseMemoryMap_of_none ram memoryEnd ?_
    by_contra both
    rw [not_or, not_not] at both
    obtain ⟨entry, chosen⟩ := Option.ne_none_iff_exists'.mp both.2
    exact failure ((safeParseMemoryMap_accepts_iff ram memoryEnd).mpr ⟨both.1, entry, chosen⟩)

end M12
