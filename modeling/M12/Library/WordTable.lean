/-
This file is a library for aligned 4 KB tables of 512 words in memory.

A table is a 4 KB-aligned address; its entry `i` is the 64-bit word `8 * i`
bytes further on. The facts reduce the byte-level picture to the table level:
two different aligned tables share no byte, so writing one entry changes that
entry and no other entry of any table, and what a table holds depends only on
the 4096 bytes of its page.
-/

import M12.Library.ByteMemory

namespace WordTable

open ByteMemory

/-- A table starts at a multiple of 4 KB. -/
def Aligned (table : BitVec 64) : Prop := table.toNat % 4096 = 0

instance (table : BitVec 64) : Decidable (Aligned table) :=
  inferInstanceAs (Decidable (table.toNat % 4096 = 0))

/-- Read entry `index` of a table. -/
def read (memory : Memory) (table : BitVec 64) (index : Nat) : BitVec 64 :=
  load 64 memory (table + BitVec.ofNat 64 (8 * index))

/-- Write entry `index` of a table. -/
def write (memory : Memory) (table : BitVec 64) (index : Nat) (value : BitVec 64) : Memory :=
  store memory (table + BitVec.ofNat 64 (8 * index)) value

/-- Write zero to the 512 entries of a table, lowest first. -/
def clear (memory : Memory) (table : BitVec 64) : Memory :=
  (List.range 512).foldl (fun memory index => write memory table index 0#64) memory

/-! ### Pages -/

theorem aligned_fits {table : BitVec 64} (aligned : Aligned table) :
    table.toNat + 4096 ≤ 2 ^ 64 := by
  have bound := table.isLt
  unfold Aligned at aligned
  omega

theorem within_page {table : BitVec 64} (aligned : Aligned table) (x : BitVec 64) :
    Within table 4096 x ↔ table.toNat ≤ x.toNat ∧ x.toNat < table.toNat + 4096 :=
  within_iff (aligned_fits aligned) x

/-- Two aligned tables with a common byte are the same table. -/
theorem eq_of_within {first second x : BitVec 64} (firstAligned : Aligned first)
    (secondAligned : Aligned second) (inFirst : Within first 4096 x)
    (inSecond : Within second 4096 x) : first = second := by
  rw [within_page firstAligned] at inFirst
  rw [within_page secondAligned] at inSecond
  unfold Aligned at firstAligned secondAligned
  exact BitVec.eq_of_toNat_eq (by omega)

theorem toNat_entry {table : BitVec 64} (aligned : Aligned table) {index offset : Nat}
    (inside : index < 512) (small : offset < 8) :
    (table + BitVec.ofNat 64 (8 * index) + BitVec.ofNat 64 offset).toNat =
      table.toNat + 8 * index + offset := by
  have fits := aligned_fits aligned
  rw [BitVec.toNat_add, BitVec.toNat_add, BitVec.toNat_ofNat, BitVec.toNat_ofNat]
  omega

/-- The bytes of an entry lie in the table's page. -/
theorem within_entry {table : BitVec 64} (aligned : Aligned table) {index offset : Nat}
    (inside : index < 512) (small : offset < 8) :
    Within table 4096 (table + BitVec.ofNat 64 (8 * index) + BitVec.ofNat 64 offset) := by
  rw [within_page aligned, toNat_entry aligned inside small]
  omega

/-! ### Reading -/

/-- A table's entries depend only on its page. -/
theorem read_congr {first second : Memory} {table : BitVec 64} (aligned : Aligned table)
    {index : Nat} (inside : index < 512)
    (same : ∀ x, Within table 4096 x → first x = second x) :
    read first table index = read second table index :=
  load_congr fun offset small => same _ (within_entry aligned inside (by omega))

/-- A zeroed page holds zero entries. -/
theorem read_of_zero {memory : Memory} {table : BitVec 64} (aligned : Aligned table) {index : Nat}
    (inside : index < 512) (zero : ∀ x, Within table 4096 x → memory x = 0#8) :
    read memory table index = 0#64 := by
  refine BitVec.eq_of_getLsbD_eq fun bit bound => ?_
  rw [read, getLsbD_load memory _ bound, zero _ (within_entry aligned inside (by omega)),
    BitVec.getLsbD_zero, BitVec.getLsbD_zero]

/-! ### Writing -/

/-- The distance from the start of an entry to an address inside it. -/
theorem within_of_close {table : BitVec 64} (aligned : Aligned table) {index : Nat}
    (inside : index < 512) {x : BitVec 64}
    (close : 8 * (x - (table + BitVec.ofNat 64 (8 * index))).toNat < 64) :
    table.toNat + 8 * index ≤ x.toNat ∧ x.toNat < table.toNat + 8 * index + 8 := by
  have fits := aligned_fits aligned
  have start := toNat_entry aligned inside (show 0 < 8 by decide)
  rw [show BitVec.ofNat 64 0 = 0#64 from rfl, BitVec.add_zero] at start
  have near : Within (table + BitVec.ofNat 64 (8 * index)) 8 x := by
    unfold Within
    omega
  rw [within_iff (by omega), start] at near
  omega

/-- A write stays inside the table's page. -/
theorem write_of_not_within (memory : Memory) {table x : BitVec 64} (aligned : Aligned table)
    {index : Nat} (inside : index < 512) (value : BitVec 64) (outside : ¬ Within table 4096 x) :
    write memory table index value x = memory x := by
  refine store_of_not_within memory value fun close => outside ?_
  have near := within_of_close aligned inside close
  rw [within_page aligned]
  omega

theorem read_write_self (memory : Memory) (table : BitVec 64) (index : Nat) (value : BitVec 64) :
    read (write memory table index value) table index = value :=
  load_store_self memory _ value (by decide)

/-- Writing one entry leaves every other entry of every table. -/
theorem read_write_other (memory : Memory) {table other : BitVec 64} (aligned : Aligned table)
    (otherAligned : Aligned other) {index otherIndex : Nat} (inside : index < 512)
    (otherInside : otherIndex < 512) (value : BitVec 64)
    (different : ¬ (other = table ∧ otherIndex = index)) :
    read (write memory table index value) other otherIndex = read memory other otherIndex := by
  refine load_store_of_disjoint memory value fun offset small close => different ?_
  have near := within_of_close aligned inside close
  rw [toNat_entry otherAligned otherInside (by omega)] at near
  unfold Aligned at aligned otherAligned
  have same : other = table := BitVec.eq_of_toNat_eq (by omega)
  subst same
  exact ⟨rfl, by omega⟩

/-! ### Clearing -/

/-- Writing zero to the first `count` entries of a table zeroes that part of its page. -/
theorem foldl_write_zero (memory : Memory) {table : BitVec 64} (aligned : Aligned table)
    {count : Nat} (bound : count ≤ 512) (x : BitVec 64) :
    (List.range count).foldl (fun memory index => write memory table index 0#64) memory x =
      if Within table (8 * count) x then 0#8 else memory x := by
  induction count with
  | zero =>
    have empty : ¬ Within table (8 * 0) x := Nat.not_lt_zero _
    rw [List.range_zero, List.foldl_nil, if_neg empty]
  | succ count inductionHypothesis =>
    have fits := aligned_fits aligned
    have start := toNat_entry aligned (show count < 512 by omega) (show 0 < 8 by decide)
    rw [show BitVec.ofNat 64 0 = 0#64 from rfl, BitVec.add_zero] at start
    rw [List.range_succ, List.foldl_append, List.foldl_cons, List.foldl_nil, write, store]
    split_ifs with close within within
    · exact BitVec.eq_of_getLsbD_eq fun bit small => by
        rw [BitVec.getLsbD_extractLsb', BitVec.getLsbD_zero, BitVec.getLsbD_zero, Bool.and_false]
    · refine absurd ?_ within
      have near := within_of_close aligned (by omega) close
      rw [within_iff (by omega)]
      omega
    · rw [inductionHypothesis (by omega), if_pos]
      rw [within_iff (by omega)] at within ⊢
      refine ⟨within.1, ?_⟩
      by_contra far
      refine close ?_
      have near : Within (table + BitVec.ofNat 64 (8 * count)) 8 x := by
        rw [within_iff (by omega), start]
        omega
      unfold Within at near
      omega
    · rw [inductionHypothesis (by omega), if_neg]
      intro inner
      exact within (lt_of_lt_of_le inner (by omega))

/-- Clearing a table zeroes its page and nothing else. -/
theorem clear_apply (memory : Memory) {table : BitVec 64} (aligned : Aligned table)
    (x : BitVec 64) :
    clear memory table x = if Within table 4096 x then 0#8 else memory x :=
  foldl_write_zero memory aligned le_rfl x

theorem clear_of_within (memory : Memory) {table : BitVec 64} (aligned : Aligned table)
    {x : BitVec 64} (inside : Within table 4096 x) : clear memory table x = 0#8 := by
  rw [clear_apply memory aligned, if_pos inside]

theorem clear_of_not_within (memory : Memory) {table : BitVec 64} (aligned : Aligned table)
    {x : BitVec 64} (outside : ¬ Within table 4096 x) : clear memory table x = memory x := by
  rw [clear_apply memory aligned, if_neg outside]

/- `clear` is 512 writes: what it does is the three lemmas above, and its definition is never
unfolded again. -/
attribute [irreducible] clear

end WordTable
