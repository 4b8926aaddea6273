/-
This file is a library for a pool of indices handed out lowest first.

A pool is a bound and a finite set of free indices below it; the bound is part
of the structure, so a pool with a free index out of range cannot be built.
Taking hands out the least free index, or nothing from an exhausted pool.
Giving back puts an index below the bound into the free set; giving back an
index that is out of range or already free changes nothing. The indices in use
are those below the bound that are not free.
-/

import Mathlib

/-- A bound and the free indices below it. -/
@[ext] structure IndexPool where
  total : Nat
  free : Finset Nat
  bounded : free ⊆ Finset.range total

namespace IndexPool

/-- Hand out the least free index. -/
def take (pool : IndexPool) : IndexPool × Option Nat :=
  if available : pool.free.Nonempty then
    ({ total := pool.total
       free := pool.free.erase (pool.free.min' available)
       bounded := (Finset.erase_subset _ _).trans pool.bounded },
      some (pool.free.min' available))
  else (pool, none)

/-- Give an index back. -/
def give (pool : IndexPool) (index : Nat) : IndexPool :=
  if inside : index < pool.total then
    { total := pool.total
      free := insert index pool.free
      bounded := Finset.insert_subset (Finset.mem_range.mpr inside) pool.bounded }
  else pool

/-- How many indices are in use. -/
def used (pool : IndexPool) : Nat := pool.total - pool.free.card

theorem lt_total {pool : IndexPool} {index : Nat} (member : index ∈ pool.free) :
    index < pool.total :=
  Finset.mem_range.mp (pool.bounded member)

theorem card_free_le (pool : IndexPool) : pool.free.card ≤ pool.total := by
  have inside := Finset.card_le_card pool.bounded
  rwa [Finset.card_range] at inside

/-- The used indices and the free ones add up to the bound. -/
theorem used_add_card_free (pool : IndexPool) : pool.used + pool.free.card = pool.total :=
  Nat.sub_add_cancel pool.card_free_le

/-- The used indices are the indices below the bound outside the free set. -/
theorem used_eq_card (pool : IndexPool) :
    pool.used = (Finset.range pool.total \ pool.free).card := by
  rw [Finset.card_sdiff_of_subset pool.bounded, Finset.card_range, used]

/-! ### Taking -/

/-- Taking from a pool whose least free index is known. -/
theorem take_of_isLeast {pool : IndexPool} {index : Nat}
    (least : IsLeast (pool.free : Set Nat) index) :
    pool.take =
      ({ total := pool.total
         free := pool.free.erase index
         bounded := (Finset.erase_subset _ _).trans pool.bounded }, some index) := by
  have available : pool.free.Nonempty := ⟨index, least.1⟩
  have minimum : pool.free.min' available = index :=
    (pool.free.isLeast_min' available).unique least
  simp only [take, dif_pos available, minimum]

theorem take_of_empty {pool : IndexPool} (exhausted : pool.free = ∅) :
    pool.take = (pool, none) := by
  rw [take, dif_neg (by rw [exhausted]; exact Finset.not_nonempty_empty)]

/-! ### Giving back -/

theorem total_give (pool : IndexPool) (index : Nat) : (pool.give index).total = pool.total := by
  unfold give
  split_ifs <;> rfl

theorem give_of_lt {pool : IndexPool} {index : Nat} (inside : index < pool.total) :
    (pool.give index).free = insert index pool.free := by
  rw [give, dif_pos inside]

/-- Giving back an index that is not in use changes nothing. -/
theorem give_of_not_used {pool : IndexPool} {index : Nat}
    (idle : ¬ (index < pool.total ∧ index ∉ pool.free)) : pool.give index = pool := by
  unfold give
  split_ifs with inside
  · have member : index ∈ pool.free := by
      by_contra outside
      exact idle ⟨inside, outside⟩
    refine IndexPool.ext rfl ?_
    exact Finset.insert_eq_of_mem member
  · rfl

/-- The order in which two indices are given back does not matter. -/
theorem give_comm (pool : IndexPool) (first second : Nat) :
    (pool.give first).give second = (pool.give second).give first := by
  refine IndexPool.ext (by simp only [total_give]) ?_
  by_cases one : first < pool.total
  · by_cases other : second < pool.total
    · rw [give_of_lt ((total_give pool first).symm ▸ other), give_of_lt one,
        give_of_lt ((total_give pool second).symm ▸ one), give_of_lt other, Finset.insert_comm]
    · rw [@give_of_not_used pool _ fun used => other used.1,
        give_of_not_used fun used => other (total_give pool first ▸ used.1)]
  · rw [@give_of_not_used pool _ fun used => one used.1,
      give_of_not_used fun used => one (total_give pool second ▸ used.1)]

/-! ### Counting -/

/-- Clearing one free index uses one more. -/
theorem used_of_erase (pool after : IndexPool) {index : Nat} (total : after.total = pool.total)
    (free : after.free = pool.free.erase index) (member : index ∈ pool.free) :
    after.used = pool.used + 1 := by
  have before := pool.used_add_card_free
  have later := after.used_add_card_free
  rw [free, Finset.card_erase_of_mem member, total] at later
  have positive : 0 < pool.free.card := Finset.card_pos.mpr ⟨index, member⟩
  omega

/-- Freeing one used index uses one less. -/
theorem used_of_insert (pool after : IndexPool) {index : Nat} (total : after.total = pool.total)
    (free : after.free = insert index pool.free) (outside : index ∉ pool.free) :
    after.used + 1 = pool.used := by
  have before := pool.used_add_card_free
  have later := after.used_add_card_free
  rw [free, Finset.card_insert_of_notMem outside, total] at later
  omega

end IndexPool
