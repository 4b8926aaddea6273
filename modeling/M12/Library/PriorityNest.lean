/-
This file is a library for interrupts that are served by priority.

A lower level is more urgent. A level is entered only while it is more urgent than
every level in service, and the level that is left is the most urgent one. So the
levels in service are always a nest: the one entered last is the least of them,
and leaving takes away exactly what was entered last. The order is part of the
structure, so a nest out of order cannot be built.

A register of bits holds such a nest as a set, without the order: bit `i` says that
level `i` is in service. The order comes back because the lowest set bit is the
level entered last.
-/

import Mathlib

/-- Levels in service, the one entered last first; each was more urgent than all before it. -/
structure PriorityNest (α : Type) [LinearOrder α] where
  active : List α
  urgent : active.Pairwise (· < ·)

namespace PriorityNest

variable {α : Type} [LinearOrder α]

/-- Nothing is in service. -/
def idle : PriorityNest α := ⟨[], List.Pairwise.nil⟩

/-- The levels in service, as a set. -/
def levels (nest : PriorityNest α) : Finset α := nest.active.toFinset

/-- The level is more urgent than every level in service. -/
def Admits (nest : PriorityNest α) (level : α) : Prop := ∀ other ∈ nest.active, level < other

/-- A level is entered. -/
def enter (nest : PriorityNest α) (level : α) (admits : nest.Admits level) : PriorityNest α :=
  ⟨level :: nest.active, List.pairwise_cons.mpr ⟨admits, nest.urgent⟩⟩

/-- The level entered last is left. -/
def leave (nest : PriorityNest α) : PriorityNest α := ⟨nest.active.tail, nest.urgent.tail⟩

theorem mem_levels {nest : PriorityNest α} {level : α} :
    level ∈ nest.levels ↔ level ∈ nest.active := List.mem_toFinset

theorem levels_enter (nest : PriorityNest α) (level : α) (admits : nest.Admits level) :
    (nest.enter level admits).levels = insert level nest.levels := List.toFinset_cons

/-- No level is in service twice. -/
theorem nodup (nest : PriorityNest α) : nest.active.Nodup :=
  nest.urgent.imp fun urgent => urgent.ne

/-- The level entered last is the most urgent one in service. -/
theorem isLeast_head {nest : PriorityNest α} {level : α} {rest : List α}
    (top : nest.active = level :: rest) : IsLeast (nest.levels : Set α) level := by
  have urgent := nest.urgent
  rw [top, List.pairwise_cons] at urgent
  refine ⟨mem_levels.mpr (top ▸ List.mem_cons_self), fun other member => ?_⟩
  rw [Finset.mem_coe, mem_levels, top, List.mem_cons] at member
  rcases member with rfl | member
  · exact le_rfl
  · exact (urgent.1 other member).le

/-- Leaving takes away the most urgent level and no other. -/
theorem levels_leave {nest : PriorityNest α} {level : α}
    (least : IsLeast (nest.levels : Set α) level) :
    nest.leave.levels = nest.levels.erase level := by
  cases top : nest.active with
  | nil =>
    have member := least.1
    rw [Finset.mem_coe, mem_levels, top] at member
    exact absurd member List.not_mem_nil
  | cons first rest =>
    have distinct := nest.nodup
    rw [top, List.nodup_cons] at distinct
    show nest.active.tail.toFinset = nest.active.toFinset.erase level
    rw [least.unique (isLeast_head top), top, List.tail_cons, List.toFinset_cons,
      Finset.erase_insert fun member => distinct.1 (List.mem_toFinset.mp member)]

end PriorityNest

namespace LevelRegister

variable {width : Nat}

/-- The levels whose bits are set. -/
def levels (register : BitVec width) : Finset (Fin width) :=
  Finset.univ.filter fun level => register.getLsbD level.val = true

/-- The bit of a level is set. -/
def withLevel (register : BitVec width) (level : Fin width) : BitVec width :=
  register ||| BitVec.twoPow width level.val

/-- The bit of a level is cleared. -/
def withoutLevel (register : BitVec width) (level : Fin width) : BitVec width :=
  register &&& ~~~BitVec.twoPow width level.val

/-- The level of the lowest bit that is set. -/
def mostUrgent (register : BitVec width) : Option (Fin width) :=
  (List.finRange width).find? fun level => register.getLsbD level.val

/-- The lowest bit that is set is cleared. -/
def retire (register : BitVec width) : BitVec width :=
  match mostUrgent register with
  | none => register
  | some level => withoutLevel register level

theorem mem_levels {register : BitVec width} {level : Fin width} :
    level ∈ levels register ↔ register.getLsbD level.val = true := by
  rw [levels, Finset.mem_filter, and_iff_right (Finset.mem_univ level)]

theorem levels_zero : levels (0 : BitVec width) = ∅ := by
  ext level
  simp [mem_levels]

/-- A register is determined by its levels. -/
theorem eq_of_levels {first second : BitVec width} (same : levels first = levels second) :
    first = second := by
  refine BitVec.eq_of_getLsbD_eq fun i inside => ?_
  rw [Bool.eq_iff_iff]
  have member := congrArg (fun set => (⟨i, inside⟩ : Fin width) ∈ set) same
  simp only [mem_levels] at member
  exact iff_of_eq member

theorem levels_withLevel (register : BitVec width) (level : Fin width) :
    levels (withLevel register level) = insert level (levels register) := by
  ext other
  rw [mem_levels, Finset.mem_insert, mem_levels, withLevel, BitVec.getLsbD_or,
    BitVec.getLsbD_twoPow, Fin.ext_iff]
  simp only [Bool.or_eq_true, Bool.and_eq_true, decide_eq_true_eq, level.isLt, true_and]
  rw [or_comm, eq_comm]

theorem levels_withoutLevel (register : BitVec width) (level : Fin width) :
    levels (withoutLevel register level) = (levels register).erase level := by
  ext other
  rw [mem_levels, Finset.mem_erase, mem_levels, withoutLevel, BitVec.getLsbD_and,
    BitVec.getLsbD_not, BitVec.getLsbD_twoPow, Ne, Fin.ext_iff]
  simp only [Bool.and_eq_true, level.isLt, other.isLt, decide_true, Bool.true_and,
    Bool.not_eq_true', decide_eq_false_iff_not]
  rw [and_comm, eq_comm]

theorem isLeast_of_mostUrgent {register : BitVec width} {level : Fin width}
    (found : mostUrgent register = some level) :
    IsLeast (levels register : Set (Fin width)) level := by
  obtain ⟨here, i, inside, place, first⟩ := List.find?_eq_some_iff_getElem.mp found
  rw [List.getElem_finRange] at place
  have index : i = level.val := congrArg Fin.val place
  refine ⟨mem_levels.mpr here, fun other member => not_lt.mp fun before => ?_⟩
  have clear := first other.val (index ▸ before)
  rw [List.getElem_finRange] at clear
  rw [Finset.mem_coe, mem_levels] at member
  have contradiction : (!register.getLsbD other.val) = true := clear
  rw [member] at contradiction
  exact Bool.noConfusion contradiction

theorem mostUrgent_eq_none_iff (register : BitVec width) :
    mostUrgent register = none ↔ levels register = ∅ := by
  rw [mostUrgent, List.find?_eq_none, Finset.eq_empty_iff_forall_notMem]
  simp only [List.mem_finRange, mem_levels, forall_true_left]

/-- A register that holds a nest has the level entered last as its lowest bit. -/
theorem mostUrgent_of_nest {register : BitVec width} {nest : PriorityNest (Fin width)}
    (holds : levels register = nest.levels) : mostUrgent register = nest.active.head? := by
  cases found : mostUrgent register with
  | none =>
    rw [mostUrgent_eq_none_iff, holds, PriorityNest.levels, List.toFinset_eq_empty_iff] at found
    rw [found]
    rfl
  | some level =>
    have least := isLeast_of_mostUrgent found
    rw [holds] at least
    cases top : nest.active with
    | nil =>
      have member := least.1
      rw [Finset.mem_coe, PriorityNest.mem_levels, top] at member
      exact absurd member List.not_mem_nil
    | cons first rest =>
      rw [least.unique (PriorityNest.isLeast_head top)]
      rfl

/-- Clearing the lowest bit leaves the level entered last. -/
theorem levels_retire {register : BitVec width} {nest : PriorityNest (Fin width)}
    (holds : levels register = nest.levels) : levels (retire register) = nest.leave.levels := by
  cases found : mostUrgent register with
  | none =>
    have empty := (mostUrgent_eq_none_iff register).mp found
    have none : nest.active = [] := by
      rwa [holds, PriorityNest.levels, List.toFinset_eq_empty_iff] at empty
    rw [retire, found, empty]
    show ∅ = nest.active.tail.toFinset
    rw [none]
    rfl
  | some level =>
    have least := isLeast_of_mostUrgent found
    rw [holds] at least
    rw [retire, found]
    show levels (withoutLevel register level) = nest.leave.levels
    rw [levels_withoutLevel, holds, PriorityNest.levels_leave least]

end LevelRegister
