/-
This file proves that the scheduler is fair.

The slot `schedule` switches to is the ready slot next in the ring, the search of
the whole ring being a search for the successor of the current slot among the ready
ones. A switch changes no state, so calls in a row search the same set, and the
current slot goes round it.
-/

import M12.ProcessCount

namespace M12

namespace Roster

/-- The slots whose process is ready. -/
def readySlots (r : Roster) : Finset Slot := Finset.univ.filter fun slot => r.states slot = .ready

theorem mem_readySlots (r : Roster) (slot : Slot) :
    slot ∈ r.readySlots ↔ r.states slot = .ready := by
  rw [readySlots, Finset.mem_filter]
  exact and_iff_right (Finset.mem_univ slot)

/-- A switch goes to the next ready slot. -/
theorem nextSlot_eq (r : Roster) (current : Slot) :
    r.nextSlot current = CyclicSearch.successor r.readySlots current :=
  CyclicSearch.search_congr (r.Eligible current)
    (fun slot => and_congr_left' (r.mem_readySlots slot).symm) (current + 1) 64

end Roster

/-! ### One call -/

theorem schedule_state (s : KernelState) (savedRsp : BitVec 64) (slot : Slot) :
    ((schedule s savedRsp).processes slot).state = (s.processes slot).state := by
  rw [← roster_states, roster_schedule, Roster.schedule_states, roster_states]

theorem schedule_processCount (s : KernelState) (savedRsp : BitVec 64) :
    (schedule s savedRsp).processCount = s.processCount := by
  rw [← roster_count, roster_schedule, Roster.schedule_count, roster_count]

theorem schedule_readySlots (s : KernelState) (savedRsp : BitVec 64) :
    (schedule s savedRsp).roster.readySlots = s.roster.readySlots := by
  rw [roster_schedule, Roster.readySlots, Roster.schedule_states, Roster.readySlots]

/-- With two processes the scheduler makes the next ready slot current, if there is one. -/
theorem current_schedule {s : KernelState} (many : 1#32 < s.processCount) {old : Slot}
    (current : s.current = some old) (savedRsp : BitVec 64) :
    (schedule s savedRsp).current =
      (CyclicSearch.successor s.roster.readySlots old).or (some old) := by
  have few : ¬ s.roster.count ≤ 1#32 := BitVec.not_le.mpr many
  rw [← Roster.nextSlot_eq, ← roster_current, roster_schedule, Roster.schedule, if_neg few,
    roster_current, current]
  cases found : s.roster.nextSlot old with
  | none =>
    simp only [found]
    exact current
  | some next => simp only [found, Option.some_or]

/-- A call switches to the nearest ready slot ahead and changes no state. -/
structure SwitchesToNearest (s next : KernelState) (old : Slot) : Prop where
  states : ∀ slot, (next.processes slot).state = (s.processes slot).state
  nearest : (∃ slot, (s.processes slot).state = .ready ∧ slot ≠ old) →
    ∃ chosen, next.current = some chosen ∧ (s.processes chosen).state = .ready ∧ chosen ≠ old ∧
      ∀ slot, (s.processes slot).state = .ready → slot ≠ old →
        CyclicSearch.distance old chosen ≤ CyclicSearch.distance old slot
  stays : next.current = s.current ↔ ¬ ∃ slot, (s.processes slot).state = .ready ∧ slot ≠ old

theorem switchesToNearest_schedule {s : KernelState} (many : 1#32 < s.processCount) {old : Slot}
    (current : s.current = some old) (savedRsp : BitVec 64) :
    SwitchesToNearest s (schedule s savedRsp) old := by
  have switched := current_schedule many current savedRsp
  have ready := fun slot => s.roster.mem_readySlots slot
  cases found : CyclicSearch.successor s.roster.readySlots old with
  | none =>
    have alone : ¬ ∃ slot, (s.processes slot).state = .ready ∧ slot ≠ old := by
      rintro ⟨slot, readySlot, different⟩
      exact (CyclicSearch.search_all_eq_none _).mp found slot
        ⟨(ready slot).mpr readySlot, different⟩
    rw [found, Option.none_or] at switched
    exact ⟨schedule_state s savedRsp, fun other => absurd other alone,
      iff_of_true (switched.trans current.symm) alone⟩
  | some next =>
    obtain ⟨member, different, nearest⟩ := CyclicSearch.successor_some found
    rw [found, Option.some_or] at switched
    refine ⟨schedule_state s savedRsp, fun _ => ⟨next, switched, (ready next).mp member, different,
      fun slot readySlot => nearest slot ((ready slot).mpr readySlot)⟩, iff_of_false ?_ ?_⟩
    · rw [switched, current]
      exact fun same => different (Option.some.inj same)
    · exact not_not.mpr ⟨next, (ready next).mp member, different⟩

/-! ### Calls in a row -/

/-- The state after `k` calls of `schedule`, each with the stack pointer it finds. -/
def scheduled (s : KernelState) (savedRsp : Nat → BitVec 64) : Nat → KernelState
  | 0 => s
  | k + 1 => schedule (scheduled s savedRsp k) (savedRsp k)

theorem scheduled_readySlots (s : KernelState) (savedRsp : Nat → BitVec 64) (k : Nat) :
    (scheduled s savedRsp k).roster.readySlots = s.roster.readySlots := by
  induction k with
  | zero => rfl
  | succ k inductionHypothesis => rw [scheduled, schedule_readySlots, inductionHypothesis]

theorem scheduled_processCount (s : KernelState) (savedRsp : Nat → BitVec 64) (k : Nat) :
    (scheduled s savedRsp k).processCount = s.processCount := by
  induction k with
  | zero => rfl
  | succ k inductionHypothesis => rw [scheduled, schedule_processCount, inductionHypothesis]

/-- Among two ready slots there is always a next one. -/
theorem exists_successor {members : Finset Slot} (many : 2 ≤ members.card) (slot : Slot) :
    ∃ next, CyclicSearch.successor members slot = some next := by
  obtain ⟨other, member, different⟩ := Finset.exists_mem_ne many slot
  cases found : CyclicSearch.successor members slot with
  | none => exact absurd ⟨member, different⟩ ((CyclicSearch.search_all_eq_none _).mp found other)
  | some next => exact ⟨next, rfl⟩

/-- With two processes and two ready slots every call makes the next ready slot current. -/
theorem scheduled_current {s : KernelState} (many : 1#32 < s.processCount) {old : Slot}
    (current : s.current = some old) (two : 2 ≤ s.roster.readySlots.card)
    (savedRsp : Nat → BitVec 64) :
    ∃ visit : Nat → Slot, visit 0 = old ∧
      (∀ k, (scheduled s savedRsp k).current = some (visit k)) ∧
      ∀ k, CyclicSearch.successor s.roster.readySlots (visit k) = some (visit (k + 1)) := by
  have step : ∀ k slot, (scheduled s savedRsp k).current = some slot →
      (scheduled s savedRsp (k + 1)).current =
        CyclicSearch.successor s.roster.readySlots slot := by
    intro k slot here
    obtain ⟨next, found⟩ := exists_successor two slot
    have enough : 1#32 < (scheduled s savedRsp k).processCount := by
      rw [scheduled_processCount]
      exact many
    rw [scheduled, current_schedule enough here, scheduled_readySlots, found, Option.some_or]
  have running : ∀ k, ∃ slot, (scheduled s savedRsp k).current = some slot := by
    intro k
    induction k with
    | zero => exact ⟨old, current⟩
    | succ k inductionHypothesis =>
      obtain ⟨slot, here⟩ := inductionHypothesis
      obtain ⟨next, found⟩ := exists_successor two slot
      exact ⟨next, (step k slot here).trans found⟩
  choose visit visits using running
  refine ⟨visit, Option.some.inj ((visits 0).symm.trans current), visits, fun k => ?_⟩
  rw [← step k (visit k) (visits k), visits (k + 1)]

/-- Round robin is fair. With two processes, a call switches to the ready slot nearest ahead of
the current one; and from a ready slot, as many calls as there are ready slots make each of them
current once and come back. -/
theorem schedule_is_fair (s : KernelState) (many : 1#32 < s.processCount) (old : Slot)
    (current : s.current = some old) :
    (∀ savedRsp, SwitchesToNearest s (schedule s savedRsp) old) ∧
    ∀ savedRsp : Nat → BitVec 64, (s.processes old).state = .ready →
      2 ≤ s.roster.readySlots.card →
      (∀ slot, (s.processes slot).state = .ready → ∃! k, k < s.roster.readySlots.card ∧
        (scheduled s savedRsp (k + 1)).current = some slot) ∧
      (scheduled s savedRsp s.roster.readySlots.card).current = some old := by
  refine ⟨switchesToNearest_schedule many current, fun savedRsp ready two => ?_⟩
  obtain ⟨visit, rfl, visits, steps⟩ := scheduled_current many current two savedRsp
  have member := (s.roster.mem_readySlots (visit 0)).mpr ready
  constructor
  · intro slot readySlot
    simp only [visits, Option.some_inj]
    exact CyclicSearch.visits_once member (fun k _ => steps k)
      ((s.roster.mem_readySlots slot).mpr readySlot)
  · rw [visits, CyclicSearch.visits_return member fun k _ => steps k]

/-- Three ready processes, the last of them current. -/
def threeReady : KernelState :=
  { blankKernel with
    processes := fun slot => { blankKernel.processes slot with
      state := if slot.val < 3 then .ready else .unused }
    current := some 2
    processCount := 3#32 }

/-- From the last of three ready processes, three calls come back to it. -/
theorem schedule_is_fair_threeReady :
    (scheduled threeReady (fun _ => 0#64) 3).current = some 2 := by
  have three : threeReady.roster.readySlots.card = 3 := by decide +kernel
  have fair := (schedule_is_fair threeReady (by decide) 2 rfl).2 (fun _ => 0#64) (by decide)
    (three.symm ▸ by decide)
  rw [three] at fair
  exact fair.2

end M12
