/-
This file settles what `process_count` counts.

The counter is meant to be the number of live processes, those that are ready,
running or blocked. A call keeps it so unless it creates a process without the
two pages its stacks need, which leaves a live slot uncounted, or it is an exit of
a process that has exited before, which takes one away again. A run in which
neither happens counts correctly in every state, and the first call of either
kind spoils the count.
-/

import M12.Roster
import M12.IdentityMap

namespace M12

/-! ### Live slots -/

/-- A process in this state is live. -/
def ProcessState.live : ProcessState → Bool
  | .unused => false
  | .running => true
  | .ready => true
  | .blocked => true
  | .zombie => false

/-- The slots whose process is live. -/
def liveSlots (states : Slot → ProcessState) : Finset Slot :=
  Finset.univ.filter fun slot => (states slot).live = true

theorem mem_liveSlots (states : Slot → ProcessState) (slot : Slot) :
    slot ∈ liveSlots states ↔ (states slot).live = true := by
  rw [liveSlots, Finset.mem_filter]
  exact and_iff_right (Finset.mem_univ slot)

theorem liveSlots_update_of_live (states : Slot → ProcessState) (slot : Slot)
    {state : ProcessState} (live : state.live = true) :
    liveSlots (Function.update states slot state) = insert slot (liveSlots states) := by
  ext other
  rw [mem_liveSlots, Finset.mem_insert, mem_liveSlots]
  by_cases same : other = slot
  · rw [same, Function.update_self]
    exact iff_of_true live (Or.inl rfl)
  · rw [Function.update_of_ne same]
    exact (or_iff_right same).symm

theorem liveSlots_update_of_dead (states : Slot → ProcessState) (slot : Slot)
    {state : ProcessState} (dead : state.live = false) :
    liveSlots (Function.update states slot state) = (liveSlots states).erase slot := by
  ext other
  rw [mem_liveSlots, Finset.mem_erase, mem_liveSlots]
  by_cases same : other = slot
  · rw [same, Function.update_self, dead]
    exact iff_of_false Bool.false_ne_true fun held => held.1 rfl
  · rw [Function.update_of_ne same]
    exact (and_iff_right same).symm

theorem card_liveSlots_le (states : Slot → ProcessState) : (liveSlots states).card ≤ 64 :=
  (Finset.card_le_univ _).trans_eq (Fintype.card_fin 64)

/-! ### Counting rosters -/

namespace Roster

/-- The counter is the number of live slots. -/
def Counts (r : Roster) : Prop := r.count.toNat = (liveSlots r.states).card

instance (r : Roster) : Decidable r.Counts := inferInstanceAs (Decidable (_ = _))

/-- There is a current process, and its slot is in use. -/
def Occupied (r : Roster) : Prop := ∃ slot, r.current = some slot ∧ r.states slot ≠ .unused

/-- The calls that keep the counter right. -/
def CountedCall (r : Roster) (enough : Bool) : ProcessCall → Prop
  | .create _ => (∃ slot, r.states slot = .unused) → enough = true
  | .fork => (∃ slot, r.states slot = .unused) → enough = true
  | .exit _ _ => ∀ slot, r.current = some slot → r.states slot ≠ .zombie
  | _ => True

theorem unusedSlot_some {r : Roster} {slot : Slot} (found : r.unusedSlot = some slot) :
    r.states slot = .unused := by
  have held := List.find?_some found
  exact of_decide_eq_true held

theorem unusedSlot_none {r : Roster} (full : r.unusedSlot = none) (slot : Slot) :
    r.states slot ≠ .unused := fun unused =>
  List.find?_eq_none.mp full slot (List.mem_finRange slot) (decide_eq_true unused)

theorem counts_schedule (r : Roster) : r.schedule.Counts ↔ r.Counts := by
  rw [Counts, schedule_states, schedule_count]
  rfl

theorem counts_create {r : Roster} (counts : r.Counts) (enough : Bool) :
    (r.create enough).Counts ↔ ((∃ slot, r.states slot = .unused) → enough = true) := by
  rw [create]
  cases found : r.unusedSlot with
  | none =>
    refine iff_of_true counts ?_
    rintro ⟨slot, unused⟩
    exact absurd unused (unusedSlot_none found slot)
  | some slot =>
    have unused := unusedSlot_some found
    have fresh : slot ∉ liveSlots r.states := by
      rw [mem_liveSlots, unused]
      exact Bool.false_ne_true
    have small := card_liveSlots_le r.states
    rw [Counts] at counts
    rw [Counts, liveSlots_update_of_live _ _ rfl, Finset.card_insert_of_notMem fresh, ← counts]
    rw [← counts] at small
    cases enough with
    | false =>
      refine iff_of_false (Nat.ne_of_lt (Nat.lt_succ_self _)) fun needed => ?_
      exact Bool.false_ne_true (needed ⟨slot, unused⟩)
    | true =>
      refine iff_of_true ?_ fun _ => rfl
      rw [if_pos rfl, BitVec.toNat_add, BitVec.toNat_ofNat]
      omega

theorem counts_exit {r : Roster} (counts : r.Counts) (occupied : r.Occupied) :
    r.markExited.Counts ↔ ∀ slot, r.current = some slot → r.states slot ≠ .zombie := by
  obtain ⟨current, running, used⟩ := occupied
  have only : (∀ slot, r.current = some slot → r.states slot ≠ .zombie) ↔
      r.states current ≠ .zombie := by
    rw [running]
    refine ⟨fun all => all current rfl, fun alive slot same => ?_⟩
    rwa [← Option.some.inj same]
  have small := card_liveSlots_le r.states
  rw [Counts] at counts
  rw [only, markExited, running]
  simp only [Counts]
  rw [liveSlots_update_of_dead _ _ rfl, BitVec.toNat_sub, BitVec.toNat_ofNat]
  by_cases zombie : r.states current = .zombie
  · have dead : current ∉ liveSlots r.states := by
      rw [mem_liveSlots, zombie]
      exact Bool.false_ne_true
    rw [Finset.erase_eq_of_notMem dead]
    refine iff_of_false ?_ (not_not.mpr zombie)
    omega
  · have live : current ∈ liveSlots r.states := by
      rw [mem_liveSlots]
      cases state : r.states current with
      | unused => exact absurd state used
      | zombie => exact absurd state zombie
      | running => rfl
      | ready => rfl
      | blocked => rfl
    have positive := Finset.card_pos.mpr ⟨current, live⟩
    rw [Finset.card_erase_of_mem live]
    refine iff_of_true ?_ zombie
    omega

/-- One call keeps the counter right exactly when it is one of those that should. -/
theorem counts_step {r : Roster} (counts : r.Counts) (occupied : r.Occupied) (enough : Bool)
    (call : ProcessCall) : (r.step enough call).Counts ↔ r.CountedCall enough call := by
  cases call with
  | create entryPoint => exact counts_create counts enough
  | fork =>
    obtain ⟨slot, running, -⟩ := occupied
    rw [step, if_neg (by rw [running]; exact Option.some_ne_none slot)]
    exact counts_create counts enough
  | schedule savedRsp =>
    rw [step, counts_schedule]
    exact iff_of_true counts trivial
  | exit status savedRsp =>
    rw [step, counts_schedule]
    exact counts_exit counts occupied
  | brk addr => exact iff_of_true counts trivial
  | get => exact iff_of_true counts trivial
  | free page => exact iff_of_true counts trivial

/-- What a call can do to one slot: nothing, take it, or end the current process. -/
theorem step_state (r : Roster) (enough : Bool) (call : ProcessCall) (slot : Slot) :
    (r.step enough call).states slot = r.states slot ∨
      (r.states slot = .unused ∧ (r.step enough call).states slot = .ready) ∨
      (r.current = some slot ∧ (r.step enough call).states slot = .zombie) := by
  have create : (r.create enough).states slot = r.states slot ∨
      (r.states slot = .unused ∧ (r.create enough).states slot = .ready) := by
    rw [Roster.create]
    cases found : r.unusedSlot with
    | none => exact Or.inl rfl
    | some taken =>
      by_cases same : slot = taken
      · rw [same]
        exact Or.inr ⟨unusedSlot_some found, Function.update_self ..⟩
      · exact Or.inl (Function.update_of_ne same ..)
  cases call with
  | create entryPoint => exact create.imp_right Or.inl
  | fork =>
    rw [step]
    split
    · exact Or.inl rfl
    · exact create.imp_right Or.inl
  | schedule savedRsp =>
    rw [step, schedule_states]
    exact Or.inl rfl
  | exit status savedRsp =>
    rw [step, schedule_states, markExited]
    cases current : r.current with
    | none => exact Or.inl rfl
    | some ending =>
      by_cases same : slot = ending
      · rw [same]
        exact Or.inr (Or.inr ⟨rfl, Function.update_self ..⟩)
      · exact Or.inl (Function.update_of_ne same ..)
  | brk addr => exact Or.inl rfl
  | get => exact Or.inl rfl
  | free page => exact Or.inl rfl

/-- The current process changes only to a slot that is ready. -/
theorem schedule_current (r : Roster) :
    r.schedule.current = r.current ∨
      ∃ next, r.schedule.current = some next ∧ r.states next = .ready := by
  rcases r.schedule_cases with same | ⟨old, next, -, found, switched⟩
  · exact Or.inl (congrArg Roster.current same)
  · have eligible := (CyclicSearch.search_some (r.Eligible old) found).1
    exact Or.inr ⟨next, congrArg Roster.current switched, eligible.1⟩

theorem step_current (r : Roster) (enough : Bool) (call : ProcessCall) :
    (r.step enough call).current = r.current ∨
      ∃ next, (r.step enough call).current = some next ∧
        (r.step enough call).states next = .ready := by
  have create : (r.create enough).current = r.current := by
    rw [Roster.create]
    split <;> rfl
  cases call with
  | create entryPoint => exact Or.inl create
  | fork =>
    rw [step]
    split
    · exact Or.inl rfl
    · exact Or.inl create
  | schedule savedRsp =>
    rw [step, schedule_states]
    exact r.schedule_current
  | exit status savedRsp =>
    have kept : r.markExited.current = r.current := by
      rw [markExited]
      split <;> rfl
    rw [step, schedule_states, ← kept]
    exact r.markExited.schedule_current
  | brk addr => exact Or.inl rfl
  | get => exact Or.inl rfl
  | free page => exact Or.inl rfl

theorem occupied_step {r : Roster} (occupied : r.Occupied) (enough : Bool) (call : ProcessCall) :
    (r.step enough call).Occupied := by
  obtain ⟨slot, running, used⟩ := occupied
  rcases r.step_current enough call with same | ⟨next, switched, ready⟩
  · refine ⟨slot, same.trans running, ?_⟩
    rcases r.step_state enough call slot with kept | ⟨unused, -⟩ | ⟨-, ended⟩
    · rw [kept]
      exact used
    · exact absurd unused used
    · rw [ended]
      exact ProcessState.noConfusion
  · refine ⟨next, switched, ?_⟩
    rw [ready]
    exact ProcessState.noConfusion

theorem occupied_started (enough : Bool) : (started enough).Occupied := by
  refine ⟨0, rfl, ?_⟩
  cases enough <;> decide

theorem started_unused (enough : Bool) {slot : Slot} (different : slot ≠ 0) :
    (started enough).states slot = .unused := by
  simp only [started, Function.update_of_ne different]

theorem counts_started (enough : Bool) : (started enough).Counts := by
  cases enough <;> decide +kernel

end Roster

/-! ### Runs -/

theorem processRun_append (s : KernelState) (done : List ProcessCall) (call : ProcessCall) :
    processRun s (done ++ [call]) = processStep (processRun s done) call :=
  List.foldl_append ..

theorem processRun_nil (s : KernelState) : processRun s [] = s := rfl

theorem processRun_cons (s : KernelState) (call : ProcessCall) (rest : List ProcessCall) :
    processRun s (call :: rest) = processRun (processStep s call) rest := rfl

/-- Some process is always current, and its slot is in use. -/
theorem occupied_processRun {s : KernelState} (managed : Managed s.toMemoryState)
    (occupied : s.roster.Occupied) (calls : List ProcessCall) :
    (processRun s calls).roster.Occupied := by
  induction calls generalizing s with
  | nil => exact occupied
  | cons call rest inductionHypothesis =>
    refine inductionHypothesis (takesTwo_processStep managed call).managed ?_
    rw [roster_processStep managed]
    exact Roster.occupied_step occupied _ call

theorem occupied_initProcessManager {s : KernelState} (managed : Managed s.toMemoryState)
    (idle : BitVec 64) : (initProcessManager s idle).roster.Occupied := by
  rw [roster_initProcessManager managed]
  exact Roster.occupied_started _

/-- Only the first slot is taken when the process manager has started. -/
theorem unused_initProcessManager {s : KernelState} (managed : Managed s.toMemoryState)
    (idle : BitVec 64) {slot : Slot} (different : slot ≠ 0) :
    ((initProcessManager s idle).processes slot).state = .unused := by
  rw [← roster_states, roster_initProcessManager managed]
  exact Roster.started_unused _ different

/-- `process_count` is the number of slots whose state is ready, running or blocked. -/
def CountsLive (s : KernelState) : Prop :=
  s.processCount.toNat = (liveSlots fun slot => (s.processes slot).state).card

/-- The counter is right in every state of a run, and no exit of the run makes it wrap. -/
structure CountKept (s : KernelState) (calls : List ProcessCall) : Prop where
  counts : ∀ done, done <+: calls → CountsLive (processRun s done)
  exits : ∀ done status savedRsp, done ++ [.exit status savedRsp] <+: calls →
    (processRun s done).processCount ≠ 0#32

/-- If there is a slot for another process, there are two pages for its stacks. -/
def EnoughPages (s : KernelState) : Prop :=
  (∃ slot, (s.processes slot).state = .unused) → TwoFree s.toMemoryState

/-- The call does not create a process with too few pages for its stacks, and is not an exit of
an exited process. -/
def CountedCall (s : KernelState) : ProcessCall → Prop
  | .create _ => EnoughPages s
  | .fork => EnoughPages s
  | .exit _ _ => ∀ slot, s.current = some slot → (s.processes slot).state ≠ .zombie
  | _ => True

theorem countedCall_iff (s : KernelState) (call : ProcessCall) :
    s.roster.CountedCall (decide (TwoFree s.toMemoryState)) call ↔ CountedCall s call := by
  cases call with
  | create entryPoint => exact imp_congr_right fun _ => decide_eq_true_iff
  | fork => exact imp_congr_right fun _ => decide_eq_true_iff
  | schedule savedRsp => exact Iff.rfl
  | exit status savedRsp => exact Iff.rfl
  | brk addr => exact Iff.rfl
  | get => exact Iff.rfl
  | free page => exact Iff.rfl

theorem countsLive_step {s : KernelState} (managed : Managed s.toMemoryState)
    (counts : CountsLive s) (occupied : s.roster.Occupied) (call : ProcessCall) :
    CountsLive (processStep s call) ↔ CountedCall s call := by
  have counts : s.roster.Counts := counts
  rw [← countedCall_iff, ← Roster.counts_step counts occupied, ← roster_processStep managed]
  rfl

/-- An exit that would make the counter wrap is the exit of an exited process. -/
theorem count_ne_zero_of_counted {s : KernelState} (counts : CountsLive s)
    (occupied : s.roster.Occupied) {status : BitVec 32} {savedRsp : BitVec 64}
    (counted : CountedCall s (.exit status savedRsp)) : s.processCount ≠ 0#32 := by
  obtain ⟨slot, running, used⟩ := occupied
  have alive := counted slot running
  intro zero
  rw [CountsLive, zero] at counts
  have empty := Finset.card_eq_zero.mp counts.symm
  have dead : slot ∉ liveSlots fun slot => (s.processes slot).state := by
    rw [empty]
    exact Finset.notMem_empty slot
  rw [mem_liveSlots] at dead
  have used : (s.processes slot).state ≠ .unused := used
  revert dead alive used
  cases (s.processes slot).state <;> simp [ProcessState.live]

/-- From `InitProcessManager` on, `process_count` is the number of live processes in every state
of a run, exactly when no call of the run creates a process with too few pages or exits an exited
process. -/
theorem processCount_counts_live_iff (s : KernelState) (managed : Managed s.toMemoryState)
    (idle : BitVec 64) (calls : List ProcessCall) :
    CountKept (initProcessManager s idle) calls ↔
      ∀ done call, done ++ [call] <+: calls →
        CountedCall (processRun (initProcessManager s idle) done) call := by
  have managedInit := (takesTwo_initProcessManager managed idle).managed
  have occupiedInit := occupied_initProcessManager managed idle
  have countsInit : CountsLive (initProcessManager s idle) := by
    have started := Roster.counts_started (decide (TwoFree s.toMemoryState))
    rw [← roster_initProcessManager managed idle] at started
    exact started
  generalize initProcessManager s idle = s at managedInit occupiedInit countsInit
  have managedRun := fun done => managed_processRun managedInit done
  have occupiedRun := fun done => occupied_processRun managedInit occupiedInit done
  constructor
  · intro kept done call isPrefix
    have before := kept.counts done ((List.prefix_append done [call]).trans isPrefix)
    have after := kept.counts _ isPrefix
    rw [processRun_append] at after
    exact (countsLive_step (managedRun done) before (occupiedRun done) call).mp after
  · intro counted
    have counts : ∀ done, done <+: calls → CountsLive (processRun s done) := by
      intro done
      induction done using List.reverseRecOn with
      | nil => exact fun _ => countsInit
      | append_singleton done call inductionHypothesis =>
        intro isPrefix
        have before := inductionHypothesis ((List.prefix_append done [call]).trans isPrefix)
        rw [processRun_append]
        exact (countsLive_step (managedRun done) before (occupiedRun done) call).mpr
          (counted done call isPrefix)
    refine ⟨counts, fun done status savedRsp isPrefix => ?_⟩
    exact count_ne_zero_of_counted
      (counts done ((List.prefix_append done _).trans isPrefix)) (occupiedRun done)
      (counted done _ isPrefix)

/-- A machine whose memory is zero, up to the start of the process manager. -/
def blankKernel : KernelState := loadedKernel (initPaging (bootPaging fun _ => 0#8)).1

theorem managed_loadedKernel {paging : PagingState} {pages : Nat} (started : Started paging pages) :
    Managed (loadedKernel paging).toMemoryState ∧
      (pool (loadedKernel paging).toMemoryState).free.card = pages - 3 := by
  refine ⟨started.managed, ?_⟩
  rw [show (pool (loadedKernel paging).toMemoryState).free = Finset.Ico 3 pages from started.free]
  exact Nat.card_Ico 3 pages

theorem managed_blankKernel : Managed blankKernel.toMemoryState ∧
    254 < (pool blankKernel.toMemoryState).free.card := by
  obtain ⟨complete, enough⟩ := complete_blank
  obtain ⟨managed, card⟩ := managed_loadedKernel
    (started_initPaging zeroedTables_blank complete)
  refine ⟨managed, ?_⟩
  rw [blankKernel, card]
  omega

attribute [irreducible] blankKernel

/-- With four free pages there are stacks for the idle process and for one more, in slot 1. -/
theorem createProcess_started {s : KernelState} (managed : Managed s.toMemoryState)
    (many : 4 ≤ (pool s.toMemoryState).free.card) (idle entryPoint : BitVec 64) :
    Managed (initProcessManager s idle).toMemoryState ∧
      ∃ next, createProcess (initProcessManager s idle) entryPoint = (next, some 1) ∧
        next.current = some 0 := by
  have init := takesTwo_initProcessManager managed idle
  have few := init.few
  have started := roster_initProcessManager managed idle
  have enough : TwoFree s.toMemoryState := by
    rw [TwoFree]
    omega
  rw [decide_eq_true enough] at started
  have unused : freeSlot (initProcessManager s idle) = some 1 := by
    rw [← roster_unusedSlot, started]
    decide +kernel
  have current : (initProcessManager s idle).current = some 0 := by
    rw [← roster_current, started]
    rfl
  refine ⟨init.managed, ?_⟩
  rcases createProcess_cases init.managed entryPoint with ⟨full, -⟩ |
    ⟨slot, next, i, j, found, -, -, result, created⟩ | ⟨slot, next, -, scarce, -, -⟩
  · exact absurd (unused.symm.trans full) (Option.some_ne_none 1)
  · rw [← unused.symm.trans found] at result
    exact ⟨next, result, created.current.trans current⟩
  · omega

theorem eq_of_prefix_singleton {done : List ProcessCall} {call only : ProcessCall}
    (isPrefix : done ++ [call] <+: [only]) : done = [] ∧ call = only := by
  have short := isPrefix.length_le
  rw [List.length_append, List.length_singleton, List.length_singleton] at short
  have first : done = [] := List.length_eq_zero_iff.mp (by omega)
  subst first
  exact ⟨rfl, by simpa using isPrefix⟩

/-- On that machine, a run that creates one process counts correctly. -/
theorem processCount_counts_live_create :
    CountKept (initProcessManager blankKernel 0x1A00#64) [.create 0x1B00#64] := by
  obtain ⟨managed, many⟩ := managed_blankKernel
  generalize blankKernel = s at managed many ⊢
  refine (processCount_counts_live_iff s managed 0x1A00#64 [.create 0x1B00#64]).mpr
    fun done call isPrefix => ?_
  obtain ⟨rfl, rfl⟩ := eq_of_prefix_singleton isPrefix
  have few := (takesTwo_initProcessManager managed 0x1A00#64).few
  refine fun _ => ?_
  rw [TwoFree, processRun, List.foldl_nil]
  omega

/-- After one exit nothing is counted any more. -/
theorem Roster.count_started_exit (enough later : Bool) :
    ((started enough).step later (.exit 0#32 0#64)).count = 0#32 := by
  cases enough <;> cases later <;> decide +kernel

/-- Two exits right after the start make the counter wrap. -/
theorem processCount_wraps :
    ¬ CountKept (initProcessManager blankKernel 0x1A00#64) [.exit 0#32 0#64, .exit 0#32 0#64] := by
  have managedBlank := managed_blankKernel.1
  generalize blankKernel = s at managedBlank ⊢
  intro kept
  have managed := (takesTwo_initProcessManager managedBlank 0x1A00#64).managed
  have nonzero := kept.exits [.exit 0#32 0#64] 0#32 0#64 (List.prefix_refl _)
  have started := roster_initProcessManager managedBlank 0x1A00#64
  generalize initProcessManager s 0x1A00#64 = s at managed nonzero started
  have step := roster_processStep managed (.exit 0#32 0#64)
  rw [started] at step
  have zero := (congrArg Roster.count step).trans (Roster.count_started_exit _ _)
  rw [processRun_cons, processRun_nil, ← roster_count] at nonzero
  exact nonzero zero

end M12
