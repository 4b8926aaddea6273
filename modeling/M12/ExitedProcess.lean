/-
This file asks whether an exited process stops running.

`sys_exit_handler_real` takes the caller out of `process_count` and then calls
`schedule`, whose shortcut gives up when the counter is at most one. The counter
no longer includes the caller, so with one other process left the shortcut is
taken and the exited process stays current. In every other case the search finds
the other ready process, and from then on the exited slot can never be chosen
again: a zombie stays one, and only ready slots are switched to.
-/

import M12.ProcessCount

namespace M12

namespace Roster

/-! ### One exit -/

section Exit

variable {r : Roster} {caller : Slot} (running : r.current = some caller)

include running

theorem markExited_eq : r.markExited =
    { r with states := Function.update r.states caller .zombie, count := r.count - 1#32 } := by
  rw [markExited, running]

theorem shortcut_iff : r.markExited.count ≤ 1#32 ↔ r.count = 1#32 ∨ r.count = 2#32 := by
  have bound := r.count.isLt
  rw [markExited_eq running, BitVec.le_def, BitVec.toNat_sub, BitVec.toNat_ofNat,
    ← BitVec.toNat_inj, ← BitVec.toNat_inj, BitVec.toNat_ofNat, BitVec.toNat_ofNat]
  omega

/-- With the shortcut the caller stays current. -/
theorem exit_shortcut (taken : r.markExited.count ≤ 1#32) :
    r.markExited.schedule.current = some caller := by
  rw [schedule, if_pos taken, markExited_eq running]
  exact running

/-- Without it the search finds a ready slot, if there is one. -/
theorem exit_search (missed : ¬ r.markExited.count ≤ 1#32) {other : Slot}
    (ready : r.states other = .ready) (different : other ≠ caller) :
    ∃ next, next ≠ caller ∧ r.markExited.schedule.current = some next ∧
      r.markExited.schedule.states next = .ready := by
  have marked : r.markExited.current = some caller := by
    rw [markExited_eq running]
    exact running
  have eligible : r.markExited.Eligible caller other := by
    refine ⟨?_, different⟩
    rw [markExited_eq running]
    exact (Function.update_of_ne different ..).trans ready
  rw [schedule_states, schedule, if_neg missed, marked]
  cases found : r.markExited.nextSlot caller with
  | none =>
    have nobody := (CyclicSearch.search_all_eq_none (r.markExited.Eligible caller)).mp found
    exact absurd eligible (nobody other)
  | some next =>
    have chosen := (CyclicSearch.search_some (r.markExited.Eligible caller) found).1
    refine ⟨next, chosen.2, ?_, chosen.1⟩
    simp only [found]

theorem exit_zombie : r.markExited.schedule.states caller = .zombie := by
  rw [schedule_states, markExited_eq running]
  exact Function.update_self ..

end Exit

/-! ### Afterwards -/

/-- The slot holds an exited process and something else runs. -/
def Retired (r : Roster) (slot : Slot) : Prop :=
  r.states slot = .zombie ∧ r.current ≠ some slot

theorem retired_step {r : Roster} {slot : Slot} (retired : r.Retired slot) (enough : Bool)
    (call : ProcessCall) : (r.step enough call).Retired slot := by
  obtain ⟨zombie, elsewhere⟩ := retired
  have still : (r.step enough call).states slot = .zombie := by
    rcases r.step_state enough call slot with kept | ⟨unused, -⟩ | ⟨-, ended⟩
    · exact kept.trans zombie
    · exact absurd (zombie.symm.trans unused) ProcessState.noConfusion
    · exact ended
  refine ⟨still, ?_⟩
  rcases r.step_current enough call with same | ⟨next, switched, ready⟩
  · rw [same]
    exact elsewhere
  · rw [switched]
    rintro chosen
    rw [Option.some.inj chosen, still] at ready
    exact ProcessState.noConfusion ready

end Roster

theorem retired_processRun {s : KernelState} (managed : Managed s.toMemoryState) {slot : Slot}
    (retired : s.roster.Retired slot) (calls : List ProcessCall) :
    (processRun s calls).roster.Retired slot := by
  induction calls generalizing s with
  | nil => exact retired
  | cons call rest inductionHypothesis =>
    refine inductionHypothesis (takesTwo_processStep managed call).managed ?_
    rw [roster_processStep managed]
    exact Roster.retired_step retired _ call

/-! ### The exit handler -/

/-- After the exit of the current process `caller` a ready process runs, and `caller` never runs
again. -/
structure ExitStops (s : KernelState) (caller : Slot) (status : BitVec 32)
    (savedRsp : BitVec 64) : Prop where
  switches : ∃ next, next ≠ caller ∧
    (sysExitHandlerReal s status savedRsp).current = some next ∧
    ((sysExitHandlerReal s status savedRsp).processes next).state = .ready
  forGood : ∀ calls,
    (processRun (sysExitHandlerReal s status savedRsp) calls).current ≠ some caller

theorem roster_sysExitHandlerReal (s : KernelState) (status : BitVec 32) (savedRsp : BitVec 64) :
    (sysExitHandlerReal s status savedRsp).roster = s.roster.markExited.schedule := by
  rw [sysExitHandlerReal, roster_schedule, roster_markExited]

theorem exitStops_iff {s : KernelState} (managed : Managed s.toMemoryState)
    {caller other : Slot} (running : s.current = some caller)
    (ready : (s.processes other).state = .ready) (different : other ≠ caller)
    (status : BitVec 32) (savedRsp : BitVec 64) :
    ExitStops s caller status savedRsp ↔ s.processCount ≠ 1#32 ∧ s.processCount ≠ 2#32 := by
  have runningRoster : s.roster.current = some caller := running
  have after := roster_sysExitHandlerReal s status savedRsp
  have managedAfter : Managed (sysExitHandlerReal s status savedRsp).toMemoryState :=
    (takesTwo_processStep managed (.exit status savedRsp)).managed
  rw [← not_or, show s.processCount = s.roster.count from rfl,
    ← Roster.shortcut_iff runningRoster]
  constructor
  · intro stops shortcut
    obtain ⟨next, elsewhere, current, -⟩ := stops.switches
    have stays := Roster.exit_shortcut runningRoster shortcut
    rw [← after] at stays
    exact elsewhere (Option.some.inj (current.symm.trans stays))
  · intro missed
    obtain ⟨next, elsewhere, current, state⟩ :=
      Roster.exit_search runningRoster missed ready different
    have zombie := Roster.exit_zombie runningRoster
    rw [← after] at current state zombie
    have retired : (sysExitHandlerReal s status savedRsp).roster.Retired caller := by
      refine ⟨zombie, ?_⟩
      rw [current]
      exact fun same => elsewhere (Option.some.inj same)
    exact ⟨⟨next, elsewhere, current, state⟩,
      fun calls => (retired_processRun managedAfter retired calls).2⟩

/-- In every state the process manager reaches with another process ready, an exit stops the
current process exactly when `process_count` is neither 1 nor 2. -/
theorem exited_process_stops_iff (s : KernelState) (managed : Managed s.toMemoryState)
    (idle : BitVec 64) (calls : List ProcessCall) (caller other : Slot)
    (running : (processRun (initProcessManager s idle) calls).current = some caller)
    (ready : ((processRun (initProcessManager s idle) calls).processes other).state = .ready)
    (different : other ≠ caller) (status : BitVec 32) (savedRsp : BitVec 64) :
    ExitStops (processRun (initProcessManager s idle) calls) caller status savedRsp ↔
      (processRun (initProcessManager s idle) calls).processCount ≠ 1#32 ∧
        (processRun (initProcessManager s idle) calls).processCount ≠ 2#32 := by
  have managedInit := (takesTwo_initProcessManager managed idle).managed
  exact exitStops_iff (managed_processRun managedInit calls) running ready different status savedRsp

/-- The rosters after one and two processes have been created. -/
theorem Roster.started_create :
    (((started true).step true (.create 0x1B00#64)).current = some 0 ∧
      ((started true).step true (.create 0x1B00#64)).states 1 = .ready ∧
      ((started true).step true (.create 0x1B00#64)).count = 2#32) ∧
    ((((started true).step true (.create 0x1B00#64)).step true (.create 0x1B00#64)).current =
        some 0 ∧
      (((started true).step true (.create 0x1B00#64)).step true (.create 0x1B00#64)).states 1 =
        .ready ∧
      (((started true).step true (.create 0x1B00#64)).step true (.create 0x1B00#64)).count =
        3#32) := by
  decide +kernel

/-- The rosters of those runs on a machine whose memory is zero. -/
theorem roster_blankKernel_create :
    (processRun (initProcessManager blankKernel 0x1A00#64) [.create 0x1B00#64]).roster =
        (Roster.started true).step true (.create 0x1B00#64) ∧
      (processRun (initProcessManager blankKernel 0x1A00#64)
          [.create 0x1B00#64, .create 0x1B00#64]).roster =
        ((Roster.started true).step true (.create 0x1B00#64)).step true (.create 0x1B00#64) := by
  obtain ⟨managed, many⟩ := managed_blankKernel
  generalize blankKernel = s at managed many ⊢
  have init := takesTwo_initProcessManager managed 0x1A00#64
  have first := takesTwo_processStep init.managed (.create 0x1B00#64)
  have enough : TwoFree s.toMemoryState := by
    rw [TwoFree]
    omega
  have enoughInit : TwoFree (initProcessManager s 0x1A00#64).toMemoryState := by
    have few := init.few
    rw [TwoFree]
    omega
  have enoughFirst :
      TwoFree (processStep (initProcessManager s 0x1A00#64) (.create 0x1B00#64)).toMemoryState := by
    have fewInit := init.few
    have few := first.few
    rw [TwoFree]
    omega
  have one := roster_processStep init.managed (.create 0x1B00#64)
  have two := roster_processStep first.managed (.create 0x1B00#64)
  rw [roster_initProcessManager managed, decide_eq_true enough, decide_eq_true enoughInit] at one
  rw [one, decide_eq_true enoughFirst] at two
  rw [processRun_cons, processRun_nil, processRun_cons, processRun_cons, processRun_nil]
  exact ⟨one, two⟩

/-- What a roster with the first process running and the second ready says of the kernel. -/
theorem started_of_roster {s : KernelState} {r : Roster} (same : s.roster = r) {count : BitVec 32}
    (started : r.current = some 0 ∧ r.states 1 = .ready ∧ r.count = count) :
    s.current = some 0 ∧ (s.processes 1).state = .ready ∧ s.processCount = count := by
  rwa [← same, roster_current, roster_states, roster_count] at started

/-- With two processes besides the caller, the exit stops the caller. -/
theorem exited_process_stops_of_three :
    ExitStops (processRun (initProcessManager blankKernel 0x1A00#64)
      [.create 0x1B00#64, .create 0x1B00#64]) 0 0#32 0#64 := by
  obtain ⟨current, ready, count⟩ :=
    started_of_roster roster_blankKernel_create.2 Roster.started_create.2
  have managed := managed_blankKernel.1
  generalize blankKernel = s at managed current ready count ⊢
  refine (exited_process_stops_iff s managed 0x1A00#64 [.create 0x1B00#64, .create 0x1B00#64] 0 1
    current ready (by decide) 0#32 0#64).mpr ?_
  rw [count]
  decide

/-- With one process besides the caller, the caller stays current. -/
theorem exited_process_keeps_running :
    (processRun (initProcessManager blankKernel 0x1A00#64) [.create 0x1B00#64]).current = some 0 ∧
      ((processRun (initProcessManager blankKernel 0x1A00#64)
        [.create 0x1B00#64]).processes 1).state = .ready ∧
      ¬ ExitStops (processRun (initProcessManager blankKernel 0x1A00#64) [.create 0x1B00#64])
        0 0#32 0#64 := by
  obtain ⟨current, ready, count⟩ :=
    started_of_roster roster_blankKernel_create.1 Roster.started_create.1
  have managed := managed_blankKernel.1
  generalize blankKernel = s at managed current ready count ⊢
  have managedInit := (takesTwo_initProcessManager managed 0x1A00#64).managed
  refine ⟨current, ready, fun stops => ?_⟩
  have counted := (exitStops_iff (managed_processRun managedInit [.create 0x1B00#64]) current ready
    (by decide) 0#32 0#64).mp stops
  exact counted.2 count

end M12
