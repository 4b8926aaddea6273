/-
This file is the abstract model of the process manager: the roster.

A roster is what the scheduler decides from, the state of each slot, the current
slot and the counter of live processes. The only thing the allocator contributes
is whether two pages were free when a process was to be created. Every call of
the process manager acts on the roster alone, so the questions about the counter
and about exited processes are questions about rosters.
-/

import M12.Library.CyclicSearch
import M12.ProcessTable

namespace M12

/-! ### Rosters -/

/-- The part of the process table the scheduler looks at. -/
@[ext]
structure Roster where
  states : Slot → ProcessState
  current : Option Slot
  count : BitVec 32

namespace Roster

/-- The first unused slot. -/
def unusedSlot (r : Roster) : Option Slot :=
  (List.finRange 64).find? fun slot => r.states slot = .unused

/-- A process is created. Without enough pages its slot is taken but not counted. -/
def create (r : Roster) (enough : Bool) : Roster :=
  match r.unusedSlot with
  | none => r
  | some slot =>
    { r with
      states := Function.update r.states slot .ready
      count := if enough then r.count + 1#32 else r.count }

/-- A slot the scheduler may switch to. -/
def Eligible (r : Roster) (current slot : Slot) : Prop := r.states slot = .ready ∧ slot ≠ current

instance (r : Roster) (current : Slot) : DecidablePred (r.Eligible current) :=
  fun _ => inferInstanceAs (Decidable (_ ∧ _))

/-- The slot a switch would go to. -/
def nextSlot (r : Roster) (current : Slot) : Option Slot :=
  CyclicSearch.search (r.Eligible current) (current + 1) 64

/-- The scheduler runs. -/
def schedule (r : Roster) : Roster :=
  if r.count ≤ 1#32 then r
  else
    match r.current with
    | none => r
    | some old =>
      match r.nextSlot old with
      | none => r
      | some next => { r with current := some next }

/-- The current process becomes a zombie. -/
def markExited (r : Roster) : Roster :=
  match r.current with
  | none => r
  | some slot =>
    { r with states := Function.update r.states slot .zombie, count := r.count - 1#32 }

/-- One call, when `enough` says whether two pages are free. -/
def step (r : Roster) (enough : Bool) : ProcessCall → Roster
  | .create _ => r.create enough
  | .fork => if r.current = none then r else r.create enough
  | .schedule _ => r.schedule
  | .exit _ _ => r.markExited.schedule
  | .brk _ => r
  | .get => r
  | .free _ => r

/-- The roster after the process manager has started. -/
def started (enough : Bool) : Roster where
  states := Function.update (fun _ => .unused) 0 (if enough then .ready else .running)
  current := some 0
  count := 1#32

theorem schedule_cases (r : Roster) :
    r.schedule = r ∨ ∃ old next, r.current = some old ∧ r.nextSlot old = some next ∧
      r.schedule = { r with current := some next } := by
  rw [schedule]
  split
  · exact Or.inl rfl
  · cases current : r.current with
    | none => exact Or.inl rfl
    | some old =>
      cases found : r.nextSlot old with
      | none => exact Or.inl (by simp only [found])
      | some next => exact Or.inr ⟨old, next, rfl, found, by simp only [found]⟩

theorem schedule_states (r : Roster) : r.schedule.states = r.states := by
  rcases r.schedule_cases with same | ⟨old, next, -, -, switched⟩
  · rw [same]
  · rw [switched]

theorem schedule_count (r : Roster) : r.schedule.count = r.count := by
  rcases r.schedule_cases with same | ⟨old, next, -, -, switched⟩
  · rw [same]
  · rw [switched]

end Roster

/-! ### The process manager acts on rosters -/

/-- The roster of a kernel state. -/
def KernelState.roster (s : KernelState) : Roster where
  states := fun slot => (s.processes slot).state
  current := s.current
  count := s.processCount

theorem roster_current (s : KernelState) : s.roster.current = s.current := rfl

theorem roster_states (s : KernelState) (slot : Slot) :
    s.roster.states slot = (s.processes slot).state := rfl

theorem roster_count (s : KernelState) : s.roster.count = s.processCount := rfl

/-- Two pages are free. -/
def TwoFree (s : MemoryState) : Prop := 2 ≤ (pool s).free.card

instance (s : MemoryState) : Decidable (TwoFree s) := inferInstanceAs (Decidable (_ ≤ _))

theorem roster_unusedSlot (s : KernelState) : s.roster.unusedSlot = freeSlot s := rfl

theorem states_of_others {s next : KernelState} {slot : Slot} {state : ProcessState}
    (changed : (next.processes slot).state = state)
    (others : ∀ other ≠ slot, next.processes other = s.processes other) :
    next.roster.states = Function.update s.roster.states slot state := by
  funext other
  by_cases same : other = slot
  · rw [same, Function.update_self]
    exact changed
  · rw [Function.update_of_ne same]
    exact congrArg Process.state (others other same)

theorem twoFree_of_least {s : MemoryState} {i j : Nat} (first : i ∈ (pool s).free)
    (second : j ∈ (pool s).free.erase i) : TwoFree s := by
  have card := Finset.card_erase_of_mem first
  have positive := Finset.card_pos.mpr ⟨j, second⟩
  rw [TwoFree]
  omega

theorem roster_createProcess {s : KernelState} (managed : Managed s.toMemoryState)
    (entryPoint : BitVec 64) :
    (createProcess s entryPoint).1.roster = s.roster.create (decide (TwoFree s.toMemoryState)) := by
  rw [Roster.create, roster_unusedSlot]
  rcases createProcess_cases managed entryPoint with ⟨full, result⟩ |
    ⟨slot, next, i, j, found, least, leastJ, result, created⟩ |
    ⟨slot, next, found, few, result, stranded⟩
  · rw [full, result]
  · have enough : TwoFree s.toMemoryState := twoFree_of_least least.1 leastJ.1
    rw [found, result]
    refine Roster.ext ?_ created.current ?_
    · exact states_of_others (by rw [created.process]) created.others
    · simp only [enough, decide_true, if_true]
      exact created.processCount
  · have missing : ¬ TwoFree s.toMemoryState := by
      rw [TwoFree]
      omega
    rw [found, result]
    refine Roster.ext ?_ stranded.current ?_
    · exact states_of_others stranded.state stranded.others
    · simp only [missing, decide_false, Bool.false_eq_true, if_false]
      exact stranded.processCount

/-- An assignment that keeps the state of its slot is not seen. -/
theorem roster_modify (s : KernelState) (slot : Slot) (assign : Process → Process)
    (keeps : ∀ proc, (assign proc).state = proc.state) :
    (s.modify slot assign).roster = s.roster := by
  refine Roster.ext ?_ rfl rfl
  have state : ((s.modify slot assign).processes slot).state = s.roster.states slot := by
    rw [modify_self, keeps]
    rfl
  rw [states_of_others state fun other different => modify_other s slot assign different]
  exact Function.update_eq_self slot s.roster.states

theorem roster_sysForkHandler {s : KernelState} (managed : Managed s.toMemoryState) :
    (sysForkHandler s).1.roster = s.roster.step (decide (TwoFree s.toMemoryState)) .fork := by
  rw [sysForkHandler, Roster.step]
  cases current : s.current with
  | none => exact (if_pos current).symm
  | some parent =>
    have running : s.roster.current ≠ none := by
      rw [show s.roster.current = s.current from rfl, current]
      exact Option.some_ne_none parent
    rw [if_neg running, ← roster_createProcess managed (s.processes parent).context.rip]
    simp only
    split
    case h_1 next result => rw [result]
    case h_2 next child result =>
      rw [result]
      exact roster_modify next child (fun proc => { proc with
        context := { (next.processes parent).context with rax := 0#64 } }) fun _ => rfl

theorem searchReady_eq (s : KernelState) (current start : Slot) (remaining : Nat) :
    searchReady s current start remaining =
      CyclicSearch.search (s.roster.Eligible current) start remaining := by
  induction remaining generalizing start with
  | zero => rfl
  | succ remaining inductionHypothesis =>
    rw [searchReady, CyclicSearch.search, inductionHypothesis]
    rfl

theorem roster_schedule (s : KernelState) (savedRsp : BitVec 64) :
    (schedule s savedRsp).roster = s.roster.schedule := by
  rw [schedule, Roster.schedule]
  by_cases few : s.processCount ≤ 1#32
  · rw [if_pos few, if_pos (show s.roster.count ≤ 1#32 from few)]
  · rw [if_neg few, if_neg (show ¬ s.roster.count ≤ 1#32 from few)]
    rw [show s.roster.current = s.current from rfl]
    cases s.current with
    | none => rfl
    | some old =>
      simp only [Roster.nextSlot, searchReady_eq]
      cases CyclicSearch.search (s.roster.Eligible old) (old + 1) 64 with
      | none => rfl
      | some next =>
        have unseen := roster_modify s old (fun proc =>
          { proc with context := { proc.context with r15 := savedRsp } }) fun _ => rfl
        exact congrArg (fun roster => { roster with current := some next }) unseen

theorem roster_markExited (s : KernelState) (status : BitVec 32) :
    (markExited s status).roster = s.roster.markExited := by
  rw [markExited, Roster.markExited, show s.roster.current = s.current from rfl]
  cases current : s.current with
  | none => rfl
  | some slot =>
    refine Roster.ext (states_of_others ?_ fun other different => ?_) current rfl
    · exact congrArg Process.state (modify_self s slot fun proc =>
        { proc with state := .zombie, exitCode := status })
    · exact modify_other s slot (fun proc =>
        { proc with state := .zombie, exitCode := status }) different

/-- Every call acts on the roster as the abstract step does. -/
theorem roster_processStep {s : KernelState} (managed : Managed s.toMemoryState)
    (call : ProcessCall) :
    (processStep s call).roster = s.roster.step (decide (TwoFree s.toMemoryState)) call := by
  cases call with
  | create entryPoint => exact roster_createProcess managed entryPoint
  | fork => exact roster_sysForkHandler managed
  | schedule savedRsp => exact roster_schedule s savedRsp
  | exit status savedRsp =>
    rw [processStep, sysExitHandlerReal, roster_schedule, roster_markExited]
    rfl
  | brk addr =>
    rw [processStep, sysBrkHandler]
    cases current : s.current with
    | none => rfl
    | some slot =>
      by_cases moved : addr ≠ 0#64
      · simp only [if_pos moved]
        exact roster_modify s slot (fun proc => { proc with brk := addr }) fun _ => rfl
      · simp only [if_neg moved]
        rfl
  | get => rfl
  | free page => rfl

theorem freeSlot_resetProcesses (s : KernelState) : freeSlot (resetProcesses s) = some 0 := by
  have states : ∀ slot, ((resetProcesses s).processes slot).state = .unused := fun _ => rfl
  simp only [freeSlot, states, decide_true]
  rfl

theorem roster_fallbackProcess (s : KernelState) :
    (fallbackProcess s).roster =
      { states := Function.update s.roster.states 0 .running
        current := some 0
        count := 1#32 } := by
  refine Roster.ext (states_of_others ?_ fun other different => ?_) rfl rfl
  · exact congrArg Process.state (modify_self s 0 fun proc => { proc with
      pid := 1#32
      state := .running
      pageTable := s.kernelPml4
      brk := 0x400000#64 })
  · exact modify_other s 0 (fun proc => { proc with
      pid := 1#32
      state := .running
      pageTable := s.kernelPml4
      brk := 0x400000#64 }) different

theorem roster_initProcessManager {s : KernelState} (managed : Managed s.toMemoryState)
    (idle : BitVec 64) :
    (initProcessManager s idle).roster = Roster.started (decide (TwoFree s.toMemoryState)) := by
  have created := roster_createProcess (s := resetProcesses s) managed idle
  have unused : (resetProcesses s).roster.unusedSlot = some 0 := freeSlot_resetProcesses s
  rw [Roster.create, unused] at created
  rcases createProcess_cases (s := resetProcesses s) managed idle with ⟨full, -⟩ |
    ⟨slot, next, i, j, found, least, leastJ, result, -⟩ | ⟨slot, next, found, few, result, -⟩
  · exact absurd (unused.symm.trans full) (Option.some_ne_none 0)
  · have enough : TwoFree s.toMemoryState := twoFree_of_least least.1 leastJ.1
    have unseen := roster_modify next slot (fun proc => { proc with pid := 1#32 }) fun _ => rfl
    obtain rfl : 0 = slot := Option.some.inj (unused.symm.trans found)
    rw [result] at created
    rw [initProcessManager, result, Roster.started, decide_eq_true enough]
    rw [show decide (TwoFree (resetProcesses s).toMemoryState) = true from
      decide_eq_true enough] at created
    rw [created] at unseen
    exact congrArg (fun roster => { roster with current := some 0 }) unseen
  · have missing : ¬ TwoFree s.toMemoryState := Nat.not_le.mpr few
    rw [result] at created
    have states := congrArg Roster.states created
    rw [initProcessManager, result, Roster.started, decide_eq_false missing]
    simp only
    rw [roster_fallbackProcess, states]
    refine Roster.ext ?_ rfl rfl
    exact Function.update_idem ..

end M12
