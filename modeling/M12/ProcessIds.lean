/-
This file settles how pids and parents are related.

A slot is never given back, so slots are taken in order, and the process in slot
`k` gets the pid `k + 1` whether or not its stacks can be allocated. The current
process at that moment is its parent, and a current process sits in a lower slot.
The pid of the idle process is assigned a second time, with the value it has, and
the fallback of `InitProcessManager` finishes by hand the slot that
`create_process` has left half-done. None of this depends on what the allocator
answers, so there is nothing to assume about the memory.
-/

import M12.Roster

namespace M12

/-! ### Identities -/

/-- What identifies the process in a slot. -/
@[ext]
structure Identity where
  used : Bool
  pid : BitVec 32
  parent : Option Slot

/-- The identity of a process. -/
def Process.identity (proc : Process) : Identity where
  used := decide (proc.state ≠ .unused)
  pid := proc.pid
  parent := proc.parent

theorem identity_used (proc : Process) : proc.identity.used = true ↔ proc.state ≠ .unused :=
  decide_eq_true_iff

/-- An assignment that keeps the identity of its slot keeps all of them. -/
theorem identity_modify (s : KernelState) (slot : Slot) (assign : Process → Process)
    (keeps : (assign (s.processes slot)).identity = (s.processes slot).identity) (other : Slot) :
    ((s.modify slot assign).processes other).identity = (s.processes other).identity := by
  by_cases same : other = slot
  · rw [same, modify_self, keeps]
  · rw [modify_other s slot assign same]

/-- No slot changes its identity, and no pid is given out. -/
structure KeepsIdentities (s next : KernelState) : Prop where
  identity : ∀ slot, (next.processes slot).identity = (s.processes slot).identity
  nextPid : next.nextPid = s.nextPid

/-- The first unused slot becomes a child of the current process with the next pid. -/
structure Enrolls (s next : KernelState) (slot : Slot) : Prop where
  found : freeSlot s = some slot
  identity : (next.processes slot).identity = ⟨true, s.nextPid, s.current⟩
  others : ∀ other ≠ slot, (next.processes other).identity = (s.processes other).identity
  nextPid : next.nextPid = s.nextPid + 1#32
  current : next.current = s.current

theorem keepsIdentities_modify (s : KernelState) (slot : Slot) (assign : Process → Process)
    (keeps : (assign (s.processes slot)).identity = (s.processes slot).identity) :
    KeepsIdentities s (s.modify slot assign) := ⟨identity_modify s slot assign keeps, rfl⟩

theorem AssignsCurrent.keepsIdentities {s next : KernelState} {assign : Process → Process}
    (assigns : AssignsCurrent s next assign)
    (keeps : ∀ slot, s.current = some slot →
      (assign (s.processes slot)).identity = (s.processes slot).identity) :
    KeepsIdentities s next := by
  refine ⟨fun slot => ?_, assigns.nextPid⟩
  rcases assigns.record slot with same | ⟨current, assigned⟩
  · rw [same]
  · rw [assigned, keeps slot current]

/-! ### The calls -/

/-- Whatever happens after a process has been enrolled, it stays enrolled. -/
theorem Enrolls.of_keeps {s middle next : KernelState} {slot : Slot}
    (enrolls : Enrolls s middle slot) (keeps : KeepsIdentities middle next)
    (current : next.current = middle.current) :
    Enrolls s next slot where
  found := enrolls.found
  identity := (keeps.identity slot).trans enrolls.identity
  others := fun other different => (keeps.identity other).trans (enrolls.others other different)
  nextPid := keeps.nextPid.trans enrolls.nextPid
  current := current.trans enrolls.current

theorem enrolls_claimSlot {s : KernelState} {slot : Slot} (found : freeSlot s = some slot) :
    Enrolls s (claimSlot s slot) slot where
  found := found
  identity := by
    show (Function.update s.processes slot _ slot).identity = _
    rw [Function.update_self]
    rfl
  others := fun _ different => congrArg Process.identity (Function.update_of_ne different ..)
  nextPid := rfl
  current := rfl

/-- Assignments of the two stacks are not seen. -/
theorem keepsIdentities_allocateKernelStack (s : KernelState) (slot : Slot) :
    KeepsIdentities s (allocateKernelStack s slot).1 ∧
      (allocateKernelStack s slot).1.current = s.current := by
  rw [allocateKernelStack]
  generalize getPage s.toPagingState = result
  have stack := keepsIdentities_modify { s with toPagingState := result.1 } slot
    (fun proc => { proc with kernelStack := result.2 }) rfl
  exact ⟨⟨stack.identity, rfl⟩, rfl⟩

theorem keepsIdentities_finishProcess (s : KernelState) (slot : Slot)
    (entryPoint kernelStack : BitVec 64) :
    KeepsIdentities s (finishProcess s slot entryPoint kernelStack).1 ∧
      (finishProcess s slot entryPoint kernelStack).1.current = s.current ∧
      ∀ child, (finishProcess s slot entryPoint kernelStack).2 = some child → child = slot := by
  rw [finishProcess, allocateUserStack]
  generalize getPage s.toPagingState = result
  have stack := keepsIdentities_modify { s with toPagingState := result.1 } slot
    (fun proc => { proc with userStack := result.2 }) rfl
  simp only
  split
  · exact ⟨⟨stack.identity, rfl⟩, rfl,
      fun child never => absurd never.symm (Option.some_ne_none child)⟩
  · refine ⟨⟨fun other => ?_, rfl⟩, rfl, fun child same => (Option.some.inj same).symm⟩
    exact (identity_modify _ slot (fun proc => { proc with
      context := freshContext entryPoint kernelStack }) rfl other).trans (stack.identity other)

/-- `create_process` either finds no slot or enrolls a process, also when it fails later. -/
theorem createProcess_enrolls (s : KernelState) (entryPoint : BitVec 64) :
    (freeSlot s = none ∧ createProcess s entryPoint = (s, none)) ∨
      ∃ slot, Enrolls s (createProcess s entryPoint).1 slot ∧
        ∀ child, (createProcess s entryPoint).2 = some child → child = slot := by
  rw [createProcess]
  cases found : freeSlot s with
  | none => exact Or.inl ⟨rfl, rfl⟩
  | some slot =>
    refine Or.inr ⟨slot, ?_⟩
    obtain ⟨keeps, current⟩ := keepsIdentities_allocateKernelStack (claimSlot s slot) slot
    have enrolls := (enrolls_claimSlot found).of_keeps keeps current
    simp only
    generalize allocateKernelStack (claimSlot s slot) slot = result at enrolls ⊢
    split
    · exact ⟨enrolls, fun child never => absurd never.symm (Option.some_ne_none child)⟩
    · obtain ⟨finished, still, child⟩ :=
        keepsIdentities_finishProcess result.1 slot entryPoint result.2
      exact ⟨enrolls.of_keeps finished still, child⟩

/-- The copy of the context that makes a child a copy of its parent is not seen either. -/
theorem sysForkHandler_enrolls (s : KernelState) :
    (sysForkHandler s).1 = s ∨ ∃ slot, Enrolls s (sysForkHandler s).1 slot := by
  rw [sysForkHandler]
  cases s.current with
  | none => exact Or.inl rfl
  | some parent =>
    simp only
    rcases createProcess_enrolls s (s.processes parent).context.rip with ⟨-, full⟩ |
      ⟨slot, enrolls, -⟩
    · rw [full]
      exact Or.inl rfl
    · generalize createProcess s (s.processes parent).context.rip = result at enrolls ⊢
      obtain ⟨next, child⟩ := result
      refine Or.inr ⟨slot, ?_⟩
      cases child with
      | none => exact enrolls
      | some child =>
        have copied := keepsIdentities_modify next child (fun proc => { proc with
          context := { (next.processes parent).context with rax := 0#64 } }) rfl
        exact enrolls.of_keeps copied rfl

/-- The scheduler keeps all identities, and a process it switches to is ready. -/
theorem schedule_identities (s : KernelState) (savedRsp : BitVec 64) :
    KeepsIdentities s (schedule s savedRsp) ∧ ((schedule s savedRsp).current = s.current ∨
      ∃ next, (schedule s savedRsp).current = some next ∧ (s.processes next).state = .ready) := by
  refine ⟨(assignsCurrent_schedule s savedRsp).keepsIdentities fun _ _ => rfl, ?_⟩
  rw [schedule]
  split
  · exact Or.inl rfl
  · cases current : s.current with
    | none => exact Or.inl current
    | some old =>
      simp only
      cases found : searchReady s old (old + 1) 64 with
      | none => exact Or.inl current
      | some next =>
        rw [searchReady_eq] at found
        have eligible := (CyclicSearch.search_some (s.roster.Eligible old) found).1
        exact Or.inr ⟨next, rfl, eligible.1⟩

/-- A process that exits keeps its pid and its parent. -/
theorem keepsIdentities_markExited {s : KernelState}
    (occupied : ∀ slot, s.current = some slot → (s.processes slot).state ≠ .unused)
    (status : BitVec 32) : KeepsIdentities s (markExited s status) := by
  refine (assignsCurrent_markExited s status).keepsIdentities fun slot current =>
    Identity.ext ?_ rfl rfl
  exact ((identity_used _).mpr ProcessState.noConfusion).trans
    ((identity_used _).mpr (occupied slot current)).symm

theorem sysBrkHandler_current (s : KernelState) (addr : BitVec 64) :
    (sysBrkHandler s addr).1.current = s.current := by
  rw [sysBrkHandler]
  repeat' split
  all_goals rfl

/-! ### Slots are taken in order -/

/-- The first `count` slots are in use, and the process in slot `k` has the pid `k + 1` and, but
for the first, a parent in a lower slot. -/
structure Numbered (s : KernelState) (count : Nat) : Prop where
  positive : 0 < count
  bounded : count ≤ 64
  used : ∀ slot, (s.processes slot).identity.used = true ↔ slot.val < count
  pid : ∀ slot, slot.val < count →
    (s.processes slot).identity.pid = BitVec.ofNat 32 (slot.val + 1)
  root : (s.processes 0).identity.parent = none
  parent : ∀ slot, slot.val < count → slot ≠ 0 →
    ∃ parent, (s.processes slot).identity.parent = some parent ∧ parent < slot
  nextPid : s.nextPid = BitVec.ofNat 32 (count + 1)
  current : ∃ slot, s.current = some slot ∧ slot.val < count

section Numbered

variable {s next : KernelState} {count : Nat}

theorem Numbered.occupied (numbered : Numbered s count) (slot : Slot)
    (running : s.current = some slot) : (s.processes slot).state ≠ .unused := by
  obtain ⟨current, same, inside⟩ := numbered.current
  rw [Option.some.inj (running.symm.trans same)]
  exact (identity_used _).mp ((numbered.used current).mpr inside)

theorem Numbered.of_keeps (numbered : Numbered s count) (keeps : KeepsIdentities s next)
    (current : ∃ slot, next.current = some slot ∧ slot.val < count) : Numbered next count where
  positive := numbered.positive
  bounded := numbered.bounded
  used := fun slot => keeps.identity slot ▸ numbered.used slot
  pid := fun slot => keeps.identity slot ▸ numbered.pid slot
  root := keeps.identity 0 ▸ numbered.root
  parent := fun slot => keeps.identity slot ▸ numbered.parent slot
  nextPid := keeps.nextPid.trans numbered.nextPid
  current := current

theorem Numbered.of_schedule (numbered : Numbered s count) (savedRsp : BitVec 64) :
    Numbered (schedule s savedRsp) count := by
  obtain ⟨keeps, same | ⟨next, switched, ready⟩⟩ := schedule_identities s savedRsp
  · exact numbered.of_keeps keeps (same ▸ numbered.current)
  · refine numbered.of_keeps keeps ⟨next, switched, (numbered.used next).mp ?_⟩
    rw [identity_used, ready]
    exact ProcessState.noConfusion

/-- The slots before the one `create_process` takes are in use. -/
theorem used_of_lt_freeSlot {slot : Slot} (found : freeSlot s = some slot) {earlier : Slot}
    (before : earlier < slot) : (s.processes earlier).state ≠ .unused := by
  obtain ⟨-, i, inside, here, first⟩ := List.find?_eq_some_iff_getElem.mp found
  rw [List.getElem_finRange] at here
  have index : i = slot.val := congrArg Fin.val here
  have held := first earlier.val (index ▸ before)
  rw [List.getElem_finRange] at held
  have used : (!decide ((s.processes earlier).state = .unused)) = true := held
  simpa using used

theorem Numbered.freeSlot (numbered : Numbered s count) {slot : Slot}
    (found : freeSlot s = some slot) : slot.val = count := by
  have least : ¬ slot.val < count := fun inside =>
    (identity_used _).mp ((numbered.used slot).mpr inside) (freeSlot_some found)
  refine Nat.le_antisymm (Nat.le_of_not_lt fun after => ?_) (Nat.le_of_not_lt least)
  have earlier : (⟨count, after.trans slot.isLt⟩ : Slot) < slot := after
  have used := (numbered.used _).mp ((identity_used _).mpr (used_of_lt_freeSlot found earlier))
  exact absurd used (Nat.lt_irrefl count)

/-- A new process takes the next slot with the next pid. -/
theorem Numbered.of_enrolls (numbered : Numbered s count) {slot : Slot}
    (enrolls : Enrolls s next slot) : Numbered next (count + 1) := by
  have place := numbered.freeSlot enrolls.found
  have notFirst : slot ≠ 0 := by
    rintro rfl
    exact absurd place (Nat.ne_of_lt numbered.positive)
  have same : ∀ other : Slot, other.val < count →
      (next.processes other).identity = (s.processes other).identity := by
    intro other inside
    refine enrolls.others other ?_
    rintro rfl
    exact absurd place (Nat.ne_of_lt inside)
  have cases : ∀ other : Slot, other.val < count + 1 → other.val < count ∨ other = slot :=
    fun other inside => (Nat.lt_succ_iff_lt_or_eq.mp inside).imp_right fun last =>
      Fin.ext (last.trans place.symm)
  refine ⟨Nat.succ_pos count, place ▸ slot.isLt, fun other => ?_, fun other inside => ?_,
    ?_, fun other inside notRoot => ?_, ?_, ?_⟩
  · by_cases here : other = slot
    · rw [here, enrolls.identity]
      exact iff_of_true rfl (place ▸ Nat.lt_succ_self _)
    · rw [enrolls.others other here, numbered.used]
      have apart : other.val ≠ count := fun last => here (Fin.ext (last.trans place.symm))
      omega
  · rcases cases other inside with before | rfl
    · rw [same other before]
      exact numbered.pid other before
    · rw [enrolls.identity, place]
      exact numbered.nextPid
  · rw [same 0 numbered.positive]
    exact numbered.root
  · rcases cases other inside with before | rfl
    · rw [same other before]
      exact numbered.parent other before notRoot
    · obtain ⟨parent, running, below⟩ := numbered.current
      rw [enrolls.identity]
      exact ⟨parent, running, Fin.lt_def.mpr (place ▸ below)⟩
  · rw [enrolls.nextPid, numbered.nextPid, ← BitVec.ofNat_add]
  · obtain ⟨running, current, below⟩ := numbered.current
    exact ⟨running, enrolls.current.trans current, Nat.lt_succ_of_lt below⟩

/-- One call takes at most one more slot. -/
theorem numbered_processStep (numbered : Numbered s count) (call : ProcessCall) :
    ∃ later, Numbered (processStep s call) later := by
  cases call with
  | create entryPoint =>
    rw [processStep]
    rcases createProcess_enrolls s entryPoint with ⟨-, full⟩ | ⟨slot, enrolls, -⟩
    · rw [full]
      exact ⟨count, numbered⟩
    · exact ⟨count + 1, numbered.of_enrolls enrolls⟩
  | fork =>
    rw [processStep]
    rcases sysForkHandler_enrolls s with same | ⟨slot, enrolls⟩
    · rw [same]
      exact ⟨count, numbered⟩
    · exact ⟨count + 1, numbered.of_enrolls enrolls⟩
  | schedule savedRsp => exact ⟨count, numbered.of_schedule savedRsp⟩
  | exit status savedRsp =>
    have exited := numbered.of_keeps (keepsIdentities_markExited numbered.occupied status)
      ((markExited_current s status).symm ▸ numbered.current)
    exact ⟨count, exited.of_schedule savedRsp⟩
  | brk addr =>
    exact ⟨count, numbered.of_keeps
      ((assignsCurrent_sysBrkHandler s addr).keepsIdentities fun _ _ => rfl)
      ((sysBrkHandler_current s addr).symm ▸ numbered.current)⟩
  | get => exact ⟨count, numbered.of_keeps ⟨fun _ => rfl, rfl⟩ numbered.current⟩
  | free page => exact ⟨count, numbered.of_keeps ⟨fun _ => rfl, rfl⟩ numbered.current⟩

theorem numbered_processRun (numbered : Numbered s count) (calls : List ProcessCall) :
    ∃ later, Numbered (processRun s calls) later := by
  induction calls generalizing s count with
  | nil => exact ⟨count, numbered⟩
  | cons call rest inductionHypothesis =>
    obtain ⟨later, step⟩ := numbered_processStep numbered call
    exact inductionHypothesis step

/-- The initial process has no parent, whether it was created or set up by hand. -/
theorem numbered_initProcessManager (s : KernelState) (idle : BitVec 64) :
    Numbered (initProcessManager s idle) 1 ∧ (initProcessManager s idle).current = some 0 := by
  have only : ∀ slot : Slot, slot.val < 1 → slot = 0 := fun slot inside =>
    Fin.ext (Nat.lt_one_iff.mp inside)
  -- What the two ways to finish have in common: slot 0 is in use with the pid 1.
  have finish : ∀ next : KernelState, (next.processes 0).identity = ⟨true, 1#32, none⟩ →
      (∀ other ≠ 0, (next.processes other).identity.used = false) → next.nextPid = 2#32 →
      next.current = some 0 → Numbered next 1 := by
    intro next first others nextPid current
    refine ⟨Nat.one_pos, by decide, fun slot => ?_, fun slot inside => ?_, ?_,
      fun slot inside notFirst => absurd (only slot inside) notFirst, nextPid,
      0, current, Nat.one_pos⟩
    · by_cases here : slot = 0
      · rw [here, first]
        exact iff_of_true rfl Nat.one_pos
      · rw [others slot here]
        exact iff_of_false Bool.false_ne_true fun inside => here (only slot inside)
    · rw [only slot inside, first]
      rfl
    · rw [first]
  have unused : ∀ slot, ((resetProcesses s).processes slot).identity.used = false := fun _ => rfl
  have start := freeSlot_resetProcesses s
  rw [initProcessManager]
  rcases createProcess_enrolls (resetProcesses s) idle with ⟨full, -⟩ | ⟨slot, enrolls, only⟩
  · rw [start] at full
    exact absurd full (Option.some_ne_none 0)
  · obtain rfl : slot = 0 := Option.some.inj (enrolls.found.symm.trans start)
    generalize createProcess (resetProcesses s) idle = result at enrolls only ⊢
    obtain ⟨next, child⟩ := result
    have first : (next.processes 0).identity = ⟨true, 1#32, none⟩ := enrolls.identity
    cases child with
    | none =>
      refine ⟨finish _ ?_ (fun other different => ?_) enrolls.nextPid rfl, rfl⟩
      · have parent : (next.processes 0).parent = none := congrArg Identity.parent first
        show (Function.update next.processes 0 _ 0).identity = _
        rw [Function.update_self]
        exact Identity.ext rfl rfl parent
      · show (Function.update next.processes 0 _ other).identity.used = false
        rw [Function.update_of_ne different, enrolls.others other different, unused]
    | some child =>
      obtain rfl := only child rfl
      have renamed := keepsIdentities_modify next 0 (fun proc => { proc with pid := 1#32 })
        (Identity.ext rfl (congrArg Identity.pid first).symm rfl)
      refine ⟨finish _ ((renamed.identity 0).trans first) (fun other different => ?_)
        enrolls.nextPid rfl, rfl⟩
      exact ((congrArg Identity.used (renamed.identity other)).trans
        (congrArg Identity.used (enrolls.others other different))).trans (unused other)

end Numbered

/-! ### Identities stay sound -/

/-- Following parent pointers from a slot leads through falling pids to the initial process. -/
inductive DescendsFrom (s : KernelState) (initial : Slot) : Slot → Prop
  | initial (orphan : (s.processes initial).parent = none) : DescendsFrom s initial initial
  | child {slot parent : Slot} (pointer : (s.processes slot).parent = some parent)
      (used : (s.processes parent).state ≠ .unused)
      (falling : (s.processes parent).pid < (s.processes slot).pid)
      (ancestry : DescendsFrom s initial parent) : DescendsFrom s initial slot

/-- Pids and parents are in order. The next increment of `next_pid` does not wrap. -/
structure SoundIdentities (s : KernelState) (initial : Slot) : Prop where
  nonzero : ∀ slot, (s.processes slot).state ≠ .unused → (s.processes slot).pid ≠ 0#32
  distinct : ∀ first second, (s.processes first).state ≠ .unused →
    (s.processes second).state ≠ .unused →
    (s.processes first).pid = (s.processes second).pid → first = second
  fresh : ∀ slot, (s.processes slot).state ≠ .unused → (s.processes slot).pid < s.nextPid
  unwrapped : s.nextPid.toNat + 1 < 2 ^ 32
  ancestry : ∀ slot, (s.processes slot).state ≠ .unused → DescendsFrom s initial slot
  current : ∃ slot, s.current = some slot ∧ (s.processes slot).state ≠ .unused
  getpid : sysGetpidHandlerReal s ≠ 0#64

theorem descendsFrom_numbered {s : KernelState} {count : Nat} (numbered : Numbered s count)
    (slot : Slot) (inside : slot.val < count) : DescendsFrom s 0 slot := by
  have bounded := numbered.bounded
  induction slot using WellFoundedLT.induction with
  | ind slot inductionHypothesis =>
    by_cases first : slot = 0
    · rw [first]
      exact .initial numbered.root
    · obtain ⟨parent, pointer, below⟩ := numbered.parent slot inside first
      have parentInside : parent.val < count := (Fin.lt_def.mp below).trans inside
      have used := (identity_used _).mp ((numbered.used parent).mpr parentInside)
      have falling : (s.processes parent).pid < (s.processes slot).pid := by
        have lower : (s.processes parent).pid = _ := numbered.pid parent parentInside
        have upper : (s.processes slot).pid = _ := numbered.pid slot inside
        have order := Fin.lt_def.mp below
        rw [lower, upper, BitVec.lt_def, BitVec.toNat_ofNat, BitVec.toNat_ofNat]
        omega
      exact .child pointer used falling (inductionHypothesis parent below parentInside)

theorem soundIdentities_numbered {s : KernelState} {count : Nat} (numbered : Numbered s count) :
    SoundIdentities s 0 := by
  have bounded := numbered.bounded
  have inside : ∀ slot, (s.processes slot).state ≠ .unused → slot.val < count :=
    fun slot used => (numbered.used slot).mp ((identity_used _).mpr used)
  have pid : ∀ slot : Slot, slot.val < count → (s.processes slot).pid.toNat = slot.val + 1 := by
    intro slot low
    rw [show (s.processes slot).pid = _ from numbered.pid slot low, BitVec.toNat_ofNat]
    omega
  have nextPid : s.nextPid.toNat = count + 1 := by
    rw [numbered.nextPid, BitVec.toNat_ofNat]
    omega
  have nonzero : ∀ slot : Slot, slot.val < count → (s.processes slot).pid ≠ 0#32 := by
    intro slot low zero
    have value := pid slot low
    rw [zero] at value
    exact absurd value (Nat.succ_ne_zero slot.val).symm
  obtain ⟨running, current, low⟩ := numbered.current
  refine ⟨fun slot used => nonzero slot (inside slot used),
    fun first second used usedToo same => ?_, fun slot used => ?_, ?_,
    fun slot used => descendsFrom_numbered numbered slot (inside slot used),
    ⟨running, current, (identity_used _).mp ((numbered.used running).mpr low)⟩, ?_⟩
  · have firstPid := pid first (inside first used)
    rw [same, pid second (inside second usedToo)] at firstPid
    exact Fin.ext (Nat.succ.inj firstPid).symm
  · rw [BitVec.lt_def, pid slot (inside slot used), nextPid]
    exact Nat.succ_lt_succ (inside slot used)
  · rw [nextPid]
    omega
  · intro zero
    rw [sysGetpidHandlerReal, getCurrentPid, current] at zero
    simp only [if_neg (nonzero running low)] at zero
    have value := congrArg BitVec.toNat zero
    rw [BitVec.toNat_setWidth, pid running low] at value
    have small := running.isLt
    have vanished : (running.val + 1) % 2 ^ 64 = 0 := value
    omega

/-- Identifiers and parentage stay sound in every state the process manager reaches, whatever the
allocator answers. -/
theorem identities_stay_sound (s : KernelState) (idle : BitVec 64) (calls : List ProcessCall) :
    ∃ initial, (initProcessManager s idle).current = some initial ∧
      SoundIdentities (processRun (initProcessManager s idle) calls) initial := by
  obtain ⟨numbered, current⟩ := numbered_initProcessManager s idle
  obtain ⟨count, later⟩ := numbered_processRun numbered calls
  exact ⟨0, current, soundIdentities_numbered later⟩

end M12
