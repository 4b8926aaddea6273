/-
This file models the kernel's own tests of `kernel/test.c` and proves what their
suite tells.

Of the nine tests seven pass in every state, whatever their assertions find, and
the test of the system calls passes as long as a process is current. So the verdict
is the outcome of one call of `create_process`, and it says nothing else about the
kernel. That call is also what the suite leaves behind: the pages of the memory
test are given back, the process is not, and a kernel that is tested over and over
runs out of places for it.
-/

import M12.SystemCalls
import M12.TestSuite

namespace M12

open ByteMemory

/-! ### Pages taken and given back -/

/-- Pages taken one after the other. -/
def getPages (s : PagingState) : Nat → PagingState × List (BitVec 64)
  | 0 => (s, [])
  | count + 1 =>
    let (s, page) := getPage s
    let (s, pages) := getPages s count
    (s, page :: pages)

/-- Pages given back one after the other. -/
def freePages (s : PagingState) (pages : List (BitVec 64)) : PagingState := pages.foldl freePage s

/-! ### The tests -/

/-- What a test has done: its checks and its code, and the kernel it leaves. -/
structure Tested where
  function : TestFunction
  kernel : KernelState

/-- The value of a condition. -/
def flag (condition : Bool) : BitVec 32 := if condition then 1#32 else 0#32

/-- `__FILE__` in `kernel/test.c`. -/
def testFile : String := "kernel/test.c"

/-- `test_basic_paging` -/
def testBasicPaging (s : KernelState) : Tested :=
  ⟨⟨[.assert (flag (s.kernelPml4 != 0#64)) "pml4 != NULL" testFile 104#32,
    .assert (flag (s.cr3 != 0#64)) "cr3 != 0" testFile 108#32], testPass⟩, s⟩

/-- `test_kernel_mappings` -/
def testKernelMappings (s : KernelState) : Tested :=
  if getPhysicalAddress 0x100000#64 ≠ 0x100000#64 then ⟨⟨[], testFail⟩, s⟩
  else if pml4Index kernelVirtualBase ≠ 0x1FF then ⟨⟨[], testFail⟩, s⟩
  else ⟨⟨[], testPass⟩, s⟩

/-- `test_memory_management`. The assertions do not return, so without a page it goes on at
`NULL`. -/
def testMemoryManagement (s : KernelState) : Tested :=
  let (paging, page1) := getPage s.toPagingState
  let written := { paging with ram := store paging.ram page1 0x12345678#64 }
  let freed := freePage written page1
  let (taken, pages) := getPages freed 3
  ⟨⟨[.assert (flag (page1 != 0#64)) "page1 != NULL" testFile 136#32,
    .assertEq (load 64 written.ram page1) 0x12345678#64 "*test_ptr" "0x12345678" testFile 140#32] ++
      pages.map fun page => .assert (flag (page != 0#64)) "pages[i] != NULL" testFile 147#32,
    testPass⟩, { s with toPagingState := freePages taken pages }⟩

/-- `test_interrupt_system` -/
def testInterruptSystem (s : KernelState) : Tested := ⟨⟨[], testPass⟩, s⟩

/-- `test_syscall_mechanism` -/
def testSyscallMechanism (s : KernelState) : Tested := ⟨⟨[], testPass⟩, s⟩

/-- `test_vga_output`, which sets the colour back. -/
def testVgaOutput (s : KernelState) : Tested := ⟨⟨[], testPass⟩, s⟩

/-- `test_process_management`, with the address of `test_dummy_process`. -/
def testProcessManagement (dummy : BitVec 64) (s : KernelState) : Tested :=
  match createProcess s dummy with
  | (s, none) => ⟨⟨[], testFail⟩, s⟩
  | (s, some slot) =>
    let proc := s.processes slot
    if proc.pid = 0#32 then ⟨⟨[], testFail⟩, s⟩
    else if proc.state ≠ .ready then ⟨⟨[], testFail⟩, s⟩
    else if proc.kernelStack = 0#64 ∨ proc.userStack = 0#64 then ⟨⟨[], testFail⟩, s⟩
    else if proc.context.rip ≠ dummy then ⟨⟨[], testFail⟩, s⟩
    else ⟨⟨[], testPass⟩, s⟩

/-- `test_syscall_functions` -/
def testSyscallFunctions (s : KernelState) : Tested :=
  match s.current with
  | none => ⟨⟨[], testSkip⟩, s⟩
  | some _ =>
    if (sysGetpidHandlerReal s).setWidth 32 = 0#32 then ⟨⟨[], testFail⟩, s⟩
    else ⟨⟨[], testPass⟩, s⟩

/-- `test_context_switching`, which switches to no context. -/
def testContextSwitching (s : KernelState) : Tested := ⟨⟨[], testPass⟩, s⟩

/-! ### The suite -/

/-- A test of the kernel as `init_test_suite` registers it. -/
structure KernelTest where
  name : String
  function : KernelState → Tested
  description : String

/-- The tests `init_test_suite` registers. -/
def kernelTests (dummy : BitVec 64) : List KernelTest :=
  [⟨"Basic Paging", testBasicPaging, "Test basic paging functionality"⟩,
    ⟨"Kernel Mappings", testKernelMappings, "Test kernel virtual address mappings"⟩,
    ⟨"Memory Management", testMemoryManagement, "Test physical memory allocation"⟩,
    ⟨"Interrupt System", testInterruptSystem, "Test interrupt handling"⟩,
    ⟨"Syscall Mechanism", testSyscallMechanism, "Test system call infrastructure"⟩,
    ⟨"VGA Output", testVgaOutput, "Test VGA text output"⟩,
    ⟨"Process Management", testProcessManagement dummy,
      "Test process creation and management"⟩,
    ⟨"Syscall Functions", testSyscallFunctions, "Test system call implementations"⟩,
    ⟨"Context Switching", testContextSwitching, "Test process context switching"⟩]

/-- The tests run one after the other: what each does in the kernel the one before it has left. -/
def perform : List KernelTest → KernelState → List TestCase × KernelState
  | [], s => ([], s)
  | test :: rest, s =>
    let tested := test.function s
    let (cases, s) := perform rest tested.kernel
    (⟨test.name, tested.function, test.description⟩ :: cases, s)

/-- `init_test_suite` and `run_all_tests`: the counters, what the suite prints, and the kernel. -/
def runSuite (dummy : BitVec 64) (suite : TestSuite) (s : KernelState) :
    (TestSuite × List Message) × KernelState :=
  let (cases, after) := perform (kernelTests dummy) s
  ((TestSuite.initTestSuite cases suite).runAllTests, after)

/-- The suite printed that all tests have passed. -/
def AllPassed (report : TestSuite × List Message) : Prop := TestSuite.allTestsPassed ∈ report.2

instance (report : TestSuite × List Message) : Decidable (AllPassed report) :=
  inferInstanceAs (Decidable (_ ∈ _))

/-! ### The memory test -/

theorem poolStep_free_comm (pool : IndexPool) (first second : BitVec 64) :
    poolStep (poolStep pool (.free first)) (.free second) =
      poolStep (poolStep pool (.free second)) (.free first) := by
  simp only [poolStep]
  split_ifs
  · exact pool.give_comm _ _
  · rfl
  · rfl
  · rfl

/-- A page may as well be given back last. -/
theorem foldl_poolStep_free (pages : List (BitVec 64)) (pool : IndexPool) (page : BitVec 64) :
    (pages.map MemoryCall.free).foldl poolStep (poolStep pool (.free page)) =
      poolStep ((pages.map MemoryCall.free).foldl poolStep pool) (.free page) := by
  induction pages generalizing pool with
  | nil => rfl
  | cons other rest inductionHypothesis =>
    rw [List.map_cons, List.foldl_cons, List.foldl_cons, poolStep_free_comm, inductionHypothesis]

theorem freePages_toMemoryState (s : PagingState) (pages : List (BitVec 64)) :
    (freePages s pages).toMemoryState = memoryRun s.toMemoryState (pages.map .free) := by
  induction pages generalizing s with
  | nil => rfl
  | cons page rest inductionHypothesis =>
    rw [freePages, List.foldl_cons, ← freePages, inductionHypothesis]
    rfl

theorem managed_getPage {s : PagingState} (managed : Managed s.toMemoryState) :
    Managed (getPage s).1.toMemoryState := managed_memoryStep managed .get

/-- Giving back what was taken restores the pool, also when nothing was. -/
theorem poolStep_getPage {s : PagingState} (managed : Managed s.toMemoryState) :
    poolStep (pool (getPage s).1.toMemoryState) (.free (getPage s).2) =
      pool s.toMemoryState := by
  rcases getPage_cases managed with ⟨i, least, result⟩ | ⟨-, result⟩
  · have inside : i < s.totalPages.toNat := IndexPool.lt_total least.1
    have place := toNat_pageAddress managed inside
    rw [result]
    simp only [poolStep]
    rw [if_pos (by omega), place, show (0x100000 + 4096 * i - 0x100000) / 4096 = i by omega]
    refine IndexPool.ext (IndexPool.total_give _ _) ?_
    rw [IndexPool.give_of_lt inside, free_claimed managed inside, Finset.insert_erase least.1]
  · rw [result]
    simp only [poolStep]
    rw [if_neg (by decide)]

theorem managed_getPages {s : PagingState} (managed : Managed s.toMemoryState) (count : Nat) :
    Managed (getPages s count).1.toMemoryState := by
  induction count generalizing s with
  | zero => exact managed
  | succ count inductionHypothesis => exact inductionHypothesis (managed_getPage managed)

/-- Any number of pages taken and given back in the order they were taken. -/
theorem pool_freePages_getPages {s : PagingState} (managed : Managed s.toMemoryState)
    (count : Nat) :
    pool (freePages (getPages s count).1 (getPages s count).2).toMemoryState =
      pool s.toMemoryState := by
  rw [freePages_toMemoryState, pool_memoryRun (managed_getPages managed count)]
  induction count generalizing s with
  | zero => rfl
  | succ count inductionHypothesis =>
    have rest := inductionHypothesis (managed_getPage managed)
    show ((getPages (getPage s).1 count).2.map MemoryCall.free).foldl poolStep
      (poolStep (pool (getPages (getPage s).1 count).1.toMemoryState) (.free (getPage s).2)) = _
    rw [foldl_poolStep_free, rest, poolStep_getPage managed]

/-- The word the test writes lies in the page it got or at address zero. -/
theorem store_outside_bitmap {s : PagingState} (managed : Managed s.toMemoryState)
    (ram : Memory) (value : BitVec 64) {x : BitVec 64} (low : 0x60000 ≤ x.toNat)
    (high : x.toNat < 0x80000) : store ram (getPage s).2 value x = ram x := by
  refine store_of_not_within ram value fun close => ?_
  rcases getPage_cases managed with ⟨i, least, result⟩ | ⟨-, result⟩
  · have inside : i < s.totalPages.toNat := IndexPool.lt_total least.1
    have few := totalPages_lt managed
    have place := toNat_pageAddress managed inside
    rw [result, BitVec.toNat_sub] at close
    simp only [place] at close
    omega
  · rw [result, BitVec.sub_zero] at close
    omega

/-- The memory test gives everything back. -/
theorem testMemoryManagement_restores {s : KernelState} (managed : Managed s.toMemoryState) :
    Managed (testMemoryManagement s).kernel.toMemoryState ∧
      pool (testMemoryManagement s).kernel.toMemoryState = pool s.toMemoryState := by
  have managedFirst := managed_getPage managed
  have kept : ∀ x : BitVec 64, 0x60000 ≤ x.toNat → x.toNat < 0x80000 →
      store (getPage s.toPagingState).1.ram (getPage s.toPagingState).2 0x12345678#64 x =
        (getPage s.toPagingState).1.ram x := fun x => store_outside_bitmap managed _ _
  have managedWritten := managed_congr managedFirst kept
  have poolWritten := pool_congr managedFirst kept
  have managedFreed : Managed (freePage { (getPage s.toPagingState).1 with
      ram := store (getPage s.toPagingState).1.ram (getPage s.toPagingState).2 0x12345678#64 }
      (getPage s.toPagingState).2).toMemoryState :=
    managed_memoryStep managedWritten (.free (getPage s.toPagingState).2)
  have poolFreed := pool_memoryStep managedWritten (.free (getPage s.toPagingState).2)
  rw [poolWritten, poolStep_getPage managed] at poolFreed
  constructor
  · show Managed (freePages _ _).toMemoryState
    rw [freePages_toMemoryState]
    exact managed_memoryRun (managed_getPages managedFreed 3) _
  · exact (pool_freePages_getPages managedFreed 3).trans poolFreed

/-- The memory test reaches the allocator and the memory only. -/
theorem testMemoryManagement_kernel (s : KernelState) :
    ∃ paging, (testMemoryManagement s).kernel = { s with toPagingState := paging } := ⟨_, rfl⟩

/-! ### What the suite does -/

theorem runSuite_report (dummy : BitVec 64) (suite : TestSuite) (s : KernelState) :
    (runSuite dummy suite s).1 =
      (TestSuite.initTestSuite (perform (kernelTests dummy) s).1 suite).runAllTests := by
  rw [runSuite]

/-- The kernel the suite leaves. -/
theorem runSuite_kernel (dummy : BitVec 64) (suite : TestSuite) (s : KernelState) :
    (runSuite dummy suite s).2 =
      (testProcessManagement dummy (testMemoryManagement s).kernel).kernel := by
  have kept : ∀ s : KernelState, (testSyscallFunctions s).kernel = s := by
    intro s
    rw [testSyscallFunctions]
    split
    · rfl
    · split
      · rfl
      · rfl
  show (testSyscallFunctions (testProcessManagement dummy
    (testMemoryManagement (testKernelMappings s).kernel).kernel).kernel).kernel = _
  rw [kept]
  rfl

section Represents

variable {t : TaskSystem} {s : SystemState} (represents : Represents t s)
include represents

/-- The memory test cannot be seen. -/
theorem Represents.testMemoryManagement :
    Represents t { s with kernel := (testMemoryManagement s.kernel).kernel } := by
  have managed := (testMemoryManagement_restores represents.managed).1
  obtain ⟨paging, kernel⟩ := testMemoryManagement_kernel s.kernel
  rw [kernel] at managed ⊢
  exact represents.unseen managed ⟨fun _ => rfl, rfl⟩ (fun _ => rfl) rfl represents.current
    represents.inside

theorem Represents.twoFree_testMemoryManagement :
    TwoFree (M12.testMemoryManagement s.kernel).kernel.toMemoryState ↔
      TwoFree s.kernel.toMemoryState := by
  rw [TwoFree, TwoFree, (testMemoryManagement_restores represents.managed).2]

/-- The process test passes exactly if a process is created, and it leaves the process. -/
theorem Represents.testProcessManagement (dummy : BitVec 64) :
    Represents (t.spawn (decide (TwoFree s.kernel.toMemoryState))).1
        { s with kernel := (testProcessManagement dummy s.kernel).kernel } ∧
      (M12.testProcessManagement dummy s.kernel).function.result =
        if t.tasks.length < 64 ∧ TwoFree s.kernel.toMemoryState then testPass else testFail := by
  obtain ⟨spawned, returned⟩ := represents.create dummy
  have room := represents.full
  rw [M12.testProcessManagement]
  rcases createProcess_cases represents.managed dummy with ⟨full, result⟩ |
    ⟨slot, next, i, j, found, least, leastJ, result, created⟩ |
    ⟨slot, next, found, few, result, stranded⟩
  · rw [result] at spawned ⊢
    exact ⟨spawned, (if_neg fun both => room full both.1).symm⟩
  · rw [result] at spawned ⊢
    have place := represents.numbered.freeSlot found
    have length : t.tasks.length < 64 := place ▸ slot.isLt
    have enough : TwoFree s.kernel.toMemoryState := twoFree_of_least least.1 leastJ.1
    have inside := IndexPool.lt_total least.1
    have insideJ := IndexPool.lt_total (Finset.mem_of_mem_erase leastJ.1)
    have pid : s.kernel.nextPid ≠ 0#32 := by
      rw [represents.numbered.nextPid]
      intro zero
      have number := congrArg BitVec.toNat zero
      rw [BitVec.toNat_ofNat, BitVec.toNat_ofNat] at number
      omega
    rw [if_pos ⟨length, enough⟩]
    simp only [created.process]
    rw [if_neg pid, if_neg (by decide), if_neg, if_neg]
    · exact ⟨spawned, rfl⟩
    · exact fun other => other rfl
    · rintro (kernelStack | userStack)
      · exact pageAddress_ne_zero represents.managed inside kernelStack
      · exact pageAddress_ne_zero represents.managed insideJ userStack
  · rw [result] at spawned ⊢
    exact ⟨spawned, (if_neg fun both => Nat.not_le.mpr few both.2).symm⟩

/-- The test of the system calls passes, since a process is current. -/
theorem Represents.testSyscallFunctions :
    (testSyscallFunctions s.kernel).function.result = testPass := by
  obtain ⟨running, here, -⟩ := represents.current
  have inside := represents.inside
  have bounded := represents.numbered.bounded
  rw [M12.testSyscallFunctions, here]
  simp only
  rw [represents.getpid, if_neg]
  intro zero
  have number := congrArg BitVec.toNat zero
  rw [BitVec.toNat_setWidth, BitVec.toNat_ofNat, BitVec.toNat_ofNat] at number
  omega

/-- There is a place for a task exactly if a slot is free. -/
theorem Represents.room_iff : t.tasks.length < 64 ↔ freeSlot s.kernel ≠ none := by
  constructor
  · exact fun room full => represents.full full room
  · intro some
    obtain ⟨slot, found⟩ := Option.ne_none_iff_exists'.mp some
    exact represents.numbered.freeSlot found ▸ slot.isLt

/-- The codes of the tests: all but one pass. -/
theorem Represents.results (dummy : BitVec 64) :
    (perform (kernelTests dummy) s.kernel).1.map (fun test => test.function.result) =
      [testPass, testPass, testPass, testPass, testPass, testPass,
        if t.tasks.length < 64 ∧ TwoFree s.kernel.toMemoryState then testPass else testFail,
        testPass, testPass] := by
  have tested := represents.testMemoryManagement
  obtain ⟨spawned, outcome⟩ := tested.testProcessManagement dummy
  have calls := spawned.testSyscallFunctions
  simp only [represents.twoFree_testMemoryManagement] at outcome
  have mappings : testKernelMappings s.kernel = ⟨⟨[], testPass⟩, s.kernel⟩ := by
    rw [testKernelMappings, if_neg (by decide), if_neg (by decide)]
  rw [← outcome]
  show [testPass, (testKernelMappings s.kernel).function.result, testPass, testPass, testPass,
    testPass, _, (M12.testSyscallFunctions (M12.testProcessManagement dummy
      (M12.testMemoryManagement
        (testKernelMappings s.kernel).kernel).kernel).kernel).function.result,
    testPass] = _
  rw [mappings]
  exact congrArg (fun last => [testPass, testPass, testPass, testPass, testPass, testPass, _, last,
    testPass]) calls

/-- What the suite counts and leaves behind. The memory test, which runs on the kernel the suite is
given, puts back every page it has taken. -/
structure SuiteOutcome (t : TaskSystem) (s : SystemState) (created : Prop) [Decidable created]
    (report : TestSuite × List Message) (after : KernelState) : Prop where
  verdict : AllPassed report ↔ created
  total : report.1.testCount.toNat = 9
  passed : report.1.testsPassed.toNat = if created then 9 else 8
  failed : report.1.testsFailed.toNat = if created then 0 else 1
  skipped : report.1.testsSkipped.toNat = 0
  restored : pool (testMemoryManagement (testKernelMappings s.kernel).kernel).kernel.toMemoryState =
    pool s.kernel.toMemoryState
  left : Represents (t.spawn (decide (TwoFree s.kernel.toMemoryState))).1 { s with kernel := after }

omit represents in
theorem returning_eq_count (code : BitVec 32) (tests : List TestCase) :
    TestSuite.returning code tests =
      (tests.map fun test => test.function.result).countP fun result => result = code := by
  rw [TestSuite.returning, List.countP_map]
  rfl

theorem Represents.suiteOutcome (dummy : BitVec 64) (suite : TestSuite) :
    SuiteOutcome t s (t.tasks.length < 64 ∧ TwoFree s.kernel.toMemoryState)
      (runSuite dummy suite s.kernel).1 (runSuite dummy suite s.kernel).2 := by
  have results := represents.results dummy
  have length : (perform (kernelTests dummy) s.kernel).1.length = 9 := by
    have same := congrArg List.length results
    rwa [List.length_map] at same
  have totals := TestSuite.totals_runAllTests suite (perform (kernelTests dummy) s.kernel).1
    (by omega)
  have verdict := (TestSuite.allTestsPassed_mem_runAllTests _).trans totals.failed_iff
  have codes : (∀ test ∈ (perform (kernelTests dummy) s.kernel).1,
      test.function.result ≠ testFail) ↔
        ∀ result ∈ (perform (kernelTests dummy) s.kernel).1.map (fun test => test.function.result),
          result ≠ testFail := by
    rw [List.forall_mem_map]
  have counted := fun code => returning_eq_count code (perform (kernelTests dummy) s.kernel).1
  have left := (represents.testMemoryManagement.testProcessManagement dummy).1
  simp only [represents.twoFree_testMemoryManagement] at left
  simp only [results] at codes counted
  rw [← runSuite_report] at totals verdict
  refine ⟨verdict.trans (codes.trans ?_), totals.all.trans length,
    totals.passed.trans ((counted _).trans ?_), totals.failed.trans ((counted _).trans ?_),
    totals.skipped.trans ((counted _).trans ?_),
    (testMemoryManagement_restores represents.managed).2, ?_⟩
  · by_cases created : t.tasks.length < 64 ∧ TwoFree s.kernel.toMemoryState
    · rw [if_pos created]
      exact iff_of_true (by simp [testPass, testFail]) created
    · rw [if_neg created]
      exact iff_of_false (by simp [testPass, testFail]) created
  · split_ifs
    · decide
    · decide
  · split_ifs
    · decide
    · decide
  · split_ifs
    · decide
    · decide
  · rw [runSuite_kernel]
    exact left

end Represents

/-- What the report of the suite tells. In every state that system calls, creations, switches,
allocations and frees reach, the suite prints that all tests have passed exactly if a slot and two
pages were free: eight tests pass and none is skipped in any case, and the ninth is one call of
`create_process`. The pages of the memory test are all given back. For the tasks the whole suite is
this call, and the process it creates stays. -/
theorem suite_is_one_creation (s : KernelState) (managed : Managed s.toMemoryState)
    (idle : BitVec 64) (events : List SystemEvent) (dummy : BitVec 64) (suite : TestSuite) :
    let state := (SystemState.run ⟨initProcessManager s idle, []⟩ events).1
    ∃ t, Represents t state ∧
      SuiteOutcome t state (freeSlot state.kernel ≠ none ∧ TwoFree state.kernel.toMemoryState)
        (runSuite dummy suite state.kernel).1 (runSuite dummy suite state.kernel).2 := by
  intro state
  have represents := ((represents_started managed idle).run events).1
  have outcome := represents.suiteOutcome dummy suite
  refine ⟨_, represents, ?_⟩
  simp only [represents.room_iff] at outcome
  exact outcome

/-- The blank machine. -/
theorem suite_is_one_creation_blank :
    ∃ t, SuiteOutcome t ⟨initProcessManager blankKernel 0x11000#64, []⟩
      (freeSlot (initProcessManager blankKernel 0x11000#64) ≠ none ∧
        TwoFree (initProcessManager blankKernel 0x11000#64).toMemoryState)
      (runSuite 0x12000#64 TestSuite.blank (initProcessManager blankKernel 0x11000#64)).1
      (runSuite 0x12000#64 TestSuite.blank (initProcessManager blankKernel 0x11000#64)).2 := by
  obtain ⟨t, -, outcome⟩ := suite_is_one_creation blankKernel managed_blankKernel.1 0x11000#64 []
    0x12000#64 TestSuite.blank
  exact ⟨t, outcome⟩

/-! ### The suite over and over -/

/-- The reports of a suite that is run again and again, each time after further events. -/
def reports (dummy : BitVec 64) (suite : TestSuite) (s : SystemState) :
    List (List SystemEvent) → List (TestSuite × List Message)
  | [] => []
  | events :: rest =>
    let before := (s.run events).1
    let tested := runSuite dummy suite before.kernel
    tested.1 :: reports dummy tested.1.1 { before with kernel := tested.2 } rest

namespace TaskSystem

theorem length_le_run (t : TaskSystem) (events : List (SystemEvent × Bool)) :
    t.tasks.length ≤ (t.run events).1.tasks.length := by
  induction events generalizing t with
  | nil => exact Nat.le_refl _
  | cons event rest inductionHypothesis =>
    exact (t.grown_step event.2 event.1).kept.trans (inductionHypothesis _)

theorem length_spawn (t : TaskSystem) (enough : Bool) :
    (t.spawn enough).1.tasks.length = t.tasks.length + if t.tasks.length < 64 then 1 else 0 := by
  rw [spawn]
  by_cases room : t.tasks.length < 64
  · rw [if_pos room, if_pos room]
    exact List.length_append
  · rw [if_neg room, if_neg room]
    rfl

end TaskSystem

/-- Each report that all tests have passed takes a place. -/
theorem Represents.countP_reports {t : TaskSystem} {s : SystemState}
    (represents : Represents t s) (dummy : BitVec 64) (suite : TestSuite)
    (rounds : List (List SystemEvent)) :
    t.tasks.length + (reports dummy suite s rounds).countP (fun report => AllPassed report) ≤
      64 := by
  induction rounds generalizing t s suite with
  | nil => exact represents.numbered.bounded
  | cons events rest inductionHypothesis =>
    have longer := t.length_le_run (events.zip (s.pagesFree events))
    have reached := (represents.run events).1
    have outcome := reached.suiteOutcome dummy suite
    have length := TaskSystem.length_spawn
      (t.run (events.zip (s.pagesFree events))).1
      (decide (TwoFree (s.run events).1.kernel.toMemoryState))
    have later := inductionHypothesis outcome.left
      (runSuite dummy suite (s.run events).1.kernel).1.1
    rw [reports, List.countP_cons]
    simp only [decide_eq_true_eq, outcome.verdict]
    split_ifs with created
    · rw [if_pos created.1] at length
      omega
    · omega

/-- A kernel cannot be tested for ever. However often the suite is run, and whatever system calls,
creations, switches, allocations and frees lie between two of its runs, it prints at most 63 times
that all tests have passed. -/
theorem passing_reports_run_out (s : KernelState) (managed : Managed s.toMemoryState)
    (idle : BitVec 64) (dummy : BitVec 64) (suite : TestSuite)
    (rounds : List (List SystemEvent)) :
    (reports dummy suite ⟨initProcessManager s idle, []⟩ rounds).countP
      (fun report => AllPassed report) ≤ 63 := by
  have bounded := (represents_started managed idle).countP_reports dummy suite rounds
  have one : (TaskSystem.started (decide (TwoFree s.toMemoryState))).tasks.length = 1 := rfl
  omega

/-- The blank machine, tested a hundred times. -/
theorem passing_reports_run_out_blank :
    (reports 0x12000#64 TestSuite.blank ⟨initProcessManager blankKernel 0x11000#64, []⟩
      (List.replicate 100 oneProgram)).countP (fun report => AllPassed report) ≤ 63 :=
  passing_reports_run_out blankKernel managed_blankKernel.1 0x11000#64 0x12000#64 TestSuite.blank
    (List.replicate 100 oneProgram)

end M12
