/-
This file models the test suite of `kernel/test.c` and settles when its report is honest.

A test makes its checks and returns a code. The suite counts the codes, and its
verdict reads the count of `TEST_FAIL` alone: a check that fails prints a message
and leaves the counters as they are, and a code that is none of the three is counted
nowhere.
-/

import M12.Printing

namespace M12

open Console

/-! ### Messages -/

/-- An argument of a printed format. -/
inductive MessageArgument where
  | str (s : String)
  | uint32 (n : BitVec 32)
  | uint64 (n : BitVec 64)
  deriving DecidableEq

/-- A call of the suite that prints. -/
inductive Message where
  | kprintf (format : String) (arguments : List MessageArgument)
  | kprintcolor (new : BitVec 32) (format : String) (arguments : List MessageArgument)
  deriving DecidableEq

/-- The format a message prints. -/
def Message.format : Message → String
  | kprintf format _ => format
  | kprintcolor _ format _ => format

/-- `LIGHT_CYAN`. -/
def Console.lightCyan : BitVec 32 := 0xB#32
/-- `LIGHT_YELLOW`. -/
def Console.lightYellow : BitVec 32 := 0xE#32

/-! ### Tests -/

/-- `TEST_PASS`. -/
def testPass : BitVec 32 := 0#32
/-- `TEST_FAIL`. -/
def testFail : BitVec 32 := 1#32
/-- `TEST_SKIP`. -/
def testSkip : BitVec 32 := 2#32

/-- A check of a test, with the values, the texts and the place its macro passes on. -/
inductive Check where
  | assert (condition : BitVec 32) (expr file : String) (line : BitVec 32)
  | assertEq (a b : BitVec 64) (aStr bStr file : String) (line : BitVec 32)
  | assertNeq (a b : BitVec 64) (aStr bStr file : String) (line : BitVec 32)

namespace Check

/-- The check does not find what it asserts. -/
def Failed : Check → Prop
  | assert condition _ _ _ => condition = 0#32
  | assertEq a b _ _ _ _ => a ≠ b
  | assertNeq a b _ _ _ _ => a = b

instance : DecidablePred Failed
  | assert _ _ _ _ => inferInstanceAs (Decidable (_ = _))
  | assertEq _ _ _ _ _ _ => inferInstanceAs (Decidable (_ ≠ _))
  | assertNeq _ _ _ _ _ _ => inferInstanceAs (Decidable (_ = _))

/-- `_assert`, `_assert_eq` and `_assert_neq`. -/
def run : Check → List Message
  | assert condition expr file line =>
    if condition = 0#32 then
      [.kprintcolor lightRed "Assertion failed: %s at %s:%d" [.str expr, .str file, .uint32 line]]
    else []
  | assertEq a b aStr bStr file line =>
    if a ≠ b then
      [.kprintcolor lightRed "Assertion failed: %s (0x%x) == %s (0x%x) at %s:%d"
        [.str aStr, .uint64 a, .str bStr, .uint64 b, .str file, .uint32 line]]
    else []
  | assertNeq a b aStr bStr file line =>
    if a = b then
      [.kprintcolor lightRed "Assertion failed: %s (0x%x) != %s (0x%x) at %s:%d"
        [.str aStr, .uint64 a, .str bStr, .uint64 b, .str file, .uint32 line]]
    else []

end Check

/-- What a function of the suite does when it is run: its checks, and the code it returns. -/
structure TestFunction where
  checks : List Check
  result : BitVec 32

/-- `_run_test`, which does not read the name and the place it is given. -/
def runTest (testFunc : TestFunction) : List Message × BitVec 32 :=
  (testFunc.checks.flatMap Check.run, testFunc.result)

/-- `test_case_t`. -/
structure TestCase where
  name : String
  function : TestFunction
  description : String

/-! ### The suite -/

/-- `test_cases` and the four counters. The table has 50 places. -/
structure TestSuite where
  testCases : Nat → TestCase
  testCount : BitVec 32
  testsPassed : BitVec 32
  testsFailed : BitVec 32
  testsSkipped : BitVec 32
  testCount_le : testCount.toNat ≤ 50

theorem toNat_succ_of_room {count : BitVec 32} (room : count < 50#32) :
    (count + 1#32).toNat = count.toNat + 1 := by
  rw [BitVec.lt_def, BitVec.toNat_ofNat] at room
  rw [BitVec.toNat_add, BitVec.toNat_ofNat]
  omega

theorem succ_le_of_room {count : BitVec 32} (room : count < 50#32) :
    (count + 1#32).toNat ≤ 50 := by
  rw [toNat_succ_of_room room]
  exact room

namespace TestSuite

/-- `add_test`. -/
def addTest (s : TestSuite) (name : String) (function : TestFunction) (description : String) :
    TestSuite :=
  if room : s.testCount < 50#32 then
    { s with
      testCases := Function.update s.testCases s.testCount.toNat ⟨name, function, description⟩
      testCount := s.testCount + 1#32
      testCount_le := succ_le_of_room room }
  else s

/-- The counters as `init_test_suite` resets them. -/
def resetCounters (s : TestSuite) : TestSuite :=
  { s with
    testCount := 0#32
    testsPassed := 0#32
    testsFailed := 0#32
    testsSkipped := 0#32
    testCount_le := Nat.zero_le 50 }

/-- `init_test_suite`, for any tests in place of those of the kernel. -/
def initTestSuite (tests : List TestCase) (s : TestSuite) : TestSuite :=
  tests.foldl (fun s test => s.addTest test.name test.function test.description) s.resetCounters

/-- The `switch` of `run_all_tests`. -/
def count (s : TestSuite) (result : BitVec 32) : TestSuite × List Message :=
  if result = testPass then
    ({ s with testsPassed := s.testsPassed + 1#32 }, [.kprintcolor lightGreen "PASS" []])
  else if result = testFail then
    ({ s with testsFailed := s.testsFailed + 1#32 }, [.kprintcolor lightRed "FAIL" []])
  else if result = testSkip then
    ({ s with testsSkipped := s.testsSkipped + 1#32 }, [.kprintcolor lightYellow "SKIP" []])
  else (s, [])

/-- The body of the loop of `run_all_tests`. -/
def testBody (s : TestSuite) (i : BitVec 32) : TestSuite × List Message :=
  let test := s.testCases i.toNat
  let (checked, result) := runTest test.function
  let (counted, outcome) := s.count result
  (counted,
    .kprintf "[%d/%d] %s: " [.uint32 (i + 1#32), .uint32 s.testCount, .str test.name] ::
      checked ++ outcome ++ [.kprintf " - %s\n" [.str test.description]])

/-- The first passes of the loop of `run_all_tests`. -/
def testLoop (s : TestSuite) : Nat → TestSuite × List Message
  | 0 => (s, [])
  | n + 1 =>
    let (s, before) := s.testLoop n
    let (s, last) := s.testBody (BitVec.ofNat 32 n)
    (s, before ++ last)

/-- The verdict of a suite in which no test failed. -/
def allTestsPassed : Message :=
  .kprintcolor lightGreen "ALL TESTS PASSED! System is stable.\n" []

/-- The verdict of a suite in which a test failed. -/
def someTestsFailed : Message :=
  .kprintcolor lightRed "Some tests failed. System needs debugging.\n" []

/-- `print_test_results`. -/
def printTestResults (s : TestSuite) : List Message :=
  [.kprintf "\n" [],
    .kprintcolor lightCyan "=== Test Results ===\n" [],
    .kprintf "Total Tests:  %d\n" [.uint32 s.testCount],
    .kprintcolor lightGreen "Passed:       %d\n" [.uint32 s.testsPassed],
    .kprintcolor lightRed "Failed:       %d\n" [.uint32 s.testsFailed],
    .kprintcolor lightYellow "Skipped:      %d\n" [.uint32 s.testsSkipped],
    .kprintf "\n" [],
    if s.testsFailed = 0#32 then allTestsPassed else someTestsFailed,
    .kprintcolor lightCyan "================================\n" []]

/-- `run_all_tests`. -/
def runAllTests (s : TestSuite) : TestSuite × List Message :=
  let (tested, printed) := s.testLoop s.testCount.toNat
  (tested,
    [.kprintf "\n" [],
      .kprintcolor lightCyan "=== Starting M12 OS Test Suite ===\n" [],
      .kprintf "Running %d tests...\n\n" [.uint32 s.testCount]] ++
    printed ++ tested.printTestResults)

/-! ### Registering -/

/-- The tests the suite holds, in their order. -/
def registered (s : TestSuite) : List TestCase :=
  (List.range s.testCount.toNat).map s.testCases

theorem length_registered (s : TestSuite) : s.registered.length = s.testCount.toNat := by
  rw [registered, List.length_map, List.length_range]

theorem registered_addTest (s : TestSuite) (test : TestCase) :
    (s.addTest test.name test.function test.description).registered =
      (s.registered ++ [test]).take 50 := by
  rw [addTest]
  split
  next room =>
    have added : (List.range s.testCount.toNat).map
        (Function.update s.testCases s.testCount.toNat test) = s.registered := by
      refine List.map_congr_left fun i before => ?_
      exact Function.update_of_ne (List.mem_range.mp before).ne _ _
    rw [registered, toNat_succ_of_room room, List.range_succ, List.map_append, added,
      List.map_singleton, List.take_of_length_le]
    · exact congrArg (fun last => s.registered ++ [last]) (Function.update_self _ _ _)
    · rw [List.length_append, length_registered]
      exact room
  next full =>
    have many : 50 ≤ s.registered.length := by
      rw [length_registered]
      exact Nat.le_of_not_lt full
    have few : s.registered.length ≤ 50 := by
      rw [length_registered]
      exact s.testCount_le
    rw [List.take_append_of_le_length many, List.take_of_length_le few]

/-- Cutting a list before more is appended to it does not change what a cut leaves. -/
theorem take_append_of_take {α : Type} (front back : List α) (n : Nat) :
    (front.take n ++ back).take n = (front ++ back).take n := by
  rcases Nat.le_total front.length n with short | long
  · rw [List.take_of_length_le short]
  · have cut : n ≤ (front.take n).length := by
      rw [List.length_take, Nat.min_eq_left long]
    rw [List.take_append_of_le_length cut, List.take_append_of_le_length long, List.take_take,
      Nat.min_self]

/-- The suite holds the tests that were added to it, up to its 50 places. -/
theorem registered_foldl_addTest (s : TestSuite) (tests : List TestCase) :
    (tests.foldl (fun s test => s.addTest test.name test.function test.description) s).registered =
      (s.registered ++ tests).take 50 := by
  induction tests generalizing s with
  | nil =>
    rw [List.foldl_nil, List.append_nil, List.take_of_length_le]
    rw [length_registered]
    exact s.testCount_le
  | cons test tests ih =>
    rw [List.foldl_cons, ih, registered_addTest, take_append_of_take, List.append_assoc,
      List.singleton_append]

theorem registered_initTestSuite (tests : List TestCase) (s : TestSuite) :
    (initTestSuite tests s).registered = tests.take 50 :=
  registered_foldl_addTest s.resetCounters tests

/-- The three counters of the outcomes. -/
def counters (s : TestSuite) : BitVec 32 × BitVec 32 × BitVec 32 :=
  (s.testsPassed, s.testsFailed, s.testsSkipped)

theorem counters_addTest (s : TestSuite) (name : String) (function : TestFunction)
    (description : String) : (s.addTest name function description).counters = s.counters := by
  rw [addTest]
  split
  next => rfl
  next => rfl

theorem counters_foldl_addTest (s : TestSuite) (tests : List TestCase) :
    (tests.foldl (fun s test => s.addTest test.name test.function test.description) s).counters =
      s.counters := by
  induction tests generalizing s with
  | nil => rfl
  | cons test tests ih => rw [List.foldl_cons, ih, counters_addTest]

/-- No outcome is counted when the tests are registered. -/
theorem counters_initTestSuite (tests : List TestCase) (s : TestSuite) :
    (initTestSuite tests s).counters = (0#32, 0#32, 0#32) :=
  counters_foldl_addTest s.resetCounters tests

/-! ### Counting -/

/-- The number of the tests that return a code. -/
def returning (code : BitVec 32) (tests : List TestCase) : Nat :=
  tests.countP fun test => test.function.result = code

theorem returning_concat (code : BitVec 32) (tests : List TestCase) (test : TestCase) :
    returning code (tests ++ [test]) =
      returning code tests + if test.function.result = code then 1 else 0 := by
  rw [returning, List.countP_append, List.countP_singleton, returning]
  simp only [decide_eq_true_eq]

theorem returning_le (code : BitVec 32) (tests : List TestCase) :
    returning code tests ≤ tests.length :=
  List.countP_le_length

/-- The counters of a suite after some tests. -/
structure Counted (before after : TestSuite) (tests : List TestCase) : Prop where
  testCases : after.testCases = before.testCases
  testCount : after.testCount = before.testCount
  passed : after.testsPassed = before.testsPassed + BitVec.ofNat 32 (returning testPass tests)
  failed : after.testsFailed = before.testsFailed + BitVec.ofNat 32 (returning testFail tests)
  skipped : after.testsSkipped = before.testsSkipped + BitVec.ofNat 32 (returning testSkip tests)

theorem Counted.none (s : TestSuite) : s.Counted s [] :=
  ⟨rfl, rfl, (BitVec.add_zero _).symm, (BitVec.add_zero _).symm, (BitVec.add_zero _).symm⟩

/-- Each of the three counters counts its own code, and no other code is counted. -/
theorem fst_count (s : TestSuite) (result : BitVec 32) :
    (s.count result).1 =
      { s with
        testsPassed := s.testsPassed + BitVec.ofNat 32 (if result = testPass then 1 else 0)
        testsFailed := s.testsFailed + BitVec.ofNat 32 (if result = testFail then 1 else 0)
        testsSkipped :=
          s.testsSkipped + BitVec.ofNat 32 (if result = testSkip then 1 else 0) } := by
  rw [count]
  split
  next pass =>
    rw [if_neg fun fail => absurd (pass.symm.trans fail) (by decide),
      if_neg fun skip => absurd (pass.symm.trans skip) (by decide), BitVec.add_zero,
      BitVec.add_zero]
  next =>
    split
    next fail =>
      rw [if_neg fun skip => absurd (fail.symm.trans skip) (by decide), BitVec.add_zero,
        BitVec.add_zero]
    next =>
      split
      next => rw [BitVec.add_zero, BitVec.add_zero]
      next => rw [BitVec.add_zero, BitVec.add_zero, BitVec.add_zero]

/-- One more test is counted by its code. -/
theorem Counted.count {before after : TestSuite} {tests : List TestCase}
    (counted : before.Counted after tests) (test : TestCase) :
    before.Counted (after.count test.function.result).1 (tests ++ [test]) := by
  rw [fst_count]
  refine ⟨counted.testCases, counted.testCount, ?_, ?_, ?_⟩
  · rw [counted.passed, returning_concat, BitVec.ofNat_add, BitVec.add_assoc]
  · rw [counted.failed, returning_concat, BitVec.ofNat_add, BitVec.add_assoc]
  · rw [counted.skipped, returning_concat, BitVec.ofNat_add, BitVec.add_assoc]

/-- The first passes of the loop count the first tests. -/
theorem counted_testLoop (s : TestSuite) (n : Nat) (few : n ≤ 50) :
    s.Counted (s.testLoop n).1 ((List.range n).map s.testCases) := by
  induction n with
  | zero => exact Counted.none s
  | succ n ih =>
    have before := ih (Nat.le_of_succ_le few)
    have index : (BitVec.ofNat 32 n).toNat = n := by
      rw [BitVec.toNat_ofNat]
      omega
    have last := before.count (s.testCases n)
    rw [List.range_succ, List.map_append, List.map_singleton, testLoop]
    change s.Counted (((s.testLoop n).1).testBody (BitVec.ofNat 32 n)).1 _
    rw [testBody, index, before.testCases]
    exact last

/-- The code is one of the three that are counted. -/
def KnownCode (result : BitVec 32) : Prop :=
  result = testPass ∨ result = testFail ∨ result = testSkip

instance : DecidablePred KnownCode := fun result =>
  inferInstanceAs (Decidable (result = testPass ∨ result = testFail ∨ result = testSkip))

/-- The three counts together are the number of the tests with a known code. -/
theorem returning_add (tests : List TestCase) :
    returning testPass tests + returning testFail tests + returning testSkip tests =
      tests.countP fun test => KnownCode test.function.result := by
  induction tests using List.reverseRecOn with
  | nil => rfl
  | append_singleton tests test ih =>
    have one : ((if test.function.result = testPass then 1 else 0) +
        (if test.function.result = testFail then 1 else 0) +
        if test.function.result = testSkip then 1 else 0) =
          if KnownCode test.function.result then 1 else 0 := by
      generalize test.function.result = result
      by_cases pass : result = testPass
      · subst pass
        decide
      · by_cases fail : result = testFail
        · subst fail
          decide
        · have last : KnownCode result ↔ result = testSkip := by
            rw [KnownCode, or_iff_right pass, or_iff_right fail]
          simp only [if_neg pass, if_neg fail, last, Nat.zero_add]
    rw [returning_concat, returning_concat, returning_concat, List.countP_append,
      List.countP_singleton, ← ih]
    simp only [decide_eq_true_eq]
    omega

/-! ### The verdict -/

/-- A message of another format is not the verdict. -/
theorem allTestsPassed_notMem_kprintcolor (new : BitVec 32) {format : String}
    (arguments : List MessageArgument) (other : format ≠ allTestsPassed.format) :
    allTestsPassed ∉ [Message.kprintcolor new format arguments] := fun there =>
  other (congrArg Message.format (List.mem_singleton.mp there)).symm

theorem allTestsPassed_notMem_run (check : Check) : allTestsPassed ∉ check.run := by
  cases check with
  | assert condition expr file line =>
    rw [Check.run]
    split
    next => exact allTestsPassed_notMem_kprintcolor _ _ (by decide)
    next => exact List.not_mem_nil
  | assertEq a b aStr bStr file line =>
    rw [Check.run]
    split
    next => exact allTestsPassed_notMem_kprintcolor _ _ (by decide)
    next => exact List.not_mem_nil
  | assertNeq a b aStr bStr file line =>
    rw [Check.run]
    split
    next => exact allTestsPassed_notMem_kprintcolor _ _ (by decide)
    next => exact List.not_mem_nil

theorem allTestsPassed_notMem_count (s : TestSuite) (result : BitVec 32) :
    allTestsPassed ∉ (s.count result).2 := by
  rw [count]
  split
  next => exact allTestsPassed_notMem_kprintcolor _ _ (by decide)
  next =>
    split
    next => exact allTestsPassed_notMem_kprintcolor _ _ (by decide)
    next =>
      split
      next => exact allTestsPassed_notMem_kprintcolor _ _ (by decide)
      next => exact List.not_mem_nil

theorem allTestsPassed_notMem_testBody (s : TestSuite) (i : BitVec 32) :
    allTestsPassed ∉ (s.testBody i).2 := by
  intro there
  rcases List.mem_append.mp there with front | description
  · rcases List.mem_append.mp front with heading | outcome
    · rcases List.mem_cons.mp heading with name | checked
      · exact Message.noConfusion name
      · obtain ⟨check, _, printed⟩ := List.mem_flatMap.mp checked
        exact allTestsPassed_notMem_run check printed
    · exact allTestsPassed_notMem_count s _ outcome
  · exact Message.noConfusion (List.mem_singleton.mp description)

theorem allTestsPassed_notMem_testLoop (s : TestSuite) (n : Nat) :
    allTestsPassed ∉ (s.testLoop n).2 := by
  induction n with
  | zero => exact List.not_mem_nil
  | succ n ih =>
    intro there
    rcases List.mem_append.mp there with before | last
    · exact ih before
    · exact allTestsPassed_notMem_testBody _ _ last

theorem allTestsPassed_mem_printTestResults (s : TestSuite) :
    allTestsPassed ∈ s.printTestResults ↔ s.testsFailed = 0#32 := by
  rw [printTestResults]
  split
  next none => simp [none]
  next some => simp [some, allTestsPassed, someTestsFailed]

/-- The verdict is read off the counter of the failed tests. -/
theorem allTestsPassed_mem_runAllTests (s : TestSuite) :
    allTestsPassed ∈ s.runAllTests.2 ↔ s.runAllTests.1.testsFailed = 0#32 := by
  rw [runAllTests, List.mem_append, List.mem_append, allTestsPassed_mem_printTestResults]
  constructor
  · rintro ((start | tested) | results)
    · simp [allTestsPassed] at start
    · exact absurd tested (allTestsPassed_notMem_testLoop s _)
    · exact results
  · exact Or.inr

/-! ### The report -/

theorem toNat_counted {before : BitVec 32} (reset : before = 0#32) {k : Nat} (few : k ≤ 50) :
    (before + BitVec.ofNat 32 k).toNat = k := by
  rw [reset, BitVec.zero_add, BitVec.toNat_ofNat]
  omega

/-- The counters after a run are the numbers of the tests that returned their codes. -/
structure Totals (tests : List TestCase) (s : TestSuite) : Prop where
  all : s.testCount.toNat = tests.length
  passed : s.testsPassed.toNat = returning testPass tests
  failed : s.testsFailed.toNat = returning testFail tests
  skipped : s.testsSkipped.toNat = returning testSkip tests

theorem totals_runAllTests (s : TestSuite) (tests : List TestCase) (few : tests.length ≤ 50) :
    Totals tests (initTestSuite tests s).runAllTests.1 := by
  have held : (initTestSuite tests s).registered = tests :=
    (registered_initTestSuite tests s).trans (List.take_of_length_le few)
  have reset := counters_initTestSuite tests s
  generalize initTestSuite tests s = u at held reset
  have counted := u.counted_testLoop u.testCount.toNat u.testCount_le
  rw [← registered, held] at counted
  obtain ⟨noPass, noOther⟩ := Prod.mk.inj reset
  obtain ⟨noFail, noSkip⟩ := Prod.mk.inj noOther
  have within (code : BitVec 32) : returning code tests ≤ 50 :=
    (returning_le code tests).trans few
  refine ⟨?_, ?_, ?_, ?_⟩
  · rw [← held, length_registered]
    exact congrArg BitVec.toNat counted.testCount
  · exact (congrArg BitVec.toNat counted.passed).trans (toNat_counted noPass (within testPass))
  · exact (congrArg BitVec.toNat counted.failed).trans (toNat_counted noFail (within testFail))
  · exact (congrArg BitVec.toNat counted.skipped).trans (toNat_counted noSkip (within testSkip))

/-- The report of a run tells the outcome of its tests. -/
structure Honest (tests : List TestCase) (report : TestSuite × List Message) : Prop where
  verdict : allTestsPassed ∈ report.2 ↔ ∀ test ∈ tests,
    (test.function.result = testPass ∨ test.function.result = testSkip) ∧
      ∀ check ∈ test.function.checks, ¬check.Failed
  counts : report.1.testsPassed.toNat + report.1.testsFailed.toNat + report.1.testsSkipped.toNat =
    report.1.testCount.toNat

/-- The counts add up when every code is known. -/
theorem Totals.counts_iff {tests : List TestCase} {s : TestSuite} (totals : Totals tests s) :
    s.testsPassed.toNat + s.testsFailed.toNat + s.testsSkipped.toNat = s.testCount.toNat ↔
      ∀ test ∈ tests, KnownCode test.function.result := by
  rw [totals.all, totals.passed, totals.failed, totals.skipped, returning_add,
    List.countP_eq_length]
  simp only [decide_eq_true_eq]

/-- No failed test is counted when none returned `TEST_FAIL`. -/
theorem Totals.failed_iff {tests : List TestCase} {s : TestSuite} (totals : Totals tests s) :
    s.testsFailed = 0#32 ↔ ∀ test ∈ tests, test.function.result ≠ testFail := by
  rw [← BitVec.toNat_inj, totals.failed]
  change returning testFail tests = 0 ↔ _
  rw [returning, List.countP_eq_zero]
  simp only [decide_eq_true_eq]

/-- The report is honest when every test returns one of the three codes, and a check fails only
where some test returns `TEST_FAIL`. -/
theorem runAllTests_honest_iff (s : TestSuite) (tests : List TestCase)
    (few : tests.length ≤ 50) :
    Honest tests (initTestSuite tests s).runAllTests ↔
      (∀ test ∈ tests, KnownCode test.function.result) ∧
        ((∃ test ∈ tests, test.function.result = testFail) ∨
          ∀ test ∈ tests, ∀ check ∈ test.function.checks, ¬check.Failed) := by
  have totals := totals_runAllTests s tests few
  have verdict := (allTestsPassed_mem_runAllTests (initTestSuite tests s)).trans totals.failed_iff
  constructor
  · intro honest
    refine ⟨totals.counts_iff.mp honest.counts, ?_⟩
    by_cases failing : ∃ test ∈ tests, test.function.result = testFail
    · exact Or.inl failing
    · have none : ∀ test ∈ tests, test.function.result ≠ testFail := fun test there fail =>
        failing ⟨test, there, fail⟩
      exact Or.inr fun test there => (honest.verdict.mp (verdict.mpr none) test there).2
  · rintro ⟨known, accounted⟩
    refine ⟨verdict.trans ⟨fun none test there => ⟨?_, ?_⟩, ?_⟩, totals.counts_iff.mpr known⟩
    · rcases known test there with pass | fail | skip
      · exact Or.inl pass
      · exact absurd fail (none test there)
      · exact Or.inr skip
    · rcases accounted with ⟨failing, inside, fail⟩ | sound
      · exact absurd fail (none failing inside)
      · exact sound test there
    · intro all test there fail
      rcases (all test there).1 with pass | skip
      · exact absurd (pass.symm.trans fail) (by decide)
      · exact absurd (skip.symm.trans fail) (by decide)

/-- A suite before its first reset. -/
def blank : TestSuite where
  testCases _ := ⟨"", ⟨[], 0#32⟩, ""⟩
  testCount := 0#32
  testsPassed := 0#32
  testsFailed := 0#32
  testsSkipped := 0#32
  testCount_le := Nat.zero_le 50

/-- A test of the page tables, with the value of its check. -/
def pagingTest (found : BitVec 32) : TestCase :=
  ⟨"Basic Paging", ⟨[.assert found "pml4 != NULL" "kernel/test.c" 104#32], testPass⟩,
    "Test basic paging functionality"⟩

/-- A test that returns a code at once. -/
def returningTest (result : BitVec 32) : TestCase :=
  ⟨"Syscall Functions", ⟨[], result⟩, "Test system call implementations"⟩

theorem runAllTests_honest_two :
    Honest [pagingTest 1#32, returningTest testSkip]
      (initTestSuite [pagingTest 1#32, returningTest testSkip] blank).runAllTests :=
  (runAllTests_honest_iff blank [pagingTest 1#32, returningTest testSkip] (by decide)).mpr
    ⟨by decide, Or.inr (by decide)⟩

/-- A failed assertion leaves the verdict that all tests passed, and a test that returns 3 is not
counted. -/
theorem runAllTests_not_honest :
    ¬Honest [pagingTest 0#32] (initTestSuite [pagingTest 0#32] blank).runAllTests ∧
      ¬Honest [returningTest 3#32] (initTestSuite [returningTest 3#32] blank).runAllTests := by
  constructor
  · intro honest
    have totals := totals_runAllTests blank [pagingTest 0#32] (by decide)
    have printed := (allTestsPassed_mem_runAllTests _).mpr (totals.failed_iff.mpr (by decide))
    have sound : ∀ check ∈ (pagingTest 0#32).function.checks, ¬check.Failed :=
      (honest.verdict.mp printed (pagingTest 0#32) List.mem_cons_self).2
    exact absurd sound (by decide)
  · intro honest
    have totals := totals_runAllTests blank [returningTest 3#32] (by decide)
    exact absurd (totals.counts_iff.mp honest.counts) (by decide)

end TestSuite

end M12
