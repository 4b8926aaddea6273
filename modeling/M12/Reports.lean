/-
This file proves what the kernel's reports say.

`MemoryInfo` prints what the allocator counts, `debug_memory_map` what the boot
loader has stored, and `isr_handler` the exception it was called for. The numbers
go through `%d`, which reads 32 bits and a sign, so it takes the bounds of the
allocator to see that a report of pages is true. The type of a memory map entry
has no such bound. The name of an exception is found by the vector its stub has
pushed, and since the handler returns whatever the exception, the code that has
caused it is run again.
-/

import M12.FormatPieces
import M12.FreePages
import M12.InterruptStubs

namespace M12

open ByteMemory Console X64

/-! ### The memory report -/

/-- `get_total_memory` -/
def getTotalMemory (s : MemoryState) : BitVec 64 := s.totalPages * pageSize

/-- What `MemoryInfo` prints. -/
def memoryInfoCalls (s : MemoryState) : List KprintfCall :=
  let totalBytes := getTotalMemory s
  let freeBytes := getFreeMemory s
  let usedBytes := s.usedPages * pageSize
  let totalMb := totalBytes / (1024#64 * 1024#64)
  let freeMb := freeBytes / (1024#64 * 1024#64)
  let usedMb := usedBytes / (1024#64 * 1024#64)
  [⟨"\n=== Memory Information ===\n", []⟩,
    ⟨"Total Memory:  %d MB\n", [totalMb]⟩,
    ⟨"Used Memory:   %d MB (%d pages)\n", [usedMb, s.usedPages]⟩,
    ⟨"Free Memory:   %d MB (%d pages)\n", [freeMb, s.totalPages - s.usedPages]⟩,
    ⟨"Memory Range:  0x%x - 0x%x\n", [s.memoryStart, s.memoryEnd]⟩,
    ⟨"Page Size:     %d bytes\n", [pageSize]⟩,
    ⟨"==========================\n", []⟩]

/-- `MemoryInfo` -/
def memoryInfo (fuel : Nat) (c : Console) (s : MemoryState) : Console :=
  c.printAll s.ram fuel (memoryInfoCalls s)

/-- The report on a pool of pages of 4 KB, 256 of them to a megabyte. -/
def memoryReport (pool : IndexPool) (memoryEnd : Nat) : List String :=
  ["\n=== Memory Information ===\n",
    "Total Memory:  " ++ toString (pool.total / 256) ++ " MB\n",
    "Used Memory:   " ++ toString (pool.used / 256) ++ " MB (" ++ toString pool.used ++ " pages)\n",
    "Free Memory:   " ++ toString (pool.free.card / 256) ++ " MB (" ++
      toString pool.free.card ++ " pages)\n",
    "Memory Range:  0x100000 - 0x" ++ Piece.hexNumeral memoryEnd ++ "\n",
    "Page Size:     4096 bytes\n",
    "==========================\n"]

/-- A number below 2^31 is printed as it is. -/
theorem printed_decimal {value : BitVec 64} {num : Nat} (same : value.toNat = num)
    (small : num < 2 ^ 31) : (Piece.decimal value).printed = toString num := by
  have signed : (value.setWidth 32 : BitVec 32).toInt = (num : Int) := by
    rw [BitVec.toInt_eq_toNat_cond, BitVec.toNat_setWidth, same]
    split_ifs <;> omega
  rw [Piece.printed, signed]
  rfl

theorem printsLine_text {memory : Memory} (line : String)
    (plain : ∀ character ∈ literal line, character ≠ 0#8 ∧ character ≠ percent) :
    KprintfCall.PrintsLine memory ⟨line, []⟩ line := by
  exact ⟨[.text line], ⟨plain, trivial⟩, String.append_empty.symm, rfl, String.append_empty.symm⟩

section MemoryReport

variable {s : MemoryState} (managed : Managed s)
include managed

/-- What is counted in megabytes is the number of pages in 256s. -/
theorem toNat_megabytes {pages : BitVec 64} {num : Nat} (same : pages.toNat = num)
    (few : num ≤ s.totalPages.toNat) :
    (pages * pageSize / (1024#64 * 1024#64)).toNat = num / 256 := by
  have bound := totalPages_lt managed
  have megabyte : (1024#64 * 1024#64).toNat = 1048576 := by decide
  rw [BitVec.toNat_udiv, BitVec.toNat_mul, toNat_pageSize, megabyte, same]
  omega

theorem toNat_freePages : (s.totalPages - s.usedPages).toNat = (pool s).free.card := by
  have whole := (pool s).used_add_card_free
  have few := totalPages_lt managed
  rw [show (pool s).total = s.totalPages.toNat from rfl] at whole
  rw [BitVec.toNat_sub, managed.usedPages]
  omega

theorem prints_memoryInfo :
    Prints s.ram (memoryInfoCalls s) (memoryReport (pool s) s.memoryEnd.toNat) := by
  have few := totalPages_lt managed
  have whole := (pool s).used_add_card_free
  have total : (pool s).total = s.totalPages.toNat := rfl
  have totalMb := toNat_megabytes managed total.symm (Nat.le_of_eq total)
  have usedMb := toNat_megabytes managed managed.usedPages (by omega)
  have freeMb := toNat_megabytes managed (toNat_freePages managed) (by omega)
  refine prints_lines (.cons ?title (.cons ?total (.cons ?used (.cons ?free (.cons ?range
    (.cons ?size (.cons ?last .nil)))))))
  case title => exact printsLine_text _ (by simp [literal, percent])
  case last => exact printsLine_text _ (by simp [literal, percent])
  case total =>
    refine ⟨[.text "Total Memory:  ", .decimal _, .text " MB\n"],
      ⟨by simp [literal, percent], by simp [literal, percent], trivial⟩, rfl, rfl, ?_⟩
    rw [joined_cons, joined_cons, getTotalMemory, printed_decimal totalMb (by omega),
      String.append_assoc]
    rfl
  case used =>
    refine ⟨[.text "Used Memory:   ", .decimal _, .text " MB (", .decimal _, .text " pages)\n"],
      ⟨by simp [literal, percent], by simp [literal, percent], by simp [literal, percent], trivial⟩,
      rfl, rfl, ?_⟩
    rw [joined_cons, joined_cons, joined_cons, joined_cons, printed_decimal usedMb (by omega),
      printed_decimal managed.usedPages (by omega), String.append_assoc, String.append_assoc,
      String.append_assoc]
    rfl
  case free =>
    refine ⟨[.text "Free Memory:   ", .decimal _, .text " MB (", .decimal _, .text " pages)\n"],
      ⟨by simp [literal, percent], by simp [literal, percent], by simp [literal, percent], trivial⟩,
      rfl, rfl, ?_⟩
    rw [joined_cons, joined_cons, joined_cons, joined_cons, getFreeMemory,
      printed_decimal freeMb (by omega), printed_decimal (toNat_freePages managed) (by omega),
      String.append_assoc, String.append_assoc, String.append_assoc]
    rfl
  case range =>
    refine ⟨[.text "Memory Range:  0x", .hexadecimal _, .text " - 0x", .hexadecimal _,
      .text "\n"],
      ⟨by simp [literal, percent], by simp [literal, percent], by simp [literal, percent], trivial⟩,
      rfl, rfl, ?_⟩
    have start : (Piece.hexadecimal s.memoryStart).printed = "100000" := by
      rw [managed.memoryStart]
      decide
    rw [joined_cons, joined_cons, joined_cons, joined_cons, start, String.append_assoc]
    rfl
  case size =>
    exact ⟨[.text "Page Size:     ", .decimal _, .text " bytes\n"],
      ⟨by simp [literal, percent], by simp [literal, percent], trivial⟩, rfl, rfl, rfl⟩

end MemoryReport

/-- The memory report is true. For every memory map and after any calls of the allocator,
`MemoryInfo` prints the sizes of its pool of pages: the pages, the used and the free ones, in
numerals without sign or cut, and the end of the managed range. -/
theorem memory_report_true (ram : Memory) (calls : List MemoryCall) :
    ∃ bound, ∀ fuel, bound < fuel → ∀ c : Console,
      memoryInfo fuel c (memoryRun (initMemory (bootMemory ram)) calls) =
        c.putcRun ((memoryReport (pool (memoryRun (initMemory (bootMemory ram)) calls))
          (memoryRun (initMemory (bootMemory ram)) calls).memoryEnd.toNat).flatMap literal) :=
  prints_memoryInfo (managed_memoryRun (managed_initMemory ram) calls)

/-! ### The memory map -/

/-- What `debug_memory_map` prints for `entries[i]`. -/
def debugEntryCall (ram : Memory) (i : Nat) : KprintfCall :=
  let entry := entryAt ram i
  ⟨"Entry %d: Base=0x%x, Length=0x%x, Type=%d\n",
    [BitVec.ofNat 64 i, entry.base, entry.length, entry.type.setWidth 64]⟩

/-- What `debug_memory_map` prints. -/
def debugMemoryMapCalls (ram : Memory) : List KprintfCall :=
  [⟨"\n=== Memory Map Debug ===\n", []⟩,
    ⟨"Total entries: %d\n", [(entryCount ram).setWidth 64]⟩] ++
  (List.range (min (entryCount ram).toNat 10)).map (debugEntryCall ram) ++
  [⟨"=======================\n", []⟩]

/-- `debug_memory_map` -/
def debugMemoryMap (fuel : Nat) (c : Console) (ram : Memory) : Console :=
  c.printAll ram fuel (debugMemoryMapCalls ram)

/-- An entry in a report. -/
def entryLine (i : Nat) (entry : MemoryMapEntry) : String :=
  "Entry " ++ (toString i ++ (": Base=0x" ++ (Piece.hexNumeral entry.base.toNat ++
    (", Length=0x" ++ (Piece.hexNumeral entry.length.toNat ++
      (", Type=" ++ (toString entry.type.toInt ++ "\n")))))))

/-- A report on a table with this count: no more than its first ten entries. -/
def mapReport (count : Nat) (entry : Nat → MemoryMapEntry) : List String :=
  ["\n=== Memory Map Debug ===\n", "Total entries: " ++ (toString count ++ "\n")] ++
  (List.range (min count 10)).map (fun i => entryLine i (entry i)) ++
  ["=======================\n"]

theorem printsLine_entry (ram : Memory) {i : Nat} (few : i < 10) :
    (debugEntryCall ram i).PrintsLine ram (entryLine i (entryAt ram i)) := by
  have number : (BitVec.ofNat 64 i).toNat = i := by
    rw [BitVec.toNat_ofNat]
    omega
  have type : ((entryAt ram i).type.setWidth 64).setWidth 32 = (entryAt ram i).type := by
    rw [BitVec.setWidth_setWidth_of_le _ (by decide), BitVec.setWidth_eq]
  refine ⟨[.text "Entry ", .decimal _, .text ": Base=0x", .hexadecimal _, .text ", Length=0x",
    .hexadecimal _, .text ", Type=", .decimal _, .text "\n"],
    ⟨by simp [literal, percent], by simp [literal, percent], by simp [literal, percent],
      by simp [literal, percent], by simp [literal, percent], trivial⟩, rfl, rfl, ?_⟩
  simp only [joined_cons, joined_nil, String.append_empty, printed_decimal number (by omega)]
  rw [Piece.printed, Piece.printed, Piece.printed, Piece.printed, Piece.printed, Piece.printed,
    Piece.printed, Piece.printed, type, entryLine]

/-- `debug_memory_map` prints the table. For every content of memory, whatever the count in it, it
prints the count and the first ten entries that are counted, with every type as a signed number. -/
theorem memory_map_printed (ram : Memory) : ∃ bound, ∀ fuel, bound < fuel → ∀ c : Console,
    debugMemoryMap fuel c ram =
      c.putcRun ((mapReport (entryCount ram).toNat (entryAt ram)).flatMap literal) := by
  have bound := (entryCount ram).isLt
  have count : ((entryCount ram).setWidth 64).toNat = (entryCount ram).toNat := by
    rw [BitVec.toNat_setWidth]
    omega
  have total : KprintfCall.PrintsLine ram
      ⟨"Total entries: %d\n", [(entryCount ram).setWidth 64]⟩
      ("Total entries: " ++ (toString (entryCount ram).toNat ++ "\n")) := by
    refine ⟨[.text "Total entries: ", .decimal _, .text "\n"],
      ⟨by simp [literal, percent], by simp [literal, percent], trivial⟩, rfl, rfl, ?_⟩
    simp only [joined_cons, joined_nil, String.append_empty, printed_decimal count (by omega)]
    rw [Piece.printed, Piece.printed]
  have entries : List.Forall₂ (KprintfCall.PrintsLine ram)
      ((List.range (min (entryCount ram).toNat 10)).map (debugEntryCall ram))
      ((List.range (min (entryCount ram).toNat 10)).map fun i => entryLine i (entryAt ram i)) := by
    rw [List.forall₂_map_left_iff, List.forall₂_map_right_iff, List.forall₂_same]
    intro i member
    have inside := List.mem_range.mp member
    exact printsLine_entry ram (by omega)
  exact ((prints_lines (.cons (printsLine_text _ (by simp [literal, percent]))
      (.cons total .nil))).append (prints_lines entries)).append
    (prints_lines (.cons (printsLine_text _ (by simp [literal, percent])) .nil))

/-! ### Exceptions -/

/-- `exception_messages` -/
def exceptionMessages : List String :=
  ["Division By Zero", "Debug", "Non Maskable Interrupt", "Breakpoint", "Into Detected Overflow",
    "Out of Bounds", "Invalid Opcode", "No Coprocessor", "Double Fault",
    "Coprocessor Segment Overrun", "Bad TSS", "Segment Not Present", "Stack Fault",
    "General Protection Fault", "Page Fault", "Unknown Interrupt", "Coprocessor Fault",
    "Alignment Check", "Machine Check", "Reserved", "Reserved", "Reserved", "Reserved", "Reserved",
    "Reserved", "Reserved", "Reserved", "Reserved", "Reserved", "Reserved", "Reserved", "Reserved"]

/-- What `isr_handler` prints; `messages` are the addresses in `exception_messages`, and `cr2` is
the register it reads. -/
def isrHandlerCalls (messages : Nat → BitVec 64) (cr2 : BitVec 64) (frame : InterruptFrame) :
    List KprintfCall :=
  [⟨"\n=== EXCEPTION ===\n", []⟩,
    ⟨"Exception: %s\n", [messages frame.interruptNumber.toNat]⟩,
    ⟨"Error Code: 0x%x\n", [frame.errorCode]⟩,
    ⟨"RIP: 0x%x\n", [frame.rip]⟩,
    ⟨"CS: 0x%x\n", [frame.cs]⟩,
    ⟨"RFLAGS: 0x%x\n", [frame.rflags]⟩,
    ⟨"================\n", []⟩] ++
  if frame.interruptNumber = 8#64 ∨ frame.interruptNumber = 13#64 ∨
      frame.interruptNumber = 14#64 then
    [⟨"Page Fault at address: 0x%x\n", [cr2]⟩,
      ⟨"Error Code: 0x%x\n", [frame.errorCode]⟩,
      if frame.errorCode &&& 1#64 ≠ 0#64 then ⟨"Cause: Page protection violation\n", []⟩
      else ⟨"Cause: Page not present\n", []⟩]
  else []

/-- `isr_handler` -/
def isrHandler (memory : Memory) (fuel : Nat) (messages : Nat → BitVec 64) (cr2 : BitVec 64)
    (c : Console) (frame : InterruptFrame) : Console :=
  c.printAll memory fuel (isrHandlerCalls messages cr2 frame)

/-- A number in a report. -/
def hexLine (label : String) (value : BitVec 64) : String :=
  label ++ (Piece.hexNumeral value.toNat ++ "\n")

/-- The report on an exception: its name, the error code the processor has pushed or zero, and the
state of the code that has caused it. Three exceptions are reported as page faults. -/
def exceptionReport (i : Interrupt) (cr2 : BitVec 64) : List String :=
  let errorCode := if pushesErrorCode i.vector.val then i.errorCode else 0#64
  ["\n=== EXCEPTION ===\n",
    "Exception: " ++ (exceptionMessages.getD i.vector.val "" ++ "\n"),
    hexLine "Error Code: 0x" errorCode,
    hexLine "RIP: 0x" i.processor.machine.rip,
    hexLine "CS: 0x" (i.processor.cs.setWidth 64),
    hexLine "RFLAGS: 0x" i.processor.rflags,
    "================\n"] ++
  if i.vector.val ∈ [8, 13, 14] then
    [hexLine "Page Fault at address: 0x" cr2,
      hexLine "Error Code: 0x" errorCode,
      if errorCode.getLsbD 0 then "Cause: Page protection violation\n"
      else "Cause: Page not present\n"]
  else []

theorem printsLine_hex {memory : Memory} (label : String) (value : BitVec 64)
    (plain : ∀ character ∈ literal label, character ≠ 0#8 ∧ character ≠ percent) :
    KprintfCall.PrintsLine memory ⟨label ++ ("%x" ++ "\n"), [value]⟩ (hexLine label value) := by
  refine ⟨[.text label, .hexadecimal value, .text "\n"],
    ⟨plain, by simp [literal, percent], trivial⟩, ?_, rfl, ?_⟩
  · rw [joined_cons, joined_cons, joined_cons, joined_nil, String.append_empty]
    rfl
  · rw [joined_cons, joined_cons, joined_cons, joined_nil, String.append_empty]
    rfl

theorem name_ne_command {vector : Nat} (exception : vector < 32) :
    literal (exceptionMessages.getD vector "") ≠ literal "\x1b[2k" := by
  have names : ∀ name ∈ exceptionMessages, literal name ≠ literal "\x1b[2k" := by
    simp [exceptionMessages, literal]
  have inside : vector < exceptionMessages.length := exception
  rw [List.getD_eq_getElem _ _ inside]
  exact names _ (List.getElem_mem inside)

theorem and_one_ne_zero_iff (code : BitVec 64) : code &&& 1#64 ≠ 0#64 ↔ code.getLsbD 0 = true := by
  rw [BitVec.and_one_eq_setWidth_ofBool_getLsbD]
  cases code.getLsbD 0 <;> decide

theorem prints_isrHandler (i : Interrupt) (exception : i.vector.val < 32)
    {memory : Memory} {messages : Nat → BitVec 64}
    (named : HasText (stringAt memory (messages i.vector.val))
      (literal (exceptionMessages.getD i.vector.val ""))) (cr2 : BitVec 64) :
    Prints memory (isrHandlerCalls messages cr2 i.frame) (exceptionReport i cr2) := by
  have number : i.frame.interruptNumber.toNat = i.vector.val := by
    rw [show i.frame.interruptNumber = BitVec.ofNat 64 i.vector.val from rfl, BitVec.toNat_ofNat]
    omega
  have vectorIs : ∀ vector < 32, (i.frame.interruptNumber = BitVec.ofNat 64 vector ↔
      i.vector.val = vector) := by
    intro vector few
    rw [← BitVec.toNat_inj, number, BitVec.toNat_ofNat, Nat.mod_eq_of_lt (by omega)]
  have name : KprintfCall.PrintsLine memory
      ⟨"Exception: %s\n", [messages i.frame.interruptNumber.toNat]⟩
      ("Exception: " ++ (exceptionMessages.getD i.vector.val "" ++ "\n")) := by
    rw [number]
    refine ⟨[.text "Exception: ", .string _ (exceptionMessages.getD i.vector.val ""), .text "\n"],
      ⟨by simp [literal, percent], ⟨named, name_ne_command exception⟩, by simp [literal, percent],
        trivial⟩, rfl, rfl, ?_⟩
    rw [joined_cons, joined_cons, joined_cons, joined_nil, String.append_empty]
    rfl
  refine (prints_lines (.cons (printsLine_text _ (by simp [literal, percent])) (.cons name
    (.cons (printsLine_hex "Error Code: 0x" _ (by simp [literal, percent]))
    (.cons (printsLine_hex "RIP: 0x" _ (by simp [literal, percent]))
    (.cons (printsLine_hex "CS: 0x" _ (by simp [literal, percent]))
    (.cons (printsLine_hex "RFLAGS: 0x" _ (by simp [literal, percent]))
    (.cons (printsLine_text _ (by simp [literal, percent])) .nil)))))))).append ?_
  have condition : (i.frame.interruptNumber = 8#64 ∨ i.frame.interruptNumber = 13#64 ∨
      i.frame.interruptNumber = 14#64) ↔ i.vector.val ∈ [8, 13, 14] := by
    rw [vectorIs 8 (by decide), vectorIs 13 (by decide), vectorIs 14 (by decide)]
    simp only [List.mem_cons, List.not_mem_nil, or_false]
  by_cases pageFault : i.vector.val ∈ [8, 13, 14]
  · rw [if_pos (condition.mpr pageFault), if_pos pageFault]
    refine prints_lines
      (.cons (printsLine_hex "Page Fault at address: 0x" _ (by simp [literal, percent]))
      (.cons (printsLine_hex "Error Code: 0x" _ (by simp [literal, percent])) (.cons ?_ .nil)))
    show KprintfCall.PrintsLine memory _ (if i.frame.errorCode.getLsbD 0 = true then _ else _)
    by_cases protection : i.frame.errorCode.getLsbD 0 = true
    · rw [if_pos ((and_one_ne_zero_iff _).mpr protection), if_pos protection]
      exact printsLine_text _ (by simp [literal, percent])
    · rw [if_neg (mt (and_one_ne_zero_iff _).mp protection), if_neg protection]
      exact printsLine_text _ (by simp [literal, percent])
  · rw [if_neg (mt condition.mp pageFault), if_neg pageFault]
    exact prints_lines .nil

/-- An exception is reported and the code that has caused it is run again. For every exception, in
every state of the machine, the report has the name that belongs to the vector, the error code the
processor has pushed and the place and flags of the code; and when the handler has returned, the
processor is as it was when the exception came, also after the three that count as critical. -/
theorem exceptions_reported_and_resumed (i : Interrupt) (exception : i.vector.val < 32)
    (messages : Nat → BitVec 64) (cr2 : BitVec 64)
    (named : HasText (stringAt i.called.memory (messages i.vector.val))
      (literal (exceptionMessages.getD i.vector.val "")))
    {returned : Machine} (returns : ReturnsFrom i.called returned i.frameBytes) :
    (∃ bound, ∀ fuel, bound < fuel → ∀ c : Console,
      isrHandler i.called.memory fuel messages cr2 c
          (frameAt i.called.memory (i.called.regs .rdi)) =
        c.putcRun ((exceptionReport i cr2).flatMap literal)) ∧
      Interrupt.Resumes i.processor (iretq (run returned commonEpilog)) := by
  rw [i.frameAt_called]
  exact ⟨prints_isrHandler i exception named cr2, Interrupt.resumes_iretq returns⟩

/-- A debug exception in a memory that holds the name of it and nothing else. -/
def debugException : Interrupt where
  processor :=
    { machine :=
        { regs := fun r => if r = .rsp then 0x8FF0#64 else 7#64
          rip := 0x10400#64
          memory := fun x => buffer (literal "Debug") (x - 0x20000#64).toNat }
      cs := 0x8#16
      ss := 0x10#16
      rflags := 0x202#64 }
  vector := ⟨1, by decide⟩
  errorCode := 0#64
  top := 0x8FF0#64
  stub := 0x10200#64
  handler := 0x10C00#64
  returnAddress := 0x10240#64

/-- A handler that returns at once. -/
theorem exceptions_reported_and_resumed_debug :
    Interrupt.Resumes debugException.processor
      (iretq (run (ret debugException.called) commonEpilog)) := by
  refine (exceptions_reported_and_resumed debugException (by decide) (fun _ => 0x20000#64) 0#64
    ⟨?_, by decide⟩ (returnsFrom_ret debugException.called debugException.frameBytes)).2
  decide +kernel

end M12
