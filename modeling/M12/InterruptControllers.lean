/-
This file models `kernel/irq.c` with the two interrupt controllers it programs and
proves that an end of interrupt always ends the right one.

`Init_PIC` sends the two controllers their initialisation words, `irq_handler`
sends them the end of the interrupt, and the drivers install handlers and write
masks. What the controllers make of the bytes at their four ports is a model of
the hardware, with the modes the kernel never asks for left out. The end of an
interrupt names no line: a controller takes the most urgent line in service for
it. The handlers on the stack form a nest of priorities, also across the cascade,
so that is the line of the handler that ends.

A request that is gone when the processor acknowledges it makes a spurious
interrupt. The first controller has put nothing in service for it, so its end
is harmless only while nothing is in service; at the second controller the end
takes back the line of the cascade.
-/

import M12.InterruptStubs
import M12.InterruptTable
import M12.Library.PriorityNest

namespace M12

open LevelRegister

/-! ### The controllers -/

/-- What a controller takes the next byte at its data port for. -/
inductive InitStage where
  | icw2
  | icw3
  | icw4
  | ready
deriving DecidableEq

/-- An interrupt controller: its initialisation words, and the mask, request and in-service
registers. -/
structure Controller where
  stage : InitStage
  cascaded : Bool
  needsIcw4 : Bool
  base : BitVec 8
  wiring : BitVec 8
  mode : BitVec 8
  mask : BitVec 8
  request : BitVec 8
  inService : BitVec 8
deriving DecidableEq

namespace Controller

/-- A byte at the command port: the first initialisation word, or the end of an interrupt. -/
def command (c : Controller) (value : BitVec 8) : Controller :=
  if value.getLsbD 4 then
    { c with
      stage := .icw2
      cascaded := !value.getLsbD 1
      needsIcw4 := value.getLsbD 0
      mode := 0#8
      mask := 0#8
      request := 0#8
      inService := 0#8 }
  else if value = 0x20#8 then { c with inService := retire c.inService }
  else c

/-- A byte at the data port. -/
def data (c : Controller) (value : BitVec 8) : Controller :=
  let afterIcw3 := if c.needsIcw4 then InitStage.icw4 else .ready
  match c.stage with
  | .icw2 =>
    { c with
      base := value &&& 0xF8#8
      stage := if c.cascaded then .icw3 else afterIcw3 }
  | .icw3 => { c with wiring := value, stage := afterIcw3 }
  | .icw4 => { c with mode := value, stage := .ready }
  | .ready => { c with mask := value }

/-- The line the controller asks for: the most urgent request that is not masked, if it is more
urgent than every line in service. -/
def pending (c : Controller) (request : BitVec 8) : Option (Fin 8) :=
  if c.stage = .ready then
    match mostUrgent (request &&& ~~~c.mask) with
    | none => none
    | some line =>
      match mostUrgent c.inService with
      | none => some line
      | some current => if line < current then some line else none
  else none

/-- The processor has acknowledged a line. -/
def accept (c : Controller) (line : Fin 8) : Controller :=
  { c with
    request := withoutLevel c.request line
    inService := if c.mode.getLsbD 1 then c.inService else withLevel c.inService line }

/-- The vector of a line. -/
def vector (c : Controller) (line : Fin 8) : BitVec 8 := c.base ||| BitVec.ofNat 8 line.val

end Controller

/-- The two controllers; the second asks the first on its line 2. -/
structure Controllers where
  master : Controller
  slave : Controller
deriving DecidableEq

namespace Controllers

/-- A byte at one of the ports. -/
def outb (p : Controllers) (port : BitVec 16) (value : BitVec 8) : Controllers :=
  if port = 0x20#16 then { p with master := p.master.command value }
  else if port = 0x21#16 then { p with master := p.master.data value }
  else if port = 0xA0#16 then { p with slave := p.slave.command value }
  else if port = 0xA1#16 then { p with slave := p.slave.data value }
  else p

/-- Bytes at the ports, one after the other. -/
def receive (p : Controllers) (writes : List (BitVec 16 × BitVec 8)) : Controllers :=
  writes.foldl (fun p write => p.outb write.1 write.2) p

/-- A device raises its line, or withdraws its request. -/
def setRequest (p : Controllers) (line : Fin 16) (raised : Bool) : Controllers :=
  let set (c : Controller) : Controller :=
    let level : Fin 8 := ⟨line.val % 8, Nat.mod_lt _ (by decide)⟩
    { c with
      request := if raised then withLevel c.request level else withoutLevel c.request level }
  if line.val < 8 then { p with master := set p.master } else { p with slave := set p.slave }

/-- The requests at the first controller. -/
def masterRequest (p : Controllers) : BitVec 8 :=
  if (p.slave.pending p.slave.request).isSome then withLevel p.master.request 2
  else withoutLevel p.master.request 2

/-- The processor acknowledges an interrupt whose request still stands and gets its vector; what it
gets for a request that is gone by then is `spuriousMaster` and `spuriousSlave` below. -/
def acknowledge (p : Controllers) : Option (Controllers × BitVec 8) :=
  match p.master.pending p.masterRequest with
  | none => none
  | some line =>
    if p.master.wiring.getLsbD line.val then
      match p.slave.pending p.slave.request with
      | none => none
      | some other =>
        if p.slave.wiring = BitVec.ofNat 8 line.val then
          some (⟨p.master.accept line, p.slave.accept other⟩, p.slave.vector other)
        else none
    else some ({ p with master := p.master.accept line }, p.master.vector line)

end Controllers

/-! ### The code -/

/-- `irq_num` of `irq_handler`. -/
def irqNumber (frame : InterruptFrame) : BitVec 8 := (frame.interruptNumber - 32#64).setWidth 8

/-- `irq_handler` up to the return of the installed handler, where `invoke` is what the code at an
address does with the frame. -/
def callHandler (invoke : BitVec 64 → InterruptFrame → InterruptState → InterruptState)
    (frame : InterruptFrame) (s : InterruptState) : InterruptState :=
  if s.irqHandlers (irqNumber frame).toNat ≠ 0#64 then
    invoke (s.irqHandlers (irqNumber frame).toNat) frame s
  else s

/-- The end of `irq_handler`. -/
def endOfInterrupt (irqNum : BitVec 8) (s : InterruptState) : InterruptState :=
  let s := if 8#8 ≤ irqNum then s.outb 0xA0#16 0x20#8 else s
  s.outb 0x20#16 0x20#8

/-- `irq_handler`. -/
def irqHandler (invoke : BitVec 64 → InterruptFrame → InterruptState → InterruptState)
    (frame : InterruptFrame) (s : InterruptState) : InterruptState :=
  endOfInterrupt (irqNumber frame) (callHandler invoke frame s)

/-- `irq >= 0 && irq < IRQ_COUNT` -/
def ValidIrq (irq : BitVec 32) : Prop := 0 ≤ irq.toInt ∧ irq.toInt < 16

instance decidableValidIrq (irq : BitVec 32) : Decidable (ValidIrq irq) :=
  inferInstanceAs (Decidable (_ ∧ _))

/-- `irq_install_handler`. -/
def irqInstallHandler (irq : BitVec 32) (handler : BitVec 64) (s : InterruptState) :
    InterruptState :=
  if ValidIrq irq then
    { s with irqHandlers := Function.update s.irqHandlers irq.toInt.toNat handler }
  else s

/-- `irq_uninstall_handler`. -/
def irqUninstallHandler (irq : BitVec 32) (s : InterruptState) : InterruptState :=
  if ValidIrq irq then
    { s with irqHandlers := Function.update s.irqHandlers irq.toInt.toNat 0#64 }
  else s

/-! ### Runs -/

/-- The kernel's state with the controllers and the `irq_num` of each `irq_handler` that has been
entered and has not ended, the latest first. -/
structure InterruptSystem where
  kernel : InterruptState
  controllers : Controllers
  active : List (BitVec 8)

namespace InterruptSystem

/-- The kernel executes some code, and the controllers get the bytes it writes. -/
def perform (s : InterruptSystem) (code : InterruptState → InterruptState) : InterruptSystem :=
  { s with
    kernel := code s.kernel
    controllers :=
      s.controllers.receive ((code s.kernel).portWrites.drop s.kernel.portWrites.length) }

end InterruptSystem

/-- What can happen: a device raises or withdraws a request, a driver writes a mask or installs or
removes a handler, the processor takes the interrupt the controllers ask for, or the latest
`irq_handler` ends. -/
inductive InterruptEvent where
  | raise (line : Fin 16)
  | withdraw (line : Fin 16)
  | maskMaster (mask : BitVec 8)
  | maskSlave (mask : BitVec 8)
  | install (irq : BitVec 32) (handler : BitVec 64)
  | uninstall (irq : BitVec 32)
  | accept
  | finish
deriving DecidableEq

/-- `irq_num` for the vector the stub pushes. -/
def vectorIrq (vector : BitVec 8) : BitVec 8 := (vector.setWidth 64 - 32#64).setWidth 8

/-- The system after one event. -/
def interruptStep (s : InterruptSystem) : InterruptEvent → InterruptSystem
  | .raise line => { s with controllers := s.controllers.setRequest line true }
  | .withdraw line => { s with controllers := s.controllers.setRequest line false }
  | .maskMaster mask => s.perform fun kernel => kernel.outb 0x21#16 mask
  | .maskSlave mask => s.perform fun kernel => kernel.outb 0xA1#16 mask
  | .install irq handler => s.perform (irqInstallHandler irq handler)
  | .uninstall irq => s.perform (irqUninstallHandler irq)
  | .accept =>
    match s.controllers.acknowledge with
    | none => s
    | some (controllers, vector) =>
      { s with controllers := controllers, active := vectorIrq vector :: s.active }
  | .finish =>
    match s.active with
    | [] => s
    | irqNum :: rest => { s.perform (endOfInterrupt irqNum) with active := rest }

/-- The system after some events. -/
def interruptRun (s : InterruptSystem) (events : List InterruptEvent) : InterruptSystem :=
  events.foldl interruptStep s

/-- The system when `Init_IDT`, `Init_ISR` and `Init_IRQ` have run, whatever state the controllers
were in. -/
def startedInterrupts (idt : BitVec 64) (isr irq : Nat → BitVec 64) (kernel : InterruptState)
    (controllers : Controllers) : InterruptSystem :=
  InterruptSystem.perform ⟨kernel, controllers, []⟩ (initInterrupts idt isr irq)

/-- The first controller asks for a request that no longer stands when the processor acknowledges
it: it answers with its line 7 and puts nothing in service, and `irq_handler` ends as always, before
another interrupt is taken. -/
def spuriousMaster (s : InterruptSystem) : InterruptSystem :=
  s.perform (endOfInterrupt (vectorIrq (s.controllers.master.vector 7)))

/-- The same at the second controller: the first one has put its line 2 in service. -/
def spuriousSlave (s : InterruptSystem) : InterruptSystem :=
  InterruptSystem.perform
    { s with controllers := { s.controllers with master := s.controllers.master.accept 2 } }
    (endOfInterrupt (vectorIrq (s.controllers.slave.vector 7)))

/-- What can happen at the lines: one of the events above, or a spurious interrupt. -/
inductive LineEvent where
  | event (event : InterruptEvent)
  | spuriousMaster
  | spuriousSlave
deriving DecidableEq

/-- The system after one event. The second controller is acknowledged only while the first one asks
for its line 2. -/
def lineStep (s : InterruptSystem) : LineEvent → InterruptSystem
  | .event event => interruptStep s event
  | .spuriousMaster => M12.spuriousMaster s
  | .spuriousSlave =>
    if s.controllers.master.pending (withLevel s.controllers.master.request 2) = some 2 then
      M12.spuriousSlave s
    else s

/-- The system after some events. -/
def lineRun (s : InterruptSystem) (events : List LineEvent) : InterruptSystem :=
  events.foldl lineStep s

/-- The spurious interrupts of the first controller come while no handler is on the stack. -/
def SpuriousWhileIdle : InterruptSystem → List LineEvent → Prop
  | _, [] => True
  | s, event :: rest =>
    (event = .spuriousMaster → s.active = []) ∧ SpuriousWhileIdle (lineStep s event) rest

/-! ### Programming the controllers -/

/-- The bytes of `Init_PIC`. -/
def picWrites : List (BitVec 16 × BitVec 8) :=
  [(0x20#16, 0x11#8), (0x21#16, 0x20#8), (0x21#16, 0x04#8), (0x21#16, 0x01#8),
    (0xA0#16, 0x11#8), (0xA1#16, 0x28#8), (0xA1#16, 0x02#8), (0xA1#16, 0x01#8),
    (0x21#16, 0xFF#8), (0xA1#16, 0xFF#8)]

/-- A controller that has got its four words and a mask for all its lines. -/
def freshController (base wiring : BitVec 8) : Controller where
  stage := .ready
  cascaded := true
  needsIcw4 := true
  base := base
  wiring := wiring
  mode := 0x01#8
  mask := 0xFF#8
  request := 0#8
  inService := 0#8

theorem receive_picWrites (p : Controllers) :
    p.receive picWrites = ⟨freshController 0x20#8 0x04#8, freshController 0x28#8 0x02#8⟩ := rfl

theorem portWrites_initInterrupts (idt : BitVec 64) (isr irq : Nat → BitVec 64)
    (kernel : InterruptState) :
    (initInterrupts idt isr irq kernel).portWrites = kernel.portWrites ++ picWrites := by
  show (initPic (initIsr idt isr (initIdt idt kernel))).portWrites = _
  simp [initPic, initIsr, initIdt, InterruptState.outb, picWrites]

theorem controllers_startedInterrupts (idt : BitVec 64) (isr irq : Nat → BitVec 64)
    (kernel : InterruptState) (controllers : Controllers) :
    (startedInterrupts idt isr irq kernel controllers).controllers =
      ⟨freshController 0x20#8 0x04#8, freshController 0x28#8 0x02#8⟩ := by
  show controllers.receive
    ((initInterrupts idt isr irq kernel).portWrites.drop kernel.portWrites.length) = _
  rw [portWrites_initInterrupts, List.drop_left, receive_picWrites]

/-- The words of `Init_PIC` are in force. -/
structure Controller.Set (c : Controller) (base wiring : BitVec 8) : Prop where
  stage : c.stage = .ready
  base : c.base = base
  wiring : c.wiring = wiring
  mode : c.mode = 0x01#8

theorem Controller.set_fresh (base wiring : BitVec 8) :
    (freshController base wiring).Set base wiring := ⟨rfl, rfl, rfl, rfl⟩

section Set

variable {c : Controller} {base wiring : BitVec 8} (isSet : c.Set base wiring)
include isSet

theorem Controller.Set.accept (line : Fin 8) :
    (c.accept line).Set base wiring ∧ (c.accept line).inService = withLevel c.inService line := by
  refine ⟨⟨isSet.stage, isSet.base, isSet.wiring, isSet.mode⟩, ?_⟩
  rw [Controller.accept, isSet.mode]
  rfl

theorem Controller.Set.data (mask : BitVec 8) : c.data mask = { c with mask := mask } := by
  rw [Controller.data, isSet.stage]

/-- The end of an interrupt retires the most urgent line in service. -/
theorem Controller.Set.endOfInterrupt :
    (c.command 0x20#8).Set base wiring ∧ (c.command 0x20#8).inService = retire c.inService :=
  ⟨⟨isSet.stage, isSet.base, isSet.wiring, isSet.mode⟩, rfl⟩

/-- A line is asked for only while it is more urgent than all in service. -/
theorem Controller.Set.pending {request : BitVec 8} {line : Fin 8} {nest : PriorityNest (Fin 8)}
    (holds : levels c.inService = nest.levels) (asks : c.pending request = some line) :
    request.getLsbD line.val = true ∧ c.mask.getLsbD line.val = false ∧ nest.Admits line := by
  rw [Controller.pending, if_pos isSet.stage, mostUrgent_of_nest holds] at asks
  cases found : mostUrgent (request &&& ~~~c.mask) with
  | none =>
    rw [found] at asks
    exact absurd asks (Option.some_ne_none line).symm
  | some first =>
    rw [found] at asks
    have member := mem_levels.mp (isLeast_of_mostUrgent found).1
    have bits : request.getLsbD first.val = true ∧ c.mask.getLsbD first.val = false := by
      rw [BitVec.getLsbD_and, BitVec.getLsbD_not, Bool.and_eq_true, Bool.and_eq_true,
        Bool.not_eq_true'] at member
      exact ⟨member.1, member.2.2⟩
    cases top : nest.active with
    | nil =>
      simp only [top, List.head?_nil, Option.some.injEq] at asks
      rw [← asks]
      refine ⟨bits.1, bits.2, fun other inService => ?_⟩
      rw [top] at inService
      exact absurd inService List.not_mem_nil
    | cons current rest =>
      simp only [top, List.head?_cons] at asks
      by_cases before : first < current
      · rw [if_pos before, Option.some.injEq] at asks
        rw [← asks]
        have urgent := nest.urgent
        rw [top, List.pairwise_cons] at urgent
        refine ⟨bits.1, bits.2, fun other inService => ?_⟩
        rw [top, List.mem_cons] at inService
        rcases inService with rfl | later
        · exact before
        · exact before.trans (urgent.1 other later)
      · rw [if_neg before] at asks
        exact absurd asks (Option.some_ne_none line).symm

/-- The vector of a line: the base is a multiple of eight. -/
theorem Controller.Set.vector (line : Fin 8) :
    c.vector line = base ||| BitVec.ofNat 8 line.val := by
  rw [Controller.vector, isSet.base]

end Set

/-! ### The handlers on the stack -/

/-- The line of the first controller an interrupt comes in on. -/
def masterLine (irqNum : BitVec 8) : Fin 8 :=
  if inside : irqNum.toNat < 8 then ⟨irqNum.toNat, inside⟩ else 2

/-- The line of the second controller an interrupt comes in on. -/
def slaveLine (irqNum : BitVec 8) : Option (Fin 8) :=
  if irqNum.toNat < 8 then none else some ⟨irqNum.toNat % 8, Nat.mod_lt _ (by decide)⟩

/-- Each controller has in service a nest of the lines of the handlers on the stack. -/
structure NestedHandlers (s : InterruptSystem) : Prop where
  master : s.controllers.master.Set 0x20#8 0x04#8
  slave : s.controllers.slave.Set 0x28#8 0x02#8
  known : ∀ irqNum ∈ s.active, irqNum.toNat < 16 ∧ irqNum ≠ 2#8
  masterNest : ∃ nest : PriorityNest (Fin 8), nest.active = s.active.map masterLine ∧
    levels s.controllers.master.inService = nest.levels
  slaveNest : ∃ nest : PriorityNest (Fin 8), nest.active = s.active.filterMap slaveLine ∧
    levels s.controllers.slave.inService = nest.levels

theorem masterLine_low {irqNum : BitVec 8} (low : irqNum.toNat < 8) :
    (masterLine irqNum).val = irqNum.toNat := by
  rw [masterLine, dif_pos low]

theorem masterLine_high {irqNum : BitVec 8} (high : ¬ irqNum.toNat < 8) :
    masterLine irqNum = 2 := by
  rw [masterLine, dif_neg high]

theorem slaveLine_low {irqNum : BitVec 8} (low : irqNum.toNat < 8) : slaveLine irqNum = none := by
  rw [slaveLine, if_pos low]

theorem slaveLine_high {irqNum : BitVec 8} (high : ¬ irqNum.toNat < 8) :
    slaveLine irqNum = some ⟨irqNum.toNat % 8, Nat.mod_lt _ (by decide)⟩ := by
  rw [slaveLine, if_neg high]

/-- What an interrupt is counted as when its vector is delivered. -/
theorem vectorIrq_master (line : Fin 8) : (vectorIrq (0x20#8 ||| BitVec.ofNat 8 line.val)).toNat =
    line.val := by
  revert line
  decide

theorem vectorIrq_slave (line : Fin 8) : (vectorIrq (0x28#8 ||| BitVec.ofNat 8 line.val)).toNat =
    8 + line.val := by
  revert line
  decide

/-- Only line 2 has a controller behind it. -/
theorem cascade_line (line : Fin 8) : (0x04#8).getLsbD line.val = decide (line = 2) := by
  revert line
  decide

/-- The end of an interrupt only writes to the ports. -/
theorem endOfInterrupt_eq (irqNum : BitVec 8) (kernel : InterruptState) :
    endOfInterrupt irqNum kernel =
      { kernel with
        portWrites := kernel.portWrites ++
          ((if 8#8 ≤ irqNum then [(0xA0#16, 0x20#8)] else []) ++ [(0x20#16, 0x20#8)]) } := by
  rw [endOfInterrupt]
  by_cases second : 8#8 ≤ irqNum
  · simp [second, InterruptState.outb]
  · simp [second, InterruptState.outb]

theorem portWrites_endOfInterrupt (irqNum : BitVec 8) (kernel : InterruptState) :
    (endOfInterrupt irqNum kernel).portWrites = kernel.portWrites ++
      ((if 8#8 ≤ irqNum then [(0xA0#16, 0x20#8)] else []) ++ [(0x20#16, 0x20#8)]) := by
  rw [endOfInterrupt_eq]

/-- Code that writes to no port leaves the controllers alone. -/
theorem perform_silent {s : InterruptSystem} {code : InterruptState → InterruptState}
    (silent : (code s.kernel).portWrites = s.kernel.portWrites) :
    s.perform code = { s with kernel := code s.kernel } := by
  rw [InterruptSystem.perform, silent, List.drop_length]
  rfl

/-- One byte at a port. -/
theorem perform_outb (s : InterruptSystem) (port : BitVec 16) (value : BitVec 8) :
    s.perform (fun kernel => kernel.outb port value) =
      { s with
        kernel := s.kernel.outb port value
        controllers := s.controllers.outb port value } := by
  rw [InterruptSystem.perform, InterruptState.outb, List.drop_left]
  rfl

theorem portWrites_irqInstallHandler (irq : BitVec 32) (handler : BitVec 64) (s : InterruptState) :
    (irqInstallHandler irq handler s).portWrites = s.portWrites := by
  rw [irqInstallHandler]
  split
  · rfl
  · rfl

theorem portWrites_irqUninstallHandler (irq : BitVec 32) (s : InterruptState) :
    (irqUninstallHandler irq s).portWrites = s.portWrites := by
  rw [irqUninstallHandler]
  split
  · rfl
  · rfl

section Step

variable {s : InterruptSystem} (nested : NestedHandlers s)
include nested

/-- What an acknowledgement can be: a line of the first controller, or one of the second behind
line 2. -/
theorem NestedHandlers.acknowledge_cases {controllers : Controllers} {vector : BitVec 8}
    (answer : s.controllers.acknowledge = some (controllers, vector)) :
    (∃ line, line ≠ 2 ∧ s.controllers.master.pending s.controllers.masterRequest = some line ∧
        controllers = { s.controllers with master := s.controllers.master.accept line } ∧
        vector = 0x20#8 ||| BitVec.ofNat 8 line.val) ∨
      ∃ other, s.controllers.master.pending s.controllers.masterRequest = some 2 ∧
        s.controllers.slave.pending s.controllers.slave.request = some other ∧
        controllers = ⟨s.controllers.master.accept 2, s.controllers.slave.accept other⟩ ∧
        vector = 0x28#8 ||| BitVec.ofNat 8 other.val := by
  rw [Controllers.acknowledge] at answer
  cases asks : s.controllers.master.pending s.controllers.masterRequest with
  | none =>
    rw [asks] at answer
    exact absurd answer (Option.some_ne_none _).symm
  | some line =>
    simp only [asks, nested.master.wiring, cascade_line, decide_eq_true_eq] at answer
    by_cases second : line = 2
    · rw [if_pos second] at answer
      cases asksSlave : s.controllers.slave.pending s.controllers.slave.request with
      | none =>
        rw [asksSlave] at answer
        exact absurd answer (Option.some_ne_none _).symm
      | some other =>
        simp only [asksSlave] at answer
        rw [nested.slave.wiring, second, if_pos (by decide), nested.slave.vector] at answer
        obtain ⟨rfl, rfl⟩ := Prod.mk.inj (Option.some.inj answer)
        exact Or.inr ⟨other, congrArg some second, rfl, rfl, rfl⟩
    · rw [if_neg second, nested.master.vector] at answer
      obtain ⟨rfl, rfl⟩ := Prod.mk.inj (Option.some.inj answer)
      exact Or.inl ⟨line, second, rfl, rfl, rfl⟩

theorem NestedHandlers.accept : NestedHandlers (interruptStep s .accept) := by
  obtain ⟨masterNest, masterActive, masterHolds⟩ := nested.masterNest
  obtain ⟨slaveNest, slaveActive, slaveHolds⟩ := nested.slaveNest
  have enters {line : Fin 8} (admits : masterNest.Admits line) :
      levels (s.controllers.master.accept line).inService =
        (masterNest.enter line admits).levels := by
    rw [(nested.master.accept line).2, levels_withLevel, PriorityNest.levels_enter, masterHolds]
  rw [interruptStep]
  cases answer : s.controllers.acknowledge with
  | none => exact nested
  | some result =>
    obtain ⟨controllers, vector⟩ := result
    rcases nested.acknowledge_cases answer with
      ⟨line, first, asks, rfl, rfl⟩ | ⟨other, asks, asksSlave, rfl, rfl⟩
    · obtain ⟨-, -, admits⟩ := nested.master.pending masterHolds asks
      have number := vectorIrq_master line
      have low : (vectorIrq (0x20#8 ||| BitVec.ofNat 8 line.val)).toNat < 8 := by omega
      refine ⟨(nested.master.accept line).1, nested.slave, ?_,
        ⟨masterNest.enter line admits, ?_, enters admits⟩, ⟨slaveNest, ?_, slaveHolds⟩⟩
      · refine List.forall_mem_cons.mpr ⟨⟨by omega, fun two => first ?_⟩, nested.known⟩
        rw [two] at number
        exact Fin.ext number.symm
      · show line :: masterNest.active = masterLine _ :: s.active.map masterLine
        rw [masterActive, Fin.ext ((masterLine_low low).trans number)]
      · show slaveNest.active = (_ :: s.active).filterMap slaveLine
        rw [List.filterMap_cons_none (slaveLine_low low), slaveActive]
    · obtain ⟨-, -, admits⟩ := nested.master.pending masterHolds asks
      obtain ⟨-, -, admitsSlave⟩ := nested.slave.pending slaveHolds asksSlave
      have slaveSet := nested.slave.accept other
      have number := vectorIrq_slave other
      have high : ¬ (vectorIrq (0x28#8 ||| BitVec.ofNat 8 other.val)).toNat < 8 := by omega
      refine ⟨(nested.master.accept 2).1, slaveSet.1, ?_,
        ⟨masterNest.enter 2 admits, ?_, enters admits⟩,
        ⟨slaveNest.enter other admitsSlave, ?_, ?_⟩⟩
      · refine List.forall_mem_cons.mpr ⟨⟨by omega, fun two => ?_⟩, nested.known⟩
        rw [two] at high
        exact high (by decide)
      · show 2 :: masterNest.active = masterLine _ :: s.active.map masterLine
        rw [masterLine_high high, masterActive]
      · have lineOf : (⟨(vectorIrq (0x28#8 ||| BitVec.ofNat 8 other.val)).toNat % 8,
            Nat.mod_lt _ (by decide)⟩ : Fin 8) = other := by
          refine Fin.ext ?_
          show (vectorIrq (0x28#8 ||| BitVec.ofNat 8 other.val)).toNat % 8 = other.val
          omega
        show other :: slaveNest.active = (_ :: s.active).filterMap slaveLine
        rw [List.filterMap_cons_some (slaveLine_high high), lineOf, slaveActive]
      · rw [slaveSet.2, levels_withLevel, PriorityNest.levels_enter, slaveHolds]

theorem NestedHandlers.finish : NestedHandlers (interruptStep s .finish) := by
  obtain ⟨masterNest, masterActive, masterHolds⟩ := nested.masterNest
  obtain ⟨slaveNest, slaveActive, slaveHolds⟩ := nested.slaveNest
  rw [interruptStep]
  cases active : s.active with
  | nil => exact nested
  | cons irqNum rest =>
    have known := nested.known
    rw [active] at masterActive slaveActive known
    have masterEnd := nested.master.endOfInterrupt
    have slaveEnd := nested.slave.endOfInterrupt
    have masterLeft := levels_retire masterHolds
    have masterRest : masterNest.leave.active = rest.map masterLine :=
      congrArg List.tail masterActive
    simp only [InterruptSystem.perform, portWrites_endOfInterrupt, List.drop_left]
    by_cases low : irqNum.toNat < 8
    · have first : ¬ 8#8 ≤ irqNum := by
        rw [BitVec.le_def]
        exact Nat.not_le.mpr low
      rw [if_neg first]
      refine ⟨masterEnd.1, nested.slave, fun other member => known other
        (List.mem_cons_of_mem _ member), ⟨masterNest.leave, masterRest, ?_⟩,
        ⟨slaveNest, ?_, slaveHolds⟩⟩
      · exact masterEnd.2 ▸ masterLeft
      · rw [slaveActive, List.filterMap_cons_none (slaveLine_low low)]
    · have second : 8#8 ≤ irqNum := by
        rw [BitVec.le_def]
        exact Nat.not_lt.mp low
      rw [if_pos second]
      refine ⟨masterEnd.1, slaveEnd.1, fun other member => known other
        (List.mem_cons_of_mem _ member), ⟨masterNest.leave, masterRest, ?_⟩,
        ⟨slaveNest.leave, ?_, ?_⟩⟩
      · exact masterEnd.2 ▸ masterLeft
      · rw [List.filterMap_cons_some (slaveLine_high low)] at slaveActive
        exact congrArg List.tail slaveActive
      · exact slaveEnd.2 ▸ levels_retire slaveHolds

/-- An event that keeps the handlers, the set-up and the lines in service. -/
theorem NestedHandlers.keeps {controllers : Controllers} (kernel : InterruptState)
    (master : controllers.master.Set 0x20#8 0x04#8) (slave : controllers.slave.Set 0x28#8 0x02#8)
    (masterService : controllers.master.inService = s.controllers.master.inService)
    (slaveService : controllers.slave.inService = s.controllers.slave.inService) :
    NestedHandlers { kernel := kernel, controllers := controllers, active := s.active } :=
  ⟨master, slave, nested.known, masterService ▸ nested.masterNest,
    slaveService ▸ nested.slaveNest⟩

/-- Every event keeps the handlers nested. -/
theorem nestedHandlers_step (event : InterruptEvent) : NestedHandlers (interruptStep s event) := by
  have request (line : Fin 16) (raised : Bool) :
      NestedHandlers { s with controllers := s.controllers.setRequest line raised } := by
    rw [Controllers.setRequest]
    by_cases first : line.val < 8
    · simp only [if_pos first]
      exact nested.keeps _ ⟨nested.master.stage, nested.master.base, nested.master.wiring,
        nested.master.mode⟩ nested.slave rfl rfl
    · simp only [if_neg first]
      exact nested.keeps _ nested.master ⟨nested.slave.stage, nested.slave.base,
        nested.slave.wiring, nested.slave.mode⟩ rfl rfl
  cases event with
  | raise line => exact request line true
  | withdraw line => exact request line false
  | maskMaster mask =>
    have written : s.controllers.outb 0x21#16 mask =
        { s.controllers with master := { s.controllers.master with mask := mask } } := by
      rw [← nested.master.data]
      rfl
    rw [interruptStep, perform_outb, written]
    exact nested.keeps _ ⟨nested.master.stage, nested.master.base, nested.master.wiring,
      nested.master.mode⟩ nested.slave rfl rfl
  | maskSlave mask =>
    have written : s.controllers.outb 0xA1#16 mask =
        { s.controllers with slave := { s.controllers.slave with mask := mask } } := by
      rw [← nested.slave.data]
      rfl
    rw [interruptStep, perform_outb, written]
    exact nested.keeps _ nested.master ⟨nested.slave.stage, nested.slave.base,
      nested.slave.wiring, nested.slave.mode⟩ rfl rfl
  | install irq handler =>
    rw [interruptStep, perform_silent (portWrites_irqInstallHandler irq handler _)]
    exact nested.keeps _ nested.master nested.slave rfl rfl
  | uninstall irq =>
    rw [interruptStep, perform_silent (portWrites_irqUninstallHandler irq _)]
    exact nested.keeps _ nested.master nested.slave rfl rfl
  | accept => exact nested.accept
  | finish => exact nested.finish

end Step

section Spurious

variable {s : InterruptSystem} (nested : NestedHandlers s)
include nested

/-- The first controller asks only for what is more urgent than every handler on the stack. -/
theorem NestedHandlers.above_of_asks {request : BitVec 8} {line : Fin 8}
    (asks : s.controllers.master.pending request = some line) :
    ∀ irqNum ∈ s.active, line < masterLine irqNum := by
  obtain ⟨nest, active, holds⟩ := nested.masterNest
  obtain ⟨-, -, admits⟩ := nested.master.pending holds asks
  rw [PriorityNest.Admits, active, List.forall_mem_map] at admits
  exact admits

theorem NestedHandlers.controllers_spuriousMaster : (spuriousMaster s).controllers =
    { s.controllers with master := s.controllers.master.command 0x20#8 } := by
  have first : ¬ 8#8 ≤ vectorIrq (0x20#8 ||| BitVec.ofNat 8 (7 : Fin 8).val) := by decide
  rw [M12.spuriousMaster, nested.master.vector]
  simp only [InterruptSystem.perform, portWrites_endOfInterrupt, List.drop_left, if_neg first]
  rfl

theorem NestedHandlers.controllers_spuriousSlave : (spuriousSlave s).controllers =
    ⟨(s.controllers.master.accept 2).command 0x20#8, s.controllers.slave.command 0x20#8⟩ := by
  have second : 8#8 ≤ vectorIrq (0x28#8 ||| BitVec.ofNat 8 (7 : Fin 8).val) := by decide
  rw [M12.spuriousSlave, nested.slave.vector]
  simp only [InterruptSystem.perform, portWrites_endOfInterrupt, List.drop_left, if_pos second]
  rfl

theorem NestedHandlers.retire_idle (idle : s.active = []) :
    retire s.controllers.master.inService = s.controllers.master.inService := by
  obtain ⟨nest, active, holds⟩ := nested.masterNest
  refine eq_of_levels ((levels_retire holds).trans ?_)
  show nest.active.tail.toFinset = levels s.controllers.master.inService
  rw [holds, PriorityNest.levels, active, idle]
  rfl

/-- Line 2 comes in above all handlers, so it is the one that goes, and the second controller has
none in service that could. -/
theorem NestedHandlers.retire_cascade (above : ∀ irqNum ∈ s.active, 2 < masterLine irqNum) :
    retire (withLevel s.controllers.master.inService 2) = s.controllers.master.inService ∧
      retire s.controllers.slave.inService = s.controllers.slave.inService := by
  obtain ⟨nest, active, holds⟩ := nested.masterNest
  obtain ⟨slaveNest, slaveActive, slaveHolds⟩ := nested.slaveNest
  have admits : nest.Admits 2 := by
    rw [PriorityNest.Admits, active, List.forall_mem_map]
    exact above
  have entered : levels (withLevel s.controllers.master.inService 2) =
      (nest.enter 2 admits).levels := by
    rw [levels_withLevel, PriorityNest.levels_enter, holds]
  have noSlave : slaveNest.active = [] := by
    rw [slaveActive, List.filterMap_eq_nil_iff]
    intro irqNum member
    refine slaveLine_low (Nat.not_le.mp fun high => ?_)
    have second := above irqNum member
    rw [masterLine_high (Nat.not_lt.mpr high)] at second
    exact absurd second (lt_irrefl 2)
  refine ⟨eq_of_levels ((levels_retire entered).trans holds.symm), eq_of_levels ?_⟩
  rw [levels_retire slaveHolds, slaveHolds]
  show slaveNest.active.tail.toFinset = slaveNest.active.toFinset
  rw [noSlave]
  rfl

theorem NestedHandlers.spuriousMaster (idle : s.active = []) :
    NestedHandlers (spuriousMaster s) := by
  have ends := nested.master.endOfInterrupt
  have kept : NestedHandlers
      { kernel := (M12.spuriousMaster s).kernel
        controllers := { s.controllers with master := s.controllers.master.command 0x20#8 }
        active := s.active } :=
    nested.keeps _ ends.1 nested.slave (ends.2.trans (nested.retire_idle idle)) rfl
  rwa [← nested.controllers_spuriousMaster] at kept

theorem NestedHandlers.spuriousSlave (above : ∀ irqNum ∈ s.active, 2 < masterLine irqNum) :
    NestedHandlers (spuriousSlave s) := by
  have accepted := nested.master.accept 2
  have ends := accepted.1.endOfInterrupt
  have slaveEnds := nested.slave.endOfInterrupt
  obtain ⟨masterKept, slaveKept⟩ := nested.retire_cascade above
  rw [accepted.2] at ends
  have kept : NestedHandlers
      { kernel := (M12.spuriousSlave s).kernel
        controllers :=
          ⟨(s.controllers.master.accept 2).command 0x20#8, s.controllers.slave.command 0x20#8⟩
        active := s.active } :=
    nested.keeps _ ends.1 slaveEnds.1 (ends.2.trans masterKept) (slaveEnds.2.trans slaveKept)
  rwa [← nested.controllers_spuriousSlave] at kept

theorem nestedHandlers_lineStep {event : LineEvent}
    (idle : event = .spuriousMaster → s.active = []) : NestedHandlers (lineStep s event) := by
  cases event with
  | event event => exact nestedHandlers_step nested event
  | spuriousMaster => exact nested.spuriousMaster (idle rfl)
  | spuriousSlave =>
    rw [lineStep]
    split
    · next asks => exact nested.spuriousSlave (nested.above_of_asks asks)
    · exact nested

end Spurious

/-- The handlers stay nested, with spurious interrupts between them. -/
theorem nestedHandlers_lineRun {s : InterruptSystem} (nested : NestedHandlers s)
    {events : List LineEvent} (idle : SpuriousWhileIdle s events) :
    NestedHandlers (lineRun s events) := by
  induction events generalizing s with
  | nil => exact nested
  | cons event rest inductionHypothesis =>
    exact inductionHypothesis (nestedHandlers_lineStep nested idle.1) idle.2

/-- `Init_IRQ` leaves nothing in service. -/
theorem nestedHandlers_started (idt : BitVec 64) (isr irq : Nat → BitVec 64)
    (kernel : InterruptState) (controllers : Controllers) :
    NestedHandlers (startedInterrupts idt isr irq kernel controllers) := by
  have words := controllers_startedInterrupts idt isr irq kernel controllers
  have empty : levels (0#8) = (PriorityNest.idle : PriorityNest (Fin 8)).levels := levels_zero
  refine ⟨?_, ?_, fun irqNum member => absurd member List.not_mem_nil,
    ⟨PriorityNest.idle, rfl, ?_⟩, ⟨PriorityNest.idle, rfl, ?_⟩⟩
  · rw [words]
    exact Controller.set_fresh _ _
  · rw [words]
    exact Controller.set_fresh _ _
  · rw [words]
    exact empty
  · rw [words]
    exact empty

/-! ### The end of an interrupt -/

/-- A device's line has a request the controllers have not passed on. -/
def Controllers.Requested (p : Controllers) (line : Fin 16) : Prop :=
  if line.val < 8 then p.master.request.getLsbD line.val = true
  else p.slave.request.getLsbD (line.val - 8) = true

/-- A device's line is masked, at its own controller or with all of the second one. -/
def Controllers.Masked (p : Controllers) (line : Fin 16) : Prop :=
  if line.val < 8 then p.master.mask.getLsbD line.val = true
  else p.slave.mask.getLsbD (line.val - 8) = true ∨ p.master.mask.getLsbD 2 = true

/-- The lines in service are those whose handlers are on the stack, with the cascade for the lines
of the second controller; each of them interrupted less urgent ones only; and the next vector is
the one of a line that is requested, not masked and more urgent than all of them. -/
structure ServesOwn (s : InterruptSystem) : Prop where
  known : ∀ irqNum ∈ s.active, irqNum.toNat < 16 ∧ irqNum ≠ 2#8
  urgent : s.active.Pairwise fun later earlier => masterLine later < masterLine earlier
  master : ∀ line : Fin 8, line ≠ 2 →
    (s.controllers.master.inService.getLsbD line.val = true ↔ BitVec.ofNat 8 line.val ∈ s.active)
  cascade : s.controllers.master.inService.getLsbD 2 = true ↔ ∃ irqNum ∈ s.active, 8 ≤ irqNum.toNat
  slave : ∀ line : Fin 8, s.controllers.slave.inService.getLsbD line.val = true ↔
    BitVec.ofNat 8 (8 + line.val) ∈ s.active
  delivered : ∀ controllers vector, s.controllers.acknowledge = some (controllers, vector) →
    ∃ line : Fin 16, vector = BitVec.ofNat 8 (32 + line.val) ∧ s.controllers.Requested line ∧
      ¬ s.controllers.Masked line ∧
      ∀ irqNum ∈ s.active, masterLine (BitVec.ofNat 8 line.val) < masterLine irqNum

theorem vector_master (line : Fin 8) :
    0x20#8 ||| BitVec.ofNat 8 line.val = BitVec.ofNat 8 (32 + line.val) := by
  revert line
  decide

theorem vector_slave (line : Fin 8) :
    0x28#8 ||| BitVec.ofNat 8 line.val = BitVec.ofNat 8 (32 + (8 + line.val)) := by
  revert line
  decide

theorem masterLine_ofNat (line : Fin 8) : masterLine (BitVec.ofNat 8 line.val) = line := by
  revert line
  decide

theorem masterLine_ofNat_slave (line : Fin 8) :
    masterLine (BitVec.ofNat 8 (8 + line.val)) = 2 := by
  revert line
  decide

theorem slaveLine_ofNat (line : Fin 8) :
    slaveLine (BitVec.ofNat 8 (8 + line.val)) = some line := by
  revert line
  decide

/-- The interrupts of the first controller are the ones below eight. -/
theorem eq_of_masterLine {irqNum : BitVec 8} {line : Fin 8} (first : line ≠ 2)
    (same : masterLine irqNum = line) : irqNum = BitVec.ofNat 8 line.val := by
  by_cases low : irqNum.toNat < 8
  · refine BitVec.eq_of_toNat_eq ?_
    rw [← same, masterLine_low low, BitVec.ofNat_toNat, BitVec.setWidth_eq]
  · rw [masterLine_high low] at same
    exact absurd same.symm first

theorem eq_of_slaveLine {irqNum : BitVec 8} {line : Fin 8} (known : irqNum.toNat < 16)
    (same : slaveLine irqNum = some line) : irqNum = BitVec.ofNat 8 (8 + line.val) := by
  by_cases low : irqNum.toNat < 8
  · rw [slaveLine_low low] at same
    exact absurd same (Option.some_ne_none line).symm
  · rw [slaveLine_high low] at same
    have place : irqNum.toNat % 8 = line.val := congrArg Fin.val (Option.some.inj same)
    refine BitVec.eq_of_toNat_eq ?_
    rw [BitVec.toNat_ofNat]
    omega

/-- A device of the first controller has the request there itself. -/
theorem Controllers.getLsbD_masterRequest (p : Controllers) {line : Fin 8} (first : line ≠ 2)
    (asks : p.masterRequest.getLsbD line.val = true) :
    p.master.request.getLsbD line.val = true := by
  rw [← mem_levels, Controllers.masterRequest] at asks
  rw [← mem_levels]
  split at asks
  · rw [levels_withLevel, Finset.mem_insert] at asks
    exact asks.resolve_left first
  · rw [levels_withoutLevel, Finset.mem_erase] at asks
    exact asks.2

section Nested

variable {s : InterruptSystem} (nested : NestedHandlers s)
include nested

theorem NestedHandlers.urgent :
    s.active.Pairwise fun later earlier => masterLine later < masterLine earlier := by
  obtain ⟨nest, active, -⟩ := nested.masterNest
  have urgent := nest.urgent
  rwa [active, List.pairwise_map] at urgent

theorem NestedHandlers.mem_master (line : Fin 8) :
    s.controllers.master.inService.getLsbD line.val = true ↔
      ∃ irqNum ∈ s.active, masterLine irqNum = line := by
  obtain ⟨nest, active, holds⟩ := nested.masterNest
  rw [← mem_levels, holds, PriorityNest.mem_levels, active, List.mem_map]

theorem NestedHandlers.mem_slave (line : Fin 8) :
    s.controllers.slave.inService.getLsbD line.val = true ↔
      ∃ irqNum ∈ s.active, slaveLine irqNum = some line := by
  obtain ⟨nest, active, holds⟩ := nested.slaveNest
  rw [← mem_levels, holds, PriorityNest.mem_levels, active, List.mem_filterMap]

/-- The controllers ask for a line of one of the devices, and it is the most urgent of all. -/
theorem NestedHandlers.delivered {controllers : Controllers} {vector : BitVec 8}
    (answer : s.controllers.acknowledge = some (controllers, vector)) :
    ∃ line : Fin 16, vector = BitVec.ofNat 8 (32 + line.val) ∧ s.controllers.Requested line ∧
      ¬ s.controllers.Masked line ∧
      ∀ irqNum ∈ s.active, masterLine (BitVec.ofNat 8 line.val) < masterLine irqNum := by
  obtain ⟨nest, -, holds⟩ := nested.masterNest
  obtain ⟨slaveNest, -, slaveHolds⟩ := nested.slaveNest
  rcases nested.acknowledge_cases answer with
    ⟨line, first, asks, -, vectorOf⟩ | ⟨other, asks, asksSlave, -, vectorOf⟩
  · obtain ⟨requested, unmasked, -⟩ := nested.master.pending holds asks
    refine ⟨⟨line.val, line.isLt.trans (by decide)⟩, ?_, ?_, ?_, ?_⟩
    · exact vectorOf.trans (vector_master line)
    · rw [Controllers.Requested, if_pos line.isLt]
      exact s.controllers.getLsbD_masterRequest first requested
    · rw [Controllers.Masked, if_pos line.isLt, unmasked]
      exact Bool.false_ne_true
    · rw [masterLine_ofNat]
      exact nested.above_of_asks asks
  · obtain ⟨-, open', -⟩ := nested.master.pending holds asks
    obtain ⟨requested, unmasked, -⟩ := nested.slave.pending slaveHolds asksSlave
    refine ⟨⟨8 + other.val, by omega⟩, ?_, ?_, ?_, ?_⟩
    · exact vectorOf.trans (vector_slave other)
    · rw [Controllers.Requested, if_neg (by simp), Nat.add_sub_cancel_left]
      exact requested
    · rw [Controllers.Masked, if_neg (by simp), Nat.add_sub_cancel_left, unmasked]
      rintro (masked | masked)
      · exact Bool.false_ne_true masked
      · exact Bool.false_ne_true (open'.symm.trans masked)
    · rw [masterLine_ofNat_slave]
      exact nested.above_of_asks asks

theorem servesOwn_of_nested : ServesOwn s where
  known := nested.known
  urgent := nested.urgent
  master line first := by
    rw [nested.mem_master]
    constructor
    · rintro ⟨irqNum, member, same⟩
      exact eq_of_masterLine first same ▸ member
    · exact fun member => ⟨_, member, masterLine_ofNat line⟩
  cascade := by
    refine (nested.mem_master 2).trans ⟨?_, ?_⟩
    · rintro ⟨irqNum, member, same⟩
      refine ⟨irqNum, member, Nat.not_lt.mp fun low => (nested.known irqNum member).2 ?_⟩
      refine BitVec.eq_of_toNat_eq ?_
      rw [← masterLine_low low, same]
      rfl
    · rintro ⟨irqNum, member, high⟩
      exact ⟨irqNum, member, masterLine_high (Nat.not_lt.mpr high)⟩
  slave line := by
    rw [nested.mem_slave]
    constructor
    · rintro ⟨irqNum, member, same⟩
      exact eq_of_slaveLine (nested.known irqNum member).1 same ▸ member
    · exact fun member => ⟨_, member, slaveLine_ofNat line⟩
  delivered _ _ answer := nested.delivered answer

end Nested

/-- The end of an interrupt ends the right one. After `Init_IDT`, `Init_ISR` and `Init_IRQ`, on
controllers in whatever state, and after any requests, masks, installed handlers, interrupts that
are taken, also inside other handlers, handlers that end, and spurious interrupts, of the first
controller while no handler is on the stack: the lines in service are those whose handlers are on
the stack. -/
theorem end_of_interrupt_ends_own (idt : BitVec 64) (isr irq : Nat → BitVec 64)
    (kernel : InterruptState) (controllers : Controllers) (events : List LineEvent)
    (idle : SpuriousWhileIdle (startedInterrupts idt isr irq kernel controllers) events) :
    ServesOwn (lineRun (startedInterrupts idt isr irq kernel controllers) events) :=
  servesOwn_of_nested
    (nestedHandlers_lineRun (nestedHandlers_started idt isr irq kernel controllers) idle)

/-- A kernel that has just been loaded. -/
def loadedInterrupts : InterruptState where
  memory := fun _ => 0#8
  idtPtr := ⟨0#16, 0#64⟩
  idtr := ⟨0#16, 0#64⟩
  irqHandlers := fun _ => 0#64
  portWrites := []

/-- All lines are opened and the first interrupt is a spurious one; then line 3 is served, and a
spurious interrupt of the second controller comes in above it. -/
def spuriousEvents : List LineEvent :=
  [.event (.maskMaster 0#8), .event (.maskSlave 0#8), .spuriousMaster, .event (.raise 3),
    .event .accept, .spuriousSlave]

theorem spuriousWhileIdle_spuriousEvents (idt : BitVec 64) (isr irq : Nat → BitVec 64)
    (kernel : InterruptState) (controllers : Controllers) :
    SpuriousWhileIdle (startedInterrupts idt isr irq kernel controllers) spuriousEvents := by
  simp only [spuriousEvents, SpuriousWhileIdle, reduceCtorEq, forall_const, false_implies,
    true_and, and_true]
  rfl

/-- The handler of line 3 is on the stack and in service, and no other line is. -/
theorem end_of_interrupt_ends_own_spurious :
    (lineRun (startedInterrupts 0x14000#64 (fun _ => 0x10200#64) (fun _ => 0x10400#64)
      loadedInterrupts ⟨freshController 0#8 0#8, freshController 0#8 0#8⟩)
        spuriousEvents).active = [3#8] ∧
    ServesOwn (lineRun (startedInterrupts 0x14000#64 (fun _ => 0x10200#64) (fun _ => 0x10400#64)
      loadedInterrupts ⟨freshController 0#8 0#8, freshController 0#8 0#8⟩) spuriousEvents) :=
  ⟨rfl, end_of_interrupt_ends_own _ _ _ _ _ _ (spuriousWhileIdle_spuriousEvents _ _ _ _ _)⟩

end M12
