/-
This file proves which device interrupts the kernel gets and where they end up.

Nothing under `kernel/` opens a mask after `Init_PIC`, so no device interrupts the
kernel until a driver does. When one does, the interrupt goes through the gate of
its line to the stub, the stub builds the frame, and `irq_handler` finds in the
frame which installed handler to call. It does not ask the controllers whether
the interrupt is spurious.
-/

import M12.InterruptControllers

namespace M12

open LevelRegister

/-! ### Masked lines -/

/-- The first controller masks all its lines, and no handler is on the stack. -/
structure AllMasked (s : InterruptSystem) : Prop where
  nested : NestedHandlers s
  mask : s.controllers.master.mask = 0xFF#8
  idle : s.active = []

theorem pending_of_masked {c : Controller} (masked : c.mask = 0xFF#8) (request : BitVec 8) :
    c.pending request = none := by
  have nothing : mostUrgent (request &&& ~~~0xFF#8) = none := by
    have zero : request &&& ~~~0xFF#8 = 0#8 := BitVec.and_zero
    rw [zero, mostUrgent_eq_none_iff]
    exact levels_zero
  rw [Controller.pending, masked, nothing]
  split
  · rfl
  · rfl

theorem AllMasked.acknowledge {s : InterruptSystem} (masked : AllMasked s) :
    s.controllers.acknowledge = none := by
  rw [Controllers.acknowledge, pending_of_masked masked.mask]

theorem AllMasked.step {s : InterruptSystem} (masked : AllMasked s) {event : InterruptEvent}
    (other : ∀ mask, event ≠ .maskMaster mask) : AllMasked (interruptStep s event) := by
  have request (line : Fin 16) (raised : Bool) :
      (s.controllers.setRequest line raised).master.mask = 0xFF#8 := by
    rw [Controllers.setRequest]
    split
    · exact masked.mask
    · exact masked.mask
  have nested := nestedHandlers_step masked.nested event
  cases event with
  | raise line => exact ⟨nested, request line true, masked.idle⟩
  | withdraw line => exact ⟨nested, request line false, masked.idle⟩
  | maskMaster mask => exact absurd rfl (other mask)
  | maskSlave mask =>
    rw [interruptStep, perform_outb] at nested ⊢
    exact ⟨nested, masked.mask, masked.idle⟩
  | install irq handler =>
    rw [interruptStep, perform_silent (portWrites_irqInstallHandler irq handler _)] at nested ⊢
    exact ⟨nested, masked.mask, masked.idle⟩
  | uninstall irq =>
    rw [interruptStep, perform_silent (portWrites_irqUninstallHandler irq _)] at nested ⊢
    exact ⟨nested, masked.mask, masked.idle⟩
  | accept =>
    rw [interruptStep, masked.acknowledge] at nested ⊢
    exact masked
  | finish =>
    rw [interruptStep, masked.idle] at nested ⊢
    exact masked

theorem AllMasked.run {s : InterruptSystem} (masked : AllMasked s) {events : List InterruptEvent}
    (others : ∀ mask, .maskMaster mask ∉ events) : AllMasked (interruptRun s events) := by
  induction events generalizing s with
  | nil => exact masked
  | cons event rest inductionHypothesis =>
    refine inductionHypothesis (masked.step fun mask same => others mask ?_) fun mask member =>
      others mask (List.mem_cons_of_mem _ member)
    exact same ▸ List.mem_cons_self

theorem allMasked_started (idt : BitVec 64) (isr irq : Nat → BitVec 64) (kernel : InterruptState)
    (controllers : Controllers) :
    AllMasked (startedInterrupts idt isr irq kernel controllers) := by
  refine ⟨nestedHandlers_started idt isr irq kernel controllers, ?_, rfl⟩
  rw [controllers_startedInterrupts]
  rfl

/-- The kernel gets no device interrupt. `Init_PIC` masks all lines and installing a handler opens
none: until somebody writes the mask of the first controller, no interrupt is ever asked for,
whatever devices raise, whatever handlers are installed and whatever the second mask is. -/
theorem masked_interrupts_stay_out (idt : BitVec 64) (isr irq : Nat → BitVec 64)
    (kernel : InterruptState) (controllers : Controllers) (events : List InterruptEvent)
    (closed : ∀ mask, .maskMaster mask ∉ events) :
    (interruptRun (startedInterrupts idt isr irq kernel controllers) events).active = [] ∧
      (interruptRun (startedInterrupts idt isr irq kernel controllers)
        events).controllers.acknowledge = none := by
  have masked := (allMasked_started idt isr irq kernel controllers).run closed
  exact ⟨masked.idle, masked.acknowledge⟩

/-- A timer with a handler and an open second controller. -/
theorem masked_interrupts_stay_out_timer :
    (interruptRun (startedInterrupts 0x14000#64 (fun _ => 0x10200#64) (fun _ => 0x10400#64)
      loadedInterrupts ⟨freshController 0#8 0#8, freshController 0#8 0#8⟩)
        [.install 0#32 0x10800#64, .maskSlave 0#8, .raise 0, .raise 8, .accept]).active = [] ∧
      (interruptRun (startedInterrupts 0x14000#64 (fun _ => 0x10200#64) (fun _ => 0x10400#64)
        loadedInterrupts ⟨freshController 0#8 0#8, freshController 0#8 0#8⟩)
          [.install 0#32 0x10800#64, .maskSlave 0#8, .raise 0, .raise 8,
            .accept]).controllers.acknowledge = none := by
  exact masked_interrupts_stay_out _ _ _ _ _ _ (by simp)

/-! ### Spurious interrupts -/

/-- What the end of a spurious interrupt does: at the first controller it takes the line of the
handler that was interrupted out of service, at the second one nothing. -/
structure SpuriousEnds (s : InterruptSystem) : Prop where
  master : (spuriousMaster s).controllers.master.inService = s.controllers.master.inService ↔
    s.active = []
  interrupted : ∀ irqNum rest, s.active = irqNum :: rest →
    (spuriousMaster s).controllers.master.inService.getLsbD (masterLine irqNum).val = false
  slave : (∀ irqNum ∈ s.active, 2 < masterLine irqNum) →
    (spuriousSlave s).controllers.master.inService = s.controllers.master.inService ∧
      (spuriousSlave s).controllers.slave.inService = s.controllers.slave.inService

theorem spuriousEnds_of_nested {s : InterruptSystem} (nested : NestedHandlers s) :
    SpuriousEnds s := by
  obtain ⟨nest, active, holds⟩ := nested.masterNest
  have ends : (spuriousMaster s).controllers.master.inService =
      retire s.controllers.master.inService := by
    rw [nested.controllers_spuriousMaster]
    exact nested.master.endOfInterrupt.2
  have left := levels_retire holds
  have gone {irqNum : BitVec 8} {rest : List (BitVec 8)} (top : s.active = irqNum :: rest) :
      masterLine irqNum ∈ nest.levels ∧ masterLine irqNum ∉ nest.leave.levels := by
    rw [top, List.map_cons] at active
    have least := PriorityNest.isLeast_head active
    refine ⟨least.1, ?_⟩
    rw [PriorityNest.levels_leave least]
    exact Finset.notMem_erase _ _
  refine ⟨?_, fun irqNum rest top => ?_, fun above => ?_⟩
  · rw [ends]
    constructor
    · intro same
      cases top : s.active with
      | nil => rfl
      | cons irqNum rest =>
        rw [same, holds] at left
        exact absurd (left ▸ (gone top).1) (gone top).2
    · exact nested.retire_idle
  · rw [ends, ← Bool.not_eq_true, ← mem_levels, left]
    exact (gone top).2
  · have accepted := nested.master.accept 2
    rw [nested.controllers_spuriousSlave, accepted.1.endOfInterrupt.2,
      nested.slave.endOfInterrupt.2, accepted.2]
    exact nested.retire_cascade above

/-- `irq_handler` does not ask whether an interrupt is spurious. In every state of a run whose
spurious interrupts of the first controller have come while no handler was on the stack, it is
harmless to end another one exactly if that is so again; else the line of the handler it interrupted
is out of service before that handler has ended. One of the second controller is always harmless. -/
theorem spurious_end_of_interrupt (idt : BitVec 64) (isr irq : Nat → BitVec 64)
    (kernel : InterruptState) (controllers : Controllers) (events : List LineEvent)
    (idle : SpuriousWhileIdle (startedInterrupts idt isr irq kernel controllers) events) :
    SpuriousEnds (lineRun (startedInterrupts idt isr irq kernel controllers) events) :=
  spuriousEnds_of_nested
    (nestedHandlers_lineRun (nestedHandlers_started idt isr irq kernel controllers) idle)

/-- The next spurious interrupt comes inside the handler of line 3 and takes it out of service. -/
theorem spurious_end_of_interrupt_spurious :
    SpuriousEnds (lineRun (startedInterrupts 0x14000#64 (fun _ => 0x10200#64)
      (fun _ => 0x10400#64) loadedInterrupts ⟨freshController 0#8 0#8, freshController 0#8 0#8⟩)
        spuriousEvents) ∧
    (lineRun (startedInterrupts 0x14000#64 (fun _ => 0x10200#64) (fun _ => 0x10400#64)
      loadedInterrupts ⟨freshController 0#8 0#8, freshController 0#8 0#8⟩)
        spuriousEvents).controllers.master.inService = 0x08#8 ∧
    (spuriousMaster (lineRun (startedInterrupts 0x14000#64 (fun _ => 0x10200#64)
      (fun _ => 0x10400#64) loadedInterrupts ⟨freshController 0#8 0#8, freshController 0#8 0#8⟩)
        spuriousEvents)).controllers.master.inService = 0#8 :=
  ⟨spurious_end_of_interrupt _ _ _ _ _ _ (spuriousWhileIdle_spuriousEvents _ _ _ _ _), rfl, rfl⟩

/-! ### From a line to its handler -/

/-- A call of `irq_install_handler` or `irq_uninstall_handler`. -/
inductive HandlerCall where
  | install (irq : BitVec 32) (handler : BitVec 64)
  | uninstall (irq : BitVec 32)
deriving DecidableEq

namespace HandlerCall

/-- The number the call is for. -/
def irq : HandlerCall → BitVec 32
  | install irq _ => irq
  | uninstall irq => irq

/-- What the call puts into the table. -/
def handler : HandlerCall → BitVec 64
  | install _ handler => handler
  | uninstall _ => 0#64

end HandlerCall

/-- The state after one call. -/
def handlerStep (s : InterruptState) : HandlerCall → InterruptState
  | .install irq handler => irqInstallHandler irq handler s
  | .uninstall irq => irqUninstallHandler irq s

/-- The state after some calls. -/
def handlerRun (s : InterruptState) (calls : List HandlerCall) : InterruptState :=
  calls.foldl handlerStep s

/-- The handler the last call for a line has left. -/
def lastHandler (calls : List HandlerCall) (line : Fin 16) : BitVec 64 :=
  ((calls.reverse.find? fun call => call.irq.toInt = (line.val : Int)).map
    HandlerCall.handler).getD 0#64

theorem handlerStep_eq (s : InterruptState) (call : HandlerCall) :
    handlerStep s call = if ValidIrq call.irq then
      { s with irqHandlers := Function.update s.irqHandlers call.irq.toInt.toNat call.handler }
    else s := by
  cases call with
  | install irq handler => rfl
  | uninstall irq => rfl

/-- The calls write to the table of handlers only. -/
theorem handlerRun_frame (s : InterruptState) (calls : List HandlerCall) :
    (handlerRun s calls).memory = s.memory ∧ (handlerRun s calls).idtr = s.idtr ∧
      (handlerRun s calls).portWrites = s.portWrites := by
  induction calls generalizing s with
  | nil => exact ⟨rfl, rfl, rfl⟩
  | cons call rest inductionHypothesis =>
    have step : (handlerStep s call).memory = s.memory ∧ (handlerStep s call).idtr = s.idtr ∧
        (handlerStep s call).portWrites = s.portWrites := by
      rw [handlerStep_eq]
      split
      · exact ⟨rfl, rfl, rfl⟩
      · exact ⟨rfl, rfl, rfl⟩
    obtain ⟨memory, idtr, portWrites⟩ := inductionHypothesis (handlerStep s call)
    exact ⟨memory.trans step.1, idtr.trans step.2.1, portWrites.trans step.2.2⟩

theorem irqHandlers_handlerRun {s : InterruptState} {line : Fin 16}
    (empty : s.irqHandlers line.val = 0#64) (calls : List HandlerCall) :
    (handlerRun s calls).irqHandlers line.val = lastHandler calls line := by
  induction calls using List.reverseRecOn with
  | nil => exact empty
  | append_singleton calls call inductionHypothesis =>
    rw [handlerRun, List.foldl_append, List.foldl_cons, List.foldl_nil, ← handlerRun,
      handlerStep_eq, lastHandler, List.reverse_append, List.reverse_singleton,
      List.singleton_append, List.find?_cons]
    by_cases own : call.irq.toInt = line.val
    · have valid : ValidIrq call.irq := by
        rw [ValidIrq, own]
        omega
      have place : call.irq.toInt.toNat = line.val := by rw [own, Int.toNat_natCast]
      simp only [own, decide_true, if_pos valid]
      rw [Int.toNat_natCast, Function.update_self]
      rfl
    · simp only [own, decide_false]
      rw [← lastHandler, ← inductionHypothesis]
      by_cases valid : ValidIrq call.irq
      · rw [if_pos valid]
        refine Function.update_of_ne (fun same => own ?_) _ _
        have sign := valid.1
        omega
      · rw [if_neg valid]

/-- `Init_IRQ` leaves no handler installed. -/
theorem irqHandlers_initInterrupts (idt : BitVec 64) (isr irq : Nat → BitVec 64)
    (kernel : InterruptState) (line : Fin 16) :
    (initInterrupts idt isr irq kernel).irqHandlers line.val = 0#64 := by
  have cleared := PackedRecord.foldl_update_apply (fun i : Nat => i) (fun _ => 0#64)
    (initIsr idt isr (initIdt idt kernel)).irqHandlers (List.range 16) line.val
  refine Eq.trans cleared ?_
  cases found : (List.range 16).reverse.find? fun i => i = line.val with
  | none =>
    have member : line.val ∈ (List.range 16).reverse := by simp [line.isLt]
    exact absurd (decide_eq_true rfl) (List.find?_eq_none.mp found line.val member)
  | some i => rfl

/-- The interrupt of a device's line. -/
def Interrupt.onLine (i : Interrupt) (irq : Nat → BitVec 64) (line : Fin 16) : Interrupt :=
  { i with vector := ⟨32 + line.val, by omega⟩, stub := irq line.val }

theorem irqNumber_onLine (i : Interrupt) (irq : Nat → BitVec 64) (line : Fin 16) :
    irqNumber (i.onLine irq line).frame = BitVec.ofNat 8 line.val := by
  show (BitVec.ofNat 64 (32 + line.val) - 32#64).setWidth 8 = BitVec.ofNat 8 line.val
  revert line
  decide

/-- A device's interrupt reaches its handler. After the set-up and any calls that install and
remove handlers, with numbers in range or not, the gate of a line's vector leads to the line's
stub, and `irq_handler`, called with the frame the stub has built, calls the handler that was
installed last for this line with the interrupted state, or none if it was removed, and then ends
the interrupt at the controllers it came through. -/
theorem device_interrupt_reaches_handler (idt : BitVec 64) (isr irq : Nat → BitVec 64)
    (kernel : InterruptState) (calls : List HandlerCall)
    (invoke : BitVec 64 → InterruptFrame → InterruptState → InterruptState) (i : Interrupt)
    (line : Fin 16) :
    (handlerRun (initInterrupts idt isr irq kernel) calls).fetchGate
        (BitVec.ofNat 8 (i.onLine irq line).vector.val) =
      some ⟨(i.onLine irq line).stub, 0x08#16, 0#8, idtTypeInterrupt⟩ ∧
    ∃ served : InterruptState,
      served = (if lastHandler calls line = 0#64 then
          handlerRun (initInterrupts idt isr irq kernel) calls
        else invoke (lastHandler calls line) (i.onLine irq line).frame
          (handlerRun (initInterrupts idt isr irq kernel) calls)) ∧
      irqHandler invoke
          (frameAt (i.onLine irq line).called.memory ((i.onLine irq line).called.regs .rdi))
          (handlerRun (initInterrupts idt isr irq kernel) calls) =
        { served with
          portWrites := served.portWrites ++
            ((if 8 ≤ line.val then [(0xA0#16, 0x20#8)] else []) ++ [(0x20#16, 0x20#8)]) } := by
  obtain ⟨memory, idtr, -⟩ := handlerRun_frame (initInterrupts idt isr irq kernel) calls
  have vectorLt : (BitVec.ofNat 8 (i.onLine irq line).vector.val).toNat = 32 + line.val := by
    show (BitVec.ofNat 8 (32 + line.val)).toNat = 32 + line.val
    rw [BitVec.toNat_ofNat]
    omega
  constructor
  · have gate := fetchGate_initInterrupts idt isr irq kernel
      (BitVec.ofNat 8 (i.onLine irq line).vector.val)
    rw [InterruptState.fetchGate, memory, idtr, ← InterruptState.fetchGate, gate,
      gateAt_initInterrupts, vectorLt, if_pos (by omega), stubOf, if_neg (by omega),
      Nat.add_sub_cancel_left]
    rfl
  · have start := irqHandlers_initInterrupts idt isr irq kernel line
    have number := irqNumber_onLine i irq line
    have place : (BitVec.ofNat 8 line.val).toNat = line.val := by
      rw [BitVec.toNat_ofNat]
      omega
    refine ⟨_, rfl, ?_⟩
    rw [(i.onLine irq line).frameAt_called, irqHandler, callHandler, number, place,
      irqHandlers_handlerRun start, endOfInterrupt_eq]
    have second : 8#8 ≤ BitVec.ofNat 8 line.val ↔ 8 ≤ line.val := by
      rw [BitVec.le_def, place]
      rfl
    simp only [ite_not, second]

end M12
