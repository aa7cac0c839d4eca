import DotMatrix.Proofs.Console.Requests
import DotMatrix.Proofs.Hardware.Reports

/-!
# Serving an interrupt

What a step does at its interrupt check, said in numbers: the bits of the requests and of what is
enabled decide which source is served, before anything is pushed, and what serving it does is two
bus writes between withdrawing the request and letting time pass.  The writes may reach the requests
themselves, what is enabled, the display's control byte or a bank register: that changes what the
machine does later, but no longer what is served.

* `LowestBit` — the lowest bit that is set, and `lowestBit_pending`, that it decides.
* `served` — serving the source of a bit, and `dispatch_served`, that a source is served like this.
* `Ends` — the time that a step lets pass comes to an end.
* `dispatches_toCheck` — up to its interrupt check a step tells of no interrupt that was served.
* `serves_lowest_bit` — all of it.
-/

set_option autoImplicit false

namespace DotMatrix

/-! ## Bits -/

/-- The number of a source. -/
def Interrupt.number : Interrupt → Nat
  | .vblank => 0
  | .stat => 1
  | .timer => 2
  | .serial => 3
  | .joypad => 4

/-- Bit `i` is set, and none below it. -/
structure LowestBit (x : UInt8) (i : Nat) : Prop where
  set : x.toNat.testBit i
  clear : ∀ j < i, x.toNat.testBit j = false

theorem LowestBit.unique {x : UInt8} {i j : Nat} (hi : LowestBit x i) (hj : LowestBit x j) :
    i = j := by
  have hle : ∀ {i j : Nat}, LowestBit x i → LowestBit x j → i ≤ j := fun hi hj ↦ by
    refine Nat.le_of_not_lt fun hlt ↦ ?_
    have hset := hj.set
    rw [hi.clear _ hlt] at hset
    cases hset
  exact Nat.le_antisymm (hle hi hj) (hle hj hi)

namespace Interrupt

theorem mask_eq (source : Interrupt) : source.mask = 1 <<< UInt8.ofNat source.number := by
  cases source <;> rfl

theorem vector_eq (source : Interrupt) :
    source.vector = 0x40 + 8 * UInt16.ofNat source.number := by
  cases source <;> rfl

theorem number_lt (source : Interrupt) : source.number < 5 := by
  cases source <;> decide

theorem exists_number {i : Nat} (h : i < 5) : ∃ source : Interrupt, source.number = i := by
  have hi : i = 0 ∨ i = 1 ∨ i = 2 ∨ i = 3 ∨ i = 4 := by omega
  rcases hi with rfl | rfl | rfl | rfl | rfl
  · exact ⟨.vblank, rfl⟩
  · exact ⟨.stat, rfl⟩
  · exact ⟨.timer, rfl⟩
  · exact ⟨.serial, rfl⟩
  · exact ⟨.joypad, rfl⟩

/-- A source is among those that bits stand for if the bit of its number is set. -/
theorem and_mask_ne_zero_iff (source : Interrupt) (x : UInt8) :
    x &&& source.mask ≠ 0 ↔ x.toNat.testBit source.number := by
  revert x
  cases source <;> exact forall_byte (by decide +kernel)

theorem number_le {x y : Interrupt} (h : x.mask ≤ y.mask) : x.number ≤ y.number := by
  revert h
  cases x <;> cases y <;> decide

end Interrupt

namespace Console

open Exec (Always)
open Hardware (storeAll)

/-- The source to be served is that of the lowest bit. -/
theorem lowestBit_pending {hw : Hardware} {source : Interrupt}
    (h : hw.bus.pendingInterrupt? = some source) : LowestBit hw.awaited source.number := by
  obtain ⟨hset, hurgent⟩ := Hardware.pendingInterrupt?_eq_some h
  refine ⟨(source.and_mask_ne_zero_iff _).1 hset, fun j hj ↦ Bool.eq_false_iff.2 fun hbit ↦ ?_⟩
  obtain ⟨other, rfl⟩ := Interrupt.exists_number (Nat.lt_trans hj source.number_lt)
  have hle := hurgent other ((other.and_mask_ne_zero_iff _).2 hbit)
  exact absurd (Interrupt.number_le hle) (Nat.not_le.2 hj)

/-! ## Serving a source -/

/-- Serving the source of bit `i`: interrupts are turned off, its request is withdrawn, the program
counter is pushed, its high byte first, and goes to the source's address, and time passes.  What
stops it is one of the two bus writes, or time. -/
def served (i : Nat) (c : Console) : Outcome Console Nat :=
  let sp := c.cpu.registers.sp
  let pc := c.cpu.registers.pc
  let goal : UInt16 := 0x40 + 8 * UInt16.ofNat i
  let left (sp pc : UInt16) (hw : Hardware) : Console :=
    ⟨⟨{ c.cpu.registers with sp := sp, pc := pc }, false, c.cpu.enablePending, false⟩, hw⟩
  let requests := c.hardware.reg Register.interruptRequest
  match Hardware.write (sp - 1) (pc >>> 8).toUInt8
    (c.hardware.put Register.interruptRequest (requests &&& ~~~(1 <<< UInt8.ofNat i))) with
  | ⟨.error fault, hw, high⟩ => ⟨.error fault, left (sp - 1) pc hw, high⟩
  | ⟨.ok (), hw, high⟩ =>
    match Hardware.write (sp - 2) pc.toUInt8 hw with
    | ⟨.error fault, hw, low⟩ => ⟨.error fault, left (sp - 2) pc hw, high ++ low⟩
    | ⟨.ok (), hw, low⟩ =>
      match Hardware.advance 24 hw with
      | ⟨.error fault, hw, time⟩ => ⟨.error fault, left (sp - 2) goal hw, high ++ low ++ time⟩
      | ⟨.ok (), hw, time⟩ => ⟨.ok 24, left (sp - 2) goal hw, high ++ low ++ time⟩

section

variable {c : Console} {source : Interrupt}

theorem pushByte_of_error {value : UInt8} {fault : Fault} {hw : Hardware} {records : Array Record}
    (h : Hardware.write (c.cpu.registers.sp - 1) value c.hardware = ⟨.error fault, hw, records⟩) :
    pushByte value c = ⟨.error fault, ⟨c.lowered.cpu, hw⟩, records⟩ := by
  rw [pushByte_eq, store, onHardware]
  dsimp only
  rw [show c.lowered.hardware = c.hardware from rfl, h]

/-- A source is served in this way. -/
theorem dispatch_served (hrun : c.cpu.halted = false) :
    dispatch source c =
      (served source.number c).after #[.notice (.interruptDispatched source)] := by
  obtain ⟨⟨r, interruptsOn, enablePending, halted⟩, hardware⟩ := c
  obtain rfl : halted = false := hrun
  let off : Console := ⟨⟨r, false, enablePending, false⟩, withdrawn source
    ⟨⟨r, interruptsOn, enablePending, false⟩, hardware⟩⟩
  have hoff : onHardware (Hardware.onBus (Exec.modify (Bus.withdrawInterrupt source)))
      ⟨⟨r, false, enablePending, false⟩, hardware⟩ = ⟨.ok (), off, #[]⟩ := rfl
  have hput : hardware.put Register.interruptRequest
      (hardware.reg Register.interruptRequest &&& ~~~source.mask) = off.hardware := rfl
  have hsp : r.sp - 2 = r.sp - 1 - 1 := by grind
  rw [dispatch, Exec.bind_report, bind_modifyCpu, Exec.bind_of_ok hoff, Console.registers,
    Exec.bind_gets, Outcome.after_empty, served]
  refine congrArg (Outcome.after · _) ?_
  dsimp only
  rw [hsp, ← source.vector_eq, ← source.mask_eq, hput]
  rcases h₁ : Hardware.write (r.sp - 1) (highByte r.pc) off.hardware with
    ⟨fault | ⟨⟩, hw₁, high⟩
  · have hpush : pushWord r.pc off = ⟨.error fault, ⟨off.lowered.cpu, hw₁⟩, high⟩ :=
      Exec.bind_of_error (pushByte_of_error (c := off) h₁) _
    rw [Exec.bind_of_error hpush, show (r.pc >>> 8).toUInt8 = highByte r.pc from rfl, h₁]
    rfl
  let once : Console := ⟨off.lowered.cpu, hw₁⟩
  rw [show (r.pc >>> 8).toUInt8 = highByte r.pc from rfl, h₁]
  dsimp only
  rcases h₂ : Hardware.write (r.sp - 1 - 1) (lowByte r.pc) hw₁ with ⟨fault | ⟨⟩, hw₂, low⟩
  · have hpush : pushWord r.pc off =
        ⟨.error fault, ⟨once.lowered.cpu, hw₂⟩, high ++ low⟩ := by
      rw [pushWord, Exec.bind_of_ok (pushByte_of_ok (c := off) h₁)]
      exact congrArg (Outcome.after · high) (pushByte_of_error (c := once) h₂)
    rw [Exec.bind_of_error hpush, show r.pc.toUInt8 = lowByte r.pc from rfl, h₂]
    rfl
  rw [show r.pc.toUInt8 = lowByte r.pc from rfl, h₂,
    Exec.bind_of_ok (pushWord_of_writes (c := off) h₁ h₂), jumpTo, modifyRegisters, bind_modifyCpu]
  let jumped : Console := ⟨⟨{ r with sp := r.sp - 1 - 1, pc := source.vector }, false,
    enablePending, false⟩, hw₂⟩
  dsimp only
  rcases h₃ : Hardware.advance dispatchCycles hw₂ with ⟨fault | ⟨⟩, hw₃, time⟩
  · have ha : onHardware (Hardware.advance dispatchCycles) jumped =
        ⟨.error fault, { jumped with hardware := hw₃ }, time⟩ := by
      rw [onHardware, h₃]
    rw [show Hardware.advance 24 hw₂ = _ from h₃]
    exact congrArg (Outcome.after · (high ++ low)) (Exec.bind_of_error ha _)
  · have ha : onHardware (Hardware.advance dispatchCycles) jumped =
        ⟨.ok (), { jumped with hardware := hw₃ }, time⟩ := by
      rw [onHardware, h₃]
    rw [show Hardware.advance 24 hw₂ = _ from h₃]
    refine (congrArg (Outcome.after · (high ++ low)) (Exec.bind_of_ok ha _)).trans ?_
    rw [Exec.pure_apply, Outcome.after_after]
    exact congrArg (Outcome.mk _ _) Array.append_empty

/-! ## What a step tells of -/

theorem reserved_onHardware {α : Type} {x : Exec Hardware α} (h : Reserved x) :
    Reserved (onHardware x) := fun c ↦ h c.hardware

theorem reserved_covers : Covers fun _ ↦ Reserved :=
  covers_always unserved_chains (fun _ _ ↦ rfl)
    (fun addr ↦ reserved_onHardware (Hardware.reserved_onBus (Bus.reserved_load addr)))
    fun addr value ↦ reserved_onHardware (Hardware.reserved_write addr value)

theorem reserved_fetch : Reserved fetch := by
  have hreport : ∀ pc i,
      Reserved (Exec.report (.instructionFetched pc i) : Exec Console Unit) := fun _ _ _ ↦ rfl
  refine (reserved_gets _).bind fun r ↦ Reserved.bind (reserved_onHardware ?_) fun i ↦
    (hreport r.pc i).bind fun _ ↦ reserved_pure i
  exact Instruction.always_decode unserved_chains
    (fun addr ↦ Hardware.reserved_onBus (Bus.reserved_load addr)) r.pc

/-- The time that the step lets pass comes to an end, before its interrupt check and, if it serves
an interrupt, after it. -/
structure Ends (c : Console) : Prop where
  idles : c.cpu.halted → Timed.Returns Hardware.fire haltCycles c.hardware
  runs : ∀ i taken, Performs c i → (perform i (past i c)).result = .ok taken →
    Timed.Returns Hardware.fire (i.duration taken) (perform i (past i c)).state.hardware
  serves : ∀ source, Serves c source →
    let pushed := storeAll (pushing (toCheck c).state (toCheck c).state.cpu.registers.pc)
      (withdrawn source (toCheck c).state)
    pushed.result = .ok () → Timed.Returns Hardware.fire dispatchCycles pushed.state

theorem returns_of_reachable {hw : Hardware} (h : Hardware.Reachable hw) (cycles : Nat) :
    Timed.Returns Hardware.fire cycles hw := by
  obtain ⟨firings, hw', records, hdrain⟩ := h.returns cycles
  exact ⟨firings, _, hdrain⟩

/-- It always does on hardware that was started and acted on. -/
theorem ends_of_reachable (h : Hardware.Reachable c.hardware) : Ends c where
  idles _ := returns_of_reachable h _
  runs i _ _ _ := returns_of_reachable (reachable_perform (c := past i c) h i) _
  serves source _ _ := by
    obtain ⟨log, hl, -⟩ := acts_toCheck c
    have hchecked : Hardware.Reachable (toCheck c).state.hardware := h.leads hl
    exact returns_of_reachable ((hchecked.perform (.withdraw source)).storeAll _) _

/-- Up to its interrupt check a step tells of no interrupt that was served. -/
theorem dispatches_toCheck (h : Ends c) : dispatches (toCheck c).records = [] := by
  cases hrun : c.cpu.halted with
  | true =>
    rw [toCheck_of_halted hrun, idle]
    refine dispatches_bind ?_ fun _ _ ↦ rfl
    rw [records_onHardware]
    exact Hardware.dispatches_advance (h.idles hrun)
  | false =>
    rw [toCheck_of_running hrun, runInstruction, Exec.bind_gets]
    refine dispatches_bind (reserved_fetch c) fun i hi ↦ ?_
    rw [(untouched_fetch c).1]
    have hpast : modifyRegisters (fun r ↦ { r with pc := r.pc + i.length }) c =
        ⟨.ok (), past i c, #[]⟩ := rfl
    rw [Exec.bind_of_ok hpast, Outcome.after_empty]
    refine dispatches_bind (reserved_covers.perform_of_cpu (fun _ _ ↦ rfl) i _) fun taken ht ↦ ?_
    refine dispatches_bind ?_ fun _ _ ↦ rfl
    rw [records_onHardware]
    exact Hardware.dispatches_advance (h.runs i taken ⟨hrun, hi⟩ ht)

/-- Serving a source tells of that source. -/
theorem dispatches_dispatch
    (h : let pushed := storeAll (pushing c c.cpu.registers.pc) (withdrawn source c)
      pushed.result = .ok () → Timed.Returns Hardware.fire dispatchCycles pushed.state) :
    dispatches (dispatch source c).records = [source] := by
  let off : Console := ⟨{ c.cpu with interruptsOn := false }, withdrawn source c⟩
  have hoff : onHardware (Hardware.onBus (Exec.modify (Bus.withdrawInterrupt source)))
      { c with cpu := { c.cpu with interruptsOn := false } } = ⟨.ok (), off, #[]⟩ := rfl
  rw [dispatch, Exec.bind_report, bind_modifyCpu, Exec.bind_of_ok hoff, registers, Exec.bind_gets,
    Outcome.after_empty, Outcome.records_after, dispatches_append]
  refine congrArg ([source] ++ ·) ?_
  refine dispatches_bind (reserved_covers.pushWord _ _) fun _ hok ↦ ?_
  rw [jumpTo, modifyRegisters, bind_modifyCpu]
  refine dispatches_bind ?_ fun _ _ ↦ rfl
  obtain ⟨hstate, hresult⟩ := commits_pushWord off.cpu.registers.pc off
  rw [hok] at hresult
  rw [records_onHardware]
  refine Hardware.dispatches_advance ?_
  rw [hstate]
  exact h hresult.symm

/-- A step that serves a source tells of that one. -/
theorem dispatches_step_of_serves (h : Ends c) (hs : Serves c source) :
    dispatches (step c).records = [source] := by
  have hchecked := dispatches_toCheck h
  have hpushed := h.serves source hs
  obtain ⟨cycles, hok, hon, hp⟩ := hs
  rcases ht : toCheck c with ⟨result, checked, records⟩
  rw [ht] at hok hon hp hchecked hpushed
  obtain rfl : result = .ok cycles := hok
  rw [step_eq, Exec.bind_of_ok ht, Outcome.records_after, dispatches_append, hchecked,
    List.nil_append]
  have hserved : dispatches (serveInterrupts checked).records = [source] := by
    rw [serveInterrupts_of_some hp, if_pos hon, Outcome.records_after, dispatches_append,
      dispatches_dispatch (c := checked.awake) hpushed]
    split <;> rfl
  rcases hs : serveInterrupts checked with ⟨fault | more, c', after⟩ <;> rw [hs] at hserved
  · rw [Exec.bind_of_error hs]
    exact hserved
  · rw [Exec.bind_of_ok hs, Outcome.records_after, dispatches_append, hserved]
    rfl

/-- A step that serves none tells of none. -/
theorem dispatches_step_of_not_dispatches (h : Ends c) (hd : ¬ Dispatches c) :
    dispatches (step c).records = [] := by
  rw [step_eq]
  refine dispatches_bind (dispatches_toCheck h) fun cycles hok ↦
    dispatches_bind ?_ fun _ _ ↦ rfl
  cases hp : (toCheck c).state.hardware.body.bus.pendingInterrupt? with
  | none =>
    rw [serveInterrupts_of_none hp]
    rfl
  | some source =>
    have hoff : ¬ (toCheck c).state.cpu.interruptsOn := fun hon ↦ hd ⟨cycles, source, hok, hon, hp⟩
    rw [serveInterrupts_of_some hp, if_neg hoff]
    show dispatches (_ ++ #[]) = []
    split <;> rfl

/-! ## The interrupt check -/

/-- **What happens at the interrupt check.**  If no source is both requested and enabled, nothing
does.  Otherwise a halt ends, and with interrupts on the source of the lowest such bit is served as
`served` says, by the bits as they were before the program counter is pushed; with interrupts off
nothing else changes.  A step serves one interrupt at most, and tells of it, whatever the push
writes to. -/
theorem serves_lowest_bit (c : Console) :
    (c.hardware.awaited = 0 → serveInterrupts c = ⟨.ok 0, c, #[]⟩) ∧
    (c.hardware.awaited ≠ 0 → ∃ source : Interrupt, LowestBit c.hardware.awaited source.number ∧
      serveInterrupts c =
        (if c.cpu.interruptsOn then
          (served source.number c).after #[.notice (.interruptDispatched source)]
        else ⟨.ok 0, c.awake, #[]⟩).after
          (if c.cpu.halted then #[.notice (.haltEnded source)] else #[])) ∧
    (Ends c → (dispatches (step c).records).length ≤ 1 ∧
      ∀ source, dispatches (step c).records = [source] ↔ Serves c source) := by
  refine ⟨fun h ↦ serveInterrupts_of_none ((Hardware.pendingInterrupt?_eq_none_iff _).2 h),
    fun h ↦ ?_, fun h ↦ ?_⟩
  · cases hp : c.hardware.bus.pendingInterrupt? with
    | none => exact absurd ((Hardware.pendingInterrupt?_eq_none_iff _).1 hp) h
    | some source =>
      refine ⟨source, lowestBit_pending hp, ?_⟩
      rw [serveInterrupts_of_some hp]
      refine congrArg (Outcome.after · _) ?_
      split
      · exact dispatch_served (c := c.awake) rfl
      · rfl
  · by_cases hd : Dispatches c
    · obtain ⟨cycles, source, hserves⟩ := hd
      have htells := dispatches_step_of_serves h ⟨cycles, hserves⟩
      rw [htells]
      refine ⟨Nat.le_refl 1, fun other ↦ ⟨fun he ↦ ?_, fun ho ↦ ?_⟩⟩
      · obtain rfl := List.singleton_inj.1 he
        exact ⟨cycles, hserves⟩
      · exact htells.symm.trans (dispatches_step_of_serves h ho)
    · rw [dispatches_step_of_not_dispatches h hd]
      exact ⟨Nat.zero_le 1, fun source ↦
        ⟨nofun, fun ⟨cycles, hserves⟩ ↦ absurd ⟨cycles, source, hserves⟩ hd⟩⟩

/-! ### A push onto what is enabled -/

/-- A halted machine with an interrupt waiting, whose next push overwrites what is enabled. -/
def cornered : Console :=
  ⟨⟨{ sp := 0, pc := 0x0200 }, true, false, true⟩, prompted (booted 0).hardware⟩

theorem reachable_cornered : Hardware.Reachable cornered.hardware :=
  ((reachable_booted 0).prompted).hardware

theorem awaited_cornered : cornered.hardware.awaited = 1 := by
  have he : cornered.hardware.reg Register.interruptEnable = 1 := by
    rw [cornered, prompted, Hardware.reg_put_self]
  have hr : cornered.hardware.reg Register.interruptRequest = 0xe1 := request_prompted _
  rw [Hardware.awaited, he, hr]
  rfl

/-- What waits on prompted hardware is what waited before. -/
theorem queue_prompted {hw : Hardware}
    (hq : ∀ event ∈ hw.clock.queue, hw.now + 32 ≤ event.target) :
    ∀ event ∈ (prompted hw).clock.queue, (prompted hw).now + haltCycles ≤ event.target :=
  fun event he ↦ Nat.le_trans (Nat.add_le_add_left (by decide) _) (hq event he)

theorem serves_cornered : Serves cornered .vblank := by
  have hadvance : Hardware.advance haltCycles cornered.hardware =
      ⟨.ok (), cornered.hardware.atTime (cornered.hardware.now + haltCycles), #[]⟩ :=
    Timed.advance_of_waiting (queue_prompted (queue_booted 0))
  have hcheck : toCheck cornered = ⟨.ok haltCycles,
      { cornered with
        hardware := cornered.hardware.atTime (cornered.hardware.now + haltCycles) }, #[]⟩ := by
    rw [toCheck_of_halted (c := cornered) rfl, idle_eq reachable_cornered, hadvance]
  refine ⟨haltCycles, ?_⟩
  rw [hcheck]
  exact ⟨rfl, rfl, pending_prompted (booted 0).hardware⟩

/-- Its halt ends and the vertical blank is served, though the push enables another source. -/
theorem serves_lowest_bit_cornered :
    cornered.cpu.registers.sp - 1 = Register.interruptEnable ∧
    highByte cornered.cpu.registers.pc = Interrupt.stat.mask ∧
    serveInterrupts cornered =
      ((served 0 cornered).after #[.notice (.interruptDispatched .vblank)]).after
        #[.notice (.haltEnded .vblank)] ∧
    dispatches (step cornered).records = [.vblank] := by
  have hset : cornered.hardware.awaited ≠ 0 := by
    rw [awaited_cornered]
    decide
  have hlowest : LowestBit cornered.hardware.awaited 0 := by
    rw [awaited_cornered]
    exact ⟨by decide, nofun⟩
  obtain ⟨-, hserve, hstep⟩ := serves_lowest_bit cornered
  obtain ⟨source, hsource, hserve⟩ := hserve hset
  obtain rfl : source = .vblank := by
    have hnumber := hsource.unique hlowest
    cases source
    case vblank => rfl
    all_goals cases hnumber
  exact ⟨by decide, by decide, hserve,
    ((hstep (ends_of_reachable reachable_cornered)).2 .vblank).2 serves_cornered⟩

end

end Console

end DotMatrix
