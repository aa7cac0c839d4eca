import DotMatrix.Proofs.Console.Reach

/-!
# The processor's switches

Whether interrupts are on, whether they are to be turned on, and whether the processor is halted.
All but four opcodes leave these switches alone, and so do memory and time.

* `switches_perform` — what an instruction does to them.
* `runInstruction_cases` — where an instruction can fail, and what it does when it does not.
* `cpu_dispatch` — serving an interrupt turns interrupts off, and does nothing else to the switches.
* `dispatch_of_ok` — the whole of what it does when the program counter can be pushed.
* `Reachable.attentive` — a halted processor never waits for interrupts to be turned on.
-/

set_option autoImplicit false

namespace DotMatrix

open Exec (Always)

/-- The processor with other registers. -/
def Cpu.withRegisters (cpu : Cpu) (registers : Registers) : Cpu :=
  { cpu with registers := registers }

/-- The registers after a call. -/
def Registers.afterCall (r : Registers) (addr : UInt16) : Registers :=
  { r with sp := r.sp - 1 - 1, pc := addr }

/-- What an instruction that succeeds does to the switches, by whether a transfer was taken. -/
def Opcode.switched (op : Opcode) (taken : Bool) (cpu : Cpu) : Cpu :=
  match op with
  | .di => { cpu with interruptsOn := false, enablePending := false }
  | .ei => { cpu with enablePending := true }
  | .halt => { cpu with halted := true }
  | .reti => if taken then { cpu with interruptsOn := true, enablePending := false } else cpu
  | _ => cpu

/-- The processor with interrupts turned on, if that was wished for before the instruction and still
is. -/
def Cpu.settled (cpu : Cpu) (wished : Bool) : Cpu :=
  if wished && cpu.enablePending then { cpu with interruptsOn := true, enablePending := false }
  else cpu

/-- The processor after an interrupt ended a halt or was served. -/
def Cpu.interrupted (cpu : Cpu) : Cpu := { cpu with interruptsOn := false, halted := false }

section

variable (cpu : Cpu) (r s : Registers)

theorem Cpu.withRegisters_self : cpu.withRegisters cpu.registers = cpu := rfl

@[simp] theorem Cpu.withRegisters_withRegisters :
    (cpu.withRegisters r).withRegisters s = cpu.withRegisters s := rfl

@[simp] theorem Cpu.interruptsOn_withRegisters :
    (cpu.withRegisters r).interruptsOn = cpu.interruptsOn := rfl

@[simp] theorem Cpu.enablePending_withRegisters :
    (cpu.withRegisters r).enablePending = cpu.enablePending := rfl

@[simp] theorem Cpu.halted_withRegisters : (cpu.withRegisters r).halted = cpu.halted := rfl

/-- The four opcodes that set switches, and the others. -/
theorem Opcode.switched_cases (op : Opcode) (taken : Bool) :
    (op = .di ∧ op.switched taken cpu =
      { cpu with interruptsOn := false, enablePending := false }) ∨
    (op = .ei ∧ op.switched taken cpu = { cpu with enablePending := true }) ∨
    (op = .halt ∧ op.switched taken cpu = { cpu with halted := true }) ∨
    (op = .reti ∧ taken = true ∧ op.switched taken cpu =
      { cpu with interruptsOn := true, enablePending := false }) ∨
    (op ≠ .di ∧ op ≠ .ei ∧ op ≠ .halt ∧ op.switched taken cpu = cpu) := by
  cases op with
  | di => exact Or.inl ⟨rfl, rfl⟩
  | ei => exact Or.inr (Or.inl ⟨rfl, rfl⟩)
  | halt => exact Or.inr (Or.inr (Or.inl ⟨rfl, rfl⟩))
  | reti =>
    cases taken with
    | true => exact Or.inr (Or.inr (Or.inr (Or.inl ⟨rfl, rfl, rfl⟩)))
    | false => exact Or.inr (Or.inr (Or.inr (Or.inr ⟨nofun, nofun, nofun, rfl⟩)))
  | _ => exact Or.inr (Or.inr (Or.inr (Or.inr ⟨nofun, nofun, nofun, rfl⟩)))

/-- The switches do not depend on the registers. -/
@[simp] theorem Opcode.switched_withRegisters (op : Opcode) (taken : Bool) :
    op.switched taken (cpu.withRegisters r) = (op.switched taken cpu).withRegisters r := by
  cases op with
  | reti => cases taken <;> rfl
  | _ => rfl

@[simp] theorem Cpu.settled_withRegisters (wished : Bool) :
    (cpu.withRegisters r).settled wished = (cpu.settled wished).withRegisters r := by
  rw [settled, settled, Cpu.enablePending_withRegisters]
  split <;> rfl

end

namespace Console

/-! ## Operations that leave the switches alone -/

/-- Nothing of the processor changes but its registers. -/
def KeepsSwitches (c : Console) (_ : Array Record) (c' : Console) : Prop :=
  ∃ registers, c'.cpu = c.cpu.withRegisters registers

theorem keeps_chains : Exec.Chains KeepsSwitches where
  refl c := ⟨c.cpu.registers, rfl⟩
  trans h h' := by
    obtain ⟨r, hr⟩ := h
    obtain ⟨r', hr'⟩ := h'
    exact ⟨r', by rw [hr', hr, Cpu.withRegisters_withRegisters]⟩

theorem keeps_onHardware {α : Type} (x : Exec Hardware α) : Always KeepsSwitches (onHardware x) :=
  fun c ↦ ⟨c.cpu.registers, rfl⟩

theorem keeps_covers : Covers fun _ ↦ Always KeepsSwitches :=
  covers_always keeps_chains (fun _ registers ↦ ⟨registers, rfl⟩)
    (fun addr ↦ keeps_onHardware (Hardware.load addr))
    fun addr value ↦ keeps_onHardware (Hardware.write addr value)

/-! ## Instructions -/

/-- The switches are left alone by an instruction that fails, and set as the opcode says by one that
succeeds. -/
structure Switches (op : Opcode) (c : Console) (o : Outcome Console Bool) : Prop where
  of_error : ∀ fault, o.result = .error fault → KeepsSwitches c o.records o.state
  of_ok : ∀ taken, o.result = .ok taken →
    ∃ registers, o.state.cpu = (op.switched taken c.cpu).withRegisters registers

theorem switches_of_keeps {op : Opcode} {c : Console} {o : Outcome Console Bool}
    (h : KeepsSwitches c o.records o.state) (hop : ∀ taken, op.switched taken c.cpu = c.cpu) :
    Switches op c o where
  of_error _ _ := h
  of_ok taken _ := by rw [hop]; exact h

theorem switches_ok {op : Opcode} {c c' : Console} {taken : Bool} {records : Array Record}
    {registers : Registers} (h : c'.cpu = (op.switched taken c.cpu).withRegisters registers) :
    Switches op c ⟨.ok taken, c', records⟩ where
  of_error _ he := by cases he
  of_ok _ he := by cases he; exact ⟨registers, h⟩

theorem switched_of_plain {op : Opcode} (hdi : op ≠ .di) (hei : op ≠ .ei) (hhalt : op ≠ .halt)
    (hreti : op ≠ .reti) (taken : Bool) (cpu : Cpu) : op.switched taken cpu = cpu := by
  rcases op.switched_cases cpu taken with ⟨rfl, -⟩ | ⟨rfl, -⟩ | ⟨rfl, -⟩ | ⟨rfl, -⟩ | ⟨-, -, -, h⟩
  · contradiction
  · contradiction
  · contradiction
  · contradiction
  · exact h

theorem performReturnFromInterrupt_of_ok {i : Instruction} {c c' : Console} {taken : Bool}
    {records : Array Record} (h : performReturn i c = ⟨.ok taken, c', records⟩) :
    performReturnFromInterrupt i c =
      ⟨.ok taken, { c' with cpu := Opcode.reti.switched taken c'.cpu }, records⟩ := by
  rw [performReturnFromInterrupt, Exec.bind_of_ok h]
  cases taken with
  | false =>
    rw [if_neg Bool.false_ne_true]
    exact congrArg (Outcome.mk _ _) Array.append_empty
  | true =>
    rw [if_pos rfl, bind_modifyCpu]
    exact congrArg (Outcome.mk _ _) Array.append_empty

theorem switches_reti (i : Instruction) (c : Console) :
    Switches .reti c (performReturnFromInterrupt i c) := by
  have hk : KeepsSwitches c _ _ := keeps_covers.performReturn i c
  rcases hr : performReturn i c with ⟨fault | taken, c', records⟩ <;> rw [hr] at hk
  · rw [performReturnFromInterrupt, Exec.bind_of_error hr]
    exact ⟨fun _ _ ↦ hk, nofun⟩
  · rw [performReturnFromInterrupt_of_ok hr]
    obtain ⟨registers, hk'⟩ := hk
    have hcpu : Opcode.reti.switched taken c'.cpu =
        (Opcode.reti.switched taken c.cpu).withRegisters registers := by
      rw [show c'.cpu = _ from hk', Opcode.switched_withRegisters]
    exact switches_ok hcpu

/-- The opcodes that only set a switch. -/
theorem perform_of_switch {i : Instruction} (h : i.opcode = .di ∨ i.opcode = .ei ∨ i.opcode = .halt)
    (c : Console) :
    perform i c = ⟨.ok true, { c with cpu := i.opcode.switched true c.cpu }, #[]⟩ := by
  rcases h with hop | hop | hop
  all_goals
    rw [perform, hop, performPlain, hop]
    exact bind_modifyCpu _ _ c

/-- What an instruction does to the switches. -/
theorem switches_perform (i : Instruction) (c : Console) :
    Switches i.opcode c (perform i c) := by
  by_cases hreti : i.opcode = .reti
  · have hp : perform i = performReturnFromInterrupt i := by
      rw [perform, hreti]
    rw [hp, hreti]
    exact switches_reti i c
  by_cases hswitch : i.opcode = .di ∨ i.opcode = .ei ∨ i.opcode = .halt
  · rw [perform_of_switch hswitch]
    exact switches_ok (Cpu.withRegisters_self _).symm
  · rw [not_or, not_or] at hswitch
    exact switches_of_keeps
      (keeps_covers.perform hswitch.1 hswitch.2.1 hswitch.2.2 hreti c) fun taken ↦
        switched_of_plain hswitch.1 hswitch.2.1 hswitch.2.2 hreti taken c.cpu

/-! ## The instruction of a step -/

/-- The machine past the instruction that it is about to run. -/
def past (i : Instruction) (c : Console) : Console :=
  { c with cpu := c.cpu.withRegisters { c.cpu.registers with pc := c.cpu.registers.pc + i.length } }

section

variable {c c' : Console} {i : Instruction} {fault : Fault} {taken : Bool} {hw : Hardware}
  {seen done ticks : Array Record}

theorem runInstruction_of_unfetched (hf : fetch c = ⟨.error fault, c, seen⟩) :
    runInstruction c = ⟨.error fault, c, seen⟩ := by
  rw [runInstruction, Exec.bind_gets, Exec.bind_of_error hf]

theorem runInstruction_of_failed (hf : fetch c = ⟨.ok i, c, seen⟩)
    (hp : perform i (past i c) = ⟨.error fault, c', done⟩) :
    runInstruction c = ⟨.error fault, c', seen ++ done⟩ := by
  have hm : modifyRegisters (fun r ↦ { r with pc := r.pc + i.length }) c =
      ⟨.ok (), past i c, #[]⟩ := rfl
  rw [runInstruction, Exec.bind_gets, Exec.bind_of_ok hf, Exec.bind_of_ok hm,
    Exec.bind_of_error hp, Outcome.after_empty]
  rfl

theorem runInstruction_of_done (hf : fetch c = ⟨.ok i, c, seen⟩)
    (hp : perform i (past i c) = ⟨.ok taken, c', done⟩)
    (ha : Hardware.advance (i.duration taken) c'.hardware = ⟨.ok (), hw, ticks⟩) :
    runInstruction c =
      ⟨.ok (i.duration taken), ⟨c'.cpu.settled c.cpu.enablePending, hw⟩,
        seen ++ (done ++ ticks)⟩ := by
  have hm : modifyRegisters (fun r ↦ { r with pc := r.pc + i.length }) c =
      ⟨.ok (), past i c, #[]⟩ := rfl
  have ha' : onHardware (Hardware.advance (i.duration taken)) c' =
      ⟨.ok (), ⟨c'.cpu, hw⟩, ticks⟩ := by
    rw [onHardware, ha]
  rw [runInstruction, Exec.bind_gets, Exec.bind_of_ok hf, Exec.bind_of_ok hm, Exec.bind_of_ok hp,
    Exec.bind_of_ok ha', settleInterrupts, bind_modifyCpu, Outcome.after_empty]
  simp only [Exec.pure_apply, Outcome.after, Array.append_empty]
  rfl

end

/-- A running processor fails to fetch, or the instruction fails, or it does what it is meant to and
time passes: that never fails on a machine that was started and acted on. -/
theorem runInstruction_cases {c : Console} (h : Hardware.Reachable c.hardware) :
    (∃ fault seen, fetch c = ⟨.error fault, c, seen⟩ ∧
      runInstruction c = ⟨.error fault, c, seen⟩) ∨
    ∃ i seen, fetch c = ⟨.ok i, c, seen⟩ ∧
      ((∃ fault c' done, perform i (past i c) = ⟨.error fault, c', done⟩ ∧
        runInstruction c = ⟨.error fault, c', seen ++ done⟩) ∨
      ∃ taken c' done hw ticks, perform i (past i c) = ⟨.ok taken, c', done⟩ ∧
        Hardware.advance (i.duration taken) c'.hardware = ⟨.ok (), hw, ticks⟩ ∧
        runInstruction c = ⟨.ok (i.duration taken), ⟨c'.cpu.settled c.cpu.enablePending, hw⟩,
          seen ++ (done ++ ticks)⟩) := by
  have hfetch := (untouched_fetch c).1
  rcases hf : fetch c with ⟨fault | i, c', seen⟩ <;> rw [hf] at hfetch
  · obtain rfl : c' = c := hfetch
    exact Or.inl ⟨fault, seen, rfl, runInstruction_of_unfetched hf⟩
  obtain rfl : c' = c := hfetch
  refine Or.inr ⟨i, seen, rfl, ?_⟩
  have hreach := reachable_perform (c := past i c') h i
  rcases hp : perform i (past i c') with ⟨fault | taken, c'', done⟩
  · exact Or.inl ⟨fault, c'', done, rfl, runInstruction_of_failed hf hp⟩
  rw [hp] at hreach
  have hok := hreach.advance_ok (i.duration taken)
  rcases ha : Hardware.advance (i.duration taken) c''.hardware with ⟨fault | ⟨⟩, hw, ticks⟩
  · rw [ha] at hok
    cases hok
  exact Or.inr ⟨taken, c'', done, hw, ticks, rfl, ha, runInstruction_of_done hf hp ha⟩

/-! ## A step -/

section

variable {c : Console}

theorem toCheck_of_halted (h : c.cpu.halted) : toCheck c = idle c := if_pos h

theorem toCheck_of_running (h : c.cpu.halted = false) : toCheck c = runInstruction c :=
  if_neg (by rw [h]; exact Bool.false_ne_true)

theorem idle_eq (h : Hardware.Reachable c.hardware) :
    idle c = ⟨.ok haltCycles,
      { c with hardware := (Hardware.advance haltCycles c.hardware).state },
      (Hardware.advance haltCycles c.hardware).records⟩ := by
  have hok := h.advance_ok haltCycles
  rcases ha : Hardware.advance haltCycles c.hardware with ⟨fault | ⟨⟩, hw, ticks⟩
  · rw [ha] at hok
    cases hok
  have ha' : onHardware (Hardware.advance haltCycles) c = ⟨.ok (), ⟨c.cpu, hw⟩, ticks⟩ := by
    rw [onHardware, ha]
  rw [idle, Exec.bind_of_ok ha']
  simp only [Exec.pure_apply, Outcome.after, Array.append_empty]

/-- The switches at the interrupt check of a step that ran an instruction. -/
theorem cpu_toCheck_of_ok (h : Hardware.Reachable c.hardware) (hrun : c.cpu.halted = false)
    {cycles : Nat} (hok : (toCheck c).result = .ok cycles) :
    ∃ i taken registers, (fetch c).result = .ok i ∧ (toCheck c).state.cpu =
      ((i.opcode.switched taken c.cpu).settled c.cpu.enablePending).withRegisters registers := by
  rw [toCheck_of_running hrun] at hok ⊢
  rcases runInstruction_cases h with ⟨fault, seen, -, hr⟩ | ⟨i, seen, hf, ⟨fault, c', done, -, hr⟩ |
    ⟨taken, c', done, hw, ticks, hp, -, hr⟩⟩ <;> rw [hr] at hok ⊢
  · cases hok
  · cases hok
  · obtain ⟨registers, hs⟩ := (switches_perform i (past i c)).of_ok taken (by rw [hp])
    rw [hp] at hs
    refine ⟨i, taken, registers, by rw [hf], ?_⟩
    show c'.cpu.settled _ = _
    rw [show c'.cpu = _ from hs]
    simp [past]

/-- The switches of a machine whose step failed before its interrupt check. -/
theorem keeps_toCheck_of_error (h : Hardware.Reachable c.hardware) {fault : Fault}
    (he : (toCheck c).result = .error fault) :
    KeepsSwitches c (toCheck c).records (toCheck c).state := by
  cases hrun : c.cpu.halted with
  | true =>
    rw [toCheck_of_halted hrun, idle_eq h] at he
    cases he
  | false =>
    rw [toCheck_of_running hrun] at he ⊢
    rcases runInstruction_cases h with ⟨fault, seen, -, hr⟩ |
      ⟨i, seen, hf, ⟨fault, c', done, hp, hr⟩ | ⟨taken, c', done, hw, ticks, -, -, hr⟩⟩ <;>
      rw [hr] at he ⊢
    · exact keeps_chains.refl c
    · have hs := (switches_perform i (past i c)).of_error fault (by rw [hp])
      rw [hp] at hs
      exact hs
    · cases he

/-- Serving an interrupt turns interrupts off. -/
theorem cpu_dispatch (source : Interrupt) (c : Console) :
    ∃ registers, (dispatch source c).state.cpu =
      Cpu.withRegisters { c.cpu with interruptsOn := false } registers := by
  rw [dispatch, Exec.bind_report, bind_modifyCpu, Outcome.state_after]
  have hrest : Always KeepsSwitches (do
      onHardware (Hardware.onBus (Exec.modify (Bus.withdrawInterrupt source)))
      let r ← registers
      pushWord r.pc
      jumpTo source.vector
      onHardware (Hardware.advance dispatchCycles)
      return dispatchCycles) :=
    .bind keeps_chains (keeps_onHardware _) fun _ ↦
      .bind keeps_chains (.gets keeps_chains _) fun _ ↦
      .bind keeps_chains (keeps_covers.pushWord _) fun _ ↦
      .bind keeps_chains (keeps_covers.jumpTo _) fun _ ↦
      .bind keeps_chains (keeps_onHardware _) fun _ ↦ .pure keeps_chains _
  exact hrest { c with cpu := { c.cpu with interruptsOn := false } }

/-- An interrupt that ends a halt or is served leaves interrupts off and the processor running. -/
theorem cpu_serveInterrupts {source : Interrupt}
    (h : c.hardware.body.bus.pendingInterrupt? = some source) :
    ∃ registers, (serveInterrupts c).state.cpu = c.cpu.interrupted.withRegisters registers := by
  rw [serveInterrupts_of_some h, Outcome.state_after]
  cases hon : c.cpu.interruptsOn with
  | true =>
    rw [if_pos rfl]
    exact cpu_dispatch source c.awake
  | false =>
    rw [if_neg Bool.false_ne_true]
    have hcpu : c.awake.cpu = c.cpu.interrupted := by
      rw [awake, Cpu.interrupted, ← hon]
    exact ⟨c.cpu.registers, hcpu⟩

end

/-- A step ends where its first part failed, or in what is done at its interrupt check. -/
theorem next_cases (c : Console) :
    (∃ fault, (toCheck c).result = .error fault ∧ next c = (toCheck c).state) ∨
    ∃ cycles, (toCheck c).result = .ok cycles ∧
      next c = (serveInterrupts (toCheck c).state).state := by
  rw [next, step_eq]
  rcases ht : toCheck c with ⟨fault | cycles, c', records⟩
  · rw [Exec.bind_of_error ht]
    exact Or.inl ⟨fault, rfl, rfl⟩
  · rw [Exec.bind_of_ok ht, Outcome.state_after]
    refine Or.inr ⟨cycles, rfl, ?_⟩
    rcases hs : serveInterrupts c' with ⟨fault | more, c'', served⟩
    · rw [Exec.bind_of_error hs]
    · rw [Exec.bind_of_ok hs]
      rfl

/-! ## Serving an interrupt -/

theorem pushByte_of_ok {c : Console} {value : UInt8} {hw : Hardware} {records : Array Record}
    (h : Hardware.write (c.cpu.registers.sp - 1) value c.hardware = ⟨.ok (), hw, records⟩) :
    pushByte value c = ⟨.ok (), ⟨c.cpu.withRegisters
      { c.cpu.registers with sp := c.cpu.registers.sp - 1 }, hw⟩, records⟩ := by
  rw [pushByte, registers, Exec.bind_gets, modifyRegisters, bind_modifyCpu, store, onHardware]
  dsimp only
  rw [h]
  rfl

/-- Two writes that succeed push a word. -/
theorem pushWord_of_writes {c : Console} {value : UInt16} {hw₁ hw₂ : Hardware}
    {r₁ r₂ : Array Record}
    (h₁ : Hardware.write (c.cpu.registers.sp - 1) (highByte value) c.hardware = ⟨.ok (), hw₁, r₁⟩)
    (h₂ : Hardware.write (c.cpu.registers.sp - 1 - 1) (lowByte value) hw₁ = ⟨.ok (), hw₂, r₂⟩) :
    pushWord value c = ⟨.ok (), ⟨c.cpu.withRegisters
      { c.cpu.registers with sp := c.cpu.registers.sp - 1 - 1 }, hw₂⟩, r₁ ++ r₂⟩ := by
  let once : Console :=
    ⟨c.cpu.withRegisters { c.cpu.registers with sp := c.cpu.registers.sp - 1 }, hw₁⟩
  rw [pushWord, Exec.bind_of_ok (pushByte_of_ok h₁), pushByte_of_ok (c := once) h₂]
  rfl

/-- What serving an interrupt does, if the program counter can be pushed. -/
theorem dispatch_of_ok {source : Interrupt} {c : Console} {hw₁ hw₂ hw₃ : Hardware}
    {r₁ r₂ r₃ : Array Record}
    (h₁ : Hardware.write (c.cpu.registers.sp - 1) (highByte c.cpu.registers.pc)
      ((Hardware.Operation.withdraw source).perform c.hardware).state = ⟨.ok (), hw₁, r₁⟩)
    (h₂ : Hardware.write (c.cpu.registers.sp - 1 - 1) (lowByte c.cpu.registers.pc) hw₁ =
      ⟨.ok (), hw₂, r₂⟩)
    (h₃ : Hardware.advance dispatchCycles hw₂ = ⟨.ok (), hw₃, r₃⟩) :
    ∃ records, dispatch source c = ⟨.ok dispatchCycles,
      ⟨{ c.cpu with
        registers := { c.cpu.registers with
          sp := c.cpu.registers.sp - 1 - 1
          pc := source.vector }
        interruptsOn := false }, hw₃⟩, records⟩ := by
  let off : Console := { c with
    cpu := { c.cpu with interruptsOn := false }
    hardware := ((Hardware.Operation.withdraw source).perform c.hardware).state }
  let jumped : Console := ⟨{ c.cpu with
    registers := { c.cpu.registers with sp := c.cpu.registers.sp - 1 - 1, pc := source.vector }
    interruptsOn := false }, hw₂⟩
  have hw : onHardware (Hardware.onBus (Exec.modify (Bus.withdrawInterrupt source)))
      { c with cpu := { c.cpu with interruptsOn := false } } = ⟨.ok (), off, #[]⟩ := rfl
  have hp := pushWord_of_writes (c := off) h₁ h₂
  have ha : onHardware (Hardware.advance dispatchCycles) jumped =
      ⟨.ok (), { jumped with hardware := hw₃ }, r₃⟩ := by
    rw [onHardware, h₃]
  rw [dispatch, Exec.bind_report, bind_modifyCpu, Exec.bind_of_ok hw, registers, Exec.bind_gets,
    Exec.bind_of_ok hp, jumpTo, modifyRegisters, bind_modifyCpu]
  have hlast : (onHardware (Hardware.advance dispatchCycles) >>= fun _ ↦ pure dispatchCycles)
      jumped = ⟨.ok dispatchCycles, { jumped with hardware := hw₃ }, r₃ ++ #[]⟩ :=
    Exec.bind_of_ok ha _
  exact ⟨_, congrArg (fun o ↦ ((o.after (r₁ ++ r₂)).after #[]).after
    #[.notice (.interruptDispatched source)]) hlast⟩

/-! ## Halting -/

/-- Interrupts are not to be turned on while the processor is halted. -/
def Attentive (cpu : Cpu) : Prop := cpu.halted → cpu.enablePending = false

/-- Only one opcode halts the processor. -/
theorem halted_switched {op : Opcode} (h : op ≠ .halt) (taken : Bool) (cpu : Cpu) :
    (op.switched taken cpu).halted = cpu.halted := by
  rcases op.switched_cases cpu taken with ⟨-, hs⟩ | ⟨-, hs⟩ | ⟨hop, -⟩ | ⟨-, -, hs⟩ | ⟨-, -, -, hs⟩
  · rw [hs]
  · rw [hs]
  · exact absurd hop h
  · rw [hs]
  · rw [hs]

theorem halted_settled (cpu : Cpu) (wished : Bool) : (cpu.settled wished).halted = cpu.halted := by
  rw [Cpu.settled]
  split <;> rfl

theorem attentive_switched {cpu : Cpu} (h : cpu.halted = false) (op : Opcode) (taken : Bool) :
    Attentive ((op.switched taken cpu).settled cpu.enablePending) := by
  by_cases hop : op = .halt
  · intro _
    rw [hop, Opcode.switched, Cpu.settled]
    cases cpu.enablePending <;> rfl
  · intro hh
    rw [halted_settled, halted_switched hop, h] at hh
    cases hh

theorem Attentive.served {c : Console} (h : Attentive c.cpu) :
    Attentive (serveInterrupts c).state.cpu := by
  cases hp : c.hardware.body.bus.pendingInterrupt? with
  | none =>
    rw [serveInterrupts_of_none hp]
    exact h
  | some source =>
    obtain ⟨registers, hcpu⟩ := cpu_serveInterrupts hp
    rw [hcpu]
    exact fun hh ↦ by cases hh

theorem Attentive.next {c : Console} (hr : Hardware.Reachable c.hardware) (h : Attentive c.cpu) :
    Attentive c.next.cpu := by
  rcases next_cases c with ⟨fault, he, hn⟩ | ⟨cycles, hok, hn⟩
  · obtain ⟨registers, hcpu⟩ := keeps_toCheck_of_error hr he
    rw [hn, hcpu]
    exact h
  · rw [hn]
    refine Attentive.served ?_
    cases hrun : c.cpu.halted with
    | true =>
      rw [toCheck_of_halted hrun, idle_eq hr]
      exact h
    | false =>
      obtain ⟨i, taken, registers, -, hcpu⟩ := cpu_toCheck_of_ok hr hrun hok
      rw [hcpu]
      exact attentive_switched hrun i.opcode taken

theorem Reachable.attentive {c : Console} (h : Reachable c) : Attentive c.cpu := by
  induction h with
  | powerOn h =>
    obtain ⟨_, -, rfl⟩ := powerOn_cases h
    exact fun hh ↦ by cases hh
  | @perform c op h ih =>
    cases op with
    | step =>
      rw [state_perform_step]
      exact .next h.hardware ih
    | write addr value => exact ih
    | advance cycles => exact ih
    | press button pressed =>
      rw [Operation.perform, pressButton_eq]
      exact ih

end Console

end DotMatrix
