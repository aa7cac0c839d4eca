import DotMatrix.Proofs.Console.Switches
import DotMatrix.Proofs.Hardware.Changes

/-!
# Steps seen from outside

What a step of the machine does, in terms of the opcode it runs and of whether it serves an
interrupt, and what that means for the processor's switches.

* `check_cases` — the switches at the interrupt check of a step.
* `next_of_off`, `next_of_on`, `next_of_dispatches` — the switches after it.
* `toCheck_of_byte`, `step_of_none` — a whole step while nothing else is due.
* `booted` — a machine whose program starts with a given opcode.
-/

set_option autoImplicit false

namespace DotMatrix.Console

/-! ## Steps -/

/-- The step succeeds. -/
def Succeeds (c : Console) : Prop := ∃ cycles, (step c).result = .ok cycles

/-- The step runs an instruction with this opcode. -/
def Executes (c : Console) (op : Opcode) : Prop :=
  c.cpu.halted = false ∧ ∃ i, (fetch c).result = .ok i ∧ i.opcode = op

/-- The step serves an interrupt: at its check interrupts are on and one is pending. -/
def Dispatches (c : Console) : Prop :=
  ∃ cycles source, (toCheck c).result = .ok cycles ∧ (toCheck c).state.cpu.interruptsOn ∧
    (toCheck c).state.hardware.body.bus.pendingInterrupt? = some source

theorem Succeeds.toCheck_ok {c : Console} (h : Succeeds c) :
    ∃ cycles, (toCheck c).result = .ok cycles := by
  obtain ⟨cycles, h⟩ := h
  rw [step_eq] at h
  obtain ⟨running, hok, -⟩ := Exec.bind_eq_ok h
  exact ⟨running, hok⟩

theorem Executes.unique {c : Console} {op op' : Opcode} (h : Executes c op)
    (h' : Executes c op') : op = op' := by
  obtain ⟨-, i, hi, rfl⟩ := h
  obtain ⟨-, i', hi', rfl⟩ := h'
  rw [hi] at hi'
  cases hi'
  rfl

/-! ## The switches between two steps -/

section

variable {c : Console}

/-- With interrupts off at its check, a step serves none, and leaves the switches as they were at
its check. -/
theorem next_of_off (hoff : (toCheck c).state.cpu.interruptsOn = false) :
    ¬ Dispatches c ∧ c.next.cpu.interruptsOn = false ∧
      c.next.cpu.enablePending = (toCheck c).state.cpu.enablePending := by
  refine ⟨?_, ?_⟩
  · rintro ⟨cycles, source, -, hon, -⟩
    rw [hoff] at hon
    cases hon
  rcases next_cases c with ⟨fault, -, hn⟩ | ⟨cycles, -, hn⟩ <;> rw [hn]
  · exact ⟨hoff, rfl⟩
  cases hp : (toCheck c).state.hardware.body.bus.pendingInterrupt? with
  | none =>
    rw [serveInterrupts_of_none hp]
    exact ⟨hoff, rfl⟩
  | some source =>
    obtain ⟨registers, hcpu⟩ := cpu_serveInterrupts hp
    rw [hcpu]
    exact ⟨rfl, rfl⟩

/-- With interrupts on at its check, a step serves one or leaves them on. -/
theorem next_of_on {cycles : Nat} (hok : (toCheck c).result = .ok cycles)
    (hon : (toCheck c).state.cpu.interruptsOn) : Dispatches c ∨ c.next.cpu.interruptsOn := by
  cases hp : (toCheck c).state.hardware.body.bus.pendingInterrupt? with
  | none =>
    rcases next_cases c with ⟨fault, he, -⟩ | ⟨_, -, hn⟩
    · rw [hok] at he
      cases he
    · rw [hn, serveInterrupts_of_none hp]
      exact Or.inr hon
  | some source => exact Or.inl ⟨cycles, source, hok, hon, hp⟩

/-- A step that serves an interrupt turns interrupts off and keeps the wish to turn them on. -/
theorem next_of_dispatches (h : Dispatches c) :
    c.next.cpu.interruptsOn = false ∧ c.next.cpu.halted = false ∧
      c.next.cpu.enablePending = (toCheck c).state.cpu.enablePending := by
  obtain ⟨cycles, source, hok, -, hp⟩ := h
  rcases next_cases c with ⟨fault, he, -⟩ | ⟨_, -, hn⟩
  · rw [hok] at he
    cases he
  · obtain ⟨registers, hcpu⟩ := cpu_serveInterrupts hp
    rw [hn, hcpu]
    exact ⟨rfl, rfl, rfl⟩

/-- At its check a step has the switches it started with, if it is halted, or those that the
instruction left. -/
theorem check_cases (h : Reachable c) {cycles : Nat} (hok : (toCheck c).result = .ok cycles) :
    (c.cpu.halted ∧ (toCheck c).state.cpu = c.cpu) ∨
    ∃ op taken registers, Executes c op ∧ (toCheck c).state.cpu =
      ((op.switched taken c.cpu).settled c.cpu.enablePending).withRegisters registers := by
  cases hrun : c.cpu.halted with
  | true =>
    rw [toCheck_of_halted hrun, idle_eq h.hardware]
    exact Or.inl ⟨rfl, rfl⟩
  | false =>
    obtain ⟨i, taken, registers, hf, hcpu⟩ := cpu_toCheck_of_ok h.hardware hrun hok
    exact Or.inr ⟨i.opcode, taken, registers, ⟨hrun, i, hf, rfl⟩, hcpu⟩

end

/-! ## Undisturbed steps -/

/-- A step whose instruction is one byte of the image's first window, while nothing is due. -/
theorem toCheck_of_byte {c c' : Console} {byte : UInt8} {i : Instruction} {taken : Bool}
    {done : Array Record} (hrun : c.cpu.halted = false) (hpc : c.cpu.registers.pc < 0x4000)
    (hb : c.hardware.bus.cartridge.image[c.cpu.registers.pc.toNat]? = some byte)
    (hplain : byte ≠ Instruction.prefixByte) (ht : Instruction.template byte = some i)
    (hl : i.lhs.all Operand.isFixed) (hr : i.rhs.all Operand.isFixed)
    (hp : perform i (past i c) = ⟨.ok taken, c', done⟩)
    (hq : ∀ event ∈ c'.hardware.clock.queue,
      c'.hardware.now + i.duration taken ≤ event.target) :
    ∃ records, (fetch c).result = .ok i ∧ toCheck c = ⟨.ok (i.duration taken),
      ⟨c'.cpu.settled c.cpu.enablePending,
        c'.hardware.atTime (c'.hardware.now + i.duration taken)⟩, records⟩ := by
  have hf := fetch_of_byte (Hardware.load_image hpc hb) hplain ht hl hr
  have ha : Hardware.advance (i.duration taken) c'.hardware =
      ⟨.ok (), c'.hardware.atTime (c'.hardware.now + i.duration taken), #[]⟩ :=
    Timed.advance_of_waiting hq
  rw [toCheck_of_running hrun, runInstruction_of_done hf hp ha, hf]
  exact ⟨_, rfl, rfl⟩

/-- A step at whose check no interrupt is pending. -/
theorem step_of_none {c c' : Console} {cycles : Nat} {records : Array Record}
    (h : toCheck c = ⟨.ok cycles, c', records⟩)
    (hp : c'.hardware.bus.pendingInterrupt? = none) : step c = ⟨.ok cycles, c', records⟩ := by
  rw [step_eq, Exec.bind_of_ok h, Exec.bind_of_ok (serveInterrupts_of_none hp)]
  simp [Outcome.after]

/-! ## Hardware as it starts -/

section

variable (cartridge : Cartridge)

theorem cartridge_powerOn : (Hardware.powerOn cartridge).1.bus.cartridge = cartridge := by
  rw [Hardware.powerOn_eq]
  exact Hardware.cartridge_covers.started _

/-- Nothing is due soon after the start. -/
theorem queue_powerOn : ∀ event ∈ (Hardware.powerOn cartridge).1.clock.queue,
    (Hardware.powerOn cartridge).1.now + 32 ≤ event.target := by
  rw [Hardware.powerOn_eq]
  intro event he
  have hnow : (Hardware.armed cartridge).started.now = 0 := by
    rw [Timed.now, Hardware.clock_started]
    rfl
  have hle := Hardware.le_target_started _ he
  rw [oamScanCycles] at hle
  show (Hardware.armed cartridge).started.now + 32 ≤ _
  omega

end

/-! ## Machines that start with an opcode -/

/-- The empty image with an opcode where programs start. -/
def opcodeImage (opcode : UInt8) : Array UInt8 := Hardware.emptyImage.setIfInBounds 0x100 opcode

/-- The machine as it starts with that image. -/
def booted (opcode : UInt8) : Console :=
  ⟨{}, (Hardware.powerOn (.plain (opcodeImage opcode))).1⟩

section

variable (opcode : UInt8)

theorem opcodeImage_accepted :
    Cartridge.ofImage (opcodeImage opcode) = .ok (.plain (opcodeImage opcode)) := by
  have hs : (opcodeImage opcode).size = imageBankSize := by
    simp [opcodeImage, Hardware.emptyImage]
  have hk : (opcodeImage opcode)[0x0147]?.getD 0 = 0 := by
    simp [opcodeImage, Hardware.emptyImage, imageBankSize]
  rw [Cartridge.ofImage, hs, hk]
  rfl

theorem reachable_booted : Reachable (booted opcode) := by
  obtain ⟨records, hp⟩ := exists_powerOn (opcodeImage_accepted opcode)
  exact .powerOn hp

theorem cartridge_booted :
    (booted opcode).hardware.bus.cartridge = .plain (opcodeImage opcode) :=
  cartridge_powerOn _

theorem image_booted :
    (booted opcode).hardware.bus.cartridge.image[0x100]? = some opcode := by
  rw [cartridge_booted, Cartridge.plain]
  simp [opcodeImage, Hardware.emptyImage, imageBankSize]

theorem queue_booted : ∀ event ∈ (booted opcode).hardware.clock.queue,
    (booted opcode).hardware.now + 32 ≤ event.target := queue_powerOn _

end

end DotMatrix.Console
