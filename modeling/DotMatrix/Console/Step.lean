import DotMatrix.Console.Execute

/-!
# Stepping the console

A step runs one instruction, lets the clock catch up with it and then gives pending interrupts a
chance; a halted processor lets a little time pass instead of running an instruction.  A frame is
as many steps as it takes until the display presents a picture.

* `Console.step` is one step; it yields the cycles that passed.
* `Console.runFrame` is a frame; with the display turned off it gives up after two frames' time.
* `Console.pressButton` presses or releases a button.
* `Console.powerOn` is the console as it starts with a cartridge image.
-/

set_option autoImplicit false

namespace DotMatrix

/-- The extra time that the prefix byte takes to fetch. -/
def prefixCycles : Nat := 4

/-- The time that serving an interrupt takes. -/
def dispatchCycles : Nat := 24

/-- The time that passes in a step of a halted processor. -/
def haltCycles : Nat := 4

/-- The duration of an instruction. -/
def Instruction.duration (i : Instruction) (taken : Bool) : Nat :=
  (if taken then i.cycles else i.cyclesNotTaken.getD i.cycles) +
    if i.isPrefixed then prefixCycles else 0

namespace Console

/-! ## A step -/

/-- Jump to where a source is served: interrupts are turned off, the request is withdrawn and the
program counter is pushed. -/
def dispatch (source : Interrupt) : Exec Console Nat := do
  Exec.report (.interruptDispatched source)
  modifyCpu fun cpu ↦ { cpu with interruptsOn := false }
  onHardware (Hardware.onBus (Exec.modify (Bus.withdrawInterrupt source)))
  let r ← registers
  pushWord r.pc
  jumpTo source.vector
  onHardware (Hardware.advance dispatchCycles)
  return dispatchCycles

/-- Give the most urgent pending interrupt a chance: it ends a halt, and it is served if interrupts
are on.  Yields the cycles that this took. -/
def serveInterrupts : Exec Console Nat := do
  match ← Exec.gets fun c ↦ c.hardware.body.bus.pendingInterrupt? with
  | none => return 0
  | some source =>
    let cpu ← Exec.gets Console.cpu
    if cpu.halted then
      Exec.report (.haltEnded source)
      modifyCpu fun cpu ↦ { cpu with halted := false }
    if cpu.interruptsOn then dispatch source else return 0

/-- Let a little time pass. -/
def idle : Exec Console Nat := do
  onHardware (Hardware.advance haltCycles)
  return haltCycles

/-- The instruction that the program counter points at. -/
def fetch : Exec Console Instruction := do
  let r ← registers
  let i ← onHardware (Instruction.decode Hardware.load Exec.fail r.pc)
  Exec.report (.instructionFetched r.pc i)
  return i

/-- Turn interrupts on if that was wished for before this instruction and is still wished for. -/
def settleInterrupts (wished : Bool) : Exec Console Unit :=
  modifyCpu fun cpu ↦
    if wished && cpu.enablePending then { cpu with interruptsOn := true, enablePending := false }
    else cpu

/-- Run one instruction and let the clock catch up with it. -/
def runInstruction : Exec Console Nat := do
  let cpu ← Exec.gets Console.cpu
  let i ← fetch
  modifyRegisters fun r ↦ { r with pc := r.pc + i.length }
  let taken ← perform i
  onHardware (Hardware.advance (i.duration taken))
  settleInterrupts cpu.enablePending
  return i.duration taken

/-- One step of the machine.  Yields the cycles that passed. -/
def step : Exec Console Nat := do
  let cpu ← Exec.gets Console.cpu
  let running ← if cpu.halted then idle else runInstruction
  let serving ← serveInterrupts
  return running + serving

/-! ## A frame -/

/-- The time after which a frame is given up. -/
def frameTimeout : Nat := 2 * frameCycles

/-- Step until another picture than the first `shown` was presented or the time is over.  `cycles`
have passed and `records` were left so far; at most `fuel` steps are taken. -/
def stepUntilFrame (shown : Nat) : Nat → Nat → Array Record → Console → Outcome Console Nat
  | 0, cycles, records, c => ⟨.ok cycles, c, records⟩
  | fuel + 1, cycles, records, c =>
    if c.hardware.body.display.frames ≠ shown ∨ frameTimeout ≤ cycles then ⟨.ok cycles, c, records⟩
    else
      match step c with
      | ⟨.ok more, c', after⟩ =>
        stepUntilFrame shown fuel (cycles + more) (records ++ after) c'
      | ⟨.error fault, c', after⟩ => ⟨.error fault, c', records ++ after⟩

/-- Run until the display presents the next picture.  Yields the cycles that passed.  A step takes
at least one cycle, so the time is over before the steps are used up. -/
def runFrame : Exec Console Nat := fun c ↦
  stepUntilFrame c.hardware.body.display.frames frameTimeout 0 #[] c

/-! ## Outside the machine -/

/-- Press or release a button; a new press requests an interrupt. -/
def pressButton (button : Button) (pressed : Bool) : Exec Console Unit := do
  let isNew ← Exec.gets fun c ↦ c.hardware.body.bus.joypad.isNewPress button pressed
  onHardware (Hardware.onBus (Exec.modify fun b ↦
    { b with joypad := b.joypad.update button pressed }))
  if isNew then
    Exec.report (.buttonPressed button)
    onHardware (Hardware.requestInterrupt .joypad)

/-- The console as it starts with a cartridge image, and what it reports. -/
def powerOn (image : Array UInt8) : Except Fault (Console × Array Record) :=
  match Cartridge.ofImage image with
  | .error fault => .error fault
  | .ok cartridge =>
    let (hw, records) := Hardware.powerOn cartridge
    .ok (⟨{}, hw⟩, #[.notice (.controllerChosen cartridge.name)] ++ records)

end Console

end DotMatrix
