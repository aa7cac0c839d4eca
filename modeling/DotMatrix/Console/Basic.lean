import DotMatrix.Hardware.Run
import DotMatrix.Processor.Cpu

/-!
# The console

A processor and the hardware it talks to, with the operations through which the processor reaches
the bus and its own registers, the stack among them.
-/

set_option autoImplicit false

namespace DotMatrix

/-- A whole machine. -/
structure Console where
  cpu : Cpu
  hardware : Hardware

namespace Console

/-! ## Parts of the machine -/

/-- An operation of the hardware. -/
@[inline]
def onHardware {α : Type} (x : Exec Hardware α) : Exec Console α
  | ⟨cpu, hw⟩ =>
    match x hw with
    | ⟨r, hw', records⟩ => ⟨r, ⟨cpu, hw'⟩, records⟩

/-- Change the processor. -/
@[inline]
def modifyCpu (f : Cpu → Cpu) : Exec Console Unit
  | ⟨cpu, hw⟩ => ⟨.ok (), ⟨f cpu, hw⟩, #[]⟩

/-- Look at the register file. -/
@[inline]
def registers : Exec Console Registers := Exec.gets (·.cpu.registers)

/-- Change the register file. -/
@[inline]
def modifyRegisters (f : Registers → Registers) : Exec Console Unit :=
  modifyCpu fun cpu ↦ { cpu with registers := f cpu.registers }

/-- An operation of the arithmetic unit: its flags are published and its result is handed back. -/
@[inline]
def compute {α : Type} (f : Registers → α × Registers) : Exec Console α
  | ⟨cpu, hw⟩ =>
    match f cpu.registers with
    | (result, registers) => ⟨.ok result, ⟨{ cpu with registers := registers }, hw⟩, #[]⟩

/-- Read a byte from the bus. -/
@[inline]
def load (addr : UInt16) : Exec Console UInt8 := onHardware (Hardware.load addr)

/-- Write a byte to the bus. -/
@[inline]
def store (addr : UInt16) (value : UInt8) : Exec Console Unit :=
  onHardware (Hardware.write addr value)

/-! ## The stack -/

/-- Push a byte: the stack pointer moves down, also when the write then fails. -/
def pushByte (value : UInt8) : Exec Console Unit := do
  let r ← registers
  modifyRegisters fun r ↦ { r with sp := r.sp - 1 }
  store (r.sp - 1) value

/-- Pop a byte: the stack pointer moves up if the read succeeds. -/
def popByte : Exec Console UInt8 := do
  let r ← registers
  let value ← load r.sp
  modifyRegisters fun r ↦ { r with sp := r.sp + 1 }
  return value

/-- Push a word, its high byte first. -/
def pushWord (value : UInt16) : Exec Console Unit := do
  pushByte (highByte value)
  pushByte (lowByte value)

/-- Pop a word, its low byte first. -/
def popWord : Exec Console UInt16 := do
  let low ← popByte
  let high ← popByte
  return wordOfBytes high low

/-- Push a register pair. -/
def pushPair (register : Reg16) : Exec Console Unit := do
  let r ← registers
  pushWord (r.pair register)

/-- Pop a register pair. -/
def popPair (register : Reg16) : Exec Console Unit := do
  let value ← popWord
  modifyRegisters (·.setPair register value)

end Console

end DotMatrix
