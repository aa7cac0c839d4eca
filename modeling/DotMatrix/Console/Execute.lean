import DotMatrix.Console.Basic
import DotMatrix.Instruction.Decode

/-!
# Executing instructions

`Console.perform` carries out an instruction once the program counter points past it, so relative
jumps and pushed return addresses start from there.  It tells whether a transfer was taken, which is
all that the duration of an instruction depends on.

Operands that do not fit their opcode are faults; no decoded instruction has them.
-/

set_option autoImplicit false

namespace DotMatrix.Console

/-! ## Operands -/

/-- The page of the registers, with an offset into it. -/
def registerPage (offset : UInt8) : UInt16 := 0xff00 + offset.toUInt16

/-- Step a pointer after an access. -/
def stepPointer (register : Reg16) (mode : Mode) : Exec Console Unit :=
  if mode.increment then modifyRegisters (·.incrementPair register)
  else if mode.decrement then modifyRegisters (·.decrementPair register)
  else return ()

/-- Read the byte that an address points at, as a word. -/
def loadExtended (addr : UInt16) : Exec Console UInt16 := do
  let byte ← load addr
  return byte.toUInt16

/-- The value of an operand. -/
def readOperand (operand : Operand) : Exec Console UInt16 := do
  match operand with
  | .reg8 register mode =>
    let r ← registers
    if mode.indirect then loadExtended (registerPage (r.get register))
    else return (r.get register).toUInt16
  | .reg16 register mode =>
    let r ← registers
    if mode.indirect then
      let value ← loadExtended (r.pair register)
      stepPointer register mode
      return value
    else return r.pair register
  | .imm8 value mode =>
    if mode.indirect then loadExtended (registerPage value) else return value.toUInt16
  | .imm16 value mode => if mode.indirect then loadExtended value else return value
  | .displaced .sp displacement _ => compute (·.addSp displacement)
  | operand => Exec.fail (.unusableOperand operand)

/-- The value of a byte operand. -/
def readByte (operand : Operand) : Exec Console UInt8 := do
  let value ← readOperand operand
  return lowByte value

/-- Put a byte where an operand says. -/
def writeByte (operand : Operand) (value : UInt8) : Exec Console Unit := do
  match operand with
  | .reg8 register mode =>
    let r ← registers
    if mode.indirect then store (registerPage (r.get register)) value
    else modifyRegisters (·.set register value)
  | .reg16 register mode =>
    let r ← registers
    if mode.indirect then
      store (r.pair register) value
      stepPointer register mode
    else Exec.fail (.unusableOperand operand)
  | .imm8 offset mode =>
    if mode.indirect then store (registerPage offset) value
    else Exec.fail (.unusableOperand operand)
  | .imm16 addr mode =>
    if mode.indirect then store addr value else Exec.fail (.unusableOperand operand)
  | operand => Exec.fail (.unusableOperand operand)

/-- The only operand of an instruction. -/
def soleOperand (i : Instruction) : Exec Console Operand :=
  match i.lhs with
  | some operand => return operand
  | none => Exec.fail (.mismatchedOperands i)

/-- The two operands of an instruction. -/
def bothOperands (i : Instruction) : Exec Console (Operand × Operand) :=
  match i.lhs, i.rhs with
  | some lhs, some rhs => return (lhs, rhs)
  | _, _ => Exec.fail (.mismatchedOperands i)

/-! ## Moves and arithmetic -/

/-- Copy the second operand into the first.  Pairs are copied whole, everything else as bytes, and a
pair stored at an immediate address goes there low byte first. -/
def performLoad (i : Instruction) : Exec Console Unit := do
  match ← bothOperands i with
  | (.imm16 addr ⟨_, true, _, _⟩, .reg16 register _) =>
    let r ← registers
    onHardware (Hardware.writeWord addr (r.pair register))
  | (.reg16 register ⟨true, _, _, _⟩, source) =>
    let value ← readOperand source
    modifyRegisters (·.setPair register value)
  | (target, source) =>
    let value ← readByte source
    writeByte target value

/-- An accumulator operation that stores its result. -/
def intoAccumulator (operation : Registers → UInt8 → UInt8 × Registers) (source : Operand) :
    Exec Console Unit := do
  let value ← readByte source
  let result ← compute (operation · value)
  modifyRegisters fun r ↦ { r with a := result }

/-- Add bytes, words or a displacement, by the first operand. -/
def performAdd (i : Instruction) (operation : Registers → UInt8 → UInt8 × Registers) :
    Exec Console Unit := do
  match ← bothOperands i with
  | (.reg16 .hl _, source) =>
    let value ← readOperand source
    let result ← compute (·.addHl value)
    modifyRegisters (·.setPair .hl result)
  | (.reg16 .sp _, .offset displacement) =>
    let result ← compute (·.addSp displacement)
    modifyRegisters fun r ↦ { r with sp := result }
  | (_, source) => intoAccumulator operation source

/-- An accumulator operation on the second operand. -/
def performAccumulator (i : Instruction)
    (operation : Registers → UInt8 → UInt8 × Registers) : Exec Console Unit := do
  let (_, source) ← bothOperands i
  intoAccumulator operation source

/-- Compare the accumulator with the second operand. -/
def performCompare (i : Instruction) : Exec Console Unit := do
  let (_, source) ← bothOperands i
  let value ← readByte source
  modifyRegisters (·.cp value)

/-- Step the operand up or down: a pair whole, everything else as a byte. -/
def performStep (i : Instruction) (stepPair : Registers → Reg16 → Registers)
    (stepByte : Registers → UInt8 → UInt8 × Registers) : Exec Console Unit := do
  match ← soleOperand i with
  | .reg16 register ⟨true, _, _, _⟩ => modifyRegisters (stepPair · register)
  | operand =>
    let value ← readByte operand
    let result ← compute (stepByte · value)
    writeByte operand result

/-- Rotate the accumulator; unlike the other rotations this clears the zero flag. -/
def performRotate (operation : Registers → UInt8 → UInt8 × Registers) : Exec Console Unit := do
  let result ← compute fun r ↦ operation r r.a
  modifyRegisters fun r ↦ { r with a := result, f := { r.f with zero := false } }

/-- An operation on the accumulator alone. -/
def performUnary (operation : Registers → UInt8 × Registers) : Exec Console Unit := do
  let result ← compute operation
  modifyRegisters fun r ↦ { r with a := result }

/-- Shift the operand. -/
def performShift (i : Instruction) (operation : Registers → UInt8 → UInt8 × Registers) :
    Exec Console Unit := do
  let operand ← soleOperand i
  let value ← readByte operand
  let result ← compute (operation · value)
  writeByte operand result

/-- Test the bit that the first operand names of the second. -/
def performTestBit (i : Instruction) : Exec Console Unit := do
  match ← bothOperands i with
  | (.bit index, operand) =>
    let value ← readByte operand
    modifyRegisters (·.bit index value)
  | _ => Exec.fail (.mismatchedOperands i)

/-- Change the bit that the first operand names of the second. -/
def performChangeBit (i : Instruction) (change : UInt8 → UInt8 → UInt8) : Exec Console Unit := do
  match ← bothOperands i with
  | (.bit index, operand) =>
    let value ← readByte operand
    writeByte operand (change index value)
  | _ => Exec.fail (.mismatchedOperands i)

/-! ## Control transfers -/

/-- Carry on at another address. -/
def jumpTo (addr : UInt16) : Exec Console Unit := modifyRegisters fun r ↦ { r with pc := addr }

/-- Where a transfer goes; a call pushes the return address first. -/
def transferTarget (i : Instruction) (target : Operand) : Exec Console UInt16 := do
  let r ← registers
  match i.opcode, target with
  | .jr, .offset displacement => return r.pc + extendSign displacement
  | .jp, target => readOperand target
  | .call, target =>
    let addr ← readOperand target
    pushWord r.pc
    return addr
  | _, _ => Exec.fail (.mismatchedOperands i)

/-- Jump or call if the condition holds, and tell whether it did. -/
def performJump (i : Instruction) : Exec Console Bool := do
  match ← bothOperands i with
  | (.condition condition, target) =>
    let r ← registers
    if r.satisfies condition then
      let addr ← transferTarget i target
      jumpTo addr
      return true
    else return false
  | _ => Exec.fail (.mismatchedOperands i)

/-- Return if the condition holds, and tell whether it did. -/
def performReturn (i : Instruction) : Exec Console Bool := do
  match ← soleOperand i with
  | .condition condition =>
    let r ← registers
    if r.satisfies condition then
      let addr ← popWord
      jumpTo addr
      return true
    else return false
  | _ => Exec.fail (.mismatchedOperands i)

/-- Return from an interrupt: interrupts are turned on at once. -/
def performReturnFromInterrupt (i : Instruction) : Exec Console Bool := do
  let taken ← performReturn i
  if taken then modifyCpu fun cpu ↦ { cpu with interruptsOn := true, enablePending := false }
  return taken

/-- Call a fixed address. -/
def performRestart (i : Instruction) : Exec Console Unit := do
  match ← soleOperand i with
  | .vector addr =>
    let r ← registers
    pushWord r.pc
    jumpTo addr.toUInt16
  | _ => Exec.fail (.mismatchedOperands i)

/-- Push a register pair. -/
def performPush (i : Instruction) : Exec Console Unit := do
  match ← soleOperand i with
  | .reg16 register _ => pushPair register
  | operand => Exec.fail (.unusableOperand operand)

/-- Pop a register pair. -/
def performPop (i : Instruction) : Exec Console Unit := do
  match ← soleOperand i with
  | .reg16 register _ => popPair register
  | operand => Exec.fail (.unusableOperand operand)

/-! ## All instructions -/

/-- Carry out an instruction that is no transfer. -/
def performPlain (i : Instruction) : Exec Console Unit :=
  match i.opcode with
  | .nop => return ()
  | .ld | .ldh => performLoad i
  | .inc => performStep i Registers.incrementPair Registers.inc
  | .dec => performStep i Registers.decrementPair Registers.dec
  | .add => performAdd i Registers.add
  | .adc => performAdd i Registers.adc
  | .sub => performAccumulator i Registers.sub
  | .sbc => performAccumulator i Registers.sbc
  | .and => performAccumulator i Registers.and
  | .xor => performAccumulator i Registers.xor
  | .or => performAccumulator i Registers.or
  | .cp => performCompare i
  | .rlca => performRotate Registers.rlc
  | .rla => performRotate Registers.rl
  | .rrca => performRotate Registers.rrc
  | .rra => performRotate Registers.rr
  | .daa => performUnary Registers.daa
  | .cpl => performUnary Registers.cpl
  | .scf => modifyRegisters Registers.scf
  | .ccf => modifyRegisters Registers.ccf
  | .rst => performRestart i
  | .push => performPush i
  | .pop => performPop i
  | .di => modifyCpu fun cpu ↦ { cpu with interruptsOn := false, enablePending := false }
  | .ei => modifyCpu fun cpu ↦ { cpu with enablePending := true }
  | .halt => modifyCpu fun cpu ↦ { cpu with halted := true }
  | .stop => store Register.divider 0
  | .rlc => performShift i Registers.rlc
  | .rrc => performShift i Registers.rrc
  | .rl => performShift i Registers.rl
  | .rr => performShift i Registers.rr
  | .sla => performShift i Registers.sla
  | .sra => performShift i Registers.sra
  | .swap => performShift i Registers.swap
  | .srl => performShift i Registers.srl
  | .bit => performTestBit i
  | .res => performChangeBit i Registers.clearBit
  | .set => performChangeBit i Registers.setBit
  | .jr | .jp | .call | .ret | .reti => Exec.fail (.mismatchedOperands i)

/-- Carry out an instruction, and tell whether a transfer was taken; every other instruction counts
as taken. -/
def perform (i : Instruction) : Exec Console Bool :=
  match i.opcode with
  | .jr | .jp | .call => performJump i
  | .ret => performReturn i
  | .reti => performReturnFromInterrupt i
  | _ => do
    performPlain i
    return true

end DotMatrix.Console
