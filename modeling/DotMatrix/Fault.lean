import DotMatrix.Instruction.Text

/-!
# Faults

Everything that can stop the machine.

* A program can do so with an opcode byte that stands for nothing, an access where nothing is mapped
  or a select code without a window: `undefinedOpcode`, `outOfBounds`, `invalidRamBank`.
* A cartridge image can be turned down: `cartridgeTooSmall`, `unsupportedCartridge`.
* Parts of the machine could fail to fit together, which no program can bring about:
  `invalidTimerFrequency`, `mismatchedOperands`, `unusableOperand`, and `undefinedOpcode` behind the
  prefix byte.
* A controller can be given too short an image, a scanline register can be overwritten behind the
  display's back, and reactions can set each other off for ever: `pastImage`, `lineOverflow`,
  `runaway`.  No program on an accepted cartridge brings these about either.
-/

set_option autoImplicit false

namespace DotMatrix

/-- Why the machine cannot go on. -/
inductive Fault where
  /-- The byte at the program counter is no instruction. -/
  | undefinedOpcode (opcode : UInt8) (address : UInt16) (prefixed : Bool)
  /-- Nothing is mapped at the address. -/
  | outOfBounds (address : UInt16)
  /-- A select code that stands for neither a RAM bank nor a calendar field. -/
  | invalidRamBank (code : UInt8)
  /-- A timer control byte with no frequency. -/
  | invalidTimerFrequency (control : UInt8)
  | cartridgeTooSmall (size : Nat)
  | unsupportedCartridge (kind : UInt8)
  /-- An instruction whose operands do not fit its opcode. -/
  | mismatchedOperands (instruction : Instruction)
  /-- An operand that has no value, or no place to put one. -/
  | unusableOperand (target : Operand)
  /-- The fixed bank of an image shorter than a bank was read past its end. -/
  | pastImage (address : UInt16)
  /-- The scanline counter was stepped past 255. -/
  | lineOverflow
  /-- Reactions kept setting each other off. -/
  | runaway
  deriving DecidableEq

namespace Fault

/-- The wording of a fault. -/
def message : Fault → String
  | .undefinedOpcode opcode address prefixed =>
    "Failed to decode " ++ (if prefixed then "prefixed " else "") ++
      s!"instruction ({hexByte opcode}) at address: ${hexWord address}"
  | .outOfBounds address => s!"Out of bounds memory access at address: ${hexWord address}"
  | .invalidRamBank code => s!"Invalid RAM bank selected: {hexByte code}"
  | .invalidTimerFrequency control => s!"Invalid timer frequency in TAC: {binaryByte control}"
  | .cartridgeTooSmall size => s!"Cartridge image too small: {size} bytes"
  | .unsupportedCartridge kind => s!"Unsupported cartridge type: {hexByte kind}"
  | .mismatchedOperands instruction =>
    s!"Invalid instruction handler implementation: {instruction.disassembly}"
  | .unusableOperand target => s!"Unresolved target: {target.description}"
  | .pastImage address => s!"Cartridge image ends before address: ${hexWord address}"
  | .lineOverflow => "Scanline counter overflow"
  | .runaway => "Reactions never came to an end"

end Fault

end DotMatrix
