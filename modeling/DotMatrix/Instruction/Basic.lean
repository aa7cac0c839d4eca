/-!
# Instructions

An instruction is an opcode with up to two operands, the number of bytes it takes up and the
clock cycles it lasts.  An operand says where a value comes from or goes to; an addressing mode
tells a register or number that *is* the value from one that points at it, and whether the pointer
is stepped after the access.
-/

set_option autoImplicit false

namespace DotMatrix

/-- The 8-bit registers that an operand can name. -/
inductive Reg8 where
  | a | b | c | d | e | h | l
  deriving DecidableEq

/-- The 16-bit registers and register pairs. -/
inductive Reg16 where
  | af | bc | de | hl | sp | pc
  deriving DecidableEq

/-- How an operand is turned into a value. -/
structure Mode where
  /-- The operand is the value. -/
  direct : Bool
  /-- The operand is the address of the value. -/
  indirect : Bool
  /-- The pointer moves up after the access. -/
  increment : Bool
  /-- The pointer moves down after the access. -/
  decrement : Bool
  deriving DecidableEq

namespace Mode

/-- The operand itself. -/
def immediate : Mode := ⟨true, false, false, false⟩

/-- The byte that the operand points at. -/
def pointer : Mode := ⟨false, true, false, false⟩

/-- The byte pointed at, the pointer then moving up. -/
def pointerUp : Mode := ⟨false, true, true, false⟩

/-- The byte pointed at, the pointer then moving down. -/
def pointerDown : Mode := ⟨false, true, false, true⟩

/-- The mode with the given bits, lowest first: direct, indirect, increment, decrement.  Higher
bits are dropped. -/
def ofBits (bits : UInt8) : Mode :=
  ⟨bits &&& 1 ≠ 0, bits &&& 2 ≠ 0, bits &&& 4 ≠ 0, bits &&& 8 ≠ 0⟩

end Mode

/-- When a control transfer is taken. -/
inductive Condition where
  | always | nonZero | zero | noCarry | carry
  deriving DecidableEq

/-- Where a value comes from or goes to. -/
inductive Operand where
  | reg8 (register : Reg8) (mode : Mode)
  | reg16 (register : Reg16) (mode : Mode)
  | imm8 (value : UInt8) (mode : Mode)
  | imm16 (value : UInt16) (mode : Mode)
  | condition (condition : Condition)
  /-- A register plus a signed byte. -/
  | displaced (register : Reg16) (displacement : UInt8) (mode : Mode)
  /-- A signed byte added to the program or stack pointer. -/
  | offset (displacement : UInt8)
  | bit (index : UInt8)
  | vector (address : UInt8)
  deriving DecidableEq

/-- What an instruction does. -/
inductive Opcode where
  | nop | ld | ldh | inc | dec | rlca | rla | rrca | rra | daa | cpl | scf | ccf
  | jr | jp | call | ret | reti | rst | push | pop
  | add | adc | sub | sbc | and | xor | or | cp
  | halt | stop | di | ei
  | rlc | rrc | rl | rr | sla | sra | swap | srl | bit | res | set
  deriving DecidableEq

/-- A decoded instruction. -/
structure Instruction where
  opcode : Opcode
  lhs : Option Operand
  rhs : Option Operand
  /-- The bytes it takes up in memory, its immediate included. -/
  length : UInt16
  /-- Its duration in clock cycles; for a conditional transfer, when the transfer is taken. -/
  cycles : Nat
  /-- The duration of a conditional transfer that is not taken. -/
  cyclesNotTaken : Option Nat
  deriving DecidableEq

/-- The opcodes that stand behind the prefix byte. -/
def Opcode.isPrefixed : Opcode → Bool
  | .rlc | .rrc | .rl | .rr | .sla | .sra | .swap | .srl | .bit | .res | .set => true
  | _ => false

/-- An instruction reached through the prefix byte. -/
def Instruction.isPrefixed (i : Instruction) : Bool := i.opcode.isPrefixed

end DotMatrix
