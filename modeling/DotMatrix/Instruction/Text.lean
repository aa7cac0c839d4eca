import DotMatrix.Instruction.Basic
import DotMatrix.Numeral

/-!
# Instructions as text

Two ways to write an instruction's parts down.  `Instruction.disassembly` is assembler syntax in
lower case, such as `ld (hl-), a` or `jr nz, -2`; the condition of an unconditional transfer is not
printed.  `Operand.description` names the constructor and the addressing mode, such as
`Reg16(HL, AddressingMode(Indirect | Decrement))`, so that nothing about the operand is lost.
-/

set_option autoImplicit false

namespace DotMatrix

/-! ## Assembler syntax -/

/-- A register in assembler syntax. -/
def Reg8.mnemonic : Reg8 → String
  | .a => "a" | .b => "b" | .c => "c" | .d => "d" | .e => "e" | .h => "h" | .l => "l"

/-- A register pair in assembler syntax. -/
def Reg16.mnemonic : Reg16 → String
  | .af => "af" | .bc => "bc" | .de => "de" | .hl => "hl" | .sp => "sp" | .pc => "pc"

/-- A condition in assembler syntax, empty for an unconditional transfer. -/
def Condition.mnemonic : Condition → String
  | .always => "" | .nonZero => "nz" | .zero => "z" | .noCarry => "nc" | .carry => "c"

/-- An opcode in assembler syntax. -/
def Opcode.mnemonic : Opcode → String
  | .nop => "nop" | .ld => "ld" | .ldh => "ldh" | .inc => "inc" | .dec => "dec"
  | .rlca => "rlca" | .rla => "rla" | .rrca => "rrca" | .rra => "rra"
  | .daa => "daa" | .cpl => "cpl" | .scf => "scf" | .ccf => "ccf"
  | .jr => "jr" | .jp => "jp" | .call => "call" | .ret => "ret" | .reti => "reti" | .rst => "rst"
  | .push => "push" | .pop => "pop"
  | .add => "add" | .adc => "adc" | .sub => "sub" | .sbc => "sbc"
  | .and => "and" | .xor => "xor" | .or => "or" | .cp => "cp"
  | .halt => "halt" | .stop => "stop" | .di => "di" | .ei => "ei"
  | .rlc => "rlc" | .rrc => "rrc" | .rl => "rl" | .rr => "rr"
  | .sla => "sla" | .sra => "sra" | .swap => "swap" | .srl => "srl"
  | .bit => "bit" | .res => "res" | .set => "set"

/-- Parentheses around an operand that points at its value. -/
def Mode.enclose (m : Mode) (text : String) : String :=
  if m.indirect then "(" ++ text ++ ")" else text

/-- The sign behind a pointer that is stepped; moving up wins over moving down. -/
def Mode.step (m : Mode) : String :=
  if m.increment then "+" else if m.decrement then "-" else ""

/-- An operand in assembler syntax. -/
def Operand.assembly : Operand → String
  | .reg8 r m => m.enclose r.mnemonic
  | .reg16 r m => m.enclose (r.mnemonic ++ m.step)
  | .imm8 v m => m.enclose ("$" ++ hexByte v)
  | .imm16 v m => m.enclose ("$" ++ hexWord v)
  | .condition cond => cond.mnemonic
  | .displaced r d _ => r.mnemonic ++ signedByte d
  | .offset d => signedByte d
  | .bit n => toString n.toNat
  | .vector v => "$" ++ hexByte v

/-- The condition of an unconditional transfer takes part in decoding but is not printed. -/
def Operand.isSilent : Operand → Bool
  | .condition .always => true
  | _ => false

/-- The operands that are printed, in order. -/
def Instruction.printedOperands (i : Instruction) : List Operand :=
  (i.lhs.toList ++ i.rhs.toList).filter fun o ↦ !o.isSilent

/-- An instruction in assembler syntax. -/
def Instruction.disassembly (i : Instruction) : String :=
  match i.printedOperands.map Operand.assembly with
  | [] => i.opcode.mnemonic
  | operands => i.opcode.mnemonic ++ " " ++ ", ".intercalate operands

/-! ## Descriptions -/

/-- The name of a register. -/
def Reg8.name : Reg8 → String
  | .a => "A" | .b => "B" | .c => "C" | .d => "D" | .e => "E" | .h => "H" | .l => "L"

/-- The name of a register pair. -/
def Reg16.name : Reg16 → String
  | .af => "AF" | .bc => "BC" | .de => "DE" | .hl => "HL" | .sp => "SP" | .pc => "PC"

/-- The name of a condition. -/
def Condition.name : Condition → String
  | .always => "None" | .nonZero => "NZ" | .zero => "Z" | .noCarry => "NC" | .carry => "C"

/-- The name of an opcode. -/
def Opcode.name (o : Opcode) : String := o.mnemonic.capitalize

/-- The parts of an addressing mode, separated by bars. -/
def Mode.description (m : Mode) : String :=
  let parts := [(m.direct, "Direct"), (m.indirect, "Indirect"), (m.increment, "Increment"),
    (m.decrement, "Decrement")].filterMap fun (present, name) ↦ if present then some name else none
  let body := if parts.isEmpty then "0x0" else " | ".intercalate parts
  "AddressingMode(" ++ body ++ ")"

/-- An operand with its kind and addressing mode spelt out and numbers in decimal. -/
def Operand.description : Operand → String
  | .reg8 r m => s!"Reg8({r.name}, {m.description})"
  | .reg16 r m => s!"Reg16({r.name}, {m.description})"
  | .imm8 v m => s!"Imm8({v.toNat}, {m.description})"
  | .imm16 v m => s!"Imm16({v.toNat}, {m.description})"
  | .condition cond => s!"Conditional({cond.name})"
  | .displaced r d m => s!"DisplacedReg16({r.name}, {signedValue d}, {m.description})"
  | .offset d => s!"Offset({signedValue d})"
  | .bit n => s!"Bit({n.toNat})"
  | .vector v => s!"Vector({v.toNat})"

end DotMatrix
