import DotMatrix.Instruction.Text
import DotMatrix.Proofs.Instruction.Encoding

/-!
# Assembling instructions

The bytes of an instruction can be told from what disassembly prints of it: the opcode and the
operands except for the condition of an unconditional transfer.  `assembled` is the assembler that
does this.

* `Opcode.byte` — the opcode byte, put together from the fields of the operands.
* `Encoded.eq_assembled` — whatever bytes an instruction is decoded from, they are these.
-/

set_option autoImplicit false

namespace DotMatrix

/-! ## The opcode byte -/

/-- The three-bit field of an 8-bit register. -/
def Reg8.field : Reg8 → UInt8
  | .b => 0 | .c => 1 | .d => 2 | .e => 3 | .h => 4 | .l => 5 | .a => 7

/-- The two-bit field of a register pair. -/
def Reg16.field : Reg16 → UInt8
  | .bc => 0 | .de => 1 | .hl => 2 | .sp | .af | .pc => 3

/-- The two-bit field of a condition. -/
def Condition.field : Condition → UInt8
  | .nonZero => 0 | .zero => 1 | .noCarry => 2 | .carry | .always => 3

/-- The three-bit field of a byte operand. -/
def Operand.field : Operand → UInt8
  | .reg8 r _ => r.field
  | _ => 6

/-- The two-bit field of a pointer. -/
def Operand.pointerField : Operand → UInt8
  | .reg16 .hl mode => if mode.increment then 2 else 3
  | .reg16 r _ => r.field
  | _ => 0

namespace Opcode

/-- The three-bit field of an operation on the accumulator, of one on its flags and of a shift. -/
def field : Opcode → UInt8
  | .add | .rlca | .rlc => 0
  | .adc | .rrca | .rrc => 1
  | .sub | .rla | .rl => 2
  | .sbc | .rra | .rr => 3
  | .and | .daa | .sla => 4
  | .xor | .cpl | .sra => 5
  | .or | .scf | .swap => 6
  | _ => 7

/-- The opcode byte of a move. -/
def moveByte : List Operand → UInt8
  | [.imm16 .., .reg16 ..] => 0x08
  | [.reg16 .sp _, .reg16 ..] => 0xf9
  | [.reg16 .., .displaced ..] => 0xf8
  | [.reg16 r _, .imm16 ..] => 0x01 + 16 * r.field
  | [.reg8 .c ⟨false, true, _, _⟩, _] => 0xe2
  | [_, .reg8 .c ⟨false, true, _, _⟩] => 0xf2
  | [.imm16 .., _] => 0xea
  | [_, .imm16 ..] => 0xfa
  | [target, .imm8 ..] => 0x06 + 8 * target.field
  | [target, source] =>
    if target = .atHl ∨ source = .atHl then 0x40 + 8 * target.field + source.field
    else
      match target, source with
      | .reg16 .., _ => 0x02 + 16 * target.pointerField
      | _, .reg16 .. => 0x0a + 16 * source.pointerField
      | _, _ => 0x40 + 8 * target.field + source.field
  | _ => 0

/-- The opcode byte of an instruction, from its opcode and the operands that are printed. -/
def byte (op : Opcode) (operands : List Operand) : UInt8 :=
  match op, operands with
  | .nop, _ => 0x00
  | .stop, _ => 0x10
  | .halt, _ => 0x76
  | .di, _ => 0xf3
  | .ei, _ => 0xfb
  | .reti, _ => 0xd9
  | .jr, [.condition condition, _] => 0x20 + 8 * condition.field
  | .jr, _ => 0x18
  | .ret, [.condition condition] => 0xc0 + 8 * condition.field
  | .ret, _ => 0xc9
  | .jp, [.condition condition, _] => 0xc2 + 8 * condition.field
  | .jp, [.reg16 ..] => 0xe9
  | .jp, _ => 0xc3
  | .call, [.condition condition, _] => 0xc4 + 8 * condition.field
  | .call, _ => 0xcd
  | .rst, [.vector addr] => 0xc7 + addr
  | .push, [.reg16 r _] => 0xc5 + 16 * r.field
  | .pop, [.reg16 r _] => 0xc1 + 16 * r.field
  | .ldh, [.imm8 .., _] => 0xe0
  | .ldh, _ => 0xf0
  | .ld, operands => moveByte operands
  | .inc, [.reg16 r ⟨true, _, _, _⟩] => 0x03 + 16 * r.field
  | .inc, [operand] => 0x04 + 8 * operand.field
  | .dec, [.reg16 r ⟨true, _, _, _⟩] => 0x0b + 16 * r.field
  | .dec, [operand] => 0x05 + 8 * operand.field
  | .add, [.reg16 .sp _, _] => 0xe8
  | .add, [.reg16 .., .reg16 r _] => 0x09 + 16 * r.field
  | .bit, [.bit index, operand] => 0x40 + 8 * index + operand.field
  | .res, [.bit index, operand] => 0x80 + 8 * index + operand.field
  | .set, [.bit index, operand] => 0xc0 + 8 * index + operand.field
  | op, [_, .imm8 ..] => 0xc6 + 8 * op.field
  | op, [_, operand] => 0x80 + 8 * op.field + operand.field
  | op, [operand] => 8 * op.field + operand.field
  | op, _ => 0x07 + 8 * op.field

end Opcode

/-! ## The operands that are printed -/

namespace Operand

theorem isSilent_blank (o : Operand) : o.blank.isSilent = o.isSilent := by
  cases o <;> rfl

theorem immediates_of_isSilent {o : Operand} (h : o.isSilent) : o.immediates = [] := by
  cases o with
  | imm8 | imm16 | offset | displaced => cases h
  | reg8 | reg16 | condition | bit | vector => rfl

end Operand

namespace Instruction

theorem printedOperands_blank (i : Instruction) :
    i.blank.printedOperands = i.printedOperands.map Operand.blank := by
  have hmap : ∀ operands : List Operand, (operands.map Operand.blank).filter (fun o ↦ !o.isSilent) =
      (operands.filter fun o ↦ !o.isSilent).map Operand.blank := fun operands ↦ by
    rw [List.filter_map]
    simp only [Function.comp_def, Operand.isSilent_blank]
  rw [printedOperands, printedOperands, ← hmap, List.map_append]
  simp [blank, Option.toList_map]

/-- No immediate is left out. -/
theorem flatMap_immediates_printedOperands (i : Instruction) :
    i.printedOperands.flatMap Operand.immediates = i.immediates := by
  have hall : ∀ operands : List Operand,
      (operands.filter fun o ↦ !o.isSilent).flatMap Operand.immediates =
        operands.flatMap Operand.immediates := fun operands ↦ by
    induction operands with
    | nil => rfl
    | cons o rest ih =>
      cases ho : o.isSilent with
      | true => simp [ho, ih, Operand.immediates_of_isSilent ho]
      | false => simp [ho, ih]
  obtain ⟨opcode, lhs, rhs, length, cycles, cyclesNotTaken⟩ := i
  rw [printedOperands, hall, List.flatMap_append, immediates]
  cases lhs <;> cases rhs <;> simp [Operand.immediates?]

/-- The bytes of an opcode with the operands that are printed. -/
def assembled (op : Opcode) (operands : List Operand) : List UInt8 :=
  let opcode := op.byte (operands.map Operand.blank)
  if op.isPrefixed then [prefixByte, opcode] else opcode :: operands.flatMap Operand.immediates

theorem byte_template {opcode : UInt8} {i : Instruction} (h : template opcode = some i) :
    i.opcode.byte i.printedOperands = opcode := by
  apply forall_template h
  decide +kernel

theorem byte_prefixedTemplate {opcode : UInt8} {i : Instruction}
    (h : prefixedTemplate opcode = some i) : i.opcode.byte i.printedOperands = opcode := by
  apply forall_template h
  decide +kernel

/-- **The bytes of an instruction are told from its opcode and what is printed of its operands.** -/
theorem Encoded.eq_assembled {bytes : List UInt8} {i : Instruction} (h : Encoded bytes i) :
    bytes = assembled i.opcode i.printedOperands := by
  rw [assembled, ← printedOperands_blank, flatMap_immediates_printedOperands, ← isPrefixed]
  cases h with
  | prefixed ht =>
    obtain ⟨hblank, -, -, hp⟩ := of_prefixedTemplate ht
    rw [if_pos hp, hblank, byte_prefixedTemplate ht]
  | @plain opcode _ _ ht =>
    have hp : i.isPrefixed = false := (of_template ht).2.2.2
    have hbyte : i.opcode.byte i.blank.printedOperands = opcode := byte_template ht
    rw [hp, if_neg Bool.false_ne_true, hbyte]

end Instruction

end DotMatrix
