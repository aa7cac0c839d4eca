import DotMatrix.Fault

/-!
# Decoding

An opcode byte falls into three fields: the top two bits choose a quarter of the instruction set,
and the two groups of three bits below them choose within it, often a register or a pair with a
flag.  `Instruction.template` and `Instruction.prefixedTemplate` read the fields of a plain byte and
of one behind the prefix byte; immediates are left at zero there and filled in by
`Instruction.decode`, which takes its bytes from any reader.
-/

set_option autoImplicit false

namespace DotMatrix

/-! ## Fields -/

/-- The 8-bit register of a three-bit field; 6 stands for the byte at `hl`. -/
def Reg8.ofField? : UInt8 → Option Reg8
  | 0 => some .b
  | 1 => some .c
  | 2 => some .d
  | 3 => some .e
  | 4 => some .h
  | 5 => some .l
  | 7 => some .a
  | _ => none

/-- The register pair of a two-bit field. -/
def Reg16.ofField : UInt8 → Reg16
  | 0 => .bc
  | 1 => .de
  | 2 => .hl
  | _ => .sp

/-- The register pair of a two-bit field in stack instructions. -/
def Reg16.ofStackField : UInt8 → Reg16
  | 0 => .bc
  | 1 => .de
  | 2 => .hl
  | _ => .af

/-- The condition of a two-bit field. -/
def Condition.ofField : UInt8 → Condition
  | 0 => .nonZero
  | 1 => .zero
  | 2 => .noCarry
  | _ => .carry

namespace Operand

/-- An 8-bit register. -/
def register (r : Reg8) : Operand := .reg8 r .immediate

/-- A register pair. -/
def pair (r : Reg16) : Operand := .reg16 r .immediate

/-- The byte at `hl`. -/
def atHl : Operand := .reg16 .hl .pointer

/-- The byte operand of a three-bit field. -/
def ofField (field : UInt8) : Operand :=
  match Reg8.ofField? field with
  | some r => register r
  | none => atHl

/-- The pointer of a two-bit field; `hl` comes in two kinds, stepped up and stepped down. -/
def pointerOfField : UInt8 → Operand
  | 0 => .reg16 .bc .pointer
  | 1 => .reg16 .de .pointer
  | 2 => .reg16 .hl .pointerUp
  | _ => .reg16 .hl .pointerDown

/-- An immediate byte, not yet read. -/
def byte : Operand := .imm8 0 .immediate

/-- An immediate word, not yet read. -/
def word : Operand := .imm16 0 .immediate

/-- The byte at an immediate word, not yet read. -/
def atWord : Operand := .imm16 0 .pointer

/-- The byte at an immediate offset into the registers, not yet read. -/
def atByte : Operand := .imm8 0 .pointer

end Operand

namespace Instruction

/-! ## Shapes -/

/-- An instruction without operands. -/
def bare (opcode : Opcode) (cycles : Nat) : Instruction := ⟨opcode, none, none, 1, cycles, none⟩

/-- An instruction with one operand. -/
def unary (opcode : Opcode) (operand : Operand) (length : UInt16) (cycles : Nat) : Instruction :=
  ⟨opcode, some operand, none, length, cycles, none⟩

/-- An instruction with two operands. -/
def binary (opcode : Opcode) (lhs rhs : Operand) (length : UInt16) (cycles : Nat) : Instruction :=
  ⟨opcode, some lhs, some rhs, length, cycles, none⟩

/-- A transfer that is taken only under a condition. -/
def conditional (opcode : Opcode) (condition : Condition) (target : Option Operand)
    (length : UInt16) (taken notTaken : Nat) : Instruction :=
  ⟨opcode, some (.condition condition), target, length, taken, some notTaken⟩

/-- A transfer that is always taken. -/
def unconditional (opcode : Opcode) (target : Option Operand) (length : UInt16) (cycles : Nat) :
    Instruction :=
  ⟨opcode, some (.condition .always), target, length, cycles, none⟩

/-- One duration for registers and another for the byte at `hl`. -/
def byField (field : UInt8) (registerCycles memoryCycles : Nat) : Nat :=
  if field = 6 then memoryCycles else registerCycles

/-! ## Plain opcodes

In each quarter `y` is the upper three-bit field and `z` the lower one; `y / 2` is a two-bit field
and `y % 2` a flag. -/

/-- The accumulator operation of a three-bit field. -/
def accumulatorOpcode : UInt8 → Opcode
  | 0 => .add
  | 1 => .adc
  | 2 => .sub
  | 3 => .sbc
  | 4 => .and
  | 5 => .xor
  | 6 => .or
  | _ => .cp

/-- The operation on the accumulator and flags of a three-bit field. -/
def flagOpcode : UInt8 → Opcode
  | 0 => .rlca
  | 1 => .rrca
  | 2 => .rla
  | 3 => .rra
  | 4 => .daa
  | 5 => .cpl
  | 6 => .scf
  | _ => .ccf

/-- The first quarter's relative jumps and the odd instructions among them. -/
def relativeQuarter : UInt8 → Instruction
  | 0 => bare .nop 4
  | 1 => binary .ld .atWord (.pair .sp) 3 20
  | 2 => unary .stop .byte 2 4
  | 3 => unconditional .jr (some (.offset 0)) 2 12
  | y => conditional .jr (.ofField (y - 4)) (some (.offset 0)) 2 12 8

/-- The first quarter: pairs, increments, immediates and relative jumps. -/
def firstQuarter (y z : UInt8) : Instruction :=
  match z with
  | 0 => relativeQuarter y
  | 1 =>
    if y % 2 = 0 then binary .ld (.pair (.ofField (y / 2))) .word 3 12
    else binary .add (.pair .hl) (.pair (.ofField (y / 2))) 1 8
  | 2 =>
    if y % 2 = 0 then binary .ld (.pointerOfField (y / 2)) (.register .a) 1 8
    else binary .ld (.register .a) (.pointerOfField (y / 2)) 1 8
  | 3 => unary (if y % 2 = 0 then .inc else .dec) (.pair (.ofField (y / 2))) 1 8
  | 4 => unary .inc (.ofField y) 1 (byField y 4 12)
  | 5 => unary .dec (.ofField y) 1 (byField y 4 12)
  | 6 => binary .ld (.ofField y) .byte 2 (byField y 8 12)
  | _ => bare (flagOpcode y) 4

/-- The second quarter: moves between registers and the byte at `hl`. -/
def secondQuarter (y z : UInt8) : Instruction :=
  if y = 6 ∧ z = 6 then bare .halt 4
  else binary .ld (.ofField y) (.ofField z) 1 (max (byField y 4 8) (byField z 4 8))

/-- The third quarter: accumulator operations. -/
def thirdQuarter (y z : UInt8) : Instruction :=
  binary (accumulatorOpcode y) (.register .a) (.ofField z) 1 (byField z 4 8)

/-- The last quarter's returns, and the instructions that share their column. -/
def returnColumn : UInt8 → Instruction
  | 4 => binary .ldh .atByte (.register .a) 2 12
  | 5 => binary .add (.pair .sp) (.offset 0) 2 16
  | 6 => binary .ldh (.register .a) .atByte 2 12
  | 7 => binary .ld (.pair .hl) (.displaced .sp 0 .immediate) 2 12
  | y => conditional .ret (.ofField y) none 1 20 8

/-- The last quarter's pops, and the instructions that share their column. -/
def popColumn : UInt8 → Instruction
  | 1 => unconditional .ret none 1 16
  | 3 => unconditional .reti none 1 16
  | 5 => unconditional .jp (some (.pair .hl)) 1 4
  | 7 => binary .ld (.pair .sp) (.pair .hl) 1 8
  | y => unary .pop (.pair (.ofStackField (y / 2))) 1 12

/-- The last quarter's jumps, and the instructions that share their column. -/
def jumpColumn : UInt8 → Instruction
  | 4 => binary .ld (.reg8 .c .pointer) (.register .a) 1 8
  | 5 => binary .ld .atWord (.register .a) 3 16
  | 6 => binary .ld (.register .a) (.reg8 .c .pointer) 1 8
  | 7 => binary .ld (.register .a) .atWord 3 16
  | y => conditional .jp (.ofField y) (some .word) 3 16 12

/-- The last quarter: transfers, the stack and the registers above `0xff00`.  Eleven bytes and the
prefix byte stand for nothing here. -/
def lastQuarter? (y z : UInt8) : Option Instruction :=
  match z with
  | 0 => some (returnColumn y)
  | 1 => some (popColumn y)
  | 2 => some (jumpColumn y)
  | 3 =>
    match y with
    | 0 => some (unconditional .jp (some .word) 3 16)
    | 6 => some (bare .di 4)
    | 7 => some (bare .ei 4)
    | _ => none
  | 4 => if y < 4 then some (conditional .call (.ofField y) (some .word) 3 24 12) else none
  | 5 =>
    if y % 2 = 0 then some (unary .push (.pair (.ofStackField (y / 2))) 1 16)
    else if y = 1 then some (unconditional .call (some .word) 3 24)
    else none
  | 6 => some (binary (accumulatorOpcode y) (.register .a) .byte 2 8)
  | _ => some (unary .rst (.vector (y * 8)) 1 16)

/-- The instruction of a plain opcode byte, its immediate left at zero. -/
def template (opcode : UInt8) : Option Instruction :=
  let y := opcode / 8 % 8
  let z := opcode % 8
  match opcode / 64 with
  | 0 => some (firstQuarter y z)
  | 1 => some (secondQuarter y z)
  | 2 => some (thirdQuarter y z)
  | _ => lastQuarter? y z

/-! ## Opcodes behind the prefix byte -/

/-- The byte that announces a prefixed opcode. -/
def prefixByte : UInt8 := 0xcb

/-- The shift of a three-bit field. -/
def shiftOpcode : UInt8 → Opcode
  | 0 => .rlc
  | 1 => .rrc
  | 2 => .rl
  | 3 => .rr
  | 4 => .sla
  | 5 => .sra
  | 6 => .swap
  | _ => .srl

/-- The instruction of an opcode byte behind the prefix byte.  Its duration leaves out the time
taken to fetch the prefix. -/
def prefixedTemplate (opcode : UInt8) : Option Instruction :=
  let y := opcode / 8 % 8
  let z := opcode % 8
  match opcode / 64 with
  | 0 => some (unary (shiftOpcode y) (.ofField z) 2 (byField z 4 12))
  | 1 => some (binary .bit (.bit y) (.ofField z) 2 (byField z 4 8))
  | 2 => some (binary .res (.bit y) (.ofField z) 2 (byField z 4 12))
  | 3 => some (binary .set (.bit y) (.ofField z) 2 (byField z 4 12))
  | _ => none

/-! ## Decoding -/

/-- The instructions of all plain opcode bytes. -/
def templates : Vector (Option Instruction) 256 := Vector.ofFn fun i ↦ template (UInt8.ofNat i.val)

/-- The instructions of all opcode bytes behind the prefix byte. -/
def prefixedTemplates : Vector (Option Instruction) 256 :=
  Vector.ofFn fun i ↦ prefixedTemplate (UInt8.ofNat i.val)

/-- The entry of a table that has one for every byte. -/
@[inline]
def entry {α : Type} (table : Vector α 256) (byte : UInt8) : α :=
  have h : byte.toNat < 256 := byte.toNat_lt
  table[byte.toNat]

theorem entry_ofFn {α : Type} (f : UInt8 → α) (byte : UInt8) :
    entry (Vector.ofFn fun i ↦ f (UInt8.ofNat i.val)) byte = f byte := by
  simp only [entry, Vector.getElem_ofFn, UInt8.ofNat_toNat]

@[simp]
theorem entry_templates (opcode : UInt8) : entry templates opcode = template opcode :=
  entry_ofFn template opcode

@[simp]
theorem entry_prefixedTemplates (opcode : UInt8) :
    entry prefixedTemplates opcode = prefixedTemplate opcode :=
  entry_ofFn prefixedTemplate opcode

variable {m : Type → Type} [Monad m]

/-- An operand with its immediate, if it has one, read from `addr` on. -/
@[specialize]
def fillOperand (read : UInt16 → m UInt8) (addr : UInt16) : Operand → m Operand
  | .imm8 _ mode => do return .imm8 (← read addr) mode
  | .imm16 _ mode => do
    let low ← read addr
    let high ← read (addr + 1)
    return .imm16 (wordOfBytes high low) mode
  | .offset _ => do return .offset (← read addr)
  | .displaced r _ mode => do return .displaced r (← read addr) mode
  | operand => return operand

/-- An operand that may be missing, with its immediate. -/
@[specialize]
def fillOperand? (read : UInt16 → m UInt8) (addr : UInt16) : Option Operand → m (Option Operand)
  | none => return none
  | some operand => do return some (← fillOperand read addr operand)

/-- The instruction at an address. -/
@[specialize]
def decode (read : UInt16 → m UInt8) (fail : Fault → m Instruction) (pc : UInt16) :
    m Instruction := do
  let opcode ← read pc
  if opcode = prefixByte then
    let opcode ← read (pc + 1)
    match entry prefixedTemplates opcode with
    | none => fail (.undefinedOpcode opcode pc true)
    | some i => return i
  else
    match entry templates opcode with
    | none => fail (.undefinedOpcode opcode pc false)
    | some i =>
      let lhs ← fillOperand? read (pc + 1) i.lhs
      let rhs ← fillOperand? read (pc + 1) i.rhs
      return { i with lhs := lhs, rhs := rhs }

end Instruction

end DotMatrix
