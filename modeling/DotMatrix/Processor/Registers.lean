import DotMatrix.Instruction.Basic
import DotMatrix.Word

/-!
# The register file

Seven 8-bit registers, four flags, a stack pointer and a program counter.  The flags are the upper
half of the byte that is paired with the accumulator; its lower half does not exist and reads as
zero.
-/

set_option autoImplicit false

namespace DotMatrix

/-- The condition flags of the processor. -/
structure Flags where
  zero : Bool := false
  subtract : Bool := false
  halfCarry : Bool := false
  carry : Bool := false
  deriving DecidableEq

namespace Flags

/-- The flags as a byte, in its upper half. -/
def toByte (f : Flags) : UInt8 :=
  (if f.zero then 0x80 else 0) ||| (if f.subtract then 0x40 else 0) |||
    (if f.halfCarry then 0x20 else 0) ||| (if f.carry then 0x10 else 0)

/-- The flags in the upper half of a byte. -/
def ofByte (b : UInt8) : Flags :=
  ⟨b &&& 0x80 ≠ 0, b &&& 0x40 ≠ 0, b &&& 0x20 ≠ 0, b &&& 0x10 ≠ 0⟩

@[simp]
theorem ofByte_toByte (f : Flags) : ofByte f.toByte = f := by
  rcases f with ⟨_ | _, _ | _, _ | _, _ | _⟩ <;> rfl

end Flags

/-- The register file; its defaults are the values the machine starts with. -/
structure Registers where
  a : UInt8 := 0x01
  f : Flags := ⟨true, false, true, true⟩
  b : UInt8 := 0x00
  c : UInt8 := 0x13
  d : UInt8 := 0x00
  e : UInt8 := 0xd8
  h : UInt8 := 0x01
  l : UInt8 := 0x4d
  sp : UInt16 := 0xfffe
  pc : UInt16 := 0x0100
  deriving DecidableEq

namespace Registers

/-- The value of an 8-bit register. -/
def get (r : Registers) : Reg8 → UInt8
  | .a => r.a | .b => r.b | .c => r.c | .d => r.d | .e => r.e | .h => r.h | .l => r.l

/-- The register file after an 8-bit register was set. -/
def set (r : Registers) (register : Reg8) (value : UInt8) : Registers :=
  match register with
  | .a => { r with a := value }
  | .b => { r with b := value }
  | .c => { r with c := value }
  | .d => { r with d := value }
  | .e => { r with e := value }
  | .h => { r with h := value }
  | .l => { r with l := value }

theorem get_set (r : Registers) (x y : Reg8) (value : UInt8) :
    (r.set x value).get y = if y = x then value else r.get y := by
  cases x <;> cases y <;> rfl

/-- The value of a 16-bit register. -/
def pair (r : Registers) : Reg16 → UInt16
  | .af => wordOfBytes r.a r.f.toByte
  | .bc => wordOfBytes r.b r.c
  | .de => wordOfBytes r.d r.e
  | .hl => wordOfBytes r.h r.l
  | .sp => r.sp
  | .pc => r.pc

/-- The register file after a 16-bit register was set. -/
def setPair (r : Registers) (register : Reg16) (value : UInt16) : Registers :=
  match register with
  | .af => { r with a := highByte value, f := .ofByte (lowByte value) }
  | .bc => { r with b := highByte value, c := lowByte value }
  | .de => { r with d := highByte value, e := lowByte value }
  | .hl => { r with h := highByte value, l := lowByte value }
  | .sp => { r with sp := value }
  | .pc => { r with pc := value }

/-- Every 16-bit register holds all of a word, except the one that the flags are half of. -/
theorem pair_setPair (r : Registers) {x : Reg16} (h : x ≠ .af) (value : UInt16) :
    (r.setPair x value).pair x = value := by
  cases x with
  | af => exact absurd rfl h
  | bc | de | hl => exact wordOfBytes_highByte_lowByte value
  | sp | pc => rfl

/-- The register file after a 16-bit register moved up by one, wrapping; no flag changes. -/
def incrementPair (r : Registers) (register : Reg16) : Registers :=
  r.setPair register (r.pair register + 1)

/-- The register file after a 16-bit register moved down by one, wrapping; no flag changes. -/
def decrementPair (r : Registers) (register : Reg16) : Registers :=
  r.setPair register (r.pair register - 1)

/-- Whether the flags satisfy a condition. -/
def satisfies (r : Registers) : Condition → Bool
  | .always => true
  | .zero => r.f.zero
  | .nonZero => !r.f.zero
  | .carry => r.f.carry
  | .noCarry => !r.f.carry

end Registers

end DotMatrix
