import DotMatrix.Processor.Registers

/-!
# Arithmetic and logic

The operations of the arithmetic unit.  Each takes the register file, publishes its flags there and
hands its result back; storing the result is up to the caller.

The half carry is the carry out of bit 3 for bytes and out of bit 11 for words; for the stack
pointer both carries come from the unsigned addition of the low bytes.
-/

set_option autoImplicit false

namespace DotMatrix.Registers

/-! ## Addition and subtraction -/

/-- The accumulator plus a byte plus a carry. -/
def addWithCarry (r : Registers) (x : UInt8) (carry : Bool) : UInt8 × Registers :=
  let result := r.a + x + (if carry then 1 else 0)
  (result, { r with
    f := ⟨result = 0, false, r.a.toNat % 16 + x.toNat % 16 + carry.toNat > 0x0f,
      r.a.toNat + x.toNat + carry.toNat > 0xff⟩ })

/-- The accumulator plus a byte. -/
def add (r : Registers) (x : UInt8) : UInt8 × Registers := r.addWithCarry x false

/-- The accumulator plus a byte plus the carry flag. -/
def adc (r : Registers) (x : UInt8) : UInt8 × Registers := r.addWithCarry x r.f.carry

/-- The accumulator less a byte less a borrow. -/
def subWithBorrow (r : Registers) (x : UInt8) (borrow : Bool) : UInt8 × Registers :=
  let result := r.a - x - (if borrow then 1 else 0)
  (result, { r with
    f := ⟨result = 0, true, r.a.toNat % 16 < x.toNat % 16 + borrow.toNat,
      r.a.toNat < x.toNat + borrow.toNat⟩ })

/-- The accumulator less a byte. -/
def sub (r : Registers) (x : UInt8) : UInt8 × Registers := r.subWithBorrow x false

/-- The accumulator less a byte less the carry flag. -/
def sbc (r : Registers) (x : UInt8) : UInt8 × Registers := r.subWithBorrow x r.f.carry

/-- Compare the accumulator with a byte: the flags of a subtraction, and no result. -/
def cp (r : Registers) (x : UInt8) : Registers := (r.sub x).2

/-- A byte plus one; the carry is kept. -/
def inc (r : Registers) (x : UInt8) : UInt8 × Registers :=
  let result := x + 1
  (result, { r with f := ⟨result = 0, false, x &&& 0x0f = 0x0f, r.f.carry⟩ })

/-- A byte less one; the carry is kept. -/
def dec (r : Registers) (x : UInt8) : UInt8 × Registers :=
  let result := x - 1
  (result, { r with f := ⟨result = 0, true, x &&& 0x0f = 0, r.f.carry⟩ })

/-- `hl` plus a word; the zero flag is kept. -/
def addHl (r : Registers) (x : UInt16) : UInt16 × Registers :=
  let hl := r.pair .hl
  (hl + x, { r with
    f := ⟨r.f.zero, false, hl.toNat % 0x1000 + x.toNat % 0x1000 > 0x0fff,
      hl.toNat + x.toNat > 0xffff⟩ })

/-- The stack pointer plus a signed byte. -/
def addSp (r : Registers) (x : UInt8) : UInt16 × Registers :=
  (r.sp + extendSign x, { r with
    f := ⟨false, false, r.sp.toNat % 0x10 + x.toNat % 0x10 > 0x0f,
      r.sp.toNat % 0x100 + x.toNat > 0xff⟩ })

/-- The accumulator as packed decimal, corrected after an addition or a subtraction. -/
def daa (r : Registers) : UInt8 × Registers :=
  let high := r.f.carry || (!r.f.subtract && r.a > 0x99)
  let a :=
    if !high then r.a else if r.f.subtract then r.a - 0x60 else r.a + 0x60
  let low := r.f.halfCarry || (!r.f.subtract && a &&& 0x0f > 0x09)
  let result :=
    if !low then a else if r.f.subtract then a - 0x06 else a + 0x06
  (result, { r with f := ⟨result = 0, r.f.subtract, false, high⟩ })

/-! ## Logic -/

/-- The bits that the accumulator and a byte share. -/
def and (r : Registers) (x : UInt8) : UInt8 × Registers :=
  let result := r.a &&& x
  (result, { r with f := ⟨result = 0, false, true, false⟩ })

/-- The bits of the accumulator or a byte. -/
def or (r : Registers) (x : UInt8) : UInt8 × Registers :=
  let result := r.a ||| x
  (result, { r with f := ⟨result = 0, false, false, false⟩ })

/-- The bits in which the accumulator and a byte differ. -/
def xor (r : Registers) (x : UInt8) : UInt8 × Registers :=
  let result := r.a ^^^ x
  (result, { r with f := ⟨result = 0, false, false, false⟩ })

/-- The complement of the accumulator. -/
def cpl (r : Registers) : UInt8 × Registers :=
  (~~~r.a, { r with f := { r.f with subtract := true, halfCarry := true } })

/-- Set the carry flag. -/
def scf (r : Registers) : Registers :=
  { r with f := ⟨r.f.zero, false, false, true⟩ }

/-- Flip the carry flag. -/
def ccf (r : Registers) : Registers :=
  { r with f := ⟨r.f.zero, false, false, !r.f.carry⟩ }

/-! ## Rotations and shifts -/

/-- The result of a shift, with the bit that was shifted out as the carry. -/
def shifted (r : Registers) (result : UInt8) (carry : Bool) : UInt8 × Registers :=
  (result, { r with f := ⟨result = 0, false, false, carry⟩ })

/-- Rotate a byte left. -/
def rlc (r : Registers) (x : UInt8) : UInt8 × Registers :=
  r.shifted (x <<< 1 ||| x >>> 7) (x &&& 0x80 ≠ 0)

/-- Rotate a byte right. -/
def rrc (r : Registers) (x : UInt8) : UInt8 × Registers :=
  r.shifted (x >>> 1 ||| x <<< 7) (x &&& 0x01 ≠ 0)

/-- Rotate a byte left through the carry. -/
def rl (r : Registers) (x : UInt8) : UInt8 × Registers :=
  r.shifted (x <<< 1 ||| (if r.f.carry then 0x01 else 0)) (x &&& 0x80 ≠ 0)

/-- Rotate a byte right through the carry. -/
def rr (r : Registers) (x : UInt8) : UInt8 × Registers :=
  r.shifted (x >>> 1 ||| (if r.f.carry then 0x80 else 0)) (x &&& 0x01 ≠ 0)

/-- Shift a byte left. -/
def sla (r : Registers) (x : UInt8) : UInt8 × Registers :=
  r.shifted (x <<< 1) (x &&& 0x80 ≠ 0)

/-- Shift a byte right, keeping its sign. -/
def sra (r : Registers) (x : UInt8) : UInt8 × Registers :=
  r.shifted (x >>> 1 ||| x &&& 0x80) (x &&& 0x01 ≠ 0)

/-- Shift a byte right. -/
def srl (r : Registers) (x : UInt8) : UInt8 × Registers :=
  r.shifted (x >>> 1) (x &&& 0x01 ≠ 0)

/-- Exchange the halves of a byte. -/
def swap (r : Registers) (x : UInt8) : UInt8 × Registers :=
  r.shifted (x <<< 4 ||| x >>> 4) false

/-- Test a bit of a byte; the carry is kept. -/
def bit (r : Registers) (index x : UInt8) : Registers :=
  { r with f := ⟨x &&& 1 <<< index = 0, false, true, r.f.carry⟩ }

/-- A byte with one bit cleared. -/
def clearBit (index x : UInt8) : UInt8 := x &&& ~~~(1 <<< index)

/-- A byte with one bit set. -/
def setBit (index x : UInt8) : UInt8 := x ||| 1 <<< index

end DotMatrix.Registers
