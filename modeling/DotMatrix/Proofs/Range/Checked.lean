import Mathlib.Algebra.GroupWithZero.Nat
import DotMatrix.Processor.Alu

/-!
# Arithmetic that has to stay in range

A checked operation comes out with nothing when its result does not fit into the width it is made
in, or when an array has no such place.  Bytes and words are as wide as their types; an index has 64
bits, and the differences of bytes are taken in 16 bits with a sign.

A lemma for each operation says when it comes out, and that it is the plain operation then.
-/

set_option autoImplicit false

namespace DotMatrix.Checked

/-! ## Bytes -/

/-- The sum of two bytes, if it is a byte. -/
def addByte (x y : UInt8) : Option UInt8 := if x.toNat + y.toNat < 2 ^ 8 then some (x + y) else none

/-- The difference of two bytes, if it is not negative. -/
def subByte (x y : UInt8) : Option UInt8 := if y ≤ x then some (x - y) else none

/-- The product of two bytes, if it is a byte. -/
def mulByte (x y : UInt8) : Option UInt8 := if x.toNat * y.toNat < 2 ^ 8 then some (x * y) else none

/-- A byte shifted left, by fewer bits than it has. -/
def shiftLeft (x distance : UInt8) : Option UInt8 :=
  if distance < 8 then some (x <<< distance) else none

/-- A byte shifted right, by fewer bits than it has. -/
def shiftRight (x distance : UInt8) : Option UInt8 :=
  if distance < 8 then some (x >>> distance) else none

/-! ## Words -/

/-- The sum of two words, if it is a word. -/
def addWord (x y : UInt16) : Option UInt16 :=
  if x.toNat + y.toNat < 2 ^ 16 then some (x + y) else none

/-- The difference of two words, if it is not negative. -/
def subWord (x y : UInt16) : Option UInt16 := if y ≤ x then some (x - y) else none

/-- The product of two words, if it is a word. -/
def mulWord (x y : UInt16) : Option UInt16 :=
  if x.toNat * y.toNat < 2 ^ 16 then some (x * y) else none

/-- The difference of two numbers, if it is a word with a sign. -/
def subSigned (x y : Int) : Option Int :=
  if -0x8000 ≤ x - y ∧ x - y < 0x8000 then some (x - y) else none

/-! ## Indices -/

/-- The sum of two indices, if it is one. -/
def addIndex (x y : Nat) : Option Nat := if x + y < 2 ^ 64 then some (x + y) else none

/-- The difference of two indices, if it is not negative. -/
def subIndex (x y : Nat) : Option Nat := if y ≤ x then some (x - y) else none

/-- The product of two indices, if it is one. -/
def mulIndex (x y : Nat) : Option Nat := if x * y < 2 ^ 64 then some (x * y) else none

/-- The remainder of an index, if there is something to divide by. -/
def modIndex (x y : Nat) : Option Nat := if y ≠ 0 then some (x % y) else none

/-- A place in an array of `size` entries, if it has one there. -/
def entry (size i : Nat) : Option (Fin size) := if h : i < size then some ⟨i, h⟩ else none

/-! ## When they come out -/

section

variable {x y : UInt8}

theorem addByte_of_lt (h : x.toNat + y.toNat < 2 ^ 8) : addByte x y = some (x + y) := if_pos h

theorem subByte_of_le (h : y ≤ x) : subByte x y = some (x - y) := if_pos h

theorem mulByte_of_lt (h : x.toNat * y.toNat < 2 ^ 8) : mulByte x y = some (x * y) := if_pos h

theorem toNat_addByte (h : x.toNat + y.toNat < 2 ^ 8) : (x + y).toNat = x.toNat + y.toNat := by
  rw [UInt8.toNat_add, Nat.mod_eq_of_lt h]

theorem toNat_mulByte (h : x.toNat * y.toNat < 2 ^ 8) : (x * y).toNat = x.toNat * y.toNat := by
  rw [UInt8.toNat_mul, Nat.mod_eq_of_lt h]

theorem shiftLeft_of_lt (h : y < 8) : shiftLeft x y = some (x <<< y) := if_pos h

theorem shiftRight_of_lt (h : y < 8) : shiftRight x y = some (x >>> y) := if_pos h

end

section

variable {x y : UInt16}

theorem addWord_of_lt (h : x.toNat + y.toNat < 2 ^ 16) : addWord x y = some (x + y) := if_pos h

theorem subWord_of_le (h : y ≤ x) : subWord x y = some (x - y) := if_pos h

theorem mulWord_of_lt (h : x.toNat * y.toNat < 2 ^ 16) : mulWord x y = some (x * y) := if_pos h

theorem toNat_addWord (h : x.toNat + y.toNat < 2 ^ 16) :
    (x + y).toNat = x.toNat + y.toNat := by
  rw [UInt16.toNat_add, Nat.mod_eq_of_lt h]

theorem toNat_mulWord (h : x.toNat * y.toNat < 2 ^ 16) :
    (x * y).toNat = x.toNat * y.toNat := by
  rw [UInt16.toNat_mul, Nat.mod_eq_of_lt h]

end

theorem subSigned_of_mem {x y : Int} (h : -0x8000 ≤ x - y ∧ x - y < 0x8000) :
    subSigned x y = some (x - y) := if_pos h

section

variable {x y size i : Nat}

theorem addIndex_of_lt (h : x + y < 2 ^ 64) : addIndex x y = some (x + y) := if_pos h

theorem subIndex_of_le (h : y ≤ x) : subIndex x y = some (x - y) := if_pos h

theorem mulIndex_of_lt (h : x * y < 2 ^ 64) : mulIndex x y = some (x * y) := if_pos h

theorem modIndex_of_ne (h : y ≠ 0) : modIndex x y = some (x % y) := if_pos h

theorem entry_of_lt (h : i < size) : entry size i = some ⟨i, h⟩ := dif_pos h

theorem entry_of_eq {place : Fin size} (h : i = place.val) : entry size i = some place := by
  subst h
  exact entry_of_lt place.isLt

end

end DotMatrix.Checked
