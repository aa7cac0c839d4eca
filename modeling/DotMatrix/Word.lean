/-!
# Words

A word is two bytes.  Bytes are joined into words and taken out of them here, and a byte can be read
as a signed number.

* `toNat_wordOfBytes` gives the number that a word stands for.
* `highByte_wordOfBytes`, `lowByte_wordOfBytes` and `wordOfBytes_highByte_lowByte` say that joining
  and taking apart undo each other.
-/

set_option autoImplicit false

namespace DotMatrix

/-- The word with the given high and low byte. -/
def wordOfBytes (high low : UInt8) : UInt16 := high.toUInt16 <<< 8 ||| low.toUInt16

/-- The high byte of a word. -/
def highByte (w : UInt16) : UInt8 := (w >>> 8).toUInt8

/-- The low byte of a word. -/
def lowByte (w : UInt16) : UInt8 := w.toUInt8

/-! ## Joining and taking apart -/

theorem toNat_wordOfBytes (high low : UInt8) :
    (wordOfBytes high low).toNat = high.toNat * 256 + low.toNat := by
  have hh := high.toNat_lt
  have hl := low.toNat_lt
  simp only [wordOfBytes, UInt16.toNat_or, UInt16.toNat_shiftLeft, UInt8.toNat_toUInt16]
  rw [show (8 : UInt16).toNat % 16 = 8 from rfl, Nat.mod_eq_of_lt (by
    rw [Nat.shiftLeft_eq]; omega), ← Nat.shiftLeft_add_eq_or_of_lt (by omega), Nat.shiftLeft_eq]

theorem toNat_highByte (w : UInt16) : (highByte w).toNat = w.toNat / 256 := by
  have h := w.toNat_lt
  simp only [highByte, UInt16.toNat_toUInt8, UInt16.toNat_shiftRight]
  rw [show (8 : UInt16).toNat % 16 = 8 from rfl, Nat.shiftRight_eq_div_pow]
  omega

theorem toNat_lowByte (w : UInt16) : (lowByte w).toNat = w.toNat % 256 := by
  simp only [lowByte, UInt16.toNat_toUInt8]

@[simp]
theorem highByte_wordOfBytes (high low : UInt8) : highByte (wordOfBytes high low) = high := by
  rw [← UInt8.toNat_inj, toNat_highByte, toNat_wordOfBytes]
  have hl := low.toNat_lt
  omega

@[simp]
theorem lowByte_wordOfBytes (high low : UInt8) : lowByte (wordOfBytes high low) = low := by
  rw [← UInt8.toNat_inj, toNat_lowByte, toNat_wordOfBytes]
  have hl := low.toNat_lt
  omega

@[simp]
theorem wordOfBytes_highByte_lowByte (w : UInt16) : wordOfBytes (highByte w) (lowByte w) = w := by
  rw [← UInt16.toNat_inj, toNat_wordOfBytes, toNat_highByte, toNat_lowByte]
  omega

/-! ## Signed bytes -/

/-- The two's complement value of a byte. -/
def signedValue (b : UInt8) : Int := b.toInt8.toInt

/-- The word that stands for the same signed number as a byte. -/
def extendSign (b : UInt8) : UInt16 := b.toInt8.toInt16.toUInt16

end DotMatrix
