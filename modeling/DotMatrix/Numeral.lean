import DotMatrix.Word

/-!
# Numerals

The fixed-width numerals that disassembly, error messages and log records are made of: a byte is
two lowercase hexadecimal digits, a word four, and a byte in binary eight.  A signed byte is
written in decimal with its sign always shown.
-/

set_option autoImplicit false

namespace DotMatrix

/-- The lowercase digit of a value below 16. -/
def hexDigit (n : UInt8) : Char :=
  Char.ofNat (if n < 10 then 48 + n.toNat else 87 + n.toNat)

/-- A byte as two hexadecimal digits. -/
def hexByte (b : UInt8) : String :=
  String.ofList [hexDigit (b >>> 4), hexDigit (b &&& 0x0f)]

/-- A word as four hexadecimal digits. -/
def hexWord (w : UInt16) : String :=
  hexByte (highByte w) ++ hexByte (lowByte w)

/-- A byte as eight binary digits, highest bit first. -/
def binaryByte (b : UInt8) : String :=
  String.ofList ([7, 6, 5, 4, 3, 2, 1, 0].map fun i ↦ if b >>> i &&& 1 = 0 then '0' else '1')

/-- A signed byte in decimal, with a sign even when it is not negative. -/
def signedByte (b : UInt8) : String :=
  if signedValue b < 0 then s!"-{(signedValue b).natAbs}" else s!"+{(signedValue b).natAbs}"

end DotMatrix
