/-!
# Archive checksums

The cyclic redundancy check that archives keep of their entries: the remainder of the bytes, read as
a polynomial with the lowest bits first, by the polynomial `0xedb88320`.
-/

set_option autoImplicit false

namespace DotMatrix.Archive

/-- One division step. -/
def divideBit (remainder : UInt32) : UInt32 :=
  if remainder &&& 1 = 0 then remainder >>> 1 else remainder >>> 1 ^^^ 0xedb88320

/-- The remainder of a single byte. -/
def byteRemainder (byte : UInt8) : UInt32 :=
  Nat.repeat divideBit 8 byte.toUInt32

/-- The remainders of all bytes. -/
def remainders : Vector UInt32 256 := Vector.ofFn fun i ↦ byteRemainder (UInt8.ofNat i.val)

/-- The remainder after one more byte. -/
def divideByte (remainder : UInt32) (byte : UInt8) : UInt32 :=
  let lowest := remainder.toUInt8 ^^^ byte
  have h : lowest.toNat < 256 := lowest.toNat_lt
  remainders[lowest.toNat] ^^^ remainder >>> 8

/-- The checksum of some bytes. -/
def checksum (bytes : ByteArray) : UInt32 :=
  bytes.foldl divideByte 0xffffffff ^^^ 0xffffffff

end DotMatrix.Archive
