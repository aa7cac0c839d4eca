import DotMatrix.Archive.Unpacking

/-!
# Range codes

A range code writes bits of different chances as the place of a number in a range: each bit takes a
part of the range that is as large as its chance.  The chances are learned on the way, one for each
kind of bit.

* `RangeDecoder α` is the monad of what reads bits in a range code.
* `takeCoded` reads a bit of some kind, and `takeEven` bits whose chances are even.
* `takeTree` and `takeFlipped` read numbers whose bits are all of different kinds.
-/

set_option autoImplicit false

namespace DotMatrix.Archive

/-- The state of reading a range code. -/
structure RangeCode where
  /-- How large the range is. -/
  range : Nat
  /-- Where in the range the number is. -/
  place : Nat
  /-- The chances of the kinds of bits to be 0, in parts of 2048. -/
  chances : Array Nat

/-- The chance that a bit has at first. -/
def evenChance : Nat := 1024

/-- Even chances for `kinds` kinds of bits, before anything has been read. -/
def RangeCode.fresh (kinds : Nat) : RangeCode := ⟨0, 0, Array.replicate kinds evenChance⟩

/-- An operation that reads a range code. -/
abbrev RangeDecoder := StateT RangeCode Unpacker

namespace RangeDecoder

/-- The chance of a kind after a bit: a part of the way to that bit. -/
def learn (chance bit : Nat) : Nat :=
  if bit = 0 then chance + (2048 - chance) / 32 else chance - chance / 32

/-- Read where the number is at first. -/
def start : RangeDecoder Unit := do
  let _ ← Unpacker.takeBytes 1
  let place ← Unpacker.takeNumber .highFirst 32
  modify fun c ↦ { c with range := 0xffffffff, place }

/-- Read a byte when the range has become small. -/
def widen : RangeDecoder Unit := do
  if (← get).range < 0x1000000 then
    let byte ← Unpacker.takeNumber .highFirst 8
    modify fun c ↦ { c with range := 256 * c.range, place := 256 * c.place + byte }

/-- Take the lower part of the range for 0 or the upper for 1, whichever the number is in. -/
def narrow (part : Nat) (c : RangeCode) : Nat × RangeCode :=
  if c.place < part then (0, { c with range := part })
  else (1, { c with range := c.range - part, place := c.place - part })

/-- Read a bit of some kind. -/
def takeCoded (kind : Nat) : RangeDecoder Nat := do
  let chance := (← get).chances[kind]?.getD evenChance
  let bit ← modifyGet fun c ↦ narrow (c.range / 2048 * chance) c
  modify fun c ↦ { c with chances := c.chances.setIfInBounds kind (learn chance bit) }
  widen
  return bit

/-- Read `count` bits of even chances as a number, behind those that have been read. -/
def takeEven : Nat → Nat → RangeDecoder Nat
  | 0, known => return known
  | count + 1, known => do
    let bit ← modifyGet fun c ↦ narrow (c.range / 2) { c with range := c.range / 2 * 2 }
    widen
    takeEven count (2 * known + bit)

/-- Read `count` bits, the highest first; each is of the kind that those before it tell, together
with a first one that is set.  Yields them with that. -/
def takeTree (kinds : Nat) : Nat → Nat → RangeDecoder Nat
  | 0, known => return known
  | count + 1, known => do
    let bit ← takeCoded (kinds + known)
    takeTree kinds count (2 * known + bit)

/-- Read a number of `count` bits, the highest first. -/
def takeNumber (kinds count : Nat) : RangeDecoder Nat := do
  return (← takeTree kinds count 1) - 1 <<< count

/-- Read a number of `count` bits, the lowest first. -/
def takeFlipped (kinds : Nat) : Nat → Nat → RangeDecoder Nat
  | 0, _ => return 0
  | count + 1, known => do
    let low ← takeCoded (kinds + known)
    return low + 2 * (← takeFlipped kinds count (2 * known + low))

theorem learn_pos {chance bit : Nat} (h : 0 < chance) : 0 < learn chance bit := by
  unfold learn
  split <;> omega

theorem learn_lt {chance bit : Nat} (h : chance < 2048) : learn chance bit < 2048 := by
  unfold learn
  split <;> omega

end RangeDecoder

end DotMatrix.Archive
