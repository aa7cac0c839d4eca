import DotMatrix.Archive.RangeCode

/-!
# Literals and repetitions in a range code

Every bit of a literal, of a length and of a distance is written in a range code.  Its kind tells
where in its number it stands, what was unpacked last and where.

* `Lzma.unpackNext` unpacks a literal or a repetition.
* `Lzma.unpackUpTo` unpacks a known number of bytes, and `Lzma.unpackAlone` bytes behind a header
  that says how they are written.
-/

set_option autoImplicit false

namespace DotMatrix.Archive.Lzma

/-- What the kinds of bits depend on, in bits. -/
structure Properties where
  /-- The part of the byte before a literal. -/
  context : Nat
  /-- The part of the position of a literal. -/
  literalPosition : Nat
  /-- The part of the position of anything else. -/
  position : Nat

/-- The properties in a byte. -/
def Properties.ofByte? (byte : Nat) : Option Properties :=
  if byte < 225 then some ⟨byte % 9, byte / 9 % 5, byte / 45⟩ else none

/-- What is remembered of what has been unpacked. -/
structure History where
  /-- What came last.  Literals only, or literals after something else, are told by the numbers
  below 7. -/
  state : Nat := 0
  /-- The distances that were used last, less one. -/
  first : Nat := 0
  second : Nat := 0
  third : Nat := 0
  fourth : Nat := 0

namespace History

/-- After a literal. -/
def afterLiteral (h : History) : History :=
  { h with state := if h.state < 4 then 0 else if h.state < 10 then h.state - 3 else h.state - 6 }

/-- After something else: one state follows literals, another what is none. -/
def after (h : History) (literals others : Nat) : History :=
  { h with state := if h.state < 7 then literals else others }

end History

/-! ## Kinds -/

/-- Where the kinds of some bits start. -/
inductive Place where
  /-- Whether something is no literal. -/
  | isRepetition
  /-- Whether its distance is an earlier one. -/
  | isEarlier
  /-- Whether that is not the last one, the one before, and the one before that. -/
  | isNotFirst | isNotSecond | isNotThird
  /-- Whether more than one byte is repeated. -/
  | isLong
  | slot | farther | aligned
  /-- The lengths of repetitions with a new and with an earlier distance. -/
  | length | earlierLength
  | literal

/-- The number of the first of the kinds. -/
def Place.start : Place → Nat
  | .isRepetition => 0
  | .isEarlier => 192
  | .isNotFirst => 204
  | .isNotSecond => 216
  | .isNotThird => 228
  | .isLong => 240
  | .slot => 432
  | .farther => 688
  | .aligned => 816
  | .length => 832
  | .earlierLength => 1346
  | .literal => 1860

/-- The number of kinds. -/
def Properties.kinds (p : Properties) : Nat :=
  Place.literal.start + 768 <<< (p.context + p.literalPosition)

open RangeDecoder

/-! ## Numbers -/

/-- Read the bits of a literal that would be the byte at the last distance if all of them were as
they are there.  The first bit that is not leaves the others to kinds of their own.  `known` is what
has been read, behind a set bit. -/
def takeMatched (kinds expected : Nat) : Nat → Nat → RangeDecoder Nat
  | 0, known => return known
  | count + 1, known => do
    let guess := expected >>> count % 2
    let bit ← takeCoded (kinds + 256 * (1 + guess) + known)
    let known := 2 * known + bit
    if bit = guess then takeMatched kinds expected count known
    else takeTree kinds count known

/-- Read a length, less two.  There are three ranges, the lower ones with kinds of bits for each
part of the position. -/
def takeLength (kinds part : Nat) : RangeDecoder Nat := do
  if (← takeCoded kinds) = 0 then takeNumber (kinds + 2 + 8 * part) 3
  else if (← takeCoded (kinds + 1)) = 0 then return 8 + (← takeNumber (kinds + 130 + 8 * part) 3)
  else return 16 + (← takeNumber (kinds + 258) 8)

/-- Read a new distance, less one, for a length, less two.  Its highest two bits and its size make a
slot; of the others, the last four are coded if there are many. -/
def takeDistance (length : Nat) : RangeDecoder Nat := do
  let slot ← takeNumber (Place.slot.start + 64 * min length 3) 6
  if slot < 4 then return slot
  let count := slot / 2 - 1
  let least := (2 + slot % 2) <<< count
  if slot < 14 then return least + (← takeFlipped (Place.farther.start + least - slot) count 1)
  let high ← takeEven (count - 4) 0
  return least + 16 * high + (← takeFlipped Place.aligned.start 4 1)

/-! ## Steps -/

/-- Unpack a literal. -/
def unpackLiteral (p : Properties) (origin : Nat) (h : History) : RangeDecoder History := do
  let unpacked := (← getThe Unpacking).unpacked
  let position := unpacked.size - origin
  let before := if position = 0 then 0 else (Unpacker.byteBefore unpacked 1).toNat
  let part := (position % 1 <<< p.literalPosition) <<< p.context + before >>> (8 - p.context)
  let kinds := Place.literal.start + 768 * part
  let literal ←
    if h.state < 7 then takeTree kinds 8 1
    else
      let distance := h.first + 1
      if position < distance then throw (.tooFar distance position)
      takeMatched kinds (Unpacker.byteBefore unpacked distance).toNat 8 1
  Unpacker.append (UInt8.ofNat literal)
  return h.afterLiteral

/-- Find out which earlier distance is used again, and put it in front. -/
def takeEarlier (h : History) : RangeDecoder History := do
  if (← takeCoded (Place.isNotSecond.start + h.state)) = 0 then
    return ⟨h.state, h.second, h.first, h.third, h.fourth⟩
  else if (← takeCoded (Place.isNotThird.start + h.state)) = 0 then
    return ⟨h.state, h.third, h.first, h.second, h.fourth⟩
  else return ⟨h.state, h.fourth, h.first, h.second, h.third⟩

/-- The distance, less one, that stands for the end. -/
def endDistance : Nat := 0xffffffff

/-- Unpack a repetition.  Yields nothing at the end. -/
def unpackRepetition (origin part : Nat) (h : History) : RangeDecoder (Option History) := do
  if (← takeCoded (Place.isEarlier.start + h.state)) = 0 then
    let length ← takeLength Place.length.start part
    let distance ← takeDistance length
    if distance = endDistance then return none
    Unpacker.repeatKnown origin (distance + 1) (length + 2)
    return some ⟨(h.after 7 10).state, distance, h.first, h.second, h.third⟩
  else
    let isFirst := (← takeCoded (Place.isNotFirst.start + h.state)) = 0
    if isFirst then
      if (← takeCoded (Place.isLong.start + 16 * h.state + part)) = 0 then
        Unpacker.repeatKnown origin (h.first + 1) 1
        return some (h.after 9 11)
    let h ← if isFirst then pure h else takeEarlier h
    let length ← takeLength Place.earlierLength.start part
    Unpacker.repeatKnown origin (h.first + 1) (length + 2)
    return some (h.after 8 11)

/-- Unpack a literal or a repetition.  Yields nothing at the end.  Positions count from `origin`,
and nothing before it is repeated. -/
def unpackNext (p : Properties) (origin : Nat) (h : History) : RangeDecoder (Option History) := do
  let part := ((← getThe Unpacking).unpacked.size - origin) % 1 <<< p.position
  if (← takeCoded (Place.isRepetition.start + 16 * h.state + part)) = 0 then
    some <$> unpackLiteral p origin h
  else unpackRepetition origin part h

/-! ## Runs -/

/-- Unpack until there are `total` bytes, in at most `steps` steps.  Yields nothing if the end is
met. -/
def unpackUpTo (p : Properties) (origin total : Nat) :
    Nat → History → RangeDecoder (Option History)
  | 0, _ => throw .corrupt
  | steps + 1, h => do
    if total ≤ (← getThe Unpacking).unpacked.size then return some h
    match ← unpackNext p origin h with
    | none => return none
    | some h => unpackUpTo p origin total steps h

/-- A number of steps that is never taken for some packed bytes.  A step reads a coded bit, and even
the most likely bit leaves less than 2047 of 2048 parts of a range. -/
def mostSteps (packed : ByteArray) : Nat := 16384 * (packed.size + 8)

/-- The least size of a dictionary. -/
def leastDictionary : Nat := 4096

/-- Unpack bytes behind the properties and the size of a dictionary.  The number of bytes comes
first. -/
def unpackBehind (p : Properties) : Unpacker Unit := do
  let total ← Unpacker.takeNumber .lowFirst 64
  let steps := mostSteps (← get).packed
  let decoder : RangeDecoder Unit := do
    start
    let _ ← unpackUpTo p 0 total steps {}
  decoder.run' (.fresh p.kinds)

/-- Unpack bytes behind a header, as long as there are any.  They are handed on a dictionary at a
time; those that do not fill one are not. -/
def unpackAlone : Unpacker Unit := Unpacker.upToEnd do
  match Properties.ofByte? (← Unpacker.takeNumber .lowFirst 8) with
  | none => throw .corrupt
  | some p =>
    let dictionary := max leastDictionary (← Unpacker.takeNumber .lowFirst 32)
    Unpacker.upToEnd (unpackBehind p)
    modify fun s ↦
      { s with unpacked := s.unpacked.extract 0 (s.unpacked.size / dictionary * dictionary) }

end DotMatrix.Archive.Lzma
