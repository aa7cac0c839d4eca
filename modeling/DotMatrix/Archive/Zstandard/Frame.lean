import DotMatrix.Archive.Zstandard.Literals
import DotMatrix.Archive.Zstandard.Sequences

/-!
# Frames

A frame is a number of blocks.  The blocks of a frame may use codes and distances of the ones
before; frames stand for themselves.

* `Zstandard.unpackAll` unpacks all frames.
-/

set_option autoImplicit false

namespace DotMatrix.Archive.Zstandard

open Unpacker

/-- What a block passes on to the next. -/
structure Passed where
  literalCode : Option LiteralCode := none
  codes : Option Codes := none
  distances : Distances := {}

/-- Unpack a block that repeats bytes. -/
def unpackCompressed (origin : Nat) (passed : Passed) : Unpacker Passed := do
  let (literals, literalCode) ← takeLiterals passed.literalCode
  let (codes, distances) ← takeSequences origin literals passed.codes passed.distances
  return ⟨literalCode, codes, distances⟩

/-- Unpack a block.  Yields whether it is the last, and what it passes on. -/
def unpackBlock (origin : Nat) (passed : Passed) : Unpacker (Bool × Passed) := do
  let last := (← takeNumber .lowFirst 1) = 1
  let form ← takeNumber .lowFirst 2
  let size ← takeNumber .lowFirst 21
  match form with
  | 0 =>
    appendPacked size
    return (last, passed)
  | 1 =>
    let byte := UInt8.ofNat (← takeNumber .lowFirst 8)
    appendAll ⟨Array.replicate size byte⟩
    return (last, passed)
  | 2 => return (last, ← within (← takeBytes size) (unpackCompressed origin passed))
  | _ => throw .corrupt

/-- Unpack at most `count` blocks, up to the last one, of a frame that starts at `origin`. -/
def unpackBlocks (origin : Nat) : Nat → Passed → Unpacker Unit
  | 0, _ => throw .corrupt
  | count + 1, passed => do
    let (last, passed) ← unpackBlock origin passed
    if last then return
    unpackBlocks origin count passed

/-- Unpack a frame, behind its mark.  The sizes of the frame and of its window are passed over, and
so is its checksum: an archive has its own.  There are no dictionaries. -/
def unpackFrame : Unpacker Unit := do
  let dictionaryForm ← takeNumber .lowFirst 2
  let hasChecksum ← takeBit .lowFirst
  if (← takeBit .lowFirst) = 1 then throw .corrupt
  let _ ← takeBit .lowFirst
  let hasNoWindow ← takeBit .lowFirst
  let sizeForm ← takeNumber .lowFirst 2
  let _ ← takeBytes (1 - hasNoWindow)
  let dictionary ← takeNumber .lowFirst (8 * ([0, 1, 2, 4][dictionaryForm]?.getD 0))
  if dictionary ≠ 0 then throw .corrupt
  let _ ← takeBytes ([hasNoWindow, 2, 4, 8][sizeForm]?.getD 0)
  let s ← get
  unpackBlocks s.unpacked.size s.packed.size {}
  let _ ← takeBytes (4 * hasChecksum)

/-- The mark of a frame. -/
def frameMark : Nat := 0xfd2fb528

/-- The mark of a frame to pass over, less its lowest four bits. -/
def passedOverMark : Nat := 0x184d2a5

/-- Unpack a frame, if one follows, and say whether none does. -/
def unpackNext : Unpacker Bool := do
  if ← isAtEnd then return true
  let mark ← takeNumber .lowFirst 32
  if mark = frameMark then unpackFrame
  else if mark / 16 = passedOverMark then
    let size ← takeNumber .lowFirst 32
    let _ ← takeBytes size
  else throw .corrupt
  return false

/-- Unpack all frames. -/
def unpackAll : Unpacker Unit := repeatStep unpackNext

end DotMatrix.Archive.Zstandard
