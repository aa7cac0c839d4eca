import DotMatrix.Archive.Lzma
import DotMatrix.Archive.Xz.Filter

/-!
# Chunks and streams

Literals and repetitions come in chunks, which may go on with what the chunks before have learned; a
chunk may also hold bytes as they are.  The chunks make up blocks, which may have gone through
filters before, and the blocks a stream, with an index and a footer behind them.

* `Xz.unpackChunks` unpacks the chunks of a block.
* `Xz.unpackBlock` unpacks a block, and `Xz.unpackAll` a stream.
-/

set_option autoImplicit false

namespace DotMatrix.Archive.Xz

open Unpacker

/-! ## Chunks -/

/-- What a chunk passes on to the next. -/
structure Passed where
  /-- Where the bytes start that can be repeated. -/
  origin : Nat
  properties : Option Lzma.Properties := none
  code : RangeCode := .fresh 0
  history : Lzma.History := {}

/-- Start again to learn. -/
def Passed.fresh (passed : Passed) (p : Lzma.Properties) : Passed :=
  { passed with properties := some p, code := .fresh p.kinds, history := {} }

/-- Unpack a chunk of literals and repetitions.  `form` says what it does not go on with: nothing
that the chunks before have learned, their properties, or even their bytes. -/
def unpackCoded (passed : Passed) (form highSize : Nat) : Unpacker Passed := do
  let size := 65536 * highSize + (← takeNumber .highFirst 16) + 1
  let packedSize := (← takeNumber .highFirst 16) + 1
  let total := (← get).unpacked.size + size
  let passed := if form = 3 then { passed with origin := total - size } else passed
  let properties ←
    if 2 ≤ form then pure (Lzma.Properties.ofByte? (← takeNumber .highFirst 8))
    else pure passed.properties
  match properties with
  | none => throw .corrupt
  | some p =>
    let passed := if 1 ≤ form then passed.fresh p else passed
    let decoder : RangeDecoder _ := do
      RangeDecoder.start
      Lzma.unpackUpTo p passed.origin total (size + 1) passed.history
    let (history, code) ← within (← takeBytes packedSize) (decoder.run passed.code)
    if (← get).unpacked.size ≠ total then throw .corrupt
    match history with
    | none => throw .corrupt
    | some history => return { passed with code, history }

/-- Unpack a chunk.  Yields nothing if there are no more. -/
def unpackChunk (passed : Passed) : Unpacker (Option Passed) := do
  let control ← takeNumber .highFirst 8
  if control = 0 then return none
  else if control < 3 then
    let here := (← get).unpacked.size
    let origin := if control = 1 then here else passed.origin
    appendPacked ((← takeNumber .highFirst 16) + 1)
    return some { passed with origin }
  else if control < 128 then throw .corrupt
  else some <$> unpackCoded passed (control / 32 - 4) (control % 32)

/-- Unpack at most `count` chunks. -/
def unpackChunks : Nat → Passed → Unpacker Unit
  | 0, _ => throw .corrupt
  | count + 1, passed => do
    match ← unpackChunk passed with
    | none => return
    | some passed => unpackChunks count passed

/-! ## Blocks -/

/-- Read a number of seven bits a byte and of at most `bytes` bytes.  The highest bit of a byte says
that more follow. -/
def takeLongNumber : Nat → Unpacker Nat
  | 0 => throw .corrupt
  | bytes + 1 => do
    let low ← takeNumber .lowFirst 7
    if (← takeBit .lowFirst) = 0 then return low
    return low + 128 * (← takeLongNumber bytes)

/-- Read long numbers and leave them out. -/
def skipLongNumbers : Nat → Unpacker Unit
  | 0 => return
  | count + 1 => do
    let _ ← takeLongNumber 9
    skipLongNumbers count

/-- Go on at a multiple of four bytes. -/
def skipToFour : Unpacker Unit :=
  modify fun s ↦ { s with position := 32 * ((s.position + 31) / 32) }

/-- The number of the last filter, the one that makes chunks. -/
def chunkFilter : Nat := 0x21

/-- Read a number and the properties that come with it. -/
def takeProperties : Unpacker (Nat × ByteArray) := do
  let number ← takeLongNumber 9
  let size ← takeLongNumber 9
  return (number, ← takeBytes size)

/-- Read the filters of a block, `count` of them and the one that makes chunks. -/
def takeFilters : Nat → Unpacker (List Filter)
  | 0 => do
    let (number, _) ← takeProperties
    if number = chunkFilter then return [] else throw .corrupt
  | count + 1 => do
    let (number, properties) ← takeProperties
    match Filter.ofProperties? number properties with
    | none => throw .corrupt
    | some f => return f :: (← takeFilters count)

/-- Read the header of a block, of which the filters matter. -/
def takeBlockHeader : Unpacker (List Filter) := do
  let flags ← takeNumber .lowFirst 8
  if flags / 4 % 16 ≠ 0 then throw .corrupt
  skipLongNumbers (flags / 64 % 2 + flags / 128)
  takeFilters (flags % 4)

/-- Undo filters on the bytes from `start` on, the last filter first. -/
def undoFilters (filters : List Filter) (start : Nat) : Unpacker Unit := do
  if filters.isEmpty then return
  let bytes := (← get).unpacked
  let block := filters.foldr Filter.undo (bytes.extract start bytes.size)
  modify fun s ↦ { s with unpacked := bytes.extract 0 start ++ block }

/-- Unpack a block.  `headerSize` is that of its header in fours of bytes, less one, and
`checkSize` that of its checksum. -/
def unpackBlock (headerSize checkSize : Nat) : Unpacker Unit := do
  let filters ← within (← takeBytes (4 * headerSize + 3)) takeBlockHeader
  let s ← get
  let start := s.unpacked.size
  unpackChunks s.packed.size ⟨start, none, .fresh 0, {}⟩
  undoFilters filters start
  skipToFour
  let _ ← takeBytes checkSize

/-- Unpack at most `count` blocks, and leave out the index behind them. -/
def unpackBlocks (checkSize : Nat) : Nat → Unpacker Unit
  | 0 => throw .corrupt
  | count + 1 => do
    let headerSize ← takeNumber .lowFirst 8
    if headerSize = 0 then
      skipLongNumbers (2 * (← takeLongNumber 9))
      skipToFour
      let _ ← takeBytes 4
    else
      unpackBlock headerSize checkSize
      unpackBlocks checkSize count

/-! ## Streams -/

/-- What a stream starts with. -/
def streamMark : Nat := 0xfd377a585a00

/-- The sizes of checksums, by their kinds. -/
def checkSizes : List Nat := [0, 4, 4, 4, 8, 8, 8, 16, 16, 16, 32, 32, 32, 64, 64, 64]

/-- Unpack a stream.  There is nothing behind it.  Checksums are passed over: an archive has its
own. -/
def unpackAll : Unpacker Unit := do
  if (← takeNumber .highFirst 48) ≠ streamMark then throw .corrupt
  let _ ← takeNumber .lowFirst 8
  let kind ← takeNumber .lowFirst 8
  let _ ← takeBytes 4
  unpackBlocks (checkSizes[kind]?.getD 0) (← get).packed.size
  let _ ← takeBytes 12
  if !(← isAtEnd) then throw .corrupt

end DotMatrix.Archive.Xz
