import DotMatrix.Archive.PrefixCode
import DotMatrix.Archive.Shuffle

/-!
# Block-sorted bytes

Bytes are packed a block at a time.  Runs of equal bytes are cut short, the rotations of the block
are sorted and the last byte of each is kept, these bytes are replaced by how long ago they were
used last, and what comes out, mostly small numbers, is written in prefix codes.

* `BlockSort.unsort` undoes the sorting, `BlockSort.columnOf?` the counting of uses, and
  `BlockSort.restoreRuns` the cutting of runs.
* `BlockSort.unpackAll` unpacks all blocks.
-/

set_option autoImplicit false

namespace DotMatrix.Archive.BlockSort

open Unpacker

/-! ## Runs -/

/-- Append `count` times a byte. -/
def appendTimes (byte : UInt8) : Nat → ByteArray → ByteArray
  | 0, bytes => bytes
  | count + 1, bytes => appendTimes byte count (bytes.push byte)

theorem size_appendTimes (byte : UInt8) (count : Nat) (bytes : ByteArray) :
    (appendTimes byte count bytes).size = bytes.size + count := by
  induction count generalizing bytes with
  | zero => rfl
  | succ count ih =>
    rw [appendTimes, ih, ByteArray.size_push]
    omega

/-- Restore runs: after four equal bytes comes the number of those that were left out.  The last
`equal` bytes have been `last`. -/
def restoreRuns : List UInt8 → UInt8 → Nat → ByteArray → ByteArray
  | [], _, _, bytes => bytes
  | b :: rest, last, equal, bytes =>
    if equal = 4 then restoreRuns rest 0 0 (appendTimes last b.toNat bytes)
    else if b = last then restoreRuns rest last (equal + 1) (bytes.push b)
    else restoreRuns rest b 1 (bytes.push b)

/-! ## Sorting -/

/-- The positions of the bytes in a block, ordered by the bytes and then by themselves. -/
def sortedPositions (column : ByteArray) : Array Nat :=
  (Nat.fold column.size (fun position h (piles : Array (Array Nat)) ↦
    piles.modify column[position].toNat (·.push position)) (Array.replicate 256 #[])).flatten

/-- Take `count` bytes of a block.  The byte that comes first in a rotation stands in the column
where that rotation is sorted to. -/
def walk (column : ByteArray) (sorted : Array Nat) : Nat → Nat → ByteArray → ByteArray
  | 0, _, bytes => bytes
  | count + 1, position, bytes =>
    let next := sorted[position]?.getD 0
    walk column sorted count next (bytes.push (column[next]?.getD 0))

/-- The block whose sorted rotations end in the bytes of a column; the block itself is the rotation
at `origin`. -/
def unsort (column : ByteArray) (origin : Nat) : ByteArray :=
  walk column (sortedPositions column) column.size origin .empty

/-! ## Uses -/

/-- What stands at a place of a list, and the list with it at the front. -/
def moveToFront? {α : Type} (front : List α) (place : Nat) : Option (α × List α) :=
  front[place]?.map fun a ↦ (a, a :: front.eraseIdx place)

/-- The column that some symbols stand for, of at most `limit` bytes.  Of the bytes that occur, the
one that was used last is in front.  A symbol from 2 on uses one further back.  The others are the
digits, the lowest first, of how often the byte in front is used again: 0 stands for one `weight`
and 1 for two, and each digit doubles the weight. -/
def columnOf? (limit : Nat) : List Nat → List UInt8 → Nat → ByteArray → Option ByteArray
  | [], _, _, column => if column.size ≤ limit then some column else none
  | symbol :: rest, front, weight, column =>
    if symbol < 2 then
      let count := (symbol + 1) * weight
      if limit < column.size + count then none
      else columnOf? limit rest front (2 * weight) (appendTimes (front.headD 0) count column)
    else
      match moveToFront? front (symbol - 1) with
      | none => none
      | some (byte, front) => columnOf? limit rest front 1 (column.push byte)

/-! ## Codes -/

/-- The numbers of the bits that are set in 16, counted from the highest. -/
def setBits (word : Nat) : List Nat :=
  (List.range 16).filter fun n ↦ word.testBit (15 - n)

/-- Read which bytes of some groups of 16 occur. -/
def takeOccurring : List Nat → Unpacker (List UInt8)
  | [] => return []
  | group :: rest => do
    let members := setBits (← takeNumber .highFirst 16)
    let others ← takeOccurring rest
    return members.map (fun n ↦ UInt8.ofNat (16 * group + n)) ++ others

/-- Count the bits that are set up to one that is not; they are fewer than `limit`. -/
def takeUnary : Nat → Unpacker Nat
  | 0 => throw .corrupt
  | limit + 1 => do
    if (← takeBit .highFirst) = 0 then return 0
    return 1 + (← takeUnary limit)

/-- Read which code each of `count` groups of symbols is written in.  The codes are given as how
long ago they were used last. -/
def takeSelectors : Nat → List Nat → Unpacker (List Nat)
  | 0, _ => return []
  | count + 1, front => do
    match moveToFront? front (← takeUnary front.length) with
    | none => throw .corrupt
    | some (selector, front) => return selector :: (← takeSelectors count front)

/-- The longest code word. -/
def longestWord : Nat := 20

/-- Change a length, by one at a time and at most `steps` times, until it is right. -/
def takeLength : Nat → Nat → Unpacker Nat
  | 0, _ => throw .corrupt
  | steps + 1, length => do
    if length = 0 || longestWord < length then throw .corrupt
    if (← takeBit .highFirst) = 0 then return length
    if (← takeBit .highFirst) = 0 then takeLength steps (length + 1)
    else takeLength steps (length - 1)

/-- Read `count` lengths, each as a change to the one before. -/
def takeLengths (steps : Nat) : Nat → Nat → Unpacker (List Nat)
  | 0, _ => return []
  | count + 1, previous => do
    let length ← takeLength steps previous
    return length :: (← takeLengths steps count length)

/-- Read `count` codes of `size` symbols. -/
def takeCodes (size : Nat) : Nat → Unpacker (List PrefixCode)
  | 0 => return []
  | count + 1 => do
    let first ← takeNumber .highFirst 5
    let s ← get
    let lengths ← takeLengths (8 * s.packed.size) size first
    return .ofLengths longestWord lengths :: (← takeCodes size count)

/-- Read at most `count` symbols after the known ones, and say whether the final one was met. -/
def takeGroup (code : PrefixCode) (final : Nat) :
    Nat → Array Nat → Unpacker (Array Nat × Bool)
  | 0, known => return (known, false)
  | count + 1, known => do
    let symbol ← code.takeSymbol .highFirst
    if symbol = final then return (known, true)
    takeGroup code final count (known.push symbol)

/-- Read symbols, in groups of 50, up to the final one. -/
def takeSymbols (codes : Array PrefixCode) (final : Nat) :
    List Nat → Array Nat → Unpacker (Array Nat)
  | [], _ => throw .corrupt
  | selector :: rest, known => do
    match codes[selector]? with
    | none => throw .corrupt
    | some code =>
      let (known, done) ← takeGroup code final 50 known
      if done then return known
      takeSymbols codes final rest known

/-! ## Blocks -/

/-- What a block starts with. -/
def blockMark : Nat := 0x314159265359

/-- What comes after the last block. -/
def endMark : Nat := 0x177245385090

/-- Unpack a block, behind its mark and its checksum. -/
def unpackBlock (limit : Nat) : Unpacker Unit := do
  let isShuffled := (← takeBit .highFirst) = 1
  let origin ← takeNumber .highFirst 24
  let occurring ← takeOccurring (setBits (← takeNumber .highFirst 16))
  if occurring.isEmpty then throw .corrupt
  let tables ← takeNumber .highFirst 3
  if tables < 2 || 6 < tables then throw .corrupt
  let selectors ← takeSelectors (← takeNumber .highFirst 15) (List.range tables)
  let codes ← takeCodes (occurring.length + 2) tables
  let symbols ← takeSymbols codes.toArray (occurring.length + 1) selectors #[]
  match columnOf? limit symbols.toList occurring 1 .empty with
  | none => throw .corrupt
  | some column =>
    if column.size ≤ origin then throw .corrupt
    let block := unsort column origin
    let block := if isShuffled then Shuffle.shuffle block else block
    appendAll (restoreRuns block.toList 0 0 .empty)

/-- Unpack a block, if one follows, and say whether none does.  Checksums are passed over: an
archive has its own. -/
def unpackNext (limit : Nat) : Unpacker Bool := do
  let mark ← takeNumber .highFirst 48
  let _ ← takeNumber .highFirst 32
  if mark = endMark then return true
  if mark ≠ blockMark then throw .corrupt
  unpackBlock limit
  return false

/-- Unpack everything.  The blocks come behind a mark and a digit, which says how many times 100,000
bytes a block may have. -/
def unpackAll : Unpacker Unit := do
  if (← takeNumber .highFirst 24) ≠ 0x425a68 then throw .corrupt
  let digit ← takeNumber .highFirst 8
  if digit < 0x31 || 0x39 < digit then throw .corrupt
  repeatStep (unpackNext (100000 * (digit - 0x30)))

end DotMatrix.Archive.BlockSort
