/-!
# Unpacking

What is packed is read bit by bit from the front, and what it stands for is written at the end of
what has been unpacked so far, which later bytes may be copied from.

* `Unpacker α` is the monad of these operations.  One that is stopped keeps what it has unpacked.
* `Unpacker.result` is what packed bytes stand for.
* `takeBit` and `takeNumber` read, in either `BitOrder`; `append` and `repeatBack` write.
* `repeatStep` repeats a step until there is nothing left for it to do.
-/

set_option autoImplicit false

namespace DotMatrix.Archive

/-- Why unpacking stops before its end. -/
inductive Halt where
  /-- There are no more packed bytes. -/
  | exhausted
  /-- The packed bytes stand for nothing. -/
  | corrupt
  /-- A repetition goes back to before the first byte of those it can reach. -/
  | tooFar (distance reach : Nat)
  deriving DecidableEq

/-- The state of an unpacking. -/
structure Unpacking where
  packed : ByteArray
  /-- The number of packed bits that have been read. -/
  position : Nat
  unpacked : ByteArray

/-- An operation of an unpacking. -/
abbrev Unpacker := EStateM Halt Unpacking

namespace Unpacker

/-- What packed bytes stand for. -/
def result (x : Unpacker Unit) (packed : ByteArray) : Except Halt ByteArray :=
  match x.run ⟨packed, 0, .empty⟩ with
  | .ok _ s => .ok s.unpacked
  | .error halt _ => .error halt

/-- Unpack as far as there are packed bytes. -/
def upToEnd (x : Unpacker Unit) : Unpacker Unit :=
  tryCatch x fun halt ↦ if halt = .exhausted then return else throw halt

/-! ## Reading -/

/-- Which bit of a byte is read first. -/
inductive BitOrder where
  | lowFirst | highFirst
  deriving DecidableEq

/-- The place in its byte of the bit at a position. -/
def BitOrder.place : BitOrder → Nat → Nat
  | .lowFirst, position => position % 8
  | .highFirst, position => 7 - position % 8

/-- The bit at a position. -/
def bit? (order : BitOrder) (bytes : ByteArray) (position : Nat) : Option Nat :=
  if h : position / 8 < bytes.size then
    some (bytes[position / 8].toNat >>> order.place position % 2)
  else none

theorem bit?_lt {order : BitOrder} {bytes : ByteArray} {position bit : Nat}
    (h : bit? order bytes position = some bit) : bit < 2 := by
  unfold bit? at h
  split at h
  · injection h with h
    omega
  · contradiction

/-- Read a bit. -/
def takeBit (order : BitOrder) : Unpacker Nat := do
  let s ← get
  match bit? order s.packed s.position with
  | none => throw .exhausted
  | some bit =>
    set { s with position := s.position + 1 }
    return bit

/-- Read the next `width` bits as a number.  Where a byte's low bits are read first, the low bits of
a number are, too. -/
def takeNumber : BitOrder → Nat → Unpacker Nat
  | _, 0 => return 0
  | .lowFirst, width + 1 => do
    let low ← takeBit .lowFirst
    let high ← takeNumber .lowFirst width
    return low + 2 * high
  | .highFirst, width + 1 => do
    let high ← takeNumber .highFirst width
    let low ← takeBit .highFirst
    return low + 2 * high

/-- The next `width` bits as a number, the low bits first.  Bits behind the last byte are 0. -/
def ahead (bytes : ByteArray) (position : Nat) : Nat → Nat
  | 0 => 0
  | width + 1 => (bit? .lowFirst bytes position).getD 0 + 2 * ahead bytes (position + 1) width

theorem ahead_lt (bytes : ByteArray) (position width : Nat) :
    ahead bytes position width < 1 <<< width := by
  induction width generalizing position with
  | zero => exact Nat.zero_lt_one
  | succ width ih =>
    have hrest := ih (position + 1)
    have hbit : (bit? .lowFirst bytes position).getD 0 < 2 := by
      cases h : bit? .lowFirst bytes position with
      | none => decide
      | some bit => exact bit?_lt h
    rw [Nat.shiftLeft_eq, Nat.one_mul] at hrest
    rw [ahead, Nat.shiftLeft_eq, Nat.one_mul, Nat.pow_succ]
    omega

/-- Leave out what is left of the byte that has begun. -/
def skipToByte : Unpacker Unit :=
  modify fun s ↦ { s with position := 8 * ((s.position + 7) / 8) }

/-- Ranges of numbers in a row, each with its least number and the number of bits that choose among
its numbers.  The first starts at `least`. -/
def ranges (least : Nat) : List Nat → List (Nat × Nat)
  | [] => []
  | bits :: rest => (least, bits) :: ranges (least + 1 <<< bits) rest

theorem length_ranges (least : Nat) (bits : List Nat) :
    (ranges least bits).length = bits.length := by
  induction bits generalizing least with
  | nil => rfl
  | cons _ _ ih => simp [ranges, ih]

/-- Read a number in a range that has been told. -/
def takeInRange (order : BitOrder) (table : Array (Nat × Nat)) (range : Nat) : Unpacker Nat :=
  match table[range]? with
  | none => throw .corrupt
  | some (least, bits) => return least + (← takeNumber order bits)

/-- Read the next `count` bytes, which start with a whole byte. -/
def takeBytes (count : Nat) : Unpacker ByteArray := do
  let s ← get
  let start := s.position / 8
  if s.packed.size < start + count then throw .exhausted
  set { s with position := s.position + 8 * count }
  return s.packed.extract start (start + count)

/-- Read the bytes that are left, which start with a whole byte. -/
def takeAll : Unpacker ByteArray := do
  let s ← get
  takeBytes (s.packed.size - s.position / 8)

/-- Whether everything has been read. -/
def isAtEnd : Unpacker Bool := do
  let s ← get
  return 8 * s.packed.size ≤ s.position

/-- Read from other bytes, and go on here.  There has to be enough of them. -/
def within {α : Type} (packed : ByteArray) (x : Unpacker α) : Unpacker α := fun
  | ⟨here, position, unpacked⟩ =>
    match x ⟨packed, 0, unpacked⟩ with
    | .ok a s => .ok a ⟨here, position, s.unpacked⟩
    | .error _ s => .error .corrupt ⟨here, position, s.unpacked⟩

/-! ## Writing -/

/-- Write a byte. -/
def append (byte : UInt8) : Unpacker Unit :=
  modify fun s ↦ { s with unpacked := s.unpacked.push byte }

/-- Write bytes. -/
def appendAll (bytes : ByteArray) : Unpacker Unit :=
  modify fun s ↦ { s with unpacked := s.unpacked ++ bytes }

/-- Write the next `count` packed bytes as they are, or those that there are.  They start with a
whole byte. -/
def appendPacked (count : Nat) : Unpacker Unit := do
  let s ← get
  let start := s.position / 8
  let bytes := s.packed.extract start (start + count)
  set { s with position := s.position + 8 * bytes.size, unpacked := s.unpacked ++ bytes }
  if bytes.size < count then throw .exhausted

/-- The byte that comes `distance` bytes before the end; there are zeros before the first. -/
def byteBefore (bytes : ByteArray) (distance : Nat) : UInt8 :=
  if h : 0 < distance ∧ distance ≤ bytes.size then bytes[bytes.size - distance] else 0

/-- Write `length` bytes, each the same as the one that came `distance` bytes before it. -/
def copyBack (distance : Nat) : Nat → ByteArray → ByteArray
  | 0, bytes => bytes
  | length + 1, bytes => copyBack distance length (bytes.push (byteBefore bytes distance))

theorem size_copyBack (distance length : Nat) (bytes : ByteArray) :
    (copyBack distance length bytes).size = bytes.size + length := by
  induction length generalizing bytes with
  | zero => rfl
  | succ length ih =>
    rw [copyBack, ih, ByteArray.size_push]
    omega

/-- Repeat `length` bytes that have been written `distance` bytes before. -/
def repeatBack (distance length : Nat) : Unpacker Unit :=
  modify fun s ↦ { s with unpacked := copyBack distance length s.unpacked }

/-- Repeat bytes, all of which have to be there; those before `origin` cannot be reached. -/
def repeatKnown (origin distance length : Nat) : Unpacker Unit := do
  let reach := (← get).unpacked.size - origin
  if reach < distance then throw (.tooFar distance reach)
  if distance = 0 then throw .corrupt
  repeatBack distance length

/-! ## Repetition -/

/-- Do a step at most `count` times, until it says that it was the last. -/
def repeatAtMost (step : Unpacker Bool) : Nat → Unpacker Unit
  | 0 => throw .corrupt
  | count + 1 => do
    if ← step then return
    repeatAtMost step count

/-- Repeat a step until it says that it was the last.  A step reads a bit at least, so there are no
more steps than bits. -/
def repeatStep (step : Unpacker Bool) : Unpacker Unit := do
  let s ← get
  repeatAtMost step (8 * s.packed.size - s.position + 1)

end Unpacker

end DotMatrix.Archive
