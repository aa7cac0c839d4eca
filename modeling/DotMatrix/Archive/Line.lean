import DotMatrix.Archive.Checksum
import DotMatrix.Archive.Field

/-!
# Lines of a directory

A line of a directory tells what an archive knows of an entry.  Extra fields, each with its kind and
its length in front, say what the line has no room for, or say it anew.

* `Line.amended?` is a line with what its extra fields say.
* `Amender α` is the monad of what reads them, and `Amender.takeField` reads one of each kind.

Extra fields may be cut short: what has been read by then counts.  But a field that is not as it
should be spoils the line.
-/

set_option autoImplicit false

namespace DotMatrix.Archive

/-- A line of a directory. -/
structure Line where
  name : String
  /-- The bytes of the name. -/
  nameBytes : ByteArray
  comment : String
  /-- The entry cannot be read without a password. -/
  locked : Bool
  /-- An extra field says how the entry is encrypted. -/
  encrypted : Bool
  /-- How the entry's bytes are packed. -/
  method : Nat
  checksum : Nat
  packedSize : Nat
  size : Nat
  /-- Where the entry's record starts. -/
  offset : Nat

/-- What a number is if it stands in a longer field somewhere else. -/
def elsewhere : Nat := 0xffffffff

/-- Why the reading of extra fields stops. -/
inductive Stop where
  /-- There are no more bytes. -/
  | atEnd
  /-- A field is not as it should be. -/
  | malformed
  deriving DecidableEq

/-- The state of reading extra fields. -/
structure Amending where
  extra : ByteArray
  position : Nat
  line : Line

/-- An operation that reads extra fields. -/
abbrev Amender := EStateM Stop Amending

namespace Amender

/-! ## Steps -/

/-- Read a number of `width` bytes. -/
def takeNumber (width : Nat) : Amender Nat := do
  let s ← get
  match number? s.extra s.position width with
  | none => throw .atEnd
  | some n =>
    set { s with position := s.position + width }
    return n

/-- Read the next `count` bytes. -/
def takeBytes (count : Nat) : Amender ByteArray := do
  let s ← get
  let next := s.position + count
  if s.extra.size < next then throw .atEnd
  set { s with position := next }
  return s.extra.extract s.position next

/-- Leave out the next `count` bytes. -/
def skip (count : Nat) : Amender Unit := do
  let _ ← takeBytes count

/-- Stop at a field that is not as it should be. -/
def require (p : Prop) [Decidable p] : Amender Unit :=
  if p then return else throw .malformed

/-- Change the line. -/
def amend (f : Line → Line) : Amender Unit :=
  modify fun s ↦ { s with line := f s.line }

/-! ## Fields -/

/-- Read a long number if the field, which has some length, holds one in place of the line's. -/
def takeLongNumber (length : Nat) (known : Line → Nat) (put : Nat → Line → Line) :
    Amender Unit := do
  if 24 ≤ length || known (← get).line = elsewhere then
    amend (put (← takeNumber 8))

/-- Read the long numbers of a line.  The field may be longer than they are. -/
def takeLongNumbers (length : Nat) : Amender Unit := do
  let start := (← get).position
  takeLongNumber length Line.size fun size l ↦ { l with size }
  takeLongNumber length Line.packedSize fun packedSize l ↦ { l with packedSize }
  takeLongNumber length Line.offset fun offset l ↦ { l with offset }
  let taken := (← get).position - start
  require (taken ≤ length)
  skip (length - taken)

/-- Read three long times. -/
def takeLongTimes (length : Nat) : Amender Unit := do
  require (length = 32)
  skip 4
  require ((← takeNumber 2) = 1)
  require ((← takeNumber 2) = 24)
  skip 24

/-- Read the times that there are flags for, up to three, or just one. -/
def takeTimes (length : Nat) : Amender Unit := do
  let flags ← takeNumber 1
  let count := (List.range 3).countP flags.testBit
  require (flags < 8 ∧ (length = 5 ∨ length = 1 + 4 * count))
  skip (length - 1)

/-- Read a text that takes the place of another, whose checksum comes with it. -/
def takeSubstitute (length : Nat) (replaced : ByteArray) : Amender (ByteArray × String) := do
  skip 1
  let sum ← takeNumber 4
  require (5 ≤ length)
  let bytes ← takeBytes (length - 5)
  require (sum = (checksum replaced).toNat)
  match String.fromUTF8? bytes with
  | none => throw .malformed
  | some text => return (bytes, text)

/-- Read how the entry is encrypted, and how its bytes are packed before that. -/
def takeCipher (length : Nat) : Amender Unit := do
  require (length = 7)
  let version ← takeNumber 2
  let maker ← takeNumber 2
  let strength ← takeNumber 1
  let method ← takeNumber 2
  require (maker = 0x4541 ∧ version ∈ [1, 2] ∧ strength ∈ [1, 2, 3])
  amend fun l ↦ { l with encrypted := true, method }

/-- Read a field of some kind and length. -/
def takeField (kind length : Nat) : Amender Unit := do
  match kind with
  | 0x0001 => takeLongNumbers length
  | 0x000a => takeLongTimes length
  | 0x5455 => takeTimes length
  | 0x6375 =>
    let (_, comment) ← takeSubstitute length (← get).line.comment.toUTF8
    amend fun l ↦ { l with comment }
  | 0x7075 =>
    let (nameBytes, name) ← takeSubstitute length (← get).line.nameBytes
    amend fun l ↦ { l with name, nameBytes }
  | 0x9901 => takeCipher length
  | _ => skip length

/-- Read at most `count` fields. -/
def takeFields : Nat → Amender Unit
  | 0 => return
  | count + 1 => do
    let kind ← takeNumber 2
    takeField kind (← takeNumber 2)
    takeFields count

end Amender

/-- A line with what its extra fields say, unless one of them spoils it. -/
def Line.amended? (line : Line) (extra : ByteArray) : Option Line :=
  match (Amender.takeFields extra.size).run ⟨extra, 0, line⟩ with
  | .ok _ s => some s.line
  | .error .atEnd s => some s.line
  | .error .malformed _ => none

theorem Line.amended?_empty (line : Line) : line.amended? .empty = some line := rfl

end DotMatrix.Archive
