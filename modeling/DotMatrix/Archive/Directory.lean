import DotMatrix.Archive.Line
import DotMatrix.Archive.Name

/-!
# Archive directories

A file that holds other files has a record for each of them with its bytes behind it, then a
directory with a line for each, then an end record that tells where the directory is.  What does not
fit the fields of a line or of the end record stands in longer ones: in the extra fields of the line
and in a second end record before the first.

* `Archive.members` reads the directory.
* `Member.packed` finds the bytes of an entry as they are stored.

An end record may be anywhere near the end, since a comment may follow it, and what looks like one
may be a part of that comment.  So the last one counts that a directory can be read with.  What is
put before an archive moves all of it back, which shows where the directory is really found.
-/

set_option autoImplicit false

namespace DotMatrix.Archive

/-! ## Signatures -/

/-- The signature of an entry's record. -/
def localSignature : Nat := 0x04034b50

/-- The signature of a line of the directory. -/
def centralSignature : Nat := 0x02014b50

/-- The signature of the end record. -/
def endSignature : Nat := 0x06054b50

/-- The signature of the long end record. -/
def longEndSignature : Nat := 0x06064b50

/-- The signature of what tells where the long end record is. -/
def locatorSignature : Nat := 0x07064b50

/-- The least position from `first` on, of `count` positions, at which a signature stands. -/
def findSignature? (bytes : ByteArray) (signature : Nat) : Nat → Nat → Option Nat
  | 0, _ => none
  | count + 1, first =>
    if number? bytes first 4 = some signature then some first
    else findSignature? bytes signature count (first + 1)

theorem number?_of_findSignature? {bytes : ByteArray} {signature count first position : Nat}
    (h : findSignature? bytes signature count first = some position) :
    number? bytes position 4 = some signature := by
  induction count generalizing first with
  | zero => simp [findSignature?] at h
  | succ count ih =>
    rw [findSignature?] at h
    split at h
    · injection h with h
      subst h
      assumption
    · exact ih h

theorem le_of_findSignature? {bytes : ByteArray} {signature count first position : Nat}
    (h : findSignature? bytes signature count first = some position) : first ≤ position := by
  induction count generalizing first with
  | zero => simp [findSignature?] at h
  | succ count ih =>
    rw [findSignature?] at h
    split at h
    · injection h with h
      omega
    · exact Nat.le_of_succ_le (ih h)

/-! ## Lines -/

/-- The method of entries whose method stands in an extra field. -/
def encryptedMethod : Nat := 99

/-- The line of the directory at a position, and where the next one starts. -/
def line? (bytes : ByteArray) (position : Nat) : Option (Line × Nat) := do
  guard ((← number? bytes position 4) = centralSignature)
  let flags ← number? bytes (position + 8) 2
  let method ← number? bytes (position + 10) 2
  let checksum ← number? bytes (position + 16) 4
  let packedSize ← number? bytes (position + 20) 4
  let size ← number? bytes (position + 24) 4
  let nameEnd := position + 46 + (← number? bytes (position + 28) 2)
  let extraEnd := nameEnd + (← number? bytes (position + 30) 2)
  let commentEnd := extraEnd + (← number? bytes (position + 32) 2)
  let offset ← number? bytes (position + 42) 4
  guard (commentEnd ≤ bytes.size)
  let text := if flags.testBit 11 then utf8Text else codePageText
  let nameBytes := bytes.extract (position + 46) nameEnd
  let plain : Line :=
    { name := text nameBytes, nameBytes, comment := text (bytes.extract extraEnd commentEnd),
      locked := flags.testBit 0, encrypted := false, method, checksum, packedSize, size, offset }
  let line ← plain.amended? (bytes.extract nameEnd extraEnd)
  guard (line.method ≠ encryptedMethod ∨ line.encrypted)
  return (line, commentEnd)

/-! ## Entries -/

/-- Where the directory is. -/
structure Place where
  /-- The number of lines. -/
  count : Nat
  start : Nat
  /-- How far everything lies behind where the archive says. -/
  shift : Nat

/-- An entry of an archive. -/
structure Member extends Line where
  /-- Where the entry's packed bytes start. -/
  start : Nat

/-- Where the packed bytes start of the entry whose record is at a position.  The record repeats the
name, which may be another there. -/
def packedStart? (bytes : ByteArray) (position : Nat) : Option Nat := do
  guard ((← number? bytes position 4) = localSignature)
  let nameLength ← number? bytes (position + 26) 2
  let extraLength ← number? bytes (position + 28) 2
  return position + 30 + nameLength + extraLength

/-- The entry that a line tells of.  Its record comes before the directory. -/
def member? (bytes : ByteArray) (place : Place) (line : Line) : Option Member := do
  let record := line.offset + place.shift
  guard (record < place.start)
  let start ← packedStart? bytes record
  guard (start ≤ place.start)
  return ⟨line, start⟩

/-- The entries of the next `count` lines of the directory. -/
def listed? (bytes : ByteArray) (place : Place) : Nat → Nat → Option (List Member)
  | 0, _ => some []
  | count + 1, position => do
    let (line, next) ← line? bytes position
    let m ← member? bytes place line
    let rest ← listed? bytes place count next
    return m :: rest

/-- Add an entry to a list; one with a name that is listed already takes the other's place. -/
def addMember (known : List Member) (m : Member) : List Member :=
  if known.any (·.name == m.name) then known.map fun k ↦ if k.name == m.name then m else k
  else known ++ [m]

/-! ## End records -/

/-- Where the end record at a position says that the directory is.  The first line is looked for
from there on. -/
def place? (bytes : ByteArray) (position : Nat) : Option Place := do
  let disk ← number? bytes (position + 4) 2
  let directoryDisk ← number? bytes (position + 6) 2
  let count ← number? bytes (position + 8) 2
  let total ← number? bytes (position + 10) 2
  let start ← number? bytes (position + 16) 4
  guard (disk = directoryDisk)
  if total = 0 then return ⟨count, max start position, position - start⟩
  let found ← findSignature? bytes centralSignature (position - 3 - start) start
  return ⟨count, found, found - start⟩

/-- Where a long end record at a position says that the directory is, if it says so rightly.  It
says itself how long it is and has to reach up to its locator; `guess` is where that says it is. -/
def longPlace? (bytes : ByteArray) (locator guess position : Nat) : Option (Option Place) := do
  guard ((← number? bytes position 4) = longEndSignature)
  let size ← number? bytes (position + 4) 8
  let maker ← number? bytes (position + 12) 2
  let needed ← number? bytes (position + 14) 2
  let disk ← number? bytes (position + 16) 4
  let directoryDisk ← number? bytes (position + 20) 4
  let count ← number? bytes (position + 24) 8
  let total ← number? bytes (position + 32) 8
  let start ← number? bytes (position + 48) 8
  guard (44 ≤ size ∧ position + size + 12 = locator)
  guard (number? bytes (locator + 4) 4 = some directoryDisk ∧ 46 * total + start ≤ position)
  let shift := position - guess
  return if count ≤ total ∧ needed ≤ maker ∧ disk = directoryDisk then
    some ⟨total, start + shift, shift⟩
  else none

/-- Where the long end record before the end record at a position says that the directory is, if the
end record has no room for it and there is a locator.  The locator may lead nowhere. -/
def longPlaceBefore? (bytes : ByteArray) (position : Nat) : Option (Option Place) := do
  let total ← number? bytes (position + 10) 2
  let start ← number? bytes (position + 16) 4
  guard (total = 0xffff ∨ start = elsewhere)
  guard (20 ≤ position)
  let locator := position - 20
  guard ((← number? bytes locator 4) = locatorSignature)
  let guess ← number? bytes (locator + 8) 8
  let disks ← number? bytes (locator + 16) 4
  let searched := if 1 < disks then [] else List.range (locator - guess)
  return (searched.findSome? fun n ↦ longPlace? bytes locator guess (guess + n)).join

/-- The directory that the end record at a position tells of.  Its comment has to fit the file. -/
def membersAt? (bytes : ByteArray) (position : Nat) : Option (List Member) := do
  guard ((← number? bytes position 4) = endSignature)
  guard (position + 22 + (← number? bytes (position + 20) 2) ≤ bytes.size)
  let place ← (longPlaceBefore? bytes position).getD (place? bytes position)
  let listed ← listed? bytes place place.count place.start
  return listed.foldl addMember []

/-- The directory that the last end record before a position tells of. -/
def membersBefore? (bytes : ByteArray) : Nat → Option (List Member)
  | 0 => none
  | position + 1 =>
    match membersAt? bytes position with
    | some members => some members
    | none => membersBefore? bytes position

/-! ## Archives -/

/-- Why an archive or one of its entries cannot be opened. -/
inductive OpenError where
  | noDirectory
  | locked
  | encrypted
  | unknownMethod
  deriving DecidableEq

/-- The wording of an error. -/
def OpenError.message : OpenError → String
  | .noDirectory => "invalid Zip archive: Could not find EOCD"
  | .locked => "unsupported Zip archive: Password required to decrypt file"
  | .encrypted => "The password provided is incorrect"
  | .unknownMethod => "unsupported Zip archive: Compression method not supported"

/-- The directory of an archive. -/
def members (bytes : ByteArray) : Except OpenError (List Member) :=
  match membersBefore? bytes bytes.size with
  | some members => .ok members
  | none => .error .noDirectory

/-- The bytes of an entry as they are stored, or those that there are. -/
def Member.packed (bytes : ByteArray) (m : Member) : ByteArray :=
  bytes.extract m.start (min bytes.size (m.start + m.packedSize))

end DotMatrix.Archive
