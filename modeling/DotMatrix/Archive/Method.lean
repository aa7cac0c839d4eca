import DotMatrix.Archive.BlockSort
import DotMatrix.Archive.Deflate
import DotMatrix.Archive.Directory
import DotMatrix.Archive.Lzma
import DotMatrix.Archive.Xz
import DotMatrix.Archive.Zstandard.Frame

/-!
# How entries are packed

* `Method` lists the ways to pack an entry, and `Method.unpack` undoes each.
* `Member.opened` finds an entry, and `Opened.contents` unpacks it and tests its checksum.
-/

set_option autoImplicit false

namespace DotMatrix.Archive

/-- A way to pack bytes. -/
inductive Method where
  /-- The bytes as they are. -/
  | stored
  | deflated
  /-- Deflated with longer repetitions. -/
  | widelyDeflated
  | blockSorted
  /-- Literals and repetitions in a range code, behind a header. -/
  | lzma
  | zstandard
  /-- Literals and repetitions in a range code, in streams of chunks. -/
  | xz
  deriving DecidableEq

namespace Method

/-- The method with a number. -/
def ofNumber? : Nat → Option Method
  | 0 => some .stored
  | 8 => some .deflated
  | 9 => some .widelyDeflated
  | 12 => some .blockSorted
  | 14 => some .lzma
  | 93 => some .zstandard
  | 95 => some .xz
  | _ => none

/-- What messages call the packed bytes. -/
def streamName : Method → String
  | .stored => "stored"
  | .deflated => "deflate"
  | .widelyDeflated => "deflate64"
  | .blockSorted => "bzip2"
  | .lzma => "lzma"
  | .zstandard => "zstd"
  | .xz => "xz"

/-- The unpacking of packed bytes. -/
def unpack : Method → Unpacker Unit
  | .stored => do Unpacker.appendAll (← Unpacker.takeAll)
  | .deflated => Deflate.inflate .common
  | .widelyDeflated => Deflate.inflate .wide
  | .blockSorted => BlockSort.unpackAll
  | .lzma => Lzma.unpackAlone
  | .zstandard => Zstandard.unpackAll
  | .xz => Xz.unpackAll

end Method

/-- An entry whose packed bytes have been found. -/
structure Opened where
  method : Method
  packed : ByteArray
  checksum : Nat

/-- Open an entry of an archive. -/
def Member.opened (bytes : ByteArray) (m : Member) : Except OpenError Opened :=
  if m.locked then .error .locked
  else if m.method = encryptedMethod then .error .encrypted
  else
    match Method.ofNumber? m.method with
    | none => .error .unknownMethod
    | some method =>
      if m.encrypted then .error .encrypted else .ok ⟨method, m.packed bytes, m.checksum⟩

/-- Why an entry cannot be read. -/
inductive ReadError where
  | halted (method : Method) (halt : Halt)
  | wrongChecksum
  deriving DecidableEq

/-- The wording of an error. -/
def ReadError.message : ReadError → String
  | .halted .lzma (.tooFar distance reach) =>
    s!"lzma error: LZ distance {distance} is beyond output size {reach}"
  | .halted method _ => s!"corrupt {method.streamName} stream"
  | .wrongChecksum => "Invalid checksum"

/-- The bytes of an entry. -/
def Opened.contents (o : Opened) : Except ReadError ByteArray :=
  match o.method.unpack.result o.packed with
  | .error halt => .error (.halted o.method halt)
  | .ok contents =>
    if (Archive.checksum contents).toNat = o.checksum then .ok contents else .error .wrongChecksum

theorem checksum_of_contents {o : Opened} {contents : ByteArray} (h : o.contents = .ok contents) :
    (Archive.checksum contents).toNat = o.checksum := by
  unfold Opened.contents at h
  split at h
  · contradiction
  · split at h
    · injection h with h
      subst h
      assumption
    · contradiction

end DotMatrix.Archive
