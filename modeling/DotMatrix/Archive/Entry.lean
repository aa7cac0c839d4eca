import DotMatrix.Archive.Directory

/-!
# Writing archives

`Archive.encode` writes an archive whose entries are stored as they are: their records, each with
its bytes, then the directory, then the end record.
-/

set_option autoImplicit false

namespace DotMatrix.Archive

/-- A file for an archive. -/
structure Entry where
  name : String
  contents : ByteArray

/-- What an entry's record and its line of the directory have in common: version, flags, method,
time, date, checksum, both sizes, the length of the name and that of the extra fields.  One flag
says that the name goes beyond seven bits. -/
def commonFields (e : Entry) : List (Nat × Nat) :=
  [(2, 10), (2, if e.name.toUTF8.data.all (· < 128) then 0 else 0x800), (2, 0), (2, 0), (2, 0x21),
    (4, (checksum e.contents).toNat), (4, e.contents.size), (4, e.contents.size),
    (2, e.name.utf8ByteSize), (2, 0)]

/-- An entry's record and its bytes. -/
def localRecord (e : Entry) : ByteArray :=
  fields ((4, localSignature) :: commonFields e) ++ e.name.toUTF8 ++ e.contents

/-- An entry's line of the directory; its record starts at `offset`. -/
def centralRecord (e : Entry) (offset : Nat) : ByteArray :=
  fields ([(4, centralSignature), (2, 10)] ++ commonFields e ++
    [(2, 0), (2, 0), (2, 0), (4, 0), (4, offset)]) ++ e.name.toUTF8

/-- The records of all entries and the directory that lists them. -/
def records : List Entry → ByteArray → ByteArray → ByteArray × ByteArray
  | [], front, directory => (front, directory)
  | e :: rest, front, directory =>
    records rest (front ++ localRecord e) (directory ++ centralRecord e front.size)

/-- An archive of entries that are stored as they are. -/
def encode (entries : List Entry) : ByteArray :=
  match records entries .empty .empty with
  | (front, directory) =>
    front ++ directory ++ fields [(4, endSignature), (2, 0), (2, 0), (2, entries.length),
      (2, entries.length), (4, directory.size), (4, front.size), (2, 0)]

end DotMatrix.Archive
