import DotMatrix.Archive.Unpacking
import DotMatrix.Archive.Xz.Branch

/-!
# Filters

Bytes can be changed before they are packed, so that they repeat each other more.

* `Filter.ofProperties?` reads which change was made.
* `Filter.undo` undoes it.
-/

set_option autoImplicit false

namespace DotMatrix.Archive.Xz

/-- A change that was made to bytes before they were packed. -/
inductive Filter where
  /-- Each byte was replaced by its difference from the one `distance` bytes before it. -/
  | difference (distance : Nat)
  /-- Branches in machine code were given their targets; the first byte counts as the one at
  `start`. -/
  | branches (machine : Machine) (start : Nat)
  deriving DecidableEq

namespace Filter

/-- The filter with a number and properties. -/
def ofProperties? (number : Nat) (properties : ByteArray) : Option Filter :=
  if number = 3 then do
    guard (properties.size = 1)
    return .difference ((← number? properties 0 1) + 1)
  else do
    let machine ← Machine.ofNumber? number
    guard (properties.size = 0 ∨ properties.size = 4)
    let start ← number? properties 0 properties.size
    guard (start % machine.alignment = 0)
    return .branches machine start

/-- Add the differences up, behind what is done. -/
def addUp (distance : Nat) : List UInt8 → ByteArray → ByteArray
  | [], done => done
  | b :: rest, done => addUp distance rest (done.push (b + Unpacker.byteBefore done distance))

theorem size_addUp (distance : Nat) (bytes : List UInt8) (done : ByteArray) :
    (addUp distance bytes done).size = done.size + bytes.length := by
  induction bytes generalizing done with
  | nil => rfl
  | cons b rest ih =>
    rw [addUp, ih, ByteArray.size_push, List.length_cons]
    omega

/-- The bytes before a change. -/
def undo : Filter → ByteArray → ByteArray
  | .difference distance, bytes => addUp distance bytes.toList .empty
  | .branches machine start, bytes => machine.restore start bytes

end Filter

end DotMatrix.Archive.Xz
