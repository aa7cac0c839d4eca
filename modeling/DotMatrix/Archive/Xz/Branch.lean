import DotMatrix.Archive.Field

/-!
# Branches in machine code

A branch names its target by how far away it is, so branches to one target all differ.  Machine code
packs better if they hold the target itself.  This puts the distances back: the position of a branch
is taken away from what it holds.

* `Machine` lists the machines whose branches are known.
* `replace` goes through machine code and replaces instructions; it never changes the size.
* `Machine.restore` restores the branches of some machine code.

Bytes that only look like a branch are changed just the same, and changed back.
-/

set_option autoImplicit false

namespace DotMatrix.Archive.Xz

/-- A machine with branches of its own. -/
inductive Machine where
  | x86 | powerPC | itanium | arm | thumb | sparc | arm64
  deriving DecidableEq

namespace Machine

/-- The machine with a number. -/
def ofNumber? : Nat → Option Machine
  | 4 => some .x86
  | 5 => some .powerPC
  | 6 => some .itanium
  | 7 => some .arm
  | 8 => some .thumb
  | 9 => some .sparc
  | 10 => some .arm64
  | _ => none

/-- Instructions start at multiples of this. -/
def alignment : Machine → Nat
  | .x86 => 1
  | .thumb => 2
  | .itanium => 16
  | _ => 4

end Machine

/-! ## Replacements -/

/-- Replace bytes, behind those that are done.  `change` tells what the next few bytes become, and
`due` is what has still to be written of that. -/
def replace (change : Nat → List UInt8 → List UInt8) :
    List UInt8 → List UInt8 → Nat → ByteArray → ByteArray
  | [], _, _, done => done
  | _ :: rest, new :: due, position, done =>
    replace change rest due (position + 1) (done.push new)
  | b :: rest, [], position, done =>
    let due := change position (b :: rest)
    replace change rest due.tail (position + 1) (done.push (due.headD b))

theorem size_replace (change : Nat → List UInt8 → List UInt8) (bytes due : List UInt8)
    (position : Nat) (done : ByteArray) :
    (replace change bytes due position done).size = done.size + bytes.length := by
  induction bytes generalizing due position done with
  | nil => cases due <;> rfl
  | cons b rest ih =>
    cases due <;>
    · rw [replace, ih, ByteArray.size_push, List.length_cons]
      omega

/-! ## Parts of words -/

/-- The number that bytes stand for, the lowest first. -/
def numberOf (bytes : List UInt8) : Nat := bytes.foldr (fun b n ↦ b.toNat + 256 * n) 0

/-- Change a word of four bytes, the lowest first, according to its position. -/
def inLowFirst (change : Nat → Nat → Nat) (position : Nat) : List UInt8 → List UInt8
  | a :: b :: c :: d :: _ => littleEndian 4 (change position (numberOf [a, b, c, d]))
  | bytes => bytes

/-- Change a word of four bytes, the highest first. -/
def inHighFirst (change : Nat → Nat → Nat) (position : Nat) : List UInt8 → List UInt8
  | a :: b :: c :: d :: _ => (littleEndian 4 (change position (numberOf [d, c, b, a]))).reverse
  | bytes => bytes

/-- The number in `width` bits of another, `low` bits above its lowest. -/
def bitsAt (n low width : Nat) : Nat := n >>> low % 1 <<< width

/-- A number with another in `width` of its bits. -/
def putBits (n low width value : Nat) : Nat :=
  n - bitsAt n low width <<< low + (value % 1 <<< width) <<< low

/-- How far a target is from here, in `width` bits. -/
def distance (width target here : Nat) : Nat :=
  (target + 1 <<< width - here % 1 <<< width) % 1 <<< width

theorem distance_lt (width target here : Nat) : distance width target here < 1 <<< width := by
  refine Nat.mod_lt _ ?_
  rw [Nat.shiftLeft_eq, Nat.one_mul]
  exact Nat.two_pow_pos width

/-- A word whose `width` bits from `low` on hold a target, with the distance from here there. -/
def restoreAt (w low width here : Nat) : Nat :=
  putBits w low width (distance width (bitsAt w low width) here)

/-- A number of `width` bits made longer, so that it stays the same below zero. -/
def extend (width longer n : Nat) : Nat :=
  if n < 1 <<< (width - 1) then n else n + 1 <<< longer - 1 <<< width

/-! ## Instructions of one word -/

/-- A branch with a link. -/
def powerPCBranch (position w : Nat) : Nat :=
  if bitsAt w 26 6 = 0x12 ∧ bitsAt w 0 2 = 1 then restoreAt w 2 24 (position / 4) else w

/-- A call with a target that is not far. -/
def sparcCall (position w : Nat) : Nat :=
  if bitsAt w 22 10 = 0x100 ∨ bitsAt w 22 10 = 0x1ff then
    putBits 0x40000000 0 30 (extend 23 30 (distance 23 (bitsAt w 0 23) (position / 4)))
  else w

/-- A branch with a link that is always taken; the position is that of the next instruction but
one. -/
def armBranch (position w : Nat) : Nat :=
  if bitsAt w 24 8 = 0xeb then restoreAt w 0 24 (position / 4 + 2) else w

/-- The address of a page in the low two bits and the others. -/
def putPage (w page : Nat) : Nat :=
  putBits (putBits w 29 2 page) 5 19 (page >>> 2)

/-- A branch with a link, or the address of a page that is not far. -/
def arm64Branch (position w : Nat) : Nat :=
  if bitsAt w 26 6 = 0x25 then restoreAt w 0 26 (position / 4)
  else if bitsAt w 24 5 = 0x10 ∧ w >>> 31 = 1 then
    let page := bitsAt w 29 2 + bitsAt w 5 19 <<< 2
    if page = extend 18 21 (bitsAt page 0 18) then
      putPage w (extend 18 21 (distance 18 page (position / 4096)))
    else w
  else w

/-! ## Instructions of half a word -/

/-- A branch of two instructions with half of the target each, or any other instruction. -/
def thumbBranch (position : Nat) : List UInt8 → List UInt8
  | a :: b :: c :: d :: _ =>
    let first := numberOf [a, b]
    let second := numberOf [c, d]
    if bitsAt first 11 5 = 0x1e ∧ bitsAt second 11 5 = 0x1f then
      let target := bitsAt first 0 11 <<< 11 + bitsAt second 0 11
      let restored := distance 22 target (position / 2 + 2)
      littleEndian 2 (putBits first 0 11 (restored >>> 11)) ++
        littleEndian 2 (putBits second 0 11 restored)
    else [a, b]
  | bytes => bytes

/-! ## Bundles of three instructions -/

/-- Which of the three instructions of a bundle can be branches, by the low bits of the bundle. -/
def branchSlots (low : Nat) : List Nat :=
  match low with
  | 16 | 17 | 24 | 25 | 28 | 29 => [2]
  | 18 | 19 => [1, 2]
  | 22 | 23 => [0, 1, 2]
  | _ => []

/-- A bundle whose instruction in a slot may be a branch.  The highest bit of its target stands
apart. -/
def slotBranch (position bundle slot : Nat) : Nat :=
  let low := 5 + 41 * slot
  if bitsAt bundle (low + 37) 4 = 5 ∧ bitsAt bundle (low + 9) 3 = 0 then
    let target := bitsAt bundle (low + 13) 20 + bitsAt bundle (low + 36) 1 <<< 20
    let restored := distance 21 target (position / 16)
    putBits (putBits bundle (low + 13) 20 restored) (low + 36) 1 (restored >>> 20)
  else bundle

/-- The branches in a bundle of 16 bytes. -/
def itaniumBranches (position : Nat) (bytes : List UInt8) : List UInt8 :=
  let bundle := numberOf (bytes.take 16)
  if bytes.length < 16 then bytes
  else littleEndian 16 ((branchSlots (bitsAt bundle 0 5)).foldl (slotBranch position) bundle)

/-! ## Instructions of any length -/

/-- A highest byte of distances that are not far. -/
def isNear (b : Nat) : Bool := b = 0 || b = 0xff

/-- How many bytes before this one, of the last three, a branch began that was left as it is, or 0
if there is none.  Of each byte is told whether a branch began there, and whether the highest byte
of its distance was a near one.  Among several branches, and behind a near one, nothing is sure. -/
def overlap? (recent : List (Option Bool)) : Option Nat :=
  match recent.zipIdx.filterMap fun (branch, n) ↦ branch.map (·, n + 1) with
  | [] => some 0
  | [(false, n)] => some n
  | _ => none

/-- The distance from the next instruction to a target.  The highest byte of an overlapping branch
lies within it; if that would become a near one, the bits up to it are inverted first. -/
def x86Distance (overlap target next : Nat) : Nat :=
  let plain := distance 32 target next
  let width := 32 - 8 * overlap
  if overlap ≠ 0 ∧ isNear (bitsAt plain (width - 8) 8) then
    distance 32 (plain ^^^ (1 <<< width - 1)) next
  else plain

/-- What the four bytes of a branch become, if they are changed. -/
def x86Branch? (recent : List (Option Bool)) (next : Nat) : List UInt8 → Option (List UInt8)
  | a :: b :: c :: d :: _ =>
    match overlap? recent, isNear d.toNat with
    | some overlap, true =>
      let restored := x86Distance overlap (numberOf [a, b, c, d]) next
      some (littleEndian 4 (extend 25 32 (bitsAt restored 0 25)))
    | _, _ => none
  | _ => none

/-- Replace bytes, behind those that are done.  `due` is what has still to be written of a branch,
and `recent` tells of the last three bytes. -/
def replaceX86 : List UInt8 → List UInt8 → List (Option Bool) → Nat → ByteArray → ByteArray
  | [], _, _, _, done => done
  | _ :: rest, new :: due, recent, position, done =>
    replaceX86 rest due recent (position + 1) (done.push new)
  | op :: rest, [], recent, position, done =>
    let isBranch := op = 0xe8 || op = 0xe9
    match if isBranch then x86Branch? recent (position + 5) rest else none with
    | some due => replaceX86 rest due [] (position + 1) (done.push op)
    | none =>
      let branch := if isBranch then some (isNear (rest[3]?.getD 0).toNat) else none
      replaceX86 rest [] ((branch :: recent).take 3) (position + 1) (done.push op)

/-! ## Machine code -/

/-- Restore the branches of machine code whose first byte counts as the one at `start`. -/
def Machine.restore (machine : Machine) (start : Nat) (bytes : ByteArray) : ByteArray :=
  let replaced (change : Nat → List UInt8 → List UInt8) :=
    replace change bytes.toList [] start .empty
  match machine with
  | .x86 => replaceX86 bytes.toList [] [] start .empty
  | .powerPC => replaced (inHighFirst powerPCBranch)
  | .itanium => replaced itaniumBranches
  | .arm => replaced (inLowFirst armBranch)
  | .thumb => replaced thumbBranch
  | .sparc => replaced (inHighFirst sparcCall)
  | .arm64 => replaced (inLowFirst arm64Branch)

end DotMatrix.Archive.Xz
