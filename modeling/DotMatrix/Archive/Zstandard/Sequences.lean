import DotMatrix.Archive.Zstandard.StateCode

/-!
# Sequences

A sequence takes some literals and then repeats bytes that came before.  Its three numbers, how many
literals, how far back and how many bytes, are written each in a state code of its own, whose
symbols are ranges of numbers.

* `takeSequences` unpacks with the sequences of a block; the literals that are left come after them.
* `Distances.use` says which distance a number stands for: one of the last three, or a new one.
-/

set_option autoImplicit false

namespace DotMatrix.Archive.Zstandard

open Unpacker

/-! ## Distances -/

/-- The distances that were used last, the last one first. -/
structure Distances where
  first : Nat := 1
  second : Nat := 4
  third : Nat := 8

/-- The distance that a number stands for, and the distances with it in front.  Numbers from 4 on
stand for new distances, lower ones for those used before.  Without literals the last distance would
only go on with the sequence before, so each number then stands for the next, and 3 for one less
than the last distance. -/
def Distances.use (d : Distances) (literals number : Nat) : Nat × Distances :=
  if 3 < number then (number - 3, ⟨number - 3, d.first, d.second⟩)
  else
    match if literals = 0 then number + 1 else number with
    | 0 | 1 => (d.first, d)
    | 2 => (d.second, ⟨d.second, d.first, d.third⟩)
    | 3 => (d.third, ⟨d.third, d.first, d.second⟩)
    | _ => (d.first - 1, ⟨d.first - 1, d.first, d.second⟩)

/-! ## Numbers -/

/-- The numbers that symbols stand for. -/
inductive Field where
  | literals | distance | length
  deriving DecidableEq

namespace Field

/-- The ranges of numbers of literals and of lengths. -/
def table : Field → Array (Nat × Nat)
  | .literals => (ranges 0 (List.replicate 16 0 ++ [1, 1, 1, 1, 2, 2, 3, 3, 4, 6] ++
      List.range' 7 10)).toArray
  | .length => (ranges 3 (List.replicate 32 0 ++ [1, 1, 1, 1, 2, 2, 3, 3, 4, 4, 5] ++
      List.range' 7 10)).toArray
  | .distance => ((List.range 32).map fun bits ↦ (1 <<< bits, bits)).toArray

/-- The greatest number of states of a code, as a power of two. -/
def finest : Field → Nat
  | .literals => 9
  | .distance => 8
  | .length => 9

/-- The shares of symbols in the code that needs not be told. -/
def usualShares : Field → Nat × List Share
  | .literals => (6, [4, 3].map .states ++ List.replicate 11 (.states 2) ++
      [1, 1, 1].map .states ++ List.replicate 9 (.states 2) ++ [3, 2, 1, 1, 1, 1, 1].map .states ++
      List.replicate 4 .rare)
  | .distance => (5, List.replicate 6 (.states 1) ++ List.replicate 3 (.states 2) ++
      List.replicate 15 (.states 1) ++ List.replicate 5 .rare)
  | .length => (6, [1, 4, 3].map .states ++ List.replicate 6 (.states 2) ++
      List.replicate 37 (.states 1) ++ List.replicate 7 .rare)

/-- The code that needs not be told. -/
def usualCode (field : Field) : StateCode :=
  .ofShares field.usualShares.1 field.usualShares.2

/-- Read the number whose range a state tells. -/
def takeNumber (field : Field) (s : CodeState) : Unpacker Nat :=
  takeInRange .highFirst field.table s.symbol

end Field

/-! ## Codes -/

/-- The codes of the three numbers. -/
structure Codes where
  literals : StateCode
  distance : StateCode
  length : StateCode

/-- Read a code, in the form that a number says: the usual one, one of a single symbol, one that is
told, or the one that was used last. -/
def takeCode (field : Field) (last : Option StateCode) : Nat → Unpacker StateCode
  | 0 => return field.usualCode
  | 1 => return .single (← Unpacker.takeNumber .lowFirst 8)
  | 2 => takeStateCode field.table.size field.finest
  | _ =>
    match last with
    | none => throw .corrupt
    | some code => return code

/-- Read the codes of a block, behind the forms they come in. -/
def takeCodes (last : Option Codes) : Unpacker Codes := do
  if (← Unpacker.takeNumber .lowFirst 2) ≠ 0 then throw .corrupt
  let lengthForm ← Unpacker.takeNumber .lowFirst 2
  let distanceForm ← Unpacker.takeNumber .lowFirst 2
  let literalsForm ← Unpacker.takeNumber .lowFirst 2
  let literals ← takeCode .literals (last.map (·.literals)) literalsForm
  let distance ← takeCode .distance (last.map (·.distance)) distanceForm
  let length ← takeCode .length (last.map (·.length)) lengthForm
  return ⟨literals, distance, length⟩

/-! ## Sequences -/

/-- Read the number of sequences. -/
def takeSequenceCount : Unpacker Nat := do
  let first ← Unpacker.takeNumber .lowFirst 8
  if first < 128 then return first
  else if first < 255 then return 256 * (first - 128) + (← Unpacker.takeNumber .lowFirst 8)
  else return 0x7f00 + (← Unpacker.takeNumber .lowFirst 16)

/-- The states of the three codes. -/
structure CodeStates where
  literals : CodeState
  distance : CodeState
  length : CodeState

/-- Read the first states. -/
def Codes.first (codes : Codes) : Unpacker CodeStates := do
  let literals ← codes.literals.first
  let distance ← codes.distance.first
  let length ← codes.length.first
  return ⟨literals, distance, length⟩

/-- Read the next states. -/
def Codes.next (codes : Codes) (s : CodeStates) : Unpacker CodeStates := do
  let literals ← codes.literals.next s.literals
  let length ← codes.length.next s.length
  let distance ← codes.distance.next s.distance
  return ⟨literals, distance, length⟩

/-- Unpack with `count` sequences.  Of the literals, `used` have been taken already.  Yields how
many have been taken then, and the distances that were used last. -/
def unpackSequences (origin : Nat) (codes : Codes) (literals : ByteArray) :
    Nat → CodeStates → Nat → Distances → Unpacker (Nat × Distances)
  | 0, _, used, distances => return (used, distances)
  | count + 1, s, used, distances => do
    let number ← Field.distance.takeNumber s.distance
    let length ← Field.length.takeNumber s.length
    let taken ← Field.literals.takeNumber s.literals
    if literals.size < used + taken then throw .corrupt
    appendAll (literals.extract used (used + taken))
    let (distance, distances) := distances.use taken number
    repeatKnown origin distance length
    if count = 0 then return (used + taken, distances)
    unpackSequences origin codes literals count (← codes.next s) (used + taken) distances

/-- Read the first states, and unpack with `count` sequences. -/
def unpackAllSequences (origin : Nat) (codes : Codes) (literals : ByteArray) (count : Nat)
    (distances : Distances) : Unpacker (Nat × Distances) := do
  let result ← unpackSequences origin codes literals count (← codes.first) 0 distances
  if ← isAtEnd then return result else throw .corrupt

/-- Unpack with the sequences of a block and then with the literals that are left.  Yields the codes
and the distances that were used last.  Nothing before `origin` is repeated. -/
def takeSequences (origin : Nat) (literals : ByteArray) (last : Option Codes)
    (distances : Distances) : Unpacker (Option Codes × Distances) := do
  let count ← takeSequenceCount
  if count = 0 then
    appendAll literals
    return (last, distances)
  let codes ← takeCodes last
  let (used, distances) ←
    backwards (← takeAll) (unpackAllSequences origin codes literals count distances)
  appendAll (literals.extract used literals.size)
  return (some codes, distances)

end DotMatrix.Archive.Zstandard
