import DotMatrix.Archive.Unpacking

/-!
# State codes

A state code gives each symbol a share of a number of states.  A state stands for its symbol and
tells how many bits to read for the next one; symbols with more states need fewer bits.

* `takeStateCode` reads a code, given by the shares of its symbols.
* `StateCode.first` reads the first state, and `StateCode.next` the next one.

What is written in state codes is read backwards: from the last byte to the first, the highest bit
of each byte first, behind a set bit that marks the end.  `backwards` turns the bytes around.
-/

set_option autoImplicit false

namespace DotMatrix.Archive.Zstandard

open Unpacker

/-! ## Reading backwards -/

/-- Read up to the first bit that is set, which is one of the next `count`. -/
def skipMark : Nat → Unpacker Unit
  | 0 => throw .corrupt
  | count + 1 => do
    if (← takeBit .highFirst) = 0 then skipMark count

/-- Read bytes from their end. -/
def backwards {α : Type} (packed : ByteArray) (x : Unpacker α) : Unpacker α :=
  within ⟨packed.data.reverse⟩ do
    skipMark 8
    x

/-! ## Codes -/

/-- How much of a code a symbol gets. -/
inductive Share where
  /-- Less than a state in the mean; there is one state all the same. -/
  | rare
  | states (count : Nat)
  deriving DecidableEq

/-- The number of states of a symbol. -/
def Share.size : Share → Nat
  | .rare => 1
  | .states count => count

/-- What a state stands for. -/
structure CodeState where
  symbol : Nat
  /-- The number of bits to read for the next state. -/
  bits : Nat
  /-- The least of the states that may be next. -/
  least : Nat

/-- A code with `2 ^ accuracy` states. -/
structure StateCode where
  accuracy : Nat
  states : Array CodeState

namespace StateCode

/-- The symbols with some states, each as often as it has states, in the order in which the states
are spread. -/
def spread (shares : List Share) : List Nat :=
  shares.zipIdx.flatMap fun
    | (.rare, _) => []
    | (.states count, symbol) => List.replicate count symbol

/-- The rare symbols. -/
def rares (shares : List Share) : List Nat :=
  (shares.zipIdx.filter (·.1 = .rare)).map Prod.snd

/-- The states in the order in which symbols are spread over them: those with the highest numbers
are for rare symbols, and each of the others is the same step behind the one before. -/
def places (accuracy rare : Nat) : List Nat :=
  let count := 1 <<< accuracy
  let step := count / 2 + count / 8 + 3
  let spreads := (List.range count).map (· * step % count)
  spreads.filter (· < count - rare) ++ ((List.range rare).map fun n ↦ count - 1 - n)

/-- The symbols of the states. -/
def symbols (accuracy : Nat) (shares : List Share) : Array Nat :=
  let rare := rares shares
  ((places accuracy rare.length).zip (spread shares ++ rare)).foldl
    (fun known (place, symbol) ↦ known.setIfInBounds place symbol)
    (Array.replicate (1 <<< accuracy) 0)

/-- What states stand for, given their symbols.  `counts` has the number of states of each symbol
plus the number of those that come before.  A symbol's states lead on to all states in turn, in
ranges whose sizes differ by one bit at most. -/
def numbered (accuracy : Nat) : List Nat → Array Nat → List CodeState
  | [], _ => []
  | symbol :: rest, counts =>
    let count := counts[symbol]?.getD 1
    let bits := accuracy - count.log2
    ⟨symbol, bits, count <<< bits - 1 <<< accuracy⟩ ::
      numbered accuracy rest (counts.setIfInBounds symbol (count + 1))

/-- The code with the given shares. -/
def ofShares (accuracy : Nat) (shares : List Share) : StateCode where
  accuracy := accuracy
  states := (numbered accuracy (symbols accuracy shares).toList
    (shares.map Share.size).toArray).toArray

/-- The code with a single symbol, which takes no bits. -/
def single (symbol : Nat) : StateCode := ⟨0, #[⟨symbol, 0, 0⟩]⟩

/-- A state by its number. -/
def state (code : StateCode) (number : Nat) : Unpacker CodeState :=
  match code.states[number]? with
  | some s => return s
  | none => throw .corrupt

/-- Read the first state. -/
def first (code : StateCode) : Unpacker CodeState := do
  code.state (← takeNumber .highFirst code.accuracy)

/-- Read the next state. -/
def next (code : StateCode) (s : CodeState) : Unpacker CodeState := do
  code.state (s.least + (← takeNumber .highFirst s.bits))

end StateCode

/-! ## Shares -/

/-- Read a number up to `greatest`.  Low numbers take one bit less where there are more bits than
needed. -/
def takeUpTo (greatest : Nat) : Unpacker Nat := do
  let width := greatest.log2
  let spare := 1 <<< (width + 1) - 1 - greatest
  let low ← takeNumber .lowFirst width
  if low < spare then return low
  if (← takeBit .lowFirst) = 0 then return low
  return low + 1 <<< width - spare

/-- Read how many more symbols have no share, in at most `parts` parts. -/
def takeAbsent : Nat → Unpacker Nat
  | 0 => throw .corrupt
  | parts + 1 => do
    let count ← takeNumber .lowFirst 2
    if count < 3 then return count
    return 3 + (← takeAbsent parts)

/-- Read shares, in at most `parts` parts, until `left` states are given out. -/
def takeShares : Nat → Nat → Unpacker (List Share)
  | _, 0 => return []
  | 0, _ => throw .corrupt
  | parts + 1, left => do
    match ← takeUpTo (left + 1) with
    | 0 => return .rare :: (← takeShares parts (left - 1))
    | 1 =>
      let absent ← takeAbsent parts
      return List.replicate (absent + 1) (.states 0) ++ (← takeShares parts left)
    | count + 2 => return .states (count + 1) :: (← takeShares parts (left - (count + 1)))

/-- Read a code of at most `symbols` symbols and `2 ^ finest` states. -/
def takeStateCode (symbols finest : Nat) : Unpacker StateCode := do
  let accuracy := 5 + (← takeNumber .lowFirst 4)
  if finest < accuracy then throw .corrupt
  let shares ← takeShares symbols (1 <<< accuracy)
  if symbols < shares.length then throw .corrupt
  skipToByte
  return .ofShares accuracy shares

end DotMatrix.Archive.Zstandard
