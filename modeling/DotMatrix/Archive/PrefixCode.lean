import DotMatrix.Archive.Unpacking

/-!
# Prefix codes

A prefix code has a code word of some bits for each of its symbols, none of them the start of
another.  In its canonical form the lengths of the code words are all there is to know: shorter code
words come first, code words of one length are numbers in a row, and a symbol with a lower number
has the lower code word.

* `PrefixCode.ofLengths` is the code with given lengths.
* `PrefixCode.takeSymbol` reads a code word.
* `PrefixCode.isComplete` says that every sequence of bits starts with a code word.
-/

set_option autoImplicit false

namespace DotMatrix.Archive

/-- A canonical prefix code. -/
structure PrefixCode where
  /-- How many code words there are of one bit, of two, and so on. -/
  counts : List Nat
  /-- The symbols in the order of their code words. -/
  symbols : Array Nat

namespace PrefixCode

/-- The symbols whose code words have a length. -/
def symbolsOfLength (lengths : List Nat) (length : Nat) : List Nat :=
  (lengths.zipIdx.filter (·.1 = length)).map Prod.snd

/-- The code whose `n`-th symbol has a code word of `lengths[n]` bits, or none if that is 0.  No
code word is longer than `longest`. -/
def ofLengths (longest : Nat) (lengths : List Nat) : PrefixCode where
  counts := (List.range longest).map fun n ↦ lengths.count (n + 1)
  symbols := ((List.range longest).flatMap fun n ↦ symbolsOfLength lengths (n + 1)).toArray

/-- What is left of the space of code words of some length, in code words of that length, after the
shorter ones and these have been given out.  `room` is what the shorter ones have left. -/
def roomAfter : Nat → List Nat → Option Nat
  | room, [] => some room
  | room, count :: longer => if 2 * room < count then none else roomAfter (2 * room - count) longer

/-- Every sequence of bits starts with exactly one code word. -/
def isComplete (code : PrefixCode) : Bool :=
  roomAfter 1 code.counts = some 0

/-- Read the rest of a code word.  What has been read of it is `above` more than the first code word
of its length would be; `before` counts the symbols whose code words are shorter. -/
def takeRest (order : Unpacker.BitOrder) (symbols : Array Nat) :
    List Nat → Nat → Nat → Unpacker Nat
  | [], _, _ => throw .corrupt
  | count :: longer, above, before => do
    let place := 2 * above + (← Unpacker.takeBit order)
    if place < count then
      match symbols[before + place]? with
      | some symbol => return symbol
      | none => throw .corrupt
    else takeRest order symbols longer (place - count) (before + count)

/-- Read a code word and yield its symbol. -/
def takeSymbol (code : PrefixCode) (order : Unpacker.BitOrder) : Unpacker Nat :=
  takeRest order code.symbols code.counts 0 0

end PrefixCode

end DotMatrix.Archive
