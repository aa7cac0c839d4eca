import DotMatrix.Archive.Zstandard.StateCode

/-!
# Literals

The literals of a block are the bytes that it does not repeat.  They stand there as they are, as a
single byte that comes several times, or in a prefix code, which is given by weights: one more
weight makes a code word one bit shorter, and symbols that do not occur have weight 0.

* `takeLiterals` reads them, and `LiteralCode.takeSymbol` reads one of them.
-/

set_option autoImplicit false

namespace DotMatrix.Archive.Zstandard

open Unpacker

/-! ## The code -/

/-- A prefix code whose longer code words come first.  For each length, from one bit on, it has the
first code word of that length as a number and the symbols of that length in order. -/
structure LiteralCode where
  levels : List (Nat × Array Nat)

namespace LiteralCode

/-- How much of the space of code words weights take up, in code words of weight 1. -/
def space (weights : List Nat) : Nat :=
  weights.foldl (fun total weight ↦ if weight = 0 then total else total + 1 <<< (weight - 1)) 0

/-- The first code word of some weight, and the symbols with that weight. -/
def level (weights : List Nat) (weight : Nat) : Nat × Array Nat :=
  (space (weights.filter (· < weight)) >>> (weight - 1),
    ((weights.zipIdx.filter (·.1 = weight)).map Prod.snd).toArray)

/-- The code with given weights.  The weight of one more symbol is not told: it takes up what is
left, so that has to be a power of two. -/
def ofWeights? (told : List Nat) : Option LiteralCode := do
  let used := space told
  guard (used ≠ 0)
  let longest := used.log2 + 1
  let left := 1 <<< longest - used
  guard (1 <<< left.log2 = left)
  let weights := told ++ [left.log2 + 1]
  return ⟨(List.range longest).map fun n ↦ level weights (longest - n)⟩

/-- Read the rest of a code word, of which `start` has been read. -/
def takeRest : List (Nat × Array Nat) → Nat → Unpacker Nat
  | [], _ => throw .corrupt
  | (first, symbols) :: longer, start => do
    let word := 2 * start + (← takeBit .highFirst)
    if first ≤ word then
      match symbols[word - first]? with
      | some symbol => return symbol
      | none => throw .corrupt
    else takeRest longer word

/-- Read a code word and yield its symbol. -/
def takeSymbol (code : LiteralCode) : Unpacker Nat :=
  takeRest code.levels 0

end LiteralCode

/-! ## Weights -/

/-- Read `count` weights of four bits. -/
def takePlainWeights : Nat → Unpacker (List Nat)
  | 0 => return []
  | count + 1 => do
    let weight ← takeNumber .highFirst 4
    return weight :: (← takePlainWeights count)

/-- The next state, unless too few bits are left for it. -/
def nextIfAny (code : StateCode) (s : CodeState) : Unpacker (Option CodeState) :=
  tryCatch (some <$> code.next s) fun halt ↦
    if halt = .exhausted then return none else throw halt

/-- Read at most `count` weights in a state code until the bits run out.  Two states take turns;
the last weight is that of the state whose turn it is then. -/
def takeCodedWeights (code : StateCode) : Nat → CodeState → CodeState → Unpacker (List Nat)
  | 0, _, _ => throw .corrupt
  | count + 1, s, other => do
    match ← nextIfAny code s with
    | none => return [s.symbol, other.symbol]
    | some next => return s.symbol :: (← takeCodedWeights code count other next)

/-- The greatest number of symbols of a code for literals. -/
def mostSymbols : Nat := 256

/-- Read the code for literals. -/
def takeLiteralCode : Unpacker LiteralCode := do
  let size ← takeNumber .lowFirst 8
  let weights ←
    if 128 ≤ size then
      let count := size - 127
      within (← takeBytes ((count + 1) / 2)) (takePlainWeights count)
    else
      within (← takeBytes size) do
        let code ← takeStateCode mostSymbols 6
        backwards (← takeAll) do
          let first ← code.first
          takeCodedWeights code mostSymbols first (← code.first)
  if mostSymbols ≤ weights.length then throw .corrupt
  match LiteralCode.ofWeights? weights with
  | some code => return code
  | none => throw .corrupt

/-! ## Bytes -/

/-- Read `count` literals behind some others.  Whether bits are left is only looked at if that
matters. -/
def takeCoded (code : LiteralCode) (endMatters : Bool) : Nat → ByteArray → Unpacker ByteArray
  | 0, known => do
    if endMatters && !(← isAtEnd) then throw .corrupt else return known
  | count + 1, known => do
    takeCoded code endMatters count (known.push (UInt8.ofNat (← code.takeSymbol)))

/-- Read `count` literals from bytes in which there is nothing else. -/
def takeStream (code : LiteralCode) (endMatters : Bool) (count : Nat) (known packed : ByteArray) :
    Unpacker ByteArray :=
  backwards packed (takeCoded code endMatters count known)

/-- Read `count` literals from four parts.  The sizes of the first three stand in front; each of
them has a quarter of the literals.  Bits may be left in long parts. -/
def takeStreams (code : LiteralCode) (count : Nat) : Unpacker ByteArray := do
  let first ← takeNumber .lowFirst 16
  let second ← takeNumber .lowFirst 16
  let third ← takeNumber .lowFirst 16
  let first ← takeBytes first
  let second ← takeBytes second
  let third ← takeBytes third
  let fourth ← takeAll
  let quarter := (count + 3) / 4
  let areLong := [first, second, third, fourth].all (8 ≤ ·.size)
  let endMatters := !areLong || 11 < code.levels.length || count ≤ 3 * quarter
  let known ← takeStream code endMatters quarter .empty first
  let known ← takeStream code endMatters quarter known second
  let known ← takeStream code endMatters quarter known third
  takeStream code endMatters (count - 3 * quarter) known fourth

/-- Read the number of literals that are not coded. -/
def takePlainCount : Unpacker Nat := do
  if (← takeBit .lowFirst) = 0 then takeNumber .lowFirst 5
  else if (← takeBit .lowFirst) = 0 then takeNumber .lowFirst 12
  else takeNumber .lowFirst 20

/-- Read literals in a code, and the code if it is not an earlier one. -/
def takeCodedLiterals (earlier : Option LiteralCode) : Unpacker (ByteArray × LiteralCode) := do
  let form ← takeNumber .lowFirst 2
  let width := [10, 10, 14, 18][form]?.getD 0
  let count ← takeNumber .lowFirst width
  let size ← takeNumber .lowFirst width
  within (← takeBytes size) do
    let code ←
      match earlier with
      | some code => pure code
      | none => takeLiteralCode
    let literals ←
      if form = 0 then takeStream code true count .empty (← takeAll)
      else takeStreams code count
    return (literals, code)

/-- Read the literals of a block.  Yields also the code for those of later blocks. -/
def takeLiterals (earlier : Option LiteralCode) :
    Unpacker (ByteArray × Option LiteralCode) := do
  match ← takeNumber .lowFirst 2 with
  | 0 =>
    let count ← takePlainCount
    return (← takeBytes count, earlier)
  | 1 =>
    let count ← takePlainCount
    let byte := UInt8.ofNat (← takeNumber .lowFirst 8)
    return (⟨Array.replicate count byte⟩, earlier)
  | 2 =>
    let (literals, code) ← takeCodedLiterals none
    return (literals, some code)
  | _ =>
    if earlier.isNone then throw .corrupt
    let (literals, code) ← takeCodedLiterals earlier
    return (literals, some code)

end DotMatrix.Archive.Zstandard
