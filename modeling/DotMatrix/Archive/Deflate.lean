import DotMatrix.Archive.LenientCode
import DotMatrix.Archive.PrefixCode

/-!
# Deflated bytes

Deflated bytes come in blocks.  A block holds bytes as they are, or code words for bytes and for
repetitions of what came before; the prefix codes of a block are fixed or stand at its front.

* `Deflate.inflate` unpacks them.
* `Dialect.common` and `Dialect.wide` are the two ways to write the lengths and distances of
  repetitions: the wide one reaches back further, and takes codes as they come.
-/

set_option autoImplicit false

namespace DotMatrix.Archive.Deflate

open Unpacker

/-! ## Repetitions -/

/-- How lengths and distances are written: a symbol tells one of these ranges. -/
structure Dialect where
  lengths : Array (Nat × Nat)
  distances : Array (Nat × Nat)
  /-- Codes may have too few or too many code words. -/
  lenient : Bool

/-- The lengths that are the same in both dialects. -/
def commonLengths : List (Nat × Nat) :=
  ranges 3 ([0, 0, 0, 0] ++ [0, 1, 2, 3, 4, 5].flatMap fun bits ↦ List.replicate 4 bits)

/-- Distances in ranges of at most `widest` bits. -/
def distancesUpTo (widest : Nat) : List (Nat × Nat) :=
  ranges 1 ([0, 0] ++ (List.range (widest + 1)).flatMap fun bits ↦ [bits, bits])

/-- Lengths up to 258 and distances up to 32768. -/
def Dialect.common : Dialect where
  lengths := (commonLengths ++ [(258, 0)]).toArray
  distances := (distancesUpTo 13).toArray
  lenient := false

/-- Lengths up to 65538 and distances up to 65536. -/
def Dialect.wide : Dialect where
  lengths := (commonLengths ++ [(3, 16)]).toArray
  distances := (distancesUpTo 14).toArray
  lenient := true

/-! ## Codes -/

/-- A code of a block. -/
inductive Code where
  | strict (code : PrefixCode)
  | lenient (code : LenientCode)

/-- Read a code word and yield its symbol. -/
def Code.takeSymbol : Code → Unpacker Nat
  | .strict code => code.takeSymbol .lowFirst
  | .lenient code => code.takeSymbol

/-- The codes of a block. -/
structure Codes where
  /-- Symbols below 256 are bytes, 256 ends the block, and the others begin a repetition. -/
  literals : Code
  distances : Code

/-- The codes that a block need not spell out. -/
def Codes.fixed : Codes where
  literals := .strict <| .ofLengths 15 <|
    List.replicate 144 8 ++ List.replicate 112 9 ++ List.replicate 24 7 ++ List.replicate 8 8
  distances := .strict <| .ofLengths 15 (List.replicate 32 5)

/-- A code that a block may use: a complete one, or one with no more than one symbol.  A lenient
one may be any, but its code words of more than `short` bits must not clash. -/
def usable (dialect : Dialect) (short : Nat) (lengths : List Nat) : Unpacker Code :=
  if dialect.lenient then
    let code := LenientCode.ofLengths lengths
    if LenientCode.clashes short code.words then throw .corrupt else return .lenient code
  else
    let code := PrefixCode.ofLengths 15 lengths
    if code.isComplete || code.symbols.size ≤ 1 then return .strict code else throw .corrupt

/-- The order in which the code for lengths is spelled out. -/
def spellingOrder : List Nat :=
  [16, 17, 18, 0, 8, 7, 9, 6, 10, 5, 11, 4, 12, 3, 13, 2, 14, 1, 15]

/-- Read `count` numbers of three bits. -/
def takeSpelling : Nat → Unpacker (List Nat)
  | 0 => return []
  | count + 1 => do
    let length ← takeNumber .lowFirst 3
    return length :: (← takeSpelling count)

/-- Read a length and how often it comes in a row, after the lengths that are known. -/
def takeRun (code : Code) (known : Array Nat) : Unpacker (Nat × Nat) := do
  match ← code.takeSymbol with
  | 16 =>
    match known.back? with
    | none => throw .corrupt
    | some last => return (last, 3 + (← takeNumber .lowFirst 2))
  | 17 => return (0, 3 + (← takeNumber .lowFirst 3))
  | 18 => return (0, 11 + (← takeNumber .lowFirst 7))
  | length => return (length, 1)

/-- Read lengths, in at most `runs` runs, until there are `total`. -/
def takeLengths (code : Code) (total : Nat) : Nat → Array Nat → Unpacker (Array Nat)
  | 0, known => if known.size = total then return known else throw .corrupt
  | runs + 1, known =>
    if known.size = total then return known
    else if total < known.size then throw .corrupt
    else do
      let (length, count) ← takeRun code known
      takeLengths code total runs (known ++ Array.replicate count length)

/-- Read the codes at the front of a block. -/
def takeCodes (dialect : Dialect) : Unpacker Codes := do
  let literals := 257 + (← takeNumber .lowFirst 5)
  let distances := 1 + (← takeNumber .lowFirst 5)
  if !dialect.lenient &&
      (257 + dialect.lengths.size < literals || dialect.distances.size < distances) then
    throw .corrupt
  let spelling ← takeSpelling (4 + (← takeNumber .lowFirst 4))
  let code ← usable dialect 7 <|
    (List.range 19).map fun length ↦ spelling[spellingOrder.idxOf length]?.getD 0
  let total := literals + distances
  let lengths := (← takeLengths code total total #[]).toList
  if dialect.lenient && lengths[256]? = some 0 then throw .corrupt
  return ⟨← usable dialect 9 (lengths.take literals), ← usable dialect 7 (lengths.drop literals)⟩

/-! ## Blocks -/

/-- Unpack what a symbol stands for, and say whether it ends the block. -/
def unpackSymbol (dialect : Dialect) (codes : Codes) : Unpacker Bool := do
  let symbol ← codes.literals.takeSymbol
  if symbol < 256 then
    append (UInt8.ofNat symbol)
    return false
  else if symbol = 256 then return true
  else
    let length ← takeInRange .lowFirst dialect.lengths (symbol - 257)
    let range ← codes.distances.takeSymbol
    let distance ← takeInRange .lowFirst dialect.distances range
    repeatBack distance length
    return false

/-- Unpack a block of bytes that are kept as they are.  Their number is written twice, the second
time inverted. -/
def unpackStored : Unpacker Unit := do
  skipToByte
  let count ← takeNumber .lowFirst 16
  let inverted ← takeNumber .lowFirst 16
  if count + inverted ≠ 0xffff then throw .corrupt
  appendPacked count

/-- Unpack a block, and say whether it is the last. -/
def unpackBlock (dialect : Dialect) : Unpacker Bool := do
  let last ← takeNumber .lowFirst 1
  match ← takeNumber .lowFirst 2 with
  | 0 => unpackStored
  | 1 => repeatStep (unpackSymbol dialect .fixed)
  | 2 => repeatStep (unpackSymbol dialect (← takeCodes dialect))
  | _ => throw .corrupt
  return last = 1

/-- Unpack deflated bytes.  What they stand for may end before they say so. -/
def inflate (dialect : Dialect) : Unpacker Unit :=
  upToEnd (repeatStep (unpackBlock dialect))

end DotMatrix.Archive.Deflate
