import DotMatrix.Archive.Unpacking

/-!
# Lenient prefix codes

Lengths of code words need not fit each other.  If the words are too short, there is no room for all
of them, and some are the start of others; if they are too long, bits are left that start none.  A
lenient code reads a symbol in either case.

* `LenientCode.ofLengths` gives out the canonical code words for any lengths.
* `LenientCode.meaning` is what bits stand for: of the symbols whose code words they start with, the
  highest, and symbol 0 if there is none.
* `LenientCode.takeSymbol` reads a symbol, and as many bits as its code word should have.
-/

set_option autoImplicit false

namespace DotMatrix.Archive

/-- The code word of a symbol. -/
structure CodeWord where
  symbol : Nat
  length : Nat
  /-- Its bits as a number, the first one lowest. -/
  bits : Nat

/-- Whether some bits, as a number, start with a code word. -/
def CodeWord.starts (word : CodeWord) (bits : Nat) : Bool :=
  bits % 1 <<< word.length = word.bits

/-- A code that may have too few or too many code words. -/
structure LenientCode where
  /-- The code words, those of higher symbols first. -/
  words : List CodeWord
  /-- The length of the code word of symbol 0. -/
  lengthOfZero : Nat

namespace LenientCode

/-- The longest code word. -/
def longest : Nat := 15

/-- The lowest `width` bits of a number in the opposite order. -/
def flipped : Nat → Nat → Nat
  | 0, _ => 0
  | width + 1, n => (n % 2) <<< width + flipped width (n / 2)

theorem flipped_lt (width n : Nat) : flipped width n < 1 <<< width := by
  induction width generalizing n with
  | zero => exact Nat.zero_lt_one
  | succ width ih =>
    have hrest := ih (n / 2)
    have hbit : n % 2 < 2 := Nat.mod_lt n (by decide)
    rw [Nat.shiftLeft_eq, Nat.one_mul] at hrest
    rw [flipped, Nat.shiftLeft_eq, Nat.shiftLeft_eq, Nat.one_mul, Nat.pow_succ, Nat.mul_comm]
    have hhigh : 2 ^ width * (n % 2) ≤ 2 ^ width * 1 :=
      Nat.mul_le_mul_left (2 ^ width) (Nat.le_of_lt_succ hbit)
    omega

/-- The number of the first code word of some length. -/
def firstNumber (lengths : List Nat) : Nat → Nat
  | 0 => 0
  | 1 => 0
  | length + 2 => 2 * (firstNumber lengths (length + 1) + lengths.count (length + 1))

/-- Give out code words to symbols from `symbol` on, behind those that have them.  `numbers` holds
the number of the next code word of each length, of which the low bits count. -/
def giveOut : List Nat → Nat → Array Nat → List CodeWord → List CodeWord
  | [], _, _, words => words
  | 0 :: rest, symbol, numbers, words => giveOut rest (symbol + 1) numbers words
  | length :: rest, symbol, numbers, words =>
    let number := numbers[length]?.getD 0
    let word : CodeWord := ⟨symbol, length, flipped length number⟩
    giveOut rest (symbol + 1) (numbers.setIfInBounds length (number + 1)) (word :: words)

/-- The code whose `n`-th symbol has a code word of `lengths[n]` bits, or none if that is 0. -/
def ofLengths (lengths : List Nat) : LenientCode where
  words := giveOut lengths 0 ((List.range (longest + 1)).map (firstNumber lengths)).toArray []
  lengthOfZero := lengths.headD 0

/-- Whether a long code word, one of more than `short` bits, has a part of its bits in common with a
shorter one that was given out before it.  Symbol 0 gives way to others. -/
def clashes (short : Nat) : List CodeWord → Bool
  | [] => false
  | word :: earlier =>
    (short < word.length &&
      earlier.any fun e ↦ e.symbol ≠ 0 && e.length < word.length && e.starts word.bits) ||
    clashes short earlier

/-- The symbol that bits stand for, and the number of them that it takes. -/
def meaning (code : LenientCode) (bits : Nat) : Nat × Nat :=
  match code.words.find? (·.starts bits) with
  | some word => (word.symbol, word.length)
  | none => (0, code.lengthOfZero)

/-- Read a symbol. -/
def takeSymbol (code : LenientCode) : Unpacker Nat := do
  if ← Unpacker.isAtEnd then throw .exhausted
  let s ← get
  let (symbol, length) := code.meaning (Unpacker.ahead s.packed s.position longest)
  if length = 0 then throw .corrupt
  if 8 * s.packed.size < s.position + length then throw .exhausted
  set { s with position := s.position + length }
  return symbol

theorem meaning_of_words_eq_nil {code : LenientCode} (h : code.words = []) (bits : Nat) :
    code.meaning bits = (0, code.lengthOfZero) := by
  rw [meaning, h]
  rfl

end LenientCode

end DotMatrix.Archive
