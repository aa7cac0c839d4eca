import Mathlib.Data.Bool.Basic
import Mathlib.Data.Nat.Digits.Defs
import Mathlib.Tactic.LinearCombination
import DotMatrix.Proofs.Range.Processor

/-!
# Long addition and subtraction

Numbers of many bytes are added and subtracted column by column, the lowest byte first: the
accumulator takes a byte of one number, an operation combines it with the byte of the other, and the
carry flag goes from column to column.

* `columns` — this loop, for any way to combine two bytes.
* `Column` — what a way to combine two bytes has to do in one column, in any base and with either
  sign, and `Column.combines`, by induction on the columns, what it then does to whole numbers.
* `Combines.sum`, `Combines.difference` — the result and the last carry, read off that.
* `column_adc`, `column_sbc` — adding and subtracting are ways to combine whole bytes.
* `adders_agree` — so bytes, words and displacements are added alike.
-/

set_option autoImplicit false

namespace DotMatrix

/-! ## Numbers of many bytes -/

/-- A way for bytes to stand for digits. -/
structure Digits where
  base : Nat
  one_lt : 1 < base
  value : UInt8 → Nat
  /-- The bytes that stand for a digit. -/
  IsDigit : UInt8 → Prop
  lt : ∀ {b : UInt8}, IsDigit b → value b < base

namespace Digits

/-- The number that bytes stand for, the lowest first. -/
def number (d : Digits) (bytes : List UInt8) : Nat := Nat.ofDigits d.base (bytes.map d.value)

@[simp]
theorem number_nil (d : Digits) : d.number [] = 0 := rfl

@[simp]
theorem number_cons (d : Digits) (b : UInt8) (bytes : List UInt8) :
    d.number (b :: bytes) = d.value b + d.base * d.number bytes := by
  rw [number, List.map_cons, Nat.ofDigits_cons, number]

theorem number_lt {d : Digits} {bytes : List UInt8} (h : ∀ b ∈ bytes, d.IsDigit b) :
    d.number bytes < d.base ^ bytes.length := by
  have hlt := Nat.ofDigits_lt_base_pow_length (l := bytes.map d.value) d.one_lt fun n hn ↦ by
    obtain ⟨b, hb, rfl⟩ := List.mem_map.1 hn
    exact d.lt (h b hb)
  rwa [List.length_map] at hlt

/-- Every byte is a digit. -/
def whole : Digits where
  base := 256
  one_lt := by decide
  value := UInt8.toNat
  IsDigit _ := True
  lt _ := UInt8.toNat_lt _

end Digits

namespace Registers

/-! ## Columns -/

/-- The register file once the accumulator has taken the result of an operation. -/
def accumulate (operation : Registers → UInt8 × Registers) (r : Registers) : Registers :=
  { (operation r).2 with a := (operation r).1 }

/-- Combine two numbers byte by byte, the lowest byte first, and collect the bytes of the result. -/
def columns (combine : UInt8 → Registers → Registers) (r : Registers) :
    List UInt8 → List UInt8 → List UInt8 × Registers
  | x :: xs, y :: ys =>
    let next := combine y { r with a := x }
    let rest := columns combine next xs ys
    (next.a :: rest.1, rest.2)
  | _, _ => ([], r)

/-- What a combination of two bytes does in one column: with the carry that it leaves, it has added
the byte and the carry that it found, or taken them away. -/
structure Column (d : Digits) (sign : Int) (combine : UInt8 → Registers → Registers) : Prop where
  isDigit : ∀ {r : Registers} {y : UInt8}, d.IsDigit r.a → d.IsDigit y →
    d.IsDigit (combine y r).a
  balance : ∀ {r : Registers} {y : UInt8}, d.IsDigit r.a → d.IsDigit y →
    (d.value (combine y r).a : Int) + sign * (d.base * (combine y r).f.carry.toNat) =
      d.value r.a + sign * (d.value y + r.f.carry.toNat)

/-- What is left of two numbers of so many columns that were combined. -/
structure Combines (d : Digits) (sign : Int) (n x y : Nat) (carry : Bool)
    (o : List UInt8 × Registers) : Prop where
  length : o.1.length = n
  isDigit : ∀ b ∈ o.1, d.IsDigit b
  balance : (d.number o.1 : Int) + sign * (d.base ^ n * o.2.f.carry.toNat) =
    x + sign * (y + carry.toNat)

variable {d : Digits} {sign : Int} {combine : UInt8 → Registers → Registers} {n x y : Nat}
  {carry : Bool} {o : List UInt8 × Registers}

/-- What holds in each column holds of all of them. -/
theorem Column.combines (h : Column d sign combine) {xs ys : List UInt8} (hx : xs.length = n)
    (hy : ys.length = n) (hxs : ∀ b ∈ xs, d.IsDigit b) (hys : ∀ b ∈ ys, d.IsDigit b)
    (r : Registers) :
    Combines d sign n (d.number xs) (d.number ys) r.f.carry (columns combine r xs ys) := by
  induction n generalizing xs ys r with
  | zero =>
    obtain rfl := List.eq_nil_of_length_eq_zero hx
    obtain rfl := List.eq_nil_of_length_eq_zero hy
    exact ⟨rfl, fun b hb ↦ absurd hb List.not_mem_nil, by simp [columns]⟩
  | succ n ih =>
    obtain ⟨x, xs, rfl⟩ := List.exists_cons_of_length_eq_add_one hx
    obtain ⟨y, ys, rfl⟩ := List.exists_cons_of_length_eq_add_one hy
    rw [List.forall_mem_cons] at hxs hys
    let next := combine y { r with a := x }
    have hdigit : d.IsDigit next.a := h.isDigit (r := { r with a := x }) hxs.1 hys.1
    have hcolumn := h.balance (r := { r with a := x }) hxs.1 hys.1
    obtain ⟨hlength, hdigits, hbalance⟩ :=
      ih (Nat.succ.inj hx) (Nat.succ.inj hy) hxs.2 hys.2 next
    refine ⟨congrArg Nat.succ hlength, List.forall_mem_cons.2 ⟨hdigit, hdigits⟩, ?_⟩
    -- The carry that this column leaves is the one that the columns above it find.
    simp only [columns, Digits.number_cons]
    push_cast
    linear_combination hcolumn + (d.base : Int) * hbalance

/-- The balance in numbers below a bound: the columns hold less than `bound`, and what they do not
hold is the carry. -/
theorem Combines.exists_bound (h : Combines d sign n x y carry o) : ∃ bound : Nat,
    bound = d.base ^ n ∧ d.number o.1 < bound ∧
      (d.number o.1 : Int) + sign * (bound * o.2.f.carry.toNat) =
        x + sign * (y + carry.toNat) := by
  refine ⟨d.base ^ n, rfl, ?_, ?_⟩
  · have hlt := Digits.number_lt h.isDigit
    rwa [h.length] at hlt
  · rw [Nat.cast_pow]
    exact h.balance

/-- The sum, without what does not fit into the columns, and the carry if something does not. -/
theorem Combines.sum (h : Combines d 1 n x y carry o) :
    d.number o.1 = (x + y + carry.toNat) % d.base ^ n ∧
      (o.2.f.carry ↔ d.base ^ n ≤ x + y + carry.toNat) := by
  obtain ⟨bound, hbound, hlt, hbalance⟩ := h.exists_bound
  rw [← hbound]
  cases hcarry : o.2.f.carry with
  | false =>
    have hsum : x + y + carry.toNat = d.number o.1 := by
      simp only [hcarry, Bool.toNat_false] at hbalance
      omega
    rw [hsum, Nat.mod_eq_of_lt hlt]
    exact ⟨rfl, iff_of_false Bool.false_ne_true (Nat.not_le.2 hlt)⟩
  | true =>
    have hsum : x + y + carry.toNat = d.number o.1 + bound := by
      simp only [hcarry, Bool.toNat_true] at hbalance
      omega
    rw [hsum, Nat.add_mod_right, Nat.mod_eq_of_lt hlt]
    exact ⟨rfl, iff_of_true rfl (Nat.le_add_left bound _)⟩

/-- The difference, again without what does not fit, and the carry if it is negative. -/
theorem Combines.difference (h : Combines d (-1) n x y carry o) :
    (d.number o.1 : Int) = ((x : Int) - y - carry.toNat) % (d.base ^ n : Nat) ∧
      (o.2.f.carry ↔ x < y + carry.toNat) := by
  obtain ⟨bound, hbound, hlt, hbalance⟩ := h.exists_bound
  rw [← hbound]
  have hmod : (d.number o.1 : Int) % bound = d.number o.1 :=
    Int.emod_eq_of_lt (Int.natCast_nonneg _) (Int.ofNat_lt.2 hlt)
  cases hcarry : o.2.f.carry with
  | false =>
    have hdifference : (x : Int) - y - carry.toNat = d.number o.1 := by
      simp only [hcarry, Bool.toNat_false] at hbalance
      omega
    rw [hdifference, hmod]
    exact ⟨rfl, iff_of_false Bool.false_ne_true (by omega)⟩
  | true =>
    have hdifference : (x : Int) - y - carry.toNat = d.number o.1 - bound := by
      simp only [hcarry, Bool.toNat_true] at hbalance
      omega
    rw [hdifference, Int.sub_emod_right, hmod]
    exact ⟨rfl, iff_of_true rfl (by omega)⟩

/-! ## Bytes -/

/-- A carry out of a sum that is less than twice as much as fits. -/
theorem toNat_carry {n limit : Nat} (h : n < 2 * limit) :
    (decide (limit ≤ n)).toNat = n / limit := by
  by_cases hle : limit ≤ n
  · rw [decide_eq_true hle, Bool.toNat_true]
    exact (Nat.div_eq_of_lt_le (by omega) (by omega)).symm
  · rw [decide_eq_false hle, Nat.div_eq_of_lt (Nat.lt_of_not_le hle)]
    rfl

/-- A borrow is a difference that is negative, but not by more than the limit. -/
theorem toNat_borrow (limit : Nat) {x y : Nat} (h : y ≤ x + limit) (hx : x < limit) :
    ((decide (x < y)).toNat : Int) = -(((x : Int) - y) / limit) := by
  by_cases hlt : x < y
  · have hdiv : ((x : Int) - y) / limit = -1 := by
      rw [Int.ediv_eq_iff_of_pos (by omega)]
      omega
    rw [decide_eq_true hlt, hdiv]
    rfl
  · have hdiv : ((x : Int) - y) / limit = 0 := Int.ediv_eq_zero_of_lt (by omega) (by omega)
    rw [decide_eq_false hlt, hdiv]
    rfl

/-- The sum of the accumulator, a byte and a carry: what fits into a byte, and the carries. -/
theorem addWithCarry_counts (r : Registers) (x : UInt8) (carry : Bool) :
    (r.addWithCarry x carry).1.toNat = (r.a.toNat + x.toNat + carry.toNat) % 256 ∧
      (r.addWithCarry x carry).2.f.subtract = false ∧
      (r.addWithCarry x carry).2.f.halfCarry.toNat =
        (r.a.toNat % 16 + x.toNat % 16 + carry.toNat) / 16 ∧
      (r.addWithCarry x carry).2.f.carry.toNat =
        (r.a.toNat + x.toNat + carry.toNat) / 256 := by
  have ha := r.a.toNat_lt
  have hx := x.toNat_lt
  have hc := Bool.toNat_le carry
  refine ⟨?_, rfl, toNat_carry (by omega), toNat_carry (by omega)⟩
  have hcarry : (if carry then 1 else 0 : UInt8).toNat = carry.toNat := by cases carry <;> rfl
  rw [addWithCarry, UInt8.toNat_add, UInt8.toNat_add, hcarry, Nat.mod_add_mod]

/-- The difference of the accumulator and a byte and a borrow, in the same way. -/
theorem subWithBorrow_counts (r : Registers) (x : UInt8) (borrow : Bool) :
    ((r.subWithBorrow x borrow).1.toNat : Int) =
        ((r.a.toNat : Int) - (x.toNat + borrow.toNat : Nat)) % 256 ∧
      (r.subWithBorrow x borrow).2.f.subtract = true ∧
      ((r.subWithBorrow x borrow).2.f.halfCarry.toNat : Int) =
        -((((r.a.toNat % 16 : Nat) : Int) - (x.toNat % 16 + borrow.toNat : Nat)) / 16) ∧
      ((r.subWithBorrow x borrow).2.f.carry.toNat : Int) =
        -(((r.a.toNat : Int) - (x.toNat + borrow.toNat : Nat)) / 256) := by
  have ha := r.a.toNat_lt
  have hx := x.toNat_lt
  have hb := Bool.toNat_le borrow
  refine ⟨?_, rfl, toNat_borrow 16 (by omega) (by omega),
    toNat_borrow 256 (by omega) (by omega)⟩
  have hborrow : (if borrow then 1 else 0 : UInt8).toNat = borrow.toNat := by
    cases borrow <;> rfl
  rw [subWithBorrow, UInt8.toNat_sub, UInt8.toNat_sub, hborrow]
  omega

/-- Adding with the carry is a way to combine whole bytes. -/
theorem column_adc : Column Digits.whole 1 fun y ↦ accumulate (·.adc y) where
  isDigit _ _ := trivial
  balance {r y} _ _ := by
    obtain ⟨hsum, -, -, hcarry⟩ := r.addWithCarry_counts y r.f.carry
    show ((r.addWithCarry y r.f.carry).1.toNat : Int) +
      1 * (256 * (r.addWithCarry y r.f.carry).2.f.carry.toNat) =
        r.a.toNat + 1 * (y.toNat + r.f.carry.toNat)
    omega

/-- Subtracting with the carry is one with the other sign. -/
theorem column_sbc : Column Digits.whole (-1) fun y ↦ accumulate (·.sbc y) where
  isDigit _ _ := trivial
  balance {r y} _ _ := by
    obtain ⟨hdifference, -, -, hcarry⟩ := r.subWithBorrow_counts y r.f.carry
    show ((r.subWithBorrow y r.f.carry).1.toNat : Int) +
      -1 * (256 * (r.subWithBorrow y r.f.carry).2.f.carry.toNat) =
        r.a.toNat + -1 * (y.toNat + r.f.carry.toNat)
    omega

/-! ## Words and displacements -/

/-- A word added to `hl` byte by byte: the low bytes, then the high bytes with their carry. -/
def addHlByBytes (r : Registers) (x : UInt16) : UInt16 × Registers :=
  let low := { r with a := r.l }.add (lowByte x)
  let high := { low.2 with a := r.h }.adc (highByte x)
  (wordOfBytes high.1 low.1, high.2)

/-- What is left of it, in numbers. -/
theorem addHlByBytes_counts (r : Registers) (x : UInt16) :
    (r.addHlByBytes x).1.toNat = ((r.pair .hl).toNat + x.toNat) % 65536 ∧
      (r.addHlByBytes x).2.f.halfCarry.toNat =
        ((r.pair .hl).toNat % 4096 + x.toNat % 4096) / 4096 ∧
      (r.addHlByBytes x).2.f.carry.toNat = ((r.pair .hl).toNat + x.toNat) / 65536 := by
  let low := { r with a := r.l }.add (lowByte x)
  obtain ⟨hlow, -, -, hcarried⟩ := addWithCarry_counts { r with a := r.l } (lowByte x) false
  obtain ⟨hhigh, -, hhalf, hcarry⟩ :=
    addWithCarry_counts { low.2 with a := r.h } (highByte x) low.2.f.carry
  have hhl : (r.pair .hl).toNat = r.h.toNat * 256 + r.l.toNat := toNat_wordOfBytes r.h r.l
  have hx : x.toNat = (highByte x).toNat * 256 + (lowByte x).toNat := by
    rw [← toNat_wordOfBytes, wordOfBytes_highByte_lowByte]
  have hl := r.l.toNat_lt
  have hxl := (lowByte x).toNat_lt
  -- The carry out of the low bytes is the one that the high bytes find.
  have hbit : low.2.f.carry.toNat = (r.l.toNat + (lowByte x).toNat) / 256 := hcarried
  simp only [hbit] at hhigh hhalf hcarry
  refine ⟨?_, ?_, ?_⟩
  · refine (toNat_wordOfBytes _ _).trans ?_
    refine (congrArg₂ (fun high low ↦ high * 256 + low) hhigh hlow).trans ?_
    dsimp only [Bool.toNat_false]
    omega
  · exact hhalf.trans (by omega)
  · exact hcarry.trans (by omega)

/-- A word is added to `hl` as its bytes are, except that the zero flag stays as it is. -/
theorem addHl_eq (r : Registers) (x : UInt16) :
    r.addHl x = ((r.addHlByBytes x).1, { r with f :=
      ⟨r.f.zero, false, (r.addHlByBytes x).2.f.halfCarry, (r.addHlByBytes x).2.f.carry⟩ }) := by
  obtain ⟨hsum, hhalf, hcarry⟩ := r.addHlByBytes_counts x
  have hhl := (r.pair .hl).toNat_lt
  have hx := x.toNat_lt
  have hflag := Function.LeftInverse.injective Bool.ofNat_toNat
  have hword : r.pair .hl + x = (r.addHlByBytes x).1 := by
    rw [← UInt16.toNat_inj, UInt16.toNat_add, hsum]
  have hhalf' : decide ((r.pair .hl).toNat % 0x1000 + x.toNat % 0x1000 > 0x0fff) =
      (r.addHlByBytes x).2.f.halfCarry :=
    hflag ((toNat_carry (by omega)).trans hhalf.symm)
  have hcarry' : decide ((r.pair .hl).toNat + x.toNat > 0xffff) =
      (r.addHlByBytes x).2.f.carry :=
    hflag ((toNat_carry (by omega)).trans hcarry.symm)
  rw [addHl, hword, hhalf', hcarry']

theorem toNat_extendSign (b : UInt8) : ((extendSign b).toNat : Int) = signedValue b % 65536 := by
  revert b
  exact forall_byte (by decide +kernel)

/-- A displacement is added as a signed number, with the carries of the sum of the low bytes. -/
theorem addSp_eq (r : Registers) (e : UInt8) :
    ((r.addSp e).1.toNat : Int) = (r.sp.toNat + signedValue e) % 65536 ∧
    (r.addSp e).2 = { r with f := ⟨false, false,
      ({ r with a := lowByte r.sp }.add e).2.f.halfCarry,
      ({ r with a := lowByte r.sp }.add e).2.f.carry⟩ } := by
  have hlow := toNat_lowByte r.sp
  constructor
  · rw [addSp, UInt16.toNat_add, Int.natCast_mod, Int.natCast_add, toNat_extendSign]
    exact Int.add_emod_emod _ _ _
  · have hhalf : decide (r.sp.toNat % 0x10 + e.toNat % 0x10 > 0x0f) =
        decide ((lowByte r.sp).toNat % 16 + e.toNat % 16 + false.toNat > 0x0f) := by
      rw [hlow, Bool.toNat_false, Nat.add_zero, Nat.mod_mod_of_dvd _ (by decide : 16 ∣ 256)]
    have hcarry : decide (r.sp.toNat % 0x100 + e.toNat > 0xff) =
        decide ((lowByte r.sp).toNat + e.toNat + false.toNat > 0xff) := by
      rw [hlow, Bool.toNat_false, Nat.add_zero]
    rw [addSp, hhalf, hcarry]
    rfl

/-- **The adders agree at every width.**  Numbers of any length are added and subtracted exactly,
up to what fits into their bytes, by carrying from byte to byte; the last carry says that the sum
does not fit, or that the difference is negative.  Adding a word to `hl` yields the word, the half
carry and the carry that adding its low byte and then its high byte yields; it clears the
subtraction flag and keeps the zero flag.  Adding a displacement to the stack pointer adds a signed
number, with the half carry and the carry of the sum of the low bytes and the other flags clear. -/
theorem adders_agree :
    (∀ (n : Nat) (xs ys : Vector UInt8 n) (r : Registers),
      let number := Digits.whole.number
      let sum := columns (fun y ↦ accumulate (·.adc y)) r xs.toList ys.toList
      let difference := columns (fun y ↦ accumulate (·.sbc y)) r xs.toList ys.toList
      (sum.1.length = n ∧
        number sum.1 = (number xs.toList + number ys.toList + r.f.carry.toNat) % 256 ^ n ∧
        (sum.2.f.carry ↔ 256 ^ n ≤ number xs.toList + number ys.toList + r.f.carry.toNat)) ∧
      difference.1.length = n ∧
        (number difference.1 : Int) =
          ((number xs.toList : Int) - number ys.toList - r.f.carry.toNat) % (256 ^ n : Nat) ∧
        (difference.2.f.carry ↔ number xs.toList < number ys.toList + r.f.carry.toNat)) ∧
    (∀ (r : Registers) (x : UInt16), r.addHl x = ((r.addHlByBytes x).1, { r with f :=
      ⟨r.f.zero, false, (r.addHlByBytes x).2.f.halfCarry, (r.addHlByBytes x).2.f.carry⟩ })) ∧
    ∀ (r : Registers) (e : UInt8),
      ((r.addSp e).1.toNat : Int) = (r.sp.toNat + signedValue e) % 65536 ∧
      (r.addSp e).2 = { r with f := ⟨false, false,
        ({ r with a := lowByte r.sp }.add e).2.f.halfCarry,
        ({ r with a := lowByte r.sp }.add e).2.f.carry⟩ } := by
  refine ⟨fun n xs ys r ↦ ?_, addHl_eq, addSp_eq⟩
  have hsum := column_adc.combines xs.length_toList ys.length_toList (fun _ _ ↦ trivial)
    (fun _ _ ↦ trivial) r
  have hdifference := column_sbc.combines xs.length_toList ys.length_toList (fun _ _ ↦ trivial)
    (fun _ _ ↦ trivial) r
  exact ⟨⟨hsum.length, hsum.sum⟩, hdifference.length, hdifference.difference⟩

end Registers

end DotMatrix
