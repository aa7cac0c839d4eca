import DotMatrix.Proofs.Processor.Columns

/-!
# Long decimal arithmetic

A byte holds two decimal digits, one in each half.  Such bytes are added or subtracted as if they
were plain ones, and the accumulator is then corrected: the flags that the operation left say which
half went past its digits, and after an addition a half can also show it by holding no digit.

* `IsPacked`, `Digits.packed` — bytes as two decimal digits each.
* `daa_of_add`, `daa_of_subtract` — the correction, in numbers.
* `column_decimalSum`, `column_decimalDifference` — so an operation with its correction adds or
  subtracts two digits, and the carry counts hundreds.
* `decimal_exact` — so numbers of any length are added and subtracted in decimal.
-/

set_option autoImplicit false

namespace DotMatrix

/-- Both halves of a byte hold a decimal digit. -/
def IsPacked (b : UInt8) : Prop := b.toNat / 16 < 10 ∧ b.toNat % 16 < 10

instance (b : UInt8) : Decidable (IsPacked b) := inferInstanceAs (Decidable (_ ∧ _))

/-- A byte as two decimal digits. -/
def Digits.packed : Digits where
  base := 100
  one_lt := by decide
  value b := b.toNat / 16 * 10 + b.toNat % 16
  IsDigit := IsPacked
  lt h := by
    obtain ⟨hhigh, hlow⟩ := h
    omega

namespace Registers

/-! ## The correction -/

/-- A number added to a byte if it is to be. -/
theorem toNat_raised (x y : UInt8) (due : Bool) :
    (if !due then x else x + y).toNat = (x.toNat + y.toNat * due.toNat) % 256 := by
  cases due with
  | false => exact (Nat.mod_eq_of_lt x.toNat_lt).symm
  | true => exact (UInt8.toNat_add x y).trans (by rw [Bool.toNat_true, Nat.mul_one])

/-- A number taken from a byte if it is to be. -/
theorem toNat_lowered (x y : UInt8) (due : Bool) :
    ((if !due then x else x - y).toNat : Int) = ((x.toNat : Int) - y.toNat * due.toNat) % 256 := by
  have hx := x.toNat_lt
  have hy := y.toNat_lt
  cases due with
  | false => exact (Int.emod_eq_of_lt (by simp) (by simp; omega)).symm
  | true =>
    show ((x - y).toNat : Int) = (x.toNat - y.toNat * (1 : Nat)) % 256
    rw [UInt8.toNat_sub]
    omega

/-- After an addition the upper half is corrected if it carried or is past its digits, and the lower
half in the same way. -/
theorem daa_of_add {r : Registers} (h : r.f.subtract = false) {high low : Bool}
    (hhigh : high = (r.f.carry || decide (0x99 < r.a.toNat)))
    (hlow : low = (r.f.halfCarry || decide (9 < r.a.toNat % 16))) :
    r.daa.1.toNat = (r.a.toNat + 96 * high.toNat + 6 * low.toNat) % 256 ∧
      r.daa.2.f.carry = high := by
  have hraised : (r.f.carry || (!false && decide (r.a > 0x99))) = high := hhigh.symm
  let a : UInt8 := if !high then r.a else r.a + 0x60
  have ha : a.toNat = (r.a.toNat + 96 * high.toNat) % 256 := toNat_raised r.a 0x60 high
  -- The upper correction leaves the lower half alone.
  have hnibble : decide (a &&& 0x0f > 0x09) = decide (9 < r.a.toNat % 16) := by
    refine decide_eq_decide.2 (UInt8.lt_iff_toNat_lt.trans ?_)
    have hnine : (0x09 : UInt8).toNat = 9 := rfl
    rw [toNat_and_nibble, ha, hnine]
    omega
  have hlowered : (r.f.halfCarry || (!false && decide (a &&& 0x0f > 0x09))) = low := by
    rw [hnibble, hlow]
    rfl
  have hdaa : r.daa = (if !low then a else a + 0x06, { r with f :=
      ⟨(if !low then a else a + 0x06) = 0, false, false, high⟩ }) := by
    simp only [daa, h, hraised, Bool.false_eq_true, if_false]
    rw [hlowered]
  have hsix : (0x06 : UInt8).toNat = 6 := rfl
  rw [hdaa, toNat_raised, ha, hsix, Nat.mod_add_mod]
  exact ⟨rfl, rfl⟩

/-- After a subtraction a half is corrected if it borrowed. -/
theorem daa_of_subtract {r : Registers} (h : r.f.subtract = true) :
    (r.daa.1.toNat : Int) =
        ((r.a.toNat : Int) - 96 * r.f.carry.toNat - 6 * r.f.halfCarry.toNat) % 256 ∧
      r.daa.2.f.carry = r.f.carry := by
  let a : UInt8 := if !r.f.carry then r.a else r.a - 0x60
  have ha : (a.toNat : Int) = ((r.a.toNat : Int) - 96 * r.f.carry.toNat) % 256 :=
    toNat_lowered r.a 0x60 r.f.carry
  have hdaa : r.daa = (if !r.f.halfCarry then a else a - 0x06, { r with f :=
      ⟨(if !r.f.halfCarry then a else a - 0x06) = 0, true, false, r.f.carry⟩ }) := by
    simp only [daa, h, Bool.not_true, Bool.false_and, Bool.or_false, if_true, a]
  have hsix : (0x06 : UInt8).toNat = 6 := rfl
  rw [hdaa, toNat_lowered, ha, hsix, Int.emod_sub_emod]
  exact ⟨rfl, rfl⟩

/-! ## Two digits -/

/-- Add a byte and the carry to the accumulator, in decimal. -/
def decimalSum (y : UInt8) (r : Registers) : Registers :=
  accumulate daa (accumulate (·.adc y) r)

/-- Subtract a byte and the carry from the accumulator, in decimal. -/
def decimalDifference (y : UInt8) (r : Registers) : Registers :=
  accumulate daa (accumulate (·.sbc y) r)

theorem decimalSum_counts {r : Registers} {y : UInt8} (hr : IsPacked r.a) (hy : IsPacked y) :
    IsPacked (decimalSum y r).a ∧
      Digits.packed.value (decimalSum y r).a + 100 * (decimalSum y r).f.carry.toNat =
        Digits.packed.value r.a + Digits.packed.value y + r.f.carry.toNat := by
  obtain ⟨hsum, hsubtract, hhalf, hcarry⟩ := r.addWithCarry_counts y r.f.carry
  obtain ⟨hrhigh, hrlow⟩ := hr
  obtain ⟨hyhigh, hylow⟩ := hy
  have hc := Bool.toNat_le r.f.carry
  let added := accumulate (·.adc y) r
  -- A correction is due just when the digits make ten, or the bytes what a hundred is made of.
  let high := decide (0x9a ≤ r.a.toNat + y.toNat + r.f.carry.toNat)
  let low := decide (10 ≤ r.a.toNat % 16 + y.toNat % 16 + r.f.carry.toNat)
  have hhigh : high = (added.f.carry || decide (0x99 < added.a.toNat)) := by
    show high = ((r.addWithCarry y r.f.carry).2.f.carry ||
      decide (0x99 < (r.addWithCarry y r.f.carry).1.toNat))
    rw [Bool.eq_iff_iff, Bool.or_eq_true, decide_eq_true_iff, decide_eq_true_iff, hsum,
      ← Bool.toNat_eq_one, hcarry]
    omega
  have hlow : low = (added.f.halfCarry || decide (9 < added.a.toNat % 16)) := by
    show low = ((r.addWithCarry y r.f.carry).2.f.halfCarry ||
      decide (9 < (r.addWithCarry y r.f.carry).1.toNat % 16))
    rw [Bool.eq_iff_iff, Bool.or_eq_true, decide_eq_true_iff, decide_eq_true_iff, hsum,
      ← Bool.toNat_eq_one, hhalf]
    omega
  obtain ⟨hcorrected, hlast⟩ := daa_of_add (r := added) hsubtract hhigh hlow
  have hresult : (decimalSum y r).a.toNat =
    ((r.addWithCarry y r.f.carry).1.toNat + 96 * high.toNat + 6 * low.toNat) % 256 := hcorrected
  have hflag : (decimalSum y r).f.carry = high := hlast
  rw [hsum] at hresult
  rw [hflag]
  simp only [IsPacked, Digits.packed]
  cases hh : high <;> cases hl : low <;>
    simp only [hh, hl, Bool.toNat_false, Bool.toNat_true] at hresult ⊢ <;>
    simp only [high, low, decide_eq_true_eq, decide_eq_false_iff_not] at hh hl <;> omega

theorem decimalDifference_counts {r : Registers} {y : UInt8} (hr : IsPacked r.a)
    (hy : IsPacked y) :
    IsPacked (decimalDifference y r).a ∧
      (Digits.packed.value (decimalDifference y r).a : Int) -
          100 * (decimalDifference y r).f.carry.toNat =
        Digits.packed.value r.a - Digits.packed.value y - r.f.carry.toNat := by
  obtain ⟨hdifference, hsubtract, hhalf, hcarry⟩ := r.subWithBorrow_counts y r.f.carry
  obtain ⟨hrhigh, hrlow⟩ := hr
  obtain ⟨hyhigh, hylow⟩ := hy
  have hc := Bool.toNat_le r.f.carry
  let subtracted := accumulate (·.sbc y) r
  obtain ⟨hcorrected, hlast⟩ := daa_of_subtract (r := subtracted) hsubtract
  have hresult : ((decimalDifference y r).a.toNat : Int) =
    (((r.subWithBorrow y r.f.carry).1.toNat : Int) -
      96 * (r.subWithBorrow y r.f.carry).2.f.carry.toNat -
      6 * (r.subWithBorrow y r.f.carry).2.f.halfCarry.toNat) % 256 := hcorrected
  have hflag : (decimalDifference y r).f.carry = (r.subWithBorrow y r.f.carry).2.f.carry := hlast
  rw [hdifference] at hresult
  rw [hflag]
  simp only [IsPacked, Digits.packed]
  cases hh : (r.subWithBorrow y r.f.carry).2.f.halfCarry <;>
    cases hb : (r.subWithBorrow y r.f.carry).2.f.carry <;>
      simp only [hh, hb, Bool.toNat_false, Bool.toNat_true] at hhalf hcarry hresult ⊢ <;> omega

theorem column_decimalSum : Column Digits.packed 1 decimalSum where
  isDigit hr hy := (decimalSum_counts hr hy).1
  balance {r y} hr hy := by
    have hcounts := (decimalSum_counts hr hy).2
    rw [one_mul, one_mul]
    exact_mod_cast hcounts.trans (Nat.add_assoc _ _ _)

theorem column_decimalDifference : Column Digits.packed (-1) decimalDifference where
  isDigit hr hy := (decimalDifference_counts hr hy).1
  balance {r y} hr hy := by
    have hcounts := (decimalDifference_counts hr hy).2
    have hbase : (Digits.packed.base : Int) = 100 := rfl
    rw [hbase]
    omega

/-! ## Numbers of any length -/

/-- **Decimal arithmetic is exact at every length.**  Of two numbers whose bytes hold two decimal
digits each, adding byte by byte with the correction after every byte leaves such a number again: it
is the sum of both and the first carry, up to what fits, and the last carry says that it does not
fit.  Subtracting in the same way leaves the difference, and the last carry says that it is
negative. -/
theorem decimal_exact {n : Nat} {xs ys : Vector UInt8 n} (hx : ∀ b ∈ xs.toList, IsPacked b)
    (hy : ∀ b ∈ ys.toList, IsPacked b) (r : Registers) :
    let number := Digits.packed.number
    let sum := columns (fun y r ↦ accumulate daa (accumulate (·.adc y) r)) r xs.toList ys.toList
    let difference :=
      columns (fun y r ↦ accumulate daa (accumulate (·.sbc y) r)) r xs.toList ys.toList
    (sum.1.length = n ∧ (∀ b ∈ sum.1, IsPacked b) ∧
      number sum.1 = (number xs.toList + number ys.toList + r.f.carry.toNat) % 100 ^ n ∧
      (sum.2.f.carry ↔ 100 ^ n ≤ number xs.toList + number ys.toList + r.f.carry.toNat)) ∧
    difference.1.length = n ∧ (∀ b ∈ difference.1, IsPacked b) ∧
      (number difference.1 : Int) =
        ((number xs.toList : Int) - number ys.toList - r.f.carry.toNat) % (100 ^ n : Nat) ∧
      (difference.2.f.carry ↔ number xs.toList < number ys.toList + r.f.carry.toNat) := by
  have hsum := column_decimalSum.combines xs.length_toList ys.length_toList hx hy r
  have hdifference := column_decimalDifference.combines xs.length_toList ys.length_toList hx hy r
  exact ⟨⟨hsum.length, hsum.isDigit, hsum.sum⟩, hdifference.length, hdifference.isDigit,
    hdifference.difference⟩

/-- 4298 and 5701 and a carry are a hundred hundreds, and 4298 less 5701 and a carry is negative. -/
theorem decimal_exact_carried :
    let xs : Vector UInt8 2 := #v[0x98, 0x42]
    let ys : Vector UInt8 2 := #v[0x01, 0x57]
    (∀ b ∈ xs.toList, IsPacked b) ∧ (∀ b ∈ ys.toList, IsPacked b) ∧
      (let sum := columns (fun y r ↦ accumulate daa (accumulate (·.adc y) r)) {} xs.toList ys.toList
      Digits.packed.number sum.1 = 0 ∧ sum.2.f.carry) ∧
      let difference :=
        columns (fun y r ↦ accumulate daa (accumulate (·.sbc y) r)) {} xs.toList ys.toList
      Digits.packed.number difference.1 = 8596 ∧ difference.2.f.carry := by
  intro xs ys
  have hx : ∀ b ∈ xs.toList, IsPacked b :=
    List.forall_mem_cons.2 ⟨by decide, List.forall_mem_singleton.2 (by decide)⟩
  have hy : ∀ b ∈ ys.toList, IsPacked b :=
    List.forall_mem_cons.2 ⟨by decide, List.forall_mem_singleton.2 (by decide)⟩
  have hxs : Digits.packed.number xs.toList = 4298 := rfl
  have hys : Digits.packed.number ys.toList = 5701 := rfl
  have h := decimal_exact hx hy {}
  simp only [hxs, hys] at h
  obtain ⟨⟨-, -, hsum, hsumCarry⟩, -, -, hdifference, hdifferenceCarry⟩ := h
  refine ⟨hx, hy, ⟨hsum, hsumCarry.2 (by decide)⟩, Int.ofNat.inj hdifference,
    hdifferenceCarry.2 (by decide)⟩

end Registers

end DotMatrix
