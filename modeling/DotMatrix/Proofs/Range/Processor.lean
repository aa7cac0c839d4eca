import DotMatrix.Console.Step
import DotMatrix.Proofs.Instruction.Encoding
import DotMatrix.Proofs.Range.Checked

/-!
# The processor's arithmetic stays in range

Sums that a carry is taken from are made in words, and differences that a borrow is taken from in
words with a sign, so none of them can leave its width.  A mask for one bit is made by a shift, and
the number of the bit comes from three bits of the opcode.

* `Registers.inRange` — the arithmetic unit stays in range, whatever the registers hold.
* `Instruction.bit_lt_of_decode` — the bit that a decoded instruction names is one of a byte.
-/

set_option autoImplicit false

namespace DotMatrix

namespace Checked

/-! ## Sums and differences of bytes -/

/-- Two bytes and a carry, added up in a word. -/
def sumWithCarry (x y : UInt8) (carry : Bool) : Option UInt16 := do
  let sum ← addWord x.toUInt16 y.toUInt16
  addWord sum (if carry then 1 else 0)

/-- A byte less another and a borrow, in a word with a sign. -/
def differenceWithBorrow (x y : UInt8) (borrow : Bool) : Option Int := do
  let difference ← subSigned x.toNat y.toNat
  subSigned difference (if borrow then 1 else 0)

theorem sumWithCarry_eq (x y : UInt8) (carry : Bool) : ∃ sum : UInt16,
    sumWithCarry x y carry = some sum ∧ sum.toNat = x.toNat + y.toNat + carry.toNat := by
  have hx := x.toNat_lt
  have hy := y.toNat_lt
  have hc := Bool.toNat_le carry
  let carried : UInt16 := if carry then 1 else 0
  have hcarried : carried.toNat = carry.toNat := by cases carry <;> rfl
  have h1 : x.toUInt16.toNat + y.toUInt16.toNat < 2 ^ 16 := by
    rw [UInt8.toNat_toUInt16, UInt8.toNat_toUInt16]
    omega
  have hsum : (x.toUInt16 + y.toUInt16).toNat = x.toNat + y.toNat := by
    rw [toNat_addWord h1, UInt8.toNat_toUInt16, UInt8.toNat_toUInt16]
  have h2 : (x.toUInt16 + y.toUInt16).toNat + carried.toNat < 2 ^ 16 := by omega
  refine ⟨x.toUInt16 + y.toUInt16 + carried, ?_, by rw [toNat_addWord h2, hsum, hcarried]⟩
  rw [sumWithCarry, addWord_of_lt h1, Option.bind_eq_bind, Option.bind_some]
  exact addWord_of_lt h2

theorem differenceWithBorrow_eq (x y : UInt8) (borrow : Bool) :
    differenceWithBorrow x y borrow = some ((x.toNat : Int) - y.toNat - borrow.toNat) := by
  have hx := x.toNat_lt
  have hy := y.toNat_lt
  have hb := Bool.toNat_le borrow
  have hborrowed : (if borrow then 1 else 0 : Int) = borrow.toNat := by cases borrow <;> rfl
  rw [differenceWithBorrow, subSigned_of_mem (by omega), Option.bind_eq_bind, Option.bind_some,
    hborrowed, subSigned_of_mem (by omega)]

/-! ## The arithmetic unit -/

/-- The accumulator plus a byte plus a carry. -/
def addWithCarry (r : Registers) (x : UInt8) (carry : Bool) : Option (UInt8 × Registers) := do
  let sum ← sumWithCarry r.a x carry
  let half ← sumWithCarry (r.a &&& 0x0f) (x &&& 0x0f) carry
  let result := sum.toUInt8
  return (result, { r with f := ⟨result = 0, false, half > 0x0f, sum > 0xff⟩ })

/-- The accumulator less a byte less a borrow. -/
def subWithBorrow (r : Registers) (x : UInt8) (borrow : Bool) : Option (UInt8 × Registers) := do
  let difference ← differenceWithBorrow r.a x borrow
  let half ← differenceWithBorrow (r.a &&& 0x0f) (x &&& 0x0f) borrow
  let result := UInt8.ofInt difference
  return (result, { r with f := ⟨result = 0, true, half < 0, difference < 0⟩ })

/-- `hl` plus a word, which may wrap; the half carry is taken from a sum of twelve bits each. -/
def addHl (r : Registers) (x : UInt16) : Option (UInt16 × Registers) := do
  let hl := r.pair .hl
  let half ← addWord (hl &&& 0x0fff) (x &&& 0x0fff)
  return (hl + x, { r with
    f := ⟨r.f.zero, false, half > 0x0fff, hl.toNat + x.toNat > 0xffff⟩ })

/-- The stack pointer plus a signed byte, which may wrap; the carries are taken from sums of the
lowest bits. -/
def addSp (r : Registers) (x : UInt8) : Option (UInt16 × Registers) := do
  let half ← addWord (r.sp &&& 0x000f) (x.toUInt16 &&& 0x000f)
  let low ← addWord (r.sp &&& 0x00ff) x.toUInt16
  return (r.sp + extendSign x, { r with f := ⟨false, false, half > 0x000f, low > 0x00ff⟩ })

/-- The page of the registers, with an offset into it. -/
def registerPage (offset : UInt8) : Option UInt16 := addWord 0xff00 offset.toUInt16

/-- Test a bit of a byte; the carry is kept. -/
def testBit (r : Registers) (index x : UInt8) : Option Registers := do
  let mask ← shiftLeft 1 index
  return { r with f := ⟨x &&& mask = 0, false, true, r.f.carry⟩ }

/-- A byte with one bit cleared. -/
def clearBit (index x : UInt8) : Option UInt8 := do
  let mask ← shiftLeft 1 index
  return x &&& ~~~mask

/-- A byte with one bit set. -/
def setBit (index x : UInt8) : Option UInt8 := do
  let mask ← shiftLeft 1 index
  return x ||| mask

end Checked

/-- The low nibble of a byte as a remainder. -/
theorem toNat_and_nibble (x : UInt8) : (x &&& 0x0f).toNat = x.toNat % 16 := by
  rw [UInt8.toNat_and]
  exact Nat.and_two_pow_sub_one_eq_mod x.toNat 4

/-- The lowest bits of a word as a remainder. -/
theorem toNat_and_lowest (n : Nat) (mask : UInt16) (h : mask.toNat = 2 ^ n - 1) (x : UInt16) :
    (x &&& mask).toNat = x.toNat % 2 ^ n := by
  rw [UInt16.toNat_and, h, Nat.and_two_pow_sub_one_eq_mod]

namespace Registers

variable (r : Registers)

theorem addWithCarry_inRange (x : UInt8) (carry : Bool) :
    Checked.addWithCarry r x carry = some (r.addWithCarry x carry) := by
  obtain ⟨sum, hs, hsum⟩ := Checked.sumWithCarry_eq r.a x carry
  obtain ⟨half, hh, hhalf⟩ := Checked.sumWithCarry_eq (r.a &&& 0x0f) (x &&& 0x0f) carry
  rw [toNat_and_nibble, toNat_and_nibble] at hhalf
  have hresult : sum.toUInt8 = r.a + x + if carry then 1 else 0 := by
    rw [← UInt8.toNat_inj, UInt16.toNat_toUInt8, hsum]
    cases carry <;> simp [UInt8.toNat_add]
  have hlow : half > 0x0f ↔ r.a.toNat % 16 + x.toNat % 16 + carry.toNat > 0x0f := by
    rw [← hhalf]
    exact UInt16.lt_iff_toNat_lt
  have hhigh : sum > 0xff ↔ r.a.toNat + x.toNat + carry.toNat > 0xff := by
    rw [← hsum]
    exact UInt16.lt_iff_toNat_lt
  simp only [Checked.addWithCarry, hs, hh, Option.bind_eq_bind, Option.bind_some, hresult, hlow,
    hhigh]
  rfl

theorem subWithBorrow_inRange (x : UInt8) (borrow : Bool) :
    Checked.subWithBorrow r x borrow = some (r.subWithBorrow x borrow) := by
  have ha := r.a.toNat_lt
  have hx := x.toNat_lt
  have hresult : UInt8.ofInt (r.a.toNat - x.toNat - borrow.toNat) =
      r.a - x - if borrow then 1 else 0 := by
    rw [← UInt8.toNat_inj]
    cases borrow <;> simp [UInt8.ofInt, UInt8.toNat_sub] <;> omega
  have hlow : ((r.a.toNat % 16 : Nat) : Int) - (x.toNat % 16 : Nat) - borrow.toNat < 0 ↔
      r.a.toNat % 16 < x.toNat % 16 + borrow.toNat := by omega
  have hhigh : (r.a.toNat : Int) - x.toNat - borrow.toNat < 0 ↔
      r.a.toNat < x.toNat + borrow.toNat := by omega
  simp only [Checked.subWithBorrow, Checked.differenceWithBorrow_eq, toNat_and_nibble,
    Option.bind_eq_bind, Option.bind_some, hresult, hlow, hhigh]
  rfl

theorem addHl_inRange (x : UInt16) : Checked.addHl r x = some (r.addHl x) := by
  have h1 := toNat_and_lowest 12 0x0fff rfl (r.pair .hl)
  have h2 := toNat_and_lowest 12 0x0fff rfl x
  have hlt : (r.pair .hl &&& 0x0fff).toNat + (x &&& 0x0fff).toNat < 2 ^ 16 := by omega
  have hlow : (r.pair .hl &&& 0x0fff) + (x &&& 0x0fff) > 0x0fff ↔
      (r.pair .hl).toNat % 0x1000 + x.toNat % 0x1000 > 0x0fff := by
    have hsum := Checked.toNat_addWord hlt
    rw [h1, h2] at hsum
    rw [gt_iff_lt, UInt16.lt_iff_toNat_lt, hsum]
    exact Iff.rfl
  simp only [Checked.addHl, Checked.addWord_of_lt hlt, Option.bind_eq_bind, Option.bind_some, hlow]
  rfl

theorem addSp_inRange (x : UInt8) : Checked.addSp r x = some (r.addSp x) := by
  have hx := x.toNat_lt
  have h1 := toNat_and_lowest 4 0x000f rfl r.sp
  have h2 := toNat_and_lowest 4 0x000f rfl x.toUInt16
  have h3 := toNat_and_lowest 8 0x00ff rfl r.sp
  rw [UInt8.toNat_toUInt16] at h2
  have hlt : (r.sp &&& 0x000f).toNat + (x.toUInt16 &&& 0x000f).toNat < 2 ^ 16 := by omega
  have hlt' : (r.sp &&& 0x00ff).toNat + x.toUInt16.toNat < 2 ^ 16 := by
    rw [UInt8.toNat_toUInt16]
    omega
  have hlow : (r.sp &&& 0x000f) + (x.toUInt16 &&& 0x000f) > 0x000f ↔
      r.sp.toNat % 0x10 + x.toNat % 0x10 > 0x0f := by
    have hsum := Checked.toNat_addWord hlt
    rw [h1, h2] at hsum
    rw [gt_iff_lt, UInt16.lt_iff_toNat_lt, hsum]
    exact Iff.rfl
  have hhigh : (r.sp &&& 0x00ff) + x.toUInt16 > 0x00ff ↔
      r.sp.toNat % 0x100 + x.toNat > 0xff := by
    have hsum := Checked.toNat_addWord hlt'
    rw [h3, UInt8.toNat_toUInt16] at hsum
    rw [gt_iff_lt, UInt16.lt_iff_toNat_lt, hsum]
    exact Iff.rfl
  simp only [Checked.addSp, Checked.addWord_of_lt hlt, Checked.addWord_of_lt hlt',
    Option.bind_eq_bind, Option.bind_some, hlow, hhigh]
  rfl

/-- No sum and no difference of the arithmetic unit leaves its width. -/
structure InRange (r : Registers) : Prop where
  addWithCarry : ∀ x carry, Checked.addWithCarry r x carry = some (r.addWithCarry x carry)
  subWithBorrow : ∀ x borrow, Checked.subWithBorrow r x borrow = some (r.subWithBorrow x borrow)
  addHl : ∀ x, Checked.addHl r x = some (r.addHl x)
  addSp : ∀ x, Checked.addSp r x = some (r.addSp x)

/-- The arithmetic unit stays in range, whatever the registers hold. -/
theorem inRange : r.InRange :=
  ⟨addWithCarry_inRange r, subWithBorrow_inRange r, addHl_inRange r, addSp_inRange r⟩

variable {index : UInt8} (h : index < 8) (x : UInt8)

include h

theorem testBit_inRange : Checked.testBit r index x = some (r.bit index x) := by
  rw [Checked.testBit, Checked.shiftLeft_of_lt h]
  rfl

theorem clearBit_inRange : Checked.clearBit index x = some (clearBit index x) := by
  rw [Checked.clearBit, Checked.shiftLeft_of_lt h]
  rfl

theorem setBit_inRange : Checked.setBit index x = some (setBit index x) := by
  rw [Checked.setBit, Checked.shiftLeft_of_lt h]
  rfl

end Registers

theorem Console.registerPage_inRange (offset : UInt8) :
    Checked.registerPage offset = some (Console.registerPage offset) := by
  have h := offset.toNat_lt
  refine Checked.addWord_of_lt ?_
  rw [UInt8.toNat_toUInt16, show (0xff00 : UInt16).toNat = 65280 from rfl]
  omega

/-! ## The bits that instructions name -/

/-- The bit that an operand names, if it names one. -/
def Operand.bit? : Operand → Option UInt8
  | .bit index => some index
  | _ => none

namespace Instruction

/-- The bit that the first operand names, if it names one. -/
def bit? (i : Instruction) : Option UInt8 := i.lhs.bind Operand.bit?

/-- No plain opcode names a bit. -/
theorem bit?_template {opcode : UInt8} {i : Instruction} (h : template opcode = some i) :
    i.bit? = none := by
  apply forall_template h
  decide +kernel

/-- Behind the prefix byte the number of a bit takes three bits of the opcode. -/
theorem bit?_prefixedTemplate {opcode : UInt8} {i : Instruction}
    (h : prefixedTemplate opcode = some i) : i.bit?.all fun index ↦ index < 8 := by
  apply forall_template h
  decide +kernel

/-- An immediate is no bit. -/
theorem bit?_blank (i : Instruction) : i.blank.bit? = i.bit? := by
  obtain ⟨opcode, _ | lhs, rhs, length, cycles, cyclesNotTaken⟩ := i
  · rfl
  · cases lhs <;> rfl

variable {σ : Type} {read : UInt16 → Exec σ UInt8} {pc : UInt16} {s : σ}

/-- The bit that a decoded instruction names is one of a byte. -/
theorem bit_lt_of_decode {i : Instruction} (h : (decode read Exec.fail pc s).result = .ok i)
    {index : UInt8} (hi : i.lhs = some (.bit index)) : index < 8 := by
  have hall : i.bit?.all fun index ↦ index < 8 :=
    of_decode (P := fun i ↦ i.bit?.all fun index ↦ index < 8) h
      (fun i hi ↦ by rwa [bit?_blank] at hi) (fun ht ↦ by rw [bit?_template ht]; rfl)
      bit?_prefixedTemplate
  have hb : i.bit? = some index := by
    rw [bit?, hi]
    rfl
  rw [hb] at hall
  exact of_decide_eq_true hall

/-! ## How long instructions take -/

theorem duration_template_le {opcode : UInt8} {i : Instruction} (h : template opcode = some i)
    (taken : Bool) : i.duration taken ≤ 24 := by
  cases taken <;> apply forall_template h <;> decide +kernel

theorem duration_prefixedTemplate_le {opcode : UInt8} {i : Instruction}
    (h : prefixedTemplate opcode = some i) (taken : Bool) : i.duration taken ≤ 24 := by
  cases taken <;> apply forall_template h <;> decide +kernel

/-- A decoded instruction takes at most 24 cycles. -/
theorem duration_le_of_decode {i : Instruction} (h : (decode read Exec.fail pc s).result = .ok i)
    (taken : Bool) : i.duration taken ≤ 24 :=
  of_decode h (fun _ hi ↦ hi) (fun ht ↦ duration_template_le ht taken)
    fun ht ↦ duration_prefixedTemplate_le ht taken

end Instruction

end DotMatrix
