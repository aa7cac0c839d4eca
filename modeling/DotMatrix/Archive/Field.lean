/-!
# Numbers in archives

An archive keeps its numbers in fields of some bytes each, the lowest byte first.

* `littleEndian` gives the bytes of a number, and `fields` joins the bytes of several.
* `number?` reads a field.
* `number?_lt` bounds what a field can hold, and `number?_isSome_iff` says when one is there.
-/

set_option autoImplicit false

namespace DotMatrix.Archive

/-! ## Writing -/

/-- The lowest `width` bytes of a number, the lowest first. -/
def littleEndian : Nat → Nat → List UInt8
  | 0, _ => []
  | width + 1, n => UInt8.ofNat (n % 256) :: littleEndian width (n / 256)

/-- Numbers of given widths, one behind the other. -/
def fields (values : List (Nat × Nat)) : ByteArray :=
  ⟨(values.flatMap fun (width, n) ↦ littleEndian width n).toArray⟩

theorem length_littleEndian (width n : Nat) : (littleEndian width n).length = width := by
  induction width generalizing n with
  | zero => rfl
  | succ width ih => simp [littleEndian, ih]

/-! ## Reading -/

/-- The number in `width` bytes from `offset` on, if they are all there. -/
def number? (bytes : ByteArray) (offset : Nat) : Nat → Option Nat
  | 0 => some 0
  | width + 1 => do
    let low ← bytes[offset]?
    let high ← number? bytes (offset + 1) width
    return low.toNat + 256 * high

theorem number?_lt {bytes : ByteArray} {offset width n : Nat}
    (h : number? bytes offset width = some n) : n < 1 <<< (8 * width) := by
  induction width generalizing offset n with
  | zero =>
    simp only [number?, Option.some.injEq] at h
    rw [← h]
    decide
  | succ width ih =>
    simp only [number?, Option.bind_eq_bind, Option.bind_eq_some_iff, Option.pure_def,
      Option.some.injEq] at h
    obtain ⟨low, -, high, hhigh, rfl⟩ := h
    have hl := low.toNat_lt
    have hh := ih hhigh
    rw [Nat.mul_succ, Nat.shiftLeft_add, Nat.shiftLeft_eq _ 8]
    omega

theorem number?_isSome_iff {bytes : ByteArray} {offset width : Nat} (hw : 0 < width) :
    (number? bytes offset width).isSome ↔ offset + width ≤ bytes.size := by
  induction width generalizing offset with
  | zero => omega
  | succ width ih =>
    by_cases h : offset < bytes.size
    · rw [number?, getElem?_pos bytes offset h]
      rcases Nat.eq_zero_or_pos width with rfl | hp
      · exact ⟨fun _ ↦ by omega, fun _ ↦ rfl⟩
      · have key := @ih (offset + 1) hp
        rw [show offset + (width + 1) = offset + 1 + width by omega, ← key]
        cases number? bytes (offset + 1) width <;> rfl
    · rw [number?, getElem?_neg bytes offset h]
      exact ⟨fun hsome ↦ by contradiction, fun hle ↦ by omega⟩

end DotMatrix.Archive
