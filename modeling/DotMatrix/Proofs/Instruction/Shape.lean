import DotMatrix.Proofs.Instruction.Encoding

/-!
# What operands an opcode takes

The decoder lists its instructions in one place and the executor takes their operands apart in
another.  What they agree on is a kind of operand for either side of every opcode, whatever the
registers and the numbers are.

* `Operand.kind` — the kinds of operands, and `Operand.form`, what an operand of a kind looks like.
* `Opcode.takes` — the kinds that go with an opcode.
* `Instruction.fits_of_decode` — every instruction that is decoded has them.
-/

set_option autoImplicit false

namespace DotMatrix

/-! ## Kinds -/

namespace Operand

/-- What an operand is, whatever its number. -/
inductive Kind where
  | register
  | pair (register : Reg16)
  /-- An immediate byte. -/
  | byte
  /-- An immediate word. -/
  | word
  /-- The byte at `hl`. -/
  | cell
  /-- The byte that a pair points at, after which the pair may move. -/
  | pointer
  /-- A byte of the page of the registers. -/
  | page
  /-- The byte at an immediate address. -/
  | absolute
  | condition
  | bit
  | vector
  | offset
  /-- The stack pointer plus a signed byte. -/
  | displaced
  /-- Nothing that an instruction works on. -/
  | odd
  deriving DecidableEq

/-- The kind of an operand. -/
def kind : Operand → Kind
  | .reg8 _ mode =>
    if mode = .immediate then .register else if mode = .pointer then .page else .odd
  | .reg16 register mode =>
    if mode = .immediate then .pair register
    else if register = .hl ∧ mode = .pointer then .cell
    else if mode.indirect && !mode.direct then .pointer
    else .odd
  | .imm8 _ mode => if mode = .immediate then .byte else if mode = .pointer then .page else .odd
  | .imm16 _ mode =>
    if mode = .immediate then .word else if mode = .pointer then .absolute else .odd
  | .condition _ => .condition
  | .displaced register _ _ => if register = .sp then .displaced else .odd
  | .offset _ => .offset
  | .bit _ => .bit
  | .vector _ => .vector

namespace Kind

/-- A register or an immediate byte. -/
def isPlain : Kind → Bool
  | .register | .byte => true
  | _ => false

/-- A byte of memory. -/
def isMemory : Kind → Bool
  | .cell | .pointer | .page | .absolute => true
  | _ => false

/-- A byte. -/
def isByte (k : Kind) : Bool := k.isPlain || k.isMemory

/-- A register of two bytes. -/
def isPair : Kind → Bool
  | .pair _ => true
  | _ => false

/-- A word. -/
def isWord : Kind → Bool
  | .word | .pair _ | .displaced => true
  | _ => false

/-- A register or the byte at `hl`. -/
def isField : Kind → Bool
  | .register | .cell => true
  | _ => false

end Kind

/-- What an operand of this kind looks like. -/
def Kind.Form : Kind → Operand → Prop
  | .register, o => ∃ r, o = .reg8 r .immediate
  | .pair r, o => o = .reg16 r .immediate
  | .byte, o => ∃ value, o = .imm8 value .immediate
  | .word, o => ∃ value, o = .imm16 value .immediate
  | .cell, o => o = .reg16 .hl .pointer
  | .pointer, o => ∃ r mode, o = .reg16 r mode ∧ mode.indirect ∧ mode.direct = false
  | .page, o => (∃ r, o = .reg8 r .pointer) ∨ ∃ value, o = .imm8 value .pointer
  | .absolute, o => ∃ value, o = .imm16 value .pointer
  | .condition, o => ∃ condition, o = .condition condition
  | .bit, o => ∃ index, o = .bit index
  | .vector, o => ∃ addr, o = .vector addr
  | .offset, o => ∃ displacement, o = .offset displacement
  | .displaced, o => ∃ displacement mode, o = .displaced .sp displacement mode
  | .odd, _ => True

/-- An operand looks as its kind says. -/
theorem form (o : Operand) : o.kind.Form o := by
  cases o with
  | reg8 register mode =>
    rw [kind]
    split
    · rename_i hm
      exact ⟨register, by rw [hm]⟩
    split
    · rename_i hm
      exact Or.inl ⟨register, by rw [hm]⟩
    · trivial
  | reg16 register mode =>
    rw [kind]
    split
    · rename_i hm
      exact congrArg (reg16 register) hm
    split
    · rename_i hm
      rw [hm.1, hm.2]
      rfl
    split
    · rename_i hm
      rw [Bool.and_eq_true, Bool.not_eq_true'] at hm
      exact ⟨register, mode, rfl, hm⟩
    · trivial
  | imm8 value mode =>
    rw [kind]
    split
    · rename_i hm
      exact ⟨value, by rw [hm]⟩
    split
    · rename_i hm
      exact Or.inr ⟨value, by rw [hm]⟩
    · trivial
  | imm16 value mode =>
    rw [kind]
    split
    · rename_i hm
      exact ⟨value, by rw [hm]⟩
    split
    · rename_i hm
      exact ⟨value, by rw [hm]⟩
    · trivial
  | displaced register displacement mode =>
    rw [kind]
    split
    · rename_i hr
      exact ⟨displacement, mode, by rw [hr]⟩
    · trivial
  | condition | bit | vector | offset => exact ⟨_, rfl⟩

theorem form_of_kind {o : Operand} {k : Kind} (h : o.kind = k) : k.Form o := h ▸ o.form

theorem kind_blank (o : Operand) : o.blank.kind = o.kind := by
  cases o <;> rfl

end Operand

open Operand (Kind)

/-! ## Opcodes -/

namespace Operand.Kind

/-- What can be copied to what: a byte to a register, a word to a pair, the stack pointer to an
immediate address, and a byte to memory unless it lies there itself. -/
def loads (target source : Kind) : Bool :=
  match target, source with
  | .register, source => source.isByte
  | .pair _, source => source.isWord
  | .absolute, .pair .sp => true
  | target, source => target.isMemory && source.isPlain

/-- What can be added to what: a pair to `hl`, a displacement to the stack pointer and a byte to a
register. -/
def adds (target source : Kind) : Bool :=
  match target, source with
  | .pair .hl, .pair _ => true
  | .pair .sp, .offset => true
  | .register, source => source.isPlain || source.isField
  | _, _ => false

/-- What the accumulator is combined with. -/
def combines (target source : Kind) : Bool :=
  target == .register && (source.isPlain || source.isField)

/-- What a bit is named of. -/
def marks (target source : Kind) : Bool := target == .bit && source.isField

/-- Where a transfer under a condition goes. -/
def transfers (goal : Kind → Bool) (target source : Kind) : Bool :=
  target == .condition && goal source

/-- Both operands are there, and their kinds go together. -/
def both (p : Kind → Kind → Bool) (lhs rhs : Option Kind) : Bool :=
  lhs.any fun target ↦ rhs.any (p target)

end Operand.Kind

namespace Operand

variable {lhs rhs : Operand}

/-- A word is copied to a pair, the stack pointer to an immediate address, a byte to a register, or
a byte that does not lie in memory to one that does. -/
theorem loads_cases (h : lhs.kind.loads rhs.kind) :
    (∃ r, lhs = .reg16 r .immediate ∧ rhs.kind.isWord) ∨
    (∃ addr, lhs = .imm16 addr .pointer ∧ rhs = .reg16 .sp .immediate) ∨
    (∃ r, lhs = .reg8 r .immediate ∧ rhs.kind.isByte) ∨
    (lhs.kind.isMemory ∧ rhs.kind.isPlain) := by
  have hl := lhs.form
  have hr := rhs.form
  cases hlk : lhs.kind <;> rw [hlk] at hl h
  case pair r => exact Or.inl ⟨r, hl, h⟩
  case register =>
    obtain ⟨r, rfl⟩ := hl
    exact Or.inr (Or.inr (Or.inl ⟨r, rfl, h⟩))
  case absolute =>
    obtain ⟨addr, rfl⟩ := hl
    cases hrk : rhs.kind <;> rw [hrk] at hr h
    case pair r =>
      cases r
      case sp => exact Or.inr (Or.inl ⟨addr, rfl, hr⟩)
      all_goals cases h
    case register | byte => exact Or.inr (Or.inr (Or.inr ⟨rfl, rfl⟩))
    all_goals cases h
  case cell | pointer | page =>
    cases hrk : rhs.kind <;> rw [hrk] at h
    case register | byte => exact Or.inr (Or.inr (Or.inr ⟨rfl, rfl⟩))
    all_goals cases h
  all_goals cases h

/-- A pair that points at memory is not taken for its value. -/
theorem direct_of_isMemory {r : Reg16} {mode : Mode} (h : (reg16 r mode).kind.isMemory) :
    mode.direct = false := by
  have hform := (reg16 r mode).form
  cases hk : (reg16 r mode).kind <;> rw [hk] at h hform
  case cell =>
    cases hform
    rfl
  case pointer =>
    obtain ⟨_, _, heq, -, hd⟩ := hform
    cases heq
    exact hd
  case page => rcases hform with ⟨_, heq⟩ | ⟨_, heq⟩ <;> cases heq
  case absolute =>
    obtain ⟨_, heq⟩ := hform
    cases heq
  all_goals cases h

/-- A register or an immediate byte. -/
theorem plain_cases {o : Operand} (h : o.kind.isPlain) :
    (∃ r, o = .reg8 r .immediate) ∨ ∃ value, o = .imm8 value .immediate := by
  have hform := o.form
  cases hk : o.kind <;> rw [hk] at h hform
  case register => exact Or.inl hform
  case byte => exact Or.inr hform
  all_goals cases h

/-- A register or the byte at `hl`. -/
theorem field_cases {o : Operand} (h : o.kind.isField) :
    (∃ r, o = .reg8 r .immediate) ∨ o = .atHl := by
  have hform := o.form
  cases hk : o.kind <;> rw [hk] at h hform
  case register => exact Or.inl hform
  case cell => exact Or.inr hform
  all_goals cases h

theorem exists_pair {o : Operand} (h : o.kind.isPair) : ∃ r, o = .reg16 r .immediate := by
  have hform := o.form
  cases hk : o.kind <;> rw [hk] at h hform
  case pair r => exact ⟨r, hform⟩
  all_goals cases h

theorem marks_cases {source : Kind} (h : lhs.kind.marks source) :
    (∃ index, lhs = .bit index) ∧ source.isField := by
  rw [Kind.marks, Bool.and_eq_true, beq_iff_eq] at h
  exact ⟨form_of_kind h.1, h.2⟩

theorem transfers_cases {goal : Kind → Bool} {source : Kind}
    (h : lhs.kind.transfers goal source) :
    (∃ condition, lhs = .condition condition) ∧ goal source := by
  rw [Kind.transfers, Bool.and_eq_true, beq_iff_eq] at h
  exact ⟨form_of_kind h.1, h.2⟩

end Operand

/-- The opcodes that a condition can go with. -/
def Opcode.isTransfer : Opcode → Bool
  | .jr | .jp | .call | .ret | .reti => true
  | _ => false

/-- The kinds of operands that go with an opcode. -/
def Opcode.takes (op : Opcode) (lhs rhs : Option Kind) : Bool :=
  match op with
  | .nop | .rlca | .rla | .rrca | .rra | .daa | .cpl | .scf | .ccf | .halt | .di | .ei =>
    lhs.isNone && rhs.isNone
  | .stop => lhs.any (· == .byte)
  | .ld | .ldh => Kind.both Kind.loads lhs rhs
  | .inc | .dec => lhs.any fun operand ↦ operand.isField || operand.isPair
  | .rlc | .rrc | .rl | .rr | .sla | .sra | .swap | .srl => lhs.any Kind.isField
  | .bit | .res | .set => Kind.both Kind.marks lhs rhs
  | .add | .adc => Kind.both Kind.adds lhs rhs
  | .sub | .sbc | .and | .xor | .or | .cp => Kind.both Kind.combines lhs rhs
  | .jr => Kind.both (Kind.transfers (· == .offset)) lhs rhs
  | .jp => Kind.both (Kind.transfers Kind.isWord) lhs rhs
  | .call => Kind.both (Kind.transfers (· == .word)) lhs rhs
  | .ret | .reti => lhs.any (· == .condition)
  | .rst => lhs.any (· == .vector)
  | .push | .pop => lhs.any Kind.isPair

namespace Instruction

/-- The operands fit the opcode. -/
def Fits (i : Instruction) : Prop :=
  i.opcode.takes (i.lhs.map Operand.kind) (i.rhs.map Operand.kind)

instance (i : Instruction) : Decidable i.Fits := inferInstanceAs (Decidable (_ = true))

/-- The first operand is there and of such a kind. -/
def HasSole (i : Instruction) (p : Kind → Bool) : Prop := (i.lhs.map Operand.kind).any p

/-- Both operands are there and of such kinds. -/
def HasBoth (i : Instruction) (p : Kind → Kind → Bool) : Prop :=
  Kind.both p (i.lhs.map Operand.kind) (i.rhs.map Operand.kind)

theorem HasSole.exists_lhs {i : Instruction} {p : Kind → Bool} (h : i.HasSole p) :
    ∃ lhs, i.lhs = some lhs ∧ p lhs.kind := by
  rw [HasSole] at h
  cases hl : i.lhs with
  | none =>
    rw [hl] at h
    cases h
  | some lhs =>
    rw [hl] at h
    exact ⟨lhs, rfl, h⟩

theorem HasBoth.exists_operands {i : Instruction} {p : Kind → Kind → Bool} (h : i.HasBoth p) :
    ∃ lhs rhs, i.lhs = some lhs ∧ i.rhs = some rhs ∧ p lhs.kind rhs.kind := by
  rw [HasBoth] at h
  cases hl : i.lhs with
  | none =>
    rw [hl] at h
    cases h
  | some lhs =>
    cases hr : i.rhs with
    | none =>
      rw [hl, hr] at h
      cases h
    | some rhs =>
      rw [hl, hr] at h
      exact ⟨lhs, rhs, rfl, rfl, h⟩

theorem fits_template {opcode : UInt8} {i : Instruction} (h : template opcode = some i) :
    i.Fits := by
  apply forall_template h
  decide +kernel

theorem fits_prefixedTemplate {opcode : UInt8} {i : Instruction}
    (h : prefixedTemplate opcode = some i) : i.Fits := by
  apply forall_template h
  decide +kernel

/-- Immediates do not change what operands are. -/
theorem Fits.of_blank {i : Instruction} (h : i.blank.Fits) : i.Fits := by
  have hkind : ∀ o : Option Operand, (o.map Operand.blank).map Operand.kind = o.map Operand.kind :=
    fun o ↦ by
      rw [Option.map_map]
      exact congrArg (o.map ·) (funext Operand.kind_blank)
  rw [Fits, blank, hkind, hkind] at h
  exact h

/-- **Every instruction that is decoded has operands that fit its opcode**, whatever the bytes
are. -/
theorem fits_of_decode {σ : Type} {read : UInt16 → Exec σ UInt8} {pc : UInt16} {s : σ}
    {i : Instruction} (h : (decode read Exec.fail pc s).result = .ok i) : i.Fits :=
  of_decode h (fun _ ↦ .of_blank) fits_template fits_prefixedTemplate

end Instruction

end DotMatrix
