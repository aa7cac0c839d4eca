import DotMatrix.Proofs.Bus.Refusal
import DotMatrix.Proofs.Console.Stores
import DotMatrix.Proofs.Instruction.Shape
import DotMatrix.Proofs.Range.Console

/-!
# No operand stops a decoded instruction

The operations that take operands apart turn down those that they cannot use.  Behind a decoder that
hands out none of these, nothing is turned down: an instruction is stopped only by an access to the
bus, with any registers and on any hardware that was started and acted on since.

* `Suited` — an operation that no operand stops, and the lemmas for what operations are made of.
* `suited_perform` — an instruction whose operands fit is such an operation.
* `fits_of_fetch` — the operands of every instruction that is fetched fit.
-/

set_option autoImplicit false

namespace DotMatrix.Console

open Operand (Kind)

/-- No operand stops the operation. -/
def Suited {α : Type} (x : Exec Console α) : Prop :=
  ∀ c, Running c → Running (x c).state ∧ ∀ fault, (x c).result = .error fault → ¬ Misfit fault

section

variable {α β : Type}

/-! ## What operations are made of -/

theorem Suited.bind {x : Exec Console α} {f : α → Exec Console β} (hx : Suited x)
    (hf : ∀ a, Suited (f a)) : Suited (x >>= f) := by
  intro c hc
  obtain ⟨hr, he⟩ := hx c hc
  rcases ho : x c with ⟨fault | a, c', records⟩ <;> rw [ho] at hr he
  · rw [Exec.bind_of_error ho]
    exact ⟨hr, fun fault' h ↦ by cases h; exact he fault rfl⟩
  · rw [Exec.bind_of_ok ho]
    exact hf a c' hr

theorem Finishes.suited {x : Exec Console α} (h : Finishes x) : Suited x := by
  intro c hc
  obtain ⟨hh, a, ha⟩ := h c
  refine ⟨?_, fun fault hf ↦ ?_⟩
  · rw [Running, hh]
    exact hc
  · rw [ha] at hf
    cases hf

theorem suited_pure (a : α) : Suited (pure a) := (finishes_pure a).suited

theorem suited_modify (f : Registers → Registers) : Suited (modifyRegisters f) :=
  (finishes_modifyCpu _).suited

theorem suited_compute (f : Registers → α × Registers) : Suited (compute f) :=
  Finishes.suited fun c ↦ ⟨rfl, (f c.cpu.registers).1, rfl⟩

theorem suited_look : Suited registers := Finishes.suited fun c ↦ ⟨rfl, c.cpu.registers, rfl⟩

theorem not_misfit_outOfBounds (addr : UInt16) : ¬ Misfit (.outOfBounds addr) := by
  rintro (⟨i, h⟩ | ⟨operand, h⟩) <;> cases h

theorem not_misfit_of_rejects {b : Bus} {addr : UInt16} {value : UInt8} {fault : Fault}
    (h : b.Rejects addr value fault) : ¬ Misfit fault := by
  cases h with
  | unmapped => exact not_misfit_outOfBounds addr
  | select => rintro (⟨i, h⟩ | ⟨operand, h⟩) <;> cases h

theorem suited_load (addr : UInt16) : Suited (load addr) := by
  intro c hc
  refine ⟨?_, fun fault hf ↦ ?_⟩
  · rw [Running, hardware_load]
    exact hc
  · obtain ⟨-, rfl⟩ := (Bus.read_eq_error_iff hc.bounded.cartridge).1 hf
    exact not_misfit_outOfBounds addr

theorem suited_store (addr : UInt16) (value : UInt8) : Suited (store addr value) := by
  intro c hc
  refine ⟨hc.perform (.write addr value), fun fault hf ↦ ?_⟩
  exact not_misfit_of_rejects ((Hardware.result_write_eq_error_iff hc.wired.1.listens).1 hf)

/-! ## Operands -/

theorem suited_loadExtended (addr : UInt16) : Suited (loadExtended addr) :=
  (suited_load addr).bind fun _ ↦ suited_pure _

/-- Bytes and words have a value. -/
theorem suited_readOperand {operand : Operand} (h : operand.kind.isByte || operand.kind.isWord) :
    Suited (readOperand operand) := by
  cases operand with
  | reg8 register mode =>
    rw [readOperand]
    refine suited_look.bind fun r ↦ ?_
    split
    · exact suited_loadExtended _
    · exact suited_pure _
  | reg16 register mode =>
    rw [readOperand]
    refine suited_look.bind fun r ↦ ?_
    split
    · exact (suited_loadExtended _).bind fun _ ↦ (finishes_stepPointer _ _).suited.bind fun _ ↦
        suited_pure _
    · exact suited_pure _
  | imm8 value mode | imm16 value mode =>
    rw [readOperand]
    split
    · exact suited_loadExtended _
    · exact suited_pure _
  | displaced register displacement mode =>
    obtain rfl : register = .sp := by
      by_contra hne
      rw [Operand.kind, if_neg hne] at h
      cases h
    exact suited_compute _
  | condition | offset | bit | vector => cases h

theorem suited_readByte {operand : Operand} (h : operand.kind.isByte) :
    Suited (readByte operand) :=
  (suited_readOperand (by rw [h, Bool.true_or])).bind fun _ ↦ suited_pure _

/-- Registers and memory take a byte. -/
theorem suited_writeByte {operand : Operand} (h : operand.kind = .register ∨ operand.kind.isMemory)
    (value : UInt8) : Suited (writeByte operand value) := by
  have hform := operand.form
  cases hk : operand.kind <;> rw [hk] at h hform
  case register =>
    obtain ⟨register, rfl⟩ := hform
    exact suited_look.bind fun r ↦ suited_modify (·.set register value)
  case cell =>
    obtain rfl := hform
    exact suited_look.bind fun r ↦ (suited_store _ _).bind fun _ ↦ suited_pure ()
  case pointer =>
    obtain ⟨register, mode, rfl, hi, -⟩ := hform
    rw [writeByte]
    refine suited_look.bind fun r ↦ ?_
    rw [if_pos hi]
    exact (suited_store _ _).bind fun _ ↦ (finishes_stepPointer _ _).suited
  case page =>
    obtain ⟨register, rfl⟩ | ⟨offset, rfl⟩ := hform
    · exact suited_look.bind fun r ↦ suited_store _ _
    · exact suited_store _ _
  case absolute =>
    obtain ⟨addr, rfl⟩ := hform
    exact suited_store _ _
  all_goals
    rcases h with h | h <;> cases h

theorem isByte_of_isField {k : Kind} (h : k.isField) : k.isByte := by
  cases k <;> first | rfl | cases h

theorem isPlace_of_isField {k : Kind} (h : k.isField) : k = .register ∨ k.isMemory := by
  cases k <;> first | exact Or.inl rfl | exact Or.inr rfl | cases h

theorem suited_soleOperand {i : Instruction} {p : Kind → Bool} {f : Operand → Exec Console β}
    (h : i.HasSole p) (hf : ∀ operand, p operand.kind → Suited (f operand)) :
    Suited (soleOperand i >>= f) := by
  obtain ⟨operand, hl, hp⟩ := h.exists_lhs
  rw [soleOperand.eq_def, hl, pure_bind]
  exact hf operand hp

theorem suited_bothOperands {i : Instruction} {p : Kind → Kind → Bool}
    {f : Operand × Operand → Exec Console β} (h : i.HasBoth p)
    (hf : ∀ lhs rhs, p lhs.kind rhs.kind → Suited (f (lhs, rhs))) :
    Suited (bothOperands i >>= f) := by
  obtain ⟨lhs, rhs, hl, hr, hp⟩ := h.exists_operands
  rw [bothOperands.eq_def, hl, hr, pure_bind]
  exact hf lhs rhs hp

/-! ## The stack -/

theorem suited_popWord : Suited popWord := by
  have hpop : Suited popByte := suited_look.bind fun _ ↦ (suited_load _).bind fun _ ↦
    (suited_modify _).bind fun _ ↦ suited_pure _
  exact hpop.bind fun _ ↦ hpop.bind fun _ ↦ suited_pure _

theorem suited_pushWord (value : UInt16) : Suited (pushWord value) := by
  have hpush : ∀ byte, Suited (pushByte byte) := fun byte ↦
    suited_look.bind fun _ ↦ (suited_modify _).bind fun _ ↦ suited_store _ _
  exact (hpush _).bind fun _ ↦ hpush _

theorem suited_storeWord (addr value : UInt16) :
    Suited (onHardware (Hardware.writeWord addr value)) := by
  rw [Hardware.writeWord, onHardware_bind]
  exact (suited_store _ _).bind fun _ ↦ suited_store _ _

/-! ## Moves and arithmetic -/

section

variable {i : Instruction}

/-- A byte is copied to a register or to memory. -/
theorem suited_performLoad (h : i.HasBoth Kind.loads) : Suited (performLoad i) := by
  refine suited_bothOperands h fun lhs rhs hkinds ↦ ?_
  rcases Operand.loads_cases hkinds with ⟨register, rfl, hword⟩ | ⟨addr, rfl, rfl⟩ |
    ⟨register, rfl, hbyte⟩ | ⟨hmemory, hplain⟩
  · exact (suited_readOperand (by rw [hword, Bool.or_true])).bind fun _ ↦ suited_modify _
  · exact suited_look.bind fun r ↦ suited_storeWord _ _
  · exact (suited_readByte hbyte).bind fun _ ↦ suited_writeByte (Or.inl rfl) _
  · have hmove : Suited (do let value ← readByte rhs; writeByte lhs value) :=
      (suited_readByte (by rw [Kind.isByte, hplain, Bool.true_or])).bind fun _ ↦
        suited_writeByte (Or.inr hmemory) _
    split
    · exact suited_look.bind fun r ↦ suited_storeWord _ _
    · rename_i heq
      cases heq
      cases Operand.direct_of_isMemory hmemory
    · rename_i heq
      cases heq
      exact hmove

theorem suited_intoAccumulator {source : Operand} (h : source.kind.isByte)
    (operation : Registers → UInt8 → UInt8 × Registers) :
    Suited (intoAccumulator operation source) :=
  (suited_readByte h).bind fun _ ↦ (suited_compute _).bind fun _ ↦ suited_modify _

theorem isByte_of_combined {k : Kind} (h : k.isPlain || k.isField) : k.isByte := by
  cases k <;> first | rfl | cases h

theorem suited_performAdd (h : i.HasBoth Kind.adds)
    (operation : Registers → UInt8 → UInt8 × Registers) : Suited (performAdd i operation) := by
  refine suited_bothOperands h fun lhs rhs hkinds ↦ ?_
  have hl := lhs.form
  cases hlk : lhs.kind <;> rw [hlk] at hl hkinds
  case register =>
    obtain ⟨register, rfl⟩ := hl
    exact suited_intoAccumulator (isByte_of_combined hkinds) operation
  case pair register =>
    obtain rfl := hl
    have hr := rhs.form
    cases register
    case hl =>
      have hpair : rhs.kind.isByte || rhs.kind.isWord := by
        cases hrk : rhs.kind <;> rw [hrk] at hkinds <;> first | rfl | cases hkinds
      exact (suited_readOperand hpair).bind fun _ ↦ (suited_compute _).bind fun _ ↦
        suited_modify _
    case sp =>
      cases hrk : rhs.kind <;> rw [hrk] at hr hkinds
      case offset =>
        obtain ⟨displacement, rfl⟩ := hr
        exact (suited_compute _).bind fun _ ↦ suited_modify _
      all_goals cases hkinds
    all_goals cases hkinds
  all_goals cases hkinds

theorem combines_eq_true {target source : Kind} (h : target.combines source) :
    target = .register ∧ source.isByte := by
  rw [Kind.combines, Bool.and_eq_true, beq_iff_eq] at h
  exact ⟨h.1, isByte_of_combined h.2⟩

theorem suited_performAccumulator (h : i.HasBoth Kind.combines)
    (operation : Registers → UInt8 → UInt8 × Registers) :
    Suited (performAccumulator i operation) :=
  suited_bothOperands h fun _ _ hkinds ↦ suited_intoAccumulator (combines_eq_true hkinds).2 _

theorem suited_performCompare (h : i.HasBoth Kind.combines) : Suited (performCompare i) :=
  suited_bothOperands h fun _ _ hkinds ↦
    (suited_readByte (combines_eq_true hkinds).2).bind fun _ ↦ suited_modify _

/-- A byte is read, changed and put back. -/
theorem suited_change {operand : Operand} (h : operand.kind.isField)
    (operation : Registers → UInt8 → UInt8 × Registers) :
    Suited (do
      let value ← readByte operand
      let result ← compute (operation · value)
      writeByte operand result) :=
  (suited_readByte (isByte_of_isField h)).bind fun _ ↦ (suited_compute _).bind fun _ ↦
    suited_writeByte (isPlace_of_isField h) _

theorem suited_performStep (h : i.HasSole fun operand ↦ operand.isField || operand.isPair)
    (stepPair : Registers → Reg16 → Registers)
    (operation : Registers → UInt8 → UInt8 × Registers) :
    Suited (performStep i stepPair operation) := by
  refine suited_soleOperand h fun operand hkind ↦ ?_
  split
  · exact suited_modify _
  · rename_i hpair
    have hfield : operand.kind.isField := by
      rw [Bool.or_eq_true] at hkind
      refine hkind.resolve_right fun hp ↦ ?_
      have hform := operand.form
      cases hk : operand.kind <;> rw [hk] at hp hform
      case pair register =>
        rw [show operand = _ from hform] at hpair
        exact hpair _ _ _ _ rfl
      all_goals cases hp
    exact suited_change hfield operation

theorem suited_performShift (h : i.HasSole Kind.isField)
    (operation : Registers → UInt8 → UInt8 × Registers) : Suited (performShift i operation) :=
  suited_soleOperand h fun _ hkind ↦ suited_change hkind operation

theorem suited_performRotate (operation : Registers → UInt8 → UInt8 × Registers) :
    Suited (performRotate operation) :=
  (suited_compute _).bind fun _ ↦ suited_modify _

theorem suited_performUnary (operation : Registers → UInt8 × Registers) :
    Suited (performUnary operation) :=
  (suited_compute _).bind fun _ ↦ suited_modify _

theorem suited_performTestBit (h : i.HasBoth Kind.marks) : Suited (performTestBit i) := by
  refine suited_bothOperands h fun lhs rhs hkinds ↦ ?_
  obtain ⟨⟨index, rfl⟩, hfield⟩ := Operand.marks_cases hkinds
  exact (suited_readByte (isByte_of_isField hfield)).bind fun _ ↦ suited_modify _

theorem suited_performChangeBit (h : i.HasBoth Kind.marks) (change : UInt8 → UInt8 → UInt8) :
    Suited (performChangeBit i change) := by
  refine suited_bothOperands h fun lhs rhs hkinds ↦ ?_
  obtain ⟨⟨index, rfl⟩, hfield⟩ := Operand.marks_cases hkinds
  exact (suited_readByte (isByte_of_isField hfield)).bind fun _ ↦
    suited_writeByte (isPlace_of_isField hfield) _

/-! ## Transfers and the stack -/

theorem suited_jumpTo (addr : UInt16) : Suited (jumpTo addr) := suited_modify _

/-- A transfer whose goal is suited. -/
theorem suited_performJump {goal : Kind → Bool} (h : i.HasBoth (Kind.transfers goal))
    (hgoal : ∀ rhs : Operand, goal rhs.kind → Suited (transferTarget i rhs)) :
    Suited (performJump i) := by
  refine suited_bothOperands h fun lhs rhs hkinds ↦ ?_
  obtain ⟨⟨condition, rfl⟩, hrhs⟩ := Operand.transfers_cases hkinds
  refine suited_look.bind fun r ↦ ?_
  split
  · exact (hgoal rhs hrhs).bind fun _ ↦ (suited_jumpTo _).bind fun _ ↦ suited_pure _
  · exact suited_pure _

theorem suited_jr (hop : i.opcode = .jr) {rhs : Operand} (h : rhs.kind == .offset) :
    Suited (transferTarget i rhs) := by
  obtain ⟨displacement, rfl⟩ := Operand.form_of_kind (beq_iff_eq.1 h)
  refine suited_look.bind fun r ↦ ?_
  rw [hop]
  exact suited_pure _

theorem suited_jp (hop : i.opcode = .jp) {rhs : Operand} (h : rhs.kind.isWord) :
    Suited (transferTarget i rhs) := by
  refine suited_look.bind fun r ↦ ?_
  rw [hop]
  exact suited_readOperand (by rw [h, Bool.or_true])

theorem suited_call (hop : i.opcode = .call) {rhs : Operand} (h : rhs.kind == .word) :
    Suited (transferTarget i rhs) := by
  refine suited_look.bind fun r ↦ ?_
  rw [hop]
  refine (suited_readOperand ?_).bind fun _ ↦ (suited_pushWord _).bind fun _ ↦ suited_pure _
  rw [beq_iff_eq.1 h]
  rfl

theorem suited_performReturn (h : i.HasSole (· == .condition)) : Suited (performReturn i) := by
  refine suited_soleOperand h fun operand hkind ↦ ?_
  obtain ⟨condition, rfl⟩ := Operand.form_of_kind (beq_iff_eq.1 hkind)
  refine suited_look.bind fun r ↦ ?_
  split
  · exact suited_popWord.bind fun _ ↦ (suited_jumpTo _).bind fun _ ↦ suited_pure _
  · exact suited_pure _

theorem suited_performReturnFromInterrupt (h : i.HasSole (· == .condition)) :
    Suited (performReturnFromInterrupt i) := by
  refine (suited_performReturn h).bind fun taken ↦ ?_
  split
  · exact (finishes_modifyCpu _).suited.bind fun _ ↦ suited_pure _
  · exact suited_pure _

theorem suited_performRestart (h : i.HasSole (· == .vector)) : Suited (performRestart i) := by
  refine suited_soleOperand h fun operand hkind ↦ ?_
  obtain ⟨addr, rfl⟩ := Operand.form_of_kind (beq_iff_eq.1 hkind)
  exact suited_look.bind fun r ↦ (suited_pushWord _).bind fun _ ↦ suited_jumpTo _

theorem suited_performPush (h : i.HasSole Kind.isPair) : Suited (performPush i) := by
  refine suited_soleOperand h fun operand hkind ↦ ?_
  obtain ⟨register, rfl⟩ := Operand.exists_pair hkind
  exact suited_look.bind fun r ↦ suited_pushWord _

theorem suited_performPop (h : i.HasSole Kind.isPair) : Suited (performPop i) := by
  refine suited_soleOperand h fun operand hkind ↦ ?_
  obtain ⟨register, rfl⟩ := Operand.exists_pair hkind
  exact suited_popWord.bind fun _ ↦ suited_modify _

/-! ## All instructions -/

theorem suited_performPlain (h : i.Fits)
    (hop : i.opcode ≠ .jr ∧ i.opcode ≠ .jp ∧ i.opcode ≠ .call ∧ i.opcode ≠ .ret ∧
      i.opcode ≠ .reti) : Suited (performPlain i) := by
  rw [Instruction.Fits] at h
  rw [performPlain]
  cases hi : i.opcode <;> rw [hi] at h
  case jr | jp | call | ret | reti => simp [hi] at hop
  case nop => exact suited_pure ()
  case ld | ldh => exact suited_performLoad h
  case inc | dec => exact suited_performStep h _ _
  case add | adc => exact suited_performAdd h _
  case sub | sbc | and | xor | or => exact suited_performAccumulator h _
  case cp => exact suited_performCompare h
  case rlca | rla | rrca | rra => exact suited_performRotate _
  case daa | cpl => exact suited_performUnary _
  case scf | ccf => exact suited_modify _
  case rst => exact suited_performRestart h
  case push => exact suited_performPush h
  case pop => exact suited_performPop h
  case di | ei | halt => exact (finishes_modifyCpu _).suited
  case stop => exact suited_store _ _
  case rlc | rrc | rl | rr | sla | sra | swap | srl => exact suited_performShift h _
  case bit => exact suited_performTestBit h
  case res | set => exact suited_performChangeBit h _

/-- **No operand stops an instruction whose operands fit.** -/
theorem suited_perform (h : i.Fits) : Suited (perform i) := by
  have hplain := suited_performPlain h
  rw [Instruction.Fits] at h
  unfold perform
  cases hi : i.opcode <;> rw [hi] at h
  case jr => exact suited_performJump h fun _ ↦ suited_jr hi
  case jp => exact suited_performJump h fun _ ↦ suited_jp hi
  case call => exact suited_performJump h fun _ ↦ suited_call hi
  case ret => exact suited_performReturn h
  case reti => exact suited_performReturnFromInterrupt h
  all_goals exact (hplain (by simp [hi])).bind fun _ ↦ suited_pure _

theorem fits_of_fetch {c : Console} (h : (fetch c).result = .ok i) : i.Fits :=
  Instruction.fits_of_decode (decode_of_fetch h)

end

end

end DotMatrix.Console
