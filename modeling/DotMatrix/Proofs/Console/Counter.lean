import DotMatrix.Proofs.Console.Footprint
import DotMatrix.Proofs.Instruction.Shape

/-!
# Instructions that leave the program counter alone

The program counter points past an instruction before that is carried out, and no decoded operand
names it.  So it is moved again only by transfers and by calls of a fixed address.

* `Instruction.Steers` — no operand names the program counter, and the goals of jumps.
* `Steady` — an operation that leaves the program counter alone.
* `steady_performPlain` — all instructions but transfers and calls of a fixed address.
-/

set_option autoImplicit false

namespace DotMatrix

/-! ## What operands name -/

namespace Operand

/-- The operand does not name the program counter. -/
def sparesCounter : Operand → Bool
  | .reg16 register _ => register ≠ .pc
  | _ => true

/-- An immediate word or `hl`. -/
def isGoal : Operand → Bool
  | .imm16 _ mode => mode = .immediate
  | .reg16 register mode => register = .hl ∧ mode = .immediate
  | _ => false

theorem sparesCounter_blank (o : Operand) : o.blank.sparesCounter = o.sparesCounter := by
  cases o <;> rfl

theorem isGoal_blank (o : Operand) : o.blank.isGoal = o.isGoal := by
  cases o <;> rfl

theorem goal_cases {o : Operand} (h : o.isGoal) :
    (∃ addr, o = .imm16 addr .immediate) ∨ o = .reg16 .hl .immediate := by
  cases o with
  | imm16 addr mode =>
    obtain rfl : mode = .immediate := of_decide_eq_true h
    exact .inl ⟨addr, rfl⟩
  | reg16 register mode =>
    obtain ⟨rfl, rfl⟩ : register = .hl ∧ mode = .immediate := of_decide_eq_true h
    exact .inr rfl
  | _ => cases h

end Operand

namespace Instruction

/-- No operand names the program counter, and a jump goes to an immediate word or to `hl`. -/
def Steers (i : Instruction) : Prop :=
  (i.lhs.all Operand.sparesCounter ∧ i.rhs.all Operand.sparesCounter) ∧
  (i.opcode = .jp → i.rhs.any Operand.isGoal)

instance (i : Instruction) : Decidable i.Steers := inferInstanceAs (Decidable (_ ∧ _))

/-- Immediates do not change what operands name. -/
theorem Steers.of_blank {i : Instruction} (h : i.blank.Steers) : i.Steers := by
  have hspares : ∀ o : Option Operand,
      (o.map Operand.blank).all Operand.sparesCounter = o.all Operand.sparesCounter := fun o ↦ by
    cases o with
    | none => rfl
    | some o => exact o.sparesCounter_blank
  have hgoal : ∀ o : Option Operand,
      (o.map Operand.blank).any Operand.isGoal = o.any Operand.isGoal := fun o ↦ by
    cases o with
    | none => rfl
    | some o => exact o.isGoal_blank
  rw [Steers, blank, hspares, hspares, hgoal] at h
  exact h

/-- Every instruction that is decoded steers in this way. -/
theorem steers_of_decode {σ : Type} {read : UInt16 → Exec σ UInt8} {pc : UInt16} {s : σ}
    {i : Instruction} (h : (decode read Exec.fail pc s).result = .ok i) : i.Steers := by
  refine of_decode h (fun _ ↦ .of_blank) (fun ht ↦ ?_) (fun ht ↦ ?_)
  all_goals
    apply forall_template ht
    decide +kernel

end Instruction

/-! ## Registers -/

namespace Registers

variable (r : Registers)

theorem pc_set (register : Reg8) (value : UInt8) : (r.set register value).pc = r.pc := by
  cases register <;> rfl

theorem pc_setPair {register : Reg16} (h : register ≠ .pc) (value : UInt16) :
    (r.setPair register value).pc = r.pc := by
  cases register with
  | pc => exact absurd rfl h
  | af | bc | de | hl | sp => rfl

end Registers

namespace Console

/-! ## What operations are made of -/

/-- The program counter stays as it is. -/
def KeepsCounter (c : Console) (_ : Array Record) (c' : Console) : Prop :=
  c'.cpu.registers.pc = c.cpu.registers.pc

theorem keepsCounter_chains : Exec.Chains KeepsCounter where
  refl _ := rfl
  trans h h' := h'.trans h

/-- The operation leaves the program counter alone. -/
def Steady {α : Type} (x : Exec Console α) : Prop := Exec.Always KeepsCounter x

section

variable {α β : Type}

theorem steady_pure (a : α) : Steady (pure a) := Exec.Always.pure keepsCounter_chains a

theorem steady_fail (fault : Fault) : Steady (Exec.fail fault : Exec Console α) :=
  Exec.Always.fail keepsCounter_chains fault

/-- What comes behind a failure is not run. -/
theorem steady_fail_bind (fault : Fault) (f : α → Exec Console β) :
    Steady (Exec.fail fault >>= f) := fun c ↦ by
  rw [Exec.bind_of_error (Exec.fail_apply c fault)]
  rfl

theorem Steady.bind {x : Exec Console α} {f : α → Exec Console β} (hx : Steady x)
    (hf : ∀ a, Steady (f a)) : Steady (x >>= f) := Exec.Always.bind keepsCounter_chains hx hf

theorem steady_look : Steady registers := Exec.Always.gets keepsCounter_chains _

theorem steady_compute {f : Registers → α × Registers} (h : ∀ r, (f r).2.pc = r.pc) :
    Steady (compute f) := fun c ↦ h c.cpu.registers

theorem steady_modify {f : Registers → Registers} (h : ∀ r, (f r).pc = r.pc) :
    Steady (modifyRegisters f) := fun c ↦ h c.cpu.registers

theorem steady_onHardware (x : Exec Hardware α) : Steady (onHardware x) := fun _ ↦ rfl

end

/-! ## Operands and the stack -/

theorem steady_stepPointer {register : Reg16} (h : register ≠ .pc) (mode : Mode) :
    Steady (stepPointer register mode) := by
  rw [stepPointer]
  split
  · exact steady_modify fun r ↦ r.pc_setPair h _
  split
  · exact steady_modify fun r ↦ r.pc_setPair h _
  · exact steady_pure ()

theorem steady_loadExtended (addr : UInt16) : Steady (loadExtended addr) :=
  Steady.bind (steady_onHardware _) fun _ ↦ steady_pure _

theorem steady_readOperand {operand : Operand} (h : operand.sparesCounter) :
    Steady (readOperand operand) := by
  unfold readOperand
  split
  · refine steady_look.bind fun r ↦ ?_
    split
    · exact steady_loadExtended _
    · exact steady_pure _
  · refine steady_look.bind fun r ↦ ?_
    split
    · exact (steady_loadExtended _).bind fun _ ↦
        (steady_stepPointer (of_decide_eq_true h) _).bind fun _ ↦ steady_pure _
    · exact steady_pure _
  · split
    · exact steady_loadExtended _
    · exact steady_pure _
  · split
    · exact steady_loadExtended _
    · exact steady_pure _
  · exact steady_compute fun _ ↦ rfl
  · exact steady_fail _

theorem steady_readByte {operand : Operand} (h : operand.sparesCounter) :
    Steady (readByte operand) := (steady_readOperand h).bind fun _ ↦ steady_pure _

theorem steady_writeByte {operand : Operand} (h : operand.sparesCounter) (value : UInt8) :
    Steady (writeByte operand value) := by
  unfold writeByte
  split
  · refine steady_look.bind fun r ↦ ?_
    split
    · exact steady_onHardware _
    · exact steady_modify fun r ↦ r.pc_set _ _
  · refine steady_look.bind fun r ↦ ?_
    split
    · exact Steady.bind (steady_onHardware _) fun _ ↦ steady_stepPointer (of_decide_eq_true h) _
    · exact steady_fail _
  · split
    · exact steady_onHardware _
    · exact steady_fail _
  · split
    · exact steady_onHardware _
    · exact steady_fail _
  · exact steady_fail _

theorem steady_pushByte (value : UInt8) : Steady (pushByte value) :=
  steady_look.bind fun _ ↦ Steady.bind (steady_modify fun _ ↦ rfl) fun _ ↦ steady_onHardware _

theorem steady_pushWord (value : UInt16) : Steady (pushWord value) :=
  (steady_pushByte _).bind fun _ ↦ steady_pushByte _

theorem steady_popByte : Steady popByte :=
  steady_look.bind fun _ ↦ Steady.bind (steady_onHardware _) fun _ ↦
    Steady.bind (steady_modify fun _ ↦ rfl) fun _ ↦ steady_pure _

theorem steady_popWord : Steady popWord :=
  steady_popByte.bind fun _ ↦ steady_popByte.bind fun _ ↦ steady_pure _

/-! ## Instructions -/

section

variable {β : Type} {i : Instruction} {operation : Registers → UInt8 → UInt8 × Registers}

theorem steady_soleOperand (h : i.Steers) {f : Operand → Exec Console β}
    (hf : ∀ operand : Operand, operand.sparesCounter → Steady (f operand)) :
    Steady (soleOperand i >>= f) := by
  obtain ⟨⟨hl, -⟩, -⟩ := h
  rw [soleOperand.eq_def]
  cases hlhs : i.lhs with
  | none => exact steady_fail_bind _ f
  | some operand =>
    rw [hlhs] at hl
    rw [pure_bind]
    exact hf operand hl

theorem steady_bothOperands (h : i.Steers) {f : Operand × Operand → Exec Console β}
    (hf : ∀ lhs rhs : Operand, lhs.sparesCounter → rhs.sparesCounter → Steady (f (lhs, rhs))) :
    Steady (bothOperands i >>= f) := by
  obtain ⟨⟨hl, hr⟩, -⟩ := h
  rw [bothOperands.eq_def]
  cases hlhs : i.lhs with
  | none => exact steady_fail_bind _ f
  | some lhs =>
    cases hrhs : i.rhs with
    | none => exact steady_fail_bind _ f
    | some rhs =>
      rw [hlhs] at hl
      rw [hrhs] at hr
      rw [pure_bind]
      exact hf lhs rhs hl hr

theorem steady_performLoad (h : i.Steers) : Steady (performLoad i) := by
  refine steady_bothOperands h fun lhs rhs hl hr ↦ ?_
  split
  · exact steady_look.bind fun _ ↦ steady_onHardware _
  · rename_i register _ _ source heq
    cases heq
    exact (steady_readOperand hr).bind fun value ↦
      steady_modify fun r ↦ r.pc_setPair (of_decide_eq_true hl) value
  · rename_i heq
    cases heq
    exact (steady_readByte hr).bind fun value ↦ steady_writeByte hl value

/-- An operation of the arithmetic unit that leaves the program counter alone. -/
def SparesCounter (operation : Registers → UInt8 → UInt8 × Registers) : Prop :=
  ∀ r x, (operation r x).2.pc = r.pc

theorem steady_intoAccumulator (hop : SparesCounter operation) {source : Operand}
    (h : source.sparesCounter) : Steady (intoAccumulator operation source) :=
  (steady_readByte h).bind fun value ↦ Steady.bind (steady_compute fun r ↦ hop r value) fun _ ↦
    steady_modify fun _ ↦ rfl

theorem steady_performAdd (h : i.Steers) (hop : SparesCounter operation) :
    Steady (performAdd i operation) := by
  refine steady_bothOperands h fun lhs rhs hl hr ↦ ?_
  split
  · rename_i heq
    cases heq
    exact (steady_readOperand hr).bind fun value ↦ Steady.bind (steady_compute fun _ ↦ rfl) fun _ ↦
      steady_modify fun _ ↦ rfl
  · exact Steady.bind (steady_compute fun _ ↦ rfl) fun _ ↦ steady_modify fun _ ↦ rfl
  · rename_i heq
    cases heq
    exact steady_intoAccumulator hop hr

theorem steady_performAccumulator (h : i.Steers) (hop : SparesCounter operation) :
    Steady (performAccumulator i operation) :=
  steady_bothOperands h fun _ _ _ hr ↦ steady_intoAccumulator hop hr

theorem steady_performCompare (h : i.Steers) : Steady (performCompare i) :=
  steady_bothOperands h fun _ _ _ hr ↦ (steady_readByte hr).bind fun _ ↦ steady_modify fun _ ↦ rfl

/-- A byte is read, changed and put back. -/
theorem steady_change {operand : Operand} (h : operand.sparesCounter)
    (hop : SparesCounter operation) :
    Steady (do
      let value ← readByte operand
      let result ← compute (operation · value)
      writeByte operand result) :=
  (steady_readByte h).bind fun value ↦ Steady.bind (steady_compute fun r ↦ hop r value) fun _ ↦
    steady_writeByte h _

theorem steady_performStep (h : i.Steers) {stepPair : Registers → Reg16 → Registers}
    (hpair : ∀ (r : Registers) (register : Reg16), register ≠ .pc →
      (stepPair r register).pc = r.pc) (hop : SparesCounter operation) :
    Steady (performStep i stepPair operation) := by
  refine steady_soleOperand h fun operand ho ↦ ?_
  split
  · exact steady_modify fun r ↦ hpair r _ (of_decide_eq_true ho)
  · exact steady_change ho hop

theorem steady_performShift (h : i.Steers) (hop : SparesCounter operation) :
    Steady (performShift i operation) :=
  steady_soleOperand h fun _ ho ↦ steady_change ho hop

theorem steady_performRotate (hop : SparesCounter operation) :
    Steady (performRotate operation) :=
  Steady.bind (steady_compute fun r ↦ hop r r.a) fun _ ↦ steady_modify fun _ ↦ rfl

theorem steady_performUnary {operation : Registers → UInt8 × Registers}
    (hop : ∀ r, (operation r).2.pc = r.pc) : Steady (performUnary operation) :=
  Steady.bind (steady_compute hop) fun _ ↦ steady_modify fun _ ↦ rfl

theorem steady_performTestBit (h : i.Steers) : Steady (performTestBit i) := by
  refine steady_bothOperands h fun lhs rhs _ hr ↦ ?_
  split
  · rename_i heq
    cases heq
    exact (steady_readByte hr).bind fun _ ↦ steady_modify fun _ ↦ rfl
  · exact steady_fail _

theorem steady_performChangeBit (h : i.Steers) (change : UInt8 → UInt8 → UInt8) :
    Steady (performChangeBit i change) := by
  refine steady_bothOperands h fun lhs rhs _ hr ↦ ?_
  split
  · rename_i heq
    cases heq
    exact (steady_readByte hr).bind fun _ ↦ steady_writeByte hr _
  · exact steady_fail _

theorem steady_performPush (h : i.Steers) : Steady (performPush i) := by
  refine steady_soleOperand h fun operand _ ↦ ?_
  split
  · exact steady_look.bind fun _ ↦ steady_pushWord _
  · exact steady_fail _

theorem steady_performPop (h : i.Steers) : Steady (performPop i) := by
  refine steady_soleOperand h fun operand ho ↦ ?_
  split
  · exact steady_popWord.bind fun value ↦
      steady_modify fun r ↦ r.pc_setPair (of_decide_eq_true ho) value
  · exact steady_fail _

/-- Everything but transfers and calls of a fixed address leaves the program counter alone. -/
theorem steady_performPlain (h : i.Steers) (hrst : i.opcode ≠ .rst) : Steady (performPlain i) := by
  rw [performPlain]
  cases hop : i.opcode with
  | rst => exact absurd hop hrst
  | nop => exact steady_pure ()
  | ld | ldh => exact steady_performLoad h
  | inc | dec =>
    exact steady_performStep h (fun r _ hne ↦ r.pc_setPair hne _) fun _ _ ↦ rfl
  | add | adc => exact steady_performAdd h fun _ _ ↦ rfl
  | sub | sbc | and | xor | or => exact steady_performAccumulator h fun _ _ ↦ rfl
  | cp => exact steady_performCompare h
  | rlca | rla | rrca | rra => exact steady_performRotate fun _ _ ↦ rfl
  | daa | cpl => exact steady_performUnary fun _ ↦ rfl
  | scf | ccf => exact steady_modify fun _ ↦ rfl
  | push => exact steady_performPush h
  | pop => exact steady_performPop h
  | di | ei | halt => exact fun _ ↦ rfl
  | stop => exact steady_onHardware _
  | rlc | rrc | rl | rr | sla | sra | swap | srl => exact steady_performShift h fun _ _ ↦ rfl
  | bit => exact steady_performTestBit h
  | res | set => exact steady_performChangeBit h _
  | jr | jp | call | ret | reti => exact steady_fail _

end

end Console

end DotMatrix
