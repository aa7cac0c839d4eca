import DotMatrix.Console.Step
import DotMatrix.Proofs.Exec

/-!
# What instructions touch

An instruction changes the machine only through its register file, its loads and its stores, and a
few through the processor's switches.  So a property of operations that passes from parts to what is
put together from them holds of every instruction as soon as it holds of these.

* `CoversReads P`, `Covers P` — that `P` is such a property, without stores and with them.  The
  lemmas carry it to `Covers.perform`, in the order in which instructions are put together.
* `covers_always` — the properties of every run that `Exec.Always` makes of a relation.
-/

set_option autoImplicit false

namespace DotMatrix.Console

open Exec (Always)

section

variable {α : Type} (x : Exec Hardware α) (c : Console)

@[simp] theorem result_onHardware : (onHardware x c).result = (x c.hardware).result := rfl

@[simp] theorem state_onHardware :
    (onHardware x c).state = { c with hardware := (x c.hardware).state } := rfl

@[simp] theorem records_onHardware : (onHardware x c).records = (x c.hardware).records := rfl

end

@[simp] theorem bind_modifyCpu {α : Type} (f : Cpu → Cpu) (k : Unit → Exec Console α)
    (c : Console) : (modifyCpu f >>= k) c = k () { c with cpu := f c.cpu } :=
  (Exec.bind_of_ok (x := modifyCpu f) rfl k).trans (Outcome.after_empty _)

theorem onHardware_bind {α β : Type} (x : Exec Hardware α) (f : α → Exec Hardware β) :
    onHardware (x >>= f) = (do let a ← onHardware x; onHardware (f a)) := by
  funext ⟨cpu, hw⟩
  rcases hx : x hw with ⟨fault | a, hw', records⟩
  · have h1 : onHardware x ⟨cpu, hw⟩ = ⟨.error fault, ⟨cpu, hw'⟩, records⟩ := by
      rw [onHardware, hx]
    rw [onHardware, Exec.bind_of_error hx, Exec.bind_of_error h1]
  · have h1 : onHardware x ⟨cpu, hw⟩ = ⟨.ok a, ⟨cpu, hw'⟩, records⟩ := by
      rw [onHardware, hx]
    rw [onHardware, Exec.bind_of_ok hx, Exec.bind_of_ok h1]
    rfl

/-! ## Properties of what is put together -/

/-- A property of operations that passes to what is put together from them, and that what
instructions do short of storing has. -/
structure CoversReads (P : (α : Type) → Exec Console α → Prop) : Prop where
  pure : ∀ {α : Type} (a : α), P α (Pure.pure a)
  bind : ∀ {α β : Type} {x : Exec Console α} {f : α → Exec Console β},
    P α x → (∀ a, P β (f a)) → P β (x >>= f)
  mismatched : ∀ {α : Type} (i : Instruction), P α (Exec.fail (.mismatchedOperands i))
  unusable : ∀ {α : Type} (operand : Operand), P α (Exec.fail (.unusableOperand operand))
  look : P Registers registers
  compute : ∀ {α : Type} (f : Registers → α × Registers), P α (Console.compute f)
  load : ∀ addr, P UInt8 (Console.load addr)

/-- Such a property that stores have too. -/
structure Covers (P : (α : Type) → Exec Console α → Prop) : Prop extends CoversReads P where
  store : ∀ addr value, P Unit (Console.store addr value)

/-- What every run of an operation does, by a relation that runs can be chained in. -/
theorem coversReads_always {R : Console → Array Record → Console → Prop} (h : Exec.Chains R)
    (registers : ∀ (c : Console) (registers : Registers),
      R c #[] { c with cpu := { c.cpu with registers := registers } })
    (load : ∀ addr, Always R (Console.load addr)) : CoversReads fun _ ↦ Always R where
  pure := Always.pure h
  bind := Always.bind h
  mismatched _ := Always.fail h _
  unusable _ := Always.fail h _
  look := Always.gets h _
  compute f c := registers c (f c.cpu.registers).2
  load := load

theorem covers_always {R : Console → Array Record → Console → Prop} (h : Exec.Chains R)
    (registers : ∀ (c : Console) (registers : Registers),
      R c #[] { c with cpu := { c.cpu with registers := registers } })
    (load : ∀ addr, Always R (Console.load addr))
    (store : ∀ addr value, Always R (Console.store addr value)) : Covers fun _ ↦ Always R where
  toCoversReads := coversReads_always h registers load
  store := store

/-! ## Operations that do not store -/

namespace CoversReads

variable {P : (α : Type) → Exec Console α → Prop} (h : CoversReads P)

include h

/-- Changing the register file is an operation of the arithmetic unit without a result. -/
theorem modify (f : Registers → Registers) : P _ (modifyRegisters f) :=
  h.compute fun r ↦ ((), f r)

theorem stepPointer (register : Reg16) (mode : Mode) :
    P _ (Console.stepPointer register mode) := by
  rw [Console.stepPointer]
  split
  · exact h.modify _
  split
  · exact h.modify _
  · exact h.pure _

theorem loadExtended (addr : UInt16) : P _ (Console.loadExtended addr) :=
  h.bind (h.load addr) fun _ ↦ h.pure _

theorem readOperand (operand : Operand) : P _ (Console.readOperand operand) := by
  unfold Console.readOperand
  split
  · refine h.bind h.look fun r ↦ ?_
    split
    · exact h.loadExtended _
    · exact h.pure _
  · refine h.bind h.look fun r ↦ ?_
    split
    · exact h.bind (h.loadExtended _) fun _ ↦ h.bind (h.stepPointer _ _) fun _ ↦ h.pure _
    · exact h.pure _
  · split
    · exact h.loadExtended _
    · exact h.pure _
  · split
    · exact h.loadExtended _
    · exact h.pure _
  · exact h.compute _
  · exact h.unusable _

theorem readByte (operand : Operand) : P _ (Console.readByte operand) :=
  h.bind (h.readOperand operand) fun _ ↦ h.pure _

theorem soleOperand (i : Instruction) : P _ (Console.soleOperand i) := by
  unfold Console.soleOperand
  split
  · exact h.pure _
  · exact h.mismatched _

theorem bothOperands (i : Instruction) : P _ (Console.bothOperands i) := by
  unfold Console.bothOperands
  split
  · exact h.pure _
  · exact h.mismatched _

theorem popByte : P _ Console.popByte :=
  h.bind h.look fun _ ↦ h.bind (h.load _) fun _ ↦ h.bind (h.modify _) fun _ ↦ h.pure _

theorem popWord : P _ Console.popWord :=
  h.bind h.popByte fun _ ↦ h.bind h.popByte fun _ ↦ h.pure _

theorem popPair (register : Reg16) : P _ (Console.popPair register) :=
  h.bind h.popWord fun _ ↦ h.modify _

theorem intoAccumulator (operation : Registers → UInt8 → UInt8 × Registers) (source : Operand) :
    P _ (Console.intoAccumulator operation source) :=
  h.bind (h.readByte _) fun _ ↦ h.bind (h.compute _) fun _ ↦ h.modify _

theorem performAdd (i : Instruction) (operation : Registers → UInt8 → UInt8 × Registers) :
    P _ (Console.performAdd i operation) := by
  refine h.bind (h.bothOperands i) fun operands ↦ ?_
  split
  · exact h.bind (h.readOperand _) fun _ ↦ h.bind (h.compute _) fun _ ↦ h.modify _
  · exact h.bind (h.compute _) fun _ ↦ h.modify _
  · exact h.intoAccumulator _ _

theorem performAccumulator (i : Instruction)
    (operation : Registers → UInt8 → UInt8 × Registers) :
    P _ (Console.performAccumulator i operation) :=
  h.bind (h.bothOperands i) fun _ ↦ h.intoAccumulator _ _

theorem performCompare (i : Instruction) : P _ (Console.performCompare i) :=
  h.bind (h.bothOperands i) fun _ ↦ h.bind (h.readByte _) fun _ ↦ h.modify _

theorem performRotate (operation : Registers → UInt8 → UInt8 × Registers) :
    P _ (Console.performRotate operation) :=
  h.bind (h.compute _) fun _ ↦ h.modify _

theorem performUnary (operation : Registers → UInt8 × Registers) :
    P _ (Console.performUnary operation) :=
  h.bind (h.compute _) fun _ ↦ h.modify _

theorem performTestBit (i : Instruction) : P _ (Console.performTestBit i) := by
  refine h.bind (h.bothOperands i) fun operands ↦ ?_
  split
  · exact h.bind (h.readByte _) fun _ ↦ h.modify _
  · exact h.mismatched _

theorem jumpTo (addr : UInt16) : P _ (Console.jumpTo addr) := h.modify _

theorem performReturn (i : Instruction) : P _ (Console.performReturn i) := by
  refine h.bind (h.soleOperand i) fun operand ↦ ?_
  split
  · refine h.bind h.look fun r ↦ ?_
    split
    · exact h.bind h.popWord fun _ ↦ h.bind (h.jumpTo _) fun _ ↦ h.pure _
    · exact h.pure _
  · exact h.mismatched _

theorem performPop (i : Instruction) : P _ (Console.performPop i) := by
  refine h.bind (h.soleOperand i) fun operand ↦ ?_
  split
  · exact h.popPair _
  · exact h.unusable _

end CoversReads

namespace Covers

variable {P : (α : Type) → Exec Console α → Prop} (h : Covers P)

include h

/-! ## Operands -/

theorem writeByte (operand : Operand) (value : UInt8) :
    P _ (Console.writeByte operand value) := by
  unfold Console.writeByte
  split
  · refine h.bind h.look fun r ↦ ?_
    split
    · exact h.store _ _
    · exact h.modify _
  · refine h.bind h.look fun r ↦ ?_
    split
    · exact h.bind (h.store _ _) fun _ ↦ h.stepPointer _ _
    · exact h.unusable _
  · split
    · exact h.store _ _
    · exact h.unusable _
  · split
    · exact h.store _ _
    · exact h.unusable _
  · exact h.unusable _

/-! ## The stack -/

theorem pushByte (value : UInt8) : P _ (Console.pushByte value) :=
  h.bind h.look fun _ ↦ h.bind (h.modify _) fun _ ↦ h.store _ _

theorem pushWord (value : UInt16) : P _ (Console.pushWord value) :=
  h.bind (h.pushByte _) fun _ ↦ h.pushByte _

theorem pushPair (register : Reg16) : P _ (Console.pushPair register) :=
  h.bind h.look fun _ ↦ h.pushWord _

/-! ## Moves and arithmetic -/

theorem storeWord (addr : UInt16) (value : UInt16) :
    P _ (onHardware (Hardware.writeWord addr value)) := by
  have hs : onHardware (Hardware.writeWord addr value) = (do
      Console.store addr (lowByte value)
      Console.store (addr + 1) (highByte value)) := by
    rw [Hardware.writeWord, onHardware_bind]
    rfl
  rw [hs]
  exact h.bind (h.store _ _) fun _ ↦ h.store _ _

theorem performLoad (i : Instruction) : P _ (Console.performLoad i) := by
  refine h.bind (h.bothOperands i) fun operands ↦ ?_
  split
  · exact h.bind h.look fun _ ↦ h.storeWord _ _
  · exact h.bind (h.readOperand _) fun _ ↦ h.modify _
  · exact h.bind (h.readByte _) fun _ ↦ h.writeByte _ _

theorem performStep (i : Instruction) (stepPair : Registers → Reg16 → Registers)
    (stepByte : Registers → UInt8 → UInt8 × Registers) :
    P _ (Console.performStep i stepPair stepByte) := by
  refine h.bind (h.soleOperand i) fun operand ↦ ?_
  split
  · exact h.modify _
  · exact h.bind (h.readByte _) fun _ ↦ h.bind (h.compute _) fun _ ↦ h.writeByte _ _

theorem performShift (i : Instruction) (operation : Registers → UInt8 → UInt8 × Registers) :
    P _ (Console.performShift i operation) :=
  h.bind (h.soleOperand i) fun _ ↦ h.bind (h.readByte _) fun _ ↦
    h.bind (h.compute _) fun _ ↦ h.writeByte _ _

theorem performChangeBit (i : Instruction) (change : UInt8 → UInt8 → UInt8) :
    P _ (Console.performChangeBit i change) := by
  refine h.bind (h.bothOperands i) fun operands ↦ ?_
  split
  · exact h.bind (h.readByte _) fun _ ↦ h.writeByte _ _
  · exact h.mismatched _

/-! ## Control transfers -/

theorem transferTarget (i : Instruction) (target : Operand) :
    P _ (Console.transferTarget i target) := by
  refine h.bind h.look fun r ↦ ?_
  split
  · exact h.pure _
  · exact h.readOperand _
  · exact h.bind (h.readOperand _) fun _ ↦ h.bind (h.pushWord _) fun _ ↦ h.pure _
  · exact h.mismatched _

theorem performJump (i : Instruction) : P _ (Console.performJump i) := by
  refine h.bind (h.bothOperands i) fun operands ↦ ?_
  split
  · refine h.bind h.look fun r ↦ ?_
    split
    · exact h.bind (h.transferTarget _ _) fun _ ↦ h.bind (h.jumpTo _) fun _ ↦ h.pure _
    · exact h.pure _
  · exact h.mismatched _

theorem performRestart (i : Instruction) : P _ (Console.performRestart i) := by
  refine h.bind (h.soleOperand i) fun operand ↦ ?_
  split
  · exact h.bind h.look fun _ ↦ h.bind (h.pushWord _) fun _ ↦ h.jumpTo _
  · exact h.mismatched _

theorem performPush (i : Instruction) : P _ (Console.performPush i) := by
  refine h.bind (h.soleOperand i) fun operand ↦ ?_
  split
  · exact h.pushPair _
  · exact h.unusable _

/-! ## All instructions -/

/-- Every instruction that is no transfer and touches no switch. -/
theorem performPlain {i : Instruction} (hdi : i.opcode ≠ .di) (hei : i.opcode ≠ .ei)
    (hhalt : i.opcode ≠ .halt) : P _ (Console.performPlain i) := by
  rw [Console.performPlain]
  cases hop : i.opcode with
  | nop => exact h.pure _
  | ld | ldh => exact h.performLoad i
  | inc | dec => exact h.performStep i _ _
  | add | adc => exact h.performAdd i _
  | sub | sbc | and | xor | or => exact h.performAccumulator i _
  | cp => exact h.performCompare i
  | rlca | rla | rrca | rra => exact h.performRotate _
  | daa | cpl => exact h.performUnary _
  | scf | ccf => exact h.modify _
  | rst => exact h.performRestart i
  | push => exact h.performPush i
  | pop => exact h.performPop i
  | di => exact absurd hop hdi
  | ei => exact absurd hop hei
  | halt => exact absurd hop hhalt
  | stop => exact h.store _ _
  | rlc | rrc | rl | rr | sla | sra | swap | srl => exact h.performShift i _
  | bit => exact h.performTestBit i
  | res | set => exact h.performChangeBit i _
  | jr | jp | call | ret | reti => exact h.mismatched _

/-- Every instruction that touches no switch. -/
theorem perform {i : Instruction} (hdi : i.opcode ≠ .di) (hei : i.opcode ≠ .ei)
    (hhalt : i.opcode ≠ .halt) (hreti : i.opcode ≠ .reti) : P _ (Console.perform i) := by
  unfold Console.perform
  split
  · exact h.performJump i
  · exact h.performJump i
  · exact h.performJump i
  · exact h.performReturn i
  · contradiction
  · exact h.bind (h.performPlain hdi hei hhalt) fun _ ↦ h.pure _

/-- Every instruction, when the switches may change too. -/
theorem perform_of_cpu (hmodify : ∀ f : Cpu → Cpu, P _ (modifyCpu f)) (i : Instruction) :
    P _ (Console.perform i) := by
  by_cases hreti : i.opcode = .reti
  · unfold Console.perform
    rw [hreti]
    refine h.bind (h.performReturn i) fun taken ↦ ?_
    split
    · exact h.bind (hmodify _) fun _ ↦ h.pure _
    · exact h.pure _
  by_cases hswitch : i.opcode = .di ∨ i.opcode = .ei ∨ i.opcode = .halt
  · rcases hswitch with hop | hop | hop <;> unfold Console.perform <;> rw [hop] <;>
      refine h.bind ?_ fun _ ↦ h.pure _ <;> rw [Console.performPlain, hop] <;> exact hmodify _
  · rw [not_or, not_or] at hswitch
    exact h.perform hswitch.1 hswitch.2.1 hswitch.2.2 hreti

end Covers

/-! ## The parts of a step -/

/-- What a step does up to its interrupt check. -/
def toCheck : Exec Console Nat := fun c ↦ if c.cpu.halted then idle c else runInstruction c

theorem step_eq : step = (do
    let running ← toCheck
    let serving ← serveInterrupts
    return running + serving) := by
  funext c
  rw [step, Exec.bind_gets]
  by_cases hc : c.cpu.halted
  · have ht : idle c = toCheck c := (if_pos hc).symm
    rw [if_pos hc]
    exact Exec.bind_congr ht _
  · have ht : runInstruction c = toCheck c := (if_neg hc).symm
    rw [if_neg hc]
    exact Exec.bind_congr ht _

/-- The machine with its processor not halted. -/
def awake (c : Console) : Console := { c with cpu := { c.cpu with halted := false } }

theorem awake_of_running {c : Console} (h : c.cpu.halted = false) : c.awake = c := by
  obtain ⟨⟨registers, interruptsOn, enablePending, halted⟩, hardware⟩ := c
  simp only at h
  rw [awake, h]

theorem serveInterrupts_of_none {c : Console}
    (h : c.hardware.body.bus.pendingInterrupt? = none) : serveInterrupts c = ⟨.ok 0, c, #[]⟩ := by
  rw [serveInterrupts, Exec.bind_gets, h]
  rfl

/-- A pending interrupt ends a halt, and is served if interrupts are on. -/
theorem serveInterrupts_of_some {c : Console} {source : Interrupt}
    (h : c.hardware.body.bus.pendingInterrupt? = some source) :
    serveInterrupts c =
      ((if c.cpu.interruptsOn then dispatch source else pure 0) c.awake).after
        (if c.cpu.halted then #[.notice (.haltEnded source)] else #[]) := by
  rw [serveInterrupts, Exec.bind_gets, h]
  dsimp only
  rw [Exec.bind_gets]
  by_cases hc : c.cpu.halted
  · rw [if_pos hc, if_pos hc, Exec.bind_report, bind_modifyCpu]
    rfl
  · rw [if_neg hc, if_neg hc, awake_of_running (by simpa using hc)]
    exact (Outcome.after_empty _).symm

end DotMatrix.Console
