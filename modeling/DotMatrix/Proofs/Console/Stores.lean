import DotMatrix.Proofs.Console.Switches
import DotMatrix.Proofs.Hardware.Requests

/-!
# The bus writes of an instruction

`stores i c` lists the bus writes that the instruction `i` makes on the machine `c`, in order, each
with its address and its byte.  An instruction does nothing else to the hardware: it leaves what
these writes leave, made one after another until one fails (`hardware_perform`).  The same goes for
pushing a word (`commits_pushWord`), which serving an interrupt does too.

An instruction succeeds only if all of its writes do, and what stops it is one of them or, before
the first, a read or an operand (`carries_perform`).
-/

set_option autoImplicit false

namespace DotMatrix.Console

open Hardware (storeAll)

/-! ## Which writes -/

/-- The writes of putting a byte where an operand says. -/
def placing (c : Console) (operand : Operand) (value : UInt8) : List (UInt16 × UInt8) :=
  match operand with
  | .reg8 register mode =>
    if mode.indirect then [(registerPage (c.cpu.registers.get register), value)] else []
  | .reg16 register mode =>
    if mode.indirect then [(c.cpu.registers.pair register, value)] else []
  | .imm8 offset mode => if mode.indirect then [(registerPage offset, value)] else []
  | .imm16 addr mode => if mode.indirect then [(addr, value)] else []
  | _ => []

/-- The writes of putting what an operation yields where an operand says. -/
def placingOf (x : Exec Console UInt8) (operand : Operand) (c : Console) : List (UInt16 × UInt8) :=
  match x c with
  | ⟨.ok value, c', _⟩ => placing c' operand value
  | ⟨.error _, _, _⟩ => []

/-- The writes of pushing a word. -/
def pushing (c : Console) (value : UInt16) : List (UInt16 × UInt8) :=
  [(c.cpu.registers.sp - 1, highByte value), (c.cpu.registers.sp - 1 - 1, lowByte value)]

/-- The writes of copying the second operand into the first. -/
def copying (c : Console) : Operand → Operand → List (UInt16 × UInt8)
  | .imm16 addr ⟨_, true, _, _⟩, .reg16 register _ =>
    [(addr, lowByte (c.cpu.registers.pair register)),
      (addr + 1, highByte (c.cpu.registers.pair register))]
  | .reg16 _ ⟨true, _, _, _⟩, _ => []
  | target, source => placingOf (readByte source) target c

/-- The writes of an operation of the arithmetic unit on a byte operand. -/
def changing (operation : Registers → UInt8 → UInt8 × Registers) (c : Console)
    (operand : Operand) : List (UInt16 × UInt8) :=
  placingOf (do let value ← readByte operand; compute (operation · value)) operand c

/-- The writes of stepping an operand up or down; a pair is stepped as a whole. -/
def stepping (operation : Registers → UInt8 → UInt8 × Registers) (c : Console) :
    Operand → List (UInt16 × UInt8)
  | .reg16 _ ⟨true, _, _, _⟩ => []
  | operand => changing operation c operand

/-- The writes of changing the bit that the first operand names of the second. -/
def marking (change : UInt8 → UInt8 → UInt8) (c : Console) :
    Operand → Operand → List (UInt16 × UInt8)
  | .bit index, operand =>
    placingOf (do let value ← readByte operand; return change index value) operand c
  | _, _ => []

/-- The writes of a call. -/
def calling (c : Console) : Operand → Operand → List (UInt16 × UInt8)
  | .condition condition, target =>
    if c.cpu.registers.satisfies condition then
      match readOperand target c with
      | ⟨.ok _, c', _⟩ => pushing c' c.cpu.registers.pc
      | ⟨.error _, _, _⟩ => []
    else []
  | _, _ => []

/-- The writes of a call to a fixed address. -/
def restarting (c : Console) : Operand → List (UInt16 × UInt8)
  | .vector _ => pushing c c.cpu.registers.pc
  | _ => []

/-- The writes of pushing an operand. -/
def pushingPair (c : Console) : Operand → List (UInt16 × UInt8)
  | .reg16 register _ => pushing c (c.cpu.registers.pair register)
  | _ => []

/-- The writes of an instruction with one operand. -/
def ofSole (i : Instruction) (writes : Operand → List (UInt16 × UInt8)) : List (UInt16 × UInt8) :=
  match i.lhs with
  | some operand => writes operand
  | none => []

/-- The writes of an instruction with two operands. -/
def ofBoth (i : Instruction) (writes : Operand → Operand → List (UInt16 × UInt8)) :
    List (UInt16 × UInt8) :=
  match i.lhs, i.rhs with
  | some lhs, some rhs => writes lhs rhs
  | _, _ => []

/-- The writes of an instruction, in order; those behind one that fails are not made. -/
def stores (i : Instruction) (c : Console) : List (UInt16 × UInt8) :=
  match i.opcode with
  | .ld | .ldh => ofBoth i (copying c)
  | .inc => ofSole i (stepping Registers.inc c)
  | .dec => ofSole i (stepping Registers.dec c)
  | .rlc => ofSole i (changing Registers.rlc c)
  | .rrc => ofSole i (changing Registers.rrc c)
  | .rl => ofSole i (changing Registers.rl c)
  | .rr => ofSole i (changing Registers.rr c)
  | .sla => ofSole i (changing Registers.sla c)
  | .sra => ofSole i (changing Registers.sra c)
  | .swap => ofSole i (changing Registers.swap c)
  | .srl => ofSole i (changing Registers.srl c)
  | .res => ofBoth i (marking Registers.clearBit c)
  | .set => ofBoth i (marking Registers.setBit c)
  | .push => ofSole i (pushingPair c)
  | .call => ofBoth i (calling c)
  | .rst => ofSole i (restarting c)
  | .stop => [(Register.divider, 0)]
  | _ => []

/-! ## Short of storing -/

/-- An operand that does not fit its opcode. -/
def Misfit (fault : Fault) : Prop :=
  (∃ i, fault = .mismatchedOperands i) ∨ ∃ operand, fault = .unusableOperand operand

/-- A read that the bus refuses. -/
def Refuses (hw : Hardware) (fault : Fault) : Prop := ∃ addr, hw.bus.read addr = .error fault

section

variable {α β : Type} {c : Console} {writes : List (UInt16 × UInt8)}

theorem hardware_load (addr : UInt16) (c : Console) :
    (load addr c).state.hardware = c.hardware := by
  rw [load, state_onHardware]
  exact (Hardware.untouched_load addr c.hardware).1

/-- An operation keeps the hardware, and only a read or an operand stops it. -/
def Looks (x : Exec Console α) : Prop :=
  Exec.Looks Console.hardware (fun hw fault ↦ Refuses hw fault ∨ Misfit fault) x

/-- An operation keeps the hardware and succeeds. -/
def Finishes (x : Exec Console α) : Prop :=
  ∀ c, (x c).state.hardware = c.hardware ∧ ∃ a, (x c).result = .ok a

theorem Finishes.looks {x : Exec Console α} (h : Finishes x) : Looks x := by
  intro c
  obtain ⟨hh, a, ha⟩ := h c
  refine ⟨hh, fun fault hf ↦ ?_⟩
  rw [ha] at hf
  cases hf

theorem finishes_modifyCpu (f : Cpu → Cpu) : Finishes (modifyCpu f) := fun _ ↦ ⟨rfl, (), rfl⟩

theorem finishes_pure (a : α) : Finishes (pure a) := fun _ ↦ ⟨rfl, a, rfl⟩

theorem finishes_jumpTo (addr : UInt16) : Finishes (jumpTo addr) := fun _ ↦ ⟨rfl, (), rfl⟩

theorem finishes_jump (addr : UInt16) (a : α) : Finishes (do jumpTo addr; return a) :=
  fun _ ↦ ⟨rfl, a, rfl⟩

theorem finishes_stepPointer (register : Reg16) (mode : Mode) :
    Finishes (stepPointer register mode) := by
  rw [stepPointer]
  split
  · exact finishes_modifyCpu _
  split
  · exact finishes_modifyCpu _
  · exact finishes_pure ()

/-- Whatever an instruction does short of storing only looks. -/
theorem looks_covers : CoversReads fun _ ↦ Looks where
  pure a := (finishes_pure a).looks
  bind := Exec.Looks.bind
  mismatched i _ := ⟨rfl, fun _ h ↦ by cases h; exact Or.inr (Or.inl ⟨i, rfl⟩)⟩
  unusable operand _ := ⟨rfl, fun _ h ↦ by cases h; exact Or.inr (Or.inr ⟨operand, rfl⟩)⟩
  look := Finishes.looks fun c ↦ ⟨rfl, c.cpu.registers, rfl⟩
  compute f := Finishes.looks fun c ↦ ⟨rfl, (f c.cpu.registers).1, rfl⟩
  load addr c := ⟨hardware_load addr c, fun _ h ↦ Or.inl ⟨addr, h⟩⟩

/-! ## Making writes -/

/-- An operation ended as these writes do: it made them, and stopped where they stop. -/
structure Commits (o : Outcome Console α) (hw : Hardware) (writes : List (UInt16 × UInt8)) :
    Prop where
  state : o.state.hardware = (storeAll writes hw).state
  result : o.result.map (fun _ ↦ ()) = (storeAll writes hw).result

/-- An operation ended as these writes do, unless there are none and a read or an operand stopped
it. -/
structure Carries (o : Outcome Console α) (hw : Hardware) (writes : List (UInt16 × UInt8)) :
    Prop where
  state : o.state.hardware = (storeAll writes hw).state
  result : o.result.map (fun _ ↦ ()) = (storeAll writes hw).result ∨
    ∃ fault, o.result = .error fault ∧ writes = [] ∧ (Refuses hw fault ∨ Misfit fault)

theorem Commits.carries {o : Outcome Console α} {hw : Hardware} (h : Commits o hw writes) :
    Carries o hw writes := ⟨h.state, Or.inl h.result⟩

section

variable {x : Exec Console α} {f : α → Exec Console β}

theorem Looks.carries (h : Looks x) (c : Console) : Carries (x c) c.hardware [] := by
  obtain ⟨hh, he⟩ := h c
  refine ⟨hh, ?_⟩
  cases hr : (x c).result with
  | ok a => exact Or.inl rfl
  | error fault => exact Or.inr ⟨fault, rfl, rfl, he fault hr⟩

theorem Finishes.commits (h : Finishes x) (c : Console) : Commits (x c) c.hardware [] := by
  obtain ⟨hh, a, ha⟩ := h c
  refine ⟨hh, ?_⟩
  rw [ha]
  rfl

/-- What finishes comes last, and changes nothing. -/
theorem Commits.bind {hw : Hardware} (h : Commits (x c) hw writes) (hf : ∀ a, Finishes (f a)) :
    Commits ((x >>= f) c) hw writes := by
  obtain ⟨hs, hr⟩ := h
  rcases hx : x c with ⟨fault | a, c', records⟩ <;> rw [hx] at hs hr
  · rw [Exec.bind_of_error hx]
    exact ⟨hs, hr⟩
  · obtain ⟨hh, b, hb⟩ := hf a c'
    rw [Exec.bind_of_ok hx]
    refine ⟨hh.trans hs, ?_⟩
    rw [Outcome.result_after, hb]
    exact hr

theorem Carries.bind {hw : Hardware} (h : Carries (x c) hw writes) (hf : ∀ a, Finishes (f a)) :
    Carries ((x >>= f) c) hw writes := by
  obtain ⟨hs, hr | ⟨fault, hfault, hrest⟩⟩ := h
  · exact (Commits.bind ⟨hs, hr⟩ hf).carries
  · rcases hx : x c with ⟨fault' | a, c', records⟩ <;> rw [hx] at hs hfault
    · cases hfault
      rw [Exec.bind_of_error hx]
      exact ⟨hs, Or.inr ⟨fault, rfl, hrest⟩⟩
    · cases hfault

/-- What only looks comes first. -/
theorem Looks.carries_bind (h : Looks x)
    (hok : ∀ a c' records, x c = ⟨.ok a, c', records⟩ → Carries (f a c') c'.hardware writes)
    (herror : ∀ fault c' records, x c = ⟨.error fault, c', records⟩ → writes = []) :
    Carries ((x >>= f) c) c.hardware writes := by
  obtain ⟨hh, he⟩ := h c
  rcases hx : x c with ⟨fault | a, c', records⟩ <;> rw [hx] at hh he
  · rw [Exec.bind_of_error hx, herror _ _ _ hx]
    exact ⟨hh, Or.inr ⟨fault, rfl, rfl, he fault rfl⟩⟩
  · obtain ⟨hs, hr⟩ := hok a c' records hx
    have hsame : c'.hardware = c.hardware := hh
    rw [hsame] at hs hr
    rw [Exec.bind_of_ok hx]
    exact ⟨hs, hr⟩

end

/-- A look at the register file comes first. -/
theorem bind_registers (f : Registers → Exec Console β) (c : Console) :
    (registers >>= f) c = f c.cpu.registers c :=
  Exec.bind_gets c (fun c ↦ c.cpu.registers) f

/-- A store comes first. -/
theorem commits_store_bind {addr : UInt16} {value : UInt8} {f : Unit → Exec Console β}
    (h : ∀ hw', Commits (f () { c with hardware := hw' }) hw' writes) :
    Commits ((store addr value >>= f) c) c.hardware ((addr, value) :: writes) := by
  rcases hw : Hardware.write addr value c.hardware with ⟨fault | ⟨⟩, hw', records⟩
  · have hs : store addr value c = ⟨.error fault, { c with hardware := hw' }, records⟩ := by
      rw [store, onHardware, hw]
    rw [Exec.bind_of_error hs]
    refine ⟨?_, ?_⟩ <;> rw [Hardware.storeAll_cons_of_error hw]
    rfl
  · have hs : store addr value c = ⟨.ok (), { c with hardware := hw' }, records⟩ := by
      rw [store, onHardware, hw]
    obtain ⟨hs', hr⟩ := h hw'
    rw [Exec.bind_of_ok hs]
    refine ⟨?_, ?_⟩ <;> rw [Hardware.storeAll_cons_of_ok hw]
    · exact hs'
    · exact hr

theorem commits_store (addr : UInt16) (value : UInt8) :
    Commits (store addr value c) c.hardware [(addr, value)] := by
  have h := @commits_store_bind Unit c [] addr value (fun _ ↦ pure ()) fun hw' ↦
    (finishes_pure ()).commits { c with hardware := hw' }
  rwa [bind_pure_unit] at h

/-! ## Operands and the stack -/

theorem carries_unusable (operand : Operand) (c : Console) :
    Carries ((Exec.fail (.unusableOperand operand) : Exec Console α) c) c.hardware [] :=
  (looks_covers.unusable operand).carries c

theorem carries_mismatched (i : Instruction) (c : Console) :
    Carries ((Exec.fail (.mismatchedOperands i) : Exec Console α) c) c.hardware [] :=
  (looks_covers.mismatched i).carries c

theorem carries_writeByte (operand : Operand) (value : UInt8) (c : Console) :
    Carries (writeByte operand value c) c.hardware (placing c operand value) := by
  cases operand with
  | reg8 register mode =>
    simp only [writeByte, placing, bind_registers]
    split
    · exact (commits_store _ _).carries
    · exact (looks_covers.modify _).carries c
  | reg16 register mode =>
    simp only [writeByte, placing, bind_registers]
    split
    · exact (commits_store_bind fun hw' ↦
        (finishes_stepPointer _ _).commits { c with hardware := hw' }).carries
    · exact carries_unusable _ c
  | imm8 offset mode | imm16 addr mode =>
    simp only [writeByte, placing]
    split
    · exact (commits_store _ _).carries
    · exact carries_unusable _ c
  | _ => exact carries_unusable _ c

theorem carries_placingOf {x : Exec Console UInt8} (h : Looks x) (operand : Operand) :
    Carries ((x >>= writeByte operand) c) c.hardware (placingOf x operand c) := by
  refine h.carries_bind (fun value c' records hx ↦ ?_) fun fault c' records hx ↦ ?_
  · rw [placingOf, hx]
    exact carries_writeByte operand value c'
  · rw [placingOf, hx]

/-- The machine with a byte less of room on the stack. -/
def lowered (c : Console) : Console :=
  { c with cpu := c.cpu.withRegisters { c.cpu.registers with sp := c.cpu.registers.sp - 1 } }

theorem pushByte_eq (value : UInt8) (c : Console) :
    pushByte value c = store (c.cpu.registers.sp - 1) value c.lowered := by
  rw [pushByte, registers, Exec.bind_gets, modifyRegisters, bind_modifyCpu]
  rfl

theorem commits_pushWord (value : UInt16) (c : Console) :
    Commits (pushWord value c) c.hardware (pushing c value) := by
  have hbind : pushWord value c =
      (store (c.cpu.registers.sp - 1) (highByte value) >>= fun _ ↦ pushByte (lowByte value))
        c.lowered := by
    rw [pushWord, pushByte, registers, bind_assoc, Exec.bind_gets, modifyRegisters, bind_assoc,
      bind_modifyCpu]
    rfl
  rw [hbind]
  refine commits_store_bind (c := c.lowered) fun hw' ↦ ?_
  rw [pushByte_eq]
  exact commits_store _ _

theorem cpu_pushByte (byte : UInt8) (c : Console) :
    (pushByte byte c).state.cpu = c.lowered.cpu := by
  rw [pushByte_eq]
  rfl

/-- A word that is pushed takes two bytes of the stack. -/
theorem registers_pushWord {value : UInt16} (h : (pushWord value c).result = .ok ()) :
    (pushWord value c).state.cpu.registers =
      { c.cpu.registers with sp := c.cpu.registers.sp - 1 - 1 } := by
  obtain ⟨_, -, -, he⟩ := Exec.bind_eq_ok h
  have hlast : (pushWord value c).state.cpu =
      (pushByte (highByte value) c).state.lowered.cpu := by
    rw [pushWord, he, Outcome.state_after, cpu_pushByte]
  rw [hlast, lowered, cpu_pushByte]
  rfl

/-! ## Instructions -/

theorem carries_soleOperand {i : Instruction} {f : Operand → Exec Console β}
    {writes : Operand → List (UInt16 × UInt8)}
    (h : ∀ operand, Carries (f operand c) c.hardware (writes operand)) :
    Carries ((soleOperand i >>= f) c) c.hardware (ofSole i writes) := by
  rw [soleOperand.eq_def, ofSole]
  cases i.lhs with
  | none => exact carries_mismatched i c
  | some operand =>
    rw [pure_bind]
    exact h operand

theorem carries_bothOperands {i : Instruction} {f : Operand × Operand → Exec Console β}
    {writes : Operand → Operand → List (UInt16 × UInt8)}
    (h : ∀ operands, Carries (f operands c) c.hardware (writes operands.1 operands.2)) :
    Carries ((bothOperands i >>= f) c) c.hardware (ofBoth i writes) := by
  rw [bothOperands.eq_def, ofBoth]
  cases i.lhs with
  | none => exact carries_mismatched i c
  | some lhs =>
    cases i.rhs with
    | none => exact carries_mismatched i c
    | some rhs =>
      rw [pure_bind]
      exact h (lhs, rhs)

theorem carries_performLoad (i : Instruction) (c : Console) :
    Carries (performLoad i c) c.hardware (ofBoth i (copying c)) := by
  refine carries_bothOperands fun operands ↦ ?_
  split
  · rw [bind_registers, Hardware.writeWord, onHardware_bind]
    exact (commits_store_bind fun hw' ↦ commits_store (c := { c with hardware := hw' }) _ _).carries
  · exact (looks_covers.bind (looks_covers.readOperand _) fun _ ↦
      looks_covers.modify _).carries c
  · rename_i target source hword hpair
    have hplaced : copying c target source = placingOf (readByte source) target c := by
      unfold copying
      split
      · exact (hword _ _ _ _ _ _ rfl rfl).elim
      · exact (hpair _ _ _ _ rfl).elim
      · rfl
    show Carries _ _ (copying c target source)
    rw [hplaced]
    exact carries_placingOf (looks_covers.readByte source) target

theorem carries_change (operation : Registers → UInt8 → UInt8 × Registers) (operand : Operand)
    (c : Console) :
    Carries ((do
        let value ← readByte operand
        let result ← compute (operation · value)
        writeByte operand result) c) c.hardware (changing operation c operand) := by
  have h := @carries_placingOf c (do let value ← readByte operand; compute (operation · value))
    (looks_covers.bind (looks_covers.readByte operand) fun _ ↦ looks_covers.compute _) operand
  rwa [bind_assoc] at h

theorem carries_performShift (i : Instruction)
    (operation : Registers → UInt8 → UInt8 × Registers) (c : Console) :
    Carries (performShift i operation c) c.hardware (ofSole i (changing operation c)) :=
  carries_soleOperand fun operand ↦ carries_change operation operand c

theorem carries_performStep (i : Instruction) (stepPair : Registers → Reg16 → Registers)
    (operation : Registers → UInt8 → UInt8 × Registers) (c : Console) :
    Carries (performStep i stepPair operation c) c.hardware (ofSole i (stepping operation c)) := by
  refine carries_soleOperand fun operand ↦ ?_
  split
  · exact (looks_covers.modify _).carries c
  · rename_i hpair
    have hchange : stepping operation c operand = changing operation c operand := by
      unfold stepping
      split
      · exact (hpair _ _ _ _ rfl).elim
      · rfl
    rw [hchange]
    exact carries_change operation operand c

theorem carries_performChangeBit (i : Instruction) (change : UInt8 → UInt8 → UInt8)
    (c : Console) :
    Carries (performChangeBit i change c) c.hardware (ofBoth i (marking change c)) := by
  refine carries_bothOperands fun operands ↦ ?_
  obtain ⟨lhs, rhs⟩ := operands
  cases lhs with
  | bit index =>
    have h := @carries_placingOf c (do let value ← readByte rhs; return change index value)
      (looks_covers.bind (looks_covers.readByte rhs) fun _ ↦ looks_covers.pure _) rhs
    simp only [bind_assoc, pure_bind] at h
    exact h
  | _ => exact carries_mismatched i c

theorem carries_performPush (i : Instruction) (c : Console) :
    Carries (performPush i c) c.hardware (ofSole i (pushingPair c)) := by
  refine carries_soleOperand fun operand ↦ ?_
  cases operand with
  | reg16 register mode =>
    dsimp only
    rw [pushPair, bind_registers]
    exact (commits_pushWord _ c).carries
  | _ => exact carries_unusable _ c

theorem carries_performRestart (i : Instruction) (c : Console) :
    Carries (performRestart i c) c.hardware (ofSole i (restarting c)) := by
  refine carries_soleOperand fun operand ↦ ?_
  cases operand with
  | vector addr =>
    dsimp only
    rw [bind_registers]
    exact ((commits_pushWord c.cpu.registers.pc c).bind fun _ ↦ finishes_jumpTo _).carries
  | _ => exact carries_mismatched i c

/-- A call reads where it goes and pushes where it comes from. -/
theorem carries_call {i : Instruction} (hop : i.opcode = .call) (c : Console) :
    Carries (performJump i c) c.hardware (ofBoth i (calling c)) := by
  refine carries_bothOperands fun operands ↦ ?_
  obtain ⟨lhs, rhs⟩ := operands
  cases lhs with
  | condition condition =>
    dsimp only
    rw [bind_registers, calling]
    split
    · have ht : transferTarget i rhs = (do
          let r ← registers
          let addr ← readOperand rhs
          pushWord r.pc
          return addr) := by
        simp only [transferTarget, hop]
      rw [ht, bind_assoc, bind_registers, bind_assoc]
      refine (looks_covers.readOperand rhs).carries_bind (fun addr c' records hr ↦ ?_)
        fun fault c' records hr ↦ by rw [hr]
      rw [hr, bind_assoc]
      refine ((commits_pushWord _ c').bind fun _ ↦ ?_).carries
      rw [pure_bind]
      exact finishes_jump addr true
    · exact (looks_covers.pure false).carries c
  | _ => exact carries_mismatched i c

/-- Jumps only read. -/
theorem looks_jump {i : Instruction} (hop : i.opcode ≠ .call) : Looks (performJump i) := by
  refine looks_covers.bind (looks_covers.bothOperands i) fun operands ↦ ?_
  split
  · refine looks_covers.bind looks_covers.look fun r ↦ ?_
    split
    · refine looks_covers.bind ?_ fun _ ↦ (finishes_jump _ true).looks
      refine looks_covers.bind looks_covers.look fun r ↦ ?_
      split
      · exact looks_covers.pure _
      · exact looks_covers.readOperand _
      · contradiction
      · exact looks_covers.mismatched _
    · exact looks_covers.pure _
  · exact looks_covers.mismatched _

theorem looks_return (i : Instruction) : Looks (performReturnFromInterrupt i) := by
  refine looks_covers.bind (looks_covers.performReturn i) fun taken ↦ ?_
  split
  · exact looks_covers.bind (finishes_modifyCpu _).looks fun _ ↦ looks_covers.pure _
  · exact looks_covers.pure _

theorem carries_performPlain (i : Instruction) (hcall : i.opcode ≠ .call) (c : Console) :
    Carries (performPlain i c) c.hardware (stores i c) := by
  rw [performPlain, stores]
  cases hop : i.opcode with
  | call => exact absurd hop hcall
  | jr | jp | ret | reti => exact carries_mismatched i c
  | nop => exact (looks_covers.pure ()).carries c
  | ld | ldh => exact carries_performLoad i c
  | inc | dec => exact carries_performStep i _ _ c
  | add | adc => exact (looks_covers.performAdd i _).carries c
  | sub | sbc | and | xor | or => exact (looks_covers.performAccumulator i _).carries c
  | cp => exact (looks_covers.performCompare i).carries c
  | rlca | rla | rrca | rra => exact (looks_covers.performRotate _).carries c
  | daa | cpl => exact (looks_covers.performUnary _).carries c
  | scf | ccf => exact (looks_covers.modify _).carries c
  | rst => exact carries_performRestart i c
  | push => exact carries_performPush i c
  | pop => exact (looks_covers.performPop i).carries c
  | di | ei | halt => exact (finishes_modifyCpu _).looks.carries c
  | stop => exact (commits_store _ _).carries
  | rlc | rrc | rl | rr | sla | sra | swap | srl => exact carries_performShift i _ c
  | bit => exact (looks_covers.performTestBit i).carries c
  | res | set => exact carries_performChangeBit i _ c

/-- **An instruction ends as its writes do**, unless a read or an operand stops it before. -/
theorem carries_perform (i : Instruction) (c : Console) :
    Carries (perform i c) c.hardware (stores i c) := by
  have hnothing : ∀ {x : Exec Console Bool}, Looks x → stores i c = [] →
      Carries (x c) c.hardware (stores i c) := fun h hw ↦ by
    rw [hw]
    exact h.carries c
  unfold perform
  cases hop : i.opcode with
  | jr | jp => exact hnothing (looks_jump (by rw [hop]; decide)) (by rw [stores, hop])
  | call =>
    rw [stores, hop]
    exact carries_call hop c
  | ret => exact hnothing (looks_covers.performReturn i) (by rw [stores, hop])
  | reti => exact hnothing (looks_return i) (by rw [stores, hop])
  | _ =>
    exact (carries_performPlain i (by rw [hop]; decide) c).bind fun _ ↦ finishes_pure true

/-- **An instruction makes its writes and does nothing else to the hardware.** -/
theorem hardware_perform (i : Instruction) (c : Console) :
    (perform i c).state.hardware = (storeAll (stores i c) c.hardware).state :=
  (carries_perform i c).state

end

end DotMatrix.Console
