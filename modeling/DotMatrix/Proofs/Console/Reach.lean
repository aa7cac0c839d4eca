import Mathlib.Logic.Function.Iterate
import DotMatrix.Proofs.Console.Footprint
import DotMatrix.Proofs.Hardware.Operation

/-!
# Reachable machines

A machine is started with an accepted cartridge image; then it is stepped, its bus is written to,
time passes and buttons are pressed, in any order, and each of these may fail.

* `CoversSteps` — what has to be known of the parts of a step to know it of the whole.
* `Reachable` — a machine that this leads to.
* `acts_perform` — whatever is done to a machine is done to its hardware as operations of the
  hardware, and they tell of the same pictures.
* `Reachable.hardware` — so the hardware of a reachable machine is reachable.
-/

set_option autoImplicit false

namespace DotMatrix

open Exec (Always)

/-! ## Fetching -/

/-- Nothing is changed, and no picture is told of. -/
def Untouched {σ : Type} (s : σ) (records : Array Record) (s' : σ) : Prop :=
  s' = s ∧ pictures records = []

theorem untouched_chains {σ : Type} : Exec.Chains (@Untouched σ) where
  refl _ := ⟨rfl, rfl⟩
  trans h h' := ⟨h'.1.trans h.1, by rw [pictures_append, h.2, h'.2, List.append_nil]⟩

/-- An operand without an immediate. -/
def Operand.isFixed : Operand → Bool
  | .imm8 .. | .imm16 .. | .offset _ | .displaced .. => false
  | _ => true

namespace Instruction

variable {σ : Type} {read : UInt16 → Exec σ UInt8}

/-- A property of operations that passes to what is put together from them, and that reading has. -/
structure CoversReading (read : UInt16 → Exec σ UInt8) (P : (α : Type) → Exec σ α → Prop) :
    Prop where
  pure : ∀ {α : Type} (a : α), P α (Pure.pure a)
  bind : ∀ {α β : Type} {x : Exec σ α} {f : α → Exec σ β},
    P α x → (∀ a, P β (f a)) → P β (x >>= f)
  read : ∀ addr, P UInt8 (read addr)

/-- Such a property that turning an opcode down has as well, so that decoding has it. -/
structure CoversDecoding (read : UInt16 → Exec σ UInt8) (P : (α : Type) → Exec σ α → Prop) : Prop
    extends CoversReading read P where
  undefined : ∀ opcode addr prefixed,
    P Instruction (Exec.fail (.undefinedOpcode opcode addr prefixed))

section

variable {P : (α : Type) → Exec σ α → Prop}

namespace CoversReading

variable (h : CoversReading read P)

include h

theorem fillOperand (addr : UInt16) (operand : Operand) :
    P _ (Instruction.fillOperand read addr operand) := by
  cases operand with
  | imm8 | offset | displaced => exact h.bind (h.read _) fun _ ↦ h.pure _
  | imm16 => exact h.bind (h.read _) fun _ ↦ h.bind (h.read _) fun _ ↦ h.pure _
  | reg8 | reg16 | condition | bit | vector => exact h.pure _

theorem fillOperand? (addr : UInt16) (operand : Option Operand) :
    P _ (Instruction.fillOperand? read addr operand) := by
  cases operand with
  | none => exact h.pure _
  | some operand => exact h.bind (h.fillOperand addr operand) fun _ ↦ h.pure _

end CoversReading

theorem CoversDecoding.decode (h : CoversDecoding read P) (pc : UInt16) :
    P _ (Instruction.decode read Exec.fail pc) := by
  refine h.bind (h.read _) fun opcode ↦ ?_
  split
  · refine h.bind (h.read _) fun opcode ↦ ?_
    split
    · exact h.undefined _ _ _
    · exact h.pure _
  split
  · exact h.undefined _ _ _
  · exact h.bind (h.fillOperand? _ _) fun _ ↦ h.bind (h.fillOperand? _ _) fun _ ↦ h.pure _

end

/-- No immediate is read for an operand that has none. -/
theorem fillOperand?_of_isFixed {addr : UInt16} {operand : Option Operand}
    (h : operand.all Operand.isFixed) : fillOperand? read addr operand = pure operand := by
  cases operand with
  | none => rfl
  | some operand =>
    cases operand with
    | imm8 | imm16 | offset | displaced => cases h
    | reg8 | reg16 | condition | bit | vector => rfl

/-- Decoding does nothing but read. -/
theorem always_decode {R : σ → Array Record → σ → Prop} (h : Exec.Chains R)
    (hr : ∀ addr, Always R (read addr)) (pc : UInt16) : Always R (decode read Exec.fail pc) :=
  CoversDecoding.decode (P := fun _ ↦ Always R)
    ⟨⟨Always.pure h, Always.bind h, hr⟩, fun _ _ _ ↦ Always.fail h _⟩ pc

end Instruction

theorem Cartridge.pictures_readRecords (c : Cartridge) (addr : UInt16) :
    pictures (c.readRecords addr) = [] := by
  rw [readRecords]
  split
  · cases c.controller with
    | plain => rfl
    | mbc3 m =>
      dsimp only
      split <;> rfl
  · rfl

namespace Hardware

/-- Reading the image's first window. -/
theorem load_image {hw : Hardware} {addr : UInt16} {byte : UInt8} (ha : addr < 0x4000)
    (hb : hw.bus.cartridge.image[addr.toNat]? = some byte) :
    load addr hw = ⟨.ok byte, hw, #[]⟩ := by
  have hplace : hw.bus.place addr = .image := if_pos (UInt16.lt_trans ha (by decide))
  have hread : hw.bus.read addr = .ok byte := by
    rw [Bus.read, hplace]
    dsimp only
    rw [Cartridge.read, if_pos ha, hb]
  have hout : isExternal addr = false := by
    have hlt : ¬ 0xa000 ≤ addr := UInt16.not_le.2 (UInt16.lt_trans ha (by decide))
    rw [isExternal, decide_eq_false hlt, Bool.false_and]
  have hrecords : hw.bus.readRecords addr = #[] := by
    rw [Bus.readRecords, hout, if_neg Bool.false_ne_true]
  rw [load, onBus, Bus.load, hread, hrecords]

/-- Reading the bus changes nothing. -/
theorem untouched_load (addr : UInt16) : Always Untouched (load addr) := by
  intro hw
  refine ⟨rfl, ?_⟩
  show pictures (hw.bus.readRecords addr) = []
  rw [Bus.readRecords]
  split
  · exact hw.bus.cartridge.pictures_readRecords addr
  · rfl

end Hardware

namespace Console

/-- Fetching an instruction changes nothing. -/
theorem untouched_fetch : Always Untouched fetch := by
  refine .bind untouched_chains (.gets untouched_chains _) fun r ↦ ?_
  refine .bind untouched_chains ?_ fun i ↦
    .bind untouched_chains (fun c ↦ ⟨rfl, rfl⟩) fun _ ↦ .pure untouched_chains _
  intro c
  obtain ⟨hs, hp⟩ :=
    Instruction.always_decode untouched_chains Hardware.untouched_load r.pc c.hardware
  exact ⟨by rw [state_onHardware, hs], hp⟩

/-- An instruction of one byte is fetched by reading it. -/
theorem fetch_of_byte {c : Console} {byte : UInt8} {i : Instruction}
    (hb : Hardware.load c.cpu.registers.pc c.hardware = ⟨.ok byte, c.hardware, #[]⟩)
    (hp : byte ≠ Instruction.prefixByte) (ht : Instruction.template byte = some i)
    (hl : i.lhs.all Operand.isFixed) (hr : i.rhs.all Operand.isFixed) :
    fetch c = ⟨.ok i, c, #[.notice (.instructionFetched c.cpu.registers.pc i)]⟩ := by
  have hd : Instruction.decode Hardware.load Exec.fail c.cpu.registers.pc c.hardware =
      ⟨.ok i, c.hardware, #[]⟩ := by
    rw [Instruction.decode, Exec.bind_of_ok hb, if_neg hp, Instruction.entry_templates, ht,
      Outcome.after_empty]
    dsimp only
    rw [Instruction.fillOperand?_of_isFixed hl, Instruction.fillOperand?_of_isFixed hr, pure_bind,
      pure_bind]
    rfl
  have hd' : onHardware (Instruction.decode Hardware.load Exec.fail c.cpu.registers.pc) c =
      ⟨.ok i, c, #[]⟩ := by
    rw [onHardware, hd]
  rw [fetch, registers, Exec.bind_gets, Exec.bind_of_ok hd']
  rfl

/-! ## Properties of steps -/

/-- A property of operations that passes to what is put together from them, and that everything has
which a step is put together from. -/
structure CoversSteps (P : (α : Type) → Exec Console α → Prop) : Prop extends Covers P where
  gets : ∀ {α : Type} (f : Console → α), P α (Exec.gets f)
  modifyCpu : ∀ f, P Unit (Console.modifyCpu f)
  report : ∀ notice, notice.tellsPicture = false → P Unit (Exec.report notice)
  undefined : ∀ opcode addr prefixed,
    P Instruction (Exec.fail (.undefinedOpcode opcode addr prefixed))
  act : ∀ op : Hardware.Operation, P Unit (onHardware op.perform)

namespace CoversSteps

variable {P : (α : Type) → Exec Console α → Prop} (h : CoversSteps P)

include h

theorem fetch : P _ Console.fetch := by
  refine h.bind h.look fun r ↦ h.bind ?_ fun i ↦ h.bind (h.report _ rfl) fun _ ↦ h.pure _
  refine Instruction.CoversDecoding.decode (P := fun _ x ↦ P _ (onHardware x))
    ⟨⟨h.pure, ?_, h.load⟩, h.undefined⟩ r.pc
  intro α β x f hx hf
  rw [onHardware_bind]
  exact h.bind hx hf

theorem instruction (i : Instruction) : P _ (Console.perform i) :=
  h.perform_of_cpu h.modifyCpu i

theorem dispatch (source : Interrupt) : P _ (Console.dispatch source) :=
  h.bind (h.report _ rfl) fun _ ↦ h.bind (h.modifyCpu _) fun _ ↦ h.bind (h.act (.withdraw source))
    fun _ ↦ h.bind h.look fun _ ↦ h.bind (h.pushWord _) fun _ ↦ h.bind (h.jumpTo _) fun _ ↦
    h.bind (h.act (.advance _)) fun _ ↦ h.pure _

theorem serveInterrupts : P _ Console.serveInterrupts := by
  refine h.bind (h.gets _) fun pending ↦ ?_
  cases pending with
  | none => exact h.pure _
  | some source =>
    have hserve : ∀ cpu : Cpu, P _ (if cpu.interruptsOn then Console.dispatch source else pure 0) :=
      fun cpu ↦ by
        split
        · exact h.dispatch source
        · exact h.pure _
    refine h.bind (h.gets _) fun cpu ↦ ?_
    dsimp only
    split
    · exact h.bind (h.report _ rfl) fun _ ↦ h.bind (h.modifyCpu _) fun _ ↦ hserve cpu
    · exact hserve cpu

theorem idle : P _ Console.idle := h.bind (h.act (.advance _)) fun _ ↦ h.pure _

theorem runInstruction : P _ Console.runInstruction :=
  h.bind (h.gets _) fun _ ↦ h.bind h.fetch fun i ↦ h.bind (h.modifyCpu _) fun _ ↦
    h.bind (h.instruction i) fun _ ↦ h.bind (h.act (.advance _)) fun _ ↦
    h.bind (h.modifyCpu _) fun _ ↦ h.pure _

theorem step : P _ Console.step := by
  refine h.bind (h.gets _) fun cpu ↦ ?_
  dsimp only
  split
  · exact h.bind h.idle fun _ ↦ h.bind h.serveInterrupts fun _ ↦ h.pure _
  · exact h.bind h.runInstruction fun _ ↦ h.bind h.serveInterrupts fun _ ↦ h.pure _

end CoversSteps

/-! ## What is done to the hardware -/

/-- The hardware is acted on by operations of its own, which tell of the same pictures. -/
def Acts (c : Console) (records : Array Record) (c' : Console) : Prop :=
  ∃ log, Hardware.Leads c.hardware log c'.hardware ∧ pictures log = pictures records

theorem acts_chains : Exec.Chains Acts where
  refl _ := ⟨#[], .refl, rfl⟩
  trans h h' := by
    obtain ⟨log, hl, hp⟩ := h
    obtain ⟨log', hl', hp'⟩ := h'
    exact ⟨log ++ log', hl.trans hl', by rw [pictures_append, pictures_append, hp, hp']⟩

theorem acts_of_untouched {c c' : Console} {records : Array Record}
    (h : Untouched c records c') : Acts c records c' :=
  ⟨#[], by rw [h.1]; exact .refl, h.2.symm⟩

theorem acts_operation (op : Hardware.Operation) : Always Acts (onHardware op.perform) :=
  fun c ↦ ⟨_, Hardware.leads_one op c.hardware, rfl⟩

theorem acts_load (addr : UInt16) : Always Acts (load addr) := by
  intro c
  obtain ⟨hs, hp⟩ := Hardware.untouched_load addr c.hardware
  refine acts_of_untouched ⟨?_, hp⟩
  rw [load, state_onHardware, hs]

theorem acts_covers : CoversSteps fun _ ↦ Always Acts where
  toCovers := covers_always acts_chains (fun _ _ ↦ ⟨#[], .refl, rfl⟩) acts_load fun addr value ↦
    acts_operation (.write addr value)
  gets _ := .gets acts_chains _
  modifyCpu _ _ := ⟨#[], .refl, rfl⟩
  report notice h c := ⟨#[], .refl, by simp [Exec.report, Exec.emit, pictures, Record.picture?, h]⟩
  undefined _ _ _ := .fail acts_chains _
  act := acts_operation

/-- The hardware that an instruction leaves is reachable. -/
theorem reachable_perform {c : Console} (h : Hardware.Reachable c.hardware) (i : Instruction) :
    Hardware.Reachable (perform i c).state.hardware := by
  obtain ⟨log, hl, -⟩ := acts_covers.instruction i c
  exact h.leads hl

theorem acts_toCheck : Always Acts toCheck := by
  intro c
  rw [toCheck]
  split
  · exact acts_covers.idle c
  · exact acts_covers.runInstruction c

/-! ## Reachable machines -/

/-- What is done to a machine from outside. -/
inductive Operation where
  | step
  | write (addr : UInt16) (value : UInt8)
  | advance (cycles : Nat)
  | press (button : Button) (pressed : Bool)

/-- Carry out an operation. -/
def Operation.perform : Operation → Exec Console Unit
  | .step => do
    let _ ← Console.step
    return ()
  | .write addr value => store addr value
  | .advance cycles => onHardware (Hardware.advance cycles)
  | .press button pressed => pressButton button pressed

/-- A machine that was started with an accepted image, and what was done to it since. -/
inductive Reachable : Console → Prop where
  | powerOn {image : Array UInt8} {c : Console} {records : Array Record}
      (h : powerOn image = .ok (c, records)) : Reachable c
  | perform {c : Console} (op : Operation) (h : Reachable c) : Reachable (op.perform c).state

theorem pressButton_eq (button : Button) (pressed : Bool) :
    pressButton button pressed = onHardware (Hardware.press button pressed) := by
  rw [pressButton, Hardware.press, onHardware_bind]
  refine bind_congr fun isNew ↦ ?_
  rw [onHardware_bind]
  refine bind_congr fun _ ↦ ?_
  cases isNew with
  | true =>
    rw [if_pos rfl, if_pos rfl, onHardware_bind]
    rfl
  | false => rfl

/-- Whatever is done to a machine is done to its hardware as operations of the hardware, and they
tell of the same pictures. -/
theorem acts_perform (op : Operation) : Always Acts op.perform := by
  cases op with
  | step => exact .bind acts_chains acts_covers.step fun _ ↦ .pure acts_chains _
  | write addr value => exact acts_operation (.write addr value)
  | advance cycles => exact acts_operation (.advance cycles)
  | press button pressed =>
    rw [Operation.perform, pressButton_eq]
    exact acts_operation (.press button pressed)

/-- A machine starts with the hardware that its cartridge starts with. -/
theorem powerOn_cases {image : Array UInt8} {c : Console} {records : Array Record}
    (h : powerOn image = .ok (c, records)) : ∃ cartridge,
      Cartridge.ofImage image = .ok cartridge ∧ c = ⟨{}, (Hardware.powerOn cartridge).1⟩ := by
  rw [powerOn] at h
  split at h
  · cases h
  · rename_i cartridge hc
    cases h
    exact ⟨cartridge, hc, rfl⟩

/-- An accepted image starts a machine. -/
theorem exists_powerOn {image : Array UInt8} {cartridge : Cartridge}
    (h : Cartridge.ofImage image = .ok cartridge) :
    ∃ records, powerOn image = .ok (⟨{}, (Hardware.powerOn cartridge).1⟩, records) := by
  rw [powerOn, h]
  exact ⟨_, rfl⟩

/-- The hardware of a reachable machine is reachable. -/
theorem Reachable.hardware {c : Console} (h : Reachable c) : Hardware.Reachable c.hardware := by
  induction h with
  | powerOn h =>
    obtain ⟨cartridge, hc, rfl⟩ := powerOn_cases h
    exact .powerOn hc
  | @perform c op _ ih =>
    obtain ⟨log, hl, -⟩ := acts_perform op c
    exact ih.leads hl

/-- The machine as it starts with nothing in its cartridge. -/
def blank : Console := ⟨{}, (Hardware.powerOn (.plain Hardware.emptyImage)).1⟩

theorem hardware_blank :
    blank.hardware = (Hardware.armed (.plain Hardware.emptyImage)).started := by
  rw [blank, Hardware.powerOn_eq]

theorem now_blank : blank.hardware.now = 0 := by
  rw [blank, Hardware.now_powerOn]

theorem reachable_blank : Reachable blank := by
  obtain ⟨records, hp⟩ := exists_powerOn Hardware.emptyImage_accepted
  exact .powerOn hp

/-- The state after a step. -/
def next (c : Console) : Console := (step c).state

theorem state_perform_step (c : Console) : (Operation.step.perform c).state = c.next := by
  rw [Operation.perform, next]
  rcases ho : step c with ⟨fault | n, c', records⟩
  · rw [Exec.bind_of_error ho]
  · rw [Exec.bind_of_ok ho]
    rfl

/-- The state after a step, successful or not, is reachable. -/
theorem Reachable.next {c : Console} (h : Reachable c) : Reachable c.next := by
  rw [← state_perform_step]
  exact .perform .step h

theorem Reachable.iterate {c : Console} (h : Reachable c) (n : Nat) :
    Reachable (Console.next^[n] c) := by
  induction n with
  | zero => exact h
  | succ n ih =>
    rw [Function.iterate_succ_apply']
    exact ih.next

end Console

end DotMatrix
