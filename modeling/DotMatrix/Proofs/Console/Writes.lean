import DotMatrix.Proofs.Console.Operands
import DotMatrix.Proofs.Console.Requests

/-!
# An instruction touches the hardware only by its writes and by time

`busWrites i c` is a table of the bus writes of an instruction, to be looked at when the program
counter points past it: which addresses, in which order, and which bytes.

* `stores_eq_busWrites` — a fetched instruction that succeeds makes these writes.
* `hardware_next_of_performs` — a step that serves no interrupt leaves the hardware as these writes
  and the cycles it reports leave it.
-/

set_option autoImplicit false

namespace DotMatrix

/-! ## The table -/

namespace Operand

/-- The address of the byte of memory that an operand stands for. -/
def address? (r : Registers) : Operand → Option UInt16
  | .reg8 register ⟨false, true, _, _⟩ => some (0xff00 + (r.get register).toUInt16)
  | .reg16 register ⟨false, true, _, _⟩ => some (r.pair register)
  | .imm8 low ⟨false, true, _, _⟩ => some (0xff00 + low.toUInt16)
  | .imm16 addr ⟨false, true, _, _⟩ => some addr
  | _ => none

/-- The byte that an operand outside memory is. -/
def byte? (r : Registers) : Operand → Option UInt8
  | .reg8 register ⟨true, false, _, _⟩ => some (r.get register)
  | .imm8 value ⟨true, false, _, _⟩ => some value
  | _ => none

end Operand

/-- A condition holds: the flag that it names is set, or clear, as it asks. -/
def Condition.holds (f : Flags) : Condition → Bool
  | .always => true
  | .nonZero => !f.zero
  | .zero => f.zero
  | .noCarry => !f.carry
  | .carry => f.carry

theorem Registers.satisfies_eq (r : Registers) (condition : Condition) :
    r.satisfies condition = condition.holds r.f := by
  cases condition <;> rfl

namespace Console

open Operand (Kind)
open Hardware (storeAll)

/-- The byte at an address, if it can be read. -/
def byteAt (c : Console) (addr : UInt16) : UInt8 :=
  match c.hardware.bus.read addr with
  | .ok byte => byte
  | .error _ => 0

/-- Copying to memory: the stack pointer goes to an immediate address, its low byte first, and
everything else is one byte. -/
def copied (c : Console) : Operand → Operand → List (UInt16 × UInt8)
  | .imm16 addr _, .reg16 .sp _ =>
    [(addr, lowByte c.cpu.registers.sp), (addr + 1, highByte c.cpu.registers.sp)]
  | target, source =>
    match target.address? c.cpu.registers, source.byte? c.cpu.registers with
    | some addr, some value => [(addr, value)]
    | _, _ => []

/-- Changing a byte of memory: it is written back. -/
def altered (change : UInt8 → UInt8) (c : Console) (operand : Operand) : List (UInt16 × UInt8) :=
  match operand.address? c.cpu.registers with
  | some addr => [(addr, change (c.byteAt addr))]
  | none => []

/-- Changing a bit of a byte of memory. -/
def marked (change : UInt8 → UInt8 → UInt8) (c : Console) :
    Operand → Operand → List (UInt16 × UInt8)
  | .bit index, operand => altered (change index) c operand
  | _, _ => []

/-- A call that is taken pushes where it comes from. -/
def called (c : Console) : Operand → Operand → List (UInt16 × UInt8)
  | .condition condition, _ =>
    if condition.holds c.cpu.registers.f then pushing c c.cpu.registers.pc else []
  | _, _ => []

/-- The bus writes of an instruction.  Those that are not listed make none. -/
def busWrites (i : Instruction) (c : Console) : List (UInt16 × UInt8) :=
  let r := c.cpu.registers
  match i.opcode with
  | .ld | .ldh => ofBoth i (copied c)
  | .inc => ofSole i (altered (fun x ↦ (r.inc x).1) c)
  | .dec => ofSole i (altered (fun x ↦ (r.dec x).1) c)
  | .rlc => ofSole i (altered (fun x ↦ (r.rlc x).1) c)
  | .rrc => ofSole i (altered (fun x ↦ (r.rrc x).1) c)
  | .rl => ofSole i (altered (fun x ↦ (r.rl x).1) c)
  | .rr => ofSole i (altered (fun x ↦ (r.rr x).1) c)
  | .sla => ofSole i (altered (fun x ↦ (r.sla x).1) c)
  | .sra => ofSole i (altered (fun x ↦ (r.sra x).1) c)
  | .swap => ofSole i (altered (fun x ↦ (r.swap x).1) c)
  | .srl => ofSole i (altered (fun x ↦ (r.srl x).1) c)
  | .res => ofBoth i (marked Registers.clearBit c)
  | .set => ofBoth i (marked Registers.setBit c)
  | .push => ofSole i (pushingPair c)
  | .call => ofBoth i (called c)
  | .rst => ofSole i (restarting c)
  | .stop => [(Register.divider, 0)]
  | _ => []

section

variable {c : Console} {i : Instruction}

/-! ## Reading operands -/

theorem lowByte_toUInt16 (byte : UInt8) : lowByte byte.toUInt16 = byte := by
  simp [lowByte]

theorem readByte_atHl (c : Console) : ∃ records, readByte .atHl c =
    ⟨c.hardware.bus.read (c.cpu.registers.pair .hl), c, records⟩ := by
  let addr := c.cpu.registers.pair .hl
  have hload : load addr c = ⟨c.hardware.bus.read addr, c, c.hardware.bus.readRecords addr⟩ := rfl
  have hread : readByte .atHl = (do
      let r ← registers
      let byte ← load (r.pair .hl)
      return lowByte byte.toUInt16) := by
    simp [readByte, readOperand, Operand.atHl, Mode.pointer, loadExtended, stepPointer]
  simp only [hread, bind_registers, lowByte_toUInt16, bind_pure]
  exact ⟨_, hload⟩

theorem readByte_of_isPlain {operand : Operand} (h : operand.kind.isPlain) (c : Console) :
    ∃ value, operand.byte? c.cpu.registers = some value ∧
      readByte operand c = ⟨.ok value, c, #[]⟩ := by
  rcases Operand.plain_cases h with ⟨r, rfl⟩ | ⟨value, rfl⟩
  · refine ⟨c.cpu.registers.get r, rfl, ?_⟩
    have hread : readByte (.reg8 r .immediate) c =
        ⟨.ok (lowByte (c.cpu.registers.get r).toUInt16), c, #[]⟩ := rfl
    rw [hread, lowByte_toUInt16]
  · refine ⟨value, rfl, ?_⟩
    have hread : readByte (.imm8 value .immediate) c = ⟨.ok (lowByte value.toUInt16), c, #[]⟩ := rfl
    rw [hread, lowByte_toUInt16]

/-! ## What is stored -/

/-- A byte goes where an operand in memory says, and nowhere else. -/
theorem placing_eq {operand : Operand} (h : operand.kind.isMemory) (value : UInt8) (c : Console) :
    ∃ addr, operand.address? c.cpu.registers = some addr ∧
      placing c operand value = [(addr, value)] := by
  have hform := operand.form
  cases hk : operand.kind <;> rw [hk] at h hform
  case cell =>
    obtain rfl := hform
    exact ⟨_, rfl, rfl⟩
  case pointer =>
    obtain ⟨r, ⟨direct, indirect, up, down⟩, rfl, hi, hd⟩ := hform
    obtain rfl : direct = false := hd
    obtain rfl : indirect = true := hi
    exact ⟨_, rfl, rfl⟩
  case page => obtain ⟨r, rfl⟩ | ⟨low, rfl⟩ := hform <;> exact ⟨_, rfl, rfl⟩
  case absolute =>
    obtain ⟨addr, rfl⟩ := hform
    exact ⟨_, rfl, rfl⟩
  all_goals cases h

theorem placingOf_of_ok {x : Exec Console UInt8} {c' : Console} {value : UInt8}
    {records : Array Record} (h : x c = ⟨.ok value, c', records⟩) (operand : Operand) :
    placingOf x operand c = placing c' operand value := by
  rw [placingOf, h]

/-- Nothing is stored for a register. -/
theorem placingOf_register (x : Exec Console UInt8) (r : Reg8) (c : Console) :
    placingOf x (.reg8 r .immediate) c = [] := by
  rw [placingOf]
  split <;> rfl

theorem copying_eq {lhs rhs : Operand} (h : lhs.kind.loads rhs.kind) (c : Console) :
    copying c lhs rhs = copied c lhs rhs := by
  rcases Operand.loads_cases h with ⟨r, rfl, -⟩ | ⟨addr, rfl, rfl⟩ | ⟨r, rfl, -⟩ |
    ⟨hmemory, hplain⟩
  · rfl
  · rfl
  · exact placingOf_register (readByte rhs) r c
  · obtain ⟨value, hvalue, hread⟩ := readByte_of_isPlain hplain c
    obtain ⟨addr, haddr, hplacing⟩ := placing_eq hmemory value c
    have hpair : ∀ r mode, rhs ≠ .reg16 r mode := by
      rintro r mode rfl
      rcases Operand.plain_cases hplain with ⟨_, heq⟩ | ⟨_, heq⟩ <;> cases heq
    have hcopying : copying c lhs rhs = placingOf (readByte rhs) lhs c := by
      unfold copying
      split
      · exact absurd rfl (hpair _ _)
      · cases Operand.direct_of_isMemory hmemory
      · rfl
    have hcopied : copied c lhs rhs = [(addr, value)] := by
      unfold copied
      split
      · exact absurd rfl (hpair _ _)
      · rw [haddr, hvalue]
    rw [hcopying, hcopied, placingOf_of_ok hread, hplacing]

/-- The byte at `hl` was read. -/
theorem readByte_atHl_of_ok {value : UInt8} (h : (readByte .atHl c).result = .ok value) :
    c.byteAt (c.cpu.registers.pair .hl) = value ∧
      ∃ records, readByte .atHl c = ⟨.ok value, c, records⟩ := by
  obtain ⟨records, hread⟩ := readByte_atHl c
  have hbyte : c.hardware.bus.read (c.cpu.registers.pair .hl) = .ok value := by
    rw [← h, hread]
  refine ⟨?_, records, ?_⟩
  · rw [byteAt, hbyte]
  · rw [hread, hbyte]

/-- An operation of the arithmetic unit on a byte keeps `hl`. -/
def KeepsPointer (operation : Registers → UInt8 → UInt8 × Registers) : Prop :=
  ∀ r x, (operation r x).2.pair .hl = r.pair .hl

/-- What is changed is written back to where it was read. -/
theorem changing_eq {operation : Registers → UInt8 → UInt8 × Registers}
    (hop : KeepsPointer operation) {operand : Operand} (h : operand.kind.isField) {value : UInt8}
    (hok : (readByte operand c).result = .ok value) :
    changing operation c operand =
      altered (fun x ↦ (operation c.cpu.registers x).1) c operand := by
  rcases Operand.field_cases h with ⟨r, rfl⟩ | rfl
  · exact placingOf_register _ r c
  · obtain ⟨hbyte, records, hread⟩ := readByte_atHl_of_ok hok
    let after : Console :=
      { c with cpu := c.cpu.withRegisters (operation c.cpu.registers value).2 }
    have hchange : (do let value ← readByte .atHl; compute (operation · value)) c =
        ⟨.ok (operation c.cpu.registers value).1, after, records⟩ := by
      rw [Exec.bind_of_ok hread]
      simp [compute, Outcome.after, after, Cpu.withRegisters]
    have hpair : after.cpu.registers.pair .hl = c.cpu.registers.pair .hl := hop _ _
    have hplacing : ∀ value, placing after .atHl value = [(c.cpu.registers.pair .hl, value)] :=
      fun value ↦ congrArg (fun addr ↦ [(addr, value)]) hpair
    have haltered : ∀ change, altered change c .atHl =
        [(c.cpu.registers.pair .hl, change (c.byteAt (c.cpu.registers.pair .hl)))] :=
      fun _ ↦ rfl
    rw [changing, placingOf_of_ok hchange, hplacing, haltered, hbyte]

theorem marking_eq {change : UInt8 → UInt8 → UInt8} {index : UInt8} {operand : Operand}
    (h : operand.kind.isField) {value : UInt8} (hok : (readByte operand c).result = .ok value) :
    marking change c (.bit index) operand = marked change c (.bit index) operand := by
  let changed : Operand → Exec Console UInt8 := fun operand ↦ do
    let value ← readByte operand
    return change index value
  rcases Operand.field_cases h with ⟨r, rfl⟩ | rfl
  · exact placingOf_register (changed (.reg8 r .immediate)) r c
  · obtain ⟨hbyte, records, hread⟩ := readByte_atHl_of_ok hok
    have hchange : changed .atHl c = ⟨.ok (change index value), c, records⟩ := by
      simp only [changed]
      rw [Exec.bind_of_ok hread]
      simp [Outcome.after]
    have hmarked : marked change c (.bit index) .atHl = [(c.cpu.registers.pair .hl,
        change index (c.byteAt (c.cpu.registers.pair .hl)))] := rfl
    rw [hmarked, hbyte]
    exact placingOf_of_ok hchange .atHl

/-- A call goes to a word that is part of it. -/
theorem calling_eq {condition : Condition} {operand : Operand} (h : operand.kind = .word) :
    calling c (.condition condition) operand = called c (.condition condition) operand := by
  obtain ⟨value, rfl⟩ := Operand.form_of_kind h
  rw [calling, Registers.satisfies_eq]
  rfl

/-! ## Instructions -/

theorem ofSole_changing {operation : Registers → UInt8 → UInt8 × Registers}
    (hop : KeepsPointer operation) (h : i.HasSole Kind.isField)
    (hok : (performShift i operation c).result = .ok ()) :
    ofSole i (changing operation c) =
      ofSole i (altered (fun x ↦ (operation c.cpu.registers x).1) c) := by
  obtain ⟨operand, hl, hkind⟩ := h.exists_lhs
  rw [performShift, soleOperand.eq_def, hl, pure_bind] at hok
  obtain ⟨value, hvalue, -⟩ := Exec.bind_eq_ok hok
  rw [ofSole, ofSole, hl]
  exact changing_eq hop hkind hvalue

theorem ofSole_stepping {operation : Registers → UInt8 → UInt8 × Registers}
    {stepPair : Registers → Reg16 → Registers} (hop : KeepsPointer operation)
    (h : i.HasSole fun operand ↦ operand.isField || operand.isPair)
    (hok : (performStep i stepPair operation c).result = .ok ()) :
    ofSole i (stepping operation c) =
      ofSole i (altered (fun x ↦ (operation c.cpu.registers x).1) c) := by
  obtain ⟨operand, hl, hkind⟩ := h.exists_lhs
  rw [performStep, soleOperand.eq_def, hl, pure_bind] at hok
  rw [ofSole, ofSole, hl]
  rcases Bool.or_eq_true_iff.1 hkind with hfield | hpair
  · rcases Operand.field_cases hfield with ⟨r, rfl⟩ | rfl <;>
      obtain ⟨value, hvalue, -⟩ := Exec.bind_eq_ok hok <;>
      exact changing_eq hop hfield hvalue
  · obtain ⟨r, rfl⟩ := Operand.exists_pair hpair
    rfl

theorem ofBoth_marking {change : UInt8 → UInt8 → UInt8} (h : i.HasBoth Kind.marks)
    (hok : (performChangeBit i change c).result = .ok ()) :
    ofBoth i (marking change c) = ofBoth i (marked change c) := by
  obtain ⟨lhs, rhs, hl, hr, hkinds⟩ := h.exists_operands
  obtain ⟨⟨index, rfl⟩, hfield⟩ := Operand.marks_cases hkinds
  rw [performChangeBit, bothOperands.eq_def, hl, hr, pure_bind] at hok
  obtain ⟨value, hvalue, -⟩ := Exec.bind_eq_ok hok
  rw [ofBoth, ofBoth, hl, hr]
  exact marking_eq hfield hvalue

theorem ofBoth_copying (h : i.HasBoth Kind.loads) :
    ofBoth i (copying c) = ofBoth i (copied c) := by
  obtain ⟨lhs, rhs, hl, hr, hkinds⟩ := h.exists_operands
  rw [ofBoth, ofBoth, hl, hr]
  exact copying_eq hkinds c

theorem ofBoth_calling (h : i.HasBoth (Kind.transfers (· == .word))) :
    ofBoth i (calling c) = ofBoth i (called c) := by
  obtain ⟨lhs, rhs, hl, hr, hkinds⟩ := h.exists_operands
  obtain ⟨⟨condition, rfl⟩, hword⟩ := Operand.transfers_cases hkinds
  rw [ofBoth, ofBoth, hl, hr]
  exact calling_eq (beq_iff_eq.1 hword)

theorem keepsPointer_shifted {result : Registers → UInt8 → UInt8}
    {carry : Registers → UInt8 → Bool} :
    KeepsPointer fun r x ↦ r.shifted (result r x) (carry r x) := fun _ _ ↦ rfl

/-- **An instruction that succeeds makes the writes of the table**, if its operands fit. -/
theorem stores_eq_busWrites (h : i.Fits) {taken : Bool} (hok : (perform i c).result = .ok taken) :
    stores i c = busWrites i c := by
  rw [Instruction.Fits] at h
  rw [stores, busWrites]
  unfold perform at hok
  cases hop : i.opcode <;> rw [hop] at h hok
  case call => exact ofBoth_calling h
  all_goals
    obtain ⟨_, hplain, -⟩ := Exec.bind_eq_ok hok
    rw [performPlain, hop] at hplain
  case ld | ldh => exact ofBoth_copying h
  case inc | dec => exact ofSole_stepping (fun _ _ ↦ rfl) h hplain
  case rlc | rrc | rl | rr | sla | sra | swap | srl =>
    exact ofSole_changing keepsPointer_shifted h hplain
  case res | set => exact ofBoth_marking h hplain

/-! ## Steps -/

/-- A step that serves no interrupt does nothing to the hardware at its interrupt check. -/
theorem serveInterrupts_of_not_dispatches (hd : ¬ Dispatches c) {running : Nat}
    (hr : (toCheck c).result = .ok running) :
    (serveInterrupts (toCheck c).state).result = .ok 0 ∧
      (serveInterrupts (toCheck c).state).state.hardware = (toCheck c).state.hardware := by
  cases hp : (toCheck c).state.hardware.body.bus.pendingInterrupt? with
  | none =>
    rw [serveInterrupts_of_none hp]
    exact ⟨rfl, rfl⟩
  | some source =>
    have hoff : ¬ (toCheck c).state.cpu.interruptsOn := fun hon ↦
      hd ⟨running, source, hr, hon, hp⟩
    rw [serveInterrupts_of_some hp, if_neg hoff]
    exact ⟨rfl, rfl⟩

/-- **An instruction touches the hardware only by its writes and by time.**  When a step runs an
instruction, succeeds and serves no interrupt, all the writes of the instruction succeed, and the
hardware is left as they leave it, one after another, once the cycles that the step reports have
passed.  Fetching, reading and everything else that the instruction does leave no trace on it. -/
theorem hardware_next_of_performs (h : Reachable c) (hi : Performs c i) (hd : ¬ Dispatches c)
    {n : Nat} (hn : (step c).result = .ok n) :
    (storeAll (busWrites i (past i c)) c.hardware).result = .ok () ∧
      c.next.hardware =
        (Hardware.advance n (storeAll (busWrites i (past i c)) c.hardware).state).state := by
  rw [step_eq] at hn
  obtain ⟨running, hr, hn, -⟩ := Exec.bind_eq_ok hn
  obtain ⟨serving, hs, hn, -⟩ := Exec.bind_eq_ok hn
  cases hn
  obtain ⟨hzero, hkept⟩ := serveInterrupts_of_not_dispatches hd hr
  obtain rfl : 0 = serving := Except.ok.inj (hzero.symm.trans hs)
  have hnext : c.next.hardware = (toCheck c).state.hardware := by
    rcases next_cases c with ⟨fault, he, -⟩ | ⟨cycles, -, hn⟩
    · rw [hr] at he
      cases he
    · rw [hn, hkept]
  rw [hnext, toCheck_of_running hi.1]
  rw [toCheck_of_running hi.1] at hr
  rcases runInstruction_cases h.hardware with ⟨fault, seen, -, he⟩ |
    ⟨j, seen, hf, ⟨fault, c', done, -, he⟩ | ⟨taken, c', done, hw, ticks, hp, ha, he⟩⟩ <;>
    rw [he] at hr
  · cases hr
  · cases hr
  obtain rfl : j = i := Except.ok.inj (by rw [← hi.2, hf])
  obtain rfl : j.duration taken = running := Except.ok.inj hr
  have hwrites : stores j (past j c) = busWrites j (past j c) :=
    stores_eq_busWrites (fits_of_fetch hi.2) (by rw [hp])
  obtain ⟨hstate, hresult⟩ := carries_perform j (past j c)
  rw [hp, hwrites] at hstate hresult
  refine ⟨?_, ?_⟩
  · rcases hresult with hresult | ⟨fault, hfault, -⟩
    · exact hresult.symm
    · cases hfault
  · have hdone : c'.hardware = (storeAll (busWrites j (past j c)) c.hardware).state := hstate
    rw [he, Nat.add_zero, ← hdone, ha]

end

/-! ### A push -/

/-- The machine that starts with a push, while no interrupt is enabled. -/
def stacking : Console := ((Operation.write Register.interruptEnable 0).perform (booted 0xc5)).state

theorem reachable_stacking : Reachable stacking :=
  (reachable_booted 0xc5).perform (.write Register.interruptEnable 0)

/-- The push that it starts with. -/
def stackingPush : Instruction := ⟨.push, some (.pair .bc), none, 1, 16, none⟩

theorem stacking_eq :
    stacking = ⟨{}, (booted 0xc5).hardware.put Register.interruptEnable 0⟩ := by
  have hl : Hardware.DisplayListens (booted 0xc5).hardware :=
    (reachable_booted 0xc5).hardware.wired.1.listens
  have hw := @Hardware.write_of_stores _ hl Register.interruptEnable 0 0 (by decide) (by decide)
    fun _ ↦ rfl
  rw [stacking, Operation.perform, store, state_onHardware, hw]
  rfl

/-- It pushes the two bytes of the pair below the stack pointer. -/
theorem busWrites_stackingPush (hw : Hardware) :
    busWrites stackingPush (past stackingPush ⟨{}, hw⟩) = [(0xfffd, 0x00), (0xfffc, 0x13)] := by
  let r : Registers := {}
  have hwrites : busWrites stackingPush (past stackingPush ⟨{}, hw⟩) =
      [(r.sp - 1, highByte (r.pair .bc)), (r.sp - 1 - 1, lowByte (r.pair .bc))] := rfl
  have hsp : r.sp - 1 = 0xfffd := by decide
  have hsp' : (0xfffd : UInt16) - 1 = 0xfffc := by decide
  have hhigh : highByte (r.pair .bc) = 0x00 := by decide
  have hlow : lowByte (r.pair .bc) = 0x13 := by decide
  rw [hwrites, hsp, hsp', hhigh, hlow]

/-- Both bytes reach the stack. -/
theorem storeAll_stackingPush {hw : Hardware} (hl : Hardware.DisplayListens hw) :
    storeAll [(0xfffd, 0x00), (0xfffc, 0x13)] hw =
      ⟨.ok (), (hw.put 0xfffd 0x00).put 0xfffc 0x13, #[]⟩ := by
  have h₁ := @Hardware.write_of_stores hw hl 0xfffd 0x00 0x00 (by decide) (by decide) fun _ ↦ rfl
  have h₂ := @Hardware.write_of_stores (hw.put 0xfffd 0x00) hl 0xfffc 0x13 0x13 (by decide)
    (by decide) fun _ ↦ rfl
  rw [Hardware.storeAll_cons_of_ok h₁, Hardware.storeAll_cons_of_ok h₂]
  rfl

/-- The push succeeds, as far as the hardware can tell. -/
theorem perform_stackingPush {hw : Hardware} (hl : Hardware.DisplayListens hw) :
    ∃ taken c' records, perform stackingPush (past stackingPush ⟨{}, hw⟩) =
        ⟨.ok taken, c', records⟩ ∧ c'.hardware = (hw.put 0xfffd 0x00).put 0xfffc 0x13 := by
  obtain ⟨hstate, hresult⟩ := carries_perform stackingPush (past stackingPush ⟨{}, hw⟩)
  have hstores : stores stackingPush (past stackingPush ⟨{}, hw⟩) =
      [(0xfffd, 0x00), (0xfffc, 0x13)] := by
    rw [← busWrites_stackingPush hw]
    rfl
  have hall := storeAll_stackingPush hl
  rw [hstores] at hstate hresult
  have hhw : (past stackingPush ⟨{}, hw⟩).hardware = hw := rfl
  rw [hhw, hall] at hstate hresult
  rcases hp : perform stackingPush (past stackingPush ⟨{}, hw⟩) with ⟨result, c', records⟩
  rw [hp] at hstate hresult
  cases result with
  | ok taken => exact ⟨taken, c', records, rfl, hstate⟩
  | error fault =>
    rcases hresult with hresult | ⟨_, -, hnone, -⟩
    · cases hresult
    · cases hnone

/-- The step that runs it, while nothing else is due and no interrupt is enabled. -/
theorem step_stackingPush {hw : Hardware} (hl : Hardware.DisplayListens hw)
    (hb : hw.bus.cartridge.image[0x100]? = some 0xc5)
    (hq : ∀ event ∈ hw.clock.queue, hw.now + 16 ≤ event.target)
    (hoff : hw.reg Register.interruptEnable = 0) :
    Performs ⟨{}, hw⟩ stackingPush ∧ ¬ Dispatches ⟨{}, hw⟩ ∧ (step ⟨{}, hw⟩).result = .ok 16 := by
  obtain ⟨taken, c', done, hp, hc'⟩ := perform_stackingPush hl
  have hcycles : stackingPush.duration taken = 16 := by cases taken <;> rfl
  have hlater : ∀ event ∈ c'.hardware.clock.queue,
      c'.hardware.now + stackingPush.duration taken ≤ event.target := by
    rw [hcycles, hc']
    exact hq
  obtain ⟨records, hf, ht⟩ := toCheck_of_byte (c := ⟨{}, hw⟩) (i := stackingPush) rfl
    (show (0x100 : UInt16) < 0x4000 by decide) hb (by decide) rfl rfl rfl hp hlater
  have hoff' : ((hw.put 0xfffd 0x00).put 0xfffc 0x13).reg Register.interruptEnable = 0 := by
    rw [Hardware.reg_put_of_ne _ _ (by decide), Hardware.reg_put_of_ne _ _ (by decide), hoff]
  have hnone : (toCheck ⟨{}, hw⟩).state.hardware.bus.pendingInterrupt? = none := by
    rw [Hardware.pendingInterrupt?_eq_none_iff, Hardware.awaited, ht, hc']
    show ((hw.put 0xfffd 0x00).put 0xfffc 0x13).reg Register.interruptEnable &&& _ &&& _ = _
    rw [hoff']
    simp
  refine ⟨⟨rfl, hf⟩, ?_, ?_⟩
  · rintro ⟨_, source, -, -, hsome⟩
    cases hnone.symm.trans hsome
  · rw [ht] at hnone
    rw [step_of_none ht hnone, hcycles]

theorem step_stacking : Performs stacking stackingPush ∧
    ¬ Dispatches stacking ∧ (step stacking).result = .ok 16 := by
  have hl : Hardware.DisplayListens (booted 0xc5).hardware :=
    (reachable_booted 0xc5).hardware.wired.1.listens
  have hb := image_booted 0xc5
  have hq := queue_booted 0xc5
  rw [stacking_eq]
  generalize (booted 0xc5).hardware = hw at hl hb hq
  refine @step_stackingPush (hw.put Register.interruptEnable 0) hl hb (fun event he ↦ ?_)
    (Hardware.reg_put_self _ _ _)
  exact Nat.le_trans (Nat.add_le_add_left (by decide) _) (hq event he)

/-- A push leaves both bytes of its pair on the stack, the high one first. -/
theorem hardware_next_of_performs_stacking :
    Reachable stacking ∧ Performs stacking stackingPush ∧ ¬ Dispatches stacking ∧
      (step stacking).result = .ok 16 ∧
      busWrites stackingPush (past stackingPush stacking) = [(0xfffd, 0x00), (0xfffc, 0x13)] ∧
      stacking.next.hardware = (Hardware.advance 16
        (storeAll [(0xfffd, 0x00), (0xfffc, 0x13)] stacking.hardware).state).state := by
  obtain ⟨hi, hd, hn⟩ := step_stacking
  have hwrites : busWrites stackingPush (past stackingPush stacking) =
      [(0xfffd, 0x00), (0xfffc, 0x13)] := by
    rw [stacking_eq]
    exact busWrites_stackingPush _
  have h := (hardware_next_of_performs reachable_stacking hi hd hn).2
  rw [hwrites] at h
  exact ⟨reachable_stacking, hi, hd, hn, hwrites, h⟩

end Console

end DotMatrix
