import DotMatrix.Proofs.Console.Reach
import DotMatrix.Proofs.Range.Hardware
import DotMatrix.Proofs.Range.Processor

/-!
# No panic is reachable

A machine that was started with an accepted image stays in range, whatever program it runs and
whatever is done to it from outside.  Times and the numbers of events, of turnings-on and of pictures
are natural numbers here, which is to say that the clock stays within its 64 bits.

* `safe_covers` — no part of a step ends in a panic, so none of its parts was left out of range.
* `step_le`, `runFrame_inRange` — a step takes at most 48 cycles, so adding them up over a frame does
  not overflow.
* `no_panic` — all of this together, with the accesses and the sums of the hardware, of the display
  and of the processor.
-/

set_option autoImplicit false

namespace DotMatrix

open Exec (Safe)

namespace Checked

/-- Step until another picture than the first `shown` was presented or the time is over, adding up
the cycles that pass. -/
def stepUntilFrame (shown : Nat) :
    Nat → Nat → Array Record → Console → Option (Outcome Console Nat)
  | 0, cycles, records, c => some ⟨.ok cycles, c, records⟩
  | fuel + 1, cycles, records, c =>
    if c.hardware.body.display.frames ≠ shown ∨ Console.frameTimeout ≤ cycles then
      some ⟨.ok cycles, c, records⟩
    else
      match Console.step c with
      | ⟨.ok more, c', after⟩ => do
        let sum ← addIndex cycles more
        stepUntilFrame shown fuel sum (records ++ after) c'
      | ⟨.error fault, c', after⟩ => some ⟨.error fault, c', records ++ after⟩

/-- Run until the display presents the next picture. -/
def runFrame (c : Console) : Option (Outcome Console Nat) :=
  stepUntilFrame c.hardware.body.display.frames Console.frameTimeout 0 #[] c

end Checked

namespace Console

/-! ## Everything that is done to a machine -/

/-- The hardware was started with an accepted cartridge and acted on since. -/
def Running (c : Console) : Prop := Hardware.Reachable c.hardware

theorem safe_onHardware {α : Type} {x : Exec Hardware α} (h : Safe Hardware.Reachable x) :
    Safe Running (onHardware x) := fun c hc ↦ h c.hardware hc

/-- No part of a step ends in a panic. -/
theorem safe_covers : CoversSteps fun _ ↦ Safe Running where
  pure := .pure
  bind := .bind
  mismatched _ := .fail rfl
  unusable _ := .fail rfl
  look := .gets _
  compute _ _ hc := ⟨fun _ hf ↦ (by cases hf), hc⟩
  load addr := safe_onHardware (Hardware.Reachable.safe_load addr)
  store addr value := safe_onHardware (Hardware.Reachable.safe_write addr value)
  gets := .gets
  modifyCpu _ _ hc := ⟨fun _ hf ↦ (by cases hf), hc⟩
  report _ _ _ hc := ⟨fun _ hf ↦ (by cases hf), hc⟩
  undefined _ _ _ := .fail rfl
  act op := safe_onHardware (Hardware.Reachable.safe_perform op)

namespace Reachable

theorem safe_step : Safe Reachable step := fun c h ↦ ⟨(safe_covers.step c h.hardware).1, h.next⟩

theorem safe_load (addr : UInt16) : Safe Reachable (load addr) := by
  intro c h
  have hs : (load addr c).state = c := by
    rw [load, state_onHardware, (Hardware.untouched_load addr c.hardware).1]
  exact ⟨(safe_covers.load addr c h.hardware).1, hs.symm ▸ h⟩

theorem safe_loadWord (addr : UInt16) : Safe Reachable (onHardware (Hardware.loadWord addr)) := by
  rw [Hardware.loadWord, onHardware_bind]
  refine .bind (safe_load addr) fun _ ↦ ?_
  rw [onHardware_bind]
  exact .bind (safe_load _) fun _ ↦ .pure _

theorem safe_operation (op : Hardware.Operation)
    (h : ∀ c, Reachable c → Reachable (onHardware op.perform c).state) :
    Safe Reachable (onHardware op.perform) :=
  fun c hc ↦ ⟨(safe_covers.act op c hc.hardware).1, h c hc⟩

theorem safe_store (addr : UInt16) (value : UInt8) : Safe Reachable (store addr value) :=
  safe_operation (.write addr value) fun _ h ↦ h.perform (.write addr value)

theorem safe_storeWord (addr value : UInt16) :
    Safe Reachable (onHardware (Hardware.writeWord addr value)) := by
  rw [Hardware.writeWord, onHardware_bind]
  exact .bind (safe_store _ _) fun _ ↦ safe_store _ _

theorem safe_advance (cycles : Nat) : Safe Reachable (onHardware (Hardware.advance cycles)) :=
  safe_operation (.advance cycles) fun _ h ↦ h.perform (.advance cycles)

theorem safe_press (button : Button) (pressed : Bool) :
    Safe Reachable (pressButton button pressed) := by
  rw [pressButton_eq]
  refine safe_operation (.press button pressed) fun c h ↦ ?_
  have hp := h.perform (.press button pressed)
  rwa [Operation.perform, pressButton_eq] at hp

end Reachable

/-! ## The cycles of a step -/

variable {c : Console} {n : Nat}

/-- A fetched instruction was decoded. -/
theorem decode_of_fetch {i : Instruction} (h : (fetch c).result = .ok i) :
    (Instruction.decode Hardware.load Exec.fail c.cpu.registers.pc c.hardware).result = .ok i := by
  rw [fetch, registers, Exec.bind_gets] at h
  obtain ⟨_, hd, h, -⟩ := Exec.bind_eq_ok h
  obtain ⟨_, -, h, -⟩ := Exec.bind_eq_ok h
  cases h
  exact hd

theorem runInstruction_le (h : (runInstruction c).result = .ok n) : n ≤ 24 := by
  rw [runInstruction, Exec.bind_gets] at h
  obtain ⟨i, hi, h, -⟩ := Exec.bind_eq_ok h
  obtain ⟨_, -, h, -⟩ := Exec.bind_eq_ok h
  obtain ⟨taken, -, h, -⟩ := Exec.bind_eq_ok h
  obtain ⟨_, -, h, -⟩ := Exec.bind_eq_ok h
  obtain ⟨_, -, h, -⟩ := Exec.bind_eq_ok h
  cases h
  exact Instruction.duration_le_of_decode (decode_of_fetch hi) taken

theorem toCheck_le (h : (toCheck c).result = .ok n) : n ≤ 24 := by
  rw [toCheck] at h
  split at h
  · obtain ⟨_, -, h, -⟩ := Exec.bind_eq_ok h
    cases h
    decide
  · exact runInstruction_le h

theorem dispatch_eq {source : Interrupt} (h : (dispatch source c).result = .ok n) :
    n = dispatchCycles := by
  obtain ⟨_, -, h, -⟩ := Exec.bind_eq_ok h
  obtain ⟨_, -, h, -⟩ := Exec.bind_eq_ok h
  obtain ⟨_, -, h, -⟩ := Exec.bind_eq_ok h
  obtain ⟨_, -, h, -⟩ := Exec.bind_eq_ok h
  obtain ⟨_, -, h, -⟩ := Exec.bind_eq_ok h
  obtain ⟨_, -, h, -⟩ := Exec.bind_eq_ok h
  obtain ⟨_, -, h, -⟩ := Exec.bind_eq_ok h
  cases h
  rfl

theorem serveInterrupts_le (h : (serveInterrupts c).result = .ok n) : n ≤ dispatchCycles := by
  cases hp : c.hardware.body.bus.pendingInterrupt? with
  | none =>
    rw [serveInterrupts_of_none hp] at h
    cases h
    exact Nat.zero_le _
  | some source =>
    rw [serveInterrupts_of_some hp, Outcome.result_after] at h
    split at h
    · exact Nat.le_of_eq (dispatch_eq h)
    · cases h
      exact Nat.zero_le _

/-- A step takes at most 48 cycles: an instruction, and serving an interrupt. -/
theorem step_le (h : (step c).result = .ok n) : n ≤ 48 := by
  rw [step_eq] at h
  obtain ⟨running, hr, h, -⟩ := Exec.bind_eq_ok h
  obtain ⟨serving, hs, h, -⟩ := Exec.bind_eq_ok h
  cases h
  exact Nat.add_le_add (toCheck_le hr) (serveInterrupts_le hs)

/-! ## A frame -/

theorem safe_stepUntilFrame (shown fuel cycles : Nat) (records : Array Record) :
    Safe Reachable (stepUntilFrame shown fuel cycles records) := by
  induction fuel generalizing cycles records with
  | zero => exact fun c h ↦ ⟨fun _ hf ↦ (by cases hf), h⟩
  | succ fuel ih =>
    intro c h
    rw [stepUntilFrame]
    split
    · exact ⟨fun _ hf ↦ (by cases hf), h⟩
    have hs := Reachable.safe_step c h
    rcases ho : step c with ⟨fault | more, c', after⟩ <;> rw [ho] at hs
    · exact ⟨fun _ hf ↦ (by cases hf; exact hs.1 fault rfl), hs.2⟩
    · exact ih _ _ c' hs.2

theorem Reachable.safe_runFrame : Safe Reachable runFrame :=
  fun c h ↦ safe_stepUntilFrame _ _ _ _ c h

/-- The time that is given to a frame leaves room for its last step. -/
theorem stepUntilFrame_inRange (shown fuel cycles : Nat) (records : Array Record) (c : Console) :
    Checked.stepUntilFrame shown fuel cycles records c =
      some (stepUntilFrame shown fuel cycles records c) := by
  induction fuel generalizing cycles records c with
  | zero => rfl
  | succ fuel ih =>
    rw [Checked.stepUntilFrame, stepUntilFrame]
    split
    · rfl
    rename_i hgoes
    have hcycles : cycles < 140448 := Nat.lt_of_not_le fun hle ↦ hgoes (Or.inr hle)
    rcases ho : step c with ⟨fault | more, c', after⟩
    · rfl
    · have hmore : more ≤ 48 := step_le (by rw [ho])
      have hadd : Checked.addIndex cycles more = some (cycles + more) :=
        Checked.addIndex_of_lt (by omega)
      dsimp only
      rw [hadd, Option.bind_eq_bind, Option.bind_some, ih]

/-- Adding up the cycles of a frame does not overflow. -/
theorem runFrame_inRange (c : Console) : Checked.runFrame c = some (runFrame c) :=
  stepUntilFrame_inRange _ _ _ _ c

/-! ## A whole machine -/

/-- Whatever a machine does, and whatever is done to it, stays in range. -/
structure InRange (c : Console) : Prop where
  /-- The hardware is only acted on by operations of its own. -/
  acts : ∀ op : Operation, ∃ log, Hardware.Leads c.hardware log (op.perform c).state.hardware
  /-- Wherever these lead, -/
  hardware : ∀ log hw, Hardware.Leads c.hardware log hw → hw.InRange
  /-- and whenever a task fires while time passes there, the hardware is in range. -/
  firing : ∀ log hw, Hardware.Leads c.hardware log hw → ∀ cycles firings o,
    Timed.Drains Hardware.fire (hw.now + cycles) hw firings o →
      ∀ f ∈ firings, Hardware.InRange f.before
  /-- The bit that a fetched instruction names is one of a byte, so masks for it can be made. -/
  bit : ∀ i index, (fetch c).result = .ok i → i.lhs = some (.bit index) → ∀ (r : Registers) x,
    Checked.testBit r index x = some (r.bit index x) ∧
      Checked.clearBit index x = some (Registers.clearBit index x) ∧
      Checked.setBit index x = some (Registers.setBit index x)
  /-- The cycles of a frame are added up. -/
  frame : Checked.runFrame c = some (runFrame c)

theorem Reachable.inRange {c : Console} (h : Reachable c) : c.InRange where
  acts op := by
    obtain ⟨log, hl, -⟩ := acts_perform op c
    exact ⟨log, hl⟩
  hardware log hw hl := (h.hardware.leads hl).inRange
  firing log hw hl cycles firings o hd f hf := (h.hardware.leads hl).inRange_firing hd hf
  bit i index hf hi r x := by
    have hlt := Instruction.bit_lt_of_decode (decode_of_fetch hf) hi
    exact ⟨Registers.testBit_inRange r hlt x, Registers.clearBit_inRange hlt x,
      Registers.setBit_inRange hlt x⟩
  frame := runFrame_inRange c

/-- **No panic is reachable.**  Started with an accepted image of any size and content, the machine
can be stepped, run for a frame, read, written to, left to time and have its buttons pressed in any
order, and nothing of this ends in a panic.  Every access on the way is in bounds and no sum,
difference, product or shift leaves its width: those that hang on how the machine came to be where
it is at every moment of a run, all others on any bus and any registers. -/
theorem no_panic :
    (Safe Reachable step ∧ Safe Reachable runFrame ∧
      (∀ addr, Safe Reachable (load addr)) ∧
      (∀ addr, Safe Reachable (onHardware (Hardware.loadWord addr))) ∧
      (∀ addr value, Safe Reachable (store addr value)) ∧
      (∀ addr value, Safe Reachable (onHardware (Hardware.writeWord addr value))) ∧
      (∀ cycles, Safe Reachable (onHardware (Hardware.advance cycles))) ∧
      ∀ button pressed, Safe Reachable (pressButton button pressed)) ∧
    (∀ c, Reachable c → c.InRange) ∧
    (∀ b : Bus, b.InRange) ∧
    (∀ r : Registers, r.InRange) ∧
    ∀ offset, Checked.registerPage offset = some (registerPage offset) :=
  ⟨⟨Reachable.safe_step, Reachable.safe_runFrame, Reachable.safe_load, Reachable.safe_loadWord,
      Reachable.safe_store, Reachable.safe_storeWord, Reachable.safe_advance,
      Reachable.safe_press⟩,
    fun _ h ↦ h.inRange, Bus.inRange, Registers.inRange, registerPage_inRange⟩

/-- An image of one bank and a quarter, with a calendar. -/
def unevenImage : Array UInt8 := (Array.replicate 0x5000 0).set! 0x0147 0x10

theorem unevenImage_accepted : Cartridge.ofImage unevenImage = .ok (.mbc3 unevenImage) := by
  have hs : unevenImage.size = 0x5000 := by simp [unevenImage]
  have hk : unevenImage[0x0147]?.getD 0 = 0x10 := by simp [unevenImage]
  rw [Cartridge.ofImage, hs, hk]
  rfl

/-- The machine as it starts with that image. -/
def uneven : Console := ⟨{}, (Hardware.powerOn (.mbc3 unevenImage)).1⟩

theorem reachable_uneven : Reachable uneven := by
  obtain ⟨records, hp⟩ := exists_powerOn unevenImage_accepted
  exact .powerOn hp

/-- A frame of that machine ends without a panic, and everything on it stays in range. -/
theorem no_panic_uneven : Reachable uneven ∧ uneven.InRange ∧
    ∀ fault, (runFrame uneven).result = .error fault → fault.isPanic = false :=
  ⟨reachable_uneven, no_panic.2.1 uneven reachable_uneven,
    (no_panic.1.2.1 uneven reachable_uneven).1⟩

end Console

end DotMatrix
