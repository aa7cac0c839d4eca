import DotMatrix.Proofs.Hardware.Changes
import DotMatrix.Proofs.Range.Display

/-!
# The hardware stays in range

Two things are counted up by time that passes: the line, by the display, and the calendar, by its
tick.  The line is one of a frame's and the calendar's fields stay within their bits, so counting
either on never overflows, and nothing that happens to the hardware changes that.

* `Bounded` — a valid cartridge, and a line of the frame.
* `allowsTurns_bounded` — time keeps that, and `Reachable.bounded`, everything does.
* `Bus.inRange` — what stays in range on any bus.
* `Reachable.inRange`, `Reachable.inRange_firing` — the rest stays in range between operations and
  whenever a task fires.
* `Reachable.safe_perform` — no operation ends in a panic.
-/

set_option autoImplicit false

namespace DotMatrix

namespace Checked

/-- One more on the counter; past 255 it starts again from the reload byte and requests an
interrupt. -/
def stepCounter (hw : Hardware) : Option Hardware :=
  if hw.reg Register.counter = 0xff then
    some ((hw.put Register.counter (hw.reg Register.reload)).requesting .timer)
  else do
    let next ← addByte (hw.reg Register.counter) 1
    return hw.put Register.counter next

/-- The line after the current one. -/
def nextLine (hw : Hardware) : Option UInt8 := addByte (hw.reg Register.line) 1

end Checked

/-! ## Any bus -/

/-- What is written to the bus stays in range, and so does what the hardware does with its registers
and what is drawn. -/
structure Bus.InRange (b : Bus) : Prop where
  write : ∀ addr value, Checked.write addr value b = some (Bus.write addr value b)
  register : ∀ addr, Checked.register b addr = some (b.register addr)
  setRegister : ∀ addr value, Checked.setRegister b addr value = some (b.setRegister addr value)
  drawLine : ∀ d : Display, Checked.drawLine d b = some (d.drawLine b)

/-- Any bus is in range, whatever it holds. -/
theorem Bus.inRange (b : Bus) : b.InRange :=
  ⟨fun addr value ↦ write_inRange addr value b, register_inRange b, setRegister_inRange b,
    fun d ↦ d.drawLine_inRange b⟩

/-! ## Panics -/

/-- Whether a fault tells that the machine itself broke down: it read past the image, counted the
line past a byte, or let writes set each other off for ever.  Every other fault is one of the program
or of the cartridge. -/
def Fault.isPanic : Fault → Bool
  | .pastImage _ | .lineOverflow | .runaway => true
  | .outOfBounds addr => addr < 0x8000
  | _ => false

namespace Exec

variable {σ α β : Type} {I : σ → Prop}

/-- From every state that `I` holds of, an operation ends without a panic, in a state that `I` holds
of. -/
def Safe (I : σ → Prop) (x : Exec σ α) : Prop :=
  ∀ s, I s → (∀ fault, (x s).result = .error fault → fault.isPanic = false) ∧ I (x s).state

namespace Safe

theorem pure (a : α) : Safe I (Pure.pure a : Exec σ α) := fun _ h ↦ ⟨fun _ hf ↦ (by cases hf), h⟩

theorem gets (f : σ → α) : Safe I (Exec.gets f) := fun _ h ↦ ⟨fun _ hf ↦ (by cases hf), h⟩

theorem fail {fault : Fault} (h : fault.isPanic = false) : Safe I (Exec.fail fault : Exec σ α) :=
  fun _ hs ↦ ⟨fun _ hf ↦ (by cases hf; exact h), hs⟩

theorem bind {x : Exec σ α} {f : α → Exec σ β} (hx : Safe I x) (hf : ∀ a, Safe I (f a)) :
    Safe I (x >>= f) := by
  intro s h
  have hs := hx s h
  rcases ho : x s with ⟨fault | a, t, records⟩ <;> rw [ho] at hs
  · rw [bind_of_error ho]
    exact ⟨fun _ he ↦ (by cases he; exact hs.1 fault rfl), hs.2⟩
  · rw [bind_of_ok ho]
    exact hf a t hs.2

end Safe

end Exec

/-- The only addresses that nothing is mapped at lie above the image. -/
theorem Fault.isPanic_outOfBounds {addr : UInt16} (h : ¬ addr < 0x8000) :
    (outOfBounds addr).isPanic = false := decide_eq_false h

/-- A valid cartridge is never read past its image. -/
theorem Cartridge.isPanic_read {c : Cartridge} (h : c.Valid) {addr : UInt16} {fault : Fault}
    (hf : c.read addr = .error fault) : fault.isPanic = false := by
  have hr := h.read_inRange addr
  rw [hf, Checked.readCartridge] at hr
  split at hr
  · obtain ⟨_, -, hr⟩ := Option.bind_eq_some_iff.1 hr
    cases hr
  split at hr
  · obtain ⟨_, -, hr⟩ := Option.bind_eq_some_iff.1 hr
    cases hr
  rename_i haddr
  split at hr
  · split at hr
    · cases hr
    · obtain ⟨_, -, hr⟩ := Option.bind_eq_some_iff.1 hr
      cases hr
  · cases hr
    exact Fault.isPanic_outOfBounds haddr

/-- The only control that can fail chooses what no window stands for. -/
theorem Mbc3.IsControl.isPanic {operation : UInt8 → Exec Mbc3 Unit} (h : IsControl operation)
    {value : UInt8} {m : Mbc3} {fault : Fault}
    (hf : (operation value m).result = .error fault) : fault.isPanic = false := by
  cases h with
  | enable | selectBank => cases hf
  | selectWindow =>
    rw [Mbc3.selectWindow] at hf
    cases hw : Window.ofCode? value <;> rw [hw] at hf <;> cases hf
    rfl
  | latch =>
    rw [Mbc3.latch] at hf
    split at hf
    · cases hf
    · split at hf <;> cases hf

namespace Cartridge

variable {c : Cartridge} {value : UInt8} {fault : Fault}

theorem isPanic_control {operation : UInt8 → Exec Mbc3 Unit} (h : Mbc3.IsControl operation)
    (ignored : IgnoredControl)
    (hf : (control operation ignored value c).result = .error fault) : fault.isPanic = false := by
  obtain ⟨image, _ | m⟩ := c
  · cases hf
  · have hm : (operation value m).result = .error fault := hf
    exact h.isPanic hm

theorem isPanic_write {addr : UInt16} (ha : ¬ addr < 0x8000)
    (hf : (write addr value c).result = .error fault) : fault.isPanic = false := by
  obtain ⟨image, _ | m⟩ := c <;> rw [write] at hf
  · split at hf <;> cases hf
    exact Fault.isPanic_outOfBounds ha
  · split at hf
    · have hm : (Mbc3.writeWindow addr value m).result = .error fault := hf
      rw [Mbc3.writeWindow] at hm
      split at hm
      · split at hm <;> cases hm
      · cases hm
    · cases hf
      exact Fault.isPanic_outOfBounds ha

end Cartridge

namespace Bus

variable {b : Bus} {addr : UInt16} {fault : Fault}

theorem not_lt_of_place (h : b.place addr ≠ .image) : ¬ addr < 0x8000 := fun hlt ↦
  h (if_pos hlt)

theorem isPanic_read (h : b.cartridge.Valid) (hf : b.read addr = .error fault) :
    fault.isPanic = false := by
  rw [read] at hf
  cases hp : b.place addr <;> rw [hp] at hf
  case image | external => exact Cartridge.isPanic_read h hf
  case cell | register => cases hf
  case nothing =>
    cases hf
    exact Fault.isPanic_outOfBounds (not_lt_of_place (by rw [hp]; decide))

theorem isPanic_control {value : UInt8} (hf : (control addr value b).result = .error fault) :
    fault.isPanic = false := by
  obtain ⟨operation, ignored, h, hc⟩ := exists_control addr value
  rw [hc] at hf
  have hf' : (Cartridge.control operation ignored value b.cartridge).result = .error fault := hf
  exact Cartridge.isPanic_control h ignored hf'

theorem isPanic_write {value : UInt8} (hf : (write addr value b).result = .error fault) :
    fault.isPanic = false := by
  rw [write] at hf
  cases hp : b.place addr <;> rw [hp] at hf
  case image => exact isPanic_control hf
  case external =>
    exact Cartridge.isPanic_write (not_lt_of_place (by rw [hp]; decide)) hf
  case cell => cases hf
  case register =>
    dsimp only at hf
    rw [(registerWritten addr value b).result] at hf
    cases hf
  case nothing =>
    cases hf
    exact Fault.isPanic_outOfBounds (not_lt_of_place (by rw [hp]; decide))

end Bus

namespace Hardware

variable {hw hw' : Hardware} {delay : Nat} {task : Task} {records : Array Record}

/-! ## The cartridge and the line -/

/-- A valid cartridge, and a line of the frame. -/
structure Bounded (hw : Hardware) : Prop where
  cartridge : hw.bus.cartridge.Valid
  line : (hw.reg Register.line).toNat < totalLines

/-- What is bounded stays so. -/
def KeepsBounded (hw : Hardware) (_ : Array Record) (hw' : Hardware) : Prop :=
  Bounded hw → Bounded hw'

theorem keepsBounded_chains : Exec.Chains KeepsBounded where
  refl _ h := h
  trans h h' hb := h' (h hb)

theorem Bounded.keep (h : Bounded hw) (hc : hw'.bus.cartridge = hw.bus.cartridge)
    (hl : hw'.reg Register.line = hw.reg Register.line) : Bounded hw' :=
  ⟨hc ▸ h.cartridge, hl ▸ h.line⟩

/-- The line moves within the frame. -/
theorem Bounded.moved (h : Bounded hw) (hc : hw'.bus.cartridge = hw.bus.cartridge)
    (hl : (hw'.reg Register.line).toNat < totalLines) : Bounded hw' :=
  ⟨hc ▸ h.cartridge, hl⟩

/-! ## What time keeps -/

theorem Ticks.bounded {ticked : Hardware} (h : Ticks hw task records ticked delay)
    (hb : Bounded hw) : Bounded ticked := by
  have hl := h.quiet.line
  cases h with
  | divider => exact hb.keep rfl hl
  | counter =>
    refine hb.keep ?_ hl
    split
    · rw [counted]
      split <;> rfl
    · rfl
  | calendar => exact ⟨hb.cartridge.tickCalendar, hl ▸ hb.line⟩

/-- The way out of a phase leads to a line of the frame. -/
theorem Bounded.followed (h : Bounded hw) (hp : Placed hw) :
    Bounded (hw.followed hw.display.phase.exit) := by
  refine h.moved (cartridge_covers.followed hw _) ?_
  have hline := h.line
  have hbelow := toNat_lineBelow h.line
  cases hq : hw.display.phase <;> rw [Phase.exit, Hardware.followed]
  case oamScan | drawing => rwa [line_entered]
  case hblank =>
    have hvisible : ¬ visibleLines ≤ (hw.reg Register.line).toNat := fun hle ↦ by
      rw [hp.vblank.2 hle] at hq
      cases hq
    rw [line_entered, line_atLine, hbelow]
    exact Nat.lt_of_le_of_lt (Nat.succ_le_of_lt (Nat.lt_of_not_le hvisible)) (by decide)
  case vblank =>
    split
    · rw [line_entered, line_atLine]
      decide
    · rename_i hlast
      rw [planned, reg_later, line_atLine]
      exact Nat.lt_of_le_of_ne (hbelow ▸ Nat.succ_le_of_lt hline) hlast

theorem allowsTurns_bounded : AllowsTurns KeepsBounded where
  toChains := keepsBounded_chains
  moment _ _ _ h := ⟨h.cartridge, h.line⟩
  turn h hb := by
    cases h with
    | tick h =>
      have ht := h.bounded hb
      exact ⟨ht.cartridge, ht.line⟩
    | void => exact hb
    | display _ hplaced => exact hb.followed hplaced

/-! ## What operations keep -/

theorem bounded_powerOn {image : Array UInt8} {cartridge : Cartridge}
    (h : Cartridge.ofImage image = .ok cartridge) : Bounded (powerOn cartridge).1 := by
  rw [powerOn_eq]
  refine ⟨?_, ?_⟩
  · rw [cartridge_covers.started]
    exact Cartridge.valid_ofImage h
  · rw [line_started]
    decide

/-- The control byte can only put the line at the top of the picture. -/
theorem Bounded.controlled (h : Bounded hw) (value : UInt8) : Bounded (hw.controlled value) := by
  rw [Hardware.controlled]
  split
  · exact h
  split
  · exact h.moved (cartridge_covers.started hw) (by rw [line_started]; decide)
  · exact h.moved (cartridge_covers.stopped hw) (by rw [line_stopped]; decide)

theorem Bounded.write (h : Bounded hw) (hl : DisplayListens hw) (addr : UInt16) (value : UInt8) :
    Bounded (write addr value hw).state := by
  by_cases hc : addr = Register.lcdControl
  · rw [hc, write_lcdControl hl]
    have hput : Bounded (hw.put Register.lcdControl value) :=
      h.keep rfl (reg_put_of_ne _ _ (by decide))
    exact hput.controlled value
  · rw [write_of_ne hl hc]
    have hline : (onBus (Bus.write addr value) hw).state.reg Register.line =
        hw.reg Register.line := Bus.register_line_write addr value hw.bus
    exact ⟨Bus.keepsValid_write addr value hw.bus h.cartridge, hline ▸ h.line⟩

theorem cartridge_press (button : Button) (pressed : Bool) (hw : Hardware) :
    (press button pressed hw).state.bus.cartridge = hw.bus.cartridge := by
  rw [press, Exec.bind_gets]
  split <;> rfl

/-- Hardware that was started and acted on is bounded. -/
theorem Reachable.bounded (h : Reachable hw) : Bounded hw := by
  induction h with
  | powerOn h => exact bounded_powerOn h
  | @perform hw op h ih =>
    cases op with
    | write addr value => exact ih.write h.wired.1.listens addr value
    | advance cycles => exact allowsTurns_bounded.advance h cycles ih
    | withdraw source => exact ih.keep rfl (quiet_withdraw source hw).line
    | press button pressed =>
      exact ih.keep (cartridge_press button pressed hw) (quiet_press button pressed hw).line

/-! ## In range -/

/-- What time does to the hardware and what is read from it stays in range.  This depends on how the
hardware came to be as it is; what is done to the bus beside it stays in range on any
(`Bus.inRange`). -/
structure InRange (hw : Hardware) : Prop where
  read : ∀ addr, Checked.read hw.bus addr = some (hw.bus.read addr)
  nextLine : (Checked.nextLine hw).map .ok = some (nextLine hw).result
  tickCalendar : Checked.tickCalendar hw.bus.cartridge = some hw.bus.cartridge.tickCalendar
  stepCounter : Checked.stepCounter hw = some (stepCounter hw).state

theorem stepCounter_inRange (hw : Hardware) :
    Checked.stepCounter hw = some (stepCounter hw).state := by
  rw [Checked.stepCounter, stepCounter_apply, counted]
  split
  · rfl
  · rename_i hne
    have hlt : (hw.reg Register.counter).toNat + (1 : UInt8).toNat < 2 ^ 8 := by
      have h := (hw.reg Register.counter).toNat_lt
      have hne' : (hw.reg Register.counter).toNat ≠ 255 := fun he ↦ hne (UInt8.toNat_inj.1 he)
      rw [UInt8.toNat_one]
      omega
    rw [Checked.addByte_of_lt hlt]
    rfl

theorem Bounded.nextLine_inRange (h : Bounded hw) :
    (Checked.nextLine hw).map .ok = some (nextLine hw).result := by
  rw [Checked.nextLine, Checked.addByte_of_lt
    (Nat.lt_of_lt_of_le (Nat.add_lt_add_right h.line 1) (by decide)),
    nextLine_apply hw (line_ne_of_lt h.line)]
  rfl

theorem Bounded.inRange (h : Bounded hw) : InRange hw where
  read := Bus.read_inRange h.cartridge
  nextLine := h.nextLine_inRange
  tickCalendar := h.cartridge.tickCalendar_inRange
  stepCounter := stepCounter_inRange hw

/-- Hardware that was started and acted on is in range. -/
theorem Reachable.inRange (h : Reachable hw) : InRange hw := h.bounded.inRange

/-- So it is whenever a task fires while time passes. -/
theorem Reachable.inRange_firing (h : Reachable hw) {cycles : Nat}
    {firings : List (Timed.Firing Task Board)} {o : Outcome Hardware Unit}
    (hd : Timed.Drains fire (hw.now + cycles) hw firings o) {f : Timed.Firing Task Board}
    (hf : f ∈ firings) : InRange f.before := by
  obtain ⟨hw₁, _, _, _, ht⟩ := h.wired
  obtain ⟨_, hkept⟩ := (allowsTurns_bounded.window (.start hw₁ ht cycles) hd).1 f hf
  exact (hkept h.bounded).inRange

/-! ## No panics -/

theorem Reachable.safe_load (addr : UInt16) : Exec.Safe Reachable (load addr) :=
  fun _ h ↦ ⟨fun _ hf ↦ Bus.isPanic_read h.bounded.cartridge hf, h⟩

theorem Reachable.safe_write (addr : UInt16) (value : UInt8) :
    Exec.Safe Reachable (write addr value) := by
  intro hw h
  refine ⟨fun fault hf ↦ ?_, h.perform (.write addr value)⟩
  have hl := h.wired.1.listens
  by_cases hc : addr = Register.lcdControl
  · rw [hc, write_lcdControl hl] at hf
    cases hf
  · rw [write_of_ne hl hc] at hf
    exact Bus.isPanic_write hf

theorem Reachable.safe_advance (cycles : Nat) : Exec.Safe Reachable (advance cycles) :=
  fun hw h ↦ ⟨fun fault hf ↦ (by rw [h.advance_ok cycles] at hf; cases hf),
    h.perform (.advance cycles)⟩

theorem Reachable.safe_press (button : Button) (pressed : Bool) :
    Exec.Safe Reachable (press button pressed) := by
  refine fun hw h ↦ ⟨fun fault hf ↦ ?_, h.perform (.press button pressed)⟩
  rw [press, Exec.bind_gets] at hf
  split at hf <;> cases hf

theorem Reachable.safe_perform (op : Operation) : Exec.Safe Reachable op.perform := by
  cases op with
  | write addr value => exact safe_write addr value
  | advance cycles => exact safe_advance cycles
  | withdraw source => exact fun _ h ↦ ⟨fun _ hf ↦ (by cases hf), h.perform (.withdraw source)⟩
  | press button pressed => exact safe_press button pressed

end Hardware

end DotMatrix
