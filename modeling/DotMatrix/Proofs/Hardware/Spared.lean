import DotMatrix.Proofs.Hardware.Requests
import DotMatrix.Proofs.Memory.Frame
import DotMatrix.Proofs.Range.Console

/-!
# What time spares

The timers and the display work on five registers and the calendar of the cartridge, past the rules
that programs are subject to.  Time that passes leaves everything else as it is, and of the status
byte and the requests what belongs to the program.

* `Spares` — what stays as it is, and `spares_covers`, that the display and the timers leave it so.
* `Reachable.status_top` — the top bit of the status byte is always set.
* `time_spares` — what any stretch of time leaves alone on a machine.
-/

set_option autoImplicit false

namespace DotMatrix

namespace Cartridge

/-- The cartridge with its running calendar, if it has one, at another time. -/
def withCalendar (calendar : Calendar) : Cartridge → Cartridge
  | ⟨image, .mbc3 m⟩ => ⟨image, .mbc3 { m with calendar := calendar }⟩
  | ⟨image, .plain⟩ => ⟨image, .plain⟩

theorem withCalendar_withCalendar (calendar later : Calendar) :
    ∀ c : Cartridge, (c.withCalendar calendar).withCalendar later = c.withCalendar later
  | ⟨_, .mbc3 _⟩ | ⟨_, .plain⟩ => rfl

theorem exists_withCalendar : ∀ c : Cartridge, ∃ calendar, c = c.withCalendar calendar
  | ⟨_, .mbc3 m⟩ => ⟨m.calendar, rfl⟩
  | ⟨_, .plain⟩ => ⟨{}, rfl⟩

theorem tickCalendar_eq : ∀ c : Cartridge, ∃ calendar, c.tickCalendar = c.withCalendar calendar
  | ⟨_, .mbc3 m⟩ => ⟨m.calendar.tick, rfl⟩
  | ⟨_, .plain⟩ => ⟨{}, rfl⟩

end Cartridge

namespace Hardware

/-- The registers that the timers and the display write. -/
def timely : List UInt16 :=
  [Register.divider, Register.counter, Register.line, Register.lcdStatus,
    Register.interruptRequest]

/-- Of the cartridge only the running calendar changes, of the registers only the timely ones, of
the status byte only the bits that programs cannot write, and no request is withdrawn. -/
structure Spares (hw hw' : Hardware) : Prop where
  cartridge : ∃ calendar, hw'.bus.cartridge = hw.bus.cartridge.withCalendar calendar
  memory : KeepsMemory hw #[] hw'
  joypad : hw'.bus.joypad = hw.bus.joypad
  registers : ∀ addr : UInt16, 0xff00 ≤ addr → addr ∉ timely → hw'.reg addr = hw.reg addr
  status : hw'.reg Register.lcdStatus &&& 0x78 = hw.reg Register.lcdStatus &&& 0x78
  requests : KeepsRequests hw #[] hw'

variable {hw hw' : Hardware}

theorem Spares.trans {hw'' : Hardware} (h : Spares hw hw') (h' : Spares hw' hw'') :
    Spares hw hw'' where
  cartridge := by
    obtain ⟨calendar, hc⟩ := h.cartridge
    obtain ⟨later, hc'⟩ := h'.cartridge
    exact ⟨later, by rw [hc', hc, Cartridge.withCalendar_withCalendar]⟩
  memory := keepsMemory_chains.trans h.memory h'.memory
  joypad := h'.joypad.trans h.joypad
  registers addr ha ht := (h'.registers addr ha ht).trans (h.registers addr ha ht)
  status := h'.status.trans h.status
  requests := keepsRequests_chains.trans h.requests h'.requests

/-- A change that does not reach the bus. -/
theorem spares_of_bus (h : hw'.bus = hw.bus) : Spares hw hw' where
  cartridge := by
    rw [h]
    exact hw.bus.cartridge.exists_withCalendar
  memory := ⟨by rw [h], by rw [h], by rw [h], by rw [h]⟩
  joypad := by rw [h]
  registers addr _ _ := congrArg (·.register addr) h
  status := congrArg (·.register Register.lcdStatus &&& 0x78) h
  requests := keeps_of_eq (congrArg (·.register Register.interruptRequest) h)

/-- A change of a timely register. -/
theorem spares_put {addr : UInt16} (ht : addr ∈ timely) (ha : 0xff00 ≤ addr) {value : UInt8}
    (hs : addr = Register.lcdStatus → value &&& 0x78 = hw.reg Register.lcdStatus &&& 0x78)
    (hr : KeepsRequests hw #[] (hw.put addr value)) : Spares hw (hw.put addr value) where
  cartridge := hw.bus.cartridge.exists_withCalendar
  memory := ⟨rfl, rfl, rfl, rfl⟩
  joypad := rfl
  registers other ho hn := by
    refine reg_put_of_ne hw value (Bus.toUInt8_ne_of_page ha ho ?_)
    rintro rfl
    exact hn ht
  status := by
    by_cases he : addr = Register.lcdStatus
    · rw [he, reg_put_self]
      exact hs he
    · rw [reg_put_of_ne hw value (Bus.toUInt8_ne_of_page ha (by decide) he)]
  requests := hr

theorem top_statusByte (old : UInt8) (phase : Phase) (isMatch : Bool) :
    statusByte old phase isMatch &&& 0x80 = 0x80 := by
  revert old
  cases phase <;> cases isMatch <;> exact forall_byte (by decide +kernel)

/-- The display and the timers spare what `Spares` says. -/
theorem spares_covers : CoversTime Spares where
  refl _ := spares_of_bus rfl
  trans := Spares.trans
  clock _ _ := spares_of_bus rfl
  showing _ _ := spares_of_bus rfl
  line hw line := spares_put (by decide) (by decide) (fun he ↦ absurd he (by decide))
    (keepsRequests_covers.line hw line)
  status hw := spares_put (by decide) (by decide) (fun _ ↦ kept_statusByte _ _ _)
    (keepsRequests_covers.status hw)
  requesting hw source := spares_put (by decide) (by decide) (fun he ↦ absurd he (by decide))
    (keepsRequests_covers.requesting hw source)
  divider hw value := spares_put (by decide) (by decide) (fun he ↦ absurd he (by decide))
    (keepsRequests_covers.divider hw value)
  counter hw value := spares_put (by decide) (by decide) (fun he ↦ absurd he (by decide))
    (keepsRequests_covers.counter hw value)
  calendar hw := {
    cartridge := hw.bus.cartridge.tickCalendar_eq
    memory := ⟨rfl, rfl, rfl, rfl⟩
    joypad := rfl
    registers := fun _ _ _ ↦ rfl
    status := rfl
    requests := keeps_of_eq rfl }

theorem Reachable.spares_advance (h : Reachable hw) (cycles : Nat) :
    Spares hw (advance cycles hw).state := spares_covers.allowsTurns.advance h cycles

/-- A register reads as it did if nothing of it changed. -/
theorem Spares.load_eq (h : Spares hw hw') {addr : UInt16} (ha : 0xff00 ≤ addr)
    (ht : addr ∉ timely) : (load addr hw').result = (load addr hw).result := by
  have hplace : ∀ b : Bus, b.read addr = .ok (b.readRegister addr) := fun b ↦ by
    rw [Bus.read, Bus.place_eq_register_iff.2 ha]
  have hreg : hw'.bus.register addr = hw.bus.register addr := h.registers addr ha ht
  have hjoypad : hw'.bus.register Register.joypad = hw.bus.register Register.joypad :=
    h.registers Register.joypad (by decide) (by decide)
  show hw'.bus.read addr = hw.bus.read addr
  rw [hplace, hplace, Bus.readRegister, Bus.readRegister, h.joypad, h.memory.palettes, hjoypad,
    hreg]

/-! ## The top bit of the status byte -/

/-- The top bit of the status byte, once set, stays set. -/
def KeepsTop (hw hw' : Hardware) : Prop :=
  hw.reg Register.lcdStatus &&& 0x80 = 0x80 → hw'.reg Register.lcdStatus &&& 0x80 = 0x80

theorem keepsTop_of_eq (h : hw'.reg Register.lcdStatus = hw.reg Register.lcdStatus) :
    KeepsTop hw hw' := by
  rw [KeepsTop, h]
  exact id

theorem keepsTop_put {addr : UInt16} (h : addr.toUInt8 ≠ Register.lcdStatus.toUInt8)
    (value : UInt8) (hw : Hardware) : KeepsTop hw (hw.put addr value) :=
  keepsTop_of_eq (reg_put_of_ne hw value h)

theorem keepsTop_covers : CoversTime KeepsTop where
  refl _ := id
  trans h h' := h' ∘ h
  clock _ _ := keepsTop_of_eq rfl
  showing _ _ := keepsTop_of_eq rfl
  line hw line := keepsTop_put (by decide) line hw
  status hw _ := by
    rw [reg_put_self]
    exact top_statusByte _ _ _
  requesting hw source := keepsTop_of_eq (reg_requesting source hw (by decide))
  divider hw value := keepsTop_put (by decide) value hw
  counter hw value := keepsTop_put (by decide) value hw
  calendar _ := keepsTop_of_eq rfl

theorem top_writeStatus (value : UInt8) (b : Bus) :
    (b.writeStatus value).register Register.lcdStatus &&& 0x80 = 0x80 := by
  have hv : (0x80 ||| value &&& 0x78) &&& 0x80 = 0x80 := by
    revert value
    exact forall_byte (by decide +kernel)
  have hk : b.register Register.lcdStatus &&& 7 &&& 0x80 = 0 := by
    generalize b.register Register.lcdStatus = old
    revert old
    exact forall_byte (by decide +kernel)
  rw [Bus.writeStatus, Bus.register_setRegister_self, Bus.or_and_distrib, hv, hk, UInt8.or_zero]

theorem keepsTop_write (hl : DisplayListens hw) (addr : UInt16) (value : UInt8) :
    KeepsTop hw (write addr value hw).state := by
  by_cases hc : addr = Register.lcdControl
  · rw [hc, write_lcdControl hl]
    exact keepsTop_covers.trans (keepsTop_put (by decide) value hw)
      (keepsTop_covers.controlled _ value)
  rw [write_of_ne hl hc]
  by_cases hs : addr = Register.lcdStatus
  · intro _
    rw [hs, onBus, Bus.write_of_register (by decide)]
    exact top_writeStatus value hw.bus
  · exact keepsTop_of_eq (Bus.register_write_of_ne (by decide) hs value hw.bus)

/-- The top bit of the status byte is always set. -/
theorem Reachable.status_top (h : Reachable hw) : hw.reg Register.lcdStatus &&& 0x80 = 0x80 := by
  induction h with
  | @powerOn _ cartridge _ =>
    have hs : (armed cartridge).reg Register.lcdStatus = 0x85 := rfl
    rw [powerOn_eq]
    exact keepsTop_covers.started (armed cartridge) (by rw [hs]; decide)
  | @perform hw op h ih =>
    cases op with
    | write addr value => exact keepsTop_write h.wired.1.listens addr value ih
    | advance cycles => exact keepsTop_covers.allowsTurns.advance h cycles ih
    | withdraw source => exact keepsTop_put (by decide) _ hw ih
    | press button pressed => exact keepsTop_of_eq (reg_press button pressed hw (by decide)) ih

/-- So no bit of it changes but those that show the display. -/
theorem Reachable.status_advance (h : Reachable hw) (cycles : Nat) :
    (advance cycles hw).state.reg Register.lcdStatus &&& 0xf8 =
      hw.reg Register.lcdStatus &&& 0xf8 := by
  have hsplit : ∀ x : UInt8, x &&& 0xf8 = x &&& 0x80 ||| x &&& 0x78 :=
    forall_byte (by decide +kernel)
  have htop : (advance cycles hw).state.reg Register.lcdStatus &&& 0x80 = 0x80 :=
    (h.perform (.advance cycles)).status_top
  rw [hsplit, hsplit, htop, h.status_top, (h.spares_advance cycles).status]

end Hardware

namespace Console

/-- **Time has a fixed footprint.**  However long it passes on a machine, it passes without a fault
and leaves the cartridge as it was but for its running calendar, all memory and palettes, the joypad
and every register but five, both as it is stored and as it reads.  Of these, the status byte keeps
all bits but the three that show the display, and the requests lose none. -/
theorem time_spares {c : Console} (h : Reachable c) (cycles : Nat) :
    ∃ hw records, Hardware.advance cycles c.hardware = ⟨.ok (), hw, records⟩ ∧
      (∃ calendar, hw.bus.cartridge = c.hardware.bus.cartridge.withCalendar calendar) ∧
      hw.bus.video = c.hardware.bus.video ∧ hw.bus.work = c.hardware.bus.work ∧
      hw.bus.sprites = c.hardware.bus.sprites ∧ hw.bus.palettes = c.hardware.bus.palettes ∧
      hw.bus.joypad = c.hardware.bus.joypad ∧
      (∀ addr : UInt16, 0xff00 ≤ addr → addr ∉ Hardware.timely →
        hw.reg addr = c.hardware.reg addr ∧
          (Hardware.load addr hw).result = (Hardware.load addr c.hardware).result) ∧
      hw.reg Register.lcdStatus &&& 0xf8 = c.hardware.reg Register.lcdStatus &&& 0xf8 ∧
      c.hardware.reg Register.interruptRequest &&& hw.reg Register.interruptRequest =
        c.hardware.reg Register.interruptRequest := by
  have hr : Hardware.Reachable c.hardware := h.hardware
  have hs := hr.spares_advance cycles
  have hok := hr.advance_ok cycles
  have hstatus := hr.status_advance cycles
  rcases ho : Hardware.advance cycles c.hardware with ⟨result, hw, records⟩
  rw [ho] at hs hok hstatus
  obtain rfl : result = .ok () := hok
  exact ⟨hw, records, rfl, hs.cartridge, hs.memory.video, hs.memory.work, hs.memory.sprites,
    hs.memory.palettes, hs.joypad, fun addr ha ht ↦ ⟨hs.registers addr ha ht, hs.load_eq ha ht⟩,
    hstatus, hs.requests⟩

/-- A frame that passes on a machine with a calendar leaves the control byte as it was. -/
theorem time_spares_frame : ∃ hw records,
    Hardware.advance 70224 uneven.hardware = ⟨.ok (), hw, records⟩ ∧
      hw.reg Register.lcdControl = uneven.hardware.reg Register.lcdControl := by
  obtain ⟨hw, records, hok, -, -, -, -, -, -, hregisters, -⟩ := time_spares reachable_uneven 70224
  exact ⟨hw, records, hok, (hregisters Register.lcdControl (by decide) (by decide)).1⟩

end Console

end DotMatrix
