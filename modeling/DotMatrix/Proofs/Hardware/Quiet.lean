import DotMatrix.Proofs.Hardware.Transition

/-!
# Operations that the display does not notice

Where the display is in its frame depends on little of the hardware: the clock, the display's own
state, the line, the mode bits of the status byte and the bit that turns the display on.  `Quiet`
says that an operation leaves all of this alone and reports no picture.

* `pictures` — the records that tell of pictures.
* `quiet_bus_write` — a bus write is quiet, unless it is to the display's control byte.
* `write_of_ne`, `write_lcdControl` — a write with the display as its only observer: to any other
  address it is the bus write, to the control byte it also turns the display on or off, which
  `write_lcdControl_cases` tells apart.
-/

set_option autoImplicit false

namespace DotMatrix

/-! ## Pictures -/

/-- A notice that tells of a picture: that it was presented, or that the interrupt that goes with it
was requested. -/
def Notice.tellsPicture : Notice → Bool
  | .framePresented _ | .interruptRequested .vblank => true
  | _ => false

/-- The notice in a record, if it tells of a picture. -/
def Record.picture? : Record → Option Notice
  | .notice n => if n.tellsPicture then some n else none
  | .mark .. => none

/-- The notices that tell of pictures, in order. -/
def pictures (records : Array Record) : List Notice := records.toList.filterMap Record.picture?

@[simp] theorem pictures_empty : pictures #[] = [] := rfl

@[simp] theorem pictures_append (before after : Array Record) :
    pictures (before ++ after) = pictures before ++ pictures after := by
  simp [pictures]

/-- The relation between states that were left without telling of a picture. -/
def PictureFree {σ : Type} (_ : σ) (records : Array Record) (_ : σ) : Prop := pictures records = []

/-! ## Bus writes -/

namespace Mbc3

theorem pictureFree_writeWindow (addr : UInt16) (value : UInt8) :
    Exec.Always PictureFree (writeWindow addr value) := by
  intro m
  rw [writeWindow]
  split
  · split <;> rfl
  · rfl

/-- What a write to the image's windows can ask of a controller. -/
inductive IsControl : (UInt8 → Exec Mbc3 Unit) → Prop where
  | enable : IsControl enable
  | selectBank : IsControl selectBank
  | selectWindow : IsControl selectWindow
  | latch : IsControl latch

theorem IsControl.pictureFree {operation : UInt8 → Exec Mbc3 Unit} (h : IsControl operation)
    (value : UInt8) : Exec.Always PictureFree (operation value) := by
  cases h with
  | enable | selectBank => exact fun _ ↦ rfl
  | selectWindow =>
    rw [Mbc3.selectWindow]
    cases Window.ofCode? value <;> exact fun _ ↦ rfl
  | latch =>
    intro m
    rw [Mbc3.latch]
    split
    · rfl
    · split <;> rfl

end Mbc3

namespace Cartridge

theorem pictureFree_onController {α : Type} {x : Exec Mbc3 α} {fallback : Exec Cartridge α}
    (hx : Exec.Always PictureFree x) (hf : Exec.Always PictureFree fallback) :
    Exec.Always PictureFree (onController x fallback)
  | ⟨_, .mbc3 m⟩ => hx m
  | ⟨image, .plain⟩ => hf ⟨image, .plain⟩

theorem pictureFree_control {operation : UInt8 → Exec Mbc3 Unit}
    (h : ∀ value, Exec.Always PictureFree (operation value)) (ignored : IgnoredControl)
    (value : UInt8) : Exec.Always PictureFree (control operation ignored value) :=
  pictureFree_onController (h value) fun _ ↦ rfl

theorem pictureFree_write (addr : UInt16) (value : UInt8) :
    Exec.Always PictureFree (write addr value) := by
  rw [write]
  split
  · exact pictureFree_onController (Mbc3.pictureFree_writeWindow addr value) fun _ ↦ rfl
  · exact fun _ ↦ rfl

end Cartridge

namespace Bus

theorem pictureFree_onCartridge {α : Type} {x : Exec Cartridge α} (h : Exec.Always PictureFree x) :
    Exec.Always PictureFree (onCartridge x) := fun b ↦ h b.cartridge

/-- A write to the image's windows is a control of the cartridge's controller. -/
theorem exists_control (addr : UInt16) (value : UInt8) : ∃ operation ignored,
    Mbc3.IsControl operation ∧
      control addr value = onCartridge (Cartridge.control operation ignored value) := by
  rw [control]
  split
  · exact ⟨_, _, .enable, rfl⟩
  split
  · exact ⟨_, _, .selectBank, rfl⟩
  split
  · exact ⟨_, _, .selectWindow, rfl⟩
  · exact ⟨_, _, .latch, rfl⟩

theorem pictureFree_control (addr : UInt16) (value : UInt8) :
    Exec.Always PictureFree (control addr value) := by
  obtain ⟨operation, ignored, h, hc⟩ := exists_control addr value
  rw [hc]
  exact pictureFree_onCartridge (Cartridge.pictureFree_control h.pictureFree ignored value)

/-! ### Registers -/

/-- What is left of a write to a register: it succeeds, tells of no picture, and reaches nothing but
that register and the palettes. -/
structure RegisterWritten (addr : UInt16) (b : Bus) (o : Outcome Bus Unit) : Prop where
  result : o.result = .ok ()
  pictures : pictures o.records = []
  cartridge : o.state.cartridge = b.cartridge
  others : ∀ other : UInt16, addr.toUInt8 ≠ other.toUInt8 →
    o.state.register other = b.register other

theorem registerWritten_setRegister (addr : UInt16) (stored : UInt8) (b : Bus)
    {records : Array Record} (h : DotMatrix.pictures records = []) :
    RegisterWritten addr b ⟨.ok (), b.setRegister addr stored, records⟩ :=
  ⟨rfl, h, rfl, fun _ hne ↦ register_setRegister_of_ne b hne _⟩

theorem registerWritten_palettes (addr : UInt16) (f : Palettes → Palettes) (b : Bus) :
    RegisterWritten addr b ⟨.ok (), modifyPalettes f b, #[]⟩ := ⟨rfl, rfl, rfl, fun _ _ ↦ rfl⟩

theorem writeJoypad_apply (value : UInt8) (b : Bus) : writeJoypad value b =
    ⟨.ok (), b.setRegister Register.joypad (b.register Register.joypad &&& 0xcf ||| value &&& 0x30),
      if value &&& 0x30 = 0 then #[.notice .bothGroupsSelected] else #[]⟩ := by
  rw [writeJoypad]
  split <;> rfl

theorem registerWritten (addr : UInt16) (value : UInt8) (b : Bus) :
    RegisterWritten addr b (writeRegister addr value b) := by
  rw [writeRegister]
  split
  · rename_i h
    rw [h, writeJoypad_apply]
    exact registerWritten_setRegister _ _ b (by split <;> rfl)
  split
  · rename_i h
    rw [h]
    exact registerWritten_setRegister _ _ b rfl
  split
  · rename_i h
    rw [h]
    exact registerWritten_setRegister _ _ b rfl
  split
  · rename_i h
    rw [h]
    exact registerWritten_setRegister _ _ b rfl
  split
  · exact ⟨rfl, rfl, rfl, fun _ _ ↦ rfl⟩
  split
  · exact registerWritten_palettes _ _ b
  split
  · exact registerWritten_palettes _ _ b
  split
  · exact registerWritten_palettes _ _ b
  split
  · exact registerWritten_palettes _ _ b
  · exact registerWritten_setRegister _ _ b rfl

/-- A bus write never tells of a picture. -/
theorem pictureFree_write (addr : UInt16) (value : UInt8) :
    Exec.Always PictureFree (write addr value) := by
  intro b
  rw [write]
  split
  · exact pictureFree_control addr value b
  · exact pictureFree_onCartridge (Cartridge.pictureFree_write addr value) b
  · rfl
  · exact (registerWritten addr value b).pictures
  · rfl

/-! ## Registers that a bus write leaves alone -/

theorem registers_control (addr : UInt16) (value : UInt8) (b : Bus) :
    (control addr value b).state.registers = b.registers := by
  obtain ⟨_, _, -, hc⟩ := exists_control addr value
  rw [hc]
  rfl

theorem toUInt8_ne_of_page {x y : UInt16} (hx : 0xff00 ≤ x) (hy : 0xff00 ≤ y) (h : x ≠ y) :
    x.toUInt8 ≠ y.toUInt8 := by
  intro he
  have hn : x.toUInt8.toNat = y.toUInt8.toNat := by rw [he]
  rw [UInt16.toNat_toUInt8, UInt16.toNat_toUInt8] at hn
  have hx' := UInt16.le_iff_toNat_le.1 hx
  have hy' := UInt16.le_iff_toNat_le.1 hy
  have hxl := x.toNat_lt
  have hyl := y.toNat_lt
  have hp : (0xff00 : UInt16).toNat = 65280 := rfl
  exact h (UInt16.toNat_inj.1 (by omega))

theorem place_eq_register_iff {b : Bus} {addr : UInt16} :
    b.place addr = .register ↔ 0xff00 ≤ addr := by
  rw [place]
  simp only [UInt16.lt_iff_toNat_lt, UInt16.le_iff_toNat_le]
  constructor
  · intro h
    repeat' split at h
    all_goals try cases h
    rename_i h'
    exact Nat.le_of_not_lt h'
  · intro h
    have h' : 65280 ≤ addr.toNat := h
    rw [if_neg, if_neg, if_neg, if_neg, if_neg, if_neg, if_neg]
    all_goals simp; omega

theorem register_congr {b b' : Bus} (h : b'.registers = b.registers) (addr : UInt16) :
    b'.register addr = b.register addr := by
  simp only [register, h]

/-- A bus write reaches no register but the one at its address. -/
theorem register_write_of_ne {addr other : UInt16} (hp : 0xff00 ≤ other) (h : addr ≠ other)
    (value : UInt8) (b : Bus) : (write addr value b).state.register other = b.register other := by
  rw [write]
  cases hb : b.place addr with
  | image => exact register_congr (registers_control addr value b) other
  | external => rfl
  | cell c => cases c <;> rfl
  | register =>
    have hne := toUInt8_ne_of_page (place_eq_register_iff.1 hb) hp h
    exact (registerWritten addr value b).others other hne
  | nothing => rfl

/-! ## The display's registers -/

theorem write_of_register {addr : UInt16} (h : 0xff00 ≤ addr) (value : UInt8) (b : Bus) :
    write addr value b = writeRegister addr value b := by
  rw [write, place_eq_register_iff.2 h]

/-- The control byte is stored as it is. -/
theorem write_lcdControl (value : UInt8) (b : Bus) : write Register.lcdControl value b =
    ⟨.ok (), b.setRegister Register.lcdControl value, #[]⟩ :=
  write_of_register (by decide) value b

/-- The line cannot be written. -/
theorem register_line_write (addr : UInt16) (value : UInt8) (b : Bus) :
    (write addr value b).state.register Register.line = b.register Register.line := by
  by_cases h : addr = Register.line
  · rw [h, write_of_register (by decide)]
    rfl
  · exact register_write_of_ne (by decide) h value b

theorem or_and_distrib (x y z : UInt8) : (x ||| y) &&& z = x &&& z ||| y &&& z :=
  UInt8.toBitVec_inj.1 (BitVec.eq_of_getElem_eq (by simp [Bool.and_or_distrib_right]))

theorem shown_writeStatus (value : UInt8) (b : Bus) :
    (b.writeStatus value).register Register.lcdStatus &&& 7 =
      b.register Register.lcdStatus &&& 7 := by
  have hv : (0x80 ||| value &&& 0x78) &&& 7 = 0 := by
    revert value
    exact forall_byte (by decide +kernel)
  rw [writeStatus, register_setRegister_self, or_and_distrib, hv, UInt8.zero_or, UInt8.and_assoc,
    UInt8.and_self]

/-- The bits of the status byte that show the display cannot be written. -/
theorem shown_write (addr : UInt16) (value : UInt8) (b : Bus) :
    (write addr value b).state.register Register.lcdStatus &&& 7 =
      b.register Register.lcdStatus &&& 7 := by
  by_cases h : addr = Register.lcdStatus
  · rw [h, write_of_register (by decide)]
    exact shown_writeStatus value b
  · rw [register_write_of_ne (by decide) h]

/-- The mode bits are among them. -/
theorem mode_write (addr : UInt16) (value : UInt8) (b : Bus) :
    (write addr value b).state.register Register.lcdStatus &&& 3 =
      b.register Register.lcdStatus &&& 3 := by
  have hmode : ∀ x : UInt8, x &&& 3 = x &&& 7 &&& 3 := fun x ↦ (UInt8.and_assoc x 7 3).symm
  rw [hmode, shown_write, ← hmode]

end Bus

namespace Hardware

/-! ## Quiet operations -/

/-- Nothing happened that the display could notice, and no picture was reported. -/
structure Quiet (before : Hardware) (records : Array Record) (after : Hardware) : Prop where
  clock : after.clock = before.clock
  display : after.display = before.display
  observers : after.body.observers = before.body.observers
  line : after.reg Register.line = before.reg Register.line
  mode : after.reg Register.lcdStatus &&& 3 = before.reg Register.lcdStatus &&& 3
  control : after.reg Register.lcdControl = before.reg Register.lcdControl
  pictures : pictures records = []

theorem quiet_chains : Exec.Chains Quiet where
  refl _ := ⟨rfl, rfl, rfl, rfl, rfl, rfl, rfl⟩
  trans h h' := ⟨h'.clock.trans h.clock, h'.display.trans h.display,
    h'.observers.trans h.observers, h'.line.trans h.line, h'.mode.trans h.mode,
    h'.control.trans h.control, by rw [pictures_append, h.pictures, h'.pictures, List.append_nil]⟩

/-- A bus write to any address but that of the control byte. -/
theorem quiet_bus_write {addr : UInt16} (h : addr ≠ Register.lcdControl) (value : UInt8) :
    Exec.Always Quiet (onBus (Bus.write addr value)) := fun hw ↦ {
  clock := rfl
  display := rfl
  observers := rfl
  line := Bus.register_line_write addr value hw.bus
  mode := Bus.mode_write addr value hw.bus
  control := Bus.register_write_of_ne (by decide) h value hw.bus
  pictures := Bus.pictureFree_write addr value hw.bus }

/-- A change of a register that the display does not look at. -/
theorem quiet_put {addr : UInt16} (hl : addr.toUInt8 ≠ Register.line.toUInt8)
    (hs : addr.toUInt8 ≠ Register.lcdStatus.toUInt8)
    (hc : addr.toUInt8 ≠ Register.lcdControl.toUInt8) (value : UInt8) (hw : Hardware)
    {records : Array Record} (hp : DotMatrix.pictures records = []) :
    Quiet hw records (hw.put addr value) where
  clock := rfl
  display := rfl
  observers := rfl
  line := reg_put_of_ne hw value hl
  mode := by rw [reg_put_of_ne hw value hs]
  control := reg_put_of_ne hw value hc
  pictures := hp

/-- A request that is not the one which goes with a picture. -/
theorem quiet_requesting {source : Interrupt} (h : source ≠ .vblank) (hw : Hardware) :
    Quiet hw #[.notice (.interruptRequested source)] (hw.requesting source) := by
  refine quiet_put (by decide) (by decide) (by decide) _ hw ?_
  cases source
  case vblank => exact absurd rfl h
  all_goals rfl

/-! ## Ticks of the timers -/

theorem quiet_divider (hw : Hardware) :
    Quiet hw #[] (hw.put Register.divider (hw.reg Register.divider + 1)) :=
  quiet_put (by decide) (by decide) (by decide) _ hw rfl

theorem quiet_counted (hw : Hardware) : Quiet hw hw.countRecords hw.counted := by
  rw [countRecords, counted]
  split
  · have h1 : Quiet hw #[.notice (.counterOverflowed (hw.reg Register.reload))]
        (hw.put Register.counter (hw.reg Register.reload)) :=
      quiet_put (by decide) (by decide) (by decide) _ hw rfl
    exact quiet_chains.trans h1 (quiet_requesting (by decide) _)
  · exact quiet_put (by decide) (by decide) (by decide) _ hw rfl

theorem quiet_counter (hw : Hardware) :
    Quiet hw (if hw.counterRuns then hw.countRecords else #[])
      (if hw.counterRuns then hw.counted else hw) := by
  split
  · exact quiet_counted hw
  · exact quiet_chains.refl hw

theorem quiet_calendar (hw : Hardware) : Quiet hw #[] hw.calendarTicked :=
  ⟨rfl, rfl, rfl, rfl, rfl, rfl, rfl⟩

/-! ## Writes with the display as their only observer -/

/-- The display listens to its control byte, and nothing else is watched. -/
def DisplayListens (hw : Hardware) : Prop :=
  hw.body.observers = [(Register.lcdControl, .display)]

theorem observersOf_of_ne {hw : Hardware} (hl : DisplayListens hw) {addr : UInt16}
    (h : addr ≠ Register.lcdControl) : hw.observersOf addr = [] := by
  rw [observersOf, hl]
  simp [Ne.symm h]

theorem observersOf_lcdControl {hw : Hardware} (hl : DisplayListens hw) :
    hw.observersOf Register.lcdControl = [.display] := by
  rw [observersOf, hl]
  simp

/-- Nobody listens to a write to another address than the control byte's. -/
theorem writeNested_of_ne {hw : Hardware} (hl : DisplayListens hw) {addr : UInt16}
    (h : addr ≠ Register.lcdControl) (value : UInt8) (depth : Nat) :
    writeNested (depth + 1) addr value hw = onBus (Bus.write addr value) hw := by
  rw [writeNested]
  rcases hw' : onBus (Bus.write addr value) hw with ⟨fault | _, after, records⟩
  · exact Exec.bind_of_error hw' _
  · have ho : DisplayListens after := by
      have hs : (onBus (Bus.write addr value) hw).state.body.observers = hw.body.observers := rfl
      rw [hw'] at hs
      exact hs.trans hl
    rw [Exec.bind_of_ok hw', Exec.bind_gets, observersOf_of_ne ho h, notify, Exec.pure_apply,
      Outcome.after, Array.append_empty]

theorem write_of_ne {hw : Hardware} (hl : DisplayListens hw) {addr : UInt16}
    (h : addr ≠ Register.lcdControl) (value : UInt8) :
    write addr value hw = onBus (Bus.write addr value) hw := writeNested_of_ne hl h value 65535

/-- A write to a register that only stores a byte. -/
theorem write_of_stores {hw : Hardware} (hl : DisplayListens hw) {addr : UInt16}
    {value stored : UInt8} (hne : addr ≠ Register.lcdControl) (hreg : 0xff00 ≤ addr)
    (hs : ∀ b, Bus.writeRegister addr value b = ⟨.ok (), b.setRegister addr stored, #[]⟩) :
    write addr value hw = ⟨.ok (), hw.put addr stored, #[]⟩ := by
  rw [write_of_ne hl hne, onBus, Bus.write_of_register hreg, hs]
  rfl

/-- A write to the control byte stores it and turns the display on or off. -/
theorem writeNested_lcdControl {hw : Hardware} (hl : DisplayListens hw) (value : UInt8)
    (depth : Nat) : writeNested (depth + 1) Register.lcdControl value hw =
      ⟨.ok (), (hw.put Register.lcdControl value).controlled value,
        (hw.put Register.lcdControl value).controlRecords value⟩ := by
  have hs : onBus (Bus.write Register.lcdControl value) hw =
      ⟨.ok (), hw.put Register.lcdControl value, #[]⟩ := by
    rw [onBus, Bus.write_lcdControl]
    rfl
  have ho : DisplayListens (hw.put Register.lcdControl value) := hl
  rw [writeNested, Exec.bind_of_ok hs, Exec.bind_gets, observersOf_lcdControl ho,
    Outcome.after_empty, notify, Observer.run, Exec.bind_of_ok (controlDisplay_apply _ value),
    notify, Exec.pure_apply, Outcome.after, Array.append_empty]

theorem write_lcdControl {hw : Hardware} (hl : DisplayListens hw) (value : UInt8) :
    write Register.lcdControl value hw =
      ⟨.ok (), (hw.put Register.lcdControl value).controlled value,
        (hw.put Register.lcdControl value).controlRecords value⟩ :=
  writeNested_lcdControl hl value 65535

/-- So the display stays as it is, or starts, or stops. -/
theorem write_lcdControl_cases {hw : Hardware} (hl : DisplayListens hw) (value : UInt8) :
    (hw.display.enabled = turnsOn value ∧
      write Register.lcdControl value hw = ⟨.ok (), hw.put Register.lcdControl value, #[]⟩) ∨
    (hw.display.enabled = false ∧ turnsOn value ∧ write Register.lcdControl value hw =
      ⟨.ok (), (hw.put Register.lcdControl value).started,
        #[.notice .displayEnabled] ++ (hw.put Register.lcdControl value).startRecords⟩) ∨
    (hw.display.enabled ∧ turnsOn value = false ∧ write Register.lcdControl value hw =
      ⟨.ok (), (hw.put Register.lcdControl value).stopped, #[.notice .displayDisabled]⟩) := by
  rw [write_lcdControl hl, controlled, controlRecords, display_put]
  cases hw.display.enabled <;> cases turnsOn value <;> simp

end Hardware

end DotMatrix
