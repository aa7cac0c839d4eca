import DotMatrix.Proofs.Bus.Refusal
import DotMatrix.Proofs.Memory.Frame

/-!
# Storage

The places where a byte that is written just stays until it is read: the slots of memory and the
fast memory between the registers.  A write to such a place succeeds, is not reported and changes
nothing but that place; a read of it yields the byte.

* `Storage` — these places, and `Bus.storage?`, the one that an address selects.
* `Touches` — the hardware changes in some places of storage and nowhere else, and `Touches.read`,
  what is read of all other addresses.
* `exists_write`, `load_of_storage` — what a write and a read do.
-/

set_option autoImplicit false

namespace DotMatrix

/-- A place that only stores a byte. -/
inductive Storage where
  | memory (slot : Slot)
  /-- A byte of the fast memory, counted from its start at `0xff80`. -/
  | fast (offset : Fin 127)
  deriving DecidableEq

namespace Bus

/-- The storage that an address selects, if it selects any. -/
def storage? (b : Bus) (addr : UInt16) : Option Storage :=
  match b.slot? addr with
  | some slot => some (.memory slot)
  | none =>
    if 0xff80 ≤ addr.toNat ∧ addr.toNat < 0xffff then
      some (.fast (Fin.ofNat 127 (addr.toNat - 0xff80)))
    else none

/-- The address of a byte of the fast memory. -/
def fastAddress (offset : Fin 127) : UInt16 := UInt16.ofNat (0xff80 + offset.val)

/-- The byte in a place of storage. -/
def stored (b : Bus) : Storage → UInt8
  | .memory slot => b.byteIn slot
  | .fast offset => b.register (fastAddress offset)

theorem toNat_fastAddress (offset : Fin 127) :
    (fastAddress offset).toNat = 0xff80 + offset.val := by
  rw [fastAddress, UInt16.toNat_ofNat']
  omega

theorem storage?_eq_memory_iff {b : Bus} {addr : UInt16} {slot : Slot} :
    b.storage? addr = some (.memory slot) ↔ b.slot? addr = some slot := by
  rw [storage?]
  cases b.slot? addr with
  | some other => simp
  | none =>
    dsimp only
    split <;> exact ⟨nofun, nofun⟩

/-- No slot is selected from the fast memory's addresses on. -/
theorem slot?_eq_none_of_page {b : Bus} {addr : UInt16} (h : 0xff00 ≤ addr.toNat) :
    b.slot? addr = none := by
  rw [slot?, Slot.select?, if_neg (by omega), if_neg (by omega), if_neg (by omega),
    if_neg (by omega)]

/-- The fast memory has one address for each of its bytes. -/
theorem storage?_eq_fast_iff {b : Bus} {addr : UInt16} {offset : Fin 127} :
    b.storage? addr = some (.fast offset) ↔ addr = fastAddress offset := by
  rw [← UInt16.toNat_inj, toNat_fastAddress, storage?]
  constructor
  · intro h
    cases hs : b.slot? addr with
    | some slot =>
      rw [hs] at h
      cases h
    | none =>
      rw [hs] at h
      dsimp only at h
      split at h
      · rename_i hrange
        have ho : (Fin.ofNat 127 (addr.toNat - 0xff80)).val = offset.val :=
          congrArg Fin.val (Storage.fast.inj (Option.some.inj h))
        rw [Fin.val_ofNat] at ho
        omega
      · cases h
  · intro h
    have hrange : 0xff80 ≤ addr.toNat ∧ addr.toNat < 0xffff := by omega
    rw [slot?_eq_none_of_page (by omega)]
    dsimp only
    rw [if_pos hrange]
    refine congrArg (fun o ↦ some (Storage.fast o)) (Fin.ext ?_)
    rw [Fin.val_ofNat]
    omega

/-- A register outside the fast memory is no storage. -/
theorem storage?_eq_none_of_page {b : Bus} {addr : UInt16} (h : 0xff00 ≤ addr.toNat)
    (hfast : addr.toNat < 0xff80 ∨ addr.toNat = 0xffff) : b.storage? addr = none := by
  rw [storage?, slot?_eq_none_of_page h]
  dsimp only
  exact if_neg (by omega)

/-! ## What an address of storage is -/

section

variable {b : Bus} {addr : UInt16}

theorem place_of_slot {slot : Slot} (h : b.slot? addr = some slot) :
    b.place addr = .cell slot.cell := by
  have hcell := b.cell?_place addr
  rw [h, Option.map_some] at hcell
  cases hp : b.place addr <;> rw [hp] at hcell
  case cell x => rw [Option.some.inj hcell]
  all_goals cases hcell

theorem fastAddress_page (offset : Fin 127) : 0xff00 ≤ fastAddress offset := by
  rw [UInt16.le_iff_toNat_le, toNat_fastAddress]
  exact Nat.le_trans (by decide) (Nat.le_add_right 0xff80 offset.val)

theorem place_fastAddress (offset : Fin 127) : b.place (fastAddress offset) = .register :=
  place_eq_register_iff.2 (fastAddress_page offset)

theorem fastAddress_ne (offset : Fin 127) {other : UInt16}
    (h : other.toNat < 0xff80 ∨ other.toNat = 0xffff) : fastAddress offset ≠ other := by
  intro he
  have ho := toNat_fastAddress offset
  rw [he] at ho
  omega

/-- The fast memory reads as it is stored. -/
theorem readRegister_fastAddress (offset : Fin 127) :
    b.readRegister (fastAddress offset) = b.register (fastAddress offset) := by
  have hne : ∀ other : UInt16, other.toNat < 0xff80 → fastAddress offset ≠ other :=
    fun _ h ↦ fastAddress_ne offset (Or.inl h)
  rw [readRegister, if_neg (hne _ (by decide)), if_neg (hne _ (by decide)),
    if_neg (hne _ (by decide)), if_neg (hne _ (by decide)), if_neg (hne _ (by decide))]

/-- The fast memory stores what is written to it. -/
theorem writeRegister_fastAddress (offset : Fin 127) (value : UInt8) (b : Bus) :
    writeRegister (fastAddress offset) value b =
      ⟨.ok (), b.setRegister (fastAddress offset) value, #[]⟩ := by
  have hne : ∀ other : UInt16, other.toNat < 0xff80 → fastAddress offset ≠ other :=
    fun _ h ↦ fastAddress_ne offset (Or.inl h)
  rw [writeRegister, if_neg (hne _ (by decide)), if_neg (hne _ (by decide)),
    if_neg (hne _ (by decide)), if_neg (hne _ (by decide)), if_neg (hne _ (by decide)),
    if_neg (hne _ (by decide)), if_neg (hne _ (by decide)), if_neg (hne _ (by decide)),
    if_neg (hne _ (by decide))]
  rfl

/-- Reading storage yields the byte in it. -/
theorem read_of_storage {s : Storage} (h : b.storage? addr = some s) :
    b.read addr = .ok (b.stored s) ∧ b.readRecords addr = #[] := by
  have hplain : ∀ place : Place, b.place addr = place → place ≠ .external →
      b.readRecords addr = #[] := fun place hp hne ↦ by
    have hout : ¬ isExternal addr := fun he ↦ hne (hp.symm.trans (place_eq_external_iff.2 he))
    rw [readRecords, if_neg hout]
  cases s with
  | memory slot =>
    have hslot := storage?_eq_memory_iff.1 h
    exact ⟨b.read_of_slot hslot, hplain _ (place_of_slot hslot) nofun⟩
  | fast offset =>
    obtain rfl := storage?_eq_fast_iff.1 h
    have hp := place_fastAddress (b := b) offset
    refine ⟨?_, hplain _ hp nofun⟩
    rw [read, hp]
    exact congrArg Except.ok (readRegister_fastAddress offset)

end

end Bus

namespace Hardware

/-! ## Changes of storage -/

/-- The hardware changes in these places of storage and nowhere else. -/
structure Touches (touched : Storage → Prop) (hw hw' : Hardware) : Prop where
  clock : hw'.clock = hw.clock
  display : hw'.display = hw.display
  observers : hw'.body.observers = hw.body.observers
  cartridge : hw'.bus.cartridge = hw.bus.cartridge
  palettes : hw'.bus.palettes = hw.bus.palettes
  joypad : hw'.bus.joypad = hw.bus.joypad
  stored : ∀ s, ¬ touched s → hw'.bus.stored s = hw.bus.stored s
  reg : ∀ addr : UInt16, 0xff00 ≤ addr.toNat → hw.bus.storage? addr = none →
    hw'.reg addr = hw.reg addr

section

variable {touched : Storage → Prop} {hw hw' hw'' : Hardware} {addr : UInt16} {s : Storage}

/-- The same addresses select the same storage. -/
theorem Touches.storage?_eq (h : Touches touched hw hw') (addr : UInt16) :
    hw'.bus.storage? addr = hw.bus.storage? addr := by
  have hvideo : hw'.bus.register Register.videoBank = hw.bus.register Register.videoBank :=
    h.reg _ (by decide) (Bus.storage?_eq_none_of_page (by decide) (by decide))
  have hwork : hw'.bus.register Register.workBank = hw.bus.register Register.workBank :=
    h.reg _ (by decide) (Bus.storage?_eq_none_of_page (by decide) (by decide))
  rw [Bus.storage?, Bus.storage?, Bus.slot?, Bus.slot?, hvideo, hwork]

theorem Touches.refl (hw : Hardware) : Touches (fun _ ↦ False) hw hw :=
  ⟨rfl, rfl, rfl, rfl, rfl, rfl, fun _ _ ↦ rfl, fun _ _ _ ↦ rfl⟩

theorem Touches.trans {others : Storage → Prop} (h : Touches touched hw hw')
    (h' : Touches others hw' hw'') : Touches (fun s ↦ touched s ∨ others s) hw hw'' where
  clock := h'.clock.trans h.clock
  display := h'.display.trans h.display
  observers := h'.observers.trans h.observers
  cartridge := h'.cartridge.trans h.cartridge
  palettes := h'.palettes.trans h.palettes
  joypad := h'.joypad.trans h.joypad
  stored s hs := (h'.stored s fun ho ↦ hs (Or.inr ho)).trans (h.stored s fun ht ↦ hs (Or.inl ht))
  reg addr hp hn := by
    rw [h'.reg addr hp (by rw [h.storage?_eq, hn]), h.reg addr hp hn]

theorem Touches.mono {others : Storage → Prop} (h : Touches touched hw hw')
    (hle : ∀ s, touched s → others s) : Touches others hw hw' :=
  { h with stored := fun s hs ↦ h.stored s fun ht ↦ hs (hle s ht) }

/-- Reading storage yields the byte in it and is not reported. -/
theorem load_of_storage (h : hw.bus.storage? addr = some s) :
    load addr hw = ⟨.ok (hw.bus.stored s), hw, #[]⟩ := by
  obtain ⟨hread, hrecords⟩ := Bus.read_of_storage h
  rw [load, onBus, Bus.load, hread, hrecords]

/-- What selects no storage reads as before. -/
theorem Touches.read_of_none (h : Touches touched hw hw') (hn : hw.bus.storage? addr = none) :
    hw'.bus.read addr = hw.bus.read addr := by
  cases hp : hw.bus.place addr with
  | image =>
    have hp' : hw'.bus.place addr = .image :=
      Bus.place_eq_image_iff.2 (Bus.place_eq_image_iff.1 hp)
    rw [Bus.read, Bus.read, hp, hp', h.cartridge]
  | external =>
    have hp' : hw'.bus.place addr = .external :=
      Bus.place_eq_external_iff.2 (Bus.place_eq_external_iff.1 hp)
    rw [Bus.read, Bus.read, hp, hp', h.cartridge]
  | nothing =>
    have hp' : hw'.bus.place addr = .nothing :=
      Bus.place_eq_nothing_iff.2 (Bus.place_eq_nothing_iff.1 hp)
    rw [Bus.read, Bus.read, hp, hp']
  | register =>
    have hpage := Bus.place_eq_register_iff.1 hp
    have hp' : hw'.bus.place addr = .register := Bus.place_eq_register_iff.2 hpage
    have hreg : hw'.bus.register addr = hw.bus.register addr :=
      h.reg addr (UInt16.le_iff_toNat_le.1 hpage) hn
    have hjoypad : hw'.bus.register Register.joypad = hw.bus.register Register.joypad :=
      h.reg _ (by decide) (Bus.storage?_eq_none_of_page (by decide) (by decide))
    rw [Bus.read, Bus.read, hp, hp', Bus.readRegister, Bus.readRegister, h.joypad, h.palettes,
      hjoypad, hreg]
  | cell x =>
    have hcell := hw.bus.cell?_place addr
    rw [hp] at hcell
    obtain ⟨slot, hslot, -⟩ := Option.map_eq_some_iff.1 hcell.symm
    cases (Bus.storage?_eq_memory_iff.2 hslot).symm.trans hn

/-- An address of storage that was not touched reads as before, and so does any other address. -/
theorem Touches.load (h : Touches touched hw hw')
    (hs : ∀ s, hw.bus.storage? addr = some s → ¬ touched s) :
    Hardware.load addr hw' =
      ⟨(Hardware.load addr hw).result, hw', (Hardware.load addr hw).records⟩ := by
  cases hplace : hw.bus.storage? addr with
  | some s =>
    rw [load_of_storage hplace, load_of_storage ((h.storage?_eq addr).trans hplace),
      h.stored s (hs s hplace)]
  | none =>
    have hrecords : hw'.bus.readRecords addr = hw.bus.readRecords addr := by
      rw [Bus.readRecords, Bus.readRecords, h.cartridge]
    rw [Hardware.load, onBus, onBus, Bus.load, Bus.load, h.read_of_none hplace, hrecords]

theorem touches_setCell (slot : Slot) (value : UInt8) (hw : Hardware) :
    Touches (· = .memory slot) hw
      ⟨hw.clock, { hw.body with bus := hw.bus.setCell slot.cell value }⟩ where
  clock := rfl
  display := rfl
  observers := rfl
  cartridge := by cases slot <;> rfl
  palettes := by cases slot <;> rfl
  joypad := by cases slot <;> rfl
  stored s hs := by
    cases s with
    | memory other =>
      exact (hw.bus.byteIn_setCell slot other value).trans (if_neg fun he ↦ hs (by rw [he]))
    | fast offset => cases slot <;> rfl
  reg _ _ _ := by cases slot <;> rfl

theorem touches_put (offset : Fin 127) (value : UInt8) (hw : Hardware) :
    Touches (· = .fast offset) hw (hw.put (Bus.fastAddress offset) value) where
  clock := rfl
  display := rfl
  observers := rfl
  cartridge := rfl
  palettes := rfl
  joypad := rfl
  stored s hs := by
    cases s with
    | memory slot => cases slot <;> rfl
    | fast other =>
      have hne : Bus.fastAddress offset ≠ Bus.fastAddress other := fun he ↦ by
        have hn := congrArg UInt16.toNat he
        rw [Bus.toNat_fastAddress, Bus.toNat_fastAddress] at hn
        exact hs (congrArg Storage.fast (Fin.ext (by omega)))
      exact reg_put_of_ne hw value (Bus.toUInt8_ne_of_page (Bus.fastAddress_page offset)
        (Bus.fastAddress_page other) hne)
  reg addr hp hn := by
    have hne : Bus.fastAddress offset ≠ addr := fun he ↦ by
      rw [Bus.storage?_eq_fast_iff.2 he.symm] at hn
      cases hn
    exact reg_put_of_ne hw value (Bus.toUInt8_ne_of_page (Bus.fastAddress_page offset)
      (UInt16.le_iff_toNat_le.2 hp) hne)

/-- Writing to storage succeeds, is not reported and changes nothing else. -/
theorem exists_write (hl : DisplayListens hw) (h : hw.bus.storage? addr = some s) (value : UInt8) :
    ∃ hw', write addr value hw = ⟨.ok (), hw', #[]⟩ ∧ hw'.bus.stored s = value ∧
      Touches (· = s) hw hw' := by
  cases s with
  | memory slot =>
    have hslot := Bus.storage?_eq_memory_iff.1 h
    have hne : addr ≠ Register.lcdControl := by
      rintro rfl
      cases hslot.symm.trans (Bus.slot?_eq_none_of_page (by decide))
    refine ⟨⟨hw.clock, { hw.body with bus := hw.bus.setCell slot.cell value }⟩, ?_, ?_, ?_⟩
    · rw [write_of_ne hl hne, onBus, Bus.write, Bus.place_of_slot hslot]
    · exact (hw.bus.byteIn_setCell slot slot value).trans (if_pos rfl)
    · exact touches_setCell slot value hw
  | fast offset =>
    obtain rfl := Bus.storage?_eq_fast_iff.1 h
    refine ⟨hw.put (Bus.fastAddress offset) value, ?_, reg_put_self _ _ _, ?_⟩
    · exact write_of_stores hl (Bus.fastAddress_ne offset (by decide))
        (Bus.fastAddress_page offset) (Bus.writeRegister_fastAddress offset value)
    · exact touches_put offset value hw

end

end Hardware

end DotMatrix
