import DotMatrix.Proofs.Range.Hardware
import DotMatrix.Proofs.Hardware.Requests

/-!
# What the bus refuses

Nothing is mapped between the sprites and the registers, so nothing can be read or written there.
The only other access that fails is a select write to a controller, with a code that stands for no
window.  Either leaves everything as it was.

* `Unmapped`, `Bus.Rejects` — where a read fails, and when a write does and with which fault.
* `read_eq_error_iff`, `result_write_eq_error_iff` — they fail exactly then.
* `write_of_error` — a write that fails does nothing.
* `exists_rejects` — a sequence of writes fails at one that is rejected.
-/

set_option autoImplicit false

namespace DotMatrix

/-- Nothing is mapped at the address. -/
def Unmapped (addr : UInt16) : Prop := 0xfea0 ≤ addr ∧ addr ≤ 0xfeff

/-! ## Places -/

namespace Bus

variable {b : Bus} {addr : UInt16}

theorem place_eq_image_iff : b.place addr = .image ↔ addr < 0x8000 := by
  rw [place]
  constructor
  · intro h
    repeat' split at h
    all_goals cases h
    assumption
  · intro h
    rw [if_pos h]

theorem place_eq_external_iff : b.place addr = .external ↔ isExternal addr := by
  rw [place, isExternal, Bool.and_eq_true, decide_eq_true_eq, decide_eq_true_eq]
  simp only [UInt16.lt_iff_toNat_lt, UInt16.le_iff_toNat_le, UInt16.reduceToNat]
  constructor
  · intro h
    repeat' split at h
    all_goals cases h
    omega
  · intro h
    rw [if_neg (by omega), if_neg (by omega), if_pos h.2]

theorem place_eq_nothing_iff : b.place addr = .nothing ↔ Unmapped addr := by
  rw [place, Unmapped]
  simp only [UInt16.lt_iff_toNat_lt, UInt16.le_iff_toNat_le, UInt16.reduceToNat]
  constructor
  · intro h
    repeat' split at h
    all_goals cases h
    omega
  · intro h
    rw [if_neg (by omega), if_neg (by omega), if_neg (by omega), if_neg (by omega),
      if_neg (by omega), if_neg (by omega), if_pos (by omega)]

end Bus

/-! ## The cartridge -/

namespace Cartridge

variable {c : Cartridge} {addr : UInt16}

/-- The cartridge has a controller. -/
def IsBanked (c : Cartridge) : Prop := ∃ m, c.controller = .mbc3 m

/-- Every address of the cartridge's windows can be read. -/
theorem Valid.read_ok (h : c.Valid) (ha : addr < 0x8000 ∨ isExternal addr) :
    ∃ byte, c.read addr = .ok byte := by
  rw [read]
  split
  · rename_i hfirst
    have hlt : addr.toNat < c.image.size :=
      Nat.lt_of_lt_of_le (UInt16.lt_iff_toNat_lt.1 hfirst) h.size
    rw [Array.getElem?_eq_getElem hlt]
    exact ⟨_, rfl⟩
  split
  · rw [Array.getElem?_eq_getElem (bankedIndex_lt h.size _ _)]
    exact ⟨_, rfl⟩
  rename_i hlow
  rw [if_pos (ha.resolve_left hlow)]
  cases c.controller <;> exact ⟨_, rfl⟩

theorem result_write (ha : isExternal addr) (value : UInt8) (c : Cartridge) :
    (write addr value c).result = .ok () := by
  rw [write, if_pos ha]
  obtain ⟨image, _ | m⟩ := c
  · rfl
  · show (Mbc3.writeWindow addr value m).result = _
    rw [Mbc3.writeWindow]
    split
    · split <;> rfl
    · rfl

/-- A control whose operation cannot fail succeeds. -/
theorem result_control {operation : UInt8 → Exec Mbc3 Unit}
    (h : ∀ value m, (operation value m).result = .ok ()) (ignored : IgnoredControl)
    (value : UInt8) (c : Cartridge) : (control operation ignored value c).result = .ok () := by
  obtain ⟨image, _ | m⟩ := c
  · rfl
  · exact h value m

theorem result_latch (value : UInt8) (m : Mbc3) : (Mbc3.latch value m).result = .ok () := by
  rw [Mbc3.latch]
  split
  · rfl
  split <;> rfl

/-- A select code that stands for no window is turned down. -/
theorem selectWindow_of_none {value : UInt8} (hc : c.IsBanked) (hw : Window.ofCode? value = none) :
    selectWindow value c = ⟨.error (.invalidRamBank value), c, #[]⟩ := by
  obtain ⟨image, _ | m⟩ := c
  · obtain ⟨m, hm⟩ := hc
    cases hm
  · rw [selectWindow, control, onController, Mbc3.selectWindow, hw]
    rfl

theorem result_selectWindow {value : UInt8} (h : c.IsBanked → Window.ofCode? value ≠ none) :
    (selectWindow value c).result = .ok () := by
  obtain ⟨image, _ | m⟩ := c
  · rfl
  · obtain ⟨window, hw⟩ := Option.ne_none_iff_exists'.1 (h ⟨m, rfl⟩)
    show (Mbc3.selectWindow value m).result = _
    rw [Mbc3.selectWindow, hw]
    rfl

/-! ### A controller stays -/

/-- The cartridge has a controller if it had one. -/
def KeepsKind (c : Cartridge) (_ : Array Record) (c' : Cartridge) : Prop :=
  c'.IsBanked ↔ c.IsBanked

theorem keepsKind_onController {x : Exec Mbc3 Unit} {fallback : Exec Cartridge Unit}
    (h : Exec.Always KeepsKind fallback) : Exec.Always KeepsKind (onController x fallback)
  | ⟨_, .mbc3 m⟩ => ⟨fun _ ↦ ⟨m, rfl⟩, fun _ ↦ ⟨_, rfl⟩⟩
  | ⟨image, .plain⟩ => h ⟨image, .plain⟩

theorem keepsKind_write (addr : UInt16) (value : UInt8) :
    Exec.Always KeepsKind (write addr value) := by
  rw [write]
  split
  · exact keepsKind_onController fun _ ↦ Iff.rfl
  · exact fun _ ↦ Iff.rfl

end Cartridge

namespace Bus

variable {b : Bus} {addr : UInt16} {value : UInt8} {fault : Fault}

/-! ## Reading -/

/-- A read fails where nothing is mapped, and nowhere else. -/
theorem read_eq_error_iff (h : b.cartridge.Valid) :
    b.read addr = .error fault ↔ Unmapped addr ∧ fault = .outOfBounds addr := by
  rw [read, ← place_eq_nothing_iff (b := b)]
  cases hp : b.place addr with
  | image =>
    obtain ⟨byte, hb⟩ := h.read_ok (Or.inl (place_eq_image_iff.1 hp))
    simp [hb]
  | external =>
    obtain ⟨byte, hb⟩ := h.read_ok (Or.inr (place_eq_external_iff.1 hp))
    simp [hb]
  | cell c => simp
  | register => simp
  | nothing => simp [eq_comm]

/-! ## Writing -/

/-- A write fails with a fault: nothing is mapped at its address, or it selects no window that the
controller has. -/
inductive Rejects (b : Bus) (addr : UInt16) (value : UInt8) : Fault → Prop where
  | unmapped (h : Unmapped addr) : Rejects b addr value (.outOfBounds addr)
  | select (hc : b.cartridge.IsBanked) (hlow : 0x4000 ≤ addr) (hhigh : addr ≤ 0x5fff)
      (hw : Window.ofCode? value = none) : Rejects b addr value (.invalidRamBank value)

/-- Only the kind of the cartridge matters. -/
theorem Rejects.of_isBanked {b' : Bus} (h : b'.Rejects addr value fault)
    (hk : b'.cartridge.IsBanked → b.cartridge.IsBanked) : b.Rejects addr value fault := by
  cases h with
  | unmapped hu => exact .unmapped hu
  | select hc hlow hhigh hw => exact .select (hk hc) hlow hhigh hw

/-- Nothing is rejected from the registers on. -/
theorem Rejects.lt {b : Bus} (h : b.Rejects addr value fault) : addr < 0xff00 := by
  cases h with
  | unmapped hu => exact UInt16.lt_of_le_of_lt hu.2 (by decide)
  | select _ _ hhigh => exact UInt16.lt_of_le_of_lt hhigh (by decide)

theorem write_of_rejects (h : b.Rejects addr value fault) :
    write addr value b = ⟨.error fault, b, #[]⟩ := by
  cases h with
  | unmapped h => rw [write, place_eq_nothing_iff.2 h]
  | select hc hlow hhigh hw =>
    have h8 : addr < 0x8000 := UInt16.lt_of_le_of_lt hhigh (by decide)
    have h2 : ¬ addr < 0x2000 := UInt16.not_lt.2 (UInt16.le_trans (by decide) hlow)
    have h4 : ¬ addr < 0x4000 := UInt16.not_lt.2 hlow
    have h6 : addr < 0x6000 := UInt16.lt_of_le_of_lt hhigh (by decide)
    rw [write, place_eq_image_iff.2 h8]
    dsimp only
    rw [control, if_neg h2, if_neg h4, if_pos h6, onCartridge,
      Cartridge.selectWindow_of_none hc hw]

/-- A control write fails only as a select write. -/
theorem rejects_of_control (h : (control addr value b).result = .error fault) :
    b.Rejects addr value fault := by
  rw [control] at h
  split at h
  · have hok : (Cartridge.enable value b.cartridge).result = .ok () :=
      Cartridge.result_control (fun _ _ ↦ rfl) _ value _
    change (Cartridge.enable value b.cartridge).result = _ at h
    rw [hok] at h
    cases h
  split at h
  · have hok : (Cartridge.selectBank value b.cartridge).result = .ok () :=
      Cartridge.result_control (fun _ _ ↦ rfl) _ value _
    change (Cartridge.selectBank value b.cartridge).result = _ at h
    rw [hok] at h
    cases h
  rename_i h4
  split at h
  · rename_i h6
    change (Cartridge.selectWindow value b.cartridge).result = _ at h
    by_cases hr : b.cartridge.IsBanked ∧ Window.ofCode? value = none
    · rw [Cartridge.selectWindow_of_none hr.1 hr.2] at h
      cases h
      have hhigh : addr ≤ 0x5fff :=
        UInt16.le_iff_toNat_le.2 (Nat.le_of_lt_succ (UInt16.lt_iff_toNat_lt.1 h6))
      exact .select hr.1 (UInt16.not_lt.1 h4) hhigh hr.2
    · rw [Cartridge.result_selectWindow fun hc hn ↦ hr ⟨hc, hn⟩] at h
      cases h
  · have hok : (Cartridge.latch value b.cartridge).result = .ok () :=
      Cartridge.result_control Cartridge.result_latch _ value _
    change (Cartridge.latch value b.cartridge).result = _ at h
    rw [hok] at h
    cases h

/-- A write fails exactly when it is rejected. -/
theorem result_write_eq_error_iff :
    (write addr value b).result = .error fault ↔ b.Rejects addr value fault := by
  constructor
  · intro h
    rw [write] at h
    cases hp : b.place addr <;> rw [hp] at h
    case image => exact rejects_of_control h
    case external =>
      have hok := Cartridge.result_write (place_eq_external_iff.1 hp) value b.cartridge
      change (Cartridge.write addr value b.cartridge).result = _ at h
      rw [hok] at h
      cases h
    case cell => cases h
    case register =>
      dsimp only at h
      rw [(registerWritten addr value b).result] at h
      cases h
    case nothing =>
      cases h
      exact .unmapped (place_eq_nothing_iff.1 hp)
  · intro h
    rw [write_of_rejects h]

/-- A write leaves the cartridge its controller. -/
theorem isBanked_write (addr : UInt16) (value : UInt8) (b : Bus) :
    (write addr value b).state.cartridge.IsBanked ↔ b.cartridge.IsBanked := by
  rw [write]
  cases b.place addr with
  | image =>
    obtain ⟨operation, ignored, -, hc⟩ := exists_control addr value
    dsimp only
    rw [hc]
    have hkept : Exec.Always Cartridge.KeepsKind (Cartridge.control operation ignored value) :=
      Cartridge.keepsKind_onController fun _ ↦ Iff.rfl
    exact hkept b.cartridge
  | external => exact Cartridge.keepsKind_write addr value b.cartridge
  | cell c => cases c <;> exact Iff.rfl
  | register =>
    dsimp only
    rw [(registerWritten addr value b).cartridge]
  | nothing => exact Iff.rfl

end Bus

/-! ## The hardware -/

namespace Hardware

variable {hw : Hardware} {addr : UInt16} {value : UInt8} {fault : Fault}

theorem not_rejects_lcdControl (b : Bus) : ¬ b.Rejects Register.lcdControl value fault :=
  fun h ↦ absurd h.lt (by decide)

/-- A write fails exactly when the bus rejects it, and then it does nothing. -/
theorem result_write_eq_error_iff (hl : DisplayListens hw) :
    (write addr value hw).result = .error fault ↔ hw.bus.Rejects addr value fault := by
  by_cases hc : addr = Register.lcdControl
  · subst hc
    rw [write_lcdControl hl]
    constructor
    · intro h
      cases h
    · intro h
      exact absurd h (not_rejects_lcdControl _)
  · rw [write_of_ne hl hc]
    exact Bus.result_write_eq_error_iff

/-- A write that the bus rejects does nothing, whoever listens. -/
theorem write_of_rejects (h : hw.bus.Rejects addr value fault) :
    write addr value hw = ⟨.error fault, hw, #[]⟩ := by
  have hb : onBus (Bus.write addr value) hw = ⟨.error fault, hw, #[]⟩ := by
    rw [onBus, Bus.write_of_rejects h]
  have hn : writeNested (65535 + 1) addr value hw = ⟨.error fault, hw, #[]⟩ := by
    rw [writeNested, Exec.bind_of_error hb]
  exact hn

theorem write_of_error (hl : DisplayListens hw) (h : (write addr value hw).result = .error fault) :
    write addr value hw = ⟨.error fault, hw, #[]⟩ :=
  write_of_rejects ((result_write_eq_error_iff hl).1 h)

theorem isBanked_write (hl : DisplayListens hw) (addr : UInt16) (value : UInt8) :
    (write addr value hw).state.bus.cartridge.IsBanked ↔ hw.bus.cartridge.IsBanked := by
  by_cases hc : addr = Register.lcdControl
  · have hkept : ((hw.put Register.lcdControl value).controlled value).bus.cartridge =
        hw.bus.cartridge := cartridge_covers.controlled _ value
    rw [hc, write_lcdControl hl, hkept]
  · rw [write_of_ne hl hc]
    exact Bus.isBanked_write addr value hw.bus

/-- Writes that fail do so at the first one that is rejected; what is left is what those before it
leave. -/
theorem exists_rejects (h : Reachable hw) {stores : List (UInt16 × UInt8)}
    (hf : (storeAll stores hw).result = .error fault) :
    ∃ done addr value rest, stores = done ++ (addr, value) :: rest ∧
      (storeAll done hw).result = .ok () ∧
      (storeAll stores hw).state = (storeAll done hw).state ∧
      hw.bus.Rejects addr value fault := by
  induction stores generalizing hw with
  | nil => cases hf
  | cons store stores ih =>
    obtain ⟨addr, value⟩ := store
    have hl := h.wired.1.listens
    rcases hw₁ : write addr value hw with ⟨fault' | ⟨⟩, hw', records⟩
    · have he : (write addr value hw).result = .error fault' := by rw [hw₁]
      rw [storeAll_cons_of_error hw₁] at hf ⊢
      cases hf
      rw [write_of_error hl he] at hw₁
      cases hw₁
      exact ⟨[], addr, value, stores, rfl, rfl, rfl, (result_write_eq_error_iff hl).1 he⟩
    · have hr' : Reachable hw' := by
        have hp := h.perform (.write addr value)
        rwa [Operation.perform, hw₁] at hp
      have hkind := isBanked_write hl addr value
      rw [hw₁] at hkind
      rw [storeAll_cons_of_ok hw₁] at hf ⊢
      obtain ⟨done, addr', value', rest, rfl, hdone, hstate, hrejects⟩ := ih hr' hf
      refine ⟨(addr, value) :: done, addr', value', rest, rfl, ?_, ?_, hrejects.of_isBanked hkind.1⟩
      · rw [storeAll_cons_of_ok hw₁]
        exact hdone
      · rw [storeAll_cons_of_ok hw₁]
        exact hstate

end Hardware

end DotMatrix
