import DotMatrix.Proofs.Bus.Refusal
import DotMatrix.Proofs.Console.Acts
import DotMatrix.Proofs.Hardware.Spared

/-!
# What the image's windows show

The first window shows the start of the image and the second one a bank of it.  Which bank that is
depends only on the last byte that was written to the bank register, if the cartridge has one, and a
bank that the image does not have counts round those it has, the rest of a bank at the end of the
image not being one of them.

* `KeepsWindows` — whatever is done to the cartridge leaves its windows alone, unless it is a write
  to the bank register.
* `windowBank` — the bank that the second window shows, told from what was done.
* `ShowsBank` — a cartridge is as that says, and `showsBank_perform`, that every operation keeps it
  so.
* `image_windows` — what both windows read as, on all hardware and so on every machine.
-/

set_option autoImplicit false

namespace DotMatrix

namespace Mbc3

/-! ## Operations that choose no bank -/

theorem bank_writeWindow (addr : UInt16) (value : UInt8) (m : Mbc3) :
    (writeWindow addr value m).state.bank = m.bank := by
  rw [writeWindow]
  split
  · split <;> rfl
  · rfl

theorem bank_selectWindow (value : UInt8) (m : Mbc3) :
    (selectWindow value m).state.bank = m.bank := by
  rw [selectWindow]
  cases Window.ofCode? value <;> rfl

theorem bank_latch (value : UInt8) (m : Mbc3) : (latch value m).state.bank = m.bank := by
  rw [latch]
  split
  · rfl
  split <;> rfl

end Mbc3

namespace Cartridge

/-- The image's windows show what they showed. -/
structure KeepsWindows (c c' : Cartridge) : Prop where
  image : c'.image = c.image
  bank : c'.bank = c.bank
  isBanked : c'.IsBanked ↔ c.IsBanked

theorem keepsWindows_refl (c : Cartridge) : KeepsWindows c c := ⟨rfl, rfl, Iff.rfl⟩

theorem keepsWindows_onController {x : Exec Mbc3 Unit} {fallback : Exec Cartridge Unit}
    (hx : ∀ m, (x m).state.bank = m.bank) (hf : ∀ c, KeepsWindows c (fallback c).state) :
    ∀ c, KeepsWindows c (onController x fallback c).state
  | ⟨_, .mbc3 m⟩ => ⟨rfl, congrArg UInt8.toUInt16 (hx m), fun _ ↦ ⟨m, rfl⟩, fun _ ↦ ⟨_, rfl⟩⟩
  | ⟨image, .plain⟩ => hf ⟨image, .plain⟩

theorem keepsWindows_write (addr : UInt16) (value : UInt8) (c : Cartridge) :
    KeepsWindows c (write addr value c).state := by
  rw [write]
  split
  · exact keepsWindows_onController (Mbc3.bank_writeWindow addr value) keepsWindows_refl c
  · exact keepsWindows_refl c

theorem keepsWindows_withCalendar (calendar : Calendar) :
    ∀ c : Cartridge, KeepsWindows c (c.withCalendar calendar)
  | ⟨_, .mbc3 m⟩ => ⟨rfl, rfl, fun _ ↦ ⟨m, rfl⟩, fun _ ↦ ⟨_, rfl⟩⟩
  | ⟨image, .plain⟩ => keepsWindows_refl ⟨image, .plain⟩

end Cartridge

/-- The address is one of the bank register. -/
def IsBankSelect (addr : UInt16) : Prop := 0x2000 ≤ addr ∧ addr ≤ 0x3fff

instance (addr : UInt16) : Decidable (IsBankSelect addr) := inferInstanceAs (Decidable (_ ∧ _))

namespace Bus

variable {addr : UInt16}

theorem keepsWindows_control (h : ¬ IsBankSelect addr) (value : UInt8) (b : Bus) :
    b.cartridge.KeepsWindows (control addr value b).state.cartridge := by
  rw [control]
  split
  · have henable : ∀ m, (Mbc3.enable value m).state.bank = m.bank := fun _ ↦ rfl
    exact Cartridge.keepsWindows_onController henable Cartridge.keepsWindows_refl b.cartridge
  rename_i h2
  split
  · rename_i h4
    have hle : addr ≤ 0x3fff := UInt16.le_iff_toNat_le.2 (Nat.le_of_lt_succ h4)
    exact absurd ⟨UInt16.not_lt.1 h2, hle⟩ h
  split
  · exact Cartridge.keepsWindows_onController (Mbc3.bank_selectWindow value)
      Cartridge.keepsWindows_refl b.cartridge
  · exact Cartridge.keepsWindows_onController (Mbc3.bank_latch value)
      Cartridge.keepsWindows_refl b.cartridge

theorem keepsWindows_write (h : ¬ IsBankSelect addr) (value : UInt8) (b : Bus) :
    b.cartridge.KeepsWindows (write addr value b).state.cartridge := by
  rw [write]
  cases b.place addr with
  | image => exact keepsWindows_control h value b
  | external => exact Cartridge.keepsWindows_write addr value b.cartridge
  | cell c => cases c <;> exact Cartridge.keepsWindows_refl b.cartridge
  | register =>
    dsimp only
    rw [(registerWritten addr value b).cartridge]
    exact Cartridge.keepsWindows_refl b.cartridge
  | nothing => exact Cartridge.keepsWindows_refl b.cartridge

theorem cartridge_write_of_bankSelect (h : IsBankSelect addr) (value : UInt8) (b : Bus) :
    (write addr value b).state.cartridge = (Cartridge.selectBank value b.cartridge).state := by
  have h4 : addr < 0x4000 := UInt16.lt_of_le_of_lt h.2 (by decide)
  have h2 : ¬ addr < 0x2000 := UInt16.not_lt.2 h.1
  rw [write, place_eq_image_iff.2 (UInt16.lt_trans h4 (by decide))]
  dsimp only
  rw [control, if_neg h2, if_pos h4]
  rfl

end Bus

namespace Hardware

/-! ## The bank that was chosen -/

/-- The byte that an operation writes to the bank register. -/
def Operation.bankByte? : Operation → Option UInt8
  | .write addr value => if IsBankSelect addr then some value else none
  | .advance _ | .withdraw _ | .press _ _ => none

theorem bankByte?_write_of_not {addr : UInt16} (h : ¬ IsBankSelect addr) (value : UInt8) :
    (Operation.write addr value).bankByte? = none := if_neg h

/-- The bank that a byte in the bank register stands for. -/
def bankNumber (value : UInt8) : Nat := if value.toNat % 128 = 0 then 1 else value.toNat % 128

/-- The bank that the second window shows on a cartridge that was put in, after operations, the
newest first. -/
def windowBank (start : Cartridge) (ops : List Operation) : Nat :=
  match start.controller with
  | .plain => 1
  | .mbc3 _ => ((ops.findSome? Operation.bankByte?).map bankNumber).getD 1

theorem windowBank_cons_of_none {op : Operation} (h : op.bankByte? = none) (start : Cartridge)
    (ops : List Operation) : windowBank start (op :: ops) = windowBank start ops := by
  rw [windowBank, windowBank, List.findSome?_cons, h]

theorem bankNumber_eq : ∀ value : UInt8,
    (if value &&& 0x7f = 0 then 1 else value &&& 0x7f).toNat = bankNumber value :=
  forall_byte (by decide +kernel)

/-- The image is the one that was put in, and the bank is the one that was chosen. -/
structure ShowsBank (start : Cartridge) (ops : List Operation) (c : Cartridge) : Prop where
  image : c.image = start.image
  isBanked : c.IsBanked ↔ start.IsBanked
  bank : c.bank.toNat = windowBank start ops

variable {start c c' : Cartridge} {ops : List Operation} {op : Operation}

theorem showsBank_start {image : Array UInt8} (h : Cartridge.ofImage image = .ok start) :
    ShowsBank start [] start := by
  obtain ⟨-, rfl | rfl⟩ := Cartridge.ofImage_cases h <;> exact ⟨rfl, Iff.rfl, rfl⟩

theorem ShowsBank.keep (h : ShowsBank start ops c) (hk : c.KeepsWindows c')
    (hop : op.bankByte? = none) : ShowsBank start (op :: ops) c' where
  image := hk.image.trans h.image
  isBanked := hk.isBanked.trans h.isBanked
  bank := by rw [hk.bank, h.bank, windowBank_cons_of_none hop]

theorem ShowsBank.select (h : ShowsBank start ops c) {value : UInt8}
    (hop : op.bankByte? = some value) :
    ShowsBank start (op :: ops) (Cartridge.selectBank value c).state := by
  obtain ⟨himage, hkind, hbank⟩ := h
  obtain ⟨image, _ | m⟩ := c
  · obtain ⟨image', _ | m'⟩ := start
    · exact ⟨himage, Iff.rfl, rfl⟩
    · obtain ⟨m, hm⟩ := hkind.2 ⟨m', rfl⟩
      cases hm
  · obtain ⟨image', _ | m'⟩ := start
    · obtain ⟨m', hm⟩ := hkind.1 ⟨m, rfl⟩
      cases hm
    · refine ⟨himage, ⟨fun _ ↦ ⟨m', rfl⟩, fun _ ↦ ⟨_, rfl⟩⟩, ?_⟩
      rw [windowBank, List.findSome?_cons, hop]
      exact bankNumber_eq value

variable {hw : Hardware}

theorem ShowsBank.write (h : ShowsBank start ops hw.bus.cartridge) (hl : DisplayListens hw)
    (addr : UInt16) (value : UInt8) :
    ShowsBank start (.write addr value :: ops) (write addr value hw).state.bus.cartridge := by
  by_cases hc : addr = Register.lcdControl
  · have hkept : ((hw.put Register.lcdControl value).controlled value).bus.cartridge =
        hw.bus.cartridge := cartridge_covers.controlled _ value
    rw [hc, write_lcdControl hl, hkept]
    exact h.keep (Cartridge.keepsWindows_refl _) (bankByte?_write_of_not (by decide) value)
  rw [write_of_ne hl hc]
  by_cases hs : IsBankSelect addr
  · have hselect := Bus.cartridge_write_of_bankSelect hs value hw.bus
    rw [show (onBus (Bus.write addr value) hw).state.bus = (Bus.write addr value hw.bus).state
      from rfl, hselect]
    exact h.select (if_pos hs)
  · exact h.keep (Bus.keepsWindows_write hs value hw.bus) (bankByte?_write_of_not hs value)

/-- Every operation leaves the cartridge as what was done says. -/
theorem showsBank_perform (h : ShowsBank start ops hw.bus.cartridge) (hr : Reachable hw)
    (op : Operation) : ShowsBank start (op :: ops) (op.perform hw).state.bus.cartridge := by
  cases op with
  | write addr value => exact h.write hr.wired.1.listens addr value
  | advance cycles =>
    obtain ⟨calendar, hc⟩ := (hr.spares_advance cycles).cartridge
    rw [Operation.perform, hc]
    exact h.keep (Cartridge.keepsWindows_withCalendar calendar _) rfl
  | withdraw source => exact h.keep (Cartridge.keepsWindows_refl _) rfl
  | press button pressed =>
    have hkept : (press button pressed hw).state.bus.cartridge = hw.bus.cartridge := by
      rw [press, Exec.bind_gets]
      split <;> rfl
    rw [Operation.perform, hkept]
    exact h.keep (Cartridge.keepsWindows_refl _) rfl

/-- However the hardware was acted on, its cartridge is as that says. -/
theorem showsBank_afterAll {image : Array UInt8} (h : Cartridge.ofImage image = .ok start)
    (ops : List Operation) :
    Reachable (afterAll ops (powerOn start).1) ∧
    ShowsBank start ops (afterAll ops (powerOn start).1).bus.cartridge := by
  induction ops with
  | nil =>
    refine ⟨.powerOn h, ?_⟩
    have hkept : (armed start).started.bus.cartridge = start := cartridge_covers.started _
    rw [afterAll, powerOn_eq, hkept]
    exact showsBank_start h
  | cons op ops ih =>
    obtain ⟨hr, hs⟩ := ih
    exact ⟨hr.perform op, showsBank_perform hs hr op⟩

/-! ## What the windows read as -/

theorem load_of_image {addr : UInt16} (ha : addr < 0x8000) :
    (load addr hw).result = hw.bus.cartridge.read addr := by
  show hw.bus.read addr = _
  rw [Bus.read, Bus.place_eq_image_iff.2 ha]

end Hardware

namespace Cartridge

variable {c : Cartridge} {addr : UInt16}

theorem Valid.read_first (h : c.Valid) (ha : addr < 0x4000) :
    ∃ byte, c.image[addr.toNat]? = some byte ∧ c.read addr = .ok byte := by
  have hlt : addr.toNat < c.image.size :=
    Nat.lt_of_lt_of_le (UInt16.lt_iff_toNat_lt.1 ha) h.size
  refine ⟨c.image[addr.toNat], Array.getElem?_eq_getElem hlt, ?_⟩
  rw [read, if_pos ha, Array.getElem?_eq_getElem hlt]

/-- An image that was accepted has a bank, so counting round its banks is a remainder. -/
theorem bankedIndex_eq {size : Nat} (h : imageBankSize ≤ size) (bank : UInt16)
    (hlow : 0x4000 ≤ addr) (hhigh : addr < 0x8000) :
    bankedIndex size bank addr = bank.toNat % (size / 0x4000) * 0x4000 + (addr.toNat - 0x4000) := by
  have hbanks : 1 ≤ size / imageBankSize := (Nat.one_le_div_iff (by decide)).2 h
  have hlow' : 0x4000 ≤ addr.toNat := UInt16.le_iff_toNat_le.1 hlow
  have hhigh' : addr.toNat < 0x8000 := UInt16.lt_iff_toNat_lt.1 hhigh
  have hoffset : addr.toNat % imageBankSize = addr.toNat - 0x4000 := by
    rw [imageBankSize]
    omega
  rw [bankedIndex, Nat.max_eq_left hbanks, hoffset]
  rfl

theorem Valid.read_second (h : c.Valid) (hlow : 0x4000 ≤ addr) (hhigh : addr < 0x8000) :
    ∃ byte, c.image[c.bank.toNat % (c.image.size / 0x4000) * 0x4000 + (addr.toNat - 0x4000)]? =
        some byte ∧ c.read addr = .ok byte := by
  have hlt := bankedIndex_lt h.size c.bank addr
  rw [← bankedIndex_eq h.size c.bank hlow hhigh]
  refine ⟨_, Array.getElem?_eq_getElem hlt, ?_⟩
  rw [read, if_neg (UInt16.not_lt.2 hlow), if_pos hhigh, Array.getElem?_eq_getElem hlt]

end Cartridge

namespace Console

open Hardware (afterAll)

/-- Whatever was done to a machine was done to the hardware that it started with. -/
theorem Reachable.exists_afterAll {c : Console} (h : Reachable c) : ∃ image cartridge ops,
    Cartridge.ofImage image = .ok cartridge ∧
      c.hardware = afterAll ops (Hardware.powerOn cartridge).1 := by
  induction h with
  | powerOn h =>
    obtain ⟨cartridge, hc, rfl⟩ := powerOn_cases h
    exact ⟨_, cartridge, [], hc, rfl⟩
  | @perform c op h ih =>
    obtain ⟨image, cartridge, ops, hc, hops⟩ := ih
    refine ⟨image, cartridge, op.acts c ++ ops, hc, ?_⟩
    rw [hardware_perform_acts h.hardware, hops, Hardware.afterAll_append]

/-- **The image's windows.**  Whatever was done to the hardware, and so to any machine, the image is
the one that was put in, the first window reads as its start, and the second one as the bank that
was chosen, counted round the whole banks of the image: bank 1 without a controller, and with one
the low seven bits of the last byte in the bank register, or 1 if they are zero or there was none.
Every one of these reads succeeds. -/
theorem image_windows :
    (∀ c : Console, Reachable c → ∃ image cartridge ops,
      Cartridge.ofImage image = .ok cartridge ∧
        c.hardware = afterAll ops (Hardware.powerOn cartridge).1) ∧
    ∀ (image : Array UInt8) (cartridge : Cartridge) (ops : List Hardware.Operation),
      Cartridge.ofImage image = .ok cartridge →
      (afterAll ops (Hardware.powerOn cartridge).1).bus.cartridge.image = image ∧
      (∀ addr : UInt16, addr < 0x4000 → ∃ byte, image[addr.toNat]? = some byte ∧
        (Hardware.load addr (afterAll ops (Hardware.powerOn cartridge).1)).result = .ok byte) ∧
      ∀ addr : UInt16, 0x4000 ≤ addr → addr < 0x8000 → ∃ byte,
        image[Hardware.windowBank cartridge ops % (image.size / 0x4000) * 0x4000 +
          (addr.toNat - 0x4000)]? = some byte ∧
        (Hardware.load addr (afterAll ops (Hardware.powerOn cartridge).1)).result = .ok byte := by
  refine ⟨fun c h ↦ h.exists_afterAll, fun image cartridge ops h ↦ ?_⟩
  obtain ⟨hr, himage, -, hbank⟩ := Hardware.showsBank_afterAll h ops
  have hvalid := hr.bounded.cartridge
  have hstart : cartridge.image = image := by
    obtain ⟨-, rfl | rfl⟩ := Cartridge.ofImage_cases h <;> rfl
  rw [hstart] at himage
  refine ⟨himage, fun addr ha ↦ ?_, fun addr hlow hhigh ↦ ?_⟩
  · rw [Hardware.load_of_image (UInt16.lt_trans ha (by decide)), ← himage]
    exact hvalid.read_first ha
  · rw [Hardware.load_of_image hhigh, ← himage, ← hbank]
    exact hvalid.read_second hlow hhigh

/-- An image of one bank and a quarter shows that one bank in both windows, whatever is chosen. -/
theorem image_windows_uneven :
    ∃ byte, unevenImage[0x0147]? = some byte ∧
      (Hardware.load 0x4147 (afterAll [.write 0x2345 0x85, .advance 70224, .write 0x3fff 0x80]
        (Hardware.powerOn (.mbc3 unevenImage)).1)).result = .ok byte := by
  obtain ⟨-, hwindows⟩ := image_windows
  obtain ⟨-, -, hsecond⟩ := hwindows unevenImage (.mbc3 unevenImage)
    [.write 0x2345 0x85, .advance 70224, .write 0x3fff 0x80] unevenImage_accepted
  have hsize : unevenImage.size / 0x4000 = 1 := by simp [unevenImage]
  have h := hsecond 0x4147 (by decide) (by decide)
  rwa [hsize, Nat.mod_one, Nat.zero_mul] at h

end Console

end DotMatrix
