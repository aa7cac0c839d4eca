import DotMatrix.Cartridge.Basic
import DotMatrix.Proofs.Hardware.Quiet
import DotMatrix.Proofs.Range.Checked

/-!
# The cartridge stays in range

An image that is accepted has at least one bank, and every bank that can be chosen counts round the
banks there are.  The fields of the calendar stay within the bits they have, so counting one on
stays within a byte.

* `Cartridge.Valid` — an accepted image with a calendar within its bits, and `valid_ofImage`,
  `keepsValid_write`, `Valid.tickCalendar`, that it stays so.
* `Valid.read_inRange`, `Valid.tickCalendar_inRange` — on such a cartridge no access is out of
  bounds and no sum overflows.
-/

set_option autoImplicit false

namespace DotMatrix

/-! ## The calendar -/

namespace Checked

/-- One more day; a counter that wraps sets the carry bit. -/
def tickDay (c : Calendar) : Option Calendar := do
  let days ← addWord c.days 1
  let flags := c.daysHigh &&& 0xfe
  if days > 0x1ff then return { c with daysLow := 0, daysHigh := flags ||| 0x80 }
  else return { c with daysLow := days.toUInt8, daysHigh := flags ||| (days >>> 8).toUInt8 }

/-- One more hour. -/
def tickHour (c : Calendar) : Option Calendar := do
  let hours := (← addByte c.hours 1) &&& 0x1f
  if hours = 24 then tickDay { c with hours := 0 } else return { c with hours := hours }

/-- One more minute. -/
def tickMinute (c : Calendar) : Option Calendar := do
  let minutes := (← addByte c.minutes 1) &&& 0x3f
  if minutes = 60 then tickHour { c with minutes := 0 } else return { c with minutes := minutes }

/-- One more second, unless the calendar is halted. -/
def tick (c : Calendar) : Option Calendar :=
  if c.isHalted then return c
  else do
    let seconds := (← addByte c.seconds 1) &&& 0x3f
    if seconds = 60 then tickMinute { c with seconds := 0 }
    else return { c with seconds := seconds }

end Checked

namespace Calendar

/-- Every field stays within the bits it has. -/
def Masked (c : Calendar) : Prop := ∀ f, c.field f &&& f.mask = c.field f

theorem masked_start : Masked {} := by
  intro f
  cases f <;> rfl

theorem toNat_days (c : Calendar) :
    c.days.toNat = (c.daysHigh &&& 1).toNat * 256 + c.daysLow.toNat :=
  toNat_wordOfBytes _ _

theorem days_lt (c : Calendar) : c.days.toNat < 0x200 := by
  have hlow := c.daysLow.toNat_lt
  have hhigh : (c.daysHigh &&& 1).toNat ≤ 1 := by
    rw [UInt8.toNat_and]
    exact Nat.and_le_right
  rw [toNat_days]
  omega

variable {c : Calendar}

theorem Masked.le_mask (h : c.Masked) (f : CalendarField) :
    (c.field f).toNat ≤ f.mask.toNat := by
  rw [← h f, UInt8.toNat_and]
  exact Nat.and_le_right

theorem Masked.set (h : c.Masked) (f : CalendarField) (value : UInt8) : (c.set f value).Masked := by
  intro g
  rw [field_set]
  split
  · rename_i hg
    rw [hg, UInt8.and_assoc, UInt8.and_self]
  · exact h g

/-! ### A second passes -/

/-- The flags beside the top bit of the day counter, with that bit or the carry set anew. -/
theorem masked_flags (flags : UInt8) (h : flags &&& 0xc1 = flags) (top : UInt8)
    (ht : top ∈ ([0x80, 0, 1] : List UInt8)) :
    (flags &&& 0xfe ||| top) &&& 0xc1 = flags &&& 0xfe ||| top := by
  have hall : ∀ flags : UInt8, flags &&& 0xc1 = flags → ∀ top ∈ ([0x80, 0, 1] : List UInt8),
      (flags &&& 0xfe ||| top) &&& 0xc1 = flags &&& 0xfe ||| top :=
    forall_byte (by decide +kernel)
  exact hall flags h top ht

theorem Masked.withDays (h : c.Masked) (low : UInt8) {high : UInt8}
    (hm : high &&& 0xc1 = high) : { c with daysLow := low, daysHigh := high }.Masked := by
  have hset := (h.set .daysLow low).set .daysHigh high
  rw [Calendar.set, Calendar.set, CalendarField.mask, CalendarField.mask, hm] at hset
  rwa [show low &&& 0xff = low from UInt8.and_neg_one] at hset

/-- The day counter wraps after 511 days; until then its top bit is all that the flags take. -/
theorem tickDay_cases (c : Calendar) :
    (c.days.toNat = 511 ∧
      c.tickDay = { c with daysLow := 0, daysHigh := c.daysHigh &&& 0xfe ||| 0x80 }) ∨
    (c.days.toNat < 511 ∧ (highByte (c.days + 1) = 0 ∨ highByte (c.days + 1) = 1) ∧
      c.tickDay = { c with
        daysLow := lowByte (c.days + 1)
        daysHigh := c.daysHigh &&& 0xfe ||| highByte (c.days + 1) }) := by
  have hlt := c.days_lt
  have hnext : (c.days + 1).toNat = c.days.toNat + 1 :=
    (UInt16.toNat_add c.days 1).trans (Nat.mod_eq_of_lt (by change c.days.toNat + 1 < 65536; omega))
  by_cases hwrap : c.days + 1 > 0x1ff
  · have hnat : 0x1ff < (c.days + 1).toNat := UInt16.lt_iff_toNat_lt.1 hwrap
    exact .inl ⟨by omega, if_pos hwrap⟩
  · have hnat : (c.days + 1).toNat ≤ 0x1ff := UInt16.le_iff_toNat_le.1 (UInt16.not_lt.1 hwrap)
    have htop := toNat_highByte (c.days + 1)
    have hcases : (highByte (c.days + 1)).toNat = 0 ∨ (highByte (c.days + 1)).toNat = 1 := by omega
    exact .inr ⟨by omega, hcases.imp UInt8.toNat_inj.1 UInt8.toNat_inj.1, if_neg hwrap⟩

theorem Masked.tickDay (h : c.Masked) : c.tickDay.Masked := by
  have hflags := masked_flags c.daysHigh (h .daysHigh)
  obtain ⟨-, hday⟩ | ⟨-, htop, hday⟩ := c.tickDay_cases
  · rw [hday]
    exact h.withDays 0 (hflags _ (by decide))
  · rw [hday]
    refine h.withDays _ (hflags _ ?_)
    rcases htop with h0 | h1
    · rw [h0]
      decide
    · rw [h1]
      decide

theorem Masked.tickHour (h : c.Masked) : c.tickHour.Masked := by
  rw [Calendar.tickHour]
  split
  · exact (h.set .hours 0).tickDay
  · exact h.set .hours (c.hours + 1)

theorem Masked.tickMinute (h : c.Masked) : c.tickMinute.Masked := by
  rw [Calendar.tickMinute]
  split
  · exact (h.set .minutes 0).tickHour
  · exact h.set .minutes (c.minutes + 1)

/-- The fields stay within their bits when a second passes. -/
theorem Masked.tick (h : c.Masked) : c.tick.Masked := by
  rw [Calendar.tick]
  split
  · exact h
  dsimp only
  split
  · exact (h.set .seconds 0).tickMinute
  · exact h.set .seconds (c.seconds + 1)

theorem tickDay_inRange (c : Calendar) : Checked.tickDay c = some c.tickDay := by
  have hlt : c.days.toNat + (1 : UInt16).toNat < 2 ^ 16 :=
    Nat.lt_of_lt_of_le (Nat.add_lt_add_right c.days_lt 1) (by decide)
  simp only [Checked.tickDay, Checked.addWord_of_lt hlt, Option.bind_eq_bind, Option.bind_some,
    Calendar.tickDay]
  split <;> rfl

theorem Masked.tickHour_inRange (h : c.Masked) : Checked.tickHour c = some c.tickHour := by
  have hlt : c.hours.toNat + (1 : UInt8).toNat < 2 ^ 8 :=
    Nat.lt_of_le_of_lt (Nat.add_le_add_right (h.le_mask .hours) 1) (by decide)
  simp only [Checked.tickHour, Checked.addByte_of_lt hlt, Option.bind_eq_bind, Option.bind_some,
    Calendar.tickHour]
  split
  · exact tickDay_inRange _
  · rfl

theorem Masked.tickMinute_inRange (h : c.Masked) : Checked.tickMinute c = some c.tickMinute := by
  have hlt : c.minutes.toNat + (1 : UInt8).toNat < 2 ^ 8 :=
    Nat.lt_of_le_of_lt (Nat.add_le_add_right (h.le_mask .minutes) 1) (by decide)
  simp only [Checked.tickMinute, Checked.addByte_of_lt hlt, Option.bind_eq_bind, Option.bind_some,
    Calendar.tickMinute]
  split
  · exact Masked.tickHour_inRange (h.set .minutes 0)
  · rfl

/-- A calendar whose fields stay within their bits counts on without an overflow. -/
theorem Masked.tick_inRange (h : c.Masked) : Checked.tick c = some c.tick := by
  have hlt : c.seconds.toNat + (1 : UInt8).toNat < 2 ^ 8 :=
    Nat.lt_of_le_of_lt (Nat.add_le_add_right (h.le_mask .seconds) 1) (by decide)
  rw [Checked.tick, Calendar.tick]
  split
  · rfl
  simp only [Checked.addByte_of_lt hlt, Option.bind_eq_bind, Option.bind_some]
  split
  · exact Masked.tickMinute_inRange (h.set .seconds 0)
  · rfl

end Calendar

/-! ## The windows -/

namespace Checked

/-- The place in RAM that an address of the external window stands for while a bank is selected. -/
def ramIndex (bank : Fin 4) (addr : UInt16) : Option (Fin 0x8000) := do
  let base ← mulIndex bank.val 0x2000
  let offset ← subWord addr 0xa000
  entry 0x8000 (← addIndex base offset.toNat)

/-- The external window as it reads. -/
def readWindow (m : Mbc3) (addr : UInt16) : Option UInt8 :=
  if m.enabled then
    match m.window with
    | .bank n => do return m.ram.get (← ramIndex n addr)
    | .calendar f => some (m.latched.get f)
  else some 0xff

/-- Write to the external window. -/
def writeWindow (addr : UInt16) (value : UInt8) (m : Mbc3) : Option (Outcome Mbc3 Unit) :=
  match m.enabled, m.window with
  | true, .bank n => do
    let ⟨i, h⟩ ← ramIndex n addr
    return ⟨.ok (), { m with ram := m.ram.set i value h }, #[]⟩
  | _, _ => some (Mbc3.writeWindow addr value m)

/-- The place in an image of `size` bytes that an address of the switchable window stands for. -/
def bankedIndex (size : Nat) (bank addr : UInt16) : Option (Fin size) := do
  let chosen ← modIndex bank.toNat (max (size / imageBankSize) 1)
  let base ← mulIndex chosen imageBankSize
  entry size (← addIndex base (addr.toNat % imageBankSize))

/-- The byte that an address of the image's two windows or the external window reads as. -/
def readCartridge (c : Cartridge) (addr : UInt16) : Option (Except Fault UInt8) :=
  if addr < 0x4000 then do
    let ⟨i, h⟩ ← entry c.image.size addr.toNat
    return .ok c.image[i]
  else if addr < 0x8000 then do
    let ⟨i, h⟩ ← bankedIndex c.image.size c.bank addr
    return .ok c.image[i]
  else if isExternal addr then
    match c.controller with
    | .plain => some (.ok 0xff)
    | .mbc3 m => do return .ok (← readWindow m addr)
  else some (.error (.outOfBounds addr))

/-- Write to the external window, the only one that can be written. -/
def writeCartridge (addr : UInt16) (value : UInt8) (c : Cartridge) :
    Option (Outcome Cartridge Unit) :=
  match isExternal addr, c.controller with
  | true, .mbc3 m => do
    let o ← writeWindow addr value m
    return ⟨o.result, ⟨c.image, .mbc3 o.state⟩, o.records⟩
  | _, _ => some (Cartridge.write addr value c)

/-- A second passes for the calendar. -/
def tickCalendar (c : Cartridge) : Option Cartridge :=
  match c with
  | ⟨image, .mbc3 m⟩ => do
    let calendar ← tick m.calendar
    return ⟨image, .mbc3 { m with calendar := calendar }⟩
  | ⟨image, .plain⟩ => some ⟨image, .plain⟩

end Checked

namespace Mbc3

theorem ramIndex_inRange {addr : UInt16} (h : isExternal addr) (bank : Fin 4) :
    Checked.ramIndex bank addr = some (ramIndex bank addr) := by
  have hbank := bank.isLt
  rw [isExternal, Bool.and_eq_true, decide_eq_true_eq, decide_eq_true_eq] at h
  obtain ⟨hge, hlt⟩ := h
  have hge' : 40960 ≤ addr.toNat := UInt16.le_iff_toNat_le.1 hge
  have hlt' : addr.toNat < 49152 := UInt16.lt_iff_toNat_lt.1 hlt
  have hoffset : (addr - 0xa000).toNat = addr.toNat % 0x2000 := by
    rw [UInt16.toNat_sub_of_le _ _ hge]
    show addr.toNat - 40960 = _
    omega
  have hmul : Checked.mulIndex bank.val 0x2000 = some (bank.val * 0x2000) :=
    Checked.mulIndex_of_lt (by omega)
  have hadd : Checked.addIndex (bank.val * 0x2000) (addr.toNat % 0x2000) =
      some (bank.val * 0x2000 + addr.toNat % 0x2000) := Checked.addIndex_of_lt (by omega)
  simp only [Checked.ramIndex, hmul, Checked.subWord_of_le hge, hoffset, hadd, Option.bind_eq_bind,
    Option.bind_some]
  exact Checked.entry_of_lt _

theorem readWindow_inRange {addr : UInt16} (h : isExternal addr) (m : Mbc3) :
    Checked.readWindow m addr = some (m.readWindow addr) := by
  rw [Checked.readWindow, readWindow]
  split
  · cases m.window with
    | bank n =>
      dsimp only
      rw [ramIndex_inRange h]
      rfl
    | calendar f => rfl
  · rfl

theorem writeWindow_inRange {addr : UInt16} (h : isExternal addr) (value : UInt8) (m : Mbc3) :
    Checked.writeWindow addr value m = some (writeWindow addr value m) := by
  rw [Checked.writeWindow]
  split
  · rename_i n he hw
    rw [ramIndex_inRange h, writeWindow, if_pos he, hw]
    rfl
  · rfl

/-! ## What the controller keeps -/

/-- The running calendar stays within its bits. -/
def KeepsMasked (m : Mbc3) (_ : Array Record) (m' : Mbc3) : Prop :=
  m.calendar.Masked → m'.calendar.Masked

theorem keepsMasked_writeWindow (addr : UInt16) (value : UInt8) :
    Exec.Always KeepsMasked (writeWindow addr value) := by
  intro m h
  rw [writeWindow]
  split
  · split
    · exact h
    · exact h.set _ _
  · exact h

theorem IsControl.keepsMasked {operation : UInt8 → Exec Mbc3 Unit} (h : IsControl operation)
    (value : UInt8) : Exec.Always KeepsMasked (operation value) := by
  cases h with
  | enable | selectBank => exact fun _ h ↦ h
  | selectWindow =>
    rw [Mbc3.selectWindow]
    cases Window.ofCode? value <;> exact fun _ h ↦ h
  | latch =>
    intro m h
    rw [Mbc3.latch]
    split
    · exact h
    · split <;> exact h

end Mbc3

namespace Cartridge

/-! ## Valid cartridges -/

/-- An accepted image, with a calendar within its bits. -/
structure Valid (c : Cartridge) : Prop where
  /-- The image has at least one bank. -/
  size : imageBankSize ≤ c.image.size
  calendar : ∀ m, c.controller = .mbc3 m → m.calendar.Masked

/-- An accepted image has at least one bank, and nothing has been done to its cartridge yet. -/
theorem ofImage_cases {image : Array UInt8} {c : Cartridge} (h : ofImage image = .ok c) :
    imageBankSize ≤ image.size ∧ (c = plain image ∨ c = mbc3 image) := by
  rw [ofImage] at h
  split at h
  · cases h
  · rename_i hsize
    have hle : imageBankSize ≤ image.size := Nat.le_of_not_lt hsize
    dsimp only at h
    split at h
    · cases h
      exact ⟨hle, .inl rfl⟩
    split at h
    · cases h
      exact ⟨hle, .inr rfl⟩
    · cases h

/-- A cartridge that is put in is valid. -/
theorem valid_ofImage {image : Array UInt8} {c : Cartridge} (h : ofImage image = .ok c) :
    c.Valid := by
  obtain ⟨hle, rfl | rfl⟩ := ofImage_cases h
  · exact ⟨hle, fun m hm ↦ by cases hm⟩
  · exact ⟨hle, fun m hm ↦ by cases hm; exact Calendar.masked_start⟩

/-- What is valid stays valid. -/
def KeepsValid (c : Cartridge) (_ : Array Record) (c' : Cartridge) : Prop := c.Valid → c'.Valid

theorem keepsValid_onController {α : Type} {x : Exec Mbc3 α} {fallback : Exec Cartridge α}
    (hx : Exec.Always Mbc3.KeepsMasked x) (hf : Exec.Always KeepsValid fallback) :
    Exec.Always KeepsValid (onController x fallback)
  | ⟨_, .mbc3 m⟩, h => ⟨h.size, fun m' hm ↦ by
      cases hm
      exact hx m (h.calendar m rfl)⟩
  | ⟨image, .plain⟩, h => hf ⟨image, .plain⟩ h

theorem keepsValid_control {operation : UInt8 → Exec Mbc3 Unit}
    (h : ∀ value, Exec.Always Mbc3.KeepsMasked (operation value)) (ignored : IgnoredControl)
    (value : UInt8) : Exec.Always KeepsValid (control operation ignored value) :=
  keepsValid_onController (h value) fun _ h ↦ h

theorem keepsValid_write (addr : UInt16) (value : UInt8) :
    Exec.Always KeepsValid (write addr value) := by
  rw [write]
  split
  · exact keepsValid_onController (Mbc3.keepsMasked_writeWindow addr value) fun _ h ↦ h
  · exact fun _ h ↦ h

variable {c : Cartridge}

theorem Valid.tickCalendar (h : c.Valid) : c.tickCalendar.Valid := by
  obtain ⟨image, _ | m⟩ := c
  · exact h
  · exact ⟨h.size, fun m' hm ↦ by
      cases hm
      exact (h.calendar m rfl).tick⟩

/-! ## What valid cartridges do -/

/-- A bank that the image does not have counts round those it has, so every bank is in the image. -/
theorem bankedIndex_lt {size : Nat} (h : imageBankSize ≤ size) (bank addr : UInt16) :
    bankedIndex size bank addr < size := by
  have hbanks : 1 ≤ size / imageBankSize := (Nat.one_le_div_iff (by decide)).2 h
  have hbank : bank.toNat % max (size / imageBankSize) 1 + 1 ≤ size / imageBankSize := by
    rw [Nat.max_eq_left hbanks]
    exact Nat.mod_lt _ hbanks
  have haddr : addr.toNat % imageBankSize < imageBankSize := Nat.mod_lt _ (by decide)
  calc bankedIndex size bank addr
    _ < bank.toNat % max (size / imageBankSize) 1 * imageBankSize + imageBankSize :=
      Nat.add_lt_add_left haddr _
    _ = (bank.toNat % max (size / imageBankSize) 1 + 1) * imageBankSize := (Nat.succ_mul _ _).symm
    _ ≤ size / imageBankSize * imageBankSize := Nat.mul_le_mul_right _ hbank
    _ ≤ size := Nat.div_mul_le_self _ _

theorem bankedIndex_inRange {size : Nat} (h : imageBankSize ≤ size) (bank addr : UInt16) :
    Checked.bankedIndex size bank addr =
      some ⟨bankedIndex size bank addr, bankedIndex_lt h bank addr⟩ := by
  have hbank := bank.toNat_lt
  have hmod : bank.toNat % max (size / imageBankSize) 1 ≤ bank.toNat := Nat.mod_le _ _
  have haddr : addr.toNat % imageBankSize < 0x4000 := Nat.mod_lt _ (by decide)
  have hbase : bank.toNat % max (size / imageBankSize) 1 * imageBankSize ≤ 2 ^ 16 * 0x4000 :=
    Nat.mul_le_mul (by omega) (by decide)
  have hrem := Checked.modIndex_of_ne (x := bank.toNat) (y := max (size / imageBankSize) 1)
    (by omega)
  have hmul := Checked.mulIndex_of_lt (x := bank.toNat % max (size / imageBankSize) 1)
    (y := imageBankSize) (by omega)
  have hadd : Checked.addIndex (bank.toNat % max (size / imageBankSize) 1 * imageBankSize)
      (addr.toNat % imageBankSize) = some (bankedIndex size bank addr) :=
    Checked.addIndex_of_lt (by omega)
  simp only [Checked.bankedIndex, hrem, hmul, hadd, Option.bind_eq_bind, Option.bind_some]
  exact Checked.entry_of_lt (bankedIndex_lt h bank addr)

/-- No access to a valid cartridge is out of bounds. -/
theorem Valid.read_inRange (h : c.Valid) (addr : UInt16) :
    Checked.readCartridge c addr = some (c.read addr) := by
  rw [Checked.readCartridge, read]
  split
  · rename_i haddr
    have hlt : addr.toNat < c.image.size :=
      Nat.lt_of_lt_of_le (UInt16.lt_iff_toNat_lt.1 haddr) h.size
    rw [Checked.entry_of_lt hlt, Array.getElem?_eq_getElem hlt]
    rfl
  split
  · rw [bankedIndex_inRange h.size, Array.getElem?_eq_getElem (bankedIndex_lt h.size _ _)]
    rfl
  split
  · rename_i hext
    cases c.controller with
    | plain => rfl
    | mbc3 m =>
      dsimp only
      rw [Mbc3.readWindow_inRange hext]
      rfl
  · rfl

theorem write_inRange (addr : UInt16) (value : UInt8) (c : Cartridge) :
    Checked.writeCartridge addr value c = some (write addr value c) := by
  rw [Checked.writeCartridge]
  split
  · rename_i m hext hm
    obtain ⟨image, controller⟩ := c
    obtain rfl : controller = .mbc3 m := hm
    rw [Mbc3.writeWindow_inRange hext, write, if_pos hext]
    rfl
  · rfl

/-- The calendar of a valid cartridge counts on without an overflow. -/
theorem Valid.tickCalendar_inRange (h : c.Valid) :
    Checked.tickCalendar c = some c.tickCalendar := by
  obtain ⟨image, _ | m⟩ := c
  · rfl
  · rw [Checked.tickCalendar, (h.calendar m rfl).tick_inRange]
    rfl

end Cartridge

end DotMatrix
