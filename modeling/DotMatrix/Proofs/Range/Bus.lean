import DotMatrix.Proofs.Range.Cartridge

/-!
# The bus stays in range

Every range of addresses is taken to a place in its memory by subtracting where the range begins,
after which the banks are counted off.  The two palettes are reached through an index of six bits.

* `place_inRange` — every address selects its place, whatever the bank registers hold.
* `Bus.read_inRange`, `Bus.write_inRange` — on a valid cartridge every read and every write is in
  bounds.
-/

set_option autoImplicit false

namespace DotMatrix

namespace Checked

/-! ## Places -/

/-- The place of an address in a bank of video memory. -/
def videoIndex (bank : UInt8) (addr : UInt16) : Option (Fin 0x4000) := do
  let base ← mulIndex (bank &&& 1).toNat 0x2000
  let offset ← subWord addr 0x8000
  entry 0x4000 (← addIndex base offset.toNat)

/-- The place of an address in work memory; the lower half is always bank 0. -/
def workIndex (b : Bus) (addr : UInt16) : Option (Fin 0x8000) :=
  if addr < 0xd000 then do
    let offset ← subWord addr 0xc000
    entry 0x8000 offset.toNat
  else do
    let base ← mulIndex b.workBank.toNat 0x1000
    let offset ← subWord addr 0xd000
    entry 0x8000 (← addIndex base offset.toNat)

/-- What an address selects. -/
def place (b : Bus) (addr : UInt16) : Option Place :=
  if addr < 0x8000 then some .image
  else if addr < 0xa000 then do
    return .cell (.video (← videoIndex b.videoBank addr))
  else if addr < 0xc000 then some .external
  else if addr < 0xe000 then do
    return .cell (.work (← workIndex b addr))
  else if addr < 0xfe00 then do
    let echoed ← subWord addr 0x2000
    return .cell (.work (← workIndex b echoed))
  else if addr < 0xfea0 then do
    let offset ← subWord addr 0xfe00
    return .cell (.sprite (← entry 160 offset.toNat))
  else if addr < 0xff00 then some .nothing
  else some .register

/-- The stored byte of a register. -/
def register (b : Bus) (addr : UInt16) : Option UInt8 := do
  return b.registers[← entry 256 (addr &&& 0xff).toNat]

/-- The bus after a register was written without the rules for programs. -/
def setRegister (b : Bus) (addr : UInt16) (value : UInt8) : Option Bus := do
  let i ← entry 256 (addr &&& 0xff).toNat
  return { b with registers := b.registers.set i.val value }

/-- The byte at an address of an explicit bank of video memory. -/
def videoByte (b : Bus) (bank : UInt8) (addr : UInt16) : Option UInt8 := do
  return b.video.get (← videoIndex bank addr)

/-! ## Palettes -/

/-- The byte that the index points at. -/
def readData (t : PaletteTable) : Option UInt8 := do
  return t.data[← entry 64 (t.index &&& 0x3f).toNat]

/-- The table after a byte was written where the index points, the index moving on if it is to. -/
def writeData (t : PaletteTable) (value : UInt8) : Option PaletteTable := do
  let address := t.index &&& 0x3f
  let i ← entry 64 address.toNat
  let data := t.data.set i.val value
  if t.index &&& 0x80 = 0 then return { data := data, index := t.index }
  else
    let next ← addByte address 1
    return { data := data, index := 0x80 ||| next % 64 }

/-- The word of colour `color` of palette `slot`. -/
def fetch (t : PaletteTable) (slot color : UInt8) : Option UInt16 := do
  let first ← addByte (← mulByte (slot &&& 7) 8) (← mulByte (color &&& 3) 2)
  let low ← entry 64 first.toNat
  let high ← entry 64 (← addIndex first.toNat 1)
  return wordOfBytes t.data[high] t.data[low]

/-! ## Reading and writing -/

/-- A register as programs read it. -/
def readRegister (b : Bus) (addr : UInt16) : Option UInt8 := do
  if addr = Register.joypad then return b.joypad.register (← register b Register.joypad)
  else if addr = Register.backgroundIndex then return b.palettes.background.readIndex
  else if addr = Register.backgroundData then readData b.palettes.background
  else if addr = Register.objectIndex then return b.palettes.object.readIndex
  else if addr = Register.objectData then readData b.palettes.object
  else register b addr

/-- Write a register as programs do. -/
def writeRegister (addr : UInt16) (value : UInt8) (b : Bus) : Option (Outcome Bus Unit) := do
  if addr = Register.joypad then
    let kept := (← register b Register.joypad) &&& 0xcf
    let stored ← setRegister b Register.joypad (kept ||| value &&& 0x30)
    return ⟨.ok (), stored, if value &&& 0x30 = 0 then #[.notice .bothGroupsSelected] else #[]⟩
  else if addr = Register.divider then
    return ⟨.ok (), ← setRegister b Register.divider 0, #[]⟩
  else if addr = Register.lcdStatus then
    let kept := (← register b Register.lcdStatus) &&& 0x07
    return ⟨.ok (), ← setRegister b Register.lcdStatus (0x80 ||| value &&& 0x78 ||| kept), #[]⟩
  else if addr = Register.interruptRequest then
    return ⟨.ok (), ← setRegister b Register.interruptRequest (0xe0 ||| value), #[]⟩
  else if addr = Register.line then
    return ⟨.ok (), b, #[.notice (.lineWriteDropped value)]⟩
  else if addr = Register.backgroundIndex then
    let table := b.palettes.background.writeIndex value
    return ⟨.ok (), b.modifyPalettes fun p ↦ { p with background := table }, #[]⟩
  else if addr = Register.backgroundData then
    let table ← writeData b.palettes.background value
    return ⟨.ok (), b.modifyPalettes fun p ↦ { p with background := table }, #[]⟩
  else if addr = Register.objectIndex then
    let table := b.palettes.object.writeIndex value
    return ⟨.ok (), b.modifyPalettes fun p ↦ { p with object := table }, #[]⟩
  else if addr = Register.objectData then
    let table ← writeData b.palettes.object value
    return ⟨.ok (), b.modifyPalettes fun p ↦ { p with object := table }, #[]⟩
  else return ⟨.ok (), ← setRegister b addr value, #[]⟩

/-- The byte at an address. -/
def read (b : Bus) (addr : UInt16) : Option (Except Fault UInt8) := do
  match ← place b addr with
  | .image | .external => readCartridge b.cartridge addr
  | .cell c => return .ok (b.cell c)
  | .register => return .ok (← readRegister b addr)
  | .nothing => return .error (.outOfBounds addr)

/-- Write a byte as programs do. -/
def write (addr : UInt16) (value : UInt8) (b : Bus) : Option (Outcome Bus Unit) := do
  match ← place b addr with
  | .image => return Bus.control addr value b
  | .external =>
    let o ← writeCartridge addr value b.cartridge
    return ⟨o.result, { b with cartridge := o.state }, o.records⟩
  | .cell c => return ⟨.ok (), b.setCell c value, #[]⟩
  | .register => writeRegister addr value b
  | .nothing => return ⟨.error (.outOfBounds addr), b, #[]⟩

/-- What comes out in both cases comes out. -/
theorem ite_eq_some {σ α : Type} {c : Prop} [Decidable c] {x y : Option (Outcome σ α)}
    {f g : Exec σ α} {s : σ} (hx : x = some (f s)) (hy : y = some (g s)) :
    (if c then x else y) = some ((if c then f else g) s) := by
  split
  · exact hx
  · exact hy

end Checked

/-! ## Palettes -/

namespace PaletteTable

/-- An index of six bits is a place in the table. -/
theorem toNat_and_index (x : UInt8) : (x &&& 0x3f).toNat = x.toNat % 64 := by
  rw [UInt8.toNat_and]
  exact Nat.and_two_pow_sub_one_eq_mod x.toNat 6

theorem entry_inRange (x : UInt8) : Checked.entry 64 (x &&& 0x3f).toNat =
    some ⟨x.toNat % 64, Nat.mod_lt _ (by decide)⟩ := by
  rw [toNat_and_index]
  exact Checked.entry_of_lt _

theorem readData_inRange (t : PaletteTable) : Checked.readData t = some t.readData := by
  rw [Checked.readData, entry_inRange]
  rfl

theorem writeData_inRange (t : PaletteTable) (value : UInt8) :
    Checked.writeData t value = some (t.writeData value) := by
  have hlt : (t.index &&& 0x3f).toNat + (1 : UInt8).toNat < 2 ^ 8 := by
    rw [toNat_and_index, UInt8.toNat_one]
    omega
  have hnext : ∀ x : UInt8, ((x &&& 0x3f) + 1) % 64 = x + 1 &&& 0x3f :=
    forall_byte (by decide +kernel)
  simp only [Checked.writeData, entry_inRange, Checked.addByte_of_lt hlt, Option.bind_eq_bind,
    Option.bind_some, hnext, writeData]
  split <;> rfl

/-- The two bytes of a colour lie in the table. -/
theorem fetch_inRange (t : PaletteTable) (slot color : UInt8) :
    Checked.fetch t slot color = some (t.fetch slot color) := by
  have hslot : (slot &&& 7).toNat ≤ 7 := by
    rw [UInt8.toNat_and]
    exact Nat.and_le_right
  have hcolor : (color &&& 3).toNat ≤ 3 := by
    rw [UInt8.toNat_and]
    exact Nat.and_le_right
  have h1 : (slot &&& 7).toNat * (8 : UInt8).toNat < 2 ^ 8 := by
    rw [show (8 : UInt8).toNat = 8 from rfl]
    omega
  have h2 : (color &&& 3).toNat * (2 : UInt8).toNat < 2 ^ 8 := by
    rw [show (2 : UInt8).toNat = 2 from rfl]
    omega
  have hn1 : ((slot &&& 7) * 8).toNat = (slot &&& 7).toNat * 8 := Checked.toNat_mulByte h1
  have hn2 : ((color &&& 3) * 2).toNat = (color &&& 3).toNat * 2 := Checked.toNat_mulByte h2
  have h3 : ((slot &&& 7) * 8).toNat + ((color &&& 3) * 2).toNat < 2 ^ 8 := by omega
  let first := (slot &&& 7) * 8 + (color &&& 3) * 2
  have hfirst : first.toNat < 63 := by
    rw [show first.toNat = _ from Checked.toNat_addByte h3]
    omega
  have hnext : (first + 1).toNat = first.toNat + 1 :=
    Checked.toNat_addByte (Nat.lt_of_lt_of_le (Nat.add_lt_add_right hfirst _) (by decide))
  have hlow : Checked.entry 64 first.toNat = some ⟨first.toNat % 64, Nat.mod_lt _ (by decide)⟩ :=
    Checked.entry_of_eq (Nat.mod_eq_of_lt (by omega)).symm
  have hhigh : Checked.entry 64 (first.toNat + 1) =
      some ⟨(first + 1).toNat % 64, Nat.mod_lt _ (by decide)⟩ :=
    Checked.entry_of_eq (hnext.symm.trans (Nat.mod_eq_of_lt (by omega)).symm)
  have hindex : Checked.addIndex first.toNat 1 = some (first.toNat + 1) :=
    Checked.addIndex_of_lt (by omega)
  simp only [Checked.fetch, Checked.mulByte_of_lt h1, Checked.mulByte_of_lt h2,
    Checked.addByte_of_lt h3, Option.bind_eq_bind, Option.bind_some]
  rw [hlow, hindex, Option.bind_some, Option.bind_some, hhigh]
  rfl

end PaletteTable

/-! ## Places -/

namespace Bus

theorem videoIndex_inRange (bank : UInt8) {addr : UInt16} (hge : 0x8000 ≤ addr)
    (hlt : addr < 0xa000) : Checked.videoIndex bank addr = some (videoIndex bank addr) := by
  have hbank : (bank &&& 1).toNat ≤ 1 := by
    rw [UInt8.toNat_and]
    exact Nat.and_le_right
  have hge' : 32768 ≤ addr.toNat := UInt16.le_iff_toNat_le.1 hge
  have hlt' : addr.toNat < 40960 := UInt16.lt_iff_toNat_lt.1 hlt
  have hoffset : (addr - 0x8000).toNat = addr.toNat - 32768 := UInt16.toNat_sub_of_le _ _ hge
  have hmul : Checked.mulIndex (bank &&& 1).toNat 0x2000 = some ((bank &&& 1).toNat * 0x2000) :=
    Checked.mulIndex_of_lt (by omega)
  have hsum : (bank &&& 1).toNat * 0x2000 + (addr - 0x8000).toNat < 0x4000 := by omega
  have hadd : Checked.addIndex ((bank &&& 1).toNat * 0x2000) (addr - 0x8000).toNat =
      some ((bank &&& 1).toNat * 0x2000 + (addr - 0x8000).toNat) :=
    Checked.addIndex_of_lt (by omega)
  simp only [Checked.videoIndex, hmul, Checked.subWord_of_le hge, hadd, Option.bind_eq_bind,
    Option.bind_some, Checked.entry_of_lt hsum, videoIndex, Nat.mod_eq_of_lt hsum]

theorem workBank_le (b : Bus) : b.workBank.toNat ≤ 7 := by
  have hand : (b.register Register.workBank &&& 7).toNat ≤ 7 := by
    rw [UInt8.toNat_and]
    exact Nat.and_le_right
  rw [workBank]
  split
  · decide
  · exact hand

theorem workIndex_inRange (b : Bus) {addr : UInt16} (hge : 0xc000 ≤ addr) (hlt : addr < 0xe000) :
    Checked.workIndex b addr =
      some (workIndex (if addr < 0xd000 then 0 else b.workBank) addr) := by
  have hge' : 49152 ≤ addr.toNat := UInt16.le_iff_toNat_le.1 hge
  have hlt' : addr.toNat < 57344 := UInt16.lt_iff_toNat_lt.1 hlt
  rw [Checked.workIndex]
  split
  · rename_i hlow
    have hlow' : addr.toNat < 53248 := UInt16.lt_iff_toNat_lt.1 hlow
    have hoffset : (addr - 0xc000).toNat = addr.toNat - 49152 := UInt16.toNat_sub_of_le _ _ hge
    rw [Checked.subWord_of_le hge, Option.bind_eq_bind, Option.bind_some]
    refine Checked.entry_of_eq ?_
    show _ = (0 &&& 7 : UInt8).toNat * 0x1000 + addr.toNat % 0x1000
    rw [show (0 &&& 7 : UInt8).toNat = 0 from rfl]
    omega
  · rename_i hhigh
    have hge₁ : 0xd000 ≤ addr := UInt16.not_lt.1 hhigh
    have hge₁' : 53248 ≤ addr.toNat := UInt16.le_iff_toNat_le.1 hge₁
    have hoffset : (addr - 0xd000).toNat = addr.toNat - 53248 := UInt16.toNat_sub_of_le _ _ hge₁
    have hbank := b.workBank_le
    have hand : (b.workBank &&& 7).toNat = b.workBank.toNat := by
      rw [UInt8.toNat_and]
      exact (Nat.and_two_pow_sub_one_eq_mod _ 3).trans (Nat.mod_eq_of_lt (by omega))
    have hmul : Checked.mulIndex b.workBank.toNat 0x1000 = some (b.workBank.toNat * 0x1000) :=
      Checked.mulIndex_of_lt (by omega)
    have hadd : Checked.addIndex (b.workBank.toNat * 0x1000) (addr - 0xd000).toNat =
        some (b.workBank.toNat * 0x1000 + (addr - 0xd000).toNat) :=
      Checked.addIndex_of_lt (by omega)
    simp only [hmul, Checked.subWord_of_le hge₁, hadd, Option.bind_eq_bind, Option.bind_some]
    refine Checked.entry_of_eq ?_
    show _ = (b.workBank &&& 7).toNat * 0x1000 + addr.toNat % 0x1000
    rw [hand]
    omega

/-- Every address selects its place, whatever the bank registers hold. -/
theorem place_inRange (b : Bus) (addr : UInt16) : Checked.place b addr = some (b.place addr) := by
  rw [Checked.place, place]
  split
  · rfl
  split
  · rename_i hge hlt
    rw [videoIndex_inRange _ (UInt16.not_lt.1 hge) hlt]
    rfl
  split
  · rfl
  split
  · rename_i hge hlt
    rw [workIndex_inRange _ (UInt16.not_lt.1 hge) hlt]
    rfl
  split
  · -- The echo lies one range below.
    rename_i hge hlt
    have hge' : 57344 ≤ addr.toNat := UInt16.le_iff_toNat_le.1 (UInt16.not_lt.1 hge)
    have hlt' : addr.toNat < 65024 := UInt16.lt_iff_toNat_lt.1 hlt
    have hsub : 0x2000 ≤ addr :=
      UInt16.le_iff_toNat_le.2 (Nat.le_trans (by decide : 8192 ≤ 57344) hge')
    have hecho : (addr - 0x2000).toNat = addr.toNat - 8192 := UInt16.toNat_sub_of_le _ _ hsub
    have hlow : 0xc000 ≤ addr - 0x2000 := by
      rw [UInt16.le_iff_toNat_le, hecho]
      show 49152 ≤ _
      omega
    have hhigh : addr - 0x2000 < 0xe000 := by
      rw [UInt16.lt_iff_toNat_lt, hecho]
      show _ < 57344
      omega
    rw [Checked.subWord_of_le hsub, Option.bind_eq_bind, Option.bind_some,
      workIndex_inRange b hlow hhigh]
    rfl
  split
  · rename_i hge hlt
    have hge' : 65024 ≤ addr.toNat := UInt16.le_iff_toNat_le.1 (UInt16.not_lt.1 hge)
    have hlt' : addr.toNat < 65184 := UInt16.lt_iff_toNat_lt.1 hlt
    have hoffset : (addr - 0xfe00).toNat = addr.toNat - 0xfe00 :=
      UInt16.toNat_sub_of_le _ _ (UInt16.not_lt.1 hge)
    have hentry : Checked.entry 160 (addr - 0xfe00).toNat =
        some ⟨(addr.toNat - 0xfe00) % 160, Nat.mod_lt _ (by decide)⟩ :=
      Checked.entry_of_eq (hoffset.trans (Nat.mod_eq_of_lt (by omega)).symm)
    rw [Checked.subWord_of_le (UInt16.not_lt.1 hge), Option.bind_eq_bind, Option.bind_some, hentry]
    rfl
  split <;> rfl

/-! ## Registers -/

theorem entry_register (addr : UInt16) :
    Checked.entry 256 (addr &&& 0xff).toNat = some ⟨addr.toUInt8.toNat, addr.toUInt8.toNat_lt⟩ := by
  have hand : (addr &&& 0xff).toNat = addr.toNat % 2 ^ 8 := by
    rw [UInt16.toNat_and]
    exact Nat.and_two_pow_sub_one_eq_mod addr.toNat 8
  exact Checked.entry_of_eq (hand.trans (UInt16.toNat_toUInt8 addr).symm)

theorem register_inRange (b : Bus) (addr : UInt16) :
    Checked.register b addr = some (b.register addr) := by
  rw [Checked.register, entry_register]
  rfl

theorem setRegister_inRange (b : Bus) (addr : UInt16) (value : UInt8) :
    Checked.setRegister b addr value = some (b.setRegister addr value) := by
  rw [Checked.setRegister, entry_register]
  rfl

theorem readRegister_inRange (b : Bus) (addr : UInt16) :
    Checked.readRegister b addr = some (b.readRegister addr) := by
  rw [Checked.readRegister, readRegister, register_inRange, register_inRange,
    PaletteTable.readData_inRange, PaletteTable.readData_inRange]
  repeat' split
  all_goals rfl

theorem writeRegister_inRange (addr : UInt16) (value : UInt8) (b : Bus) :
    Checked.writeRegister addr value b = some (writeRegister addr value b) := by
  simp only [Checked.writeRegister, register_inRange, setRegister_inRange,
    PaletteTable.writeData_inRange, Option.bind_eq_bind, Option.bind_some]
  refine Checked.ite_eq_some (by rw [writeJoypad_apply]; rfl) ?_
  refine Checked.ite_eq_some rfl (Checked.ite_eq_some rfl (Checked.ite_eq_some rfl ?_))
  refine Checked.ite_eq_some rfl (Checked.ite_eq_some rfl (Checked.ite_eq_some rfl ?_))
  exact Checked.ite_eq_some rfl (Checked.ite_eq_some rfl rfl)

/-! ## Reading and writing -/

/-- On a valid cartridge every read is in bounds. -/
theorem read_inRange {b : Bus} (h : b.cartridge.Valid) (addr : UInt16) :
    Checked.read b addr = some (b.read addr) := by
  rw [Checked.read, place_inRange, Option.bind_eq_bind, Option.bind_some, read]
  cases b.place addr with
  | image | external => exact h.read_inRange addr
  | cell c => rfl
  | register =>
    dsimp only
    rw [readRegister_inRange]
    rfl
  | nothing => rfl

/-- Every write is in bounds. -/
theorem write_inRange (addr : UInt16) (value : UInt8) (b : Bus) :
    Checked.write addr value b = some (write addr value b) := by
  rw [Checked.write, place_inRange, Option.bind_eq_bind, Option.bind_some, write]
  cases b.place addr with
  | image | cell | nothing => rfl
  | external =>
    dsimp only
    rw [Cartridge.write_inRange]
    rfl
  | register => exact writeRegister_inRange addr value b

/-! ## The cartridge stays valid -/

/-- A valid cartridge stays valid. -/
def KeepsValid (b : Bus) (_ : Array Record) (b' : Bus) : Prop :=
  b.cartridge.Valid → b'.cartridge.Valid

theorem keepsValid_onCartridge {α : Type} {x : Exec Cartridge α}
    (h : Exec.Always Cartridge.KeepsValid x) : Exec.Always KeepsValid (onCartridge x) :=
  fun b ↦ h b.cartridge

theorem keepsValid_control (addr : UInt16) (value : UInt8) :
    Exec.Always KeepsValid (control addr value) := by
  obtain ⟨operation, ignored, h, hc⟩ := exists_control addr value
  rw [hc]
  exact keepsValid_onCartridge (Cartridge.keepsValid_control h.keepsMasked ignored value)

theorem keepsValid_write (addr : UInt16) (value : UInt8) :
    Exec.Always KeepsValid (write addr value) := by
  intro b h
  rw [write]
  cases b.place addr with
  | image => exact keepsValid_control addr value b h
  | external => exact keepsValid_onCartridge (Cartridge.keepsValid_write addr value) b h
  | cell c => cases c <;> exact h
  | register =>
    dsimp only
    rwa [(registerWritten addr value b).cartridge]
  | nothing => exact h

end Bus

end DotMatrix
