import DotMatrix.Bus.Register
import DotMatrix.Cartridge.Basic
import DotMatrix.Display.Palette

/-!
# The bus

The address space that the processor sees.  `Bus.place` says what an address selects: the cartridge,
a cell of the machine's own memory, a register, or nothing.  Video and work memory are banked, so
which cell an address selects depends on the bank registers; a range of addresses echoes work
memory.

Reading changes nothing, so `Bus.read` is a plain function; what a read gives rise to report is
`Bus.readRecords`.  `Bus.write` stores with the access rules that programs are subject to, while
`Bus.setRegister` writes a register as the hardware that owns it does.
-/

set_option autoImplicit false

namespace DotMatrix

/-- A byte of the machine's own memory. -/
inductive Cell where
  | video (index : Fin 0x4000)
  | work (index : Fin 0x8000)
  | sprite (index : Fin 160)
  deriving DecidableEq

/-- What an address selects. -/
inductive Place where
  /-- The windows onto the cartridge's image, where writes control it. -/
  | image
  /-- The cartridge's external window. -/
  | external
  | cell (cell : Cell)
  | register
  | nothing
  deriving DecidableEq

/-- The address space with everything it holds. -/
structure Bus where
  cartridge : Cartridge
  video : Vector UInt8 0x4000 := Vector.replicate 0x4000 0
  work : Vector UInt8 0x8000 := Vector.replicate 0x8000 0
  sprites : Vector UInt8 160 := Vector.replicate 160 0
  /-- The registers at `0xff00` and above, and the fast memory between them. -/
  registers : Vector UInt8 256
  palettes : Palettes := {}
  joypad : Joypad := {}

namespace Bus

/-! ## Registers -/

/-- The stored byte of a register, without the rules for programs. -/
@[inline]
def register (b : Bus) (addr : UInt16) : UInt8 :=
  have h : addr.toUInt8.toNat < 256 := addr.toUInt8.toNat_lt
  b.registers[addr.toUInt8.toNat]

/-- The bus after a register was written without the rules for programs. -/
@[inline]
def setRegister (b : Bus) (addr : UInt16) (value : UInt8) : Bus :=
  { b with registers := b.registers.set addr.toUInt8.toNat value addr.toUInt8.toNat_lt }

@[simp]
theorem register_setRegister_self (b : Bus) (addr : UInt16) (value : UInt8) :
    (b.setRegister addr value).register addr = value := by
  simp only [register, setRegister, Vector.getElem_set_self]

theorem register_setRegister_of_ne (b : Bus) {x y : UInt16} (h : x.toUInt8 ≠ y.toUInt8)
    (value : UInt8) : (b.setRegister x value).register y = b.register y := by
  have h' : x.toUInt8.toNat ≠ y.toUInt8.toNat := fun e ↦ h (UInt8.toNat_inj.1 e)
  simp only [register, setRegister, Vector.getElem_set, h', if_false]

/-- The registers that do not start at zero, with the values they start with. -/
def startValues : List (UInt16 × UInt8) :=
  [(Register.joypad, 0xcf), (Register.timerControl, 0xf8), (Register.interruptRequest, 0xe1),
    (Register.lcdControl, 0x91), (Register.lcdStatus, 0x85), (0xff47, 0xfc), (0xff48, 0xff),
    (0xff49, 0xff), (Register.workBank, 0x01), (Register.interruptEnable, 0x00)]

/-- The bus as the machine starts with it. -/
def start (cartridge : Cartridge) : Bus :=
  startValues.foldl (fun b (addr, value) ↦ b.setRegister addr value)
    { cartridge, registers := Vector.replicate 256 0 }

/-! ## Places -/

/-- The bank of video memory that addresses select. -/
def videoBank (b : Bus) : UInt8 := b.register Register.videoBank &&& 1

/-- The bank of work memory that the upper half of its addresses selects; bank 0 stands for
bank 1. -/
def workBank (b : Bus) : UInt8 :=
  if b.register Register.workBank &&& 7 = 0 then 1 else b.register Register.workBank &&& 7

/-- The place of an address in a bank of video memory.  The banks lie behind one another, and
addresses count from the start of the first. -/
def videoIndex (bank : UInt8) (addr : UInt16) : Fin 0x4000 :=
  ⟨((bank &&& 1).toNat * 0x2000 + (addr - 0x8000).toNat) % 0x4000, by omega⟩

/-- The place of an address in a bank of work memory. -/
def workIndex (bank : UInt8) (addr : UInt16) : Fin 0x8000 :=
  ⟨(bank &&& 7).toNat * 0x1000 + addr.toNat % 0x1000, by
    have h : (bank &&& 7).toNat ≤ 7 := by rw [UInt8.toNat_and]; exact Nat.and_le_right
    omega⟩

/-- The cell of work memory that an address selects; the lower half is always bank 0. -/
def workCell (b : Bus) (addr : UInt16) : Cell :=
  .work (workIndex (if addr < 0xd000 then 0 else b.workBank) addr)

/-- What an address selects. -/
def place (b : Bus) (addr : UInt16) : Place :=
  if addr < 0x8000 then .image
  else if addr < 0xa000 then .cell (.video (videoIndex b.videoBank addr))
  else if addr < 0xc000 then .external
  else if addr < 0xe000 then .cell (b.workCell addr)
  else if addr < 0xfe00 then .cell (b.workCell (addr - 0x2000))
  else if addr < 0xfea0 then .cell (.sprite ⟨(addr.toNat - 0xfe00) % 160, by omega⟩)
  else if addr < 0xff00 then .nothing
  else .register

/-- The byte in a cell. -/
def cell (b : Bus) : Cell → UInt8
  | .video i => b.video[i.val]
  | .work i => b.work[i.val]
  | .sprite i => b.sprites[i.val]

/-- The bus after a byte was stored in a cell. -/
def setCell (b : Bus) (cell : Cell) (value : UInt8) : Bus :=
  match cell with
  | .video i => { b with video := b.video.set i.val value }
  | .work i => { b with work := b.work.set i.val value }
  | .sprite i => { b with sprites := b.sprites.set i.val value }

theorem cell_setCell (b : Bus) (x y : Cell) (value : UInt8) :
    (b.setCell x value).cell y = if y = x then value else b.cell y := by
  cases x <;> cases y <;> simp [setCell, cell, Vector.getElem_set, Fin.ext_iff, eq_comm]

/-- The byte at an address of an explicit bank of video memory. -/
def videoByte (b : Bus) (bank : UInt8) (addr : UInt16) : UInt8 :=
  b.video[(videoIndex bank addr).val]

/-! ## Reading -/

/-- A register as programs read it. -/
def readRegister (b : Bus) (addr : UInt16) : UInt8 :=
  if addr = Register.joypad then b.joypad.register (b.register Register.joypad)
  else if addr = Register.backgroundIndex then b.palettes.background.readIndex
  else if addr = Register.backgroundData then b.palettes.background.readData
  else if addr = Register.objectIndex then b.palettes.object.readIndex
  else if addr = Register.objectData then b.palettes.object.readData
  else b.register addr

/-- The byte at an address. -/
def read (b : Bus) (addr : UInt16) : Except Fault UInt8 :=
  match b.place addr with
  | .image | .external => b.cartridge.read addr
  | .cell c => .ok (b.cell c)
  | .register => .ok (b.readRegister addr)
  | .nothing => .error (.outOfBounds addr)

/-- What reading an address gives rise to report. -/
def readRecords (b : Bus) (addr : UInt16) : Array Record :=
  if isExternal addr then b.cartridge.readRecords addr else #[]

/-- Read a byte. -/
def load (addr : UInt16) : Exec Bus UInt8 := fun b ↦ ⟨b.read addr, b, b.readRecords addr⟩

/-! ## Writing -/

/-- An operation of the cartridge. -/
@[inline]
def onCartridge {α : Type} (x : Exec Cartridge α) : Exec Bus α
  | ⟨cartridge, video, work, sprites, registers, palettes, joypad⟩ =>
    match x cartridge with
    | ⟨r, cartridge', records⟩ =>
      ⟨r, ⟨cartridge', video, work, sprites, registers, palettes, joypad⟩, records⟩

/-- A write to the image's windows, which the cartridge's controller listens to: each quarter of
them is one control. -/
def control (addr : UInt16) (value : UInt8) : Exec Bus Unit :=
  if addr < 0x2000 then onCartridge (Cartridge.enable value)
  else if addr < 0x4000 then onCartridge (Cartridge.selectBank value)
  else if addr < 0x6000 then onCartridge (Cartridge.selectWindow value)
  else onCartridge (Cartridge.latch value)

/-- The bus with new palettes. -/
@[inline]
def modifyPalettes (f : Palettes → Palettes) (b : Bus) : Bus := { b with palettes := f b.palettes }

/-- Write the joypad register: only its select bits are stored. -/
def writeJoypad (value : UInt8) : Exec Bus Unit := do
  if value &&& 0x30 = 0 then Exec.report .bothGroupsSelected
  Exec.modify fun b ↦
    let kept := b.register Register.joypad &&& 0xcf
    b.setRegister Register.joypad (kept ||| value &&& 0x30)

/-- Write the display's status: only its interrupt bits are stored, and its top bit stays set. -/
def writeStatus (value : UInt8) (b : Bus) : Bus :=
  let kept := b.register Register.lcdStatus &&& 0x07
  b.setRegister Register.lcdStatus (0x80 ||| value &&& 0x78 ||| kept)

/-- Write a register as programs do. -/
def writeRegister (addr : UInt16) (value : UInt8) : Exec Bus Unit :=
  if addr = Register.joypad then writeJoypad value
  else if addr = Register.divider then Exec.modify (·.setRegister Register.divider 0)
  else if addr = Register.lcdStatus then Exec.modify (writeStatus value)
  else if addr = Register.interruptRequest then
    Exec.modify (·.setRegister Register.interruptRequest (0xe0 ||| value))
  else if addr = Register.line then Exec.report (.lineWriteDropped value)
  else if addr = Register.backgroundIndex then
    Exec.modify (modifyPalettes fun p ↦ { p with background := p.background.writeIndex value })
  else if addr = Register.backgroundData then
    Exec.modify (modifyPalettes fun p ↦ { p with background := p.background.writeData value })
  else if addr = Register.objectIndex then
    Exec.modify (modifyPalettes fun p ↦ { p with object := p.object.writeIndex value })
  else if addr = Register.objectData then
    Exec.modify (modifyPalettes fun p ↦ { p with object := p.object.writeData value })
  else Exec.modify (·.setRegister addr value)

/-- Write a byte as programs do. -/
def write (addr : UInt16) (value : UInt8) : Exec Bus Unit := fun b ↦
  match b.place addr with
  | .image => control addr value b
  | .external => onCartridge (Cartridge.write addr value) b
  | .cell c => ⟨.ok (), b.setCell c value, #[]⟩
  | .register => writeRegister addr value b
  | .nothing => ⟨.error (.outOfBounds addr), b, #[]⟩

/-! ## Interrupts -/

/-- Raise the request of a source. -/
def requestInterrupt (source : Interrupt) : Exec Bus Unit := do
  Exec.report (.interruptRequested source)
  Exec.modify fun b ↦
    let requests := b.register Register.interruptRequest
    b.setRegister Register.interruptRequest (requests ||| source.mask)

/-- Withdraw the request of a source. -/
def withdrawInterrupt (source : Interrupt) (b : Bus) : Bus :=
  let requests := b.register Register.interruptRequest
  b.setRegister Register.interruptRequest (requests &&& ~~~source.mask)

/-- A source as the request and enable registers show it. -/
def interruptStatus (b : Bus) (source : Interrupt) : InterruptStatus where
  source := source
  requested := b.register Register.interruptRequest &&& source.mask ≠ 0
  enabled := b.register Register.interruptEnable &&& source.mask ≠ 0

/-- The most urgent source that is both requested and enabled. -/
def pendingInterrupt? (b : Bus) : Option Interrupt :=
  Interrupt.all.find? fun source ↦ (b.interruptStatus source).isPending

end Bus

end DotMatrix
