import DotMatrix.Exec

/-!
# Cartridges

A cartridge is an image of read-only memory behind a controller.  The first 16 KiB of the image are
always mapped; a second window of that size shows a bank that the controller chooses, counted round
the banks the image has.  A third window shows external memory.

* A plain cartridge has no controller: its second window shows bank 1, its external window is empty
  and control writes are ignored.
* An `Mbc3` chooses among 127 banks, has four banks of RAM and a calendar, and opens its external
  window only while it is enabled.  The calendar is read through a copy that is latched by writing
  `0x00` and then `0x01`.
-/

set_option autoImplicit false

namespace DotMatrix

/-- The bytes in a bank of a cartridge image. -/
def imageBankSize : Nat := 0x4000

/-- A controller with banked RAM and a calendar. -/
structure Mbc3 where
  ram : Vector UInt8 0x8000 := Vector.replicate 0x8000 0
  bank : UInt8 := 1
  window : Window := .firstBank
  enabled : Bool := false
  /-- The running calendar. -/
  calendar : Calendar := {}
  /-- The copy through which the calendar is read. -/
  latched : Calendar := {}
  /-- The last latch write was `0x00`. -/
  latchArmed : Bool := false

/-- What stands between the machine and the image. -/
inductive Controller where
  | plain
  | mbc3 (state : Mbc3)

/-- A cartridge. -/
structure Cartridge where
  image : Array UInt8
  controller : Controller

/-- An address in the external window. -/
def isExternal (addr : UInt16) : Bool := 0xa000 ≤ addr && addr < 0xc000

namespace Mbc3

/-- The place in RAM that an address of the external window stands for while a bank is selected. -/
def ramIndex (bank : Fin 4) (addr : UInt16) : Fin 0x8000 :=
  ⟨bank.val * 0x2000 + addr.toNat % 0x2000, by have := bank.isLt; omega⟩

/-- The external window as it reads. -/
def readWindow (m : Mbc3) (addr : UInt16) : UInt8 :=
  if m.enabled then
    match m.window with
    | .bank n => m.ram.get (ramIndex n addr)
    | .calendar f => m.latched.get f
  else 0xff

/-- Write to the external window; what is written to the calendar goes to the running one. -/
def writeWindow (addr : UInt16) (value : UInt8) : Exec Mbc3 Unit := fun m ↦
  if m.enabled then
    match m.window with
    | .bank n =>
      let i := ramIndex n addr
      ⟨.ok (), { m with ram := m.ram.set i.val value i.isLt }, #[]⟩
    | .calendar f => ⟨.ok (), { m with calendar := m.calendar.set f value }, #[]⟩
  else ⟨.ok (), m, #[.notice (.disabledRamWrite value addr)]⟩

/-- Open the external window if the low half of the byte is `0xa`, and close it otherwise. -/
def enable (value : UInt8) : Exec Mbc3 Unit := do
  let enabled : Bool := value &&& 0x0f = 0x0a
  Exec.modify fun m ↦ { m with enabled := enabled }
  Exec.report (.ramEnabled enabled)

/-- Choose the bank of the switchable window from the low seven bits; bank 0 stands for bank 1. -/
def selectBank (value : UInt8) : Exec Mbc3 Unit := do
  let bank := if value &&& 0x7f = 0 then 1 else value &&& 0x7f
  Exec.modify fun m ↦ { m with bank := bank }
  Exec.report (.romBankSelected bank)

/-- Choose what the external window shows. -/
def selectWindow (value : UInt8) : Exec Mbc3 Unit :=
  match Window.ofCode? value with
  | some window => do
    Exec.modify fun m ↦ { m with window := window }
    Exec.report (.windowSelected window)
  | none => Exec.fail (.invalidRamBank value)

/-- Take a step of the latch sequence: `0x00` arms the latch, `0x01` springs an armed one, and any
other byte disarms it. -/
def latch (value : UInt8) : Exec Mbc3 Unit := fun m ↦
  if value = 0x00 then ⟨.ok (), { m with latchArmed := true }, #[]⟩
  else if value = 0x01 ∧ m.latchArmed then
    ⟨.ok (), { m with latched := m.calendar, latchArmed := false },
      #[.notice (.calendarLatched m.calendar)]⟩
  else ⟨.ok (), { m with latchArmed := false }, #[]⟩

end Mbc3

namespace Cartridge

/-- The name of the controller. -/
def name (c : Cartridge) : String :=
  match c.controller with
  | .plain => "ROM"
  | .mbc3 _ => "MBC3"

/-- The bank number chosen for the switchable window. -/
def bank (c : Cartridge) : UInt16 :=
  match c.controller with
  | .plain => 1
  | .mbc3 m => m.bank.toUInt16

/-- The code of what the external window shows. -/
def windowCode (c : Cartridge) : UInt8 :=
  match c.controller with
  | .plain => 0
  | .mbc3 m => m.window.code

/-- The place in an image of `size` bytes that an address of the switchable window stands for while
`bank` is chosen; a bank the image does not have counts round those it has. -/
def bankedIndex (size : Nat) (bank addr : UInt16) : Nat :=
  bank.toNat % max (size / imageBankSize) 1 * imageBankSize + addr.toNat % imageBankSize

/-! ## Reading -/

/-- The byte that an address of the image's two windows or the external window reads as. -/
def read (c : Cartridge) (addr : UInt16) : Except Fault UInt8 :=
  if addr < 0x4000 then
    match c.image[addr.toNat]? with
    | some byte => .ok byte
    | none => .error (.pastImage addr)
  else if addr < 0x8000 then
    match c.image[bankedIndex c.image.size c.bank addr]? with
    | some byte => .ok byte
    | none => .error (.outOfBounds addr)
  else if isExternal addr then
    match c.controller with
    | .plain => .ok 0xff
    | .mbc3 m => .ok (m.readWindow addr)
  else .error (.outOfBounds addr)

/-- What reading an address gives rise to report. -/
def readRecords (c : Cartridge) (addr : UInt16) : Array Record :=
  if isExternal addr then
    match c.controller with
    | .plain => #[.notice (.missingRamRead addr)]
    | .mbc3 m => if m.enabled then #[] else #[.notice (.disabledRamRead addr)]
  else #[]

/-! ## Writing and control -/

/-- An operation of the controller.  Without one, `fallback` is done instead. -/
@[inline]
def onController {α : Type} (x : Exec Mbc3 α) (fallback : Exec Cartridge α) : Exec Cartridge α
  | ⟨image, .mbc3 m⟩ =>
    match x m with
    | ⟨r, m', records⟩ => ⟨r, ⟨image, .mbc3 m'⟩, records⟩
  | ⟨image, .plain⟩ => fallback ⟨image, .plain⟩

/-- A control write that only a controller listens to. -/
@[inline]
def control (operation : UInt8 → Exec Mbc3 Unit) (ignored : IgnoredControl) (value : UInt8) :
    Exec Cartridge Unit :=
  onController (operation value) (Exec.report (.controlIgnored ignored value))

/-- Open or close the external window. -/
def enable : UInt8 → Exec Cartridge Unit := control Mbc3.enable .ramEnable

/-- Choose the bank of the switchable window. -/
def selectBank : UInt8 → Exec Cartridge Unit := control Mbc3.selectBank .romBank

/-- Choose what the external window shows. -/
def selectWindow : UInt8 → Exec Cartridge Unit := control Mbc3.selectWindow .ramBank

/-- Take a step of the latch sequence. -/
def latch : UInt8 → Exec Cartridge Unit := control Mbc3.latch .clockLatch

/-- Write to the external window, the only one that can be written. -/
def write (addr : UInt16) (value : UInt8) : Exec Cartridge Unit :=
  if isExternal addr then
    onController (Mbc3.writeWindow addr value) (Exec.report (.missingRamWrite value addr))
  else Exec.fail (.outOfBounds addr)

/-- A second passes for the calendar. -/
def tickCalendar (c : Cartridge) : Cartridge :=
  match c with
  | ⟨image, .mbc3 m⟩ => ⟨image, .mbc3 { m with calendar := m.calendar.tick }⟩
  | ⟨image, .plain⟩ => ⟨image, .plain⟩

/-! ## Choosing a controller -/

/-- A cartridge without a controller. -/
def plain (image : Array UInt8) : Cartridge := ⟨image, .plain⟩

/-- A cartridge with banked RAM and a calendar. -/
def mbc3 (image : Array UInt8) : Cartridge := ⟨image, .mbc3 {}⟩

/-- The cartridge that an image belongs to, by the type byte of its header.  The image must have at
least one bank. -/
def ofImage (image : Array UInt8) : Except Fault Cartridge :=
  if image.size < imageBankSize then .error (.cartridgeTooSmall image.size)
  else
    let kind := image[0x0147]?.getD 0
    if kind = 0x00 then .ok (plain image)
    else if 0x0f ≤ kind ∧ kind ≤ 0x13 then .ok (mbc3 image)
    else .error (.unsupportedCartridge kind)

end Cartridge

end DotMatrix
