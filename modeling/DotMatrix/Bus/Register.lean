/-!
# The registers of the machine

The addresses of the memory-mapped registers and the bits that their fields cover.
-/

set_option autoImplicit false

namespace DotMatrix.Register

/-! ## Addresses -/

/-- The joypad's select bits and lines. -/
def joypad : UInt16 := 0xff00

/-- The divider, which any write resets. -/
def divider : UInt16 := 0xff04

/-- The timer's counter. -/
def counter : UInt16 := 0xff05

/-- The byte that the counter restarts from. -/
def reload : UInt16 := 0xff06

/-- The timer's control byte. -/
def timerControl : UInt16 := 0xff07

/-- The interrupt requests. -/
def interruptRequest : UInt16 := 0xff0f

/-- The display's control byte. -/
def lcdControl : UInt16 := 0xff40

/-- The display's status byte. -/
def lcdStatus : UInt16 := 0xff41

/-- The vertical scroll position. -/
def scrollY : UInt16 := 0xff42

/-- The horizontal scroll position. -/
def scrollX : UInt16 := 0xff43

/-- The line being scanned. -/
def line : UInt16 := 0xff44

/-- The line to compare with. -/
def lineCompare : UInt16 := 0xff45

/-- The video memory bank. -/
def videoBank : UInt16 := 0xff4f

/-- The index into the background palettes. -/
def backgroundIndex : UInt16 := 0xff68

/-- The background palettes' data. -/
def backgroundData : UInt16 := 0xff69

/-- The index into the object palettes. -/
def objectIndex : UInt16 := 0xff6a

/-- The object palettes' data. -/
def objectData : UInt16 := 0xff6b

/-- The work memory bank. -/
def workBank : UInt16 := 0xff70

/-- The enabled interrupts. -/
def interruptEnable : UInt16 := 0xffff

/-! ## Fields -/

/-- The bits of the interrupt registers that stand for a source. -/
def interruptFields : UInt8 := 0x1f

/-- The bits of the display's control byte. -/
def lcdControlFields : UInt8 := 0xff

/-- The bits of the display's status byte. -/
def lcdStatusFields : UInt8 := 0x7f

/-- The bits of the timer's control byte. -/
def timerControlFields : UInt8 := 0x07

/-- The bit of the display's control byte that turns the display on. -/
def displayOn : UInt8 := 0x80

/-- The bit of the display's control byte that chooses the second tile map. -/
def secondTileMap : UInt8 := 0x08

/-- The bit of the timer's control byte that makes the counter run. -/
def counterOn : UInt8 := 0x04

/-- The bit of the display's status byte that lets a line match raise an interrupt. -/
def matchInterrupt : UInt8 := 0x40

/-- The bit of the display's status byte that shows a line match. -/
def lineMatch : UInt8 := 0x04

end DotMatrix.Register
