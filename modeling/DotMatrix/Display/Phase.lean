/-!
# Phases of the display

A visible line is scanned for sprites, drawn and then followed by a horizontal blank; 144 of them
make a picture, and ten blank lines follow it.  Durations are in clock cycles.
-/

set_option autoImplicit false

namespace DotMatrix

/-- What the display is doing. -/
inductive Phase where
  | hblank | vblank | oamScan | drawing
  deriving DecidableEq

namespace Phase

/-- The mode bits that the status register shows in a phase. -/
def code : Phase → UInt8
  | .hblank => 0
  | .vblank => 1
  | .oamScan => 2
  | .drawing => 3

/-- The name of a phase in log records. -/
def name : Phase → String
  | .hblank => "HBlank"
  | .vblank => "VBlank"
  | .oamScan => "OamScan"
  | .drawing => "Drawing"

/-- The status register's bit that lets the start of a phase raise an interrupt; drawing has
none. -/
def interruptBit : Phase → UInt8
  | .hblank => 0x08
  | .vblank => 0x10
  | .oamScan => 0x20
  | .drawing => 0

end Phase

/-- The time spent scanning for sprites. -/
def oamScanCycles : Nat := 80

/-- The time spent drawing. -/
def drawingCycles : Nat := 172

/-- The time of a horizontal blank. -/
def hblankCycles : Nat := 204

/-- The time of a whole line. -/
def lineCycles : Nat := oamScanCycles + drawingCycles + hblankCycles

/-- The lines of a picture. -/
def visibleLines : Nat := 144

/-- The lines of a frame, blank ones included. -/
def totalLines : Nat := 154

/-- The time of a whole frame. -/
def frameCycles : Nat := lineCycles * totalLines

end DotMatrix
