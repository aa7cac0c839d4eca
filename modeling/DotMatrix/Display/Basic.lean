import DotMatrix.Display.Tile

/-!
# The display

The state of the display and how it draws a line.

The background is a surface of 256 by 256 pixels, of which the picture shows 160 by 144, scrolled
and wrapped round.  Drawing a line composes the row of the background under it and copies the
visible slice into the frame; presenting puts the finished frame on the screen.
-/

set_option autoImplicit false

namespace DotMatrix

/-- The pixels across the screen. -/
abbrev screenWidth : Nat := 160

/-- The pixels down the screen. -/
abbrev screenHeight : Nat := 144

/-- The pixels across and down the background. -/
abbrev backgroundSize : Nat := 256

/-- A row of the background. -/
abbrev BackgroundRow : Type := Vector Color backgroundSize

/-- A row of the picture. -/
abbrev PictureRow : Type := Vector Color screenWidth

/-- A picture. -/
abbrev Picture : Type := Vector PictureRow screenHeight

/-- The state of the display. -/
structure Display where
  phase : Phase := .hblank
  enabled : Bool := false
  /-- How often the display was turned on or off; what was planned in an earlier epoch is void. -/
  epoch : Nat := 0
  background : Vector BackgroundRow backgroundSize := Vector.replicate _ (Vector.replicate _ .black)
  /-- The picture that is being drawn. -/
  frame : Picture := Vector.replicate _ (Vector.replicate _ .black)
  /-- The picture that is shown. -/
  screen : Picture := Vector.replicate _ (Vector.replicate _ .clear)
  /-- The pictures shown so far. -/
  frames : Nat := 0

namespace Display

/-! ## Drawing a line -/

/-- The address of the tile map that the control byte chooses. -/
def tileMap (control : UInt8) : UInt16 :=
  if control &&& Register.secondTileMap = 0 then 0x9800 else 0x9c00

/-- The tile rows that cross row `y` of the background, from left to right. -/
def tileRows (b : Bus) (y : UInt8) : Vector TileRow 32 :=
  let rowAddress := tileMap (b.register Register.lcdControl) + y.toUInt16 / 8 * 32
  Vector.ofFn fun column ↦
    let addr := rowAddress + UInt16.ofNat column.val
    let attributes := TileAttributes.ofByte (b.videoByte 1 addr)
    TileRow.fetch b (b.videoByte 0 addr) attributes (y % 8)

/-- The colours of a pixel row of a tile. -/
def tileColors (b : Bus) (row : TileRow) : Vector Color 8 :=
  row.colors.map fun color ↦
    .ofRgb555 (b.palettes.background.fetch row.attributes.palette color)

/-- Row `y` of the background. -/
def backgroundRow (b : Bus) (y : UInt8) : BackgroundRow :=
  ((tileRows b y).map (tileColors b)).flatten

/-- The slice of a background row that is visible when scrolled by `scrollX`. -/
def visibleSlice (row : BackgroundRow) (scrollX : UInt8) : PictureRow :=
  Vector.ofFn fun x ↦
    have h : (x.val + scrollX.toNat) % backgroundSize < backgroundSize := Nat.mod_lt _ (by decide)
    row[(x.val + scrollX.toNat) % backgroundSize]

/-- The display after the line that the bus holds was drawn; below the picture nothing is drawn. -/
def drawLine (d : Display) (b : Bus) : Display :=
  let line := (b.register Register.line).toNat
  if h : line < screenHeight then
    let y := b.register Register.line + b.register Register.scrollY
    let row := backgroundRow b y
    { d with
      background := d.background.set y.toNat row y.toFin.isLt
      frame := d.frame.set line (visibleSlice row (b.register Register.scrollX)) h }
  else d

/-- The display after the finished frame was put on the screen. -/
def present (d : Display) : Display := { d with screen := d.frame, frames := d.frames + 1 }

end Display

end DotMatrix
