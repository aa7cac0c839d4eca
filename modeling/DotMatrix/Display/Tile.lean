import DotMatrix.Bus.Basic

/-!
# Tiles

A tile is eight rows of eight pixels.  A row takes two bytes, one bit of each making the two-bit
colour of a pixel, and a byte of attributes says which palette colours it, which bank it lies in and
whether it is flipped.
-/

set_option autoImplicit false

namespace DotMatrix

/-- The attributes of a tile, as their byte. -/
structure TileAttributes where
  bits : UInt8
  deriving DecidableEq

namespace TileAttributes

/-- The bits that mean something. -/
def fields : UInt8 := 0xef

/-- The attributes in a byte; bits that mean nothing are dropped. -/
def ofByte (b : UInt8) : TileAttributes := ⟨b &&& fields⟩

/-- The palette that colours the tile. -/
def palette (t : TileAttributes) : UInt8 := t.bits &&& 0x07

/-- The bank of video memory that holds the tile. -/
def bank (t : TileAttributes) : UInt8 := if t.bits &&& 0x08 = 0 then 0 else 1

/-- Whether rows are flipped left to right. -/
def flipX (t : TileAttributes) : Bool := t.bits &&& 0x20 ≠ 0

/-- Whether the tile is flipped top to bottom. -/
def flipY (t : TileAttributes) : Bool := t.bits &&& 0x40 ≠ 0

end TileAttributes

/-- A row of a tile: the two-bit colours of its pixels and the attributes of the tile. -/
structure TileRow where
  colors : Vector UInt8 8
  attributes : TileAttributes

namespace TileRow

/-- The row that two bytes of tile data stand for; the highest bits are the leftmost pixel. -/
def ofPlanes (low high : UInt8) (attributes : TileAttributes) : TileRow where
  colors := Vector.ofFn fun x ↦
    let bit := UInt8.ofNat (if attributes.flipX then x.val else 7 - x.val)
    (high >>> bit &&& 1) <<< 1 ||| low >>> bit &&& 1
  attributes := attributes

/-- The address of row `y` of tile `index`, counted from the bottom when the tile is flipped. -/
def address (index : UInt8) (attributes : TileAttributes) (y : UInt8) : UInt16 :=
  let row := if attributes.flipY then 7 - (y &&& 7) else y &&& 7
  0x8000 + index.toUInt16 * 16 + row.toUInt16 * 2

/-- Row `y` of tile `index`. -/
def fetch (b : Bus) (index : UInt8) (attributes : TileAttributes) (y : UInt8) : TileRow :=
  let addr := address index attributes y
  ofPlanes (b.videoByte attributes.bank addr) (b.videoByte attributes.bank (addr + 1)) attributes

end TileRow

end DotMatrix
