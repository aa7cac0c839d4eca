import DotMatrix.Word

/-!
# Colours and palettes

A palette table is 64 bytes: eight palettes of four colours, each colour a little-endian word of
five bits per channel.  It is reached through an index register whose top bit makes the index move
on, round the table, after every byte written.
-/

set_option autoImplicit false

namespace DotMatrix

/-! ## Colours -/

/-- A colour as it is shown. -/
structure Color where
  red : UInt8
  green : UInt8
  blue : UInt8
  alpha : UInt8
  deriving DecidableEq

namespace Color

/-- Opaque black. -/
def black : Color := ⟨0, 0, 0, 0xff⟩

/-- No colour at all. -/
def clear : Color := ⟨0, 0, 0, 0⟩

/-- A five-bit channel spread over a byte. -/
def expand (channel : UInt8) : UInt8 := channel <<< 3 ||| channel >>> 2

/-- The opaque colour of a word that holds red in its lowest five bits, then green, then blue. -/
def ofRgb555 (word : UInt16) : Color where
  red := expand (word &&& 0x1f).toUInt8
  green := expand (word >>> 5 &&& 0x1f).toUInt8
  blue := expand (word >>> 10 &&& 0x1f).toUInt8
  alpha := 0xff

end Color

/-! ## Palette tables -/

/-- A palette table and its index register. -/
structure PaletteTable where
  data : Vector UInt8 64 := Vector.replicate 64 0
  index : UInt8 := 0

namespace PaletteTable

/-- The index register as it reads; bit 6 does not exist and reads as set. -/
def readIndex (t : PaletteTable) : UInt8 := t.index ||| 0x40

/-- The table after its index register was written. -/
def writeIndex (t : PaletteTable) (value : UInt8) : PaletteTable :=
  { t with index := value &&& 0xbf }

/-- The byte of the table at a position, counted round the table. -/
def entry (t : PaletteTable) (position : UInt8) : UInt8 :=
  t.data[position.toNat % 64]

/-- The byte that the index points at. -/
def readData (t : PaletteTable) : UInt8 := t.entry t.index

/-- The table after a byte was written where the index points, the index moving on if it is to. -/
def writeData (t : PaletteTable) (value : UInt8) : PaletteTable where
  data := t.data.set (t.index.toNat % 64) value
  index := if t.index &&& 0x80 = 0 then t.index else 0x80 ||| (t.index + 1 &&& 0x3f)

theorem entry_writeData (t : PaletteTable) (value position : UInt8) :
    (t.writeData value).entry position =
      if position.toNat % 64 = t.index.toNat % 64 then value else t.entry position := by
  simp only [entry, writeData, Vector.getElem_set, eq_comm]

/-- The word of colour `color` of palette `slot`; only the bits that tell four colours and eight
palettes apart count. -/
def fetch (t : PaletteTable) (slot color : UInt8) : UInt16 :=
  let position := (slot &&& 7) * 8 + (color &&& 3) * 2
  wordOfBytes (t.entry (position + 1)) (t.entry position)

end PaletteTable

/-- The two palette tables. -/
structure Palettes where
  background : PaletteTable := {}
  object : PaletteTable := {}

end DotMatrix
