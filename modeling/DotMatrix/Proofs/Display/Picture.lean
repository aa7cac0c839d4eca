import DotMatrix.Display.Basic
import DotMatrix.Proofs.Memory.Slots

/-!
# What a line shows

A pixel of the background comes from the map cell it lies in: the cell's tile gives two bits, which
choose one of the four colours of the cell's palette.  `Bus.backgroundColor` says so in numbers, for
one pixel at a time and from video memory, the palettes and one bit of the control byte alone, and
`Bus.pictureRow` is a line of the picture made of such pixels.

* `getElem_backgroundRow` — the rows that are drawn are made of these pixels.
* `row_drawLine` — drawing a line puts it into its row of the frame, and leaves the others alone.
* `pictureRow_congr` — what a line shows depends on nothing else.
-/

set_option autoImplicit false

namespace DotMatrix

/-! ## Pixels -/

/-- The word of a colour of a palette: two bytes of the table, the low one first.  There are eight
palettes of four colours. -/
def PaletteTable.word (t : PaletteTable) (palette color : Nat) : UInt16 :=
  have h : 8 * (palette % 8) + 2 * (color % 4) + 1 < 64 := by omega
  wordOfBytes t.data[8 * (palette % 8) + 2 * (color % 4) + 1]
    t.data[8 * (palette % 8) + 2 * (color % 4)]

/-- The colour that two bits choose. -/
def colorOfBits (high low : Bool) : Nat := 2 * high.toNat + low.toNat

namespace Bus

/-- The byte at the address `n` of a bank of video memory. -/
def videoAt (b : Bus) (bank : UInt8) (n : Nat) : UInt8 :=
  b.byteIn (Slot.ofVideo (Slot.videoBank bank) n)

/-- The colour of the background at column `x` of row `y`. -/
def backgroundColor (b : Bus) (x y : Nat) : Color :=
  let map := if (b.register Register.lcdControl).toNat.testBit 3 then 0x9c00 else 0x9800
  let cell := map + 32 * (y / 8) + x / 8
  let index := (b.videoAt 0 cell).toNat
  let attributes := (b.videoAt 1 cell).toNat
  let row := if attributes.testBit 6 then 7 - y % 8 else y % 8
  let line := 0x8000 + 16 * index + 2 * row
  let bank := if attributes.testBit 3 then 1 else 0
  let bit := if attributes.testBit 5 then x % 8 else 7 - x % 8
  let high := (b.videoAt bank (line + 1)).toNat.testBit bit
  let low := (b.videoAt bank line).toNat.testBit bit
  .ofRgb555 (b.palettes.background.word attributes (colorOfBits high low))

/-- What a line of the picture shows: the background scrolled and wrapped round. -/
def pictureRow (b : Bus) (line : Nat) : PictureRow :=
  Vector.ofFn fun x ↦ b.backgroundColor ((x.val + (b.register Register.scrollX).toNat) % 256)
    ((line + (b.register Register.scrollY).toNat) % 256)

/-- A pixel depends on video memory, the palettes and one register. -/
theorem backgroundColor_congr {b b' : Bus} (hv : b'.video = b.video)
    (hp : b'.palettes = b.palettes)
    (hc : b'.register Register.lcdControl = b.register Register.lcdControl) (x y : Nat) :
    b'.backgroundColor x y = b.backgroundColor x y := by
  have hvideo : b'.videoAt = b.videoAt := by
    funext bank n
    simp only [videoAt, Slot.ofVideo, byteIn, Slot.cell, cell, hv]
  simp only [backgroundColor, hvideo, hp, hc]

/-- What a line shows depends on video memory, the palettes and three registers. -/
theorem pictureRow_congr {b b' : Bus} (hv : b'.video = b.video) (hp : b'.palettes = b.palettes)
    (hc : b'.register Register.lcdControl = b.register Register.lcdControl)
    (hx : b'.register Register.scrollX = b.register Register.scrollX)
    (hy : b'.register Register.scrollY = b.register Register.scrollY) (line : Nat) :
    b'.pictureRow line = b.pictureRow line := by
  simp only [pictureRow, backgroundColor_congr hv hp hc, hx, hy]

end Bus

/-! ## Attributes -/

namespace TileAttributes

variable (b : UInt8)

theorem toNat_palette_ofByte : (ofByte b).palette.toNat = b.toNat % 8 := by
  revert b
  exact forall_byte (by decide +kernel)

theorem bank_ofByte : (ofByte b).bank = if b.toNat.testBit 3 then 1 else 0 := by
  revert b
  exact forall_byte (by decide +kernel)

theorem flipX_ofByte : (ofByte b).flipX = b.toNat.testBit 5 := by
  revert b
  exact forall_byte (by decide +kernel)

theorem flipY_ofByte : (ofByte b).flipY = b.toNat.testBit 6 := by
  revert b
  exact forall_byte (by decide +kernel)

end TileAttributes

/-! ## Tiles -/

/-- A colour is found where its palette begins, two bytes for each colour before it. -/
theorem PaletteTable.fetch_eq (t : PaletteTable) (slot color : UInt8) :
    t.fetch slot color = t.word slot.toNat color.toNat := by
  have hslot := Bus.toNat_and_seven slot
  have hcolor : (color &&& 3).toNat = color.toNat % 4 := by
    rw [UInt8.toNat_and]
    exact Nat.and_two_pow_sub_one_eq_mod color.toNat 2
  let position := (slot &&& 7) * 8 + (color &&& 3) * 2
  have hlow : position.toNat % 64 = 8 * (slot.toNat % 8) + 2 * (color.toNat % 4) := by
    simp only [position, UInt8.toNat_add, UInt8.toNat_mul, hslot, hcolor, UInt8.reduceToNat]
    omega
  have hhigh : (position + 1).toNat % 64 = 8 * (slot.toNat % 8) + 2 * (color.toNat % 4) + 1 := by
    rw [UInt8.toNat_add, UInt8.toNat_one]
    omega
  show wordOfBytes (t.data[(position + 1).toNat % 64]) (t.data[position.toNat % 64]) = _
  simp only [hlow, hhigh]
  rfl

/-- A palette is chosen by three bits of the attributes. -/
theorem PaletteTable.word_ofByte (t : PaletteTable) (attributes : UInt8) (color : Nat) :
    t.word (TileAttributes.ofByte attributes).palette.toNat color =
      t.word attributes.toNat color := by
  simp only [word, TileAttributes.toNat_palette_ofByte, Nat.mod_mod]

namespace TileRow

/-- A bit of a byte, moved to the right and cut out. -/
theorem shift_and_one (x : UInt8) (k : Fin 8) :
    x >>> UInt8.ofNat k.val &&& 1 = if x.toNat.testBit k.val then 1 else 0 := by
  revert x k
  exact forall_byte (by decide +kernel)

/-- A pixel takes its two bits from one place in either byte. -/
theorem getElem_ofPlanes (low high : UInt8) (attributes : TileAttributes) {x : Nat} (hx : x < 8) :
    ((ofPlanes low high attributes).colors[x]).toNat =
      colorOfBits (high.toNat.testBit (if attributes.flipX then x else 7 - x))
        (low.toNat.testBit (if attributes.flipX then x else 7 - x)) := by
  have hbit : (if attributes.flipX then x else 7 - x) < 8 := by
    split <;> omega
  have hhigh := shift_and_one high ⟨_, hbit⟩
  have hlow := shift_and_one low ⟨_, hbit⟩
  dsimp only at hhigh hlow
  simp only [ofPlanes, Vector.getElem_ofFn, hhigh, hlow]
  cases high.toNat.testBit _ <;> cases low.toNat.testBit _ <;> rfl

/-- Tiles lie behind one another, and so do the rows of a tile. -/
theorem toNat_address (index : UInt8) (attributes : TileAttributes) (y : UInt8) :
    (address index attributes y).toNat = 0x8000 + 16 * index.toNat +
      2 * if attributes.flipY then 7 - y.toNat % 8 else y.toNat % 8 := by
  have hindex := index.toNat_lt
  have hy := Bus.toNat_and_seven y
  have hflipped : (7 - (y &&& 7)).toNat = 7 - y.toNat % 8 := by
    rw [UInt8.toNat_sub_of_le _ _ (UInt8.le_iff_toNat_le.2 ?_), hy]
    · rfl
    · rw [hy]
      show _ ≤ 7
      omega
  rw [address]
  split <;>
    simp only [UInt16.toNat_add, UInt16.toNat_mul, UInt8.toNat_toUInt16, UInt16.reduceToNat,
      hflipped, hy] <;>
    omega

end TileRow

namespace Display

/-! ## Rows -/

/-- A byte of an explicit bank of video memory. -/
theorem videoByte_eq_videoAt (b : Bus) (bank : UInt8) {addr : UInt16} {n : Nat}
    (h : addr.toNat = n) (hge : 0x8000 ≤ n) (hlt : n < 0xa000) :
    b.videoByte bank addr = b.videoAt bank n := by
  subst h
  exact b.videoByte_eq bank hge hlt

/-- A map has 32 cells a row, each for eight rows of the background. -/
theorem toNat_mapAddress (control y : UInt8) {column : Nat} (hcolumn : column < 32) :
    (tileMap control + y.toUInt16 / 8 * 32 + UInt16.ofNat column).toNat =
      (if control.toNat.testBit 3 then 0x9c00 else 0x9800) + 32 * (y.toNat / 8) + column := by
  have hy := y.toNat_lt
  have hmap : (tileMap control).toNat = if control.toNat.testBit 3 then 0x9c00 else 0x9800 := by
    revert control
    exact forall_byte (by decide +kernel)
  have hle : (tileMap control).toNat ≤ 0x9c00 := by
    rw [hmap]
    split <;> decide
  rw [← hmap]
  simp only [UInt16.toNat_add, UInt16.toNat_mul, UInt16.toNat_div, UInt8.toNat_toUInt16,
    UInt16.toNat_ofNat', UInt16.reduceToNat]
  omega

/-- The tile row in a column: its map cell names the tile and has the attributes. -/
theorem getElem_tileRows (b : Bus) (y : UInt8) {column : Nat} (hcolumn : column < 32) :
    let map := if (b.register Register.lcdControl).toNat.testBit 3 then 0x9c00 else 0x9800
    let cell := map + 32 * (y.toNat / 8) + column
    (tileRows b y)[column] =
      TileRow.fetch b (b.videoAt 0 cell) (.ofByte (b.videoAt 1 cell)) (y % 8) := by
  intro map cell
  have hy := y.toNat_lt
  have hmap : map = 0x9c00 ∨ map = 0x9800 := by
    dsimp only [map]
    split
    · exact Or.inl rfl
    · exact Or.inr rfl
  have haddr := toNat_mapAddress (b.register Register.lcdControl) y hcolumn
  have hindex := videoByte_eq_videoAt b 0 haddr (by omega) (by omega)
  have hattributes := videoByte_eq_videoAt b 1 haddr (by omega) (by omega)
  simp only [tileRows, Vector.getElem_ofFn, hindex, hattributes]
  rfl

/-- The colour of a pixel of a tile row. -/
theorem getElem_tileColors (b : Bus) (index attributes y : UInt8) {x : Nat} (hx : x < 8) :
    let row := if attributes.toNat.testBit 6 then 7 - y.toNat % 8 else y.toNat % 8
    let line := 0x8000 + 16 * index.toNat + 2 * row
    let bank := if attributes.toNat.testBit 3 then 1 else 0
    let bit := if attributes.toNat.testBit 5 then x else 7 - x
    (tileColors b (TileRow.fetch b index (.ofByte attributes) (y % 8)))[x] =
      .ofRgb555 (b.palettes.background.word attributes.toNat
        (colorOfBits ((b.videoAt bank (line + 1)).toNat.testBit bit)
          ((b.videoAt bank line).toNat.testBit bit))) := by
  intro row line bank bit
  have hindex := index.toNat_lt
  have hrow : row ≤ 7 := by
    dsimp only [row]
    split <;> omega
  have hy : (y % 8).toNat % 8 = y.toNat % 8 := by
    rw [UInt8.toNat_mod]
    exact Nat.mod_mod _ _
  have haddr : (TileRow.address index (.ofByte attributes) (y % 8)).toNat = line := by
    rw [TileRow.toNat_address, TileAttributes.flipY_ofByte, hy]
  have hnext : (TileRow.address index (.ofByte attributes) (y % 8) + 1).toNat = line + 1 := by
    rw [UInt16.toNat_add, haddr, UInt16.toNat_one]
    omega
  have hlow := videoByte_eq_videoAt b (TileAttributes.ofByte attributes).bank haddr
    (by omega) (by omega)
  have hhigh := videoByte_eq_videoAt b (TileAttributes.ofByte attributes).bank hnext
    (by omega) (by omega)
  rw [TileAttributes.bank_ofByte] at hlow hhigh
  rw [tileColors, Vector.getElem_map, PaletteTable.fetch_eq, TileRow.fetch]
  rw [TileRow.getElem_ofPlanes _ _ _ hx, TileAttributes.flipX_ofByte, TileAttributes.bank_ofByte,
    hlow, hhigh]
  exact congrArg Color.ofRgb555 (b.palettes.background.word_ofByte attributes _)

/-- **A row of the background is made of its pixels.** -/
theorem getElem_backgroundRow (b : Bus) (y : UInt8) {x : Nat} (hx : x < 256) :
    (backgroundRow b y)[x] = b.backgroundColor x y.toNat := by
  have hcolumn : x / 8 < 32 := by omega
  have htile : x % 8 < 8 := Nat.mod_lt _ (by decide)
  show (((tileRows b y).map (tileColors b)).flatten : Vector Color (32 * 8))[x] = _
  rw [Vector.getElem_flatten, Vector.getElem_map, getElem_tileRows b y hcolumn,
    getElem_tileColors b _ _ y htile]
  rfl

/-- The visible slice of a row is the row scrolled and wrapped round. -/
theorem visibleSlice_backgroundRow (b : Bus) (line : UInt8) :
    visibleSlice (backgroundRow b (line + b.register Register.scrollY))
      (b.register Register.scrollX) = b.pictureRow line.toNat := by
  refine Vector.ext fun x hx ↦ ?_
  rw [visibleSlice, Bus.pictureRow, Vector.getElem_ofFn, Vector.getElem_ofFn,
    getElem_backgroundRow, UInt8.toNat_add]

/-- **Drawing a visible line puts what it shows into its row of the frame** and leaves the others as
they are. -/
theorem row_drawLine (d : Display) (b : Bus) {y : Nat} (hy : y < screenHeight) :
    (d.drawLine b).frame[y] =
      if (b.register Register.line).toNat = y then b.pictureRow y else d.frame[y] := by
  rw [drawLine]
  dsimp only
  by_cases hline : (b.register Register.line).toNat < screenHeight
  · rw [dif_pos hline, Vector.getElem_set, visibleSlice_backgroundRow]
    split
    · rename_i h
      rw [h]
    · rfl
  · have hne : (b.register Register.line).toNat ≠ y := fun h ↦ hline (h ▸ hy)
    rw [dif_neg hline, if_neg hne]

/-- Drawing leaves the screen alone. -/
@[simp] theorem screen_drawLine (d : Display) (b : Bus) : (d.drawLine b).screen = d.screen := by
  rw [drawLine]
  split <;> rfl

end Display

end DotMatrix
