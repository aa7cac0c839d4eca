import DotMatrix.Display.Basic
import DotMatrix.Proofs.Range.Bus

/-!
# Drawing stays in range

A line is drawn from the tiles of one row of a map.  The addresses of the map and of the tiles are
words that stay within video memory, the bits of a pixel are taken from a byte, and every pixel has
a place on the background and, if it is visible, in the frame.  Those places are counted row by row
here, as they lie in memory.

* `Display.drawLine_inRange` — drawing a line stays in range, whatever the registers and video
  memory hold.
-/

set_option autoImplicit false

namespace DotMatrix

namespace Checked

/-! ## Tiles -/

/-- The row of a tile that is drawn as its row `y`. -/
def rowOfTile (attributes : TileAttributes) (y : UInt8) : Option UInt8 :=
  if attributes.flipY then subByte 7 (y &&& 7) else some (y &&& 7)

/-- The bit of the two planes that the pixel at `x` is taken from. -/
def bitOfPixel (attributes : TileAttributes) (x : Fin 8) : Option Nat :=
  if attributes.flipX then some x.val else subIndex 7 x.val

/-- The address of row `y` of tile `index`. -/
def tileAddress (index : UInt8) (attributes : TileAttributes) (y : UInt8) : Option UInt16 := do
  let row ← rowOfTile attributes y
  let tile ← addWord 0x8000 (← mulWord index.toUInt16 16)
  addWord tile (← mulWord row.toUInt16 2)

/-- The colour of a pixel of a tile row. -/
def pixel (low high : UInt8) (attributes : TileAttributes) (x : Fin 8) : Option UInt8 := do
  let bit ← bitOfPixel attributes x
  let lowBit := (← shiftRight low (UInt8.ofNat bit)) &&& 1
  let highBit := (← shiftRight high (UInt8.ofNat bit)) &&& 1
  return (← shiftLeft highBit 1) ||| lowBit

/-- Row `y` of tile `index`. -/
def tileRow (b : Bus) (index : UInt8) (attributes : TileAttributes) (y : UInt8) :
    Option TileRow := do
  let addr ← tileAddress index attributes y
  let low ← videoByte b attributes.bank addr
  let high ← videoByte b attributes.bank (← addWord addr 1)
  let colors ← Vector.ofFnM (pixel low high attributes)
  return ⟨colors, attributes⟩

/-- The address in a tile map for a column of row `y` of the background. -/
def mapAddress (map : UInt16) (y : UInt8) (column : Fin 32) : Option UInt16 := do
  let row ← addWord map (← mulWord (y.toUInt16 / 8) 32)
  addWord row (UInt16.ofNat column.val)

/-- The tile row in a column of row `y` of the background. -/
def mapRow (b : Bus) (y : UInt8) (column : Fin 32) : Option TileRow := do
  let addr ← mapAddress (Display.tileMap (b.register Register.lcdControl)) y column
  let attributes := TileAttributes.ofByte (← videoByte b 1 addr)
  tileRow b (← videoByte b 0 addr) attributes (y % 8)

/-! ## Lines -/

/-- The place on the background, of 256 rows of 256 pixels, of a pixel of the tile in a column of
row `y`. -/
def backgroundPlace (y : UInt8) (column : Fin 32) (x : Fin 8) : Option (Fin 0x10000) := do
  let start ← mulIndex y.toNat 256
  let left ← addIndex start (← mulIndex column.val 8)
  entry 0x10000 (← addIndex left x.val)

/-- The colour of a pixel of a tile row, which goes to its place on the background. -/
def tileColor (b : Bus) (row : TileRow) (y : UInt8) (column : Fin 32) (x : Fin 8) :
    Option Color := do
  let word ← fetch b.palettes.background row.attributes.palette row.colors[x]
  let _ ← backgroundPlace y column x
  return .ofRgb555 word

/-- Row `y` of the background. -/
def backgroundRow (b : Bus) (y : UInt8) : Option BackgroundRow := do
  let tiles ← Vector.ofFnM fun column ↦ do
    let row ← mapRow b y column
    Vector.ofFnM (tileColor b row y column)
  return tiles.flatten

/-- The column of the background that is seen in column `x` of the picture. -/
def visibleColumn (scrollX : UInt8) (x : Fin 160) : Option (Fin 256) := do
  let column ← modIndex (← addIndex x.val scrollX.toNat) 256
  entry 256 column

/-- The place on the background that is seen in column `x` of the picture. -/
def visiblePlace (y scrollX : UInt8) (x : Fin 160) : Option (Fin 0x10000) := do
  let start ← mulIndex y.toNat 256
  let column ← visibleColumn scrollX x
  entry 0x10000 (← addIndex start column.val)

/-- The place in the frame, of 144 lines of 160 pixels, of a pixel of a line. -/
def framePlace (line : Nat) (x : Fin 160) : Option (Fin 23040) := do
  let start ← mulIndex line 160
  entry 23040 (← addIndex start x.val)

/-- The slice of row `y` of the background that is visible in a line when scrolled by `scrollX`. -/
def visibleSlice (line : Nat) (y : UInt8) (row : BackgroundRow) (scrollX : UInt8) :
    Option PictureRow :=
  Vector.ofFnM fun x ↦ do
    let column ← visibleColumn scrollX x
    let _ ← visiblePlace y scrollX x
    let _ ← framePlace line x
    return row[column]

/-- The display after the line that the bus holds was drawn. -/
def drawLine (d : Display) (b : Bus) : Option Display :=
  let line := (b.register Register.line).toNat
  if h : line < screenHeight then do
    let y := b.register Register.line + b.register Register.scrollY
    let row ← backgroundRow b y
    let slice ← visibleSlice line y row (b.register Register.scrollX)
    let ⟨place, hp⟩ ← entry backgroundSize y.toNat
    return { d with
      background := d.background.set place row hp
      frame := d.frame.set line slice h }
  else some d

/-- What comes out for every place makes up a vector. -/
theorem ofFnM_eq {α : Type} {n : Nat} {f : Fin n → Option α} {g : Fin n → α}
    (h : ∀ i, f i = some (g i)) : Vector.ofFnM f = some (Vector.ofFn g) := by
  rw [show f = fun i ↦ pure (g i) from funext h]
  exact Vector.ofFnM_pure

end Checked

namespace TileRow

theorem pixel_inRange (low high : UInt8) (attributes : TileAttributes) (x : Fin 8) :
    Checked.pixel low high attributes x = some (ofPlanes low high attributes).colors[x] := by
  have hx := x.isLt
  have hbit : Checked.bitOfPixel attributes x =
      some (if attributes.flipX then x.val else 7 - x.val) := by
    rw [Checked.bitOfPixel]
    split
    · rfl
    · exact Checked.subIndex_of_le (by omega)
  have hlt : UInt8.ofNat (if attributes.flipX then x.val else 7 - x.val) < 8 := by
    rw [UInt8.lt_iff_toNat_lt, UInt8.toNat_ofNat']
    show _ < 8
    split <;> omega
  have hshift : ∀ y, Checked.shiftLeft y 1 = some (y <<< 1) :=
    fun _ ↦ Checked.shiftLeft_of_lt (by decide)
  simp only [Checked.pixel, hbit, Checked.shiftRight_of_lt hlt, hshift, Option.bind_eq_bind,
    Option.bind_some, ofPlanes, Fin.getElem_fin, Vector.getElem_ofFn]
  rfl

/-- Tile data lies in the first half of a bank of video memory. -/
theorem address_inRange (index : UInt8) (attributes : TileAttributes) (y : UInt8) :
    Checked.tileAddress index attributes y = some (address index attributes y) ∧
      0x8000 ≤ (address index attributes y).toNat ∧
      (address index attributes y).toNat + 1 < 0x9000 := by
  have hy : (y &&& 7).toNat ≤ 7 := by
    rw [UInt8.toNat_and]
    exact Nat.and_le_right
  let row := if attributes.flipY then 7 - (y &&& 7) else y &&& 7
  have hle : y &&& 7 ≤ 7 := UInt8.le_iff_toNat_le.2 hy
  have hrow : row.toNat ≤ 7 := by
    dsimp only [row]
    split
    · rw [UInt8.toNat_sub_of_le _ _ hle]
      exact Nat.sub_le _ _
    · exact hy
  have hrowOf : Checked.rowOfTile attributes y = some row := by
    dsimp only [row]
    rw [Checked.rowOfTile]
    split
    · exact Checked.subByte_of_le hle
    · rfl
  have hindex := index.toNat_lt
  have h1 : index.toUInt16.toNat * (16 : UInt16).toNat < 2 ^ 16 := by
    rw [UInt8.toNat_toUInt16, show (16 : UInt16).toNat = 16 from rfl]
    omega
  have h2 : row.toUInt16.toNat * (2 : UInt16).toNat < 2 ^ 16 := by
    rw [UInt8.toNat_toUInt16, show (2 : UInt16).toNat = 2 from rfl]
    omega
  have hn1 : (index.toUInt16 * 16).toNat = index.toNat * 16 := by
    rw [Checked.toNat_mulWord h1, UInt8.toNat_toUInt16]
    rfl
  have hn2 : (row.toUInt16 * 2).toNat = row.toNat * 2 := by
    rw [Checked.toNat_mulWord h2, UInt8.toNat_toUInt16]
    rfl
  have hstart : (0x8000 : UInt16).toNat = 32768 := rfl
  have h3 : (0x8000 : UInt16).toNat + (index.toUInt16 * 16).toNat < 2 ^ 16 := by omega
  have hn3 := Checked.toNat_addWord h3
  have h4 : (0x8000 + index.toUInt16 * 16).toNat + (row.toUInt16 * 2).toNat < 2 ^ 16 := by omega
  have hn4 : (address index attributes y).toNat =
      (0x8000 + index.toUInt16 * 16).toNat + (row.toUInt16 * 2).toNat := Checked.toNat_addWord h4
  refine ⟨?_, by omega, by omega⟩
  simp only [Checked.tileAddress, hrowOf, Checked.mulWord_of_lt h1, Checked.mulWord_of_lt h2,
    Checked.addWord_of_lt h3, Checked.addWord_of_lt h4, Option.bind_eq_bind, Option.bind_some]
  rfl

theorem videoByte_inRange (b : Bus) (bank : UInt8) {addr : UInt16} (hge : 0x8000 ≤ addr.toNat)
    (hlt : addr.toNat < 0xa000) : Checked.videoByte b bank addr = some (b.videoByte bank addr) := by
  rw [Checked.videoByte, Bus.videoIndex_inRange bank (UInt16.le_iff_toNat_le.2 hge)
    (UInt16.lt_iff_toNat_lt.2 hlt)]
  rfl

/-- Fetching a row of a tile stays in video memory. -/
theorem fetch_inRange (b : Bus) (index : UInt8) (attributes : TileAttributes) (y : UInt8) :
    Checked.tileRow b index attributes y = some (fetch b index attributes y) := by
  obtain ⟨haddr, hge, hlt⟩ := address_inRange index attributes y
  have h1 : (address index attributes y).toNat + (1 : UInt16).toNat < 2 ^ 16 :=
    Nat.lt_trans hlt (by decide)
  have hnext : (address index attributes y + 1).toNat = (address index attributes y).toNat + 1 :=
    Checked.toNat_addWord h1
  have hlow := videoByte_inRange b attributes.bank hge (by omega)
  have hhigh : Checked.videoByte b attributes.bank (address index attributes y + 1) =
      some (b.videoByte attributes.bank (address index attributes y + 1)) :=
    videoByte_inRange b attributes.bank (by omega) (by omega)
  simp only [Checked.tileRow, haddr, hlow, Checked.addWord_of_lt h1, hhigh, Option.bind_eq_bind,
    Option.bind_some, Checked.ofFnM_eq (pixel_inRange _ _ attributes)]
  rfl

end TileRow

namespace Display

/-- The maps lie at the end of a bank of video memory. -/
theorem mapAddress_inRange (control y : UInt8) (column : Fin 32) :
    let addr := tileMap control + y.toUInt16 / 8 * 32 + UInt16.ofNat column.val
    Checked.mapAddress (tileMap control) y column = some addr ∧
      0x8000 ≤ addr.toNat ∧ addr.toNat < 0xa000 := by
  have hy := y.toNat_lt
  have hcolumn := column.isLt
  have hmap : 0x9800 ≤ (tileMap control).toNat ∧ (tileMap control).toNat ≤ 0x9c00 := by
    rw [tileMap]
    split <;> decide
  have hrow : (y.toUInt16 / 8).toNat = y.toNat / 8 := by
    rw [UInt16.toNat_div, UInt8.toNat_toUInt16]
    rfl
  have hoffset : (UInt16.ofNat column.val).toNat = column.val :=
    UInt16.toNat_ofNat_of_lt' (Nat.lt_trans hcolumn (by decide))
  have h1 : (y.toUInt16 / 8).toNat * (32 : UInt16).toNat < 2 ^ 16 := by
    rw [hrow, show (32 : UInt16).toNat = 32 from rfl]
    omega
  have hn1 : (y.toUInt16 / 8 * 32).toNat = y.toNat / 8 * 32 := by
    rw [Checked.toNat_mulWord h1, hrow]
    rfl
  have h2 : (tileMap control).toNat + (y.toUInt16 / 8 * 32).toNat < 2 ^ 16 := by omega
  have hn2 := Checked.toNat_addWord h2
  have h3 : (tileMap control + y.toUInt16 / 8 * 32).toNat + (UInt16.ofNat column.val).toNat <
      2 ^ 16 := by omega
  have hn3 := Checked.toNat_addWord h3
  refine ⟨?_, by omega, by omega⟩
  simp only [Checked.mapAddress, Checked.mulWord_of_lt h1, Checked.addWord_of_lt h2,
    Checked.addWord_of_lt h3, Option.bind_eq_bind, Option.bind_some]

theorem mapRow_inRange (b : Bus) (y : UInt8) (column : Fin 32) :
    Checked.mapRow b y column = some (tileRows b y)[column] := by
  obtain ⟨haddr, hge, hlt⟩ := mapAddress_inRange (b.register Register.lcdControl) y column
  simp only [Checked.mapRow, haddr, TileRow.videoByte_inRange b _ hge hlt, Option.bind_eq_bind,
    Option.bind_some, TileRow.fetch_inRange, tileRows, Fin.getElem_fin, Vector.getElem_ofFn]

/-- Every pixel of a row has its place on the background. -/
theorem backgroundPlace_inRange (y : UInt8) (column : Fin 32) (x : Fin 8) :
    ∃ place, Checked.backgroundPlace y column x = some place := by
  have hy := y.toNat_lt
  have hcolumn := column.isLt
  have hx := x.isLt
  have hstart : Checked.mulIndex y.toNat 256 = some (y.toNat * 256) :=
    Checked.mulIndex_of_lt (by omega)
  have hoffset : Checked.mulIndex column.val 8 = some (column.val * 8) :=
    Checked.mulIndex_of_lt (by omega)
  have hleft : Checked.addIndex (y.toNat * 256) (column.val * 8) =
      some (y.toNat * 256 + column.val * 8) := Checked.addIndex_of_lt (by omega)
  have hadd : Checked.addIndex (y.toNat * 256 + column.val * 8) x.val =
      some (y.toNat * 256 + column.val * 8 + x.val) := Checked.addIndex_of_lt (by omega)
  refine ⟨⟨y.toNat * 256 + column.val * 8 + x.val, by omega⟩, ?_⟩
  simp only [Checked.backgroundPlace, hstart, hoffset, hleft, hadd, Option.bind_eq_bind,
    Option.bind_some]
  exact Checked.entry_of_lt _

theorem tileColor_inRange (b : Bus) (row : TileRow) (y : UInt8) (column : Fin 32) (x : Fin 8) :
    Checked.tileColor b row y column x = some (tileColors b row)[x] := by
  obtain ⟨place, hplace⟩ := backgroundPlace_inRange y column x
  simp only [Checked.tileColor, PaletteTable.fetch_inRange, hplace, Option.bind_eq_bind,
    Option.bind_some, tileColors, Fin.getElem_fin, Vector.getElem_map]
  rfl

theorem backgroundRow_inRange (b : Bus) (y : UInt8) :
    Checked.backgroundRow b y = some (backgroundRow b y) := by
  have hcolumn : ∀ column, (Checked.mapRow b y column).bind (fun row ↦
      Vector.ofFnM (Checked.tileColor b row y column)) =
        some (tileColors b (tileRows b y)[column]) := by
    intro column
    rw [mapRow_inRange, Option.bind_some, Checked.ofFnM_eq (tileColor_inRange b _ y column)]
    exact congrArg some (Vector.ext fun i hi ↦ Vector.getElem_ofFn _)
  have htiles : Vector.ofFn (fun column ↦ tileColors b (tileRows b y)[column]) =
      (tileRows b y).map (tileColors b) :=
    Vector.ext fun i hi ↦ by rw [Vector.getElem_ofFn, Vector.getElem_map]; rfl
  have hrows := Checked.ofFnM_eq hcolumn
  rw [htiles] at hrows
  exact (congrArg (Option.bind · fun tiles ↦ some tiles.flatten) hrows).trans rfl

theorem visibleColumn_inRange (scrollX : UInt8) (x : Fin 160) :
    Checked.visibleColumn scrollX x =
      some ⟨(x.val + scrollX.toNat) % 256, Nat.mod_lt _ (by decide)⟩ := by
  have hx := x.isLt
  have hscroll := scrollX.toNat_lt
  have hadd : Checked.addIndex x.val scrollX.toNat = some (x.val + scrollX.toNat) :=
    Checked.addIndex_of_lt (by omega)
  have hmod : Checked.modIndex (x.val + scrollX.toNat) 256 =
      some ((x.val + scrollX.toNat) % 256) := Checked.modIndex_of_ne (by decide)
  simp only [Checked.visibleColumn, hadd, hmod, Option.bind_eq_bind, Option.bind_some]
  exact Checked.entry_of_lt _

/-- Every pixel of a line is taken from a place on the background. -/
theorem visiblePlace_inRange (y scrollX : UInt8) (x : Fin 160) :
    ∃ place, Checked.visiblePlace y scrollX x = some place := by
  have hy := y.toNat_lt
  have hcolumn : (x.val + scrollX.toNat) % 256 < 256 := Nat.mod_lt _ (by decide)
  have hstart : Checked.mulIndex y.toNat 256 = some (y.toNat * 256) :=
    Checked.mulIndex_of_lt (by omega)
  have hadd : Checked.addIndex (y.toNat * 256) ((x.val + scrollX.toNat) % 256) =
      some (y.toNat * 256 + (x.val + scrollX.toNat) % 256) := Checked.addIndex_of_lt (by omega)
  refine ⟨⟨y.toNat * 256 + (x.val + scrollX.toNat) % 256, by omega⟩, ?_⟩
  simp only [Checked.visiblePlace, hstart, visibleColumn_inRange, hadd, Option.bind_eq_bind,
    Option.bind_some]
  exact Checked.entry_of_lt _

/-- Every pixel of a visible line has its place in the frame. -/
theorem framePlace_inRange {line : Nat} (h : line < screenHeight) (x : Fin 160) :
    ∃ place, Checked.framePlace line x = some place := by
  have hline : line < 144 := h
  have hx := x.isLt
  have hstart : Checked.mulIndex line 160 = some (line * 160) := Checked.mulIndex_of_lt (by omega)
  have hadd : Checked.addIndex (line * 160) x.val = some (line * 160 + x.val) :=
    Checked.addIndex_of_lt (by omega)
  refine ⟨⟨line * 160 + x.val, by omega⟩, ?_⟩
  simp only [Checked.framePlace, hstart, hadd, Option.bind_eq_bind, Option.bind_some]
  exact Checked.entry_of_lt _

theorem visibleSlice_inRange {line : Nat} (h : line < screenHeight) (y : UInt8)
    (row : BackgroundRow) (scrollX : UInt8) :
    Checked.visibleSlice line y row scrollX = some (visibleSlice row scrollX) := by
  refine Checked.ofFnM_eq fun x ↦ ?_
  obtain ⟨_, hplace⟩ := visiblePlace_inRange y scrollX x
  obtain ⟨_, hframe⟩ := framePlace_inRange h x
  simp only [visibleColumn_inRange, hplace, hframe, Option.bind_eq_bind, Option.bind_some]
  rfl

/-- **Drawing a line stays in range**, whatever the registers and video memory hold. -/
theorem drawLine_inRange (d : Display) (b : Bus) :
    Checked.drawLine d b = some (d.drawLine b) := by
  rw [Checked.drawLine, drawLine]
  dsimp only
  split
  · rename_i h
    have hplace : ∀ y : UInt8, Checked.entry backgroundSize y.toNat = some ⟨y.toNat, y.toNat_lt⟩ :=
      fun y ↦ Checked.entry_of_lt y.toNat_lt
    rw [backgroundRow_inRange, Option.bind_eq_bind, Option.bind_some, visibleSlice_inRange h,
      Option.bind_eq_bind, Option.bind_some, hplace]
    rfl
  · rfl

end Display

end DotMatrix
