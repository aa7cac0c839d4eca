import DotMatrix.Proofs.Display.Picture
import DotMatrix.Proofs.Hardware.Operation

/-!
# Drawing a line

Drawing goes over the 32 map cells of a row and the eight pixels of each.  Pixel by pixel, the row
of the background comes out as `Bus.backgroundColor` has it, and the line of the frame as the part
of that row that is scrolled into view.

* `background_drawLine` — the row of the background that is drawn, and that no other is.
* `drawLine_congr` — what is drawn depends on video memory, the palettes and four registers.
* `drawLine_pixels` — all that drawing does to the hardware.
-/

set_option autoImplicit false

namespace DotMatrix

namespace Display

variable (d : Display) {b b' : Bus}

/-! ## The background -/

/-- The row that is drawn: the line scrolled down and wrapped round. -/
theorem toNat_drawnRow (b : Bus) :
    (b.register Register.line + b.register Register.scrollY).toNat =
      ((b.register Register.line).toNat + (b.register Register.scrollY).toNat) % 256 :=
  UInt8.toNat_add _ _

/-- Drawing a visible line draws one row of the background and leaves the others as they are. -/
theorem background_drawLine (hline : (b.register Register.line).toNat < screenHeight) {y : Nat}
    (hy : y < backgroundSize) : (d.drawLine b).background[y] =
      if ((b.register Register.line).toNat + (b.register Register.scrollY).toNat) % 256 = y then
        backgroundRow b (b.register Register.line + b.register Register.scrollY)
      else d.background[y] := by
  have hset : (d.drawLine b).background =
      d.background.set (b.register Register.line + b.register Register.scrollY).toNat
        (backgroundRow b (b.register Register.line + b.register Register.scrollY))
        (UInt8.toNat_lt _) := by
    rw [drawLine]
    dsimp only
    rw [dif_pos hline]
  rw [hset, Vector.getElem_set, toNat_drawnRow]

/-- The pixels of that row. -/
theorem pixel_drawLine (hline : (b.register Register.line).toNat < screenHeight) {x y : Nat}
    (hy : y < backgroundSize) (hx : x < backgroundSize)
    (hrow : ((b.register Register.line).toNat + (b.register Register.scrollY).toNat) % 256 = y) :
    (d.drawLine b).background[y][x] = b.backgroundColor x y := by
  rw [background_drawLine d hline hy, if_pos hrow, getElem_backgroundRow b _ hx, toNat_drawnRow,
    hrow]

/-- The pixels of the line are those of the row, scrolled to the side and wrapped round. -/
theorem frame_drawLine (hline : (b.register Register.line).toNat < screenHeight) {x y column : Nat}
    (hx : x < screenWidth) (hy : y < backgroundSize) (hcolumn : column < backgroundSize)
    (hrow : ((b.register Register.line).toNat + (b.register Register.scrollY).toNat) % 256 = y)
    (hshown : (x + (b.register Register.scrollX).toNat) % 256 = column) :
    (d.drawLine b).frame[(b.register Register.line).toNat][x] =
      (d.drawLine b).background[y][column] := by
  rw [row_drawLine d b hline, if_pos rfl, Bus.pictureRow, Vector.getElem_ofFn, hrow, hshown,
    pixel_drawLine d hline hy hcolumn hrow]

/-! ## What is looked at -/

/-- A row depends on video memory, the palettes and one register. -/
theorem backgroundRow_congr (hv : b'.video = b.video) (hp : b'.palettes = b.palettes)
    (hc : b'.register Register.lcdControl = b.register Register.lcdControl) (y : UInt8) :
    backgroundRow b' y = backgroundRow b y := by
  refine Vector.ext fun x hx ↦ ?_
  rw [getElem_backgroundRow b' y hx, getElem_backgroundRow b y hx,
    Bus.backgroundColor_congr hv hp hc]

/-- What is drawn depends on video memory, the palettes and four registers. -/
theorem drawLine_congr (hv : b'.video = b.video) (hp : b'.palettes = b.palettes)
    (hc : b'.register Register.lcdControl = b.register Register.lcdControl)
    (hx : b'.register Register.scrollX = b.register Register.scrollX)
    (hy : b'.register Register.scrollY = b.register Register.scrollY)
    (hl : b'.register Register.line = b.register Register.line) :
    d.drawLine b' = d.drawLine b := by
  simp only [drawLine, hl, hx, hy, backgroundRow_congr hv hp hc]

/-- Only the background and the frame change. -/
theorem drawLine_eq (b : Bus) : d.drawLine b =
    { d with background := (d.drawLine b).background, frame := (d.drawLine b).frame } := by
  rw [drawLine]
  dsimp only
  split <;> rfl

end Display

namespace Hardware

/-- **Drawing a line is right pixel by pixel.**  Drawing a visible line succeeds, tells of nothing
and changes nothing but the background and the frame.  Of the background it draws the row under the
line, each pixel with the colour that its map cell, its tile and its palette give it, and of the
frame the line, which shows that row from the scrolled column on and wrapped round.  The bank of
video memory that programs have selected does not matter. -/
theorem drawLine_pixels (hw : Hardware) (hline : (hw.reg Register.line).toNat < 144) :
    ∃ hw' : Hardware, drawLine hw = ⟨.ok (), hw', #[]⟩ ∧
      (hw'.clock = hw.clock ∧ hw'.bus = hw.bus ∧ hw'.body.observers = hw.body.observers ∧
        hw'.display = { hw.display with
          background := hw'.display.background, frame := hw'.display.frame }) ∧
      (∀ (y : Nat) (hy : y < 256),
        y = ((hw.reg Register.line).toNat + (hw.reg Register.scrollY).toNat) % 256 →
        (∀ (x : Nat) (hx : x < 256), hw'.display.background[y][x] = hw.bus.backgroundColor x y) ∧
        ∀ (x : Nat) (hx : x < 160) (column : Nat) (hcolumn : column < 256),
          column = (x + (hw.reg Register.scrollX).toNat) % 256 →
          hw'.display.frame[(hw.reg Register.line).toNat][x] =
            hw'.display.background[y][column]) ∧
      (∀ (y : Nat) (hy : y < 256),
        y ≠ ((hw.reg Register.line).toNat + (hw.reg Register.scrollY).toNat) % 256 →
        hw'.display.background[y] = hw.display.background[y]) ∧
      (∀ (y : Nat) (hy : y < 144), y ≠ (hw.reg Register.line).toNat →
        hw'.display.frame[y] = hw.display.frame[y]) ∧
      ∀ bank : UInt8, drawLine (hw.put Register.videoBank bank) =
        ⟨.ok (), hw'.put Register.videoBank bank, #[]⟩ := by
  refine ⟨hw.drawn, rfl, ⟨rfl, rfl, rfl, hw.display.drawLine_eq hw.bus⟩, ?_, fun y hy hne ↦ ?_,
    fun y hy hne ↦ ?_, fun bank ↦ ?_⟩
  · intro y hy hrow
    refine ⟨fun x hx ↦ hw.display.pixel_drawLine hline hy hx hrow.symm, ?_⟩
    exact fun x hx column hcolumn hshown ↦
      hw.display.frame_drawLine hline hx hy hcolumn hrow.symm hshown.symm
  · exact (hw.display.background_drawLine hline hy).trans (if_neg hne.symm)
  · exact (hw.display.row_drawLine hw.bus hy).trans (if_neg hne.symm)
  · have hkept : ∀ {addr : UInt16}, Register.videoBank.toUInt8 ≠ addr.toUInt8 →
        (hw.bus.setRegister Register.videoBank bank).register addr = hw.bus.register addr :=
      fun h ↦ Bus.register_setRegister_of_ne _ h _
    have hdrawn : hw.display.drawLine (hw.bus.setRegister Register.videoBank bank) =
        hw.display.drawLine hw.bus :=
      hw.display.drawLine_congr rfl rfl (hkept (by decide)) (hkept (by decide)) (hkept (by decide))
        (hkept (by decide))
    exact congrArg (fun display ↦ (⟨.ok (), ⟨hw.clock, ⟨hw.bus.setRegister Register.videoBank bank,
      display, hw.body.observers⟩⟩, #[]⟩ : Outcome Hardware Unit)) hdrawn

/-- The first line of an empty cartridge, with the background scrolled past its right edge. -/
theorem drawLine_pixels_wrapped :
    ∃ hw' : Hardware, drawLine (((armed (.plain emptyImage)).put Register.scrollX 248).put
        Register.scrollY 5) = ⟨.ok (), hw', #[]⟩ ∧
      hw'.display.frame[0][7] = hw'.display.background[5][255] ∧
      hw'.display.frame[0][8] = hw'.display.background[5][0] ∧
      hw'.display.background[5][0] = hw'.bus.backgroundColor 0 5 ∧
      hw'.display.background[4] = (armed (.plain emptyImage)).display.background[4] := by
  obtain ⟨hw', hdraw, ⟨-, hbus, -⟩, hrow, hothers, -⟩ := drawLine_pixels
    (((armed (.plain emptyImage)).put Register.scrollX 248).put Register.scrollY 5)
    (by decide +kernel)
  obtain ⟨hpixels, hshown⟩ := hrow 5 (by decide) (by decide +kernel)
  refine ⟨hw', hdraw, hshown 7 (by decide) 255 (by decide) (by decide +kernel),
    hshown 8 (by decide) 0 (by decide) (by decide +kernel), ?_,
    hothers 4 (by decide) (by decide +kernel)⟩
  rw [hbus]
  exact hpixels 0 (by decide)

end Hardware

end DotMatrix
