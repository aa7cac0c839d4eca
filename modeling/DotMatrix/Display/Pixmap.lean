import DotMatrix.Display.Basic

/-!
# Pictures as files

A binary pixmap: a header with the size of the picture and the largest channel value, then three
bytes for every pixel, row by row.
-/

set_option autoImplicit false

namespace DotMatrix

/-- The header of the screen's pixmap. -/
def pixmapHeader : String := s!"P6\n{screenWidth} {screenHeight}\n255\n"

/-- Some bytes followed by those of a row of pixels. -/
def appendRow (bytes : ByteArray) (row : PictureRow) : ByteArray :=
  row.foldl (fun bytes color ↦ ((bytes.push color.red).push color.green).push color.blue) bytes

/-- A picture as a binary pixmap. -/
def pixmap (picture : Picture) : ByteArray := picture.foldl appendRow pixmapHeader.toUTF8

end DotMatrix
