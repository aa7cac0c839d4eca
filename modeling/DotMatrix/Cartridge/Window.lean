import DotMatrix.Cartridge.Calendar

/-!
# What the external window shows

The window at `0xa000` shows either one of four banks of cartridge RAM or a field of the latched
calendar.  A select code chooses: `0x00` to `0x03` a bank, `0x08` to `0x0c` a field.
-/

set_option autoImplicit false

namespace DotMatrix

/-- What the external window is connected to. -/
inductive Window where
  | bank (number : Fin 4)
  | calendar (field : CalendarField)
  deriving DecidableEq

namespace Window

/-- The first bank. -/
def firstBank : Window := .bank 0

/-- The window that a select code chooses, if it chooses one. -/
def ofCode? : UInt8 → Option Window
  | 0x00 => some (.bank 0)
  | 0x01 => some (.bank 1)
  | 0x02 => some (.bank 2)
  | 0x03 => some (.bank 3)
  | 0x08 => some (.calendar .seconds)
  | 0x09 => some (.calendar .minutes)
  | 0x0a => some (.calendar .hours)
  | 0x0b => some (.calendar .daysLow)
  | 0x0c => some (.calendar .daysHigh)
  | _ => none

/-- The select code of a window. -/
def code : Window → UInt8
  | .bank n => UInt8.ofNat n.val
  | .calendar f => 0x08 + f.slot

/-- The window in log records. -/
def description : Window → String
  | .bank n => s!"Bank({n.val})"
  | .calendar f => s!"Clock({f.name})"

end Window

end DotMatrix
