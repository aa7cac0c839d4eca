/-!
# The cartridge's calendar

A battery-backed counter of seconds, minutes, hours and days that some cartridges carry.  Days take
nine bits, the top one in the lowest bit of `daysHigh`, which also holds a halt bit and a sticky
carry bit that is set when the day counter wraps.

Each field is as wide as the counter behind it, so a field that was set past its usual range counts
up to its full width and then wraps to zero without carrying into the next one.
-/

set_option autoImplicit false

namespace DotMatrix

/-- A field of the calendar. -/
inductive CalendarField where
  | seconds | minutes | hours | daysLow | daysHigh
  deriving DecidableEq

namespace CalendarField

/-- Every field, in register order. -/
def all : List CalendarField := [.seconds, .minutes, .hours, .daysLow, .daysHigh]

/-- The position of a field in register order. -/
def slot : CalendarField → UInt8
  | .seconds => 0
  | .minutes => 1
  | .hours => 2
  | .daysLow => 3
  | .daysHigh => 4

/-- The name of a field in log records. -/
def name : CalendarField → String
  | .seconds => "Seconds"
  | .minutes => "Minutes"
  | .hours => "Hours"
  | .daysLow => "DaysLow"
  | .daysHigh => "DaysHigh"

/-- The bits that a field has. -/
def mask : CalendarField → UInt8
  | .seconds | .minutes => 0x3f
  | .hours => 0x1f
  | .daysLow => 0xff
  | .daysHigh => 0xc1

end CalendarField

/-- The fields of the calendar as they are stored. -/
structure Calendar where
  seconds : UInt8 := 0
  minutes : UInt8 := 0
  hours : UInt8 := 0
  daysLow : UInt8 := 0
  daysHigh : UInt8 := 0
  deriving DecidableEq

namespace Calendar

/-- The stored byte of a field. -/
def field (c : Calendar) : CalendarField → UInt8
  | .seconds => c.seconds
  | .minutes => c.minutes
  | .hours => c.hours
  | .daysLow => c.daysLow
  | .daysHigh => c.daysHigh

/-- A field as it reads: only the bits it has. -/
def get (c : Calendar) (f : CalendarField) : UInt8 := c.field f &&& f.mask

/-- The calendar after a byte was written to a field, which keeps only the bits it has. -/
def set (c : Calendar) (f : CalendarField) (value : UInt8) : Calendar :=
  match f with
  | .seconds => { c with seconds := value &&& f.mask }
  | .minutes => { c with minutes := value &&& f.mask }
  | .hours => { c with hours := value &&& f.mask }
  | .daysLow => { c with daysLow := value &&& f.mask }
  | .daysHigh => { c with daysHigh := value &&& f.mask }

theorem field_set (c : Calendar) (f g : CalendarField) (value : UInt8) :
    (c.set f value).field g = if g = f then value &&& f.mask else c.field g := by
  cases f <;> cases g <;> rfl

/-- The nine bits of the day counter. -/
def days (c : Calendar) : UInt16 :=
  (c.daysHigh &&& 0x01).toUInt16 <<< 8 ||| c.daysLow.toUInt16

/-- The halt bit stops the calendar. -/
def isHalted (c : Calendar) : Bool := decide (c.daysHigh &&& 0x40 ≠ 0)

/-- One more day; a counter that wraps sets the carry bit. -/
def tickDay (c : Calendar) : Calendar :=
  let days := c.days + 1
  let flags := c.daysHigh &&& 0xfe
  if days > 0x1ff then { c with daysLow := 0, daysHigh := flags ||| 0x80 }
  else { c with daysLow := days.toUInt8, daysHigh := flags ||| (days >>> 8).toUInt8 }

/-- One more hour. -/
def tickHour (c : Calendar) : Calendar :=
  let hours := (c.hours + 1) &&& 0x1f
  if hours = 24 then { c with hours := 0 }.tickDay else { c with hours := hours }

/-- One more minute. -/
def tickMinute (c : Calendar) : Calendar :=
  let minutes := (c.minutes + 1) &&& 0x3f
  if minutes = 60 then { c with minutes := 0 }.tickHour else { c with minutes := minutes }

/-- One more second, unless the calendar is halted. -/
def tick (c : Calendar) : Calendar :=
  if c.isHalted then c
  else
    let seconds := (c.seconds + 1) &&& 0x3f
    if seconds = 60 then { c with seconds := 0 }.tickMinute else { c with seconds := seconds }

/-- The calendar in log records. -/
def description (c : Calendar) : String :=
  s!"RtcRegisters \x7b seconds: {c.seconds.toNat}, minutes: {c.minutes.toNat}, " ++
    s!"hours: {c.hours.toNat}, days_low: {c.daysLow.toNat}, days_high: {c.daysHigh.toNat} \x7d"

end Calendar

end DotMatrix
