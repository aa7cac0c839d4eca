import DotMatrix.Hardware.Basic

/-!
# The timers

A divider that counts every 256 cycles, a counter whose speed a program chooses and that requests an
interrupt when it overflows, and the calendar of the cartridge.  Each tick schedules the next one,
so a change of speed counts from the next tick on.
-/

set_option autoImplicit false

namespace DotMatrix.Hardware

/-- The cycles between two ticks of the divider. -/
def dividerCycles : Nat := 256

/-- The cycles in a second. -/
def secondCycles : Nat := 4194304

/-- The cycles between two ticks of the counter, by the low two bits of the control byte. -/
def selectPeriod (control : UInt8) : Except Fault Nat :=
  match control &&& 0x03 with
  | 0 => .ok 1024
  | 1 => .ok 16
  | 2 => .ok 64
  | 3 => .ok 256
  | _ => .error (.invalidTimerFrequency control)

/-- The same, with the longest for a byte that selects none. -/
def counterPeriod (control : UInt8) : Nat :=
  match selectPeriod control with
  | .ok cycles => cycles
  | .error _ => 1024

/-- A tick of the divider. -/
def tickDivider : Exec Hardware Unit := do
  let value ← register Register.divider
  setRegister Register.divider (value + 1)
  schedule dividerCycles .divider

/-- One more on the counter; past 255 it starts again from the reload byte and requests an
interrupt. -/
def stepCounter : Exec Hardware Unit := do
  let value ← register Register.counter
  if value = 0xff then
    let reload ← register Register.reload
    Exec.report (.counterOverflowed reload)
    setRegister Register.counter reload
    requestInterrupt .timer
  else
    setRegister Register.counter (value + 1)

/-- A tick of the counter, which only counts while it is turned on. -/
def tickCounter : Exec Hardware Unit := do
  let control ← register Register.timerControl
  if control &&& Register.counterOn ≠ 0 then stepCounter
  let cycles ← Exec.ofExcept (selectPeriod control)
  schedule cycles .counter

/-- A tick of the cartridge's calendar. -/
def tickCalendar : Exec Hardware Unit := do
  onBus (Bus.onCartridge (Exec.modify Cartridge.tickCalendar))
  schedule secondCycles .calendar

/-- Schedule the first tick of every timer. -/
def startTimers : Exec Hardware Unit := do
  schedule dividerCycles .divider
  let control ← register Register.timerControl
  schedule (counterPeriod control) .counter
  schedule secondCycles .calendar

end DotMatrix.Hardware
