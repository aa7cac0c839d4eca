import DotMatrix.Hardware.Scan
import DotMatrix.Hardware.Timer

/-!
# The running hardware

Writes that are observed, tasks that fire, and time that passes.

A write first stores its byte and then runs the observers that were registered for its address when
the store was made, in order, until one fails.  An observer may write in turn; how deeply writes can
nest is bounded, far above what the machine itself needs: only reactions that set each other off for
ever run into the bound.  Time passes without one: the machine's own tasks come to an end in every
window, while reactions can go on for ever at one moment.

* `Hardware.write` is a bus write with its observers.
* `Hardware.advance` lets time pass.
* `Hardware.powerOn` is the hardware as it starts.
-/

set_option autoImplicit false

namespace DotMatrix

/-- Carry out a reaction; `write` is how it writes to the bus. -/
def Reaction.run (write : UInt16 → UInt8 → Exec Hardware Unit) : Reaction → Exec Hardware Unit
  | .done => return ()
  | .fail fault => Exec.fail fault
  | .read addr next => do
    let byte ← Hardware.load addr
    (next byte).run write
  | .write addr value next => do
    write addr value
    next.run write
  | .request source next => do
    Hardware.requestInterrupt source
    next.run write
  | .schedule delay task next => do
    Hardware.schedule delay (.reaction task)
    next.run write
  | .watch addr observer next => do
    Hardware.watch addr (.reaction observer)
    next.run write
  | .mark label written seen next => do
    let now ← Exec.gets Timed.now
    Exec.emit (.mark label now written seen)
    next.run write

/-- Run an observer after a byte was written. -/
def Observer.run (write : UInt16 → UInt8 → Exec Hardware Unit) (value : UInt8) :
    Observer → Exec Hardware Unit
  | .display => Hardware.controlDisplay value
  | .reaction react => (react value).run write

namespace Hardware

/-! ## Writing -/

/-- Run observers one after another. -/
def notify (write : UInt16 → UInt8 → Exec Hardware Unit) (value : UInt8) :
    List Observer → Exec Hardware Unit
  | [] => return ()
  | observer :: rest => do
    observer.run write value
    notify write value rest

/-- Write to the bus and run the observers, which may nest `depth` writes. -/
def writeNested : Nat → UInt16 → UInt8 → Exec Hardware Unit
  | 0, _, _ => Exec.fail .runaway
  | depth + 1, addr, value => do
    onBus (Bus.write addr value)
    let observers ← Exec.gets (·.observersOf addr)
    notify (writeNested depth) value observers

/-- How deeply writes can nest. -/
def maxNesting : Nat := 65536

/-- Write a byte to the bus and run the observers of its address. -/
def write (addr : UInt16) (value : UInt8) : Exec Hardware Unit := writeNested maxNesting addr value

/-- Write a little-endian word to the bus, the low byte first. -/
def writeWord (addr : UInt16) (value : UInt16) : Exec Hardware Unit := do
  write addr (lowByte value)
  write (addr + 1) (highByte value)

/-! ## Time -/

/-- Carry out a task whose moment has come. -/
def fire : Task → Exec Hardware Unit
  | .divider => tickDivider
  | .counter => tickCounter
  | .calendar => tickCalendar
  | .display epoch transition => followPlan epoch transition
  | .reaction react => react.run write

/-- Let time pass. -/
def advance (cycles : Nat) : Exec Hardware Unit := Timed.advance fire cycles

/-! ## Power -/

/-- Start the timers and hook the display onto its control byte, starting it if it is turned on. -/
def start : Exec Hardware Unit := do
  startTimers
  watch Register.lcdControl .display
  let control ← register Register.lcdControl
  if control &&& Register.displayOn ≠ 0 then startDisplay

/-- The hardware as it starts with a cartridge, and what it reports. -/
def powerOn (cartridge : Cartridge) : Hardware × Array Record :=
  match start { clock := {}, body := { bus := .start cartridge } } with
  | ⟨_, hw, records⟩ => (hw, records)

end Hardware

end DotMatrix
