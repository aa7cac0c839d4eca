import DotMatrix.Clock
import DotMatrix.Display.Basic

/-!
# The hardware

Everything the processor talks to: the clock, the bus and the display, with the tasks that wait on
the clock and the observers that watch addresses of the bus.

A `Reaction` is a small program that someone outside the machine can attach to it, to run at a given
moment or whenever an address is written.  It is data, so a machine is a value that can be compared
and kept, and it can do what a component of the machine could: read and write the bus, request
interrupts, schedule and watch, and fail.  What it cannot do is recover: a fault always ends it.
-/

set_option autoImplicit false

namespace DotMatrix

/-- A program attached to the machine from outside.  A read or a write that fails ends it, and the
fault is passed on to whatever ran it; no reaction goes on after an access that failed. -/
inductive Reaction where
  | done
  | fail (fault : Fault)
  /-- Read the bus and go on with what was read. -/
  | read (addr : UInt16) (next : UInt8 → Reaction)
  | write (addr : UInt16) (value : UInt8) (next : Reaction)
  | request (source : Interrupt) (next : Reaction)
  /-- Let another reaction wait on the clock. -/
  | schedule (delay : Nat) (task : Reaction) (next : Reaction)
  /-- Let another reaction run on every later write to an address; it is told the byte. -/
  | watch (addr : UInt16) (observer : UInt8 → Reaction) (next : Reaction)
  /-- Leave a mark in the journal. -/
  | mark (label : Nat) (written seen : Option UInt8) (next : Reaction)

/-- What is run after a write to a watched address. -/
inductive Observer where
  /-- The display listens to its control byte. -/
  | display
  | reaction (run : UInt8 → Reaction)

/-- What the display does next. -/
inductive Transition where
  /-- From the sprite scan to drawing. -/
  | draw
  /-- From drawing to the horizontal blank. -/
  | blank
  /-- From the horizontal blank to the next line. -/
  | endLine
  /-- From one blank line to the next. -/
  | nextBlankLine
  deriving DecidableEq

/-- What waits on the clock. -/
inductive Task where
  | divider
  | counter
  | calendar
  /-- The display's next transition, void unless the epoch is still the same. -/
  | display (epoch : Nat) (transition : Transition)
  | reaction (run : Reaction)

/-- The hardware without its clock. -/
structure Board where
  bus : Bus
  display : Display := {}
  /-- The watched addresses, in the order in which they were registered. -/
  observers : List (UInt16 × Observer) := []

/-- The hardware. -/
abbrev Hardware : Type := Timed Task Board

namespace Hardware

/-- The address space. -/
abbrev bus (hw : Hardware) : Bus := hw.body.bus

/-- The display. -/
abbrev display (hw : Hardware) : Display := hw.body.display

/-- An operation of the bus. -/
@[inline]
def onBus {α : Type} (x : Exec Bus α) : Exec Hardware α
  | ⟨clock, ⟨bus, display, observers⟩⟩ =>
    match x bus with
    | ⟨r, bus', records⟩ => ⟨r, ⟨clock, ⟨bus', display, observers⟩⟩, records⟩

/-- Change the display. -/
@[inline]
def modifyDisplay (f : Display → Display) : Exec Hardware Unit
  | ⟨clock, ⟨bus, display, observers⟩⟩ => ⟨.ok (), ⟨clock, ⟨bus, f display, observers⟩⟩, #[]⟩

/-- Read a byte from the bus. -/
@[inline]
def load (addr : UInt16) : Exec Hardware UInt8 := onBus (Bus.load addr)

/-- Read a little-endian word from the bus. -/
def loadWord (addr : UInt16) : Exec Hardware UInt16 := do
  let low ← load addr
  let high ← load (addr + 1)
  return wordOfBytes high low

/-- Look at a register, without the rules for programs. -/
@[inline]
def register (addr : UInt16) : Exec Hardware UInt8 := Exec.gets fun hw ↦ hw.body.bus.register addr

/-- Write a register, without the rules for programs. -/
@[inline]
def setRegister (addr : UInt16) (value : UInt8) : Exec Hardware Unit :=
  onBus (Exec.modify (·.setRegister addr value))

/-- Raise the request of an interrupt source. -/
def requestInterrupt (source : Interrupt) : Exec Hardware Unit :=
  onBus (Bus.requestInterrupt source)

/-- Let a task wait for `delay` cycles. -/
def schedule (delay : Nat) (task : Task) : Exec Hardware Unit := Timed.schedule delay task

/-- Run an observer after every later write to an address. -/
def watch (addr : UInt16) (observer : Observer) : Exec Hardware Unit
  | ⟨clock, ⟨bus, display, observers⟩⟩ =>
    ⟨.ok (), ⟨clock, ⟨bus, display, observers ++ [(addr, observer)]⟩⟩, #[]⟩

/-- The observers of an address, in the order in which they were registered. -/
def observersOf (hw : Hardware) (addr : UInt16) : List Observer :=
  hw.body.observers.filterMap fun (watched, observer) ↦
    if watched = addr then some observer else none

end Hardware

end DotMatrix
