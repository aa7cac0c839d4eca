/-!
# Interrupt sources

The five sources that can interrupt the processor.  Source number `i` owns bit `i` of the request
and enable registers and is served at address `0x40 + 8 * i`; the lower its number, the sooner it is
served.
-/

set_option autoImplicit false

namespace DotMatrix

/-- A source of interrupts. -/
inductive Interrupt where
  | vblank | stat | timer | serial | joypad
  deriving DecidableEq

namespace Interrupt

/-- Every source, the most urgent first. -/
def all : List Interrupt := [.vblank, .stat, .timer, .serial, .joypad]

/-- The bit a source owns in the request and enable registers. -/
def mask : Interrupt → UInt8
  | .vblank => 0x01
  | .stat => 0x02
  | .timer => 0x04
  | .serial => 0x08
  | .joypad => 0x10

/-- The address at which a source is served. -/
def vector : Interrupt → UInt16
  | .vblank => 0x0040
  | .stat => 0x0048
  | .timer => 0x0050
  | .serial => 0x0058
  | .joypad => 0x0060

/-- The name of a source in log records. -/
def name : Interrupt → String
  | .vblank => "VBLANK"
  | .stat => "STAT"
  | .timer => "TIMER"
  | .serial => "SERIAL"
  | .joypad => "JOYPAD"

end Interrupt

/-- One source as the request and enable registers show it. -/
structure InterruptStatus where
  source : Interrupt
  requested : Bool
  enabled : Bool
  deriving DecidableEq

/-- A source is pending when it is both requested and enabled. -/
def InterruptStatus.isPending (s : InterruptStatus) : Bool := s.requested && s.enabled

end DotMatrix
