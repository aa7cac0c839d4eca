import DotMatrix.Numeral
import DotMatrix.Processor.Alu

/-!
# The processor's state

The register file, the master switch for interrupts and whether the processor is halted.  Turning
interrupts on takes effect one instruction late, so a wish to do so is kept apart from the switch.
-/

set_option autoImplicit false

namespace DotMatrix

/-- The state of the processor. -/
structure Cpu where
  registers : Registers := {}
  /-- Interrupts are served. -/
  interruptsOn : Bool := true
  /-- Interrupts are to be turned on once the next instruction has run. -/
  enablePending : Bool := false
  halted : Bool := false
  deriving DecidableEq

/-- The registers and the interrupt switch, in one line. -/
def Cpu.description (cpu : Cpu) : String :=
  let r := cpu.registers
  let bytes := [("A", r.a), ("F", r.f.toByte), ("B", r.b), ("C", r.c), ("D", r.d), ("E", r.e),
    ("H", r.h), ("L", r.l)].map fun (name, value) ↦ s!"{name}: ${hexByte value}"
  let words := [("SP", r.sp), ("PC", r.pc)].map fun (name, value) ↦ s!"{name}: ${hexWord value}"
  "  ".intercalate (bytes ++ words ++ ["IME: " ++ if cpu.interruptsOn then "1" else "0"])

end DotMatrix
