import DotMatrix.Hardware.Basic

/-!
# Scanning

How the display moves from phase to phase and from line to line.  Entering a phase schedules the way
out of it.  Nothing that was scheduled is ever taken back: turning the display on or off starts a
new epoch, and transitions planned in an earlier one do nothing when their moment comes.

Every change of phase or line updates the status register, which can request an interrupt: whenever
the line is the one to compare with, and when a phase starts whose interrupt is enabled.
-/

set_option autoImplicit false

namespace DotMatrix.Hardware

/-- The status byte that shows a phase and whether the line matches, with the interrupt bits of the
old one. -/
def statusByte (old : UInt8) (phase : Phase) (isMatch : Bool) : UInt8 :=
  0x80 ||| old &&& 0x78 ||| phase.code ||| if isMatch then Register.lineMatch else 0

/-- Whether a change of phase or line requests an interrupt.  A phase only counts when it has just
started. -/
def raisesInterrupt (status : UInt8) (phase : Phase) (isMatch phaseStarts : Bool) : Bool :=
  (isMatch && status &&& Register.matchInterrupt ≠ 0) ||
    (phaseStarts && status &&& phase.interruptBit ≠ 0)

/-- Show phase and line match in the status register and request an interrupt if one is due. -/
def updateStatus (phaseStarts : Bool) : Exec Hardware Unit := do
  let old ← register Register.lcdStatus
  let line ← register Register.line
  let target ← register Register.lineCompare
  let phase ← Exec.gets (·.body.display.phase)
  let enabled ← Exec.gets (·.body.display.enabled)
  let isMatch := line == target
  let status := statusByte old phase isMatch
  setRegister Register.lcdStatus status
  if enabled && raisesInterrupt status phase isMatch phaseStarts then
    requestInterrupt .stat

/-- Move to a line. -/
def setLine (line : UInt8) : Exec Hardware Unit := do
  setRegister Register.line line
  updateStatus false

/-- Plan a transition of the current epoch. -/
def plan (delay : Nat) (transition : Transition) : Exec Hardware Unit := do
  let epoch ← Exec.gets (·.body.display.epoch)
  schedule delay (.display epoch transition)

/-- Draw the current line. -/
def drawLine : Exec Hardware Unit
  | ⟨clock, ⟨bus, display, observers⟩⟩ =>
    ⟨.ok (), ⟨clock, ⟨bus, display.drawLine bus, observers⟩⟩, #[]⟩

/-- Put the finished picture on the screen. -/
def present : Exec Hardware Unit := do
  modifyDisplay Display.present
  let number ← Exec.gets (·.body.display.frames)
  Exec.report (.framePresented number)

/-- Start a phase: show it, do its work and plan its end. -/
def enter (phase : Phase) : Exec Hardware Unit := do
  let line ← register Register.line
  Exec.report (.phaseEntered phase line)
  modifyDisplay fun d ↦ { d with phase := phase }
  updateStatus true
  match phase with
  | .oamScan => plan oamScanCycles .draw
  | .drawing =>
    drawLine
    plan drawingCycles .blank
  | .hblank => plan hblankCycles .endLine
  | .vblank =>
    present
    requestInterrupt .vblank
    plan lineCycles .nextBlankLine

/-- The line after the current one. -/
def nextLine : Exec Hardware UInt8 := do
  let line ← register Register.line
  if line = 0xff then Exec.fail .lineOverflow
  else return line + 1

/-- Go from a visible line to the next one, or to the blank lines below the picture. -/
def endLine : Exec Hardware Unit := do
  let line ← nextLine
  setLine line
  if line.toNat = visibleLines then enter .vblank else enter .oamScan

/-- Go from a blank line to the next one, or back to the top of the picture. -/
def nextBlankLine : Exec Hardware Unit := do
  let line ← nextLine
  if line.toNat = totalLines then
    setLine 0
    enter .oamScan
  else
    setLine line
    plan lineCycles .nextBlankLine

/-- Carry out a transition. -/
def follow : Transition → Exec Hardware Unit
  | .draw => enter .drawing
  | .blank => enter .hblank
  | .endLine => endLine
  | .nextBlankLine => nextBlankLine

/-- Carry out a planned transition, unless it is void. -/
def followPlan (epoch : Nat) (transition : Transition) : Exec Hardware Unit := do
  let valid ← Exec.gets fun hw ↦ hw.body.display.enabled && hw.body.display.epoch == epoch
  if valid then follow transition

/-- Turn the display on, at the top of the picture. -/
def startDisplay : Exec Hardware Unit := do
  modifyDisplay fun d ↦ { d with enabled := true, epoch := d.epoch + 1 }
  setLine 0
  enter .oamScan

/-- Turn the display off. -/
def stopDisplay : Exec Hardware Unit := do
  modifyDisplay fun d ↦ { d with enabled := false, epoch := d.epoch + 1, phase := .hblank }
  setRegister Register.line 0
  updateStatus false

/-- Turn the display on or off as a new control byte says. -/
def controlDisplay (control : UInt8) : Exec Hardware Unit := do
  let enabled ← Exec.gets (·.body.display.enabled)
  let wanted : Bool := control &&& Register.displayOn ≠ 0
  if !enabled && wanted then
    Exec.report .displayEnabled
    startDisplay
  else if enabled && !wanted then
    Exec.report .displayDisabled
    stopDisplay

end DotMatrix.Hardware
