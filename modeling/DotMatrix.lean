import DotMatrix.Archive.Entry
import DotMatrix.Main
import DotMatrix.Proofs.Clock.Drain
import DotMatrix.Proofs.Clock.History
import DotMatrix.Proofs.Hardware.Transition
import DotMatrix.Proofs.Hardware.Quiet
import DotMatrix.Proofs.Hardware.Wiring
import DotMatrix.Proofs.Display.Timing
import DotMatrix.Proofs.Hardware.Beam
import DotMatrix.Proofs.Hardware.Passing
import DotMatrix.Proofs.Hardware.Operation
import DotMatrix.Proofs.Console.Footprint
import DotMatrix.Proofs.Console.Reach
import DotMatrix.Proofs.Display.Position
import DotMatrix.Proofs.Console.Switches
import DotMatrix.Proofs.Console.Handler
import DotMatrix.Proofs.Console.Steps
import DotMatrix.Proofs.Display.Chain
import DotMatrix.Proofs.Hardware.Requests
import DotMatrix.Proofs.Console.Stores
import DotMatrix.Proofs.Console.Requests
import DotMatrix.Proofs.Console.Waiting
import DotMatrix.Proofs.Range.Checked
import DotMatrix.Proofs.Range.Cartridge
import DotMatrix.Proofs.Range.Bus
import DotMatrix.Proofs.Range.Display
import DotMatrix.Proofs.Range.Processor
import DotMatrix.Proofs.Range.Hardware
import DotMatrix.Proofs.Range.Console
import DotMatrix.Proofs.Memory.Slots
import DotMatrix.Proofs.Memory.Frame
import DotMatrix.Proofs.Memory.History
import DotMatrix.Proofs.Display.Picture
import DotMatrix.Proofs.Display.Film
import DotMatrix.Proofs.Bus.Refusal
import DotMatrix.Proofs.Instruction.Shape
import DotMatrix.Proofs.Console.Operands
import DotMatrix.Proofs.Console.Writes
import DotMatrix.Proofs.Console.Failures
import DotMatrix.Proofs.Bus.Atomic
import DotMatrix.Proofs.Console.Acts
import DotMatrix.Proofs.Hardware.Spared
import DotMatrix.Proofs.Timer.Beat
import DotMatrix.Proofs.Timer.Drift
import DotMatrix.Proofs.Instruction.Encoding
import DotMatrix.Proofs.Instruction.Assembly
import DotMatrix.Proofs.Instruction.Disassembly
import DotMatrix.Proofs.Console.Idling
import DotMatrix.Proofs.Console.Cycles
import DotMatrix.Proofs.Display.Status
import DotMatrix.Proofs.Hardware.Raising
import DotMatrix.Proofs.Display.Transitions
import DotMatrix.Proofs.Display.Interrupt
import DotMatrix.Proofs.Display.Drawing
import DotMatrix.Proofs.Timer.Counter
import DotMatrix.Proofs.Clock.Horizon
import DotMatrix.Proofs.Cartridge.Calendar
import DotMatrix.Proofs.Cartridge.Latch
import DotMatrix.Proofs.Cartridge.Image
import DotMatrix.Proofs.Console.Counter
import DotMatrix.Proofs.Console.Destination
import DotMatrix.Proofs.Hardware.Reports
import DotMatrix.Proofs.Console.Serving
import DotMatrix.Proofs.Console.Enabling
import DotMatrix.Proofs.Memory.Storage
import DotMatrix.Proofs.Console.Stack
import DotMatrix.Proofs.Display.Presenting
import DotMatrix.Proofs.Console.Frames
import DotMatrix.Proofs.Processor.Columns
import DotMatrix.Proofs.Processor.Decimal
import DotMatrix.Proofs.Display.Streaming
import DotMatrix.Proofs.Hardware.Nesting
import DotMatrix.Proofs.Hardware.Notifying
import DotMatrix.Proofs.Console.Buttons
