import DotMatrix.Cartridge.Window
import DotMatrix.Display.Phase
import DotMatrix.Instruction.Text
import DotMatrix.Interrupt
import DotMatrix.Joypad

/-!
# The journal

What the machine reports while it runs, kept as data: a `Notice` is one line of the log, rendered by
`Notice.text` only when it is shown, and a mark is left by a reaction that someone has attached to
the machine.  Each notice has a level of importance and the component that speaks.
-/

set_option autoImplicit false

namespace DotMatrix

/-! ## Levels -/

/-- How important a notice is. -/
inductive Level where
  | error | warn | info | debug | trace
  deriving DecidableEq

namespace Level

/-- The position of a level, the most important first. -/
def rank : Level → Nat
  | .error => 1
  | .warn => 2
  | .info => 3
  | .debug => 4
  | .trace => 5

/-- The name of a level. -/
def name : Level → String
  | .error => "ERROR"
  | .warn => "WARN"
  | .info => "INFO"
  | .debug => "DEBUG"
  | .trace => "TRACE"

/-- Every level, the most important first. -/
def all : List Level := [.error, .warn, .info, .debug, .trace]

/-- The level with the given name, in either case. -/
def ofName? (name : String) : Option Level :=
  all.find? fun l ↦ l.name == name.toUpper

end Level

/-! ## Notices -/

/-- A control operation that a cartridge without a controller ignores. -/
inductive IgnoredControl where
  | ramEnable | romBank | ramBank | clockLatch
  deriving DecidableEq

/-- The wording of an ignored control operation. -/
def IgnoredControl.text : IgnoredControl → String
  | .ramEnable => "RAM enable write"
  | .romBank => "ROM bank select"
  | .ramBank => "RAM bank select"
  | .clockLatch => "clock latch write"

/-- A line of the log, before it is put into words. -/
inductive Notice where
  | controllerChosen (name : String)
  | missingRamRead (address : UInt16)
  | missingRamWrite (value : UInt8) (address : UInt16)
  | controlIgnored (control : IgnoredControl) (value : UInt8)
  | disabledRamRead (address : UInt16)
  | disabledRamWrite (value : UInt8) (address : UInt16)
  | ramEnabled (enabled : Bool)
  | romBankSelected (bank : UInt8)
  | windowSelected (window : Window)
  | calendarLatched (calendar : Calendar)
  | bothGroupsSelected
  | lineWriteDropped (value : UInt8)
  | interruptRequested (source : Interrupt)
  | displayEnabled
  | displayDisabled
  | phaseEntered (phase : Phase) (line : UInt8)
  | framePresented (number : Nat)
  | counterOverflowed (reload : UInt8)
  | instructionFetched (address : UInt16) (instruction : Instruction)
  | haltEnded (source : Interrupt)
  | interruptDispatched (source : Interrupt)
  | buttonPressed (button : Button)

namespace Notice

/-- The importance of a notice. -/
def level : Notice → Level
  | .controllerChosen _ => .info
  | .missingRamRead _ | .missingRamWrite _ _ | .disabledRamRead _ | .disabledRamWrite _ _
  | .bothGroupsSelected | .lineWriteDropped _ => .warn
  | .controlIgnored _ _ | .ramEnabled _ | .romBankSelected _ | .windowSelected _
  | .calendarLatched _ | .displayEnabled | .displayDisabled | .buttonPressed _ => .debug
  | .interruptRequested _ | .phaseEntered _ _ | .framePresented _ | .counterOverflowed _
  | .instructionFetched _ _ | .haltEnded _ | .interruptDispatched _ => .trace

/-- The component that a notice comes from. -/
def component : Notice → String
  | .controllerChosen _ => "gbcore::memory::mapper"
  | .missingRamRead _ | .missingRamWrite _ _ | .controlIgnored _ _ => "gbcore::memory::mapper::rom"
  | .disabledRamRead _ | .disabledRamWrite _ _ | .ramEnabled _ | .romBankSelected _
  | .windowSelected _ | .calendarLatched _ => "gbcore::memory::mapper::mbc3"
  | .bothGroupsSelected | .lineWriteDropped _ | .interruptRequested _ => "gbcore::memory::mmu"
  | .displayEnabled | .displayDisabled | .phaseEntered _ _ | .framePresented _ =>
    "gbcore::video::ppu"
  | .counterOverflowed _ => "gbcore::lr35902::timer"
  | .instructionFetched _ _ | .haltEnded _ | .interruptDispatched _ => "gbcore::lr35902::cpu"
  | .buttonPressed _ => "gbcore::gameboy"

/-- The wording of a notice. -/
def text : Notice → String
  | .controllerChosen name => s!"Cartridge controller: {name}"
  | .missingRamRead address => s!"ROM: Read from missing external RAM at {hexWord address}"
  | .missingRamWrite value address =>
    s!"ROM: Dropped write of {hexByte value} to missing external RAM at {hexWord address}"
  | .controlIgnored control value => s!"ROM: Ignoring {control.text} {hexByte value}"
  | .disabledRamRead address => s!"MBC3: Read from disabled external RAM at {hexWord address}"
  | .disabledRamWrite value address =>
    s!"MBC3: Dropped write of {hexByte value} to disabled external RAM at {hexWord address}"
  | .ramEnabled enabled => "MBC3: RAM enabled: " ++ if enabled then "true" else "false"
  | .romBankSelected bank => s!"MBC3: Switched to ROM bank {bank.toNat}"
  | .windowSelected window => s!"MBC3: Switched external RAM window to {window.description}"
  | .calendarLatched calendar => s!"MBC3: Latched clock {calendar.description}"
  | .bothGroupsSelected => "Joypad has buttons and d-pad mode selected"
  | .lineWriteDropped value => s!"Dropped write of {hexByte value} to read-only LY"
  | .interruptRequested source => s!"Requesting interrupt {source.name}"
  | .displayEnabled => "LCD enabled"
  | .displayDisabled => "LCD disabled"
  | .phaseEntered phase line => s!"PPU: {phase.name} on line {line.toNat}"
  | .framePresented number => s!"PPU: Presented frame {number}"
  | .counterOverflowed reload => s!"TIMA overflow, reloading {hexByte reload}"
  | .instructionFetched address instruction =>
    s!"[{hexWord address}] {instruction.disassembly}"
  | .haltEnded source => s!"Leaving HALT for {source.name}"
  | .interruptDispatched source => s!"Dispatching {source.name} to ${hexWord source.vector}"
  | .buttonPressed button => s!"{button.name} pressed"

end Notice

/-! ## Records -/

/-- What the machine reports while it runs. -/
inductive Record where
  | notice (notice : Notice)
  /-- A reaction's mark: its label, the clock time, the byte whose write set it off and the byte it
  read. -/
  | mark (label : Nat) (now : Nat) (written seen : Option UInt8)

end DotMatrix
