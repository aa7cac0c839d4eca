import DotMatrix.Archive.Method
import DotMatrix.CommandLine.Options
import DotMatrix.Console.Step
import DotMatrix.Display.Pixmap

/-!
# The command line program

Runs a cartridge image without a display: it reads the image, plain or out of an archive, runs some
frames and can write the last picture to a file.  What it says goes to its output as log lines; what
stops it goes to its error output.

All it does to the world goes through an `Environment`, so the same program runs on real files and
on files that are only imagined.
-/

set_option autoImplicit false

namespace DotMatrix.CommandLine

/-! ## The world -/

/-- What the program can do to the world.  A failed access comes with its reason. -/
structure Environment (m : Type → Type) where
  loadFile : String → m (Except String ByteArray)
  saveFile : String → ByteArray → m (Except String Unit)
  /-- Put a text on the output and end the line. -/
  print : String → m Unit
  /-- Put a text on the error output and end the line. -/
  complain : String → m Unit

/-- What stops the program. -/
inductive Failure where
  | unreadable (path reason : String)
  | brokenArchive (path reason : String)
  | emptyArchive (path : String)
  | unwritable (path reason : String)
  | machine (fault : Fault)

/-- The wording of a failure. -/
def Failure.message : Failure → String
  | .unreadable path reason => s!"Failed to read {path}: {reason}"
  | .brokenArchive path reason => s!"Failed to open archive {path}: {reason}"
  | .emptyArchive path => s!"No cartridge image found in {path}"
  | .unwritable path reason => s!"Failed to write frame to {path}: {reason}"
  | .machine fault => fault.message

/-! ## Paths -/

/-- The last part of a path, if it names a file. -/
def fileName? (path : String) : Option (List Char) :=
  let parts := (path.toList.splitOn '/').filter fun part ↦ !part.isEmpty && part ≠ ['.']
  match parts.getLast? with
  | some ['.', '.'] => none
  | last => last

/-- What follows the last dot of a path's file name, unless that dot comes first. -/
def extension? (path : String) : Option (List Char) := do
  let name ← fileName? path
  let reversed := name.reverse
  guard (reversed.contains '.')
  guard (reversed.dropWhile (· ≠ '.') ≠ ['.'])
  return (reversed.takeWhile (· ≠ '.')).reverse

/-- A path with the extension of an archive, in either case. -/
def isArchive (path : String) : Bool :=
  (extension? path).any fun name ↦ name.map Char.toLower = "zip".toList

/-- An entry's name with the extension of a cartridge image, in either case. -/
def isImageName (name : String) : Bool :=
  let reversed := (name.toList.map Char.toLower).reverse
  [".gb", ".gbc"].any fun extension ↦ extension.toList.reverse.isPrefixOf reversed

/-! ## The run -/

variable {m : Type → Type} [Monad m]

/-- A part of the run, which a failure ends. -/
abbrev Task (m : Type → Type) := ExceptT Failure m

/-- Whether notices of a level are reported. -/
def isReported (reported : Option Level) (level : Level) : Bool :=
  reported.any fun r ↦ level.rank ≤ r.rank

/-- A line of the log. -/
def logLine (level : Level) (component text : String) : String :=
  s!"[{level.name}] [{component}] {text}"

/-- The program's own word. -/
def announce (env : Environment m) (reported : Option Level) (text : String) : Task m Unit := do
  if isReported reported .info then env.print (logLine .info "gbcore" text)

/-- The log line of a record, if it is reported. -/
def recordLine? (reported : Option Level) : Record → Option String
  | .notice n =>
    if isReported reported n.level then some (logLine n.level n.component n.text) else none
  | .mark .. => none

/-- Put lines on the output. -/
def printAll (env : Environment m) : List String → Task m Unit
  | [] => return ()
  | line :: rest => do
    env.print line
    printAll env rest

/-- What the machine reports. -/
def logRecords (env : Environment m) (reported : Option Level) (records : Array Record) :
    Task m Unit :=
  printAll env (records.toList.filterMap (recordLine? reported))

/-- The cartridge image among some entries: the first with the name of one.  The entries before it
have to be sound, too. -/
def extractFirst (env : Environment m) (reported : Option Level) (path : String)
    (archive : ByteArray) : List Archive.Member → Task m ByteArray
  | [] => throw (.emptyArchive path)
  | member :: rest => do
    match member.opened archive with
    | .error e => throw (.brokenArchive path e.message)
    | .ok opened =>
      if isImageName member.name then
        match opened.contents with
        | .error e => throw (.unreadable path e.message)
        | .ok image =>
          announce env reported s!"Extracted {member.name} ({image.size} bytes)"
          return image
      else extractFirst env reported path archive rest

/-- The cartridge image in an archive. -/
def extractImage (env : Environment m) (reported : Option Level) (path : String)
    (archive : ByteArray) : Task m ByteArray :=
  match Archive.members archive with
  | .error e => throw (.brokenArchive path e.message)
  | .ok members => extractFirst env reported path archive members

/-- The cartridge image that a path leads to. -/
def loadImage (env : Environment m) (reported : Option Level) (path : String) :
    Task m ByteArray := do
  match ← env.loadFile path with
  | .error reason => throw (.unreadable path reason)
  | .ok bytes => if isArchive path then extractImage env reported path bytes else return bytes

/-- How often the state of the processor is announced, in frames. -/
def announceEvery : Nat := 60

/-- Run `count` more frames after `done` of them, which took `cycles`.  Yields the machine and the
cycles of all frames. -/
def runFrames (env : Environment m) (reported : Option Level) :
    Nat → Nat → Nat → Console → Task m (Console × Nat)
  | 0, _, cycles, console => return (console, cycles)
  | count + 1, done, cycles, console => do
    match Console.runFrame console with
    | ⟨result, console, records⟩ =>
      logRecords env reported records
      match result with
      | .error fault => throw (.machine fault)
      | .ok more =>
        if (done + 1) % announceEvery = 0 then
          announce env reported s!"Frame {done + 1}: {console.cpu.description}"
        runFrames env reported count (done + 1) (cycles + more) console

/-- Write the picture on the screen to a file. -/
def dumpPicture (env : Environment m) (reported : Option Level) (path : String)
    (console : Console) : Task m Unit := do
  match ← env.saveFile path (pixmap console.hardware.display.screen) with
  | .error reason => throw (.unwritable path reason)
  | .ok () => announce env reported s!"Frame written to {path}"

/-- Do what the options ask for. -/
def runOptions (env : Environment m) (options : Options) : Task m Unit := do
  let image ← loadImage env options.level options.image
  match Console.powerOn image.data with
  | .error fault => throw (.machine fault)
  | .ok (console, records) =>
    logRecords env options.level records
    let (console, cycles) ← runFrames env options.level options.frames 0 0 console
    announce env options.level
      s!"Ran {console.hardware.display.frames} frames in {cycles} cycles"
    match options.dump with
    | none => return ()
    | some path => dumpPicture env options.level path console

/-- Run the program with some arguments.  Yields its exit code: 0 for success, 1 for a failure and 2
for arguments that are refused. -/
def run (env : Environment m) (arguments : List String) : m UInt32 := do
  match Options.ofArguments arguments with
  | .error e =>
    env.complain e.message
    return 2
  | .ok options =>
    match ← (runOptions env options).run with
    | .ok () => return 0
    | .error failure =>
      env.complain failure.message
      return 1

end DotMatrix.CommandLine
