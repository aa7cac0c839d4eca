import DotMatrix.CommandLine.Run

/-!
# The executable

The command line program on the real world.
-/

set_option autoImplicit false

namespace DotMatrix

/-- The reason of a failed access. -/
def accessReason : IO.Error → String
  | .noFileOrDirectory _ code details => s!"{details} (os error {code})"
  | .permissionDenied _ code details => s!"{details} (os error {code})"
  | .inappropriateType _ code details => s!"{details} (os error {code})"
  | .invalidArgument _ code details => s!"{details} (os error {code})"
  | .resourceExhausted _ code details => s!"{details} (os error {code})"
  | .otherError code details => s!"{details} (os error {code})"
  | e => toString e

/-- An access whose failure comes with its reason. -/
def access {α : Type} (x : IO α) : IO (Except String α) := do
  try return .ok (← x)
  catch e => return .error (accessReason e)

/-- Files and the standard streams. -/
def world : CommandLine.Environment IO where
  loadFile path := access (IO.FS.withFile path .read (·.readBinToEnd))
  saveFile path bytes := access (IO.FS.writeBinFile path bytes)
  print := IO.println
  complain := IO.eprintln

end DotMatrix

/-- Run the command line program. -/
def main (arguments : List String) : IO UInt32 :=
  DotMatrix.CommandLine.run DotMatrix.world arguments
