import DotMatrix.Journal

/-!
# Command line options

The arguments of the program are a cartridge image and, in any order around it,

* `-f` or `--frames` with the number of frames to run, 60 by default;
* `-d` or `--dump` with a file to write the last picture to;
* `-l` or `--log-level` with how much to report, `info` by default.

The value of an option is the next argument or is joined to the option: `-f5`, `-f=5` and
`--frames=5` all mean `-f 5`.
-/

set_option autoImplicit false

namespace DotMatrix.CommandLine

/-- What the arguments ask for. -/
structure Options where
  image : String
  frames : Nat := 60
  /-- The least important level that is reported; nothing is reported without one. -/
  level : Option Level := some .info
  dump : Option String := none

/-- Why arguments are refused. -/
inductive UsageError where
  | missingImage
  | unexpected (argument : String)
  | missingValue (option : String)
  | invalidValue (option value : String)
  | repeated (option : String)

/-- The wording of a usage error. -/
def UsageError.message : UsageError → String
  | .missingImage => "error: a cartridge image is required"
  | .unexpected argument => "error: unexpected argument " ++ argument
  | .missingValue option => "error: a value is required for " ++ option
  | .invalidValue option value => "error: invalid value " ++ value ++ " for " ++ option
  | .repeated option => "error: the argument " ++ option ++ " cannot be used multiple times"

/-- An option that takes a value. -/
inductive Key where
  | frames | dump | level
  deriving DecidableEq

namespace Key

/-- Every option. -/
def all : List Key := [.frames, .dump, .level]

/-- The letter of an option. -/
def letter : Key → Char
  | .frames => 'f'
  | .dump => 'd'
  | .level => 'l'

/-- The word of an option. -/
def word : Key → String
  | .frames => "frames"
  | .dump => "dump"
  | .level => "log-level"

/-- An option as messages show it. -/
def shown (k : Key) : String := "--" ++ k.word

end Key

/-- An argument, taken apart. -/
inductive Argument where
  /-- An option with the value that is joined to it, if one is. -/
  | option (key : Key) (joined : Option String)
  /-- The sign that no more options follow. -/
  | endOfOptions
  | plain (text : String)
  | unknown (text : String)

/-- Take an argument apart. -/
def Argument.ofString (text : String) : Argument :=
  match text.toList with
  | ['-'] => .plain text
  | ['-', '-'] => .endOfOptions
  | '-' :: '-' :: rest =>
    let word := String.ofList (rest.takeWhile (· ≠ '='))
    let joined := match rest.dropWhile (· ≠ '=') with
      | [] => none
      | _ :: value => some (String.ofList value)
    match Key.all.find? (·.word == word) with
    | some key => .option key joined
    | none => .unknown text
  | '-' :: letter :: rest =>
    let joined := match rest with
      | [] => none
      | '=' :: value => some (String.ofList value)
      | value => some (String.ofList value)
    match Key.all.find? (·.letter == letter) with
    | some key => .option key joined
    | none => .unknown text
  | _ => .plain text

/-- A count of frames: decimal digits, perhaps behind a plus sign, below two to the 64. -/
def frames? (text : String) : Option Nat :=
  let digits := match text.toList with
    | '+' :: rest => rest
    | all => all
  if digits.isEmpty || !digits.all Char.isDigit then none
  else
    let n := digits.foldl (fun n c ↦ 10 * n + (c.toNat - '0'.toNat)) 0
    if n < 18446744073709551616 then some n else none

/-- A level, or none for the word that silences the log; case does not matter. -/
def level? (text : String) : Option (Option Level) :=
  if text.toUpper == "OFF" then some none else (Level.ofName? text).map some

/-- The values collected so far. -/
structure Collected where
  image : Option String := none
  frames : Option Nat := none
  level : Option (Option Level) := none
  dump : Option String := none

namespace Collected

/-- Take the cartridge image. -/
def addImage (c : Collected) (text : String) : Except UsageError Collected :=
  match c.image with
  | none => .ok { c with image := some text }
  | some _ => .error (.unexpected text)

/-- Take the value of an option. -/
def addValue (c : Collected) (key : Key) (value : String) : Except UsageError Collected :=
  match key with
  | .frames =>
    match c.frames, frames? value with
    | some _, _ => .error (.repeated key.shown)
    | none, some n => .ok { c with frames := some n }
    | none, none => .error (.invalidValue key.shown value)
  | .level =>
    match c.level, level? value with
    | some _, _ => .error (.repeated key.shown)
    | none, some l => .ok { c with level := some l }
    | none, none => .error (.invalidValue key.shown value)
  | .dump =>
    match c.dump with
    | some _ => .error (.repeated key.shown)
    | none => .ok { c with dump := some value }

/-- The options that the collected values make, defaults filled in. -/
def toOptions (c : Collected) : Except UsageError Options :=
  match c.image with
  | none => .error .missingImage
  | some image =>
    .ok { image, frames := c.frames.getD 60, level := c.level.getD (some .info), dump := c.dump }

/-- Take arguments that can only be plain. -/
def addPlain (c : Collected) : List String → Except UsageError Collected
  | [] => .ok c
  | text :: rest =>
    match c.addImage text with
    | .ok c => c.addPlain rest
    | .error e => .error e

/-- Take all arguments. -/
def addAll (c : Collected) : List String → Except UsageError Collected
  | [] => .ok c
  | text :: rest =>
    match Argument.ofString text with
    | .plain text =>
      match c.addImage text with
      | .ok c => c.addAll rest
      | .error e => .error e
    | .unknown text => .error (.unexpected text)
    | .endOfOptions => c.addPlain rest
    | .option key (some value) =>
      match c.addValue key value with
      | .ok c => c.addAll rest
      | .error e => .error e
    | .option key none =>
      match rest with
      | [] => .error (.missingValue key.shown)
      | value :: rest =>
        match Argument.ofString value with
        | .plain value =>
          match c.addValue key value with
          | .ok c => c.addAll rest
          | .error e => .error e
        | _ => .error (.missingValue key.shown)

end Collected

/-- The options that arguments ask for. -/
def Options.ofArguments (arguments : List String) : Except UsageError Options :=
  match ({} : Collected).addAll arguments with
  | .ok c => c.toOptions
  | .error e => .error e

end DotMatrix.CommandLine
