/-!
# The joypad

Eight buttons share four input lines.  Two select bits of the joypad register, active low, choose
whether the lines carry the action buttons, the direction buttons or both; a line reads 0 while a
button of a selected group is held on it.
-/

set_option autoImplicit false

namespace DotMatrix

/-- A button of the joypad. -/
inductive Button where
  | up | down | left | right | a | b | start | select
  deriving DecidableEq

/-- The name of a button in log records. -/
def Button.name : Button → String
  | .up => "Up" | .down => "Down" | .left => "Left" | .right => "Right"
  | .a => "A" | .b => "B" | .start => "Start" | .select => "Select"

/-- Which buttons are held down. -/
structure Joypad where
  up : Bool := false
  down : Bool := false
  left : Bool := false
  right : Bool := false
  a : Bool := false
  b : Bool := false
  start : Bool := false
  select : Bool := false
  deriving DecidableEq

namespace Joypad

/-- Whether a button is held down. -/
def held (j : Joypad) : Button → Bool
  | .up => j.up | .down => j.down | .left => j.left | .right => j.right
  | .a => j.a | .b => j.b | .start => j.start | .select => j.select

/-- The joypad after a button went down or up. -/
def update (j : Joypad) (button : Button) (pressed : Bool) : Joypad :=
  match button with
  | .up => { j with up := pressed }
  | .down => { j with down := pressed }
  | .left => { j with left := pressed }
  | .right => { j with right := pressed }
  | .a => { j with a := pressed }
  | .b => { j with b := pressed }
  | .start => { j with start := pressed }
  | .select => { j with select := pressed }

theorem held_update (j : Joypad) (x y : Button) (pressed : Bool) :
    (j.update x pressed).held y = if y = x then pressed else j.held y := by
  cases x <;> cases y <;> rfl

/-- An event is a new press when the button goes down from being up. -/
def isNewPress (j : Joypad) (button : Button) (pressed : Bool) : Bool :=
  pressed && !j.held button

/-- Four held buttons as the bits of a nibble, the first the highest. -/
def lines (b3 b2 b1 b0 : Bool) : UInt8 :=
  (if b3 then 8 else 0) ||| (if b2 then 4 else 0) ||| (if b1 then 2 else 0) |||
    (if b0 then 1 else 0)

/-- The lines of the action buttons. -/
def actionLines (j : Joypad) : UInt8 := lines j.start j.select j.b j.a

/-- The lines of the direction buttons. -/
def directionLines (j : Joypad) : UInt8 := lines j.down j.up j.left j.right

/-- The joypad register as it reads while `select` holds the select bits last written. -/
def register (j : Joypad) (select : UInt8) : UInt8 :=
  let action := if select &&& 0x20 = 0 then j.actionLines else 0
  let direction := if select &&& 0x10 = 0 then j.directionLines else 0
  0xc0 ||| (select &&& 0x30) ||| (~~~(action ||| direction) &&& 0x0f)

end Joypad

end DotMatrix
