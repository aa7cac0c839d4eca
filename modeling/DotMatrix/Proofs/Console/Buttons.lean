import DotMatrix.Proofs.Display.Status

/-!
# What the joypad register shows

The player turns eight buttons down and up, and programs choose which of them they see.  The joypad
register merges both: two of its bits are those that were written to it last, and each of the four
lines below them reads 0 while a button of a selected group is held on it.  Which buttons are held
depends on all that the player did, and so does whether pressing one is new and requests an
interrupt.

* `ButtonGroup` — the two groups of buttons, the bit that selects each and the button on each line.
* `Joypad.testBit_register` — the register line by line.
* `Hardware.heldAfter` — the buttons that were turned down last, and `Story.held`, that these are
  held.
* `Story.selects` — the select bits are those that were written last.
* `requests_press` — what a button does to the requests.
* `joypad_shows_held` — all of it on every machine.
-/

set_option autoImplicit false

namespace DotMatrix

/-! ## Groups of buttons -/

/-- The buttons that are selected together and share the four lines with the others. -/
inductive ButtonGroup where
  | action | direction
  deriving DecidableEq

namespace ButtonGroup

/-- The bit of the joypad register that selects a group while it is clear. -/
def mask : ButtonGroup → UInt8
  | .action => 0x20
  | .direction => 0x10

/-- The button of a group on a line. -/
def button : ButtonGroup → Fin 4 → Button
  | .action, 0 => .a
  | .action, 1 => .b
  | .action, 2 => .select
  | .action, 3 => .start
  | .direction, 0 => .right
  | .direction, 1 => .left
  | .direction, 2 => .up
  | .direction, 3 => .down

/-- The select bits alone say which groups are selected. -/
theorem and_mask_congr {x y : UInt8} (h : x &&& 0x30 = y &&& 0x30) (group : ButtonGroup) :
    x &&& group.mask = y &&& group.mask := by
  have hfield : 0x30 &&& group.mask = group.mask := by cases group <;> rfl
  rw [← hfield, ← UInt8.and_assoc, h, UInt8.and_assoc]

end ButtonGroup

namespace Joypad

/-! ## The register -/

theorem testBit_lines (b3 b2 b1 b0 : Bool) :
    (lines b3 b2 b1 b0).toNat.testBit 0 = b0 ∧ (lines b3 b2 b1 b0).toNat.testBit 1 = b1 ∧
      (lines b3 b2 b1 b0).toNat.testBit 2 = b2 ∧ (lines b3 b2 b1 b0).toNat.testBit 3 = b3 := by
  revert b3 b2 b1 b0
  decide

/-- The lines of a group, as they are while it is selected. -/
def groupLines (j : Joypad) : ButtonGroup → UInt8
  | .action => j.actionLines
  | .direction => j.directionLines

/-- A line of a group shows whether its button is held. -/
theorem testBit_groupLines (j : Joypad) (group : ButtonGroup) (i : Fin 4) :
    (j.groupLines group).toNat.testBit i = j.held (group.button i) := by
  obtain ⟨ha, hb, hselect, hstart⟩ := testBit_lines j.start j.select j.b j.a
  obtain ⟨hright, hleft, hup, hdown⟩ := testBit_lines j.down j.up j.left j.right
  match group, i with
  | .action, 0 => exact ha
  | .action, 1 => exact hb
  | .action, 2 => exact hselect
  | .action, 3 => exact hstart
  | .direction, 0 => exact hright
  | .direction, 1 => exact hleft
  | .direction, 2 => exact hup
  | .direction, 3 => exact hdown

/-- The lines of a group, or none if it is not selected. -/
def shown (j : Joypad) (select : UInt8) (group : ButtonGroup) : UInt8 :=
  if select &&& group.mask = 0 then j.groupLines group else 0

theorem testBit_shown (j : Joypad) (select : UInt8) (group : ButtonGroup) (i : Fin 4) :
    (j.shown select group).toNat.testBit i ↔
      select &&& group.mask = 0 ∧ j.held (group.button i) := by
  rw [shown]
  split
  · rename_i h
    rw [testBit_groupLines]
    exact (and_iff_right h).symm
  · rename_i h
    simp [h]

/-- The register is put together from its fixed bits, the select bits and the lines that are
shown. -/
theorem register_eq (j : Joypad) (select : UInt8) : j.register select = 0xc0 ||| select &&& 0x30 |||
    ~~~(j.shown select .action ||| j.shown select .direction) &&& 0x0f := rfl

/-- The two top bits are fixed. -/
theorem register_and_top (j : Joypad) (select : UInt8) : j.register select &&& 0xc0 = 0xc0 := by
  have habsorb : ∀ x y : UInt8, (0xc0 ||| x ||| y) &&& 0xc0 = 0xc0 := fun x y ↦ by
    rw [UInt8.or_assoc, UInt8.and_comm]
    exact and_or_absorb _ _
  exact habsorb _ _

/-- The two below them are the select bits. -/
theorem register_and_select (j : Joypad) (select : UInt8) :
    j.register select &&& 0x30 = select &&& 0x30 := by
  have hlow : ∀ x : UInt8, x &&& 0x0f &&& 0x30 = 0 := forall_byte (by decide +kernel)
  rw [register_eq, Bus.or_and_distrib, Bus.or_and_distrib, hlow, UInt8.and_assoc, UInt8.and_self,
    UInt8.or_zero]
  exact UInt8.zero_or

/-- **A line is low while a button of a selected group is held on it.** -/
theorem testBit_register (j : Joypad) (select : UInt8) (i : Fin 4) :
    (j.register select).toNat.testBit i = false ↔
      ∃ group : ButtonGroup, select &&& group.mask = 0 ∧ j.held (group.button i) := by
  have hhigh : ∀ x : UInt8, ∀ i : Fin 4, (0xc0 ||| x &&& 0x30).toNat.testBit i = false :=
    forall_byte (by decide +kernel)
  have hlow : ∀ x : UInt8, ∀ i : Fin 4, (~~~x &&& 0x0f).toNat.testBit i = !x.toNat.testBit i :=
    forall_byte (by decide +kernel)
  rw [register_eq, UInt8.toNat_or, Nat.testBit_or, hhigh, hlow, Bool.false_or, Bool.not_eq_false',
    UInt8.toNat_or, Nat.testBit_or, Bool.or_eq_true, testBit_shown, testBit_shown]
  constructor
  · rintro (h | h)
    · exact ⟨.action, h⟩
    · exact ⟨.direction, h⟩
  · rintro ⟨_ | _, h⟩
    · exact Or.inl h
    · exact Or.inr h

end Joypad

namespace Bus

/-! ## Writes -/

theorem joypad_writeRegister (addr : UInt16) (value : UInt8) (b : Bus) :
    (writeRegister addr value b).state.joypad = b.joypad := by
  rw [writeRegister]
  split
  · rw [writeJoypad_apply]
    rfl
  · repeat' split
    all_goals rfl

/-- A bus write turns no button. -/
theorem joypad_write (addr : UInt16) (value : UInt8) (b : Bus) :
    (write addr value b).state.joypad = b.joypad := by
  rw [write]
  cases b.place addr with
  | image =>
    obtain ⟨_, _, -, hc⟩ := exists_control addr value
    rw [hc]
    rfl
  | external => rfl
  | cell c => cases c <;> rfl
  | register => exact joypad_writeRegister addr value b
  | nothing => rfl

end Bus

namespace Hardware

variable {hw : Hardware} {ops : List Operation} {fired : List (Timed.Firing Task Board)}

/-! ## Which buttons are held -/

/-- Where an operation turns a button: down or up. -/
def Operation.turned? (button : Button) : Operation → Option Bool
  | .press other pressed => if other = button then some pressed else none
  | .write _ _ | .advance _ | .withdraw _ => none

/-- Where a button was turned last, by operations the newest first. -/
def lastTurned? (button : Button) (ops : List Operation) : Option Bool :=
  ops.findSome? (Operation.turned? button)

/-- A button is held after operations, the newest first: it was turned last, and down. -/
def heldAfter (ops : List Operation) (button : Button) : Bool :=
  (lastTurned? button ops).getD false

theorem joypad_write (hl : DisplayListens hw) (addr : UInt16) (value : UInt8) :
    (write addr value hw).state.bus.joypad = hw.bus.joypad := by
  by_cases hc : addr = Register.lcdControl
  · rw [hc, write_lcdControl hl]
    exact (spares_covers.controlled (hw.put Register.lcdControl value) value).joypad
  · rw [write_of_ne hl hc]
    exact Bus.joypad_write addr value hw.bus

theorem joypad_press (button : Button) (pressed : Bool) (hw : Hardware) :
    (press button pressed hw).state.bus.joypad = hw.bus.joypad.update button pressed := by
  rw [press, Exec.bind_gets]
  split <;> rfl

/-- An operation turns a button or leaves it. -/
theorem Reachable.held_perform (h : Reachable hw) (button : Button) (op : Operation) :
    (op.perform hw).state.bus.joypad.held button =
      (op.turned? button).getD (hw.bus.joypad.held button) := by
  cases op with
  | write addr value =>
    exact congrArg (·.held button) (joypad_write h.wired.1.listens addr value)
  | advance cycles => exact congrArg (·.held button) (h.spares_advance cycles).joypad
  | withdraw source => rfl
  | press other pressed =>
    rw [Operation.perform, joypad_press, Joypad.held_update, Operation.turned?]
    by_cases he : other = button
    · rw [if_pos he, if_pos he.symm]
      rfl
    · rw [if_neg he, if_neg (Ne.symm he)]
      rfl

/-- **The buttons that are held are those that were turned down last.** -/
theorem Story.held (h : Story ops fired hw) (button : Button) :
    hw.bus.joypad.held button = heldAfter ops button := by
  refine h.eq_last (fun hw ↦ hw.bus.joypad.held button) (Operation.turned? button)
    (fun cartridge ↦ ?_) fun op hr ↦ hr.held_perform button op
  have hstart : (armed cartridge).bus.joypad = {} := rfl
  rw [powerOn_eq, (spares_covers.started _).joypad, hstart]
  cases button <;> rfl

/-! ## Which groups are selected -/

/-- A write to the joypad register stores its select bits. -/
theorem select_write (hl : DisplayListens hw) (value : UInt8) :
    (write Register.joypad value hw).state.reg Register.joypad &&& 0x30 = value &&& 0x30 := by
  have hkept : ∀ x : UInt8, x &&& 0xcf &&& 0x30 = 0 := forall_byte (by decide +kernel)
  have hstored : (write Register.joypad value hw).state.reg Register.joypad =
      hw.reg Register.joypad &&& 0xcf ||| value &&& 0x30 := by
    rw [write_of_ne hl (by decide), onBus, Bus.write_of_register (by decide)]
    show (Bus.writeJoypad value hw.bus).state.register Register.joypad = _
    rw [Bus.writeJoypad_apply]
    exact Bus.register_setRegister_self _ _ _
  rw [hstored, Bus.or_and_distrib, hkept, UInt8.and_assoc, UInt8.and_self, UInt8.zero_or]

/-- **The select bits are those that were written last.** -/
theorem Story.selects (h : Story ops fired hw) :
    hw.reg Register.joypad &&& 0x30 = (lastWritten? Register.joypad ops).getD 0 &&& 0x30 := by
  refine h.eq_lastWritten (fun cartridge ↦ ?_)
    (fun value hr ↦ select_write hr.wired.1.listens value) fun {hw op} hr hs ↦ ?_
  · have hstart : (armed cartridge).reg Register.joypad = 0xcf := rfl
    rw [powerOn_eq, (spares_covers.started _).registers Register.joypad (by decide) (by decide),
      hstart]
    rfl
  · by_cases ha : ∃ cycles, op = .advance cycles
    · obtain ⟨cycles, rfl⟩ := ha
      exact congrArg (· &&& 0x30)
        ((hr.spares_advance cycles).registers Register.joypad (by decide) (by decide))
    · have hreg : (op.perform hw).state.reg Register.joypad = hw.reg Register.joypad :=
        reg_perform hr.wired.1.listens (fun cycles he ↦ ha ⟨cycles, he⟩) (by decide) (by decide)
          (by decide) (by decide) hs
      rw [hreg]

/-- The joypad register merges the two. -/
theorem load_joypad (hw : Hardware) : (load Register.joypad hw).result =
    .ok (hw.bus.joypad.register (hw.reg Register.joypad)) := rfl

/-! ## Requests -/

/-- A button requests an interrupt when it goes down without being held. -/
theorem requests_press (button : Button) (pressed : Bool) (hw : Hardware) :
    (press button pressed hw).result = .ok () ∧
      (press button pressed hw).state.reg Register.interruptRequest =
        if pressed && !hw.bus.joypad.held button then hw.reg Register.interruptRequest ||| 0x10
        else hw.reg Register.interruptRequest := by
  rw [press, Exec.bind_gets, Joypad.isNewPress]
  split
  · exact ⟨rfl, reg_put_self _ _ _⟩
  · exact ⟨rfl, rfl⟩

/-! ## Operations one after another -/

theorem lastTurned?_append (button : Button) (newer older : List Operation) :
    lastTurned? button (newer ++ older) =
      (lastTurned? button newer).or (lastTurned? button older) := List.findSome?_append

/-- Writes turn no button. -/
theorem lastTurned?_made (button : Button) (stores : List (UInt16 × UInt8)) (hw : Hardware) :
    lastTurned? button (made stores hw) = none := by
  induction stores generalizing hw with
  | nil => rfl
  | cons store rest ih =>
    obtain ⟨addr, value⟩ := store
    rw [made]
    rcases write addr value hw with ⟨fault | ⟨⟩, hw', records⟩
    · rfl
    · dsimp only
      rw [lastTurned?_append, ih]
      rfl

end Hardware

namespace Console

open Hardware (heldAfter lastTurned? lastTurned?_append lastTurned?_made lastWritten?)

/-! ## Steps -/

theorem lastTurned?_actsRunning (button : Button) (c : Console) :
    lastTurned? button (actsRunning c) = none := by
  rw [actsRunning]
  split
  · rfl
  split
  · rfl
  split <;> exact lastTurned?_made button _ _

theorem lastTurned?_actsServing (button : Button) (c : Console) :
    lastTurned? button (actsServing c) = none := by
  have hpushed : ∀ stores hw source,
      lastTurned? button (Hardware.made stores hw ++ [.withdraw source]) = none :=
    fun stores hw source ↦ by
      rw [lastTurned?_append, lastTurned?_made]
      rfl
  rw [actsServing]
  split
  · rfl
  split
  · dsimp only
    split <;> exact hpushed _ _ _
  · rfl

/-- A step turns no button. -/
theorem heldAfter_step (c : Console) (ops : List Hardware.Operation) (button : Button) :
    heldAfter (Operation.step.acts c ++ ops) button = heldAfter ops button := by
  have hnone : lastTurned? button (Operation.step.acts c) = none := by
    rw [Operation.acts]
    split
    · rw [lastTurned?_append, lastTurned?_actsServing, lastTurned?_actsRunning]
      rfl
    · exact lastTurned?_actsRunning button c
  rw [heldAfter, lastTurned?_append, hnone, Option.none_or, heldAfter]

/-- Pressing or releasing a button turns it. -/
theorem heldAfter_press (c : Console) (ops : List Hardware.Operation) (button : Button)
    (pressed : Bool) :
    heldAfter ((Operation.press button pressed).acts c ++ ops) button = pressed := by
  rw [heldAfter, lastTurned?_append, Operation.acts, lastTurned?, List.findSome?_singleton,
    Hardware.Operation.turned?, if_pos rfl]
  rfl

/-- Nothing else turns it. -/
theorem heldAfter_of_ne (c : Console) (ops : List Hardware.Operation) {button : Button}
    {op : Operation} (h : ∀ pressed, op ≠ .press button pressed) :
    heldAfter (op.acts c ++ ops) button = heldAfter ops button := by
  cases op with
  | step => exact heldAfter_step c ops button
  | write addr value => rfl
  | advance cycles => rfl
  | press other pressed =>
    have hne : other ≠ button := fun he ↦ h pressed (by rw [he])
    rw [heldAfter, lastTurned?_append, Operation.acts, lastTurned?, List.findSome?_singleton,
      Hardware.Operation.turned?, if_neg hne, Option.none_or, heldAfter]

/-! ## The joypad -/

/-- **The joypad register shows the buttons that are held.**  Every machine has a story, and along
every story the joypad register reads with its two top bits set and with the select bits that were
written to it last, 0 if none were; each of its four lines is low exactly while a button that a
selected group has on it is held.  A button is held if the last that the player did to it was to
press it; nothing else that is done to a machine turns it, and no step does.  Pressing or releasing
a button never fails.  It raises the request of the joypad if the button is pressed without being
held, and otherwise leaves the requests as they are. -/
theorem joypad_shows_held :
    (∀ c : Console, Reachable c → ∃ ops, Story ops c) ∧
    (∀ (c : Console) (ops : List Hardware.Operation) (button : Button),
      (∀ pressed, heldAfter ((Operation.press button pressed).acts c ++ ops) button = pressed) ∧
      ∀ op : Operation, (∀ pressed, op ≠ .press button pressed) →
        heldAfter (op.acts c ++ ops) button = heldAfter ops button) ∧
    ∀ (ops : List Hardware.Operation) (c : Console), Story ops c →
      let written := (lastWritten? Register.joypad ops).getD 0
      (∃ value, (Hardware.load Register.joypad c.hardware).result = .ok value ∧
        value &&& 0xc0 = 0xc0 ∧ value &&& 0x30 = written &&& 0x30 ∧
        ∀ i : Fin 4, value.toNat.testBit i = false ↔
          ∃ group : ButtonGroup, written &&& group.mask = 0 ∧ heldAfter ops (group.button i)) ∧
      ∀ (button : Button) (pressed : Bool), ∃ requests,
        (Hardware.load Register.interruptRequest c.hardware).result = .ok requests ∧
        ((Operation.press button pressed).perform c).result = .ok () ∧
        (Hardware.load Register.interruptRequest
          ((Operation.press button pressed).perform c).state.hardware).result =
            .ok (if pressed && !heldAfter ops button then requests ||| 0x10 else requests) := by
  refine ⟨fun c h ↦ h.exists_story, fun c ops button ↦
    ⟨heldAfter_press c ops button, fun op h ↦ heldAfter_of_ne c ops h⟩, fun ops c h ↦ ?_⟩
  obtain ⟨fired, hs⟩ := h.hardware
  refine ⟨⟨_, Hardware.load_joypad _, Joypad.register_and_top _ _, ?_, fun i ↦ ?_⟩,
    fun button pressed ↦ ?_⟩
  · rw [Joypad.register_and_select]
    exact hs.selects
  · rw [Joypad.testBit_register]
    refine exists_congr fun group ↦ ?_
    rw [hs.held]
    exact and_congr_left' (by rw [ButtonGroup.and_mask_congr hs.selects])
  · obtain ⟨hresult, hrequests⟩ := Hardware.requests_press button pressed c.hardware
    rw [hs.held] at hrequests
    refine ⟨_, rfl, ?_, ?_⟩
    · rw [Operation.perform, pressButton_eq]
      exact hresult
    · rw [Operation.perform, pressButton_eq]
      exact congrArg Except.ok hrequests

/-- What is done to a machine, the newest first: the player holds two direction buttons and has let
go of an action button since, and a program selects both groups. -/
def mergedActs : List Hardware.Operation :=
  [.advance 70224, .press .down true, .press .start false, .write Register.joypad 0x0f,
    .press .left true, .press .start true]

/-- The machine that it is done to. -/
def merged : Console :=
  [.press .start true, .press .left true, .write Register.joypad 0x0f, .press .start false,
    .press .down true, .advance 70224].foldl (fun c (op : Operation) ↦ (op.perform c).state) blank

/-- The register shows the two buttons that are held, which a step does not change.  Pressing one of
them again requests nothing, and pressing the one that was let go does. -/
theorem joypad_shows_held_merged : Story mergedActs merged ∧
    (Hardware.load Register.joypad merged.hardware).result = .ok 0xc5 ∧
    heldAfter (Operation.step.acts merged ++ mergedActs) .left ∧
    ∃ requests, (Hardware.load Register.interruptRequest merged.hardware).result = .ok requests ∧
      (Hardware.load Register.interruptRequest
        ((Operation.press .left true).perform merged).state.hardware).result = .ok requests ∧
      (Hardware.load Register.interruptRequest
        ((Operation.press .start true).perform merged).state.hardware).result =
          .ok (requests ||| 0x10) := by
  obtain ⟨-, hturned, hshown⟩ := joypad_shows_held
  have hstory : Story mergedActs merged :=
    (((((story_blank.perform (.press .start true)).perform (.press .left true)).perform
      (.write Register.joypad 0x0f)).perform (.press .start false)).perform
        (.press .down true)).perform (.advance 70224)
  have hstep : heldAfter (Operation.step.acts merged ++ mergedActs) .left = _ :=
    (hturned merged mergedActs .left).2 .step fun _ he ↦ by cases he
  obtain ⟨⟨value, hload, htop, hselect, hlines⟩, hpress⟩ := hshown _ _ hstory
  have hbyte : ∀ x : UInt8, x &&& 0xc0 = 0xc0 → x &&& 0x30 = 0x0f &&& 0x30 →
      x.toNat.testBit 0 → x.toNat.testBit 1 = false → x.toNat.testBit 2 →
      x.toNat.testBit 3 = false → x = 0xc5 := forall_byte (by decide +kernel)
  have hnone : ∀ i : Fin 4, i = 0 ∨ i = 2 → value.toNat.testBit i := by
    refine fun i hi ↦ Bool.of_not_eq_false fun hlow ↦ ?_
    obtain ⟨group, -, hheld⟩ := (hlines i).1 hlow
    rcases hi with rfl | rfl <;> cases group <;> cases hheld
  have hleft := (hlines 1).2 ⟨.direction, by decide, by decide⟩
  have hdown := (hlines 3).2 ⟨.direction, by decide, by decide⟩
  have hvalue : value = 0xc5 :=
    hbyte value htop hselect (hnone 0 (.inl rfl)) hleft (hnone 2 (.inr rfl)) hdown
  obtain ⟨requests, hrequests, -, hagain⟩ := hpress .left true
  obtain ⟨requests', hrequests', -, hnew⟩ := hpress .start true
  obtain rfl : requests' = requests := Except.ok.inj (hrequests'.symm.trans hrequests)
  exact ⟨hstory, hvalue ▸ hload, hstep.trans (by decide), requests', hrequests, hagain, hnew⟩

end Console

end DotMatrix
