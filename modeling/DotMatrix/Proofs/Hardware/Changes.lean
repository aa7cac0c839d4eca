import DotMatrix.Proofs.Hardware.Operation

/-!
# What the hardware's own changes are made of

Everything that the display and the timers do is put together from a few elementary changes.  A
relation that allows these allows all of it, in whatever order it happens, and so time that passes.

* `CoversDisplay` — the relation allows what the display does; `CoversDisplay.followed` and
  `CoversDisplay.controlled` say that this is all that the display needs.
* `cartridge_covers`, `reg_covers` — the display leaves the cartridge alone, and all registers but
  its own and the requests.
* `reg_perform` — and what an operation does to the other registers.
* `CoversTime` — it also allows what the timers do, and `CoversTime.allowsTurns`, so it allows time.
-/

set_option autoImplicit false

namespace DotMatrix.Hardware

/-- A relation that allows what the display's operations are put together from. -/
structure CoversDisplay (R : Hardware → Hardware → Prop) : Prop where
  refl : ∀ hw, R hw hw
  trans : ∀ {hw hw' hw'' : Hardware}, R hw hw' → R hw' hw'' → R hw hw''
  clock : ∀ (hw : Hardware) (clock : Clock Task), R hw { hw with clock := clock }
  showing : ∀ (hw : Hardware) (f : Display → Display), R hw (hw.showing f)
  line : ∀ (hw : Hardware) (line : UInt8), R hw (hw.put Register.line line)
  status : ∀ hw : Hardware, R hw (hw.put Register.lcdStatus hw.statusNow)
  requesting : ∀ (hw : Hardware) (source : Interrupt), R hw (hw.requesting source)

/-- A relation that allows what the display and the timers do. -/
structure CoversTime (R : Hardware → Hardware → Prop) : Prop extends CoversDisplay R where
  divider : ∀ (hw : Hardware) (value : UInt8), R hw (hw.put Register.divider value)
  counter : ∀ (hw : Hardware) (value : UInt8), R hw (hw.put Register.counter value)
  calendar : ∀ hw : Hardware, R hw hw.calendarTicked

variable {R : Hardware → Hardware → Prop}

/-! ## The display -/

namespace CoversDisplay

variable (h : CoversDisplay R) (hw : Hardware)

include h

theorem refreshed (phaseStarts : Bool) : R hw (hw.refreshed phaseStarts) := by
  rw [Hardware.refreshed]
  split
  · exact h.trans (h.status hw) (h.requesting _ .stat)
  · exact h.status hw

theorem atLine (line : UInt8) : R hw (hw.atLine line) :=
  h.trans (h.line hw line) (h.refreshed _ false)

theorem turned (phase : Phase) : R hw (hw.turned phase) :=
  h.trans (h.showing hw _) (h.refreshed _ true)

theorem worked (phase : Phase) : R hw (hw.worked phase) := by
  cases phase with
  | hblank | oamScan => exact h.refl hw
  | drawing => exact h.showing hw fun d ↦ d.drawLine hw.bus
  | vblank => exact h.trans (h.showing hw _) (h.requesting _ .vblank)

theorem planned (delay : Nat) (transition : Transition) : R hw (hw.planned delay transition) :=
  h.clock hw _

theorem entered (phase : Phase) : R hw (hw.entered phase) :=
  h.trans (h.trans (h.turned hw phase) (h.worked _ phase)) (h.planned _ _ _)

theorem followed (transition : Transition) : R hw (hw.followed transition) := by
  obtain ⟨phase, hf⟩ | ⟨line, phase, hf⟩ | ⟨line, hf⟩ := hw.followed_cases transition <;> rw [hf]
  · exact h.entered hw phase
  · exact h.trans (h.atLine hw line) (h.entered _ phase)
  · exact h.trans (h.atLine hw line) (h.planned _ _ _)

theorem started : R hw hw.started :=
  h.trans (h.showing hw _) (h.trans (h.atLine _ 0) (h.entered _ .oamScan))

theorem stopped : R hw hw.stopped := h.trans (h.showing hw _) (h.atLine _ 0)

theorem controlled (control : UInt8) : R hw (hw.controlled control) := by
  rw [Hardware.controlled]
  split
  · exact h.refl hw
  split
  · exact h.started hw
  · exact h.stopped hw

end CoversDisplay

/-- The display leaves the cartridge alone. -/
theorem cartridge_covers : CoversDisplay fun hw hw' ↦ hw'.bus.cartridge = hw.bus.cartridge where
  refl _ := rfl
  trans h h' := h'.trans h
  clock _ _ := rfl
  showing _ _ := rfl
  line _ _ := rfl
  status _ := rfl
  requesting _ _ := rfl

/-- The display leaves the registers of others alone. -/
theorem reg_covers {addr : UInt16} (hl : Register.line.toUInt8 ≠ addr.toUInt8)
    (hs : Register.lcdStatus.toUInt8 ≠ addr.toUInt8)
    (hr : Register.interruptRequest.toUInt8 ≠ addr.toUInt8) :
    CoversDisplay fun hw hw' ↦ hw'.reg addr = hw.reg addr where
  refl _ := rfl
  trans h h' := h'.trans h
  clock _ _ := rfl
  showing _ _ := rfl
  line hw line := reg_put_of_ne hw line hl
  status hw := reg_put_of_ne hw hw.statusNow hs
  requesting hw source := reg_requesting source hw hr

/-! ## Operations -/

section

variable {hw : Hardware} {op : Operation} {addr : UInt16}

/-- An operation that neither lets time pass nor turns the display on or off reaches no register but
the requests and the one that it writes to. -/
theorem reg_perform_of_quiet (hl : DisplayListens hw) (ha : ∀ cycles, op ≠ .advance cycles)
    (hc : ∀ value, op ≠ .write Register.lcdControl value) (hp : 0xff00 ≤ addr)
    (hr : addr ≠ Register.interruptRequest) (hop : ∀ value, op ≠ .write addr value) :
    (op.perform hw).state.reg addr = hw.reg addr := by
  have hne : Register.interruptRequest.toUInt8 ≠ addr.toUInt8 :=
    Bus.toUInt8_ne_of_page (by decide) hp (Ne.symm hr)
  cases op with
  | advance cycles => exact absurd rfl (ha cycles)
  | withdraw source => exact reg_put_of_ne hw _ hne
  | press button pressed => exact reg_press button pressed hw hne
  | write other value =>
    have hother : other ≠ addr := fun he ↦ hop value (by rw [he])
    have hcontrol : other ≠ Register.lcdControl := fun he ↦ hc value (by rw [he])
    rw [Operation.perform, write_of_ne hl hcontrol]
    exact Bus.register_write_of_ne hp hother value hw.bus

/-- Without time an operation reaches no register but the display's, the requests and the one that
it writes to. -/
theorem reg_perform (hl : DisplayListens hw) (ha : ∀ cycles, op ≠ .advance cycles)
    (hp : 0xff00 ≤ addr) (hline : addr ≠ Register.line) (hs : addr ≠ Register.lcdStatus)
    (hr : addr ≠ Register.interruptRequest) (hop : ∀ value, op ≠ .write addr value) :
    (op.perform hw).state.reg addr = hw.reg addr := by
  have hne : ∀ {other : UInt16}, 0xff00 ≤ other → addr ≠ other → other.toUInt8 ≠ addr.toUInt8 :=
    fun ho h ↦ Bus.toUInt8_ne_of_page ho hp (Ne.symm h)
  by_cases hc : ∃ value, op = .write Register.lcdControl value
  · obtain ⟨value, rfl⟩ := hc
    have haddr : addr ≠ Register.lcdControl := fun he ↦ hop value (by rw [he])
    have hcovers := reg_covers (hne (by decide) hline) (hne (by decide) hs) (hne (by decide) hr)
    rw [Operation.perform, write_lcdControl hl]
    exact (hcovers.controlled _ value).trans (reg_put_of_ne hw value (hne (by decide) haddr))
  · exact reg_perform_of_quiet hl ha (fun value he ↦ hc ⟨value, he⟩) hp hr hop

end

/-! ## Time -/

namespace CoversTime

variable (h : CoversTime R) (hw : Hardware)

include h

theorem counted : R hw hw.counted := by
  rw [Hardware.counted]
  split
  · exact h.trans (h.counter hw _) (h.requesting _ .timer)
  · exact h.counter hw _

theorem ticks {ticked : Hardware} {task : Task} {records : Array Record} {delay : Nat}
    (ht : Ticks hw task records ticked delay) : R hw ticked := by
  cases ht with
  | divider => exact h.divider hw _
  | counter =>
    split
    · exact h.counted hw
    · exact h.refl hw
  | calendar => exact h.calendar hw

/-- A relation that allows what the hardware does by itself allows time. -/
theorem allowsTurns : AllowsTurns fun hw _ hw' ↦ R hw hw' where
  refl := h.refl
  trans := h.trans
  moment hw _ _ := h.clock hw _
  turn ht := by
    cases ht with
    | tick ht => exact h.trans (h.ticks _ ht) (h.clock _ _)
    | void => exact h.refl _
    | display => exact h.followed _ _

end CoversTime

end DotMatrix.Hardware
