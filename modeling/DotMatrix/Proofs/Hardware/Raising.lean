import DotMatrix.Proofs.Hardware.Requests

/-!
# Who raises which requests

Which requests are raised after a change of the hardware: those that were, and those that the change
gives rise to.  The counter requests the timer's interrupt when it overflows, and the start of a
vertical blank has one of its own.  The status interrupt has two causes, a line that is the one to
compare with and a phase that starts, and programs choose with bits of the status byte which of them
count.

* `requested_counted`, `Ticks.requested_of_ne` — the requests after a tick.
* `requested_atLine`, `requested_entered` — the requests after a change of line and of phase.
* `requested_followed` — a transition raises none but the two that are the display's.
* `stat_atLine`, `stat_entered` — the request for the status, by its causes.
* `Announces` — the request for the vertical blank goes with the pictures: whatever fires raises it
  when it presents one, and never else.
-/

set_option autoImplicit false

namespace DotMatrix

/-- What holds of the bits that are kept holds of each of them. -/
theorem and_ne_zero_congr {x y kept mask : UInt8} (h : x &&& kept = y &&& kept)
    (hm : kept &&& mask = mask) : x &&& mask ≠ 0 ↔ y &&& mask ≠ 0 := by
  rw [← hm, ← UInt8.and_assoc, ← UInt8.and_assoc, h]

namespace Hardware

variable {hw hw' : Hardware} {source : Interrupt}

/-! ## Elementary changes -/

theorem requested_requesting_iff (source other : Interrupt) (hw : Hardware) :
    (hw.requesting source).Requested other ↔ hw.Requested other ∨ other = source := by
  by_cases h : source = other
  · subst h
    exact ⟨fun _ ↦ Or.inr rfl, fun _ ↦ requested_requesting source hw⟩
  · rw [requested_requesting_of_ne h]
    exact ⟨Or.inl, fun ho ↦ ho.resolve_right (Ne.symm h)⟩

theorem requested_put {addr : UInt16} (h : addr.toUInt8 ≠ Register.interruptRequest.toUInt8)
    (value : UInt8) (hw : Hardware) :
    (hw.put addr value).Requested source ↔ hw.Requested source := by
  rw [Requested, Requested, reg_put_of_ne hw value h]

/-! ## The timers -/

/-- The interrupt of the timer is requested when the counter overflows. -/
theorem requested_counted (hw : Hardware) : hw.counted.Requested source ↔
    hw.Requested source ∨ source = .timer ∧ (hw.reg Register.counter).toNat = 255 := by
  by_cases h : hw.reg Register.counter = 0xff
  · have hfull : (hw.reg Register.counter).toNat = 255 := by rw [h]; rfl
    rw [counted, if_pos h, requested_requesting_iff, requested_put (by decide)]
    simp [hfull]
  · have hne : (hw.reg Register.counter).toNat ≠ 255 := fun he ↦ h (UInt8.toNat_inj.1 he)
    rw [counted, if_neg h, requested_put (by decide)]
    simp [hne]

/-- A tick raises no other request. -/
theorem Ticks.requested_of_ne {task : Task} {records : Array Record} {delay : Nat}
    (h : Ticks hw task records hw' delay) (hs : source ≠ .timer) :
    hw'.Requested source ↔ hw.Requested source := by
  cases h with
  | divider => exact requested_put (by decide) _ hw
  | calendar => exact Iff.rfl
  | counter =>
    split
    · rw [requested_counted]
      simp [hs]
    · exact Iff.rfl

/-! ## The display -/

theorem requested_refreshed (hw : Hardware) (phaseStarts : Bool) :
    (hw.refreshed phaseStarts).Requested source ↔
      hw.Requested source ∨ source = .stat ∧ hw.raises phaseStarts := by
  rw [refreshed]
  split
  · rename_i h
    rw [requested_requesting_iff, requested_put (by decide)]
    simp [h]
  · rename_i h
    rw [requested_put (by decide)]
    simp [h]

theorem requested_atLine (hw : Hardware) (line : UInt8) : (hw.atLine line).Requested source ↔
    hw.Requested source ∨ source = .stat ∧ (hw.put Register.line line).raises false := by
  rw [atLine, requested_refreshed, requested_put (by decide)]

theorem requested_worked (hw : Hardware) (phase : Phase) : (hw.worked phase).Requested source ↔
    hw.Requested source ∨ source = .vblank ∧ phase = .vblank := by
  cases phase with
  | hblank | oamScan | drawing =>
    show hw.Requested source ↔ _
    simp
  | vblank =>
    rw [worked, requested_requesting_iff]
    simp [Requested]

theorem requested_entered (hw : Hardware) (phase : Phase) :
    (hw.entered phase).Requested source ↔ (hw.Requested source ∨
      source = .stat ∧ (hw.showing fun d ↦ { d with phase := phase }).raises true) ∨
      source = .vblank ∧ phase = .vblank := by
  show ((hw.turned phase).worked phase).Requested source ↔ _
  rw [requested_worked, turned, requested_refreshed]
  rfl

/-- A transition raises no request but those of the display. -/
theorem requested_followed (hs : source ≠ .stat) (hv : source ≠ .vblank) (transition : Transition) :
    (hw.followed transition).Requested source ↔ hw.Requested source := by
  have hatLine : ∀ (hw : Hardware) (line : UInt8),
      (hw.atLine line).Requested source ↔ hw.Requested source := fun hw line ↦ by
    rw [requested_atLine]
    simp [hs]
  have hentered : ∀ (hw : Hardware) (phase : Phase),
      (hw.entered phase).Requested source ↔ hw.Requested source := fun hw phase ↦ by
    rw [requested_entered]
    simp [hs, hv]
  obtain ⟨phase, h⟩ | ⟨line, phase, h⟩ | ⟨line, h⟩ := hw.followed_cases transition <;> rw [h]
  · exact hentered hw phase
  · exact (hentered _ phase).trans (hatLine hw line)
  · exact hatLine hw line

/-! ## The status interrupt -/

/-- What makes showing the display as it is request an interrupt. -/
theorem raises_iff (hw : Hardware) (phaseStarts : Bool) : hw.raises phaseStarts ↔
    hw.display.enabled ∧
      (hw.reg Register.line = hw.reg Register.lineCompare ∧
          hw.reg Register.lcdStatus &&& Register.matchInterrupt ≠ 0 ∨
        phaseStarts ∧ hw.reg Register.lcdStatus &&& hw.display.phase.interruptBit ≠ 0) := by
  have hkept : hw.statusNow &&& 0x78 = hw.reg Register.lcdStatus &&& 0x78 := kept_statusByte _ _ _
  have hbit : 0x78 &&& hw.display.phase.interruptBit = hw.display.phase.interruptBit := by
    cases hw.display.phase <;> rfl
  have hmatchBit : 0x78 &&& Register.matchInterrupt = Register.matchInterrupt := rfl
  have hmatch : hw.matchesLine ↔ hw.reg Register.line = hw.reg Register.lineCompare := beq_iff_eq
  rw [← and_ne_zero_congr hkept hmatchBit, ← and_ne_zero_congr hkept hbit, ← hmatch]
  simp [raises, raisesInterrupt]

/-- A change of line requests it when the line is the one to compare with. -/
theorem stat_atLine (hw : Hardware) (line : UInt8) : (hw.atLine line).Requested .stat ↔
    hw.Requested .stat ∨ hw.display.enabled ∧ line = hw.reg Register.lineCompare ∧
      hw.reg Register.lcdStatus &&& Register.matchInterrupt ≠ 0 := by
  rw [requested_atLine, raises_iff, reg_put_self, reg_put_of_ne _ _ (by decide),
    reg_put_of_ne _ _ (by decide), display_put]
  simp

/-- The start of a phase requests it for the phase or, once more, for the line. -/
theorem stat_entered (hw : Hardware) (phase : Phase) : (hw.entered phase).Requested .stat ↔
    hw.Requested .stat ∨ hw.display.enabled ∧
      (hw.reg Register.line = hw.reg Register.lineCompare ∧
          hw.reg Register.lcdStatus &&& Register.matchInterrupt ≠ 0 ∨
        hw.reg Register.lcdStatus &&& phase.interruptBit ≠ 0) := by
  rw [requested_entered, raises_iff]
  simp

/-! ## The vertical blank -/

/-- Pictures are only ever added, and the request for the vertical blank is raised in the end exactly
if it was at the beginning or a picture was added meanwhile. -/
def Announces (hw hw' : Hardware) : Prop :=
  hw.display.frames ≤ hw'.display.frames ∧
    (hw'.Requested .vblank ↔ hw.Requested .vblank ∨ hw.display.frames < hw'.display.frames)

namespace Announces

theorem of_same (hf : hw'.display.frames = hw.display.frames)
    (hr : hw'.Requested .vblank ↔ hw.Requested .vblank) : Announces hw hw' :=
  ⟨Nat.le_of_eq hf.symm, by rw [hr, hf, or_iff_left (Nat.lt_irrefl _)]⟩

theorem refl (hw : Hardware) : Announces hw hw := of_same rfl Iff.rfl

theorem trans {hw'' : Hardware} (h : Announces hw hw') (h' : Announces hw' hw'') :
    Announces hw hw'' := by
  obtain ⟨hle, hiff⟩ := h
  obtain ⟨hle', hiff'⟩ := h'
  refine ⟨Nat.le_trans hle hle', ?_⟩
  rw [hiff', hiff, or_assoc]
  exact or_congr_right (by omega)

end Announces

theorem announces_atLine (hw : Hardware) (line : UInt8) : Announces hw (hw.atLine line) :=
  .of_same (congrArg Display.frames (display_atLine hw line))
    ((requested_atLine hw line).trans (by simp))

theorem announces_entered (hw : Hardware) (phase : Phase) : Announces hw (hw.entered phase) := by
  rw [Announces, frames_entered, requested_entered]
  cases phase <;> simp

/-- A transition announces the picture that it presents. -/
theorem announces_followed (hw : Hardware) (transition : Transition) :
    Announces hw (hw.followed transition) := by
  obtain ⟨phase, h⟩ | ⟨line, phase, h⟩ | ⟨line, h⟩ := hw.followed_cases transition <;> rw [h]
  · exact announces_entered hw phase
  · exact (announces_atLine hw line).trans (announces_entered _ phase)
  · exact announces_atLine hw line

/-- So does whatever fires. -/
theorem announces_turns : AllowsTurns fun hw _ hw' ↦ Announces hw hw' where
  refl := .refl
  trans := .trans
  moment _ _ _ := .of_same rfl Iff.rfl
  turn h := by
    cases h with
    | tick h =>
      exact .of_same (congrArg Display.frames h.quiet.display) (h.requested_of_ne (by decide))
    | void => exact .refl _
    | display => exact announces_followed _ _

/-- No transition presents more than one picture. -/
theorem frames_followed_le (hw : Hardware) (transition : Transition) :
    (hw.followed transition).display.frames ≤ hw.display.frames + 1 := by
  have hatLine : ∀ line : UInt8, (hw.atLine line).display.frames = hw.display.frames :=
    fun line ↦ congrArg Display.frames (display_atLine hw line)
  have hentered : ∀ (hw : Hardware) (phase : Phase),
      (hw.entered phase).display.frames ≤ hw.display.frames + 1 := fun hw phase ↦ by
    rw [frames_entered]
    split <;> omega
  obtain ⟨phase, h⟩ | ⟨line, phase, h⟩ | ⟨line, h⟩ := hw.followed_cases transition <;> rw [h]
  · exact hentered hw phase
  · exact hatLine line ▸ hentered (hw.atLine line) phase
  · exact Nat.le_succ_of_le (Nat.le_of_eq (hatLine line))

theorem Turn.frames_le {records : Array Record} (h : Turn hw records hw') :
    hw'.display.frames ≤ hw.display.frames + 1 := by
  cases h with
  | tick h => exact Nat.le_succ_of_le (Nat.le_of_eq (congrArg Display.frames h.quiet.display))
  | void => exact Nat.le_succ _
  | display => exact frames_followed_le _ _

/-! ### Without time -/

section

variable {op : Operation}

/-- Without time no picture is presented. -/
theorem frames_perform (hl : DisplayListens hw) (ha : ∀ cycles, op ≠ .advance cycles) :
    (op.perform hw).state.display.frames = hw.display.frames := by
  by_cases hc : ∃ value, op = .write Register.lcdControl value
  · obtain ⟨value, rfl⟩ := hc
    rw [Operation.perform]
    rcases write_lcdControl_cases hl value with ⟨-, ho⟩ | ⟨-, -, ho⟩ | ⟨-, -, ho⟩ <;> rw [ho]
    · rfl
    · exact frames_started _
    · simp [stopped]
  · exact congrArg Display.frames
      (quiet_perform hl ha fun value he ↦ hc ⟨value, he⟩).display

/-- Turning the display on or off raises no request for the vertical blank. -/
theorem vblank_write_lcdControl (hl : DisplayListens hw) (value : UInt8) :
    (write Register.lcdControl value hw).state.Requested .vblank ↔ hw.Requested .vblank := by
  have hput : (hw.put Register.lcdControl value).Requested .vblank ↔ hw.Requested .vblank :=
    requested_put (by decide) value hw
  rcases write_lcdControl_cases hl value with ⟨-, ho⟩ | ⟨-, -, ho⟩ | ⟨-, -, ho⟩ <;>
    rw [ho, ← hput]
  · rw [started, requested_entered, requested_atLine]
    simp [Requested]
  · rw [stopped, requested_atLine]
    simp [Requested]

/-- Nothing that takes no time changes the request for the vertical blank, but a write of the program
to the requests and its withdrawal when it is served. -/
theorem vblank_perform (hl : DisplayListens hw) (ha : ∀ cycles, op ≠ .advance cycles)
    (hr : ∀ value, op ≠ .write Register.interruptRequest value) (hs : op ≠ .withdraw .vblank) :
    (op.perform hw).state.Requested .vblank ↔ hw.Requested .vblank := by
  cases op with
  | advance cycles => exact absurd rfl (ha cycles)
  | withdraw source => exact requested_withdraw_of_ne fun he ↦ hs (by rw [he])
  | press button pressed =>
    rw [Operation.perform, press, Exec.bind_gets]
    split
    · exact requested_requesting_of_ne (by decide)
    · exact Iff.rfl
  | write addr value =>
    rw [Operation.perform]
    by_cases hc : addr = Register.lcdControl
    · rw [hc]
      exact vblank_write_lcdControl hl value
    · have haddr : addr ≠ Register.interruptRequest := fun he ↦ hr value (by rw [he])
      have hreg : (onBus (Bus.write addr value) hw).state.reg Register.interruptRequest =
          hw.reg Register.interruptRequest :=
        Bus.register_write_of_ne (by decide) haddr value hw.bus
      rw [write_of_ne hl hc, Requested, hreg, Requested]

end

end Hardware

end DotMatrix
