import DotMatrix.Proofs.Hardware.Update

/-!
# What the display's operations do

The changes that scanning makes, as functions from hardware to hardware.  Every phase has a duration
and a way out, and entering one is the same but for the work that it does: `entered` is the one
function behind the four cases, and `started` and `stopped` turn the display on and off.
-/

set_option autoImplicit false

namespace DotMatrix

namespace Phase

/-- How long a phase lasts; of the vertical blank, one line of it. -/
def duration : Phase → Nat
  | .hblank => hblankCycles
  | .vblank => lineCycles
  | .oamScan => oamScanCycles
  | .drawing => drawingCycles

theorem le_duration (phase : Phase) : oamScanCycles ≤ phase.duration := by
  cases phase <;> decide

/-- The way out of a phase. -/
def exit : Phase → Transition
  | .hblank => .endLine
  | .vblank => .nextBlankLine
  | .oamScan => .draw
  | .drawing => .blank

end Phase

namespace Display

variable (d : Display) (b : Bus)

@[simp] theorem phase_drawLine : (d.drawLine b).phase = d.phase := by
  rw [drawLine]
  split <;> rfl

@[simp] theorem enabled_drawLine : (d.drawLine b).enabled = d.enabled := by
  rw [drawLine]
  split <;> rfl

@[simp] theorem epoch_drawLine : (d.drawLine b).epoch = d.epoch := by
  rw [drawLine]
  split <;> rfl

@[simp] theorem frames_drawLine : (d.drawLine b).frames = d.frames := by
  rw [drawLine]
  split <;> rfl

end Display

namespace Hardware

variable (hw : Hardware)

/-! ## The status byte -/

/-- Whether the line is the one to compare with. -/
def matchesLine : Bool := hw.reg Register.line == hw.reg Register.lineCompare

/-- The status byte that shows the display as it is. -/
def statusNow : UInt8 := statusByte (hw.reg Register.lcdStatus) hw.display.phase hw.matchesLine

/-- Whether showing the display as it is requests an interrupt. -/
def raises (phaseStarts : Bool) : Bool :=
  hw.display.enabled && raisesInterrupt hw.statusNow hw.display.phase hw.matchesLine phaseStarts

/-- The hardware with its status byte brought up to date. -/
def refreshed (phaseStarts : Bool) : Hardware :=
  let shown := hw.put Register.lcdStatus hw.statusNow
  if hw.raises phaseStarts then shown.requesting .stat else shown

/-- What bringing the status byte up to date gives rise to report. -/
def refreshRecords (phaseStarts : Bool) : Array Record :=
  if hw.raises phaseStarts then #[.notice (.interruptRequested .stat)] else #[]

theorem updateStatus_apply (phaseStarts : Bool) : updateStatus phaseStarts hw =
    ⟨.ok (), hw.refreshed phaseStarts, hw.refreshRecords phaseStarts⟩ := by
  rw [refreshed, refreshRecords]
  simp only [updateStatus, bind_register, Exec.bind_gets, bind_setRegister]
  split
  · rename_i h
    have hr : hw.raises phaseStarts = true := h
    rw [hr]
    rfl
  · rename_i h
    have hr : ¬ hw.raises phaseStarts = true := h
    rw [if_neg hr, if_neg hr]
    rfl

section

variable (phaseStarts : Bool)

@[simp] theorem clock_refreshed : (hw.refreshed phaseStarts).clock = hw.clock := by
  rw [refreshed]
  split <;> rfl

@[simp] theorem display_refreshed : (hw.refreshed phaseStarts).display = hw.display := by
  rw [refreshed]
  split <;> rfl

@[simp] theorem observers_refreshed :
    (hw.refreshed phaseStarts).body.observers = hw.body.observers := by
  rw [refreshed]
  split <;> rfl

/-- Only the status byte and the requests change. -/
theorem reg_refreshed {addr : UInt16} (hs : Register.lcdStatus.toUInt8 ≠ addr.toUInt8)
    (hr : Register.interruptRequest.toUInt8 ≠ addr.toUInt8) :
    (hw.refreshed phaseStarts).reg addr = hw.reg addr := by
  rw [refreshed]
  split
  · rw [reg_requesting _ _ hr, reg_put_of_ne _ _ hs]
  · exact reg_put_of_ne _ _ hs

@[simp] theorem status_refreshed :
    (hw.refreshed phaseStarts).reg Register.lcdStatus = hw.statusNow := by
  rw [refreshed]
  split
  · rw [reg_requesting _ _ (by decide), reg_put_self]
  · exact reg_put_self _ _ _

end

/-- The mode bits of the status byte are the phase's code, whatever was in it. -/
theorem mode_statusByte (old : UInt8) (phase : Phase) (isMatch : Bool) :
    statusByte old phase isMatch &&& 3 = phase.code := by
  revert old
  cases phase <;> cases isMatch <;> exact forall_byte (by decide +kernel)

/-- The bits that programs write are kept when the status byte is brought up to date. -/
theorem kept_statusByte (old : UInt8) (phase : Phase) (isMatch : Bool) :
    statusByte old phase isMatch &&& 0x78 = old &&& 0x78 := by
  revert old
  cases phase <;> cases isMatch <;> exact forall_byte (by decide +kernel)

/-- The status byte shows the display as it is. -/
def UpToDate : Prop := hw.reg Register.lcdStatus = hw.statusNow

namespace UpToDate

variable {hw} {hw' : Hardware}

theorem mode (h : hw.UpToDate) : hw.reg Register.lcdStatus &&& 3 = hw.display.phase.code := by
  rw [h]
  exact mode_statusByte _ _ _

/-- It depends on the phase and three registers. -/
theorem congr (h : hw.UpToDate) (hs : hw'.reg Register.lcdStatus = hw.reg Register.lcdStatus)
    (hp : hw'.display.phase = hw.display.phase)
    (hl : hw'.reg Register.line = hw.reg Register.line)
    (hc : hw'.reg Register.lineCompare = hw.reg Register.lineCompare) : hw'.UpToDate := by
  rw [UpToDate, statusNow, matchesLine, hs, hp, hl, hc]
  exact h

end UpToDate

/-- Bringing the status byte up to date does so. -/
theorem upToDate_refreshed (phaseStarts : Bool) : (hw.refreshed phaseStarts).UpToDate := by
  rw [UpToDate, statusNow, status_refreshed, display_refreshed, matchesLine,
    reg_refreshed _ _ (by decide) (by decide), reg_refreshed _ _ (by decide) (by decide)]
  exact (congrArg (0x80 ||| · ||| _ ||| _) (kept_statusByte _ _ _)).symm

/-! ## Lines -/

/-- The hardware at another line. -/
def atLine (line : UInt8) : Hardware := (hw.put Register.line line).refreshed false

/-- What moving to a line gives rise to report. -/
def lineRecords (line : UInt8) : Array Record :=
  (hw.put Register.line line).refreshRecords false

theorem setLine_apply (line : UInt8) :
    setLine line hw = ⟨.ok (), hw.atLine line, hw.lineRecords line⟩ := by
  rw [setLine, bind_setRegister]
  exact updateStatus_apply _ _

section

variable (line : UInt8)

@[simp] theorem clock_atLine : (hw.atLine line).clock = hw.clock := by
  simp [atLine]

@[simp] theorem display_atLine : (hw.atLine line).display = hw.display := by
  simp [atLine]

@[simp] theorem observers_atLine :
    (hw.atLine line).body.observers = hw.body.observers := by
  simp [atLine]

@[simp] theorem line_atLine : (hw.atLine line).reg Register.line = line := by
  rw [atLine, reg_refreshed _ _ (by decide) (by decide), reg_put_self]

@[simp] theorem control_atLine :
    (hw.atLine line).reg Register.lcdControl = hw.reg Register.lcdControl := by
  rw [atLine, reg_refreshed _ _ (by decide) (by decide), reg_put_of_ne _ _ (by decide)]

theorem upToDate_atLine : (hw.atLine line).UpToDate := upToDate_refreshed _ _

end

/-! ## Phases -/

/-- The hardware with a transition of the present epoch planned. -/
def planned (delay : Nat) (transition : Transition) : Hardware :=
  hw.later delay (.display hw.display.epoch transition)

theorem plan_apply (delay : Nat) (transition : Transition) :
    plan delay transition hw = ⟨.ok (), hw.planned delay transition, #[]⟩ := rfl

/-- The hardware with the current line drawn. -/
def drawn : Hardware := hw.showing fun d ↦ d.drawLine hw.bus

/-- The hardware after the work that a phase does when it starts. -/
def worked : Phase → Hardware
  | .hblank | .oamScan => hw
  | .drawing => hw.drawn
  | .vblank => (hw.showing Display.present).requesting .vblank

/-- What the work of a phase gives rise to report. -/
def workRecords : Phase → Array Record
  | .hblank | .oamScan | .drawing => #[]
  | .vblank =>
    #[.notice (.framePresented (hw.display.frames + 1)), .notice (.interruptRequested .vblank)]

/-- The hardware that shows a phase which starts. -/
def turned (phase : Phase) : Hardware :=
  (hw.showing fun d ↦ { d with phase := phase }).refreshed true

/-- The hardware with a phase started. -/
def entered (phase : Phase) : Hardware :=
  ((hw.turned phase).worked phase).planned phase.duration phase.exit

/-- What starting a phase gives rise to report. -/
def entryRecords (phase : Phase) : Array Record :=
  #[.notice (.phaseEntered phase (hw.reg Register.line))] ++
    ((hw.showing fun d ↦ { d with phase := phase }).refreshRecords true ++
      (hw.turned phase).workRecords phase)

theorem enter_apply (phase : Phase) :
    enter phase hw = ⟨.ok (), hw.entered phase, hw.entryRecords phase⟩ := by
  cases phase <;>
    rw [enter, bind_register, Exec.bind_report, bind_modifyDisplay,
      Exec.bind_of_ok (updateStatus_apply _ _)] <;>
    rfl

section

variable (phase : Phase)

@[simp] theorem clock_worked : (hw.worked phase).clock = hw.clock := by
  cases phase <;> rfl

@[simp] theorem observers_worked : (hw.worked phase).body.observers = hw.body.observers := by
  cases phase <;> rfl

theorem reg_worked {addr : UInt16} (hr : Register.interruptRequest.toUInt8 ≠ addr.toUInt8) :
    (hw.worked phase).reg addr = hw.reg addr := by
  cases phase with
  | hblank | oamScan | drawing => rfl
  | vblank => exact reg_requesting _ _ hr

@[simp] theorem phase_worked : (hw.worked phase).display.phase = hw.display.phase := by
  cases phase with
  | hblank | oamScan | vblank => rfl
  | drawing => exact hw.display.phase_drawLine hw.bus

@[simp] theorem enabled_worked : (hw.worked phase).display.enabled = hw.display.enabled := by
  cases phase with
  | hblank | oamScan | vblank => rfl
  | drawing => exact hw.display.enabled_drawLine hw.bus

@[simp] theorem epoch_worked : (hw.worked phase).display.epoch = hw.display.epoch := by
  cases phase with
  | hblank | oamScan | vblank => rfl
  | drawing => exact hw.display.epoch_drawLine hw.bus

/-- Only the start of a vertical blank presents a picture. -/
theorem frames_worked : (hw.worked phase).display.frames =
    hw.display.frames + if phase = .vblank then 1 else 0 := by
  cases phase with
  | hblank | oamScan | vblank => rfl
  | drawing => exact hw.display.frames_drawLine hw.bus

@[simp] theorem clock_entered : (hw.entered phase).clock =
    hw.clock.schedule phase.duration (.display hw.display.epoch phase.exit) := by
  simp [entered, planned, turned]

@[simp] theorem observers_entered : (hw.entered phase).body.observers = hw.body.observers := by
  simp [entered, planned, turned]

@[simp] theorem phase_entered : (hw.entered phase).display.phase = phase := by
  simp [entered, planned, turned]

@[simp] theorem enabled_entered :
    (hw.entered phase).display.enabled = hw.display.enabled := by
  simp [entered, planned, turned]

@[simp] theorem epoch_entered : (hw.entered phase).display.epoch = hw.display.epoch := by
  simp [entered, planned, turned]

theorem frames_entered : (hw.entered phase).display.frames =
    hw.display.frames + if phase = .vblank then 1 else 0 := by
  simp [entered, planned, turned, frames_worked]

/-- Only the status byte and the requests change. -/
theorem reg_entered {addr : UInt16} (hs : Register.lcdStatus.toUInt8 ≠ addr.toUInt8)
    (hr : Register.interruptRequest.toUInt8 ≠ addr.toUInt8) :
    (hw.entered phase).reg addr = hw.reg addr := by
  rw [entered, planned, reg_later, reg_worked _ _ hr, turned, reg_refreshed _ _ hs hr, reg_showing]

@[simp] theorem line_entered : (hw.entered phase).reg Register.line = hw.reg Register.line :=
  hw.reg_entered phase (by decide) (by decide)

@[simp] theorem control_entered :
    (hw.entered phase).reg Register.lcdControl = hw.reg Register.lcdControl :=
  hw.reg_entered phase (by decide) (by decide)

theorem upToDate_entered : (hw.entered phase).UpToDate := by
  have hturned : (hw.turned phase).UpToDate := upToDate_refreshed _ _
  exact hturned.congr (reg_worked _ _ (by decide)) (phase_worked _ _) (reg_worked _ _ (by decide))
    (reg_worked _ _ (by decide))

end

/-! ## Transitions -/

/-- The line after the current one. -/
def lineBelow : UInt8 := hw.reg Register.line + 1

variable {hw} in
theorem line_ne_of_lt (h : (hw.reg Register.line).toNat < totalLines) :
    hw.reg Register.line ≠ 0xff := by
  intro he
  rw [he] at h
  exact absurd h (by decide)

variable {hw} in
/-- Below a line of the frame is the next one. -/
theorem toNat_lineBelow (h : (hw.reg Register.line).toNat < totalLines) :
    hw.lineBelow.toNat = (hw.reg Register.line).toNat + 1 := by
  rw [totalLines] at h
  rw [lineBelow, UInt8.toNat_add, UInt8.toNat_one]
  exact Nat.mod_eq_of_lt (by omega)

theorem nextLine_apply (h : hw.reg Register.line ≠ 0xff) :
    nextLine hw = ⟨.ok hw.lineBelow, hw, #[]⟩ := by
  rw [nextLine, bind_register, if_neg h]
  rfl

/-- The phase that starts with the line after the current one, a visible one or the first below the
picture. -/
def phaseBelow : Phase := if hw.lineBelow.toNat = visibleLines then .vblank else .oamScan

/-- The hardware after a transition. -/
def followed : Transition → Hardware
  | .draw => hw.entered .drawing
  | .blank => hw.entered .hblank
  | .endLine => (hw.atLine hw.lineBelow).entered hw.phaseBelow
  | .nextBlankLine =>
    if hw.lineBelow.toNat = totalLines then (hw.atLine 0).entered .oamScan
    else (hw.atLine hw.lineBelow).planned lineCycles .nextBlankLine

/-- What a transition gives rise to report. -/
def followRecords : Transition → Array Record
  | .draw => hw.entryRecords .drawing
  | .blank => hw.entryRecords .hblank
  | .endLine =>
    hw.lineRecords hw.lineBelow ++ (hw.atLine hw.lineBelow).entryRecords hw.phaseBelow
  | .nextBlankLine =>
    if hw.lineBelow.toNat = totalLines then
      hw.lineRecords 0 ++ (hw.atLine 0).entryRecords .oamScan
    else hw.lineRecords hw.lineBelow

section

variable (transition : Transition)

/-- A transition is the start of a phase, on this line or on another one, or one more line of the
vertical blank. -/
theorem followed_cases :
    (∃ phase, hw.followed transition = hw.entered phase) ∨
    (∃ line phase, hw.followed transition = (hw.atLine line).entered phase) ∨
    ∃ line, hw.followed transition = (hw.atLine line).planned lineCycles .nextBlankLine := by
  cases transition with
  | draw | blank => exact Or.inl ⟨_, rfl⟩
  | endLine => exact Or.inr (Or.inl ⟨_, _, rfl⟩)
  | nextBlankLine =>
    rw [followed]
    split
    · exact Or.inr (Or.inl ⟨_, _, rfl⟩)
    · exact Or.inr (Or.inr ⟨_, rfl⟩)

@[simp] theorem observers_followed :
    (hw.followed transition).body.observers = hw.body.observers := by
  obtain ⟨_, h⟩ | ⟨_, _, h⟩ | ⟨_, h⟩ := hw.followed_cases transition <;> rw [h]
  case inr.inr => simp [planned]
  all_goals simp

@[simp] theorem enabled_followed :
    (hw.followed transition).display.enabled = hw.display.enabled := by
  obtain ⟨_, h⟩ | ⟨_, _, h⟩ | ⟨_, h⟩ := hw.followed_cases transition <;> rw [h]
  case inr.inr => simp [planned]
  all_goals simp

@[simp] theorem epoch_followed :
    (hw.followed transition).display.epoch = hw.display.epoch := by
  obtain ⟨_, h⟩ | ⟨_, _, h⟩ | ⟨_, h⟩ := hw.followed_cases transition <;> rw [h]
  case inr.inr => simp [planned]
  all_goals simp

@[simp] theorem control_followed :
    (hw.followed transition).reg Register.lcdControl = hw.reg Register.lcdControl := by
  obtain ⟨_, h⟩ | ⟨_, _, h⟩ | ⟨_, h⟩ := hw.followed_cases transition <;> rw [h]
  case inr.inr => simp [planned]
  all_goals simp

theorem upToDate_followed : (hw.followed transition).UpToDate := by
  obtain ⟨phase, h⟩ | ⟨line, phase, h⟩ | ⟨line, h⟩ := hw.followed_cases transition <;> rw [h]
  · exact upToDate_entered _ _
  · exact upToDate_entered _ _
  · exact (upToDate_atLine _ _).congr rfl rfl rfl rfl

/-- A transition plans one more. -/
theorem exists_clock_followed : ∃ delay next, oamScanCycles ≤ delay ∧
    (hw.followed transition).clock = hw.clock.schedule delay (.display hw.display.epoch next) := by
  obtain ⟨phase, h⟩ | ⟨line, phase, h⟩ | ⟨line, h⟩ := hw.followed_cases transition <;> rw [h]
  · exact ⟨_, _, Phase.le_duration _, by rw [clock_entered]⟩
  · exact ⟨_, _, Phase.le_duration _, by rw [clock_entered, clock_atLine, display_atLine]⟩
  · exact ⟨lineCycles, .nextBlankLine, by decide,
      by rw [planned, clock_later, clock_atLine, display_atLine]⟩

/-- The way out of the phase plans the way out of the next one. -/
theorem clock_followed_exit : (hw.followed hw.display.phase.exit).clock =
    hw.clock.schedule (hw.followed hw.display.phase.exit).display.phase.duration
      (.display hw.display.epoch (hw.followed hw.display.phase.exit).display.phase.exit) := by
  cases hp : hw.display.phase <;> rw [Phase.exit, followed]
  case vblank =>
    split
    · simp
    · simp [planned, hp, Phase.duration, Phase.exit]
  all_goals simp

end

theorem endLine_apply (h : hw.reg Register.line ≠ 0xff) :
    endLine hw = ⟨.ok (), hw.followed .endLine, hw.followRecords .endLine⟩ := by
  rw [endLine, Exec.bind_of_ok (hw.nextLine_apply h), Exec.bind_of_ok (setLine_apply _ _),
    followed, followRecords, phaseBelow, Outcome.after_empty]
  split
  · rw [enter_apply]
    rfl
  · rw [enter_apply]
    rfl

theorem nextBlankLine_apply (h : hw.reg Register.line ≠ 0xff) :
    nextBlankLine hw = ⟨.ok (), hw.followed .nextBlankLine, hw.followRecords .nextBlankLine⟩ := by
  rw [nextBlankLine, Exec.bind_of_ok (hw.nextLine_apply h), followed, followRecords,
    Outcome.after_empty]
  split
  · rw [Exec.bind_of_ok (setLine_apply _ _), enter_apply]
    rfl
  · rw [Exec.bind_of_ok (setLine_apply _ _), plan_apply, Outcome.after, Array.append_empty]

/-- A transition succeeds unless there is no line to go to. -/
theorem follow_apply (h : hw.reg Register.line ≠ 0xff) (transition : Transition) :
    follow transition hw = ⟨.ok (), hw.followed transition, hw.followRecords transition⟩ := by
  cases transition with
  | draw => exact enter_apply hw .drawing
  | blank => exact enter_apply hw .hblank
  | endLine => exact endLine_apply hw h
  | nextBlankLine => exact nextBlankLine_apply hw h

/-- A transition planned in an earlier epoch, or while the display was on, does nothing. -/
theorem followPlan_of_void {epoch : Nat} (h : ¬ (hw.display.enabled ∧ hw.display.epoch = epoch))
    (transition : Transition) : followPlan epoch transition hw = ⟨.ok (), hw, #[]⟩ := by
  rw [followPlan, Exec.bind_gets, if_neg]
  · rfl
  · simpa using h

theorem followPlan_of_live (he : hw.display.enabled) (transition : Transition) :
    followPlan hw.display.epoch transition hw = follow transition hw := by
  rw [followPlan, Exec.bind_gets, if_pos]
  simpa using he

/-! ## Turning the display on and off -/

/-- The hardware with the display turned on. -/
def started : Hardware :=
  ((hw.showing fun d ↦ { d with enabled := true, epoch := d.epoch + 1 }).atLine 0).entered .oamScan

/-- What turning the display on gives rise to report. -/
def startRecords : Array Record :=
  let on := hw.showing fun d ↦ { d with enabled := true, epoch := d.epoch + 1 }
  on.lineRecords 0 ++ (on.atLine 0).entryRecords .oamScan

theorem startDisplay_apply : startDisplay hw = ⟨.ok (), hw.started, hw.startRecords⟩ := by
  rw [startDisplay, bind_modifyDisplay, Exec.bind_of_ok (setLine_apply _ _), enter_apply]
  rfl

/-- The hardware with the display turned off. -/
def stopped : Hardware :=
  (hw.showing fun d ↦ { d with enabled := false, epoch := d.epoch + 1, phase := .hblank }).atLine 0

theorem stopDisplay_apply : stopDisplay hw = ⟨.ok (), hw.stopped, #[]⟩ := by
  rw [stopDisplay, bind_modifyDisplay, bind_setRegister, updateStatus_apply]
  rfl

section

@[simp] theorem clock_started : hw.started.clock =
    hw.clock.schedule oamScanCycles (.display (hw.display.epoch + 1) .draw) := by
  simp [started, Phase.duration, Phase.exit]

@[simp] theorem observers_started : hw.started.body.observers = hw.body.observers := by
  simp [started]

@[simp] theorem enabled_started : hw.started.display.enabled = true := by
  simp [started]

@[simp] theorem epoch_started : hw.started.display.epoch = hw.display.epoch + 1 := by
  simp [started]

@[simp] theorem phase_started : hw.started.display.phase = .oamScan := by
  simp [started]

@[simp] theorem frames_started : hw.started.display.frames = hw.display.frames := by
  simp [started, frames_entered]

@[simp] theorem line_started : hw.started.reg Register.line = 0 := by
  simp [started]

@[simp] theorem control_started :
    hw.started.reg Register.lcdControl = hw.reg Register.lcdControl := by
  simp [started]

theorem upToDate_started : hw.started.UpToDate := upToDate_entered _ _

@[simp] theorem clock_stopped : hw.stopped.clock = hw.clock := by
  simp [stopped]

@[simp] theorem observers_stopped : hw.stopped.body.observers = hw.body.observers := by
  simp [stopped]

@[simp] theorem enabled_stopped : hw.stopped.display.enabled = false := by
  simp [stopped]

@[simp] theorem epoch_stopped : hw.stopped.display.epoch = hw.display.epoch + 1 := by
  simp [stopped]

@[simp] theorem phase_stopped : hw.stopped.display.phase = .hblank := by
  simp [stopped]

@[simp] theorem line_stopped : hw.stopped.reg Register.line = 0 := by
  simp [stopped]

@[simp] theorem control_stopped :
    hw.stopped.reg Register.lcdControl = hw.reg Register.lcdControl := by
  simp [stopped]

theorem upToDate_stopped : hw.stopped.UpToDate := upToDate_atLine _ _

end

/-- Whether a control byte turns the display on. -/
def turnsOn (control : UInt8) : Bool := control &&& Register.displayOn ≠ 0

/-- The hardware after the display was told a new control byte. -/
def controlled (control : UInt8) : Hardware :=
  if hw.display.enabled = turnsOn control then hw
  else if turnsOn control then hw.started
  else hw.stopped

/-- What telling the display a new control byte gives rise to report. -/
def controlRecords (control : UInt8) : Array Record :=
  if hw.display.enabled = turnsOn control then #[]
  else if turnsOn control then #[.notice .displayEnabled] ++ hw.startRecords
  else #[.notice .displayDisabled]

theorem controlDisplay_apply (control : UInt8) :
    controlDisplay control hw = ⟨.ok (), hw.controlled control, hw.controlRecords control⟩ := by
  have ht : decide (control &&& Register.displayOn ≠ 0) = turnsOn control := rfl
  rw [controlDisplay, Exec.bind_gets, controlled, controlRecords]
  rw [ht]
  cases hw.display.enabled <;> cases turnsOn control
  · rfl
  · simp [startDisplay_apply, Outcome.after]
  · simp [stopDisplay_apply, Outcome.after]
  · rfl

end Hardware

end DotMatrix
