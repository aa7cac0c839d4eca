import DotMatrix.Proofs.Display.Transitions
import DotMatrix.Proofs.Hardware.Raising

/-!
# The status interrupt

A transition of the display can update the status byte twice, once for its line and once for its
phase.  Taken together it requests the status interrupt exactly when one of the causes that the
program has chosen applies to it, and nothing else does.

* `Causes` — the causes of the interrupt, by the status byte and the line to compare with.
* `stat_followed` — a transition requests it when it has a cause.
* `Runs.stat` — so a window does when one of its transitions has.
* `Dark` — what happens while the display is off.
* `status_interrupt` — all of this for every machine, with the times of the transitions.
-/

set_option autoImplicit false

namespace DotMatrix

/-- A change of the display, to a line and with some phases starting, is a cause of the status
interrupt: the line is the one to compare with, or one of the phases is one whose start counts.
Which causes count is chosen in the status byte. -/
def Causes (status compare line : UInt8) (starts : Phase → Prop) : Prop :=
  line = compare ∧ status &&& 0x40 ≠ 0 ∨ starts .hblank ∧ status &&& 0x08 ≠ 0 ∨
    starts .vblank ∧ status &&& 0x10 ≠ 0 ∨ starts .oamScan ∧ status &&& 0x20 ≠ 0

namespace Causes

variable {status status' compare line : UInt8} {starts starts' : Phase → Prop}

theorem congr (h : ∀ phase, starts phase ↔ starts' phase) :
    Causes status compare line starts ↔ Causes status compare line starts' := by
  rw [Causes, Causes, h, h, h]

/-- What a program chooses is in four bits. -/
theorem congr_status (h : status &&& 0x78 = status' &&& 0x78) :
    Causes status compare line starts ↔ Causes status' compare line starts := by
  rw [Causes, Causes, and_ne_zero_congr h rfl, and_ne_zero_congr h rfl, and_ne_zero_congr h rfl,
    and_ne_zero_congr h rfl]

/-- One phase starts. -/
theorem eq_iff {phase : Phase} : Causes status compare line (· = phase) ↔
    line = compare ∧ status &&& 0x40 ≠ 0 ∨ status &&& phase.interruptBit ≠ 0 := by
  cases phase <;> simp [Causes, Phase.interruptBit]

/-- No phase starts. -/
theorem none_iff : Causes status compare line (fun _ ↦ False) ↔
    line = compare ∧ status &&& 0x40 ≠ 0 := by
  simp [Causes]

end Causes

namespace Hardware

open Timed (Drains Firing)

variable {hw hw' : Hardware} {limit t₀ f₀ : Nat} {records log : Array Record}
  {firings : List (Firing Task Board)} {o : Outcome Hardware Unit}

/-! ## A transition -/

/-- Something that happened has a cause, by what a program has chosen. -/
def Happening.causes (h : Happening) (status compare : UInt8) : Prop :=
  Causes status compare (h.after.reg Register.line) fun phase ↦ h.enters phase

namespace Happening

variable {status compare line : UInt8} {phase : Phase}

/-- A phase starts. -/
theorem causes_of_starts (hline : hw'.reg Register.line = line) (hne : hw.display.phase ≠ phase)
    (hphase : hw'.display.phase = phase) : (Happening.mk hw hw').causes status compare ↔
      Causes status compare line (· = phase) := by
  rw [causes, hline]
  refine Causes.congr fun started ↦ ?_
  simp only [enters, hphase, Bool.and_eq_true, decide_eq_true_eq]
  exact ⟨fun h ↦ h.2.symm, fun h ↦ ⟨h ▸ hne, h.symm⟩⟩

/-- No phase starts. -/
theorem causes_of_same (hline : hw'.reg Register.line = line)
    (hphase : hw'.display.phase = hw.display.phase) :
    (Happening.mk hw hw').causes status compare ↔ line = compare ∧ status &&& 0x40 ≠ 0 := by
  rw [causes, hline, ← Causes.none_iff]
  refine Causes.congr fun started ↦ ?_
  rw [enters_of_same _ hphase]
  exact iff_of_false Bool.false_ne_true id

end Happening

/-- The start of a phase. -/
theorem causes_entered (hw : Hardware) (hon : hw.display.enabled) (phase : Phase) :
    (hw.entered phase).Requested .stat ↔ hw.Requested .stat ∨
      Causes (hw.reg Register.lcdStatus) (hw.reg Register.lineCompare) (hw.reg Register.line)
        (· = phase) := by
  rw [stat_entered, Causes.eq_iff, and_iff_right hon]
  rfl

/-- A change of line, and the start of a phase after it. -/
theorem causes_atLine_entered (hw : Hardware) (hon : hw.display.enabled) (line : UInt8)
    (phase : Phase) : ((hw.atLine line).entered phase).Requested .stat ↔ hw.Requested .stat ∨
      Causes (hw.reg Register.lcdStatus) (hw.reg Register.lineCompare) line (· = phase) := by
  have hstatus := (spares_covers.atLine hw line).status
  have hcompare : (hw.atLine line).reg Register.lineCompare = hw.reg Register.lineCompare :=
    (reg_covers (by decide) (by decide) (by decide)).atLine hw line
  rw [causes_entered _ (by rwa [display_atLine]), line_atLine, hcompare,
    Causes.congr_status hstatus, stat_atLine, Causes.eq_iff, and_iff_right hon, or_assoc]
  exact or_congr_right or_self_left

/-- **A transition requests the status interrupt exactly when it has a cause.** -/
theorem stat_followed (hw : Hardware) (hon : hw.display.enabled) :
    (hw.followed hw.display.phase.exit).Requested .stat ↔ hw.Requested .stat ∨
      (Happening.mk hw (hw.followed hw.display.phase.exit)).causes
        (hw.reg Register.lcdStatus) (hw.reg Register.lineCompare) := by
  have hline : ∀ (line : UInt8) (phase : Phase),
      ((hw.atLine line).entered phase).reg Register.line = line :=
    fun line phase ↦ (line_entered _ phase).trans (line_atLine hw line)
  cases hp : hw.display.phase <;> rw [Phase.exit, followed]
  case oamScan =>
    have hne : hw.display.phase ≠ .drawing := by rw [hp]; decide
    rw [causes_entered hw hon,
      Happening.causes_of_starts (line_entered _ _) hne (phase_entered _ _)]
  case drawing =>
    have hne : hw.display.phase ≠ .hblank := by rw [hp]; decide
    rw [causes_entered hw hon,
      Happening.causes_of_starts (line_entered _ _) hne (phase_entered _ _)]
  case hblank =>
    have hne : hw.display.phase ≠ hw.phaseBelow := by
      rw [hp, phaseBelow]
      split <;> decide
    rw [causes_atLine_entered hw hon,
      Happening.causes_of_starts (hline _ _) hne (phase_entered _ _)]
  case vblank =>
    split
    · have hne : hw.display.phase ≠ .oamScan := by rw [hp]; decide
      rw [causes_atLine_entered hw hon,
        Happening.causes_of_starts (hline _ _) hne (phase_entered _ _)]
    · have hstays : ((hw.atLine hw.lineBelow).planned lineCycles .nextBlankLine).display.phase =
          hw.display.phase := congrArg Display.phase (display_atLine hw hw.lineBelow)
      have hbelow : ((hw.atLine hw.lineBelow).planned lineCycles .nextBlankLine).reg
          Register.line = hw.lineBelow := line_atLine hw hw.lineBelow
      have hstat := stat_atLine hw hw.lineBelow
      rw [and_iff_right hon] at hstat
      rw [Happening.causes_of_same hbelow hstays]
      exact hstat

/-! ## A window -/

/-- Nothing that fires requests the interrupt but a transition that has a cause. -/
theorem Turn.stat (h : Turn hw records hw') : hw'.Requested .stat ↔ hw.Requested .stat ∨
    (Happening.mk hw hw').moves ∧ (Happening.mk hw hw').causes (hw.reg Register.lcdStatus)
      (hw.reg Register.lineCompare) := by
  cases h with
  | @tick task records ticked delay h =>
    have hstill : ¬ (Happening.mk hw (ticked.later delay task)).moves :=
      Happening.not_moves h.quiet.display h.quiet.line
    have hsame : (ticked.later delay task).Requested .stat ↔ hw.Requested .stat :=
      h.requested_of_ne (by decide)
    rw [hsame, or_iff_left fun hm ↦ hstill hm.1]
  | void =>
    have hstill : ¬ (Happening.mk hw hw).moves := Happening.not_moves rfl rfl
    rw [or_iff_left fun hm ↦ hstill hm.1]
  | display hon =>
    rw [stat_followed hw hon, and_iff_right (Happening.moves_followed hw)]

/-- **A window of time requests the status interrupt exactly when one of its transitions has a
cause.** -/
theorem Runs.stat {on : Bool} (h : Runs t₀ f₀ limit on log hw)
    (hd : Drains fire limit hw firings o) : o.state.Requested .stat ↔ hw.Requested .stat ∨
      ∃ e ∈ film firings, e.moves ∧
        e.causes (hw.reg Register.lcdStatus) (hw.reg Register.lineCompare) := by
  -- What the program has chosen stays as it is all the while.
  refine And.right (film_induction (P := fun new now ↦ Spares hw now ∧ (now.Requested .stat ↔
    hw.Requested .stat ∨ ∃ e ∈ new, e.moves ∧
      e.causes (hw.reg Register.lcdStatus) (hw.reg Register.lineCompare))) ?_ ?_ ?_ h hd)
  · intro new now later hbody hP
    have hspares : Spares now later := spares_of_bus (congrArg Board.bus hbody)
    refine ⟨hP.1.trans hspares, ?_⟩
    rw [← hP.2, Requested, reg, hbody, Requested, reg]
  · intro new now later records ht hP
    obtain ⟨hspares, hP⟩ := hP
    have hcompare : now.reg Register.lineCompare = hw.reg Register.lineCompare :=
      hspares.registers _ (by decide) (by decide)
    have hstat := ht.stat
    rw [hcompare, Happening.causes, Causes.congr_status hspares.status, ← Happening.causes] at hstat
    refine ⟨hspares.trans (spares_covers.allowsTurns.turn ht), ?_⟩
    rw [hstat, hP, or_assoc]
    simp [or_comm]
  · exact ⟨spares_covers.refl hw, by simp⟩

/-! ## While the display is off -/

/-- What happens while the display is off leaves it off, requests no status interrupt and tells of
none. -/
def Dark (hw : Hardware) (records : Array Record) (hw' : Hardware) : Prop :=
  hw.display.enabled = false → hw'.display.enabled = false ∧
    (hw'.Requested .stat ↔ hw.Requested .stat) ∧
    .notice (.interruptRequested .stat) ∉ records.toList

theorem Ticks.tells_no_stat {task : Task} {delay : Nat} (h : Ticks hw task records hw' delay) :
    .notice (.interruptRequested .stat) ∉ records.toList := by
  cases h with
  | divider | calendar => simp
  | counter =>
    split
    · rw [countRecords]
      split <;> simp
    · simp

theorem dark_turns : AllowsTurns Dark where
  refl _ hoff := ⟨hoff, Iff.rfl, by simp⟩
  trans h h' hoff := by
    obtain ⟨hoff₁, hsame, hnone⟩ := h hoff
    obtain ⟨hoff₂, hsame', hnone'⟩ := h' hoff₁
    refine ⟨hoff₂, hsame'.trans hsame, ?_⟩
    rw [Array.toList_append, List.mem_append]
    exact fun ht ↦ ht.elim hnone hnone'
  moment _ _ _ hoff := ⟨hoff, Iff.rfl, by simp⟩
  turn h hoff := by
    cases h with
    | tick h =>
      refine ⟨?_, h.requested_of_ne (by decide), h.tells_no_stat⟩
      rw [display_later, h.quiet.display, hoff]
    | void => exact ⟨hoff, Iff.rfl, by simp⟩
    | display hon =>
      rw [hoff] at hon
      cases hon

/-- Turning the display off, or leaving it off, requests no status interrupt either. -/
theorem write_turnsOff (hl : DisplayListens hw) {value : UInt8} (hv : turnsOn value = false) :
    ∃ hw' records, write Register.lcdControl value hw = ⟨.ok (), hw', records⟩ ∧
      (hw'.Requested .stat ↔ hw.Requested .stat) ∧
      .notice (.interruptRequested .stat) ∉ records.toList := by
  rcases write_lcdControl_cases hl value with ⟨-, hop⟩ | ⟨-, hon, -⟩ | ⟨-, -, hop⟩
  · exact ⟨_, _, hop, requested_put (by decide) value hw, by simp⟩
  · rw [hv] at hon
    cases hon
  · refine ⟨_, _, hop, ?_, by simp⟩
    rw [stopped, stat_atLine]
    exact (or_iff_left fun h ↦ Bool.false_ne_true h.1).trans (requested_put (by decide) value hw)

/-! ## By the clock -/

/-- What a transition is a cause for follows from its time. -/
theorem Moved.causes_iff {x : Nat} {h : Happening} (hm : Moved t₀ x h) (status compare : UInt8) :
    h.causes status compare ↔
      Causes status compare (UInt8.ofNat (Timing.lineAt x)) (Timing.Starts · x) := by
  rw [Happening.causes, ← hm.line, UInt8.ofNat_toNat]
  exact Causes.congr hm.enters

/-- **The status interrupt by the clock**: it is requested when the time of a transition that has a
cause falls into the window. -/
theorem Scanning.stat (h : Scanning t₀ f₀ log hw) (cycles : Nat) :
    (Hardware.advance cycles hw).state.Requested .stat ↔ hw.Requested .stat ∨
      ∃ x, 0 < x ∧ hw.now ≤ t₀ + x ∧ t₀ + x < hw.now + cycles ∧ Timing.Begins x ∧
        Causes (hw.reg Register.lcdStatus) (hw.reg Register.lineCompare)
          (UInt8.ofNat (Timing.lineAt x)) (Timing.Starts · x) := by
  obtain ⟨hw₁, -, ht⟩ := h.tracked
  obtain ⟨firings, hw', records, hd, -⟩ := advance_wired hw₁ ht cycles
  have hadvance : Hardware.advance cycles hw = ⟨.ok (), hw', records⟩ := hd.advance_eq
  obtain ⟨hmade, hall⟩ := h.transitions hd
  rw [hadvance, (Runs.start hw₁ ht cycles).stat hd]
  refine or_congr_right ⟨?_, ?_⟩
  · rintro ⟨e, he, hm, hcauses⟩
    obtain ⟨x, hpos, hnow, hlimit, hmoved⟩ := hmade e he hm
    exact ⟨x, hpos, hnow, hlimit, hmoved.begins, (hmoved.causes_iff _ _).1 hcauses⟩
  · rintro ⟨x, hpos, hnow, hlimit, hx, hcauses⟩
    obtain ⟨e, he, hmoved⟩ := hall x hpos hnow hlimit hx
    exact ⟨e, he, hmoved.moves, (hmoved.causes_iff _ _).2 hcauses⟩

end Hardware

namespace Console

open Hardware (Scanning film turnsOn)

/-- **No status interrupt is missed, and none comes out of nothing.**  While the display of a
reachable machine is on, a window of time leaves the status interrupt requested exactly when it was
before or one of the transitions in the window, each at its time, has a cause that the program has
chosen.  When the transitions are, and what each is, follows from when the display was turned on.
While the display is off, or when it is turned off, the interrupt is not requested and no request
for it is told of. -/
theorem status_interrupt (c : Console) (h : Reachable c) :
    (c.hardware.display.enabled → ∀ cycles, Timed.Returns Hardware.fire cycles c.hardware ∧
      ∀ firings o, Timed.Drains Hardware.fire (c.hardware.now + cycles) c.hardware firings o →
        Hardware.advance cycles c.hardware = o ∧ o.result = .ok () ∧
        (∀ e ∈ film firings, e.moves →
          c.hardware.now ≤ e.before.now ∧ e.before.now < c.hardware.now + cycles) ∧
        (Hardware.Requested o.state .stat ↔ c.hardware.Requested .stat ∨
          ∃ e ∈ film firings, e.moves ∧ e.causes (c.hardware.reg Register.lcdStatus)
            (c.hardware.reg Register.lineCompare))) ∧
    (c.hardware.display.enabled → ∃ t₀ f₀ log, Scanning t₀ f₀ log c.hardware) ∧
    (∀ t₀ f₀ log, Scanning t₀ f₀ log c.hardware → ∀ cycles,
      (Hardware.advance cycles c.hardware).state.Requested .stat ↔
        c.hardware.Requested .stat ∨ ∃ x, 0 < x ∧ c.hardware.now ≤ t₀ + x ∧
          t₀ + x < c.hardware.now + cycles ∧ Timing.Begins x ∧
          Causes (c.hardware.reg Register.lcdStatus) (c.hardware.reg Register.lineCompare)
            (UInt8.ofNat (Timing.lineAt x)) (Timing.Starts · x)) ∧
    (c.hardware.display.enabled = false → ∀ cycles, ∃ hw' records,
      Hardware.advance cycles c.hardware = ⟨.ok (), hw', records⟩ ∧
      (hw'.Requested .stat ↔ c.hardware.Requested .stat) ∧
      .notice (.interruptRequested .stat) ∉ records.toList) ∧
    ∀ value, turnsOn value = false → ∃ hw' records,
      Hardware.write Register.lcdControl value c.hardware = ⟨.ok (), hw', records⟩ ∧
      (hw'.Requested .stat ↔ c.hardware.Requested .stat) ∧
      .notice (.interruptRequested .stat) ∉ records.toList := by
  have hr := h.hardware
  obtain ⟨hw₁, t₀, f₀, log, ht⟩ := hr.wired
  have hscanning : c.hardware.display.enabled → ∃ t₀ f₀ log, Scanning t₀ f₀ log c.hardware :=
    fun hon ↦ hr.scanning (by rw [← hw₁.control, hon])
  refine ⟨fun hon cycles ↦ ⟨?_, fun firings o hd ↦ ?_⟩, hscanning, fun t₀ f₀ log hs ↦ hs.stat,
    fun hoff cycles ↦ ?_, fun value hv ↦ ?_⟩
  · obtain ⟨firings, hw', records, hd⟩ := hr.returns cycles
    exact ⟨firings, _, hd⟩
  · have hadvance : Hardware.advance cycles c.hardware = o := hd.advance_eq
    refine ⟨hadvance, hadvance ▸ hr.advance_ok cycles, fun e he hm ↦ ?_,
      (Hardware.Runs.start hw₁ ht cycles).stat hd⟩
    obtain ⟨_, _, _, hs⟩ := hscanning hon
    obtain ⟨x, -, hnow, hlimit, hmoved⟩ := (hs.transitions hd).1 e he hm
    rw [hmoved.now]
    exact ⟨hnow, hlimit⟩
  · obtain ⟨firings, hw', records, hd⟩ := hr.returns cycles
    have hadvance : Hardware.advance cycles c.hardware = ⟨.ok (), hw', records⟩ := hd.advance_eq
    have hdark := Hardware.dark_turns.advance hr cycles hoff
    rw [hadvance] at hdark
    exact ⟨hw', records, hadvance, hdark.2⟩
  · exact Hardware.write_turnsOff hw₁.listens hv

/-- A program asks for the interrupt whenever a line has been drawn. -/
def awaiting : Console := ((Operation.write Register.lcdStatus 0x08).perform blank).state

/-- An empty cartridge: the first line has been drawn when 252 cycles are over. -/
theorem status_interrupt_drawn : awaiting.hardware.display.enabled ∧
    ¬ awaiting.hardware.Requested .stat ∧
    ¬ (Hardware.advance 252 awaiting.hardware).state.Requested .stat ∧
    (Hardware.advance 253 awaiting.hardware).state.Requested .stat := by
  have hawaiting : awaiting.hardware = blank.hardware.put Register.lcdStatus _ :=
    congrArg Outcome.state
      (Hardware.write_lcdStatus reachable_blank.hardware.wired.1.listens 0x08)
  have hnow : awaiting.hardware.now = 0 := by
    rw [hawaiting, Timed.now, Hardware.clock_put]
    exact now_blank
  obtain ⟨log, hscanning⟩ : ∃ log, Scanning 0 0 log awaiting.hardware := by
    refine ⟨_, .perform (.write Register.lcdStatus 0x08) (.powerOn Hardware.emptyImage_accepted) ?_⟩
    show turnsOn (awaiting.hardware.reg Register.lcdControl)
    rw [hawaiting, Hardware.reg_put_of_ne _ _ (by decide), hardware_blank,
      Hardware.control_started]
    rfl
  have hcauses : ∀ compare line starts,
      Causes (awaiting.hardware.reg Register.lcdStatus) compare line starts ↔ starts .hblank := by
    have hstatus : awaiting.hardware.reg Register.lcdStatus &&& 0x78 = 0x08 &&& 0x78 :=
      Hardware.kept_writeStatus 0x08 blank.hardware.bus
    intro compare line starts
    have hline : (0x08 : UInt8) &&& 0x40 = 0 := rfl
    have hvblank : (0x08 : UInt8) &&& 0x10 = 0 := rfl
    have hoamScan : (0x08 : UInt8) &&& 0x20 = 0 := rfl
    rw [Causes.congr_status hstatus, Causes]
    simp [hline, hvblank, hoamScan]
  have hnone : ¬ awaiting.hardware.Requested .stat := by
    rw [hawaiting, Hardware.requested_put (by decide), hardware_blank, Hardware.started,
      Hardware.causes_atLine_entered _ rfl, Causes.eq_iff, Hardware.Requested]
    decide
  have hreach : Reachable awaiting := reachable_blank.perform _
  obtain ⟨-, -, hstat, -⟩ := status_interrupt awaiting hreach
  refine ⟨?_, hnone, ?_, ?_⟩
  · rw [hawaiting, Hardware.display_put, hardware_blank, Hardware.enabled_started]
  · rw [hstat 0 0 log hscanning, or_iff_right hnone]
    rintro ⟨x, -, -, hlt, -, hx⟩
    have hphase : Timing.phaseAt x = .hblank := ((hcauses _ _ _).1 hx).1
    rw [hnow] at hlt
    rcases Timing.phaseAt_cases x with ⟨q, -⟩ | ⟨q, -⟩ | ⟨-, -, hle⟩ | ⟨q, -⟩
    · simp [hphase] at q
    · simp [hphase] at q
    · omega
    · simp [hphase] at q
  · rw [hstat 0 0 log hscanning, hnow]
    exact Or.inr ⟨252, by decide, by decide, by decide, rfl, (hcauses _ _ _).2 ⟨rfl, by decide⟩⟩

end Console

end DotMatrix
