import DotMatrix.Proofs.Display.Timing
import DotMatrix.Proofs.Hardware.Wiring

/-!
# Where the display is in its frame

`Beam t₀ f₀ y hw` ties the display to the time since it was turned on: it was turned on at `t₀`,
with `f₀` pictures presented before, and its present phase began `y` cycles later.  The one live
transition in the queue is the way out of that phase, due when the phase is over.

* `Beam.keep`, `Beam.quiet`, `Beam.taking`, `Beam.later` — everything but the display's own
  transitions leaves the beam where it is.
* `Beam.followed` — the live transition moves it to the next phase, at the time that phase begins.
* `Beam.ticked`, `Beam.due` — the same for what is due.
* `Beam.started` — turning the display on puts it at the top of the picture.
-/

set_option autoImplicit false

namespace DotMatrix

/-! ## Pictures of a transition -/

/-- What is told of `n` pictures after the first `f₀`: each is presented, and then its interrupt is
requested. -/
def presentations (f₀ n : Nat) : List Notice :=
  (List.range n).flatMap fun k ↦ [.framePresented (f₀ + k + 1), .interruptRequested .vblank]

@[simp] theorem presentations_zero (f₀ : Nat) : presentations f₀ 0 = [] := rfl

theorem presentations_succ (f₀ n : Nat) : presentations f₀ (n + 1) =
    presentations f₀ n ++ [.framePresented (f₀ + n + 1), .interruptRequested .vblank] := by
  simp [presentations, List.range_succ]

namespace Hardware

variable {hw hw' : Hardware} {limit t₀ f₀ y delay : Nat} {event : Event Task}
  {rest : List (Event Task)} {task : Task} {records : Array Record}

@[simp] theorem pictures_refreshRecords (phaseStarts : Bool) :
    pictures (hw.refreshRecords phaseStarts) = [] := by
  rw [refreshRecords]
  split <;> rfl

@[simp] theorem pictures_lineRecords (line : UInt8) : pictures (hw.lineRecords line) = [] :=
  pictures_refreshRecords false

/-- Only the start of a vertical blank tells of a picture. -/
theorem pictures_entryRecords (phase : Phase) : pictures (hw.entryRecords phase) =
    if phase = .vblank then
      [.framePresented (hw.display.frames + 1), .interruptRequested .vblank]
    else [] := by
  have hf : (hw.turned phase).display.frames = hw.display.frames := by simp [turned]
  rw [entryRecords, pictures_append, pictures_append, pictures_refreshRecords]
  cases phase with
  | hblank | oamScan | drawing => rfl
  | vblank =>
    rw [workRecords, hf]
    rfl

/-! ## The beam -/

/-- The display is as it is when its phase, or its line of the vertical blank, begins `y` cycles
after it was turned on with `f₀` pictures presented. -/
structure Position (f₀ y : Nat) (hw : Hardware) : Prop where
  begins : Timing.Begins y
  line : (hw.reg Register.line).toNat = Timing.lineAt y
  phase : hw.display.phase = Timing.phaseAt y
  frames : hw.display.frames = f₀ + Timing.picturesAt y

/-- The line is one of a frame's, and it is below the picture exactly in the vertical blank. -/
structure Placed (hw : Hardware) : Prop where
  lt : (hw.reg Register.line).toNat < totalLines
  vblank : hw.display.phase = .vblank ↔ visibleLines ≤ (hw.reg Register.line).toNat

theorem Position.placed (h : Position f₀ y hw) : Placed hw where
  lt := by
    rw [h.line]
    exact Timing.lineAt_lt y
  vblank := by
    rw [h.line, h.phase]
    exact ⟨Timing.le_lineAt_of_vblank, Timing.phaseAt_vblank⟩

/-- The display was turned on at `t₀`, and what is live leads out of its phase. -/
structure Beam (t₀ f₀ y : Nat) (hw : Hardware) : Prop extends Position f₀ y hw where
  begun : t₀ + y ≤ hw.now
  /-- What is live leads out of the phase when it is over. -/
  next : ∀ e ∈ hw.clock.queue, hw.roleOf e = .live →
    e.target = t₀ + y + hw.display.phase.duration ∧
      e.action = .display hw.display.epoch hw.display.phase.exit

namespace Beam

/-- The beam stays where it is when the display does and nothing new is live. -/
theorem keep (h : Beam t₀ f₀ y hw) (hbegun : t₀ + y ≤ hw'.now)
    (hline : hw'.reg Register.line = hw.reg Register.line) (hdisplay : hw'.display = hw.display)
    (hnext : ∀ e ∈ hw'.clock.queue, hw.roleOf e = .live → e ∈ hw.clock.queue) :
    Beam t₀ f₀ y hw' where
  begins := h.begins
  line := by rw [hline, h.line]
  phase := by rw [hdisplay, h.phase]
  frames := by rw [hdisplay, h.frames]
  begun := hbegun
  next e he hlive := by
    rw [roleOf, hdisplay] at hlive
    rw [hdisplay]
    exact h.next e (hnext e he hlive) hlive

theorem quiet (h : Beam t₀ f₀ y hw) (hq : Quiet hw records hw') : Beam t₀ f₀ y hw' := by
  refine h.keep ?_ hq.line hq.display fun e he _ ↦ ?_
  · rw [Timed.now, hq.clock]
    exact h.begun
  · rwa [hq.clock] at he

/-- A timer or a void transition was due. -/
theorem taking (h : Beam t₀ f₀ y hw) (hs : hw.clock.Sound)
    (hd : hw.clock.Due limit event rest) : Beam t₀ f₀ y (hw.taking event rest) := by
  refine h.keep ?_ rfl rfl fun e he _ ↦ hd.mem_of_rest he
  exact Nat.le_trans h.begun (hs.onTime event hd.mem)

/-- A task waits that is no transition of the display. -/
theorem later (h : Beam t₀ f₀ y hw) (ht : task.role hw.display.epoch ≠ .live) :
    Beam t₀ f₀ y (hw.later delay task) := by
  refine h.keep h.begun rfl rfl fun e he hlive ↦ ?_
  rcases Clock.mem_insert.1 he with rfl | he
  · exact absurd hlive ht
  · exact he

/-- The clock reaches the end of a window. -/
theorem atTime (h : Beam t₀ f₀ y hw) (hle : t₀ + y ≤ limit) : Beam t₀ f₀ y (hw.atTime limit) :=
  h.keep hle rfl rfl fun _ he _ ↦ he

/-! ## From phase to phase -/

theorem toNat_lineBelow (h : Beam t₀ f₀ y hw) : hw.lineBelow.toNat = Timing.lineAt y + 1 := by
  rw [Hardware.toNat_lineBelow h.placed.lt, h.line]

/-- Where the way out of the phase leads. -/
theorem position_followed (h : Beam t₀ f₀ y hw) :
    Position f₀ (y + hw.display.phase.duration) (hw.followed hw.display.phase.exit) := by
  have hl := h.line
  have hf := h.frames
  have hp := h.phase
  have hb := h.toNat_lineBelow
  cases hq : hw.display.phase <;> rw [hq] at hp <;> rw [Phase.exit, followed, Phase.duration]
  case oamScan =>
    obtain ⟨hp', hb', hl', hf'⟩ := Timing.next_oamScan h.begins hp.symm
    exact ⟨hb', by rw [line_entered, hl, hl'], by rw [phase_entered, hp'],
      by rw [frames_entered, hf, hf']; rfl⟩
  case drawing =>
    obtain ⟨hp', hb', hl', hf'⟩ := Timing.next_drawing h.begins hp.symm
    exact ⟨hb', by rw [line_entered, hl, hl'], by rw [phase_entered, hp'],
      by rw [frames_entered, hf, hf']; rfl⟩
  case hblank =>
    obtain ⟨hp', hb', hl', hf'⟩ := Timing.next_hblank h.begins hp.symm
    refine ⟨hb', by rw [line_entered, line_atLine, hb, hl'],
      by rw [phase_entered, phaseBelow, hb, hp'], ?_⟩
    rw [frames_entered, display_atLine, hf, hf', phaseBelow, hb]
    split <;> rfl
  case vblank =>
    obtain ⟨hp', hb', hl', hf'⟩ := Timing.next_vblank h.begins hp.symm
    rw [hb]
    by_cases ht : Timing.lineAt y + 1 = totalLines
    · rw [if_pos ht] at hp' hl' ⊢
      exact ⟨hb', by rw [line_entered, line_atLine, hl']; rfl, by rw [phase_entered, hp'],
        by rw [frames_entered, display_atLine, hf, hf']; rfl⟩
    · rw [if_neg ht] at hp' hl' ⊢
      exact ⟨hb', by rw [planned, reg_later, line_atLine, hb, hl'],
        by rw [planned, display_later, display_atLine, hq, hp'],
        by rw [planned, display_later, display_atLine, hf, hf']⟩

/-- The live transition moves the beam to the next phase. -/
theorem followed (h : Beam t₀ f₀ y hw) (hnow : hw.now = t₀ + y + hw.display.phase.duration)
    (hnone : hw.waiting .live = 0) :
    Beam t₀ f₀ (y + hw.display.phase.duration) (hw.followed hw.display.phase.exit) where
  toPosition := h.position_followed
  begun := by
    rw [Timed.now, clock_followed_exit, Clock.now_schedule, ← Nat.add_assoc]
    exact Nat.le_of_eq hnow.symm
  next e he hlive := by
    rw [clock_followed_exit] at he
    rw [epoch_followed]
    rcases Clock.mem_insert.1 he with rfl | he
    · refine ⟨?_, rfl⟩
      rw [← Nat.add_assoc, ← hnow]
      rfl
    · rw [roleOf, epoch_followed] at hlive
      exact absurd hlive (roleOf_ne_of_waiting hnone he)

/-- While the display is on, the end of its phase is waited for. -/
theorem exists_next (h : Beam t₀ f₀ y hw) (hw₁ : Equipped hw) (hon : hw.display.enabled) :
    ∃ e ∈ hw.clock.queue, e.target = t₀ + y + hw.display.phase.duration := by
  have hpos : 0 < hw.waiting .live := by
    rw [hw₁.shares .live (by decide), Role.share, if_pos hon]
    exact Nat.one_pos
  obtain ⟨e, he, hlive⟩ := List.countP_pos_iff.1 hpos
  exact ⟨e, he, (h.next e he (of_decide_eq_true hlive)).1⟩

/-- A timer was due, and waits for its next tick. -/
theorem ticked {ticked : Hardware} (h : Beam t₀ f₀ y hw) (hs : hw.clock.Sound)
    (hd : hw.clock.Due limit event rest) (hrole : hw.roleOf event ≠ .live)
    (hq : Quiet (hw.taking event rest) records ticked) :
    Beam t₀ f₀ y (ticked.later delay event.action) := by
  refine ((h.taking hs hd).quiet hq).later ?_
  rw [hq.display]
  exact hrole

/-- The live transition was due: the phase is over, and the way out of it leads to the next one. -/
theorem due (h : Beam t₀ f₀ y hw) (hw₁ : Equipped hw) (hd : hw.clock.Due limit event rest)
    (hon : hw.display.enabled) {transition : Transition}
    (ha : event.action = .display hw.display.epoch transition) :
    event.target = t₀ + y + hw.display.phase.duration ∧
      follow transition (hw.taking event rest) =
        ⟨.ok (), Hardware.followed (hw.taking event rest) hw.display.phase.exit,
          followRecords (hw.taking event rest) hw.display.phase.exit⟩ ∧
      Beam t₀ f₀ (y + hw.display.phase.duration)
        (Hardware.followed (hw.taking event rest) hw.display.phase.exit) := by
  have hlive : hw.roleOf event = .live := by
    rw [roleOf, ha, Task.role, if_pos rfl]
  obtain ⟨htarget, haction⟩ := h.next event hd.mem hlive
  have ht : transition = hw.display.phase.exit := by
    rw [ha] at haction
    exact (Task.display.inj haction).2
  have hone : hw.waiting .live = 1 := by
    rw [hw₁.shares .live (by decide), Role.share, if_pos hon]
  have htaken := h.taking hw₁.sound hd
  refine ⟨htarget, ?_, htaken.followed htarget (waiting_taking_of_due hd hlive hone)⟩
  rw [ht]
  exact follow_apply _ (line_ne_of_lt htaken.placed.lt) _

/-- The pictures that are told of on the way out of the phase are those that go with it. -/
theorem pictures_followRecords (h : Beam t₀ f₀ y hw) :
    presentations f₀ (Timing.picturesAt y) ++
        pictures (hw.followRecords hw.display.phase.exit) =
      presentations f₀ (Timing.picturesAt (y + hw.display.phase.duration)) := by
  have hf := h.frames
  have hp := h.phase
  have hb := h.toNat_lineBelow
  cases hq : hw.display.phase <;> rw [hq] at hp <;>
    rw [Phase.exit, followRecords, Phase.duration]
  case oamScan =>
    rw [(Timing.next_oamScan h.begins hp.symm).2.2.2, pictures_entryRecords]
    exact List.append_nil _
  case drawing =>
    rw [(Timing.next_drawing h.begins hp.symm).2.2.2, pictures_entryRecords]
    exact List.append_nil _
  case hblank =>
    rw [(Timing.next_hblank h.begins hp.symm).2.2.2, pictures_append, pictures_lineRecords,
      pictures_entryRecords, display_atLine, phaseBelow, hb, hf, List.nil_append]
    split
    · rw [presentations_succ]
      rfl
    · exact List.append_nil _
  case vblank =>
    rw [(Timing.next_vblank h.begins hp.symm).2.2.2]
    split
    · rw [pictures_append, pictures_lineRecords, pictures_entryRecords]
      exact List.append_nil _
    · rw [pictures_lineRecords, List.append_nil]

/-! ## Turning the display on -/

/-- A display that was turned on is at the top of the picture. -/
theorem started (h : Equipped hw) : Beam hw.now hw.display.frames 0 hw.started where
  begins := Timing.begins_zero
  line := by rw [line_started]; rfl
  phase := by rw [phase_started]; rfl
  frames := by rw [frames_started]; rfl
  begun := by
    show hw.now + 0 ≤ hw.started.clock.now
    rw [clock_started]
    exact Nat.le_refl _
  next e he hlive := by
    rw [clock_started] at he
    rw [epoch_started, phase_started]
    rcases Clock.mem_insert.1 he with rfl | he
    · exact ⟨rfl, rfl⟩
    · -- Nothing that waited before the new epoch is live in it.
      rw [roleOf, epoch_started,
        Task.role_succ (roleOf_ne_of_waiting (h.shares .foreign (by decide)) he)] at hlive
      split at hlive
      · cases hlive
      · contradiction

@[simp] theorem pictures_startRecords : pictures hw.startRecords = [] := by
  rw [startRecords, pictures_append, pictures_lineRecords, pictures_entryRecords]
  rfl

end Beam

end Hardware

end DotMatrix
