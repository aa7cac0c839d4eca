import DotMatrix.Proofs.Console.Reach
import DotMatrix.Proofs.Hardware.Raising

/-!
# The display's position as a closed form of time

`Scanning t₀ f₀ log hw` says that the display was turned on at the time `t₀`, when `f₀` pictures had
been presented, that it has not been turned off since, and that `log` was reported meanwhile.
Whatever else was done, the line, the phase, the status byte, the number of pictures and what was
told of them are then functions of the cycles since `t₀` (`Scanning.position`), and every reachable
machine whose display is on is scanning since some time (`Reachable.scanning`).  The request for the
vertical blank follows the pictures, so when the display raises it is known as well
(`Scanning.vblank`).
-/

set_option autoImplicit false

namespace DotMatrix

namespace Hardware

/-- The display was turned on at `t₀`, by starting the hardware or by a write to the control byte,
and has been on since. -/
inductive Scanning : Nat → Nat → Array Record → Hardware → Prop where
  | powerOn {image : Array UInt8} {cartridge : Cartridge}
      (h : Cartridge.ofImage image = .ok cartridge) :
      Scanning 0 0 (powerOn cartridge).2 (powerOn cartridge).1
  | turnedOn {hw : Hardware} {value : UInt8} (h : Reachable hw)
      (hoff : turnsOn (hw.reg Register.lcdControl) = false) (hon : turnsOn value) :
      Scanning hw.now hw.display.frames (write Register.lcdControl value hw).records
        (write Register.lcdControl value hw).state
  | perform {t₀ f₀ : Nat} {log : Array Record} {hw : Hardware} (op : Operation)
      (h : Scanning t₀ f₀ log hw)
      (hon : turnsOn ((op.perform hw).state.reg Register.lcdControl)) :
      Scanning t₀ f₀ (log ++ (op.perform hw).records) (op.perform hw).state

variable {t₀ f₀ : Nat} {log : Array Record} {hw : Hardware}

/-- What a write to the control byte does that turns the display on. -/
theorem write_turnsOn (h : Wired hw) {value : UInt8}
    (hoff : turnsOn (hw.reg Register.lcdControl) = false) (hon : turnsOn value) :
    write Register.lcdControl value hw = ⟨.ok (), (hw.put Register.lcdControl value).started,
      #[.notice .displayEnabled] ++ (hw.put Register.lcdControl value).startRecords⟩ := by
  have he : ¬ (hw.put Register.lcdControl value).display.enabled = turnsOn value := by
    rw [display_put, h.control, hoff, hon]
    decide
  rw [write_lcdControl h.listens, controlled, controlRecords, if_neg he, if_neg he, if_pos hon,
    if_pos hon]

theorem Scanning.tracked (h : Scanning t₀ f₀ log hw) :
    Wired hw ∧ turnsOn (hw.reg Register.lcdControl) ∧ Tracks t₀ f₀ hw.now log hw := by
  induction h with
  | @powerOn image cartridge _ =>
    refine ⟨wired_powerOn cartridge, ?_, tracks_powerOn cartridge⟩
    rw [powerOn_eq, control_started, reg_armed]
    rfl
  | @turnedOn hw value h hoff hon =>
    have hw₁ := h.wired.1
    rw [write_turnsOn hw₁ hoff hon]
    refine ⟨.started (hw₁.put _ _) (by rwa [reg_put_self]), ?_, tracks_started (hw₁.put _ _) ?_⟩
    · rwa [control_started, reg_put_self]
    · rw [pictures_append, Beam.pictures_startRecords]
      rfl
  | @perform t₀ f₀ log hw op _ hon ih =>
    obtain ⟨hw₁, hwas, ht⟩ := ih
    rcases perform_cases hw₁ ht op with ⟨hw₂, -, ht'⟩ | ⟨value, -, hoff, -⟩ |
      ⟨value, -, -, hv, hop⟩
    · exact ⟨hw₂, hon, ht'⟩
    · rw [hw₁.control, hwas] at hoff
      cases hoff
    · rw [hop, control_stopped, reg_put_self, hv] at hon
      cases hon

/-- The display stays on while time passes. -/
theorem Scanning.advance (h : Scanning t₀ f₀ log hw) (cycles : Nat) :
    Scanning t₀ f₀ (log ++ (Hardware.advance cycles hw).records)
      (Hardware.advance cycles hw).state := by
  obtain ⟨hw₁, hon, ht⟩ := h.tracked
  refine .perform (.advance cycles) h ?_
  rcases perform_cases hw₁ ht (.advance cycles) with ⟨hw₂, he, -⟩ | ⟨_, hop, -⟩ | ⟨_, hop, -⟩
  · rw [← hw₂.control, he, hw₁.control, hon]
  · cases hop
  · cases hop

/-- The cycles since the display was turned on decide where it is. -/
theorem Scanning.position (h : Scanning t₀ f₀ log hw) :
    t₀ ≤ hw.now ∧ (hw.reg Register.line).toNat = Timing.lineAt (hw.now - t₀ - 1) ∧
      hw.display.phase = Timing.phaseAt (hw.now - t₀ - 1) ∧
      hw.reg Register.lcdStatus &&& 3 = hw.display.phase.code ∧
      hw.display.frames = f₀ + Timing.picturesAt (hw.now - t₀ - 1) ∧
      pictures log = presentations f₀ (Timing.picturesAt (hw.now - t₀ - 1)) := by
  obtain ⟨hw₁, hon, ht⟩ := h.tracked
  rw [← hw₁.control] at hon
  obtain ⟨y, hb, hy, hl⟩ := ht hon
  -- The way out of the phase has not been taken, so the phase is not over.
  obtain ⟨e, he, htarget⟩ := hb.exists_next hw₁.toEquipped hon
  have hover : hw.now ≤ t₀ + y + hw.display.phase.duration := htarget ▸ hw₁.sound.onTime e he
  have hbegun := hb.begun
  have hpos := Phase.le_duration hw.display.phase
  have hle : y ≤ hw.now - t₀ - 1 := by omega
  have hlt : hw.now - t₀ - 1 < y + (Timing.phaseAt y).duration := by
    rw [← hb.phase]
    rw [oamScanCycles] at hpos
    omega
  obtain ⟨hline, hpictures⟩ := Timing.line_of_within hb.begins hle hlt
  refine ⟨by omega, ?_, ?_, hw₁.mode, ?_, ?_⟩
  · rw [hb.line, hline]
  · rw [hb.phase, Timing.phase_of_within hb.begins hle hlt]
  · rw [hb.frames, hpictures]
  · rw [hl, hpictures]

/-- Hardware whose display is on is scanning since some time. -/
theorem Reachable.scanning (h : Reachable hw) (hon : turnsOn (hw.reg Register.lcdControl)) :
    ∃ t₀ f₀ log, Scanning t₀ f₀ log hw := by
  induction h with
  | powerOn h => exact ⟨_, _, _, .powerOn h⟩
  | @perform hw op h ih =>
    cases hwas : turnsOn (hw.reg Register.lcdControl) with
    | true =>
      obtain ⟨t₀, f₀, log, hs⟩ := ih hwas
      exact ⟨t₀, f₀, _, .perform op hs hon⟩
    | false =>
      obtain ⟨hw₁, _, _, _, ht⟩ := h.wired
      rcases perform_cases hw₁ ht op with ⟨hw₂, he, -⟩ | ⟨value, rfl, -, hv, -⟩ |
        ⟨value, -, he, -⟩
      · rw [hw₂.control, hw₁.control, hwas, hon] at he
        cases he
      · exact ⟨_, _, _, .turnedOn h hwas hv⟩
      · rw [hw₁.control, hwas] at he
        cases he

theorem Scanning.reachable (h : Scanning t₀ f₀ log hw) : Reachable hw := by
  induction h with
  | powerOn h => exact .powerOn h
  | @turnedOn _ value h => exact h.perform (.write Register.lcdControl value)
  | perform op _ _ ih => exact ih.perform op

/-- A window raises the request for the vertical blank if the start of one falls into it. -/
theorem Scanning.vblank (h : Scanning t₀ f₀ log hw) (cycles : Nat) :
    (Hardware.advance cycles hw).state.Requested .vblank ↔ hw.Requested .vblank ∨
      Timing.picturesAt (hw.now - t₀ - 1) < Timing.picturesAt (hw.now + cycles - t₀ - 1) := by
  obtain ⟨-, -, -, -, hframes, -⟩ := h.position
  obtain ⟨-, -, -, -, hframes', -⟩ := (h.advance cycles).position
  rw [h.reachable.now_advance] at hframes'
  rw [(announces_turns.advance h.reachable cycles).2, hframes, hframes', Nat.add_lt_add_iff_left]

end Hardware

namespace Console

open Hardware (Scanning turnsOn)

/-- **The position of the display is a closed form of time.**  While the display is on, `e` cycles
after it was turned on, the line is the one that `e - 1` cycles of scanning reach, the phase and the
mode bits follow from the place in that line, and the pictures presented since, with one interrupt
request told of for each and no other, are those whose vertical blank has begun.  Bit 0 of the
requests goes with them: whatever fires raises it when it presents a picture and at no other time,
so time raises it exactly if the start of a vertical blank falls into it; without time no picture is
presented, and no operation touches the bit but a write to the requests and its withdrawal when it is
served.  This covers every reachable machine whose display is on: whatever is done to a machine is
done to its hardware as operations of the hardware, which tell of the same pictures. -/
theorem display_position :
    (∀ (t₀ f₀ : Nat) (log : Array Record) (hw : Hardware), Scanning t₀ f₀ log hw →
      t₀ ≤ hw.now ∧ ∀ e x : Nat, e = hw.now - t₀ → x = (e - 1) % 70224 →
        (hw.reg Register.line).toNat = x / 456 ∧
        hw.display.phase = (if 144 ≤ x / 456 then .vblank
          else if x % 456 < 80 then .oamScan
          else if x % 456 < 252 then .drawing
          else .hblank) ∧
        hw.reg Register.lcdStatus &&& 0x03 = (if 144 ≤ x / 456 then 1
          else if x % 456 < 80 then 2
          else if x % 456 < 252 then 3
          else 0) ∧
        hw.display.frames = f₀ + (e - 1 + 4560) / 70224 ∧
        pictures log = presentations f₀ ((e - 1 + 4560) / 70224) ∧
        ∀ cycles, (Hardware.advance cycles hw).state.reg Register.interruptRequest &&& 0x01 ≠ 0 ↔
          hw.reg Register.interruptRequest &&& 0x01 ≠ 0 ∨
            (e - 1 + 4560) / 70224 < (e + cycles - 1 + 4560) / 70224) ∧
    (∀ hw : Hardware, Hardware.Reachable hw →
      (∀ cycles, Timed.Returns Hardware.fire cycles hw ∧
        ∀ firings o, Timed.Drains Hardware.fire (hw.now + cycles) hw firings o →
          Hardware.advance cycles hw = o ∧ ∀ f ∈ firings,
            (Hardware.display f.after).frames ≤ (Hardware.display f.before).frames + 1 ∧
            (Hardware.reg f.after Register.interruptRequest &&& 0x01 ≠ 0 ↔
              Hardware.reg f.before Register.interruptRequest &&& 0x01 ≠ 0 ∨
                (Hardware.display f.after).frames = (Hardware.display f.before).frames + 1)) ∧
      ∀ op : Hardware.Operation, (∀ cycles, op ≠ .advance cycles) →
        (op.perform hw).state.display.frames = hw.display.frames ∧
        ((∀ value, op ≠ .write Register.interruptRequest value) → op ≠ .withdraw .vblank →
          ((op.perform hw).state.reg Register.interruptRequest &&& 0x01 ≠ 0 ↔
            hw.reg Register.interruptRequest &&& 0x01 ≠ 0))) ∧
    (∀ c : Console, Reachable c → turnsOn (c.hardware.reg Register.lcdControl) →
      ∃ t₀ f₀ log, Scanning t₀ f₀ log c.hardware) ∧
    ∀ (c : Console) (op : Operation), Acts c (op.perform c).records (op.perform c).state := by
  refine ⟨fun t₀ f₀ log hw h ↦ ?_, fun hw h ↦ ?_, fun c h ↦ h.hardware.scanning,
    fun c op ↦ acts_perform op c⟩
  · obtain ⟨hnow, hline, hphase, hmode, hframes, hpictures⟩ := h.position
    refine ⟨hnow, ?_⟩
    rintro e x rfl rfl
    refine ⟨hline, hphase, ?_, hframes, hpictures, fun cycles ↦ ?_⟩
    · rw [hmode, hphase, Timing.phaseAt, apply_ite Phase.code, apply_ite Phase.code,
        apply_ite Phase.code]
      rfl
    · have hlater : hw.now - t₀ + cycles = hw.now + cycles - t₀ := (Nat.sub_add_comm hnow).symm
      rw [hlater]
      exact h.vblank cycles
  · obtain ⟨hw₁, _, _, _, ht⟩ := h.wired
    refine ⟨fun cycles ↦ ⟨?_, fun firings o hd ↦ ⟨hd.advance_eq, fun f hf ↦ ?_⟩⟩,
      fun op ha ↦ ⟨Hardware.frames_perform hw₁.listens ha, fun hr hs ↦
        Hardware.vblank_perform hw₁.listens ha hr hs⟩⟩
    · obtain ⟨firings, hw', records, hd⟩ := h.returns cycles
      exact ⟨firings, _, hd⟩
    · obtain ⟨records, hturn⟩ := (Hardware.Runs.start hw₁ ht cycles).forall_turn hd f hf
      have hle := hturn.frames_le
      obtain ⟨hmore, hraised⟩ := Hardware.announces_turns.turn hturn
      refine ⟨hle, hraised.trans (or_congr_right ?_)⟩
      omega

/-- An empty cartridge, whose program takes back the request that it starts with. -/
def cleared : Hardware :=
  (Hardware.write Register.interruptRequest 0 (Hardware.powerOn (.plain Hardware.emptyImage)).1).state

/-- The request is raised again when the first vertical blank begins, and a frame after the start
the display is on the last line of it. -/
theorem display_position_frame :
    (∃ log, Scanning 0 0 log cleared) ∧ cleared.now = 0 ∧
      (Hardware.advance 65664 cleared).state.reg Register.interruptRequest &&& 0x01 = 0 ∧
      (Hardware.advance 65665 cleared).state.reg Register.interruptRequest &&& 0x01 ≠ 0 ∧
      ∃ log hw, Scanning 0 0 log hw ∧ hw.now = 70224 ∧ (hw.reg Register.line).toNat = 153 ∧
        hw.display.phase = .vblank ∧ hw.reg Register.lcdStatus &&& 0x03 = 1 ∧
        pictures log = [.framePresented 1, .interruptRequested .vblank] := by
  have hstart := Scanning.powerOn Hardware.emptyImage_accepted
  obtain ⟨hw₁, hon, -⟩ := hstart.tracked
  have hquiet : Hardware.Quiet (Hardware.powerOn (.plain Hardware.emptyImage)).1 _
      ((Hardware.Operation.write Register.interruptRequest 0).perform _).state :=
    Hardware.quiet_perform hw₁.listens (fun _ h ↦ by cases h)
      fun _ h ↦ absurd (Hardware.Operation.write.inj h).1 (by decide)
  obtain ⟨log, hs⟩ : ∃ log, Scanning 0 0 log cleared := by
    refine ⟨_, .perform (.write Register.interruptRequest 0) hstart ?_⟩
    rwa [hquiet.control]
  have hnow : cleared.now = 0 :=
    (congrArg Clock.now hquiet.clock).trans (Hardware.now_powerOn _)
  have hclear : cleared.reg Register.interruptRequest &&& 0x01 = 0 := by
    rcases Hardware.requests_write_cases hw₁.listens Register.interruptRequest 0 with
      ⟨-, hstored⟩ | ⟨hne, -⟩
    · rw [cleared, hstored]
      decide
    · exact absurd rfl hne
  have hzero : 0 = cleared.now - 0 := by rw [hnow]
  obtain ⟨-, -, -, -, -, hraised⟩ := (display_position.1 0 0 log cleared hs).2 0 0 hzero rfl
  refine ⟨⟨log, hs⟩, hnow, ?_, (hraised 65665).2 (Or.inr (by decide)), ?_⟩
  · refine Decidable.of_not_not fun h ↦ ?_
    rcases (hraised 65664).1 h with hset | hlt
    · exact hset hclear
    · revert hlt
      decide
  · have hlater : (Hardware.advance 70224 cleared).state.now = 70224 := by
      rw [hs.reachable.now_advance, hnow]
    obtain ⟨hline, hphase, hmode, -, hpictures, -⟩ :=
      (display_position.1 0 0 _ _ (hs.advance 70224)).2 70224 70223 (by rw [hlater]) rfl
    exact ⟨_, _, hs.advance 70224, hlater, hline, hphase, hmode, hpictures⟩

end Console

end DotMatrix
