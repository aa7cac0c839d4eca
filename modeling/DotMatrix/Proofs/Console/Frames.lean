import DotMatrix.Proofs.Console.Cycles
import DotMatrix.Proofs.Console.Idling
import DotMatrix.Proofs.Console.Serving
import DotMatrix.Proofs.Display.Presenting

/-!
# Frames

A frame is run step by step until the display presents another picture, or until the time of two
frames has passed.  The loop is given as many steps as it could ever need, so this limit is never
what ends it: `IsFrame c n` says without it that a frame is `n` steps.

* `steps_of_ok` — the state, the time and the cycles after steps that succeed.
* `stepUntilFrame_eq` — the loop is so many steps, whatever it is given beyond those it needs.
* `frames_next` — a step presents one picture at most.
* `scanning_iterate` — a display that stays on scans on, step after step.
* `runs_to_picture` — what a frame is, and what it leaves.
-/

set_option autoImplicit false

namespace DotMatrix.Console

open Hardware (Scanning StaysOn)

variable {c c' : Console} {k n cycles : Nat} {records : Array Record}

/-! ## Steps that succeed -/

theorem steps_succ_of_ok (hk : steps k c = ⟨.ok cycles, c', records⟩) {more : Nat} {c'' : Console}
    {after : Array Record} (hs : step c' = ⟨.ok more, c'', after⟩) :
    steps (k + 1) c = ⟨.ok (cycles + more), c'', records ++ after⟩ := by
  rw [steps, Exec.bind_of_ok hk, Exec.bind_of_ok hs, Exec.pure_apply]
  simp [Outcome.after]

theorem steps_succ_of_error (hk : steps k c = ⟨.ok cycles, c', records⟩) {fault : Fault}
    {c'' : Console} {after : Array Record} (hs : step c' = ⟨.error fault, c'', after⟩) :
    steps (k + 1) c = ⟨.error fault, c'', records ++ after⟩ := by
  rw [steps, Exec.bind_of_ok hk, Exec.bind_of_error hs]
  rfl

/-- If so many steps and one more succeed, so do the former alone. -/
theorem exists_steps_of_succ (hok : (steps (k + 1) c).result = .ok n) :
    ∃ earlier more, (steps k c).result = .ok earlier ∧ (step (steps k c).state).result = .ok more ∧
      n = earlier + more ∧ (steps (k + 1) c).state = (steps k c).state.next := by
  rw [steps] at hok ⊢
  obtain ⟨earlier, hearlier, hok, he⟩ := Exec.bind_eq_ok hok
  obtain ⟨more, hmore, hok, hm⟩ := Exec.bind_eq_ok hok
  refine ⟨earlier, more, hearlier, hmore, (Except.ok.inj hok).symm, ?_⟩
  rw [he, Outcome.state_after, hm]
  rfl

/-- The clock is charged with what a step reports, which is some time. -/
theorem now_next_of_ok (h : Reachable c) (hok : (step c).result = .ok n) :
    c.next.hardware.now = c.hardware.now + n ∧ 4 ≤ n := by
  obtain ⟨helapsed, running, hlasts, hcases⟩ := step_lasts h.hardware hok
  have hle := hlasts.bounds.2
  refine ⟨by rw [now_next h, helapsed], ?_⟩
  rcases hcases with ⟨-, rfl⟩ | ⟨-, rfl⟩
  · exact Nat.le_add_right_of_le hle
  · exact hle

/-- Steps that succeed lead to the next states, and the clock is charged with what they report. -/
theorem steps_of_ok (h : Reachable c) (hok : (steps k c).result = .ok n) :
    (steps k c).state = next^[k] c ∧ (next^[k] c).hardware.now = c.hardware.now + n ∧
      4 * k ≤ n := by
  induction k generalizing n with
  | zero =>
    obtain rfl : 0 = n := Except.ok.inj hok
    exact ⟨rfl, rfl, Nat.le_refl 0⟩
  | succ k ih =>
    obtain ⟨earlier, more, hearlier, hmore, rfl, hstate⟩ := exists_steps_of_succ hok
    obtain ⟨hk, hnow, hle⟩ := ih hearlier
    rw [hk] at hmore hstate
    obtain ⟨hnext, hpos⟩ := now_next_of_ok (h.iterate k) hmore
    rw [Function.iterate_succ_apply']
    exact ⟨hstate, by rw [hnext, hnow, Nat.add_assoc], by omega⟩

/-! ## The loop of a frame -/

/-- The loop of a frame goes on after steps: they succeeded, the display has presented no other
picture, and there is time left. -/
def GoesOn (c : Console) (o : Outcome Console Nat) : Prop :=
  ∃ cycles, o.result = .ok cycles ∧
    o.state.hardware.display.frames = c.hardware.display.frames ∧ cycles < frameTimeout

/-- The frame of a machine is so many steps. -/
structure IsFrame (c : Console) (n : Nat) : Prop where
  /-- Before each of them the loop goes on, -/
  goesOn : ∀ k < n, GoesOn c (steps k c)
  /-- after the last one it does not, -/
  stops : ¬ GoesOn c (steps n c)
  /-- and the time that each of them lets pass comes to an end. -/
  ends : ∀ k < n, Ends (next^[k] c)

theorem goesOn_iff (hk : steps k c = ⟨.ok cycles, c', records⟩) : GoesOn c (steps k c) ↔
    ¬ (c'.hardware.display.frames ≠ c.hardware.display.frames ∨ frameTimeout ≤ cycles) := by
  rw [hk, not_or, not_not, Nat.not_le]
  constructor
  · rintro ⟨_, hok, hframes, hlt⟩
    cases hok
    exact ⟨hframes, hlt⟩
  · exact fun ⟨hframes, hlt⟩ ↦ ⟨cycles, rfl, hframes, hlt⟩

/-- The loop is the steps before which it goes on, up to the first one that fails: if it may take as
many steps as cycles are left, it is over before they are used up. -/
theorem stepUntilFrame_eq (h : Reachable c) {fuel : Nat}
    (hk : steps k c = ⟨.ok cycles, c', records⟩) (hgo : ∀ j < k, GoesOn c (steps j c))
    (hfuel : frameTimeout ≤ cycles + fuel) :
    ∃ n, (∀ j < n, GoesOn c (steps j c)) ∧ ¬ GoesOn c (steps n c) ∧
      stepUntilFrame c.hardware.display.frames fuel cycles records c' = steps n c := by
  induction fuel generalizing k cycles c' records with
  | zero => exact ⟨k, hgo, fun hk' ↦ (goesOn_iff hk).1 hk' (Or.inr hfuel), hk.symm⟩
  | succ fuel ih =>
    rw [stepUntilFrame]
    by_cases hover : c'.hardware.display.frames ≠ c.hardware.display.frames ∨ frameTimeout ≤ cycles
    · rw [if_pos hover]
      exact ⟨k, hgo, fun hk' ↦ (goesOn_iff hk).1 hk' hover, hk.symm⟩
    rw [if_neg hover]
    have hgo' : ∀ j < k + 1, GoesOn c (steps j c) := by
      intro j hj
      rcases Nat.lt_succ_iff_lt_or_eq.1 hj with hlt | rfl
      · exact hgo j hlt
      · exact (goesOn_iff hk).2 hover
    rcases hs : step c' with ⟨fault | more, c'', after⟩
    · have hk' := steps_succ_of_error hk hs
      refine ⟨k + 1, hgo', ?_, hk'.symm⟩
      rintro ⟨_, hok, -⟩
      rw [hk'] at hok
      cases hok
    · -- A step takes time, so one is always left when there is time left.
      have hstate := (steps_of_ok (k := k) h (by rw [hk])).1
      rw [hk] at hstate
      obtain rfl : c' = next^[k] c := hstate
      have hpos := (now_next_of_ok (h.iterate k) (by rw [hs])).2
      exact ih (steps_succ_of_ok hk hs) hgo' (by omega)

/-- A frame is so many steps. -/
theorem exists_isFrame (h : Reachable c) : ∃ n, IsFrame c n ∧ runFrame c = steps n c := by
  have hzero : steps 0 c = ⟨.ok 0, c, #[]⟩ := rfl
  obtain ⟨n, hgo, hstop, hrun⟩ := stepUntilFrame_eq h hzero
    (fun j hj ↦ absurd hj (Nat.not_lt_zero j)) (Nat.le_add_left frameTimeout 0)
  exact ⟨n, ⟨hgo, hstop, fun k _ ↦ ends_of_reachable (h.iterate k).hardware⟩, hrun⟩

/-! ## Pictures of a step -/

theorem hardware_next (h : Hardware.Reachable c.hardware) :
    c.next.hardware = Hardware.afterAll (Operation.step.acts c) c.hardware := by
  rw [← state_perform_step]
  exact hardware_perform_acts h .step

/-- A step presents one picture at most. -/
theorem frames_next (h : Hardware.Reachable c.hardware) (hok : (step c).result = .ok n) :
    c.next.hardware.display.frames = c.hardware.display.frames ∨
      c.next.hardware.display.frames = c.hardware.display.frames + 1 := by
  have helapsed := (step_lasts h hok).1
  have hle : n ≤ 48 := step_le hok
  have hlt : Hardware.elapsed (Operation.step.acts c) + 0 < Hardware.pictureCycles :=
    Nat.lt_of_le_of_lt (helapsed.trans_le hle) (by decide)
  rw [hardware_next h]
  exact (h.frames_afterAll hlt).imp_right And.left

/-- A display that stays on throughout steps scans on. -/
theorem scanning_iterate (h : Reachable c) {t₀ f₀ : Nat} {log : Array Record}
    (hs : Scanning t₀ f₀ log c.hardware)
    (hon : ∀ k < n, StaysOn (Operation.step.acts (next^[k] c)) (next^[k] c).hardware) :
    ∃ log', Scanning t₀ f₀ log' (next^[n] c).hardware := by
  induction n with
  | zero => exact ⟨log, hs⟩
  | succ n ih =>
    obtain ⟨log', hs'⟩ := ih fun k hk ↦ hon k (Nat.lt_succ_of_lt hk)
    have hr := (h.iterate n).hardware
    rw [Function.iterate_succ_apply', hardware_next hr]
    exact (hon n n.lt_succ_self).scanning hr hs'

/-- As long as a display that stays on presents no picture, less than a frame's time has passed. -/
theorem lt_of_frames_eq (h : Reachable c) (hon : c.hardware.display.enabled)
    (hstays : ∀ k < n, StaysOn (Operation.step.acts (next^[k] c)) (next^[k] c).hardware)
    (hnow : (next^[n] c).hardware.now = c.hardware.now + cycles)
    (hframes : (next^[n] c).hardware.display.frames = c.hardware.display.frames) :
    cycles < frameCycles := by
  have hcontrol := h.hardware.wired.1.control
  obtain ⟨t₀, f₀, log, hs⟩ := h.hardware.scanning (by rw [← hcontrol, hon])
  obtain ⟨log', hs'⟩ := scanning_iterate h hs hstays
  obtain ⟨hle, -, -, -, hf, -⟩ := hs.position
  obtain ⟨-, -, -, -, hf', -⟩ := hs'.position
  rw [Timing.picturesAt_eq] at hf hf'
  show cycles < 70224
  omega

/-! ## Running a frame -/

/-- **A frame comes to an end.**  On every machine it is so many steps: one of them fails, or the
loop is over after the last one.  If none fails, the clock has moved on by the cycles that it
reports, which are less than two frames' time and the longest step.  The display has presented one
picture, or none if two frames' time has passed.  If it was on all the while, it has presented one,
within a frame's time and the longest step. -/
theorem runs_to_picture (h : Reachable c) :
    ∃ n, IsFrame c n ∧ n ≤ 35112 ∧ runFrame c = steps n c ∧
      ∀ cycles, (runFrame c).result = .ok cycles → ∀ hw, hw = (runFrame c).state.hardware →
        hw.now = c.hardware.now + cycles ∧
        (hw.display.frames = c.hardware.display.frames ∧ 140448 ≤ cycles ∨
          hw.display.frames = c.hardware.display.frames + 1) ∧
        cycles < 140448 + 48 ∧
        ((∀ k < n, StaysOn (Operation.step.acts (next^[k] c)) (next^[k] c).hardware) →
          hw.display.frames = c.hardware.display.frames + 1 ∧ cycles ≤ 70224 + 48) := by
  obtain ⟨n, hframe, hrun⟩ := exists_isFrame h
  -- The loop goes on at least once, so there is a last step.
  cases n with
  | zero => exact absurd ⟨0, rfl, rfl, by decide⟩ hframe.stops
  | succ m =>
  obtain ⟨spent, hspent, hsame, hleft⟩ := hframe.goesOn m m.lt_succ_self
  obtain ⟨hstate, hnow, hmany⟩ := steps_of_ok h hspent
  have hleft' : spent < 140448 := hleft
  rw [hstate] at hsame
  refine ⟨m + 1, hframe, by omega, hrun, ?_⟩
  rintro cycles hok _ rfl
  rw [hrun] at hok ⊢
  obtain ⟨hlast, hnow', -⟩ := steps_of_ok h hok
  obtain ⟨earlier, more, hearlier, hmore, rfl, -⟩ := exists_steps_of_succ hok
  obtain rfl : spent = earlier := Except.ok.inj (hspent.symm.trans hearlier)
  rw [hstate] at hmore
  have hle : more ≤ 48 := step_le hmore
  have hone := frames_next (h.iterate m).hardware hmore
  rw [hsame, ← Function.iterate_succ_apply' next] at hone
  have hover : (next^[m + 1] c).hardware.display.frames = c.hardware.display.frames →
      140448 ≤ spent + more := fun hnone ↦
    Nat.le_of_not_lt fun hlt ↦ hframe.stops ⟨_, hok, by rw [hlast, hnone], hlt⟩
  rw [hlast]
  refine ⟨hnow', hone.imp_left fun hnone ↦ ⟨hnone, hover hnone⟩, by omega, fun hstays ↦ ?_⟩
  have hlt : spent < 70224 := lt_of_frames_eq h (hstays 0 m.succ_pos).start
    (fun k hk ↦ hstays k (Nat.lt_succ_of_lt hk)) hnow hsame
  refine ⟨hone.resolve_left fun hnone ↦ ?_, by omega⟩
  have hle' := hover hnone
  omega

/-! ### A machine that rests -/

/-- A step that idles does nothing to the hardware but let time pass. -/
theorem acts_idled (h : Hardware.Reachable c.hardware) (hh : c.cpu.halted)
    (hnone : (c.idled (k + 1)).hardware.awaited = 0) :
    Operation.step.acts (c.idled k) = [.advance haltCycles] := by
  have hnone' := (Hardware.pendingInterrupt?_eq_none_iff _).2 hnone
  rw [Operation.acts, toCheck_idled h hh k]
  dsimp only
  rw [actsServing, hnone', actsRunning, if_pos (show (c.idled k).cpu.halted from hh)]
  rfl

theorem enabled_booted (opcode : UInt8) : (booted opcode).hardware.display.enabled := by
  rw [booted, Hardware.powerOn_eq]
  exact Hardware.enabled_started _

/-- The display of the machine that rests stays on. -/
theorem staysOn_resting (k : Nat) :
    StaysOn (Operation.step.acts (next^[k] resting)) (next^[k] resting).hardware := by
  obtain ⟨hh, heq, hoff⟩ := resting_booted
  have hr := reachable_resting.hardware
  have hnone : ∀ j, (resting.idled (j + 1)).hardware.awaited = 0 := fun j ↦
    hr.awaited_passed hoff _
  have hon : resting.hardware.display.enabled := by
    rw [heq]
    exact enabled_booted 0x76
  have hidled : next^[k] resting = resting.idled k :=
    next_iterate_of_unawaited hr hh fun j _ ↦ hnone j
  have hk : Hardware.Reachable (resting.idled k).hardware := hr.passed _
  rw [hidled, acts_idled hr hh (hnone k)]
  exact hk.staysOn_advance (hr.enabled_advance hon _) haltCycles

/-- It runs to the next picture. -/
theorem runs_to_picture_resting : Reachable resting ∧ ∃ cycles,
    (runFrame resting).result = .ok cycles ∧ cycles ≤ 70224 + 48 ∧
    (runFrame resting).state.hardware.display.frames = resting.hardware.display.frames + 1 := by
  obtain ⟨hh, hoff⟩ := resting_ready
  have hr := reachable_resting.hardware
  obtain ⟨n, -, -, hrun, hframe⟩ := runs_to_picture reachable_resting
  have hdozes : Dozes resting n := (dozes_iff hr hh).2 fun j _ ↦ hr.awaited_passed hoff _
  have hok : (runFrame resting).result = .ok (haltCycles * n) := by
    rw [hrun, hdozes.steps_eq hr hh]
  obtain ⟨-, -, -, hlit⟩ := hframe _ hok _ rfl
  obtain ⟨hframes, hle⟩ := hlit fun k _ ↦ staysOn_resting k
  exact ⟨reachable_resting, _, hok, hle, hframes⟩

end DotMatrix.Console
