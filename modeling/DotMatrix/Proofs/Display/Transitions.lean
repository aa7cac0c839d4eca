import DotMatrix.Proofs.Display.Status

/-!
# The transitions of a window

The transitions that the display makes while time passes are all those whose time falls into the
window and no others, each at its time: `Moved t₀ x h` says that `h` is the one that is made `x`
cycles after the display was turned on at `t₀`.

* `Timing.Starts` — a phase starts; of the lines of the vertical blank only the first starts it.
* `Beam.moved` — the way out of a phase is the transition that is made when the phase is over.
* `Beam.drains` — the transitions of a window, from where the beam is.
* `Scanning.transitions` — the same from when the display was turned on.
-/

set_option autoImplicit false

namespace DotMatrix

/-- A phase starts after `x` cycles.  The vertical blank has ten lines but starts once. -/
def Timing.Starts (phase : Phase) (x : Nat) : Prop :=
  phaseAt x = phase ∧ (phase = .vblank → lineAt x = visibleLines)

namespace Hardware

open Timed (Drains Firing)

variable {hw hw' : Hardware} {limit t₀ f₀ x y : Nat} {event : Event Task}
  {rest : List (Event Task)} {log records : Array Record} {firings : List (Firing Task Board)}
  {o : Outcome Hardware Unit}

/-! ## One transition -/

/-- The transition that the display makes `x` cycles after it was turned on at `t₀`. -/
structure Moved (t₀ x : Nat) (h : Happening) : Prop where
  begins : Timing.Begins x
  moves : h.moves
  now : h.before.now = t₀ + x
  line : (h.after.reg Register.line).toNat = Timing.lineAt x
  enters : ∀ phase, h.enters phase ↔ Timing.Starts phase x

namespace Beam

/-- Which phase starts when a phase is over. -/
theorem enters_followed (h : Beam t₀ f₀ y hw) (phase : Phase) :
    (Happening.mk hw (hw.followed hw.display.phase.exit)).enters phase ↔
      Timing.Starts phase (y + hw.display.phase.duration) := by
  have hp := h.phase
  have hafter := h.position_followed.phase
  have henters : (Happening.mk hw (hw.followed hw.display.phase.exit)).enters phase ↔
      hw.display.phase ≠ phase ∧ (hw.followed hw.display.phase.exit).display.phase = phase := by
    simp [Happening.enters]
  rw [henters, hafter, Timing.Starts]
  cases hq : hw.display.phase <;> rw [hq] at hp <;> rw [Phase.duration]
  case oamScan =>
    rw [(Timing.next_oamScan h.begins hp.symm).1]
    cases phase <;> simp
  case drawing =>
    rw [(Timing.next_drawing h.begins hp.symm).1]
    cases phase <;> simp
  case hblank =>
    obtain ⟨hp', -, hl', -⟩ := Timing.next_hblank h.begins hp.symm
    rw [hp', hl']
    split
    · rename_i hlast
      cases phase <;> simp [hlast]
    · cases phase <;> simp
  case vblank =>
    obtain ⟨hp', -, hl', -⟩ := Timing.next_vblank h.begins hp.symm
    have hle : visibleLines ≤ Timing.lineAt y := Timing.le_lineAt_of_vblank hp.symm
    have hne : Timing.lineAt y + 1 ≠ visibleLines := by omega
    rw [hp', hl']
    split
    · cases phase <;> simp
    · cases phase <;> simp [hne]

/-- The way out of a phase is the transition that is made when the phase is over. -/
theorem moved (h : Beam t₀ f₀ y hw) (hnow : hw.now = t₀ + y + hw.display.phase.duration) :
    Moved t₀ (y + hw.display.phase.duration) ⟨hw, hw.followed hw.display.phase.exit⟩ where
  begins := h.position_followed.begins
  moves := Happening.moves_followed hw
  now := hnow.trans (Nat.add_assoc _ _ _)
  line := h.position_followed.line
  enters := h.enters_followed

/-- What is due leaves the display where it is, or makes the transition whose turn it is. -/
theorem fires (h : Beam t₀ f₀ y hw) (hw₁ : Equipped hw) (hd : hw.clock.Due limit event rest)
    (hf : fire event.action (hw.taking event rest) = ⟨.ok (), hw', records⟩) :
    ¬ (Happening.mk (hw.taking event rest) hw').moves ∧ Beam t₀ f₀ y hw' ∨
      Moved t₀ (y + (Timing.phaseAt y).duration) ⟨hw.taking event rest, hw'⟩ ∧
        Beam t₀ f₀ (y + (Timing.phaseAt y).duration) hw' := by
  rcases hw₁.fire_cases hd with ⟨ticked, delay, ticks, hrole, htick⟩ | ⟨-, hfire⟩ |
    ⟨transition, ha, hon, hfire⟩
  · cases hf.symm.trans htick.fire_eq
    have hq := htick.quiet
    exact Or.inl ⟨Happening.not_moves hq.display hq.line, h.ticked hw₁.sound hd hrole hq⟩
  · cases hf.symm.trans hfire
    exact Or.inl ⟨Happening.not_moves rfl rfl, h.taking hw₁.sound hd⟩
  · obtain ⟨htarget, hfollow, hbeam⟩ := h.due hw₁ hd hon ha
    cases (hf.symm.trans hfire).trans hfollow
    rw [← h.phase]
    exact Or.inr ⟨(h.taking hw₁.sound hd).moved htarget, hbeam⟩

/-! ## All of a window -/

/-- **The transitions of a window are made, each at its time, and no others.** -/
theorem drains {on : Bool} (h : Beam t₀ f₀ y hw) (hr : Runs t₀ f₀ limit on log hw)
    (hon : hw.display.enabled) (hd : Drains fire limit hw firings o) :
    (∀ e ∈ film firings, e.moves → ∃ x, y < x ∧ t₀ + x < limit ∧ Moved t₀ x e) ∧
      ∀ x, y < x → t₀ + x < limit → Timing.Begins x → ∃ e ∈ film firings, Moved t₀ x e := by
  -- Whatever fires leaves the beam at `y` or takes it to the next time at which something begins.
  induction hd generalizing log y with
  | @done hw hnone =>
    refine ⟨fun e he ↦ absurd he List.not_mem_nil, fun x hlt hlimit hx ↦ ?_⟩
    -- The next transition is not due, and nothing begins before it.
    obtain ⟨e, he, htarget⟩ := h.exists_next hr.wired.toEquipped hon
    have hle := Timed.le_target_of_popDue?_eq_none hr.wired.sound hnone e he
    have hbegins := Timing.le_of_begins h.begins hx hlt
    rw [← h.phase] at hbegins
    omega
  | stop hd hf => exact absurd hf (hr.ne_error hd)
  | @next hw hw' event rest records firings o hd hf _ ih =>
    obtain ⟨-, hruns, -⟩ := hr.turn_of_ok hd hf
    have hon' : (display hw').enabled := by rw [hruns.enabled, ← hr.enabled, hon]
    simp only [mem_film_cons]
    rcases h.fires hr.wired.toEquipped hd hf with ⟨hstill, hbeam⟩ | ⟨hmoved, hbeam⟩
    · obtain ⟨hmade, hall⟩ := ih hbeam hruns hon'
      refine ⟨?_, fun x hlt hlimit hx ↦ ?_⟩
      · rintro e (rfl | he) hm
        · exact absurd hm hstill
        · exact hmade e he hm
      · obtain ⟨e, he, hmoved⟩ := hall x hlt hlimit hx
        exact ⟨e, Or.inr he, hmoved⟩
    · obtain ⟨hmade, hall⟩ := ih hbeam hruns hon'
      have hlater : y < y + (Timing.phaseAt y).duration :=
        Nat.lt_add_of_pos_right (Nat.lt_of_lt_of_le (by decide) (Phase.le_duration _))
      refine ⟨?_, fun x hlt hlimit hx ↦ ?_⟩
      · rintro e (rfl | he) hm
        · refine ⟨_, hlater, ?_, hmoved⟩
          rw [← hmoved.now]
          exact hd.2
        · obtain ⟨x, hlt, hlimit, hx⟩ := hmade e he hm
          exact ⟨x, Nat.lt_trans hlater hlt, hlimit, hx⟩
      · rcases Nat.eq_or_lt_of_le (Timing.le_of_begins h.begins hx hlt) with rfl | hlt'
        · exact ⟨_, Or.inl rfl, hmoved⟩
        · obtain ⟨e, he, hmoved⟩ := hall x hlt' hlimit hx
          exact ⟨e, Or.inr he, hmoved⟩

end Beam

/-- **While the display is on, the transitions of a window are those whose time falls into it.** -/
theorem Scanning.transitions (h : Scanning t₀ f₀ log hw) {cycles : Nat}
    (hd : Drains fire (hw.now + cycles) hw firings o) :
    (∀ e ∈ film firings, e.moves → ∃ x, 0 < x ∧ hw.now ≤ t₀ + x ∧ t₀ + x < hw.now + cycles ∧
      Moved t₀ x e) ∧
      ∀ x, 0 < x → hw.now ≤ t₀ + x → t₀ + x < hw.now + cycles → Timing.Begins x →
        ∃ e ∈ film firings, Moved t₀ x e := by
  obtain ⟨hw₁, hcontrol, ht⟩ := h.tracked
  have hon : hw.display.enabled := by rwa [hw₁.control]
  obtain ⟨y, hb, hy, -⟩ := ht hon
  obtain ⟨hmade, hall⟩ := hb.drains (.start hw₁ ht cycles) hon hd
  refine ⟨fun e he hm ↦ ?_, fun x hpos hnow hlimit hx ↦ ?_⟩
  · obtain ⟨x, hlt, hlimit, hmoved⟩ := hmade e he hm
    obtain ⟨next, hnext, htarget⟩ := hb.exists_next hw₁.toEquipped hon
    have htime : hw.now ≤ next.target := hw₁.sound.onTime next hnext
    have hbegins := Timing.le_of_begins hb.begins hmoved.begins hlt
    rw [← hb.phase] at hbegins
    exact ⟨x, by omega, by omega, hlimit, hmoved⟩
  · exact hall x (by omega) hlimit hx

end Hardware

end DotMatrix
