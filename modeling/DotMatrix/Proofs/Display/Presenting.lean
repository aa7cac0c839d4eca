import DotMatrix.Proofs.Display.Position
import DotMatrix.Proofs.Timer.Drift

/-!
# How far pictures are apart

A picture is presented when the display has gone through all of its lines, and the next one only
when it has gone through all of them again.  Turning the display off and on again makes it start at
the top, which takes no less.  So in less time than a picture's lines take, whatever is done
meanwhile, one picture is presented at most.

* `Reachable.perform_cases_scanning` — an operation presents a picture only by letting a display
  that is on scan further.
* `Distant k hw` — no picture is presented within `k` cycles, and `Distant.perform`, that this stays
  so while time runs down.
* `Reachable.frames_afterAll` — one picture at most in less than the time of a picture's lines.
* `StaysOn` — the display is on throughout operations, and so they let it scan on
  (`StaysOn.scanning`).
-/

set_option autoImplicit false

namespace DotMatrix.Hardware

variable {hw : Hardware} {op : Operation} {ops : List Operation} {t₀ f₀ k : Nat}
  {log : Array Record}

/-! ## Operations and pictures -/

/-- Operations other than time take none. -/
theorem duration_of_act (ha : ∀ cycles, op ≠ .advance cycles) : op.duration = 0 := by
  cases op with
  | advance cycles => exact absurd rfl (ha cycles)
  | write | withdraw | press => rfl

/-- The clock moves on by what an operation takes. -/
theorem Reachable.now_perform (h : Reachable hw) (op : Operation) :
    (op.perform hw).state.now = hw.now + op.duration := by
  by_cases ha : ∃ cycles, op = .advance cycles
  · obtain ⟨cycles, rfl⟩ := ha
    exact h.now_advance cycles
  · have ha : ∀ cycles, op ≠ .advance cycles := fun cycles he ↦ ha ⟨cycles, he⟩
    rw [duration_of_act ha, Timed.now, Timed.now]
    rcases clock_perform_cases h.wired.1.listens ha with hc | ⟨_, _, hc⟩ <;> rw [hc]
    · rfl
    · rfl

/-- Time does not change a display that is off. -/
theorem allowsTurns_off :
    AllowsTurns fun hw _ hw' ↦ hw.display.enabled = false → hw'.display = hw.display where
  refl _ _ := rfl
  trans h h' hoff := (h' (by rw [h hoff, hoff])).trans (h hoff)
  moment _ _ _ _ := rfl
  turn h hoff := by
    cases h with
    | tick h => exact h.quiet.display
    | void => rfl
    | display hon =>
      rw [hoff] at hon
      cases hon

/-- An operation on a display that is off presents nothing, even if it turns it on. -/
theorem Reachable.frames_perform_of_off (h : Reachable hw) (hoff : hw.display.enabled = false)
    (op : Operation) : (op.perform hw).state.display.frames = hw.display.frames := by
  by_cases ha : ∃ cycles, op = .advance cycles
  · obtain ⟨cycles, rfl⟩ := ha
    exact congrArg Display.frames (allowsTurns_off.advance h cycles hoff)
  have hl := h.wired.1.listens
  by_cases hc : ∃ value, op = .write Register.lcdControl value
  · obtain ⟨value, rfl⟩ := hc
    rw [Operation.perform]
    rcases write_lcdControl_cases hl value with ⟨-, hop⟩ | ⟨-, -, hop⟩ | ⟨-, -, hop⟩ <;> rw [hop]
    · rfl
    · exact frames_started _
    · rfl
  · have hq := quiet_perform hl (fun cycles he ↦ ha ⟨cycles, he⟩) fun value he ↦ hc ⟨value, he⟩
    rw [hq.display]

/-- An operation presents nothing, and leaves the display off or just turned on; or it lets a
display that is on scan further. -/
theorem Reachable.perform_cases_scanning (h : Reachable hw) (op : Operation) :
    ((op.perform hw).state.display.frames = hw.display.frames ∧
      ((op.perform hw).state.display.enabled → ∃ log,
        Scanning (op.perform hw).state.now hw.display.frames log (op.perform hw).state)) ∨
    hw.display.enabled ∧ (op.perform hw).state.display.enabled ∧
      ∀ {t₀ f₀ log}, Scanning t₀ f₀ log hw → ∃ log', Scanning t₀ f₀ log' (op.perform hw).state := by
  obtain ⟨hw₁, _, _, _, ht⟩ := h.wired
  rcases perform_cases hw₁ ht op with ⟨hw₂, he, -⟩ | ⟨value, rfl, hoff, hv, hop⟩ |
    ⟨value, rfl, -, -, hop⟩
  · cases hon : hw.display.enabled with
    | false =>
      rw [hon] at he
      refine Or.inl ⟨h.frames_perform_of_off hon op, fun hlit ↦ ?_⟩
      rw [he] at hlit
      cases hlit
    | true =>
      rw [hon] at he
      exact Or.inr ⟨rfl, he, fun hs ↦ ⟨_, hs.perform op (by rw [← hw₂.control, he])⟩⟩
  · have hreg : turnsOn (hw.reg Register.lcdControl) = false := by rw [← hw₁.control, hoff]
    have hs := Scanning.turnedOn h hreg hv
    have hop' : write Register.lcdControl value hw = _ := hop
    rw [hop'] at hs
    rw [hop]
    refine Or.inl ⟨frames_started _, fun _ ↦ ?_⟩
    rw [Timed.now, clock_started]
    exact ⟨_, hs⟩
  · rw [hop]
    refine Or.inl ⟨rfl, fun hlit ↦ ?_⟩
    rw [enabled_stopped] at hlit
    cases hlit

/-! ## Pictures are far apart -/

/-- The time of a picture's lines. -/
def pictureCycles : Nat := visibleLines * lineCycles

/-- No picture is presented within `k` cycles, whatever is done: if the display is on, its next one
is further away than that, and a display that is turned on takes longer to its first one. -/
def Distant (k : Nat) (hw : Hardware) : Prop :=
  k < pictureCycles ∧ (hw.display.enabled → ∃ t₀ f₀ log, Scanning t₀ f₀ log hw ∧
    Timing.picturesAt (hw.now - t₀ - 1 + k) = Timing.picturesAt (hw.now - t₀ - 1))

/-- A display that was just turned on is at the top of its picture. -/
theorem distant_of_turnedOn (hk : k < pictureCycles)
    (h : hw.display.enabled → ∃ log, Scanning hw.now f₀ log hw) : Distant k hw := by
  refine ⟨hk, fun hon ↦ ?_⟩
  obtain ⟨log, hs⟩ := h hon
  refine ⟨_, _, _, hs, ?_⟩
  have hk' : k < 65664 := hk
  rw [Timing.picturesAt_eq, Timing.picturesAt_eq]
  omega

/-- While the next picture is further away than what is done takes, none is presented. -/
theorem Distant.perform (hr : Reachable hw) (h : Distant (op.duration + k) hw) :
    (op.perform hw).state.display.frames = hw.display.frames ∧
      Distant k (op.perform hw).state := by
  obtain ⟨hlt, hon⟩ := h
  have hk : k < pictureCycles := Nat.lt_of_le_of_lt (Nat.le_add_left k _) hlt
  rcases hr.perform_cases_scanning op with ⟨hframes, hfresh⟩ | ⟨hlit, hlit', hscan⟩
  · exact ⟨hframes, distant_of_turnedOn hk hfresh⟩
  obtain ⟨t₀, f₀, log, hs, hp⟩ := hon hlit
  obtain ⟨log', hs'⟩ := hscan hs
  obtain ⟨-, -, -, -, hf, -⟩ := hs.position
  obtain ⟨-, -, -, -, hf', -⟩ := hs'.position
  have hnow := hr.now_perform op
  rw [Timing.picturesAt_eq, Timing.picturesAt_eq] at hp
  rw [Timing.picturesAt_eq] at hf hf'
  refine ⟨by omega, hk, fun _ ↦ ⟨t₀, f₀, log', hs', ?_⟩⟩
  rw [Timing.picturesAt_eq, Timing.picturesAt_eq]
  omega

/-- After a picture was presented the next one is far away. -/
theorem Reachable.frames_perform (hr : Reachable hw) (hlt : op.duration + k < pictureCycles) :
    (op.perform hw).state.display.frames = hw.display.frames ∨
      (op.perform hw).state.display.frames = hw.display.frames + 1 ∧
        Distant k (op.perform hw).state := by
  rcases hr.perform_cases_scanning op with ⟨hframes, -⟩ | ⟨hlit, -, hscan⟩
  · exact Or.inl hframes
  have hw₁ := hr.wired.1
  obtain ⟨t₀, f₀, log, hs⟩ := hr.scanning (by rw [← hw₁.control, hlit])
  obtain ⟨log', hs'⟩ := hscan hs
  obtain ⟨-, -, -, -, hf, -⟩ := hs.position
  obtain ⟨-, -, -, -, hf', -⟩ := hs'.position
  have hnow := hr.now_perform op
  have hlt' : op.duration + k < 65664 := hlt
  rw [Timing.picturesAt_eq] at hf hf'
  by_cases hsame : (op.perform hw).state.display.frames = hw.display.frames
  · exact Or.inl hsame
  refine Or.inr ⟨by omega, Nat.lt_of_le_of_lt (Nat.le_add_left k _) hlt, fun _ ↦
    ⟨t₀, f₀, log', hs', ?_⟩⟩
  rw [Timing.picturesAt_eq, Timing.picturesAt_eq]
  omega

theorem Reachable.afterAll (hr : Reachable hw) (ops : List Operation) :
    Reachable (afterAll ops hw) := by
  induction ops with
  | nil => exact hr
  | cons op older ih => exact ih.perform op

/-- One picture is presented at most in less than the time of a picture's lines, and if it was, the
next one is still as far away as what is left of that time. -/
theorem Reachable.frames_afterAll (hr : Reachable hw) (hlt : elapsed ops + k < pictureCycles) :
    (Hardware.afterAll ops hw).display.frames = hw.display.frames ∨
      (Hardware.afterAll ops hw).display.frames = hw.display.frames + 1 ∧
        Distant k (Hardware.afterAll ops hw) := by
  induction ops generalizing k with
  | nil => exact Or.inl rfl
  | cons op older ih =>
    have helapsed : elapsed (op :: older) = op.duration + elapsed older := rfl
    rw [helapsed] at hlt
    have hold := hr.afterAll older
    rcases ih (k := op.duration + k) (by omega) with hsame | ⟨hone, hd⟩
    · have hop := @Reachable.frames_perform _ op k hold (by omega)
      rwa [hsame] at hop
    · obtain ⟨hframes, hd'⟩ := hd.perform hold
      exact Or.inr ⟨hframes.trans hone, hd'⟩

/-! ## A display that stays on -/

/-- The display is on before operations, the newest first, between them and after them. -/
def StaysOn (ops : List Operation) (hw : Hardware) : Prop :=
  ∀ older, older <:+ ops → (afterAll older hw).display.enabled

theorem StaysOn.start (h : StaysOn ops hw) : hw.display.enabled := h [] List.nil_suffix

/-- A display that stays on scans on. -/
theorem StaysOn.scanning (h : StaysOn ops hw) (hr : Reachable hw) (hs : Scanning t₀ f₀ log hw) :
    ∃ log', Scanning t₀ f₀ log' (afterAll ops hw) := by
  induction ops with
  | nil => exact ⟨log, hs⟩
  | cons op older ih =>
    obtain ⟨log', hs'⟩ := ih fun _ hsuffix ↦ h _ (hsuffix.trans (List.suffix_cons op older))
    have hon := h _ (List.suffix_refl _)
    rw [(hr.afterAll _).wired.1.control] at hon
    exact ⟨_, .perform op hs' hon⟩

/-- Time leaves a display on. -/
theorem Reachable.enabled_advance (h : Reachable hw) (hon : hw.display.enabled) (cycles : Nat) :
    (Hardware.advance cycles hw).state.display.enabled := by
  obtain ⟨_, _, _, hs⟩ := h.scanning (by rw [← h.wired.1.control, hon])
  obtain ⟨hw₁, hlit, -⟩ := (hs.advance cycles).tracked
  rw [hw₁.control, hlit]

theorem Reachable.staysOn_advance (h : Reachable hw) (hon : hw.display.enabled) (cycles : Nat) :
    StaysOn [.advance cycles] hw := by
  intro older hsuffix
  rcases List.suffix_cons_iff.1 hsuffix with rfl | hsuffix
  · exact h.enabled_advance hon cycles
  · rw [List.suffix_nil.1 hsuffix]
    exact hon

end DotMatrix.Hardware
