import DotMatrix.Proofs.Hardware.Transition

/-!
# The timing of a frame

Which line the display is on and what it does there, as functions of the cycles since it was turned
on.  `Begins x` says that a phase, or a line of the vertical blank, begins after `x` cycles.

* `line_of_within`, `phase_of_within` — until the phase is over, everything stays as it is.
* `next_oamScan`, `next_drawing`, `next_hblank`, `next_vblank` — where each phase leads when it is
  over.
-/

set_option autoImplicit false

namespace DotMatrix

/-- Where in its line a phase begins. -/
def Phase.offset : Phase → Nat
  | .oamScan | .vblank => 0
  | .drawing => oamScanCycles
  | .hblank => oamScanCycles + drawingCycles

namespace Timing

/-- The line after `x` cycles. -/
def lineAt (x : Nat) : Nat := x % frameCycles / lineCycles

/-- The phase after `x` cycles. -/
def phaseAt (x : Nat) : Phase :=
  if visibleLines ≤ lineAt x then .vblank
  else if x % frameCycles % lineCycles < oamScanCycles then .oamScan
  else if x % frameCycles % lineCycles < oamScanCycles + drawingCycles then .drawing
  else .hblank

/-- The pictures presented in the first `x` cycles, the last of them included. -/
def picturesAt (x : Nat) : Nat := (x + (totalLines - visibleLines) * lineCycles) / frameCycles

/-- A phase, or a line of the vertical blank, begins after `x` cycles. -/
def Begins (x : Nat) : Prop := x % lineCycles = (phaseAt x).offset

theorem lineAt_eq (x : Nat) : lineAt x = x % 70224 / 456 := rfl

theorem picturesAt_eq (x : Nat) : picturesAt x = (x + 4560) / 70224 := rfl

theorem lineAt_lt (x : Nat) : lineAt x < totalLines := by
  rw [lineAt_eq, totalLines]
  omega

/-- Each phase has its place in a line. -/
theorem phaseAt_cases (x : Nat) :
    phaseAt x = .oamScan ∧ lineAt x < 144 ∧ x % 456 < 80 ∨
    phaseAt x = .drawing ∧ lineAt x < 144 ∧ 80 ≤ x % 456 ∧ x % 456 < 252 ∨
    phaseAt x = .hblank ∧ lineAt x < 144 ∧ 252 ≤ x % 456 ∨
    phaseAt x = .vblank ∧ 144 ≤ lineAt x := by
  have hx : x % frameCycles % lineCycles = x % 456 := by
    show x % 70224 % 456 = _
    omega
  have h80 : oamScanCycles = 80 := rfl
  have h252 : oamScanCycles + drawingCycles = 252 := rfl
  rw [phaseAt, hx, visibleLines]
  split
  · exact Or.inr (Or.inr (Or.inr ⟨rfl, by assumption⟩))
  split
  · exact Or.inl ⟨rfl, by omega, by omega⟩
  split
  · exact Or.inr (Or.inl ⟨rfl, by omega, by omega, by omega⟩)
  · exact Or.inr (Or.inr (Or.inl ⟨rfl, by omega, by omega⟩))

theorem begins_zero : Begins 0 := rfl

/-! ## While a phase lasts -/

/-- Until a phase is over, line and pictures stay as they are. -/
theorem line_of_within {x y : Nat} (hb : Begins y) (hle : y ≤ x)
    (hlt : x < y + (phaseAt y).duration) : lineAt x = lineAt y ∧ picturesAt x = picturesAt y := by
  have hy : y % 456 = (phaseAt y).offset := hb
  rw [lineAt_eq, lineAt_eq, picturesAt_eq, picturesAt_eq]
  rcases phaseAt_cases y with ⟨p, -⟩ | ⟨p, -⟩ | ⟨p, -⟩ | ⟨p, -⟩ <;>
    rw [p] at hy hlt <;>
    simp only [Phase.offset, Phase.duration, lineCycles, oamScanCycles, drawingCycles,
      hblankCycles] at hy hlt <;>
    omega

/-- Until a phase is over, it is the phase. -/
theorem phase_of_within {x y : Nat} (hb : Begins y) (hle : y ≤ x)
    (hlt : x < y + (phaseAt y).duration) : phaseAt x = phaseAt y := by
  have hy : y % 456 = (phaseAt y).offset := hb
  have hl := (line_of_within hb hle hlt).1
  rcases phaseAt_cases y with ⟨p, hy'⟩ | ⟨p, hy'⟩ | ⟨p, hy'⟩ | ⟨p, hy'⟩ <;>
    rw [p] at hy hlt ⊢ <;>
    simp only [Phase.offset, Phase.duration, lineCycles, oamScanCycles, drawingCycles,
      hblankCycles] at hy hlt <;>
    rcases phaseAt_cases x with ⟨q, hx'⟩ | ⟨q, hx'⟩ | ⟨q, hx'⟩ | ⟨q, hx'⟩ <;>
    first
    | exact q
    | omega

/-- Until a phase is over, nothing else begins. -/
theorem le_of_begins {x y : Nat} (hb : Begins y) (hx : Begins x) (hlt : y < x) :
    y + (phaseAt y).duration ≤ x := by
  refine Nat.le_of_not_lt fun hwithin ↦ ?_
  have hphase := phase_of_within hb (Nat.le_of_lt hlt) hwithin
  have hy : y % 456 = (phaseAt y).offset := hb
  have hx' : x % 456 = (phaseAt x).offset := hx
  have hduration : (phaseAt y).duration ≤ 456 := by cases phaseAt y <;> decide
  rw [hphase] at hx'
  omega

/-! ## When a phase is over -/

section

variable {x : Nat}

theorem phaseAt_oamScan (hl : lineAt x < 144) (hx : x % 456 < 80) : phaseAt x = .oamScan := by
  rcases phaseAt_cases x with ⟨q, -⟩ | ⟨_, _⟩ | ⟨_, _⟩ | ⟨_, _⟩ <;> first | exact q | omega

theorem phaseAt_drawing (hl : lineAt x < 144) (hx : 80 ≤ x % 456 ∧ x % 456 < 252) :
    phaseAt x = .drawing := by
  rcases phaseAt_cases x with ⟨_, _⟩ | ⟨q, -⟩ | ⟨_, _⟩ | ⟨_, _⟩ <;> first | exact q | omega

theorem phaseAt_hblank (hl : lineAt x < 144) (hx : 252 ≤ x % 456) : phaseAt x = .hblank := by
  rcases phaseAt_cases x with ⟨_, _⟩ | ⟨_, _⟩ | ⟨q, -⟩ | ⟨_, _⟩ <;> first | exact q | omega

theorem phaseAt_vblank (hl : 144 ≤ lineAt x) : phaseAt x = .vblank := by
  rcases phaseAt_cases x with ⟨_, _⟩ | ⟨_, _⟩ | ⟨_, _⟩ | ⟨q, -⟩ <;> first | exact q | omega

theorem lineAt_of_phase (h : phaseAt x ≠ .vblank) : lineAt x < 144 :=
  Nat.lt_of_not_le fun hl ↦ h (phaseAt_vblank hl)

theorem le_lineAt_of_vblank (h : phaseAt x = .vblank) : 144 ≤ lineAt x := by
  rcases phaseAt_cases x with ⟨q, _⟩ | ⟨q, _⟩ | ⟨q, _⟩ | ⟨_, hl⟩
  · simp [h] at q
  · simp [h] at q
  · simp [h] at q
  · exact hl

end

section

variable {y : Nat} (hb : Begins y)

include hb

/-- The scan for sprites leads to drawing, on the same line. -/
theorem next_oamScan (hp : phaseAt y = .oamScan) :
    phaseAt (y + oamScanCycles) = .drawing ∧ Begins (y + oamScanCycles) ∧
      lineAt (y + oamScanCycles) = lineAt y ∧ picturesAt (y + oamScanCycles) = picturesAt y := by
  have hy : y % 456 = 0 := by rwa [Begins, hp] at hb
  have hl := lineAt_of_phase (x := y) (by simp [hp])
  have hz : (y + 80) % 456 = 80 := by omega
  have hl' : lineAt (y + 80) = lineAt y := by
    rw [lineAt_eq, lineAt_eq]
    omega
  have hp' : phaseAt (y + 80) = .drawing := phaseAt_drawing (by omega) (by omega)
  refine ⟨hp', ?_, hl', ?_⟩
  · show (y + 80) % 456 = (phaseAt (y + 80)).offset
    rw [hp', hz]
    rfl
  · show picturesAt (y + 80) = _
    rw [picturesAt_eq, picturesAt_eq]
    omega

/-- Drawing leads to the horizontal blank, on the same line. -/
theorem next_drawing (hp : phaseAt y = .drawing) :
    phaseAt (y + drawingCycles) = .hblank ∧ Begins (y + drawingCycles) ∧
      lineAt (y + drawingCycles) = lineAt y ∧ picturesAt (y + drawingCycles) = picturesAt y := by
  have hy : y % 456 = 80 := by rwa [Begins, hp] at hb
  have hl := lineAt_of_phase (x := y) (by simp [hp])
  have hz : (y + 172) % 456 = 252 := by omega
  have hl' : lineAt (y + 172) = lineAt y := by
    rw [lineAt_eq, lineAt_eq]
    omega
  have hp' : phaseAt (y + 172) = .hblank := phaseAt_hblank (by omega) (by omega)
  refine ⟨hp', ?_, hl', ?_⟩
  · show (y + 172) % 456 = (phaseAt (y + 172)).offset
    rw [hp', hz]
    rfl
  · show picturesAt (y + 172) = _
    rw [picturesAt_eq, picturesAt_eq]
    omega

/-- The horizontal blank leads to the next line; below the picture, with a picture presented. -/
theorem next_hblank (hp : phaseAt y = .hblank) :
    phaseAt (y + hblankCycles) = (if lineAt y + 1 = visibleLines then .vblank else .oamScan) ∧
      Begins (y + hblankCycles) ∧ lineAt (y + hblankCycles) = lineAt y + 1 ∧
      picturesAt (y + hblankCycles) =
        picturesAt y + if lineAt y + 1 = visibleLines then 1 else 0 := by
  have hy : y % 456 = 252 := by rwa [Begins, hp] at hb
  have hl := lineAt_of_phase (x := y) (by simp [hp])
  have hz : (y + 204) % 456 = 0 := by omega
  have hl' : lineAt (y + 204) = lineAt y + 1 := by
    rw [lineAt_eq] at hl
    rw [lineAt_eq, lineAt_eq]
    omega
  show phaseAt (y + 204) = _ ∧ Begins (y + 204) ∧ lineAt (y + 204) = _ ∧ picturesAt (y + 204) = _
  rw [visibleLines]
  by_cases h144 : lineAt y + 1 = 144
  · have hp' : phaseAt (y + 204) = .vblank := phaseAt_vblank (by omega)
    rw [if_pos h144, if_pos h144]
    refine ⟨hp', by rw [Begins, hp']; exact hz, hl', ?_⟩
    rw [lineAt_eq] at h144
    rw [picturesAt_eq, picturesAt_eq]
    omega
  · have hp' : phaseAt (y + 204) = .oamScan := phaseAt_oamScan (by omega) (by omega)
    rw [if_neg h144, if_neg h144]
    refine ⟨hp', by rw [Begins, hp']; exact hz, hl', ?_⟩
    rw [lineAt_eq] at h144 hl
    rw [picturesAt_eq, picturesAt_eq]
    omega

/-- A line of the vertical blank leads to the next one, or back to the top of the picture. -/
theorem next_vblank (hp : phaseAt y = .vblank) :
    phaseAt (y + lineCycles) = (if lineAt y + 1 = totalLines then .oamScan else .vblank) ∧
      Begins (y + lineCycles) ∧
      lineAt (y + lineCycles) = (if lineAt y + 1 = totalLines then 0 else lineAt y + 1) ∧
      picturesAt (y + lineCycles) = picturesAt y := by
  have hy : y % 456 = 0 := by rwa [Begins, hp] at hb
  have hl := le_lineAt_of_vblank hp
  have hz : (y + 456) % 456 = 0 := by omega
  show phaseAt (y + 456) = _ ∧ Begins (y + 456) ∧ lineAt (y + 456) = _ ∧ picturesAt (y + 456) = _
  have hpic : picturesAt (y + 456) = picturesAt y := by
    rw [lineAt_eq] at hl
    rw [picturesAt_eq, picturesAt_eq]
    omega
  rw [totalLines]
  by_cases h154 : lineAt y + 1 = 154
  · have hl' : lineAt (y + 456) = 0 := by
      rw [lineAt_eq] at h154 ⊢
      omega
    have hp' : phaseAt (y + 456) = .oamScan := phaseAt_oamScan (by omega) (by omega)
    rw [if_pos h154, if_pos h154]
    exact ⟨hp', by rw [Begins, hp']; exact hz, hl', hpic⟩
  · have hl' : lineAt (y + 456) = lineAt y + 1 := by
      rw [lineAt_eq] at h154
      rw [lineAt_eq, lineAt_eq]
      omega
    have hp' : phaseAt (y + 456) = .vblank := phaseAt_vblank (by omega)
    rw [if_neg h154, if_neg h154]
    exact ⟨hp', by rw [Begins, hp']; exact hz, hl', hpic⟩

end

end Timing

end DotMatrix
