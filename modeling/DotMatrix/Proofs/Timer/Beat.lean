import Mathlib.Data.Nat.Count
import DotMatrix.Proofs.Hardware.Changes

/-!
# Timers that keep their beat

The divider and the calendar of the cartridge tick at the multiples of a period that never changes.
Each tick schedules the next one from the moment it was due, not from the moment it is noticed, so
neither the other events nor the ends of the windows that time passes in can shift them.

* `Beat` — the two timers, and `moments`, when they ticked.
* `Fires` — what firing an event does, and `Runs.fires`, that it does so.
* `OnBeat` — a timer ticked at every multiple of its period so far, and waits for the next one.
* `Punctual` — both timers are on their beat, and the divider counts the ticks since some time.
* `Punctual.drains` — a window of time leaves them so.
-/

set_option autoImplicit false

namespace DotMatrix

/-! ## The timers -/

/-- A timer whose period never changes. -/
inductive Beat where
  | divider | calendar
  deriving DecidableEq

namespace Beat

/-- The cycles between two ticks. -/
def period : Beat → Nat
  | .divider => Hardware.dividerCycles
  | .calendar => Hardware.secondCycles

/-- The role of the tick that waits. -/
def role : Beat → Role
  | .divider => .divider
  | .calendar => .calendar

theorem period_pos (beat : Beat) : 0 < beat.period := by cases beat <;> decide

end Beat

/-- The timer that a task is a tick of, among those whose period never changes. -/
def Task.beat? : Task → Option Beat
  | .divider => some .divider
  | .calendar => some .calendar
  | .counter | .display _ _ | .reaction _ => none

theorem Task.role_eq_iff {task : Task} {beat : Beat} (epoch : Nat) :
    task.role epoch = beat.role ↔ task.beat? = some beat := by
  cases task with
  | display planned transition =>
    rw [Task.role]
    cases beat <;> split <;> simp [Beat.role, Task.beat?] <;> split <;> simp
  | divider | counter | calendar | reaction => cases beat <;> simp [Beat.role, Task.beat?, Task.role]

namespace Hardware

open Timed (Drains Firing)

/-! ## Firing an event -/

/-- What firing a task of the machine's own does: a timer ticks and waits for its next tick, and a
transition of the display is followed or void. -/
inductive Fires (hw : Hardware) : Task → Hardware → Prop where
  | tick {task : Task} {records : Array Record} {ticked : Hardware} {delay : Nat}
      (h : Ticks hw task records ticked delay) : Fires hw task (ticked.later delay task)
  | void (epoch : Nat) (transition : Transition) : Fires hw (.display epoch transition) hw
  | follow (epoch : Nat) (transition : Transition) :
      Fires hw (.display epoch transition) (hw.followed transition)

variable {hw hw' : Hardware} {limit delay : Nat} {event : Event Task} {rest : List (Event Task)}
  {task : Task} {beat : Beat}

/-- What is due fires. -/
theorem Runs.fires {t₀ f₀ : Nat} {on : Bool} {log records : Array Record}
    (h : Runs t₀ f₀ limit on log hw) (hd : hw.clock.Due limit event rest)
    (hf : fire event.action (hw.taking event rest) = ⟨.ok (), hw', records⟩) :
    Fires (hw.taking event rest) event.action hw' := by
  have hw₁ := h.wired
  rcases hw₁.fire_cases hd with ⟨ticked, delay, ticks, -, htick⟩ | ⟨hvoid, hfire⟩ |
    ⟨transition, ha, hon, hfire⟩
  · cases hf.symm.trans htick.fire_eq
    exact .tick htick
  · cases hf.symm.trans hfire
    rw [roleOf] at hvoid
    cases ha : event.action with
    | display epoch transition => exact .void epoch transition
    | divider | counter | calendar | reaction =>
      rw [ha] at hvoid
      cases hvoid
  · obtain ⟨y, hb, -, -⟩ := h.tracks hon
    have hline := line_ne_of_lt (hb.taking hw₁.sound hd).placed.lt
    cases (hf.symm.trans hfire).trans (follow_apply _ hline transition)
    rw [ha]
    exact .follow _ transition

/-- The calendar ticks with its timer and at no other time. -/
theorem Fires.cartridge (h : Fires hw task hw') : hw'.bus.cartridge =
    if task.beat? = some .calendar then hw.bus.cartridge.tickCalendar else hw.bus.cartridge := by
  cases h with
  | tick h =>
    cases h with
    | divider | calendar => rfl
    | counter =>
      show (if hw.counterRuns then hw.counted else hw).bus.cartridge = hw.bus.cartridge
      split
      · rw [counted]
        split <;> rfl
      · rfl
  | void => rfl
  | follow epoch transition => exact cartridge_covers.followed hw transition

/-- The display leaves the divider alone. -/
theorem divider_covers :
    CoversDisplay fun hw hw' ↦ hw'.reg Register.divider = hw.reg Register.divider :=
  reg_covers (by decide) (by decide) (by decide)

/-- The divider counts with its timer and at no other time. -/
theorem Fires.divider (h : Fires hw task hw') : hw'.reg Register.divider =
    if task.beat? = some .divider then hw.reg Register.divider + 1
    else hw.reg Register.divider := by
  cases h with
  | tick h =>
    cases h with
    | divider => exact reg_put_self _ _ _
    | calendar => rfl
    | counter =>
      show (if hw.counterRuns then hw.counted else hw).reg Register.divider = _
      split
      · rw [counted]
        split
        · rw [reg_requesting _ _ (by decide)]
          exact reg_put_of_ne hw _ (by decide)
        · exact reg_put_of_ne hw _ (by decide)
      · rfl
  | void => rfl
  | follow epoch transition => exact divider_covers.followed hw transition

/-- A tick lets the next one wait for its period. -/
theorem Fires.clock_of_beat (h : Fires hw task hw') (hb : task.beat? = some beat) :
    hw'.clock = hw.clock.schedule beat.period task := by
  cases h with
  | tick h =>
    rw [clock_later, h.quiet.clock]
    cases h with
    | divider | calendar =>
      obtain rfl := Option.some.inj hb
      rfl
    | counter => cases hb
  | void | follow => cases hb

/-- Whatever else fires lets no tick wait. -/
theorem Fires.clock_of_none (h : Fires hw task hw') (hb : task.beat? = none) :
    hw'.clock = hw.clock ∨
      ∃ delay other, other.beat? = none ∧ hw'.clock = hw.clock.schedule delay other := by
  cases h with
  | tick h =>
    rw [clock_later, h.quiet.clock]
    exact Or.inr ⟨_, _, hb, rfl⟩
  | void => exact Or.inl rfl
  | follow epoch transition =>
    obtain ⟨delay, next, -, hc⟩ := exists_clock_followed hw transition
    exact Or.inr ⟨delay, _, rfl, hc⟩

theorem Fires.now (h : Fires hw task hw') : hw'.now = hw.now := by
  rw [Timed.now, Timed.now]
  cases hb : task.beat? with
  | some beat => rw [h.clock_of_beat hb, Clock.now_schedule]
  | none => rcases h.clock_of_none hb with hc | ⟨_, _, -, hc⟩ <;> rw [hc]; rfl

/-! ## The moments of ticks -/

/-- When a timer ticked, among what fired. -/
def moments (beat : Beat) (fired : List (Firing Task Board)) : List Nat :=
  (fired.filter fun f ↦ f.event.action.beat? = some beat).map fun f ↦ f.event.target

/-- How often a timer ticked. -/
def ticks (beat : Beat) (fired : List (Firing Task Board)) : Nat := (moments beat fired).length

variable {fired : List (Firing Task Board)} {f : Firing Task Board}

theorem moments_append (beat : Beat) (fired more : List (Firing Task Board)) :
    moments beat (fired ++ more) = moments beat fired ++ moments beat more := by
  rw [moments, List.filter_append, List.map_append]
  rfl

theorem moments_of_beat (h : f.event.action.beat? = some beat) :
    moments beat (fired ++ [f]) = moments beat fired ++ [f.event.target] := by
  rw [moments_append]
  simp [moments, h]

theorem moments_of_ne (h : f.event.action.beat? ≠ some beat) :
    moments beat (fired ++ [f]) = moments beat fired := by
  rw [moments_append]
  simp [moments, h]

theorem ticks_of_beat (h : f.event.action.beat? = some beat) :
    ticks beat (fired ++ [f]) = ticks beat fired + 1 := by
  rw [ticks, moments_of_beat h, List.length_append]
  rfl

theorem ticks_of_ne (h : f.event.action.beat? ≠ some beat) :
    ticks beat (fired ++ [f]) = ticks beat fired := by
  rw [ticks, moments_of_ne h, ticks]

/-! ## On the beat -/

/-- A timer ticked at the first multiples of its period, one after another, and waits for the
next. -/
structure OnBeat (beat : Beat) (fired : List (Firing Task Board)) (hw : Hardware) : Prop where
  past : moments beat fired = (List.range (ticks beat fired)).map fun k ↦ beat.period * (k + 1)
  next : ∀ e ∈ hw.clock.queue, e.action.beat? = some beat →
    e.target = beat.period * (ticks beat fired + 1)

/-- Whatever waits beside the tick does not matter. -/
theorem OnBeat.keep (h : OnBeat beat fired hw)
    (hq : ∀ e ∈ hw'.clock.queue, e.action.beat? = some beat → e ∈ hw.clock.queue) :
    OnBeat beat fired hw' := ⟨h.past, fun e he hb ↦ h.next e (hq e he hb) hb⟩

theorem OnBeat.scheduled (h : OnBeat beat fired hw)
    (hc : hw'.clock = hw.clock.schedule delay task) (hb : task.beat? ≠ some beat) :
    OnBeat beat fired hw' := by
  refine h.keep fun e he hbe ↦ ?_
  rw [hc, Clock.queue_schedule, Clock.mem_insert] at he
  rcases he with rfl | he
  · exact absurd hbe hb
  · exact he

theorem OnBeat.taking (h : OnBeat beat fired hw) (hd : hw.clock.Due limit event rest) :
    OnBeat beat fired (hw.taking event rest) := by
  exact h.keep fun e he _ ↦ hd.mem_of_rest he

/-- One tick of each timer waits. -/
theorem Equipped.waiting_beat (h : Equipped hw) (beat : Beat) : hw.waiting beat.role = 1 := by
  rw [h.shares beat.role (by cases beat <;> decide)]
  cases beat <;> rfl

theorem Equipped.exists_next (h : Equipped hw) (beat : Beat) :
    ∃ e ∈ hw.clock.queue, e.action.beat? = some beat := by
  have hpos : 0 < hw.waiting beat.role := by
    rw [h.waiting_beat]
    exact Nat.one_pos
  obtain ⟨e, he, hr⟩ := List.countP_pos_iff.1 hpos
  exact ⟨e, he, (Task.role_eq_iff _).1 (of_decide_eq_true hr)⟩

/-- When a tick is due, no other of its timer waits. -/
theorem Equipped.beat_ne (h : Equipped hw) (hd : hw.clock.Due limit event rest)
    (hb : event.action.beat? = some beat) {e : Event Task} (he : e ∈ rest) :
    e.action.beat? ≠ some beat := by
  have hrole : hw.roleOf event = beat.role := (Task.role_eq_iff _).2 hb
  have hnone : waiting (hw.taking event rest) beat.role = 0 :=
    waiting_taking_of_due hd hrole (h.waiting_beat beat)
  exact fun hb' ↦ roleOf_ne_of_waiting hnone he ((Task.role_eq_iff _).2 hb')

/-- A tick of the timer leaves it on its beat. -/
theorem OnBeat.ticked (h : OnBeat beat fired hw) (hw₁ : Equipped hw)
    (hd : hw.clock.Due limit event rest) (hb : event.action.beat? = some beat)
    (hf : Fires (hw.taking event rest) event.action hw') :
    OnBeat beat (fired ++ [⟨event, hw.taking event rest, hw'⟩]) hw' := by
  have htarget : event.target = beat.period * (ticks beat fired + 1) :=
    h.next event hd.mem hb
  constructor
  · rw [moments_of_beat hb, ticks_of_beat hb, List.range_succ, List.map_append, ← h.past]
    rw [htarget]
    rfl
  · intro e he hbe
    rw [hf.clock_of_beat hb, Clock.queue_schedule, Clock.mem_insert] at he
    rcases he with rfl | he
    · rw [ticks_of_beat hb, Nat.mul_succ, ← htarget]
      rfl
    · exact absurd hbe (hw₁.beat_ne hd hb he)

/-- Whatever else fires leaves a timer on its beat. -/
theorem OnBeat.other (h : OnBeat beat fired hw) (hd : hw.clock.Due limit event rest)
    (hb : event.action.beat? ≠ some beat) (hf : Fires (hw.taking event rest) event.action hw') :
    OnBeat beat (fired ++ [⟨event, hw.taking event rest, hw'⟩]) hw' := by
  have hkept : OnBeat beat fired hw' := by
    cases ha : event.action.beat? with
    | some other => exact (h.taking hd).scheduled (hf.clock_of_beat ha) hb
    | none =>
      rcases hf.clock_of_none ha with hc | ⟨delay, other, ho, hc⟩
      · exact (h.taking hd).keep fun e he _ ↦ hc ▸ he
      · exact (h.taking hd).scheduled hc (by simp [ho])
  constructor
  · rw [moments_of_ne hb, ticks_of_ne hb]
    exact hkept.past
  · rw [ticks_of_ne hb]
    exact hkept.next

/-- Both timers are on their beat, and the divider has counted the ticks from `since` on. -/
structure Punctual (since : Nat) (fired : List (Firing Task Board)) (hw : Hardware) : Prop where
  onBeat : ∀ beat, OnBeat beat fired hw
  divider : (hw.reg Register.divider).toNat =
    Nat.count (fun k ↦ since ≤ dividerCycles * (k + 1)) (ticks .divider fired) % 256

variable {since : Nat}

/-- Firing what is due leaves the timers punctual. -/
theorem Punctual.fires (h : Punctual since fired hw) (hw₁ : Equipped hw) (hs : since ≤ hw.now)
    (hd : hw.clock.Due limit event rest) (hf : Fires (hw.taking event rest) event.action hw') :
    Punctual since (fired ++ [⟨event, hw.taking event rest, hw'⟩]) hw' where
  onBeat beat := by
    by_cases hb : event.action.beat? = some beat
    · exact (h.onBeat beat).ticked hw₁ hd hb hf
    · exact (h.onBeat beat).other hd hb hf
  divider := by
    have hreg : reg (hw.taking event rest) Register.divider = hw.reg Register.divider := rfl
    rw [hf.divider, hreg]
    by_cases hb : event.action.beat? = some .divider
    · have htarget : event.target = dividerCycles * (ticks .divider fired + 1) :=
        (h.onBeat .divider).next event hd.mem hb
      have hcounted : since ≤ dividerCycles * (ticks .divider fired + 1) :=
        htarget ▸ Nat.le_trans hs (hw₁.sound.onTime event hd.mem)
      rw [if_pos hb, ticks_of_beat hb, Nat.count_succ, if_pos hcounted, UInt8.toNat_add, h.divider,
        UInt8.toNat_one]
      exact Nat.mod_add_mod _ _ _
    · rw [if_neg hb, ticks_of_ne hb]
      exact h.divider

/-- **A window of time leaves the timers punctual**, wherever it ends, and all that fires in it does
so before its end. -/
theorem Punctual.drains {t₀ f₀ : Nat} {on : Bool} {log : Array Record}
    {firings : List (Firing Task Board)} {o : Outcome Hardware Unit} (h : Punctual since fired hw)
    (hs : since ≤ hw.now) (hr : Runs t₀ f₀ limit on log hw) (hd : Drains fire limit hw firings o) :
    Punctual since (fired ++ firings) o.state ∧
      ∀ f ∈ firings, f.event.target < limit ∧ Fires f.before f.event.action f.after := by
  induction hd generalizing fired log with
  | @done hw _ =>
    rw [List.append_nil]
    exact ⟨⟨fun beat ↦ (h.onBeat beat).keep fun _ he _ ↦ he, h.divider⟩,
      fun f hf ↦ absurd hf List.not_mem_nil⟩
  | stop hd hf => exact absurd hf (hr.ne_error hd)
  | @next hw hw' event rest records firings o hd hf _ ih =>
    have hfires := hr.fires hd hf
    obtain ⟨-, hruns, -⟩ := hr.turn_of_ok hd hf
    have hlater : since ≤ hw'.now := by
      have htime := hr.wired.sound.onTime event hd.mem
      rw [hfires.now]
      exact Nat.le_trans hs htime
    obtain ⟨hpunctual, hall⟩ := ih (h.fires hr.wired.toEquipped hs hd hfires) hlater hruns
    rw [List.append_assoc, List.singleton_append] at hpunctual
    refine ⟨hpunctual, fun f hmem ↦ ?_⟩
    rcases List.mem_cons.1 hmem with rfl | hmem
    · exact ⟨hd.2, hfires⟩
    · exact hall f hmem

end Hardware

end DotMatrix
