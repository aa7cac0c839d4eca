import DotMatrix.Proofs.Clock.Order
import DotMatrix.Proofs.Hardware.Quiet
import Mathlib.Tactic.ByContra

/-!
# How the hardware is wired

A machine that nobody has attached anything to keeps one task of each timer in its queue and, while
the display is on, one transition of the display's present epoch.  Whatever else waits are
transitions of earlier epochs, which do nothing when their moment comes.  `Equipped` is this, and
`Wired` adds what ties the display to its registers.

* `Ticks` — what the tick of a timer does.
* `Equipped.fire_cases` — what can be due, and what it does.
* `Wired.quiet`, `Wired.replaced`, `Wired.dropped` — the wiring is kept by operations that the
  display does not notice, by tasks that let one of their kind wait, and by void transitions.
* `Wired.started`, `Wired.stopped`, `Wired.untouched` — and by writes to the control byte.
-/

set_option autoImplicit false

namespace DotMatrix

/-! ## Roles -/

/-- What a task that waits is to the machine. -/
inductive Role where
  | divider | counter | calendar
  /-- The display's next transition. -/
  | live
  /-- A transition of an earlier epoch. -/
  | void
  /-- Nothing that the machine itself lets wait. -/
  | foreign
  deriving DecidableEq

/-- The role of a task in an epoch of the display. -/
def Task.role (present : Nat) : Task → Role
  | .divider => .divider
  | .counter => .counter
  | .calendar => .calendar
  | .display epoch _ =>
    if epoch = present then .live else if epoch < present then .void else .foreign
  | .reaction _ => .foreign

/-- In the next epoch what was live is void, and everything else is what it was. -/
theorem Task.role_succ {task : Task} {present : Nat} (h : task.role present ≠ .foreign) :
    task.role (present + 1) =
      if task.role present = .live then .void else task.role present := by
  cases task with
  | divider | counter | calendar => rfl
  | reaction => exact absurd rfl h
  | display epoch transition =>
    simp only [role] at *
    rcases Nat.lt_trichotomy epoch present with hlt | rfl | hgt
    · simp [hlt, Nat.ne_of_lt hlt, Nat.lt_succ_of_lt hlt, Nat.ne_of_lt (Nat.lt_succ_of_lt hlt)]
    · simp
    · rw [if_neg (Nat.ne_of_gt hgt), if_neg (Nat.not_lt_of_gt hgt)] at h
      exact absurd rfl h

/-- How many tasks of a role wait; void ones do not count. -/
def Role.share (enabled : Bool) : Role → Nat
  | .divider | .counter | .calendar => 1
  | .live => if enabled then 1 else 0
  | .void | .foreign => 0

namespace Hardware

/-- How many tasks of a role wait. -/
def waiting (hw : Hardware) (role : Role) : Nat :=
  hw.clock.queue.countP fun e ↦ e.action.role hw.display.epoch = role

/-- The role of an event. -/
def roleOf (hw : Hardware) (e : Event Task) : Role := e.action.role hw.display.epoch

theorem waiting_taking {hw : Hardware} {limit : Nat} {event : Event Task}
    {rest : List (Event Task)} (hd : hw.clock.Due limit event rest) (role : Role) :
    hw.waiting role =
      waiting (hw.taking event rest) role + if hw.roleOf event = role then 1 else 0 := by
  rw [waiting, hd.1, List.countP_cons, roleOf]
  simp only [decide_eq_true_eq]
  rfl

/-- Nothing waits in a role that has no share. -/
theorem roleOf_ne_of_waiting {hw : Hardware} {role : Role} (h : hw.waiting role = 0)
    {e : Event Task} (he : e ∈ hw.clock.queue) : hw.roleOf e ≠ role := by
  rw [waiting, List.countP_eq_zero] at h
  simpa [roleOf] using h e he

/-- When the one task of a role is due, no other of that role waits. -/
theorem waiting_taking_of_due {hw : Hardware} {limit : Nat} {event : Event Task}
    {rest : List (Event Task)} {role : Role} (hd : hw.clock.Due limit event rest)
    (hr : hw.roleOf event = role) (hone : hw.waiting role = 1) :
    waiting (hw.taking event rest) role = 0 := by
  have h := waiting_taking hd role
  rw [if_pos hr, hone] at h
  omega

/-- A queue with one more task in it. -/
theorem waiting_of_schedule {hw hw' : Hardware} {delay : Nat} {task : Task}
    (hc : hw'.clock = hw.clock.schedule delay task)
    (he : hw'.display.epoch = hw.display.epoch) (role : Role) :
    hw'.waiting role =
      hw.waiting role + if task.role hw.display.epoch = role then 1 else 0 := by
  have hp := Clock.insert_perm (hw.clock.event delay task) hw.clock.queue
  rw [waiting, hc, he, Clock.queue_schedule, hp.countP_eq, List.countP_cons, waiting]
  simp only [decide_eq_true_eq]
  rfl

theorem waiting_later (hw : Hardware) (delay : Nat) (task : Task) (role : Role) :
    (hw.later delay task).waiting role =
      hw.waiting role + if task.role hw.display.epoch = role then 1 else 0 :=
  waiting_of_schedule (clock_later hw delay task) rfl role

theorem waiting_congr {hw hw' : Hardware} (hc : hw'.clock = hw.clock)
    (he : hw'.display.epoch = hw.display.epoch) (role : Role) :
    hw'.waiting role = hw.waiting role := by
  rw [waiting, hc, he, waiting]

/-! ## Ticks -/

/-- What a tick of a timer does and reports, and how long the next one waits. -/
inductive Ticks (hw : Hardware) : Task → Array Record → Hardware → Nat → Prop where
  | divider : Ticks hw .divider #[] (hw.put Register.divider (hw.reg Register.divider + 1))
      dividerCycles
  | counter : Ticks hw .counter (if hw.counterRuns then hw.countRecords else #[])
      (if hw.counterRuns then hw.counted else hw) (counterCycles (hw.reg Register.timerControl))
  | calendar : Ticks hw .calendar #[] hw.calendarTicked secondCycles

namespace Ticks

variable {hw ticked : Hardware} {task : Task} {records : Array Record} {delay : Nat}

theorem fire_eq (h : Ticks hw task records ticked delay) :
    fire task hw = ⟨.ok (), ticked.later delay task, records⟩ := by
  cases h with
  | divider => exact tickDivider_apply hw
  | counter => exact tickCounter_apply hw
  | calendar => exact tickCalendar_apply hw

theorem quiet (h : Ticks hw task records ticked delay) : Quiet hw records ticked := by
  cases h with
  | divider => exact quiet_divider hw
  | counter => exact quiet_counter hw
  | calendar => exact quiet_calendar hw

/-- The timers reach no register but their own and the requests. -/
theorem reg_eq (h : Ticks hw task records ticked delay) {addr : UInt16}
    (hd : Register.divider.toUInt8 ≠ addr.toUInt8) (hc : Register.counter.toUInt8 ≠ addr.toUInt8)
    (hr : Register.interruptRequest.toUInt8 ≠ addr.toUInt8) : ticked.reg addr = hw.reg addr := by
  cases h with
  | divider => exact reg_put_of_ne hw _ hd
  | counter =>
    split
    · rw [counted]
      split
      · rw [reg_requesting _ _ hr, reg_put_of_ne _ _ hc]
      · exact reg_put_of_ne hw _ hc
    · rfl
  | calendar => rfl

/-- Ticks of one timer are at least sixteen cycles apart. -/
theorem le_delay (h : Ticks hw task records ticked delay) : 16 ≤ delay := by
  cases h with
  | divider | calendar => decide
  | counter => exact le_counterCycles _

end Ticks

/-! ## Equipped hardware -/

/-- Hardware with its own tasks and observers, and nothing attached to it. -/
structure Equipped (hw : Hardware) : Prop where
  sound : hw.clock.Sound
  listens : DisplayListens hw
  shares : ∀ role, role ≠ .void → hw.waiting role = role.share hw.display.enabled

namespace Equipped

variable {hw hw' : Hardware} {limit : Nat} {event : Event Task} {rest : List (Event Task)}

theorem put (h : Equipped hw) (addr : UInt16) (value : UInt8) : Equipped (hw.put addr value) :=
  ⟨h.sound, h.listens, h.shares⟩

/-- In the next epoch of the display nothing is live. -/
theorem shares_next (h : Equipped hw) (hc : hw'.clock.queue = hw.clock.queue)
    (he : hw'.display.epoch = hw.display.epoch + 1) {role : Role} (hv : role ≠ .void) :
    hw'.waiting role = role.share false := by
  have hn : ∀ e ∈ hw.clock.queue, e.action.role (hw.display.epoch + 1) =
      if hw.roleOf e = .live then .void else hw.roleOf e := fun e he ↦
    Task.role_succ (roleOf_ne_of_waiting (h.shares .foreign (by decide)) he)
  rw [waiting, hc, he]
  by_cases hl : role = .live
  · subst hl
    refine List.countP_eq_zero.2 fun e he ↦ ?_
    rw [hn e he, decide_eq_true_eq]
    split
    · exact hv.symm
    · assumption
  · have hs := h.shares role hv
    have hsame : role.share hw.display.enabled = role.share false := by
      cases role <;> first | rfl | exact absurd rfl hl
    rw [← hsame, ← hs, waiting]
    refine List.countP_congr fun e he ↦ ?_
    rw [hn e he, decide_eq_true_eq, decide_eq_true_eq]
    split
    · rename_i hlive
      rw [roleOf] at hlive
      rw [hlive]
      exact ⟨fun hr ↦ absurd hr.symm hv, fun hr ↦ absurd hr.symm hl⟩
    · exact Iff.rfl

/-- Turning the display on plans its first transition, in a new epoch. -/
theorem started (h : Equipped hw) : Equipped hw.started where
  sound := by
    rw [clock_started]
    exact h.sound.schedule _ _
  listens := (observers_started _).trans h.listens
  shares role hr := by
    let next : Hardware := hw.showing fun d ↦ { d with epoch := d.epoch + 1 }
    have hn : next.waiting role = role.share false := @shares_next hw next h rfl rfl role hr
    have hs := @waiting_of_schedule next hw.started _ _ (clock_started _) (epoch_started _) role
    rw [hs, hn, enabled_started]
    cases role <;> simp [Role.share, Task.role, next]

/-- Turning the display off only starts a new epoch. -/
theorem stopped (h : Equipped hw) : Equipped hw.stopped where
  sound := by
    rw [clock_stopped]
    exact h.sound
  listens := (observers_stopped _).trans h.listens
  shares role hr := by
    rw [enabled_stopped]
    exact h.shares_next (by rw [clock_stopped]) (epoch_stopped _) hr

/-! ## What can be due -/

/-- A task that was due is one of the timers, a void transition, or the display's next one. -/
theorem fire_cases (h : Equipped hw) (hd : hw.clock.Due limit event rest) :
    (∃ ticked delay records, hw.roleOf event ≠ .live ∧
      Ticks (hw.taking event rest) event.action records ticked delay) ∨
    (hw.roleOf event = .void ∧
      fire event.action (hw.taking event rest) = ⟨.ok (), hw.taking event rest, #[]⟩) ∨
    ∃ transition, event.action = .display hw.display.epoch transition ∧
      hw.display.enabled ∧
      fire event.action (hw.taking event rest) = follow transition (hw.taking event rest) := by
  have hforeign := roleOf_ne_of_waiting (h.shares .foreign (by decide)) hd.mem
  have hr : hw.roleOf event = event.action.role hw.display.epoch := rfl
  rw [hr] at hforeign ⊢
  cases ha : event.action with
  | divider => exact Or.inl ⟨_, _, _, by simp [Task.role], .divider⟩
  | counter => exact Or.inl ⟨_, _, _, by simp [Task.role], .counter⟩
  | calendar => exact Or.inl ⟨_, _, _, by simp [Task.role], .calendar⟩
  | reaction =>
    rw [ha] at hforeign
    exact absurd rfl hforeign
  | display epoch transition =>
    rw [ha, Task.role] at hforeign
    refine Or.inr ?_
    by_cases he : epoch = hw.display.epoch
    · have hlive : hw.waiting .live ≠ 0 := by
        rw [waiting_taking hd, hr, ha, he, Task.role, if_pos rfl]
        simp
      have hon : hw.display.enabled := by
        rw [h.shares .live (by decide), Role.share] at hlive
        simpa using hlive
      refine Or.inr ⟨transition, by rw [he], hon, ?_⟩
      rw [he]
      exact followPlan_of_live (hw.taking event rest) hon transition
    · rw [if_neg he] at hforeign
      have hlt : epoch < hw.display.epoch := by
        by_contra hge
        rw [if_neg hge] at hforeign
        exact hforeign rfl
      refine Or.inl ⟨by rw [Task.role, if_neg he, if_pos hlt], ?_⟩
      exact followPlan_of_void (hw.taking event rest) (fun hv ↦ he hv.2.symm) transition

end Equipped

/-! ## Wired hardware -/

/-- Equipped hardware whose registers agree with the display. -/
structure Wired (hw : Hardware) : Prop extends Equipped hw where
  /-- The display is on when its control byte says so. -/
  control : hw.display.enabled = turnsOn (hw.reg Register.lcdControl)
  /-- The status byte shows the phase. -/
  mode : hw.reg Register.lcdStatus &&& 3 = hw.display.phase.code
  /-- While the display is off it stays at the top of the picture. -/
  dark : hw.display.enabled = false → hw.reg Register.line = 0 ∧ hw.display.phase = .hblank

namespace Wired

variable {hw hw' : Hardware} {limit delay : Nat} {event : Event Task} {rest : List (Event Task)}
  {task : Task} {records : Array Record}

/-- What the display does not notice. -/
theorem quiet (h : Wired hw) (hq : Quiet hw records hw') : Wired hw' where
  sound := hq.clock ▸ h.sound
  listens := hq.observers.trans h.listens
  shares role hr := by
    rw [waiting_congr hq.clock (by rw [hq.display]), hq.display]
    exact h.shares role hr
  control := by rw [hq.display, hq.control, h.control]
  mode := by rw [hq.display, hq.mode, h.mode]
  dark hoff := by
    rw [hq.display] at hoff ⊢
    rw [hq.line]
    exact h.dark hoff

/-- A task that was due lets another of its role wait. -/
theorem replaced (h : Wired hw) (hd : hw.clock.Due limit event rest)
    (hc : hw'.clock = (hw.taking event rest).clock.schedule delay task)
    (hr : task.role hw.display.epoch = hw.roleOf event)
    (hepoch : hw'.display.epoch = hw.display.epoch)
    (henabled : hw'.display.enabled = hw.display.enabled)
    (hobservers : hw'.body.observers = hw.body.observers)
    (hcontrol : hw'.reg Register.lcdControl = hw.reg Register.lcdControl)
    (hmode : hw'.reg Register.lcdStatus &&& 3 = hw'.display.phase.code)
    (hdark : hw'.display.enabled = false →
      hw'.reg Register.line = 0 ∧ hw'.display.phase = .hblank) : Wired hw' where
  sound := hc ▸ (Timed.sound_taking h.sound hd).schedule delay task
  listens := hobservers.trans h.listens
  shares role hv := by
    have he : display (hw.taking event rest) = hw.display := rfl
    have h1 : hw'.waiting role = waiting (hw.taking event rest) role + _ :=
      waiting_of_schedule hc hepoch role
    rw [he, hr] at h1
    rw [henabled, ← h.shares role hv, h1, waiting_taking hd role]
  control := by rw [henabled, hcontrol, h.control]
  mode := hmode
  dark := hdark

/-- A void transition was due. -/
theorem dropped (h : Wired hw) (hd : hw.clock.Due limit event rest)
    (hr : hw.roleOf event = .void) : Wired (hw.taking event rest) where
  sound := Timed.sound_taking h.sound hd
  listens := h.listens
  shares role hv := by
    have h1 := waiting_taking hd role
    rw [hr, if_neg (Ne.symm hv), Nat.add_zero] at h1
    exact h1.symm.trans (h.shares role hv)
  control := h.control
  mode := h.mode
  dark := h.dark

/-- The clock reaches the end of a window. -/
theorem atTime (h : Wired hw) (hn : hw.clock.popDue? limit = none) :
    Wired (hw.atTime limit) where
  sound := Timed.sound_atTime h.sound hn
  listens := h.listens
  shares := h.shares
  control := h.control
  mode := h.mode
  dark := h.dark

/-! ## Turning the display on and off -/

/-- The control byte turns the display on. -/
theorem started (h : Equipped hw) (hv : turnsOn (hw.reg Register.lcdControl)) :
    Wired hw.started where
  toEquipped := h.started
  control := by rw [enabled_started, control_started, hv]
  mode := (upToDate_started _).mode
  dark hoff := by
    rw [enabled_started] at hoff
    cases hoff

/-- The control byte turns the display off. -/
theorem stopped (h : Equipped hw) (hv : turnsOn (hw.reg Register.lcdControl) = false) :
    Wired hw.stopped where
  toEquipped := h.stopped
  control := by rw [enabled_stopped, control_stopped, hv]
  mode := (upToDate_stopped _).mode
  dark _ := ⟨line_stopped hw, phase_stopped hw⟩

/-- The control byte is written without turning the display on or off. -/
theorem untouched (h : Wired hw) {value : UInt8} (hv : hw.display.enabled = turnsOn value) :
    Wired (hw.put Register.lcdControl value) where
  toEquipped := h.put _ _
  control := by rw [display_put, reg_put_self, hv]
  mode := by rw [reg_put_of_ne _ _ (by decide), display_put, h.mode]
  dark hoff := by
    rw [reg_put_of_ne _ _ (by decide), display_put]
    exact h.dark hoff

end Wired

end Hardware

end DotMatrix
