import DotMatrix.Proofs.Clock.Drain
import DotMatrix.Proofs.Hardware.Beam

/-!
# Time passing on wired hardware

Every task of the machine's own lets at most one other wait, and that for at least sixteen cycles,
so a window of time holds only so many of them.  `workload limit hw` bounds their number, and every
turn of the clock's loop uses some of it up.  So time that passes on wired hardware always comes to
an end, without a fault.

* `Turn` — what firing one of the machine's own tasks does, with `Runs.turn`, that it does so and
  never fails, and `Runs.turn_of_ok` for what has fired.
* `advance_wired` — a whole window leaves the hardware wired and the beam where it belongs.
* `AllowsTurns.window` — a relation that allows every turn allows a whole window.
-/

set_option autoImplicit false

namespace DotMatrix.Hardware

variable {hw hw' : Hardware} {limit t₀ f₀ delay : Nat} {event : Event Task}
  {rest : List (Event Task)} {task : Task} {log : Array Record}

/-! ## How much can happen in a window -/

/-- How often an event, what it lets wait, and so on, can fire before `limit`. -/
def turns (limit : Nat) (e : Event Task) : Nat :=
  if e.target < limit then (limit - e.target - 1) / 16 + 1 else 0

/-- How many tasks can fire before `limit`. -/
def workload (limit : Nat) (hw : Hardware) : Nat := (hw.clock.queue.map (turns limit)).sum

theorem turns_lt {e later : Event Task} (hlt : e.target < limit)
    (hle : e.target + 16 ≤ later.target) : turns limit later < turns limit e := by
  rw [turns, turns, if_pos hlt]
  split <;> omega

theorem workload_taking (hd : hw.clock.Due limit event rest) :
    workload limit hw = turns limit event + workload limit (hw.taking event rest) := by
  rw [workload, hd.1, List.map_cons, List.sum_cons]
  rfl

theorem workload_of_schedule (hc : hw'.clock = hw.clock.schedule delay task) :
    workload limit hw' =
      turns limit (hw.clock.event delay task) + workload limit hw := by
  have hp := (Clock.insert_perm (hw.clock.event delay task) hw.clock.queue).map (turns limit)
  rw [workload, hc, Clock.queue_schedule, hp.sum_nat, List.map_cons, List.sum_cons]
  rfl

/-- A task that was due and lets another one wait, for sixteen cycles or more. -/
theorem workload_replaced (hd : hw.clock.Due limit event rest)
    (hc : hw'.clock = (hw.taking event rest).clock.schedule delay task) (hle : 16 ≤ delay) :
    workload limit hw' < workload limit hw := by
  have h1 := @workload_of_schedule (hw.taking event rest) hw' limit _ _ hc
  have h2 : turns limit (Clock.event (hw.taking event rest).clock delay task) <
      turns limit event := turns_lt hd.2 (Nat.add_le_add_left hle event.target)
  rw [h1, workload_taking hd]
  omega

/-- A task that was due and lets nothing wait. -/
theorem workload_dropped (hd : hw.clock.Due limit event rest) :
    workload limit (hw.taking event rest) < workload limit hw := by
  have h : 0 < turns limit event := by
    rw [turns, if_pos hd.2]
    exact Nat.succ_pos _
  rw [workload_taking hd]
  omega

/-! ## A turn of the loop -/

/-- What firing a task of the machine's own does: a timer ticks and waits for its next tick, a void
transition does nothing, and the display leaves its phase. -/
inductive Turn (hw : Hardware) : Array Record → Hardware → Prop where
  | tick {task : Task} {records : Array Record} {ticked : Hardware} {delay : Nat}
      (h : Ticks hw task records ticked delay) : Turn hw records (ticked.later delay task)
  | void : Turn hw #[] hw
  | display (hon : hw.display.enabled) (hplaced : Placed hw) :
      Turn hw (hw.followRecords hw.display.phase.exit) (hw.followed hw.display.phase.exit)

/-- While the display is on, the beam is somewhere before `limit`, and `log` tells of the pictures
presented on the way. -/
def Tracks (t₀ f₀ limit : Nat) (log : Array Record) (hw : Hardware) : Prop :=
  hw.display.enabled → ∃ y, Beam t₀ f₀ y hw ∧ (y = 0 ∨ t₀ + y < limit) ∧
    pictures log = presentations f₀ (Timing.picturesAt y)

/-- What a window keeps: the wiring, the beam, the end of the window still to come, and whether the
display is on. -/
structure Runs (t₀ f₀ limit : Nat) (on : Bool) (log : Array Record) (hw : Hardware) : Prop where
  wired : Wired hw
  tracks : Tracks t₀ f₀ limit log hw
  early : hw.now ≤ limit
  enabled : hw.display.enabled = on

/-- Firing what is due succeeds, keeps what a window keeps and uses up some of the workload. -/
theorem Runs.turn {on : Bool} (h : Runs t₀ f₀ limit on log hw)
    (hd : hw.clock.Due limit event rest) :
    ∃ hw' records, fire event.action (hw.taking event rest) = ⟨.ok (), hw', records⟩ ∧
      Turn (hw.taking event rest) records hw' ∧ Runs t₀ f₀ limit on (log ++ records) hw' ∧
      workload limit hw' < workload limit hw := by
  have hw₁ := h.wired
  have hlt : event.target ≤ limit := Nat.le_of_lt hd.2
  rcases hw₁.fire_cases hd with ⟨ticked, delay, records, hrole, htick⟩ | ⟨hvoid, hfire⟩ |
    ⟨transition, ha, hon, hfire⟩
  · -- A timer ticks, which the display does not notice, and waits for its next tick.
    have hq := htick.quiet
    have hc : (later delay event.action ticked).clock =
        (hw.taking event rest).clock.schedule delay event.action := by
      rw [clock_later, hq.clock]
    refine ⟨_, records, htick.fire_eq, .tick htick, ⟨?_, fun hon ↦ ?_, ?_, ?_⟩,
      workload_replaced hd hc htick.le_delay⟩
    · refine hw₁.replaced hd hc rfl ?_ ?_ hq.observers hq.control ?_ ?_
      · rw [display_later, hq.display]
        rfl
      · rw [display_later, hq.display]
        rfl
      · rw [reg_later, hq.mode, display_later, hq.display]
        exact hw₁.mode
      · rw [reg_later, hq.line, display_later, hq.display]
        exact hw₁.dark
    · rw [display_later, hq.display] at hon
      obtain ⟨y, hb, hy, hl⟩ := h.tracks hon
      refine ⟨y, hb.ticked hw₁.sound hd hrole hq, hy, ?_⟩
      rw [pictures_append, hq.pictures, List.append_nil, hl]
    · rw [Timed.now, hc]
      exact hlt
    · rw [display_later, hq.display]
      exact h.enabled
  · -- A void transition does nothing.
    refine ⟨_, #[], hfire, .void, ⟨hw₁.dropped hd hvoid, fun hon ↦ ?_, hlt, h.enabled⟩,
      workload_dropped hd⟩
    obtain ⟨y, hb, hy, hl⟩ := h.tracks hon
    exact ⟨y, hb.taking hw₁.sound hd, hy, by rwa [Array.append_empty]⟩
  · -- The display moves on.
    obtain ⟨y, hb, hy, hl⟩ := h.tracks hon
    have hlive : hw.roleOf event = .live := by
      rw [roleOf, ha, Task.role, if_pos rfl]
    have hb' := hb.taking hw₁.sound hd
    obtain ⟨htarget, hfollow, hbeam⟩ := hb.due hw₁.toEquipped hd hon ha
    obtain ⟨delay, next, hdelay, hc⟩ :=
      exists_clock_followed (hw.taking event rest) hw.display.phase.exit
    rw [hfire, hfollow]
    refine ⟨_, _, rfl, .display hon hb'.placed, ⟨?_, fun _ ↦ ?_, ?_, ?_⟩,
      workload_replaced hd hc (Nat.le_trans (by decide) hdelay)⟩
    · refine hw₁.replaced hd hc ?_ ?_ ?_ ?_ ?_ (upToDate_followed _ _).mode fun hoff ↦ ?_
      · rw [hlive]
        exact if_pos rfl
      · exact epoch_followed _ _
      · exact enabled_followed _ _
      · exact observers_followed _ _
      · exact control_followed _ _
      · rw [enabled_followed] at hoff
        rw [show hw.display.enabled = false from hoff] at hon
        cases hon
    · refine ⟨y + hw.display.phase.duration, hbeam, Or.inr ?_, ?_⟩
      · rw [← Nat.add_assoc, ← htarget]
        exact hd.2
      · rw [pictures_append, hl]
        exact hb'.pictures_followRecords
    · rw [Timed.now, hc]
      exact hlt
    · exact (enabled_followed _ _).trans h.enabled

/-- So what is due never fails. -/
theorem Runs.ne_error {on : Bool} (h : Runs t₀ f₀ limit on log hw)
    (hd : hw.clock.Due limit event rest) {fault : Fault} {records : Array Record} :
    fire event.action (hw.taking event rest) ≠ ⟨.error fault, hw', records⟩ := by
  obtain ⟨_, _, hfire, -⟩ := h.turn hd
  rw [hfire]
  exact nofun

theorem Runs.turn_of_ok {on : Bool} (h : Runs t₀ f₀ limit on log hw)
    (hd : hw.clock.Due limit event rest) {records : Array Record}
    (hf : fire event.action (hw.taking event rest) = ⟨.ok (), hw', records⟩) :
    Turn (hw.taking event rest) records hw' ∧ Runs t₀ f₀ limit on (log ++ records) hw' ∧
      workload limit hw' < workload limit hw := by
  obtain ⟨_, _, hfire, hturn⟩ := h.turn hd
  rw [hf] at hfire
  cases hfire
  exact hturn

/-- Everything that fires in a window is such a turn. -/
theorem Runs.forall_turn {on : Bool} {firings : List (Timed.Firing Task Board)}
    {o : Outcome Hardware Unit} (h : Runs t₀ f₀ limit on log hw)
    (hd : Timed.Drains fire limit hw firings o) :
    ∀ f ∈ firings, ∃ records, Turn f.before records f.after := by
  induction hd generalizing log with
  | done => exact fun f hf ↦ absurd hf List.not_mem_nil
  | stop hd hf => exact absurd hf (h.ne_error hd)
  | next hd hf _ ih =>
    obtain ⟨hturn, hruns, -⟩ := h.turn_of_ok hd hf
    intro f hmem
    rcases List.mem_cons.1 hmem with rfl | hmem
    · exact ⟨_, hturn⟩
    · exact ih hruns f hmem

theorem Runs.turn_runs {on : Bool} (h : Runs t₀ f₀ limit on log hw)
    (hd : hw.clock.Due limit event rest) :
    ∃ hw' records, fire event.action (hw.taking event rest) = ⟨.ok (), hw', records⟩ ∧
      Runs t₀ f₀ limit on (log ++ records) hw' ∧ workload limit hw' < workload limit hw := by
  obtain ⟨hw', records, hfire, -, hruns, hlt⟩ := h.turn hd
  exact ⟨hw', records, hfire, hruns, hlt⟩

/-! ## A whole window -/

/-- A window begins. -/
theorem Runs.start (h : Wired hw) (ht : Tracks t₀ f₀ hw.now log hw) (cycles : Nat) :
    Runs t₀ f₀ (hw.now + cycles) hw.display.enabled log hw := by
  refine ⟨h, fun hon ↦ ?_, Nat.le_add_right _ _, rfl⟩
  obtain ⟨y, hb, hy, hl⟩ := ht hon
  exact ⟨y, hb, hy.imp_right fun hlt ↦ Nat.lt_add_right cycles hlt, hl⟩

/-- Time that passes on wired hardware comes to an end without a fault, and keeps what a window
keeps. -/
theorem advance_wired (h : Wired hw) (ht : Tracks t₀ f₀ hw.now log hw) (cycles : Nat) :
    ∃ firings hw' records,
      Timed.Drains fire (hw.now + cycles) hw firings ⟨.ok (), hw', records⟩ ∧
      firings.length ≤ workload (hw.now + cycles) hw ∧
      Runs t₀ f₀ (hw.now + cycles) hw.display.enabled (log ++ records) hw' := by
  obtain ⟨firings, last, records, hdrain, hlen, hnone, hlast⟩ :=
    Timed.Drains.exists_of_work (fun hr hd ↦ hr.turn_runs hd) (Runs.start h ht cycles)
  refine ⟨firings, _, records, hdrain, hlen, hlast.wired.atTime hnone, fun hon ↦ ?_,
    Nat.le_refl _, hlast.enabled⟩
  obtain ⟨y, hb, hy, hl⟩ := hlast.tracks hon
  refine ⟨y, hb.atTime ?_, hy, hl⟩
  exact Nat.le_trans hb.begun hlast.early

/-! ## What turns keep -/

/-- A relation that allows every turn of the clock, wherever its time and its queue are. -/
structure AllowsTurns (R : Hardware → Array Record → Hardware → Prop) : Prop
    extends Exec.Chains R where
  moment : ∀ (hw : Hardware) (now : Nat) (queue : List (Event Task)),
    R hw #[] { hw with clock := { hw.clock with now := now, queue := queue } }
  turn : ∀ {hw hw' : Hardware} {records : Array Record}, Turn hw records hw' → R hw records hw'

/-- A relation that allows every turn allows a whole window, up to each task that fires in it and up
to its end. -/
theorem AllowsTurns.window {R : Hardware → Array Record → Hardware → Prop} (hR : AllowsTurns R)
    {on : Bool} {firings : List (Timed.Firing Task Board)} {o : Outcome Hardware Unit}
    (h : Runs t₀ f₀ limit on log hw) (hd : Timed.Drains fire limit hw firings o) :
    (∀ f ∈ firings, ∃ seen, R hw seen f.before) ∧ R hw o.records o.state := by
  induction hd generalizing log with
  | @done hw _ =>
    exact ⟨fun f hf ↦ absurd hf List.not_mem_nil, hR.moment hw limit hw.clock.queue⟩
  | stop hd hf => exact absurd hf (h.ne_error hd)
  | @next hw hw' event rest records firings o hd hf _ ih =>
    obtain ⟨hturn, hruns, -⟩ := h.turn_of_ok hd hf
    obtain ⟨hbefore, hend⟩ := ih hruns
    have hfirst : R hw #[] (hw.taking event rest) := hR.moment hw event.target rest
    have hturned := hR.trans hfirst (hR.turn hturn)
    rw [Array.empty_append] at hturned
    refine ⟨fun f hmem ↦ ?_, hR.trans hturned hend⟩
    rcases List.mem_cons.1 hmem with rfl | hmem
    · exact ⟨_, hfirst⟩
    · obtain ⟨seen, hseen⟩ := hbefore f hmem
      exact ⟨_, hR.trans hturned hseen⟩

end DotMatrix.Hardware
