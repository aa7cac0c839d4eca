import DotMatrix.Proofs.Display.Chain
import DotMatrix.Proofs.Display.Film
import Mathlib.Algebra.Order.BigOperators.Group.List
import Mathlib.Algebra.Order.Ring.Nat

/-!
# How far ahead the clock plans

Nothing bounds the loop that lets time pass but what the machine's own tasks do: each lets at most
one other wait, for sixteen cycles at least and for no longer than its kind waits.  So the queue
never grows, a window holds only so many of them, and what was planned is soon gone, even if it is
stale and nobody takes it back.

* `Task.span` — the longest that a task waits.
* `Follows` — what firing does to the clock, and `Turn.follows`, that it does.
* `workload_le` — how much can happen in a window, by what waits and how long it is.
* `Foreseen` — everything that waits is due within its span, with `Foreseen.drains` for a window.
* `Chronicle.foreseen`, `Chronicle.scheduled` — since when what waits has been waiting.
* `queue_never_grows` — all of this for every machine.
-/

set_option autoImplicit false

namespace DotMatrix

/-! ## Spans -/

theorem Phase.duration_le (phase : Phase) : phase.duration ≤ lineCycles := by
  cases phase <;> decide

/-- The longest that a task of the machine's own is made to wait. -/
def Task.span : Task → Nat
  | .divider => Hardware.dividerCycles
  | .counter => 1024
  | .calendar => Hardware.secondCycles
  | .display _ _ => lineCycles
  | .reaction _ => 0

theorem Task.span_le (task : Task) : task.span ≤ 4194304 := by
  cases task with
  | divider | counter | calendar => decide
  | display => exact (by decide : lineCycles ≤ 4194304)
  | reaction => exact Nat.zero_le _

namespace Hardware

open Timed (Drains Firing)

variable {hw hw' : Hardware} {limit delay : Nat} {event : Event Task} {rest : List (Event Task)}
  {task : Task} {records : Array Record}

theorem Ticks.delay_le (h : Ticks hw task records hw' delay) : delay ≤ task.span := by
  cases h with
  | divider | calendar => exact Nat.le_refl _
  | counter => exact counterCycles_le _

/-! ## What firing lets wait -/

/-- At most one task more waits, for sixteen cycles at least and within its span. -/
def Follows (hw hw' : Hardware) : Prop :=
  hw'.clock = hw.clock ∨ ∃ delay task, 16 ≤ delay ∧ delay ≤ task.span ∧
    hw'.clock = hw.clock.schedule delay task

theorem Turn.follows (h : Turn hw records hw') : Follows hw hw' := by
  cases h with
  | @tick task records ticked delay h =>
    rw [Follows, clock_later, h.quiet.clock]
    exact Or.inr ⟨delay, task, h.le_delay, h.delay_le, rfl⟩
  | void => exact Or.inl rfl
  | display =>
    refine Or.inr ⟨_, _, ?_, Phase.duration_le _, clock_followed_exit hw⟩
    exact Nat.le_trans (by decide) (Phase.le_duration _)

/-- Without time, too. -/
theorem follows_perform (hl : DisplayListens hw) {op : Operation}
    (ha : ∀ cycles, op ≠ .advance cycles) : Follows hw (op.perform hw).state := by
  rcases clock_perform_cases hl ha with hc | ⟨epoch, transition, hc⟩
  · exact Or.inl hc
  · exact Or.inr ⟨_, .display epoch transition, by decide, Phase.duration_le .oamScan, hc⟩

theorem Follows.now (h : Follows hw hw') : hw'.now = hw.now := by
  rw [Timed.now, Timed.now]
  rcases h with hc | ⟨delay, task, -, -, hc⟩ <;> rw [hc]
  rfl

/-- What fires leaves one task more than before it was due at most, that is as many as before. -/
theorem Follows.pending_le (h : Follows hw hw') : hw'.clock.pending ≤ hw.clock.pending + 1 := by
  rcases h with hc | ⟨delay, task, -, -, hc⟩ <;> rw [hc]
  · exact Nat.le_succ _
  · rw [Clock.pending_schedule]

/-! ## How much can happen -/

theorem pending_taking (hd : hw.clock.Due limit event rest) :
    hw.clock.pending = (hw.taking event rest).clock.pending + 1 := by
  rw [Clock.pending, hd.1, List.length_cons]
  rfl

/-- What waits can fire once every sixteen cycles. -/
theorem workload_le (hs : hw.clock.Sound) (cycles : Nat) :
    workload (hw.now + cycles) hw ≤ hw.clock.pending * (cycles / 16 + 1) := by
  have hturns : ∀ n ∈ hw.clock.queue.map (turns (hw.now + cycles)), n ≤ cycles / 16 + 1 := by
    intro n hn
    obtain ⟨e, he, rfl⟩ := List.mem_map.1 hn
    have htime : hw.now ≤ e.target := hs.onTime e he
    rw [turns]
    split <;> omega
  have hsum := List.sum_le_card_nsmul _ _ hturns
  rw [List.length_map] at hsum
  exact hsum

/-! ## What is foreseen -/

/-- Everything that waits is due within its span. -/
def Foreseen (hw : Hardware) : Prop := ∀ e ∈ hw.clock.queue, e.target ≤ hw.now + e.action.span

namespace Foreseen

theorem follows (h : Foreseen hw) (hf : Follows hw hw') : Foreseen hw' := by
  intro e he
  rw [hf.now]
  rcases hf with hc | ⟨delay, task, -, hle, hc⟩
  · rw [hc] at he
    exact h e he
  · rw [hc, Clock.queue_schedule, Clock.mem_insert] at he
    rcases he with rfl | he
    · exact Nat.add_le_add_left hle hw.now
    · exact h e he

theorem taking (h : Foreseen hw) (hs : hw.clock.Sound) (hd : hw.clock.Due limit event rest) :
    Foreseen (hw.taking event rest) := by
  intro e he
  have htime : hw.now ≤ event.target := hs.onTime event hd.mem
  exact Nat.le_trans (h e (hd.mem_of_rest he)) (Nat.add_le_add_right htime _)

theorem atTime (h : Foreseen hw) (hle : hw.now ≤ limit) : Foreseen (hw.atTime limit) :=
  fun e he ↦ Nat.le_trans (h e he) (Nat.add_le_add_right hle _)

/-- **A window of time** leaves no more waiting than before, and so does every task that fires in
it; all of it stays foreseen, and no more fires than the workload says. -/
theorem drains {t₀ f₀ : Nat} {on : Bool} {log : Array Record} {firings : List (Firing Task Board)}
    {o : Outcome Hardware Unit} (h : Foreseen hw) (hr : Runs t₀ f₀ limit on log hw)
    (hd : Drains fire limit hw firings o) :
    Foreseen o.state ∧ o.state.clock.pending ≤ hw.clock.pending ∧
      firings.length ≤ workload limit hw ∧
      ∀ f ∈ firings, Follows f.before f.after ∧ Foreseen f.after := by
  induction hd generalizing log with
  | done =>
    exact ⟨h.atTime hr.early, Nat.le_refl _, Nat.zero_le _, fun f hf ↦ absurd hf List.not_mem_nil⟩
  | stop hd hf => exact absurd hf (hr.ne_error hd)
  | @next hw hw' event rest records firings o hd hf _ ih =>
    obtain ⟨hturn, hruns, hlt⟩ := hr.turn_of_ok hd hf
    have hfollows : Follows (hw.taking event rest) hw' := hturn.follows
    have hafter : Foreseen hw' := (h.taking hr.wired.sound hd).follows hfollows
    obtain ⟨hend, hpending, hlength, hall⟩ := ih hafter hruns
    refine ⟨hend, ?_, ?_, fun f hmem ↦ ?_⟩
    · rw [pending_taking hd]
      exact Nat.le_trans hpending hfollows.pending_le
    · rw [List.length_cons]
      omega
    · rcases List.mem_cons.1 hmem with rfl | hmem
      · exact ⟨hfollows, hafter⟩
      · exact hall f hmem

end Foreseen

theorem foreseen_powerOn (cartridge : Cartridge) : Foreseen (powerOn cartridge).1 := by
  have harmed : Foreseen (armed cartridge) := by
    intro e he
    rcases mem_queue_armed he with rfl | rfl | rfl <;> exact Nat.le_add_left _ _
  rw [powerOn_eq]
  exact harmed.follows
    (Or.inr ⟨_, _, by decide, Phase.duration_le .oamScan, clock_started _⟩)

/-! ## Since when it waits -/

/-- An event joins those that wait. -/
def Happening.schedules (h : Happening) (e : Event Task) : Prop :=
  e ∈ h.after.clock.queue ∧ e ∉ h.before.clock.queue

variable {log : List Happening}

/-- Everything that waits is foreseen, now and after everything that happened. -/
theorem Chronicle.foreseen (h : Chronicle log hw) :
    Foreseen hw ∧ ∀ e ∈ log, Foreseen e.after := by
  induction h with
  | @powerOn _ cartridge _ =>
    have hstart := foreseen_powerOn cartridge
    refine ⟨hstart, fun e he ↦ ?_⟩
    rw [List.mem_singleton.1 he]
    exact hstart
  | @act log hw op hop h ih =>
    have hafter := ih.1.follows (follows_perform h.reachable.wired.1.listens hop)
    refine ⟨hafter, fun e he ↦ ?_⟩
    rcases List.mem_cons.1 he with rfl | he
    · exact hafter
    · exact ih.2 e he
  | @advance log hw cycles firings o hd h ih =>
    obtain ⟨hw₁, _, _, _, ht⟩ := h.reachable.wired
    obtain ⟨hend, -, -, hfired⟩ := ih.1.drains (.start hw₁ ht cycles) hd
    have hop : Hardware.advance cycles hw = o := hd.advance_eq
    refine ⟨hop ▸ hend, fun e he ↦ ?_⟩
    rcases List.mem_append.1 he with he | he
    · obtain ⟨f, hf, rfl⟩ := mem_film.1 he
      exact (hfired f hf).2
    · exact ih.2 e he

/-- A transition that waits was let wait by something that happened. -/
theorem Chronicle.scheduled (h : Chronicle log hw) {e : Event Task} (he : e ∈ hw.clock.queue)
    {epoch : Nat} {transition : Transition} (ha : e.action = .display epoch transition) :
    ∃ happening ∈ log, happening.schedules e := by
  induction h with
  | @powerOn _ cartridge _ =>
    refine ⟨_, List.mem_singleton_self _, he, fun harmed ↦ ?_⟩
    rcases mem_queue_armed harmed with rfl | rfl | rfl <;> cases ha
  | @act log hw op hop h ih =>
    by_cases hold : e ∈ hw.clock.queue
    · obtain ⟨happening, hmem, hs⟩ := ih hold
      exact ⟨happening, List.mem_cons_of_mem _ hmem, hs⟩
    · exact ⟨_, List.mem_cons_self, he, hold⟩
  | @advance log hw cycles firings o hd h ih =>
    have hop : Hardware.advance cycles hw = o := hd.advance_eq
    rw [hop] at he
    rcases hd.mem_queue he with hold | ⟨f, hf, hs⟩
    · obtain ⟨happening, hmem, hs⟩ := ih hold
      exact ⟨happening, List.mem_append_right _ hmem, hs⟩
    · exact ⟨_, List.mem_append_left _ (mem_film.2 ⟨f, hf, rfl⟩), hs⟩

/-- A transition does not wait for longer than a line. -/
theorem Chronicle.gone (h : Chronicle log hw) {happening : Happening} (hmem : happening ∈ log)
    {e : Event Task} (hs : happening.schedules e) {epoch : Nat} {transition : Transition}
    (ha : e.action = .display epoch transition)
    (hlate : happening.after.now + lineCycles < hw.now) : e ∉ hw.clock.queue := by
  intro he
  have htime : hw.now ≤ e.target := h.reachable.wired.1.sound.onTime e he
  have hforeseen := h.foreseen.2 happening hmem e hs.1
  rw [ha, Task.span] at hforeseen
  omega

end Hardware

namespace Console

open Hardware (Chronicle)

/-- **Time never runs away.**  However long time passes on a reachable machine, however many stale
transitions wait, it comes to an end without a fault: every task that fires lets at most one other
wait, and that for sixteen cycles at least, so for each that waited no more than one fires in every
sixteen cycles, and no more wait afterwards.  Nothing waits for longer than a second.  A transition
of the display, stale or not, waits because something that happened let it wait, and is gone when
more than a line has passed since. -/
theorem queue_never_grows (c : Console) (h : Reachable c) :
    (∀ cycles, Timed.Returns Hardware.fire cycles c.hardware ∧
      ∀ firings o, Timed.Drains Hardware.fire (c.hardware.now + cycles) c.hardware firings o →
        Hardware.advance cycles c.hardware = o ∧ o.result = .ok () ∧
        firings.length ≤ c.hardware.clock.pending * (cycles / 16 + 1) ∧
        o.state.clock.pending ≤ c.hardware.clock.pending ∧
        ∀ f ∈ firings,
          (f.after.clock = f.before.clock ∨ ∃ delay task, 16 ≤ delay ∧
            f.after.clock = f.before.clock.schedule delay task) ∧
          ∀ e ∈ f.after.clock.queue, e.target ≤ f.after.now + 4194304) ∧
    (∀ e ∈ c.hardware.clock.queue, e.target ≤ c.hardware.now + 4194304) ∧
    (∃ log, Chronicle log c.hardware) ∧
    ∀ log, Chronicle log c.hardware → ∀ e : Event Task,
      ∀ epoch transition, e.action = .display epoch transition →
        (e ∈ c.hardware.clock.queue → ∃ happening ∈ log, happening.schedules e) ∧
        ∀ happening ∈ log, happening.schedules e →
          happening.after.now + 457 ≤ c.hardware.now → e ∉ c.hardware.clock.queue := by
  have hr := h.hardware
  obtain ⟨hw₁, _, _, _, ht⟩ := hr.wired
  obtain ⟨log, hchronicle⟩ := hr.chronicle
  have hnow := hchronicle.foreseen.1
  have hspan : ∀ {hw : Hardware}, Hardware.Foreseen hw →
      ∀ e ∈ hw.clock.queue, e.target ≤ hw.now + 4194304 := fun hf e he ↦
    Nat.le_trans (hf e he) (Nat.add_le_add_left e.action.span_le _)
  refine ⟨fun cycles ↦ ⟨?_, fun firings o hd ↦ ?_⟩, hspan hnow, ⟨log, hchronicle⟩,
    fun log' hlog e epoch transition ha ↦
      ⟨fun he ↦ hlog.scheduled he ha, fun _ hmem hs hlate ↦ hlog.gone hmem hs ha hlate⟩⟩
  · obtain ⟨firings, hw', records, hd⟩ := hr.returns cycles
    exact ⟨firings, _, hd⟩
  · have hadvance : Hardware.advance cycles c.hardware = o := hd.advance_eq
    obtain ⟨-, hpending, hlength, hfired⟩ := hnow.drains (.start hw₁ ht cycles) hd
    refine ⟨hadvance, hadvance ▸ hr.advance_ok cycles,
      Nat.le_trans hlength (Hardware.workload_le hw₁.sound cycles), hpending, fun f hf ↦ ?_⟩
    obtain ⟨hfollows, hforeseen⟩ := hfired f hf
    refine ⟨hfollows.imp_right ?_, hspan hforeseen⟩
    rintro ⟨delay, task, hdelay, -, hc⟩
    exact ⟨delay, task, hdelay, hc⟩

/-- An empty cartridge whose display was turned off and on again at once: five tasks wait, one of
them for nothing, and a line later no more than that do. -/
theorem queue_never_grows_toggled : blank.toggled.hardware.clock.pending = 5 ∧
    ∃ firings o, Timed.Drains Hardware.fire (blank.toggled.hardware.now + 457)
        blank.toggled.hardware firings o ∧
      o.result = .ok () ∧ firings.length ≤ 145 ∧ o.state.clock.pending ≤ 5 := by
  have hon : blank.hardware.display.enabled = true := by
    rw [hardware_blank, Hardware.enabled_started]
  have hpending : blank.toggled.hardware.clock.pending = 5 := by
    rw [toggled, Hardware.clock_started, Clock.pending_schedule, Hardware.clock_put,
      Hardware.clock_stopped, Hardware.clock_put, hardware_blank, Hardware.clock_started,
      Clock.pending_schedule]
    rfl
  obtain ⟨hpasses, -⟩ := queue_never_grows blank.toggled (reachable_blank.toggled hon)
  obtain ⟨⟨firings, o, hd⟩, hall⟩ := hpasses 457
  obtain ⟨-, hok, hlength, hleft, -⟩ := hall firings o hd
  rw [hpending] at hlength hleft
  exact ⟨hpending, firings, o, hd, hok, hlength, hleft⟩

end Console

end DotMatrix
