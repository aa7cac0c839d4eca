import Mathlib.Data.Finset.Card
import DotMatrix.Proofs.Display.Chain
import DotMatrix.Proofs.Hardware.Raising
import DotMatrix.Proofs.Timer.Beat

/-!
# The counter as a closed form of time

The counter ticks at a period that a program chooses, and every tick lets the next one wait for the
period of that moment.  While nobody writes to its registers, the ticks that fall into a window are
those at `first + j * period`, where `first` is when the tick that waits already is due: it was let
wait under whatever speed was chosen before.

* `ticksBefore` — how many of these moments come before the end of a window.
* `tally` — what the counter shows after so many ticks, starting again from the reload byte whenever
  it overflows, and `tally_succ`, that one tick more is one more.
* `Counting` — the counter has ticked `k` times since the window began, with `Counting.tick` and
  `Counting.other` for what fires and `Counting.drains` for a whole window.
* `counter_closed_form` — what time does to the counter of every machine.
-/

set_option autoImplicit false

namespace DotMatrix

/-! ## Ticks before the end of a window -/

/-- How many of the moments `first`, `first + period`, … come before `limit`. -/
def ticksBefore (first period limit : Nat) : Nat :=
  ((Finset.range limit).filter fun j ↦ first + j * period < limit).card

/-- They are counted by finding the first that does not. -/
theorem ticksBefore_eq {first period limit k : Nat} (hp : 0 < period)
    (hbefore : ∀ j < k, first + j * period < limit) (hafter : limit ≤ first + k * period) :
    ticksBefore first period limit = k := by
  have hrange : ((Finset.range limit).filter fun j ↦ first + j * period < limit) =
      Finset.range k := by
    ext j
    rw [Finset.mem_filter, Finset.mem_range, Finset.mem_range]
    constructor
    · rintro ⟨-, hj⟩
      refine Nat.lt_of_not_le fun hle ↦ ?_
      have hmul := Nat.mul_le_mul_right period hle
      omega
    · intro hj
      have hlt := hbefore j hj
      have hle := Nat.le_mul_of_pos_right j hp
      exact ⟨by omega, hlt⟩
  rw [ticksBefore, hrange, Finset.card_range]

/-! ## What the counter shows -/

/-- What a counter shows `k` ticks after it showed `value`, if it starts again from `reload` when it
overflows. -/
def tally (value reload k : Nat) : Nat :=
  if value + k < 256 then value + k else reload + (value + k - 256) % (256 - reload)

theorem tally_of_lt {value k : Nat} (reload : Nat) (h : value + k < 256) :
    tally value reload k = value + k := if_pos h

theorem tally_of_le {value k : Nat} (reload : Nat) (h : 256 ≤ value + k) :
    tally value reload k = reload + (value + k - 256) % (256 - reload) := if_neg (Nat.not_lt.2 h)

/-- After the last number below `n` comes 0 again. -/
theorem succ_mod {n : Nat} (hn : 0 < n) (x : Nat) :
    (x + 1) % n = if x % n = n - 1 then 0 else x % n + 1 := by
  have hlt := Nat.mod_lt x hn
  rw [← Nat.mod_add_mod]
  split
  · rename_i h
    rw [h, Nat.sub_add_cancel hn, Nat.mod_self]
  · exact Nat.mod_eq_of_lt (by omega)

/-- One tick more is one more on the counter, unless that overflows. -/
theorem tally_succ {value reload : Nat} (hr : reload < 256) (k : Nat) :
    tally value reload (k + 1) =
      if tally value reload k = 255 then reload else tally value reload k + 1 := by
  rcases Nat.lt_trichotomy (value + k) 255 with hlt | heq | hgt
  · have hne : value + k ≠ 255 := by omega
    rw [tally_of_lt reload (by omega), tally_of_lt reload (by omega), if_neg hne, Nat.add_assoc]
  · have hzero : value + (k + 1) - 256 = 0 := by omega
    rw [tally_of_le reload (by omega), tally_of_lt reload (by omega), if_pos heq, hzero,
      Nat.zero_mod, Nat.add_zero]
  · have hpast : value + (k + 1) - 256 = value + k - 256 + 1 := by omega
    have hpos : 0 < 256 - reload := by omega
    rw [tally_of_le reload (by omega), tally_of_le reload (by omega), hpast, succ_mod hpos]
    generalize (value + k - 256) % (256 - reload) = shown
    by_cases hlast : shown = 256 - reload - 1
    · rw [if_pos hlast, if_pos (by omega), Nat.add_zero]
    · rw [if_neg hlast, if_neg (by omega), Nat.add_assoc]

/-- Once the counter has overflowed, it has. -/
theorem le_succ_iff_of_tally {value reload k : Nat} :
    256 ≤ value + (k + 1) ↔ 256 ≤ value + k ∨ tally value reload k = 255 := by
  rcases Nat.lt_or_ge (value + k) 256 with hlt | hle
  · rw [tally_of_lt reload hlt]
    omega
  · exact ⟨fun _ ↦ Or.inl hle, fun _ ↦ Nat.le_succ_of_le hle⟩

theorem Task.role_eq_counter_iff {task : Task} (present : Nat) :
    task.role present = .counter ↔ task = .counter := by
  cases task with
  | display epoch transition =>
    rw [Task.role]
    split
    · simp
    · split <;> simp
  | divider | counter | calendar | reaction => simp [Task.role]

namespace Hardware

open Timed (Drains Firing)

variable {start hw hw' : Hardware} {first limit k : Nat} {event : Event Task}
  {rest : List (Event Task)} {task : Task}

/-! ## What fires, seen from the counter -/

/-- Whatever fires leaves the registers alone that are neither the timers' nor the display's nor the
requests. -/
theorem Fires.reg_eq (h : Fires hw task hw') {addr : UInt16}
    (hd : Register.divider.toUInt8 ≠ addr.toUInt8) (hc : Register.counter.toUInt8 ≠ addr.toUInt8)
    (hl : Register.line.toUInt8 ≠ addr.toUInt8) (hs : Register.lcdStatus.toUInt8 ≠ addr.toUInt8)
    (hr : Register.interruptRequest.toUInt8 ≠ addr.toUInt8) : hw'.reg addr = hw.reg addr := by
  cases h with
  | tick h => exact h.reg_eq hd hc hr
  | void => rfl
  | follow epoch transition => exact (reg_covers hl hs hr).followed hw transition

/-- The counter ticks with its timer. -/
theorem Fires.of_counter (h : Fires hw .counter hw') : hw' = hw.counterTicked := by
  cases h with
  | tick h =>
    cases h with
    | counter => rfl

/-- It counts at no other time. -/
theorem Fires.counter_of_ne (h : Fires hw task hw') (ht : task ≠ .counter) :
    hw'.reg Register.counter = hw.reg Register.counter := by
  cases h with
  | tick h =>
    cases h with
    | divider => exact reg_put_of_ne hw _ (by decide)
    | counter => exact absurd rfl ht
    | calendar => rfl
  | void => rfl
  | follow epoch transition =>
    exact (reg_covers (by decide) (by decide) (by decide)).followed hw transition

/-- Nothing else requests its interrupt. -/
theorem Fires.requested_of_ne (h : Fires hw task hw') (ht : task ≠ .counter) :
    hw'.Requested .timer ↔ hw.Requested .timer := by
  cases h with
  | tick h =>
    cases h with
    | divider => exact requested_put (by decide) _ hw
    | counter => exact absurd rfl ht
    | calendar => exact Iff.rfl
  | void => exact Iff.rfl
  | follow epoch transition => exact requested_followed (by decide) (by decide) transition

/-- Nothing else lets a tick of it wait. -/
theorem Fires.clock_of_ne (h : Fires hw task hw') (ht : task ≠ .counter) :
    hw'.clock = hw.clock ∨
      ∃ delay other, other ≠ .counter ∧ hw'.clock = hw.clock.schedule delay other := by
  cases h with
  | tick h =>
    rw [clock_later, h.quiet.clock]
    exact Or.inr ⟨_, _, ht, rfl⟩
  | void => exact Or.inl rfl
  | follow epoch transition =>
    obtain ⟨delay, next, -, hc⟩ := exists_clock_followed hw transition
    exact Or.inr ⟨delay, _, Task.noConfusion, hc⟩

/-! ## A tick of the counter -/

theorem clock_counterTicked (hw : Hardware) : hw.counterTicked.clock =
    hw.clock.schedule (counterCycles (hw.reg Register.timerControl)) .counter := by
  rw [counterTicked, clock_later]
  split
  · rw [counted]
    split <;> rfl
  · rfl

/-- One more on the counter. -/
theorem value_counted (hw : Hardware) : (hw.counted.reg Register.counter).toNat =
    if (hw.reg Register.counter).toNat = 255 then (hw.reg Register.reload).toNat
    else (hw.reg Register.counter).toNat + 1 := by
  by_cases h : hw.reg Register.counter = 0xff
  · have hfull : (hw.reg Register.counter).toNat = 255 := by rw [h]; rfl
    rw [counted, if_pos h, if_pos hfull, reg_requesting _ _ (by decide), reg_put_self]
  · have hne : (hw.reg Register.counter).toNat ≠ 255 := fun he ↦ h (UInt8.toNat_inj.1 he)
    have hlt := (hw.reg Register.counter).toNat_lt
    rw [counted, if_neg h, if_neg hne, reg_put_self, UInt8.toNat_add, UInt8.toNat_one]
    exact Nat.mod_eq_of_lt (by omega)

/-! ## Counting -/

/-- The cycles between two ticks at the speed that is chosen. -/
def period (hw : Hardware) : Nat := counterCycles (hw.reg Register.timerControl)

theorem period_pos (hw : Hardware) : 0 < hw.period :=
  Nat.lt_of_lt_of_le (by decide) (le_counterCycles _)

/-- What the counter shows `k` ticks after `start`, and whether it has requested its interrupt. -/
structure Counted (start : Hardware) (k : Nat) (hw : Hardware) : Prop where
  control : hw.reg Register.timerControl = start.reg Register.timerControl
  reload : hw.reg Register.reload = start.reg Register.reload
  running : start.counterRuns → (hw.reg Register.counter).toNat =
      tally (start.reg Register.counter).toNat (start.reg Register.reload).toNat k ∧
    (hw.Requested .timer ↔
      start.Requested .timer ∨ 256 ≤ (start.reg Register.counter).toNat + k)
  halted : ¬ start.counterRuns → hw.reg Register.counter = start.reg Register.counter ∧
    (hw.Requested .timer ↔ start.Requested .timer)

namespace Counted

theorem zero (hw : Hardware) : Counted hw 0 hw where
  control := rfl
  reload := rfl
  running _ := by
    have hlt := (hw.reg Register.counter).toNat_lt
    refine ⟨(tally_of_lt (k := 0) _ hlt).symm, ?_⟩
    rw [Nat.add_zero, or_iff_left (Nat.not_le_of_lt hlt)]
  halted _ := ⟨rfl, Iff.rfl⟩

/-- Where the clock is does not matter. -/
theorem of_body (h : Counted start k hw) (hb : hw'.body = hw.body) : Counted start k hw' := by
  obtain ⟨clock, body⟩ := hw
  obtain ⟨clock', body'⟩ := hw'
  obtain rfl : body' = body := hb
  exact ⟨h.control, h.reload, h.running, h.halted⟩

/-- A tick of the counter. -/
theorem tick (h : Counted start k hw) : Counted start (k + 1) hw.counterTicked := by
  have hfires : Fires hw .counter hw.counterTicked := .tick .counter
  have hruns : hw.counterRuns = start.counterRuns := by
    rw [counterRuns, h.control, counterRuns]
  refine ⟨?_, ?_, fun hon ↦ ?_, fun hoff ↦ ?_⟩
  · rw [hfires.reg_eq (by decide) (by decide) (by decide) (by decide) (by decide), h.control]
  · rw [hfires.reg_eq (by decide) (by decide) (by decide) (by decide) (by decide), h.reload]
  · have hticked : hw.counterTicked = hw.counted.later hw.period .counter := by
      rw [counterTicked, if_pos (hruns.trans hon), period]
    obtain ⟨hvalue, hrequested⟩ := h.running hon
    have hvalue' := hw.value_counted
    have hrequested' : hw.counted.Requested .timer ↔
        hw.Requested .timer ∨ (hw.reg Register.counter).toNat = 255 :=
      hw.requested_counted.trans (by simp)
    rw [hvalue, h.reload, ← tally_succ (UInt8.toNat_lt _)] at hvalue'
    rw [hvalue, hrequested, or_assoc, ← le_succ_iff_of_tally] at hrequested'
    rw [hticked]
    exact ⟨hvalue', hrequested'⟩
  · have hticked : hw.counterTicked = hw.later hw.period .counter := by
      rw [counterTicked, if_neg (fun hon ↦ hoff (hruns.symm.trans hon)), period]
    rw [hticked]
    exact h.halted hoff

/-- Whatever else fires. -/
theorem other (h : Counted start k hw) (hf : Fires hw task hw') (ht : task ≠ .counter) :
    Counted start k hw' where
  control := by
    rw [hf.reg_eq (by decide) (by decide) (by decide) (by decide) (by decide), h.control]
  reload := by
    rw [hf.reg_eq (by decide) (by decide) (by decide) (by decide) (by decide), h.reload]
  running hon := by
    rw [hf.counter_of_ne ht, hf.requested_of_ne ht]
    exact h.running hon
  halted hoff := by
    rw [hf.counter_of_ne ht, hf.requested_of_ne ht]
    exact h.halted hoff

end Counted

/-- The counter has ticked `k` times since `start`, first at `first` and then after every period,
always before `limit`, and waits for the next tick. -/
structure Counting (start : Hardware) (first limit k : Nat) (hw : Hardware) : Prop where
  counted : Counted start k hw
  past : ∀ j < k, first + j * start.period < limit
  next : ∀ e ∈ hw.clock.queue, e.action = .counter → e.target = first + k * start.period

/-- A tick of the counter was due. -/
theorem Counting.tick (h : Counting start first limit k hw) (hw₁ : Equipped hw)
    (hd : hw.clock.Due limit event rest) (ha : event.action = .counter) :
    Counting start first limit (k + 1) (counterTicked (hw.taking event rest)) := by
  have htarget : event.target = first + k * start.period := h.next event hd.mem ha
  have htaken : Counted start k (hw.taking event rest) := h.counted.of_body rfl
  have hperiod : counterCycles (reg (hw.taking event rest) Register.timerControl) =
      start.period := by
    rw [htaken.control, period]
  refine ⟨htaken.tick, fun j hj ↦ ?_, fun e he hae ↦ ?_⟩
  · rcases Nat.lt_succ_iff_lt_or_eq.1 hj with hj | rfl
    · exact h.past j hj
    · rw [← htarget]
      exact hd.2
  · rw [clock_counterTicked, hperiod, Clock.queue_schedule, Clock.mem_insert] at he
    rcases he with rfl | he
    · show event.target + start.period = _
      rw [htarget, Nat.succ_mul, Nat.add_assoc]
    · -- No second tick of the counter waited.
      have hnone : waiting (hw.taking event rest) .counter = 0 :=
        waiting_taking_of_due hd ((Task.role_eq_counter_iff _).2 ha)
          (hw₁.shares .counter (by decide))
      exact absurd ((Task.role_eq_counter_iff _).2 hae) (roleOf_ne_of_waiting hnone he)

/-- Something else was due. -/
theorem Counting.other (h : Counting start first limit k hw) (hd : hw.clock.Due limit event rest)
    (hf : Fires (hw.taking event rest) event.action hw') (ha : event.action ≠ .counter) :
    Counting start first limit k hw' := by
  have htaken : Counted start k (hw.taking event rest) := h.counted.of_body rfl
  refine ⟨htaken.other hf ha, h.past, fun e he hae ↦ ?_⟩
  rcases hf.clock_of_ne ha with hc | ⟨delay, other, ho, hc⟩
  · rw [hc] at he
    exact h.next e (hd.mem_of_rest he) hae
  · rw [hc, Clock.queue_schedule, Clock.mem_insert] at he
    rcases he with rfl | he
    · exact absurd hae ho
    · exact h.next e (hd.mem_of_rest he) hae

/-- **A window of time counts**: some number of ticks later the next one is not due in it. -/
theorem Counting.drains {t₀ f₀ : Nat} {on : Bool} {log : Array Record}
    {firings : List (Firing Task Board)} {o : Outcome Hardware Unit}
    (h : Counting start first limit k hw) (hr : Runs t₀ f₀ limit on log hw)
    (hd : Drains fire limit hw firings o) :
    ∃ k', Counting start first limit k' o.state ∧ limit ≤ first + k' * start.period := by
  induction hd generalizing k log with
  | @done hw hnone =>
    -- The tick that waits is not due any more.
    refine ⟨k, ⟨h.counted.of_body rfl, h.past, h.next⟩, ?_⟩
    obtain ⟨e, he, hrole⟩ := exists_playing (hr.wired.shares .counter (by decide))
    have hmem : e ∈ hw.clock.queue := (mem_playing.1 (he ▸ List.mem_singleton_self e)).1
    rw [← h.next e hmem ((Task.role_eq_counter_iff _).1 hrole)]
    exact Timed.le_target_of_popDue?_eq_none hr.wired.sound hnone e hmem
  | stop hd hf => exact absurd hf (hr.ne_error hd)
  | @next hw hw' event rest records firings o hd hf _ ih =>
    have hfires := hr.fires hd hf
    obtain ⟨-, hruns, -⟩ := hr.turn_of_ok hd hf
    by_cases ha : event.action = .counter
    · have hticked : hw' = counterTicked (hw.taking event rest) := (ha ▸ hfires).of_counter
      have hcounting := h.tick hr.wired.toEquipped hd ha
      rw [← hticked] at hcounting
      exact ih hcounting hruns
    · exact ih (h.other hd hfires ha) hruns

/-! ## Any window -/

/-- What `cycles` that pass do to the counter whose next tick was due at `first`.  The period is that
of `counterCycles`, by the low two bits of the control byte, and bit 2 of the requests is the
counter's. -/
structure CountsFrom (first cycles : Nat) (hw hw' : Hardware) : Prop where
  control : hw'.reg Register.timerControl = hw.reg Register.timerControl
  reload : hw'.reg Register.reload = hw.reg Register.reload
  /-- While it is turned on, it shows the ticks that fell into the window, and it requests its
  interrupt if it overflowed. -/
  running : hw.reg Register.timerControl &&& 0x04 ≠ 0 → ∀ value reload ticks,
    value = (hw.reg Register.counter).toNat → reload = (hw.reg Register.reload).toNat →
    ticks = ticksBefore first (counterCycles (hw.reg Register.timerControl)) (hw.now + cycles) →
    (hw'.reg Register.counter).toNat =
        (if value + ticks < 256 then value + ticks
        else reload + (value + ticks - 256) % (256 - reload)) ∧
      (hw'.reg Register.interruptRequest &&& 0x04 ≠ 0 ↔
        hw.reg Register.interruptRequest &&& 0x04 ≠ 0 ∨ 256 ≤ value + ticks)
  /-- While it is turned off, it stays as it is. -/
  halted : hw.reg Register.timerControl &&& 0x04 = 0 →
    hw'.reg Register.counter = hw.reg Register.counter ∧
      (hw'.reg Register.interruptRequest &&& 0x04 ≠ 0 ↔
        hw.reg Register.interruptRequest &&& 0x04 ≠ 0)
  /-- The next tick is due after all these, turned on or off. -/
  next : ∃ e, hw'.playing .counter = [e] ∧ e.target = first +
    ticksBefore first (counterCycles (hw.reg Register.timerControl)) (hw.now + cycles) *
      counterCycles (hw.reg Register.timerControl)

theorem Reachable.countsFrom (h : Reachable hw) (hfirst : hw.playing .counter = [event])
    (cycles : Nat) : ∃ hw' records, advance cycles hw = ⟨.ok (), hw', records⟩ ∧
      CountsFrom event.target cycles hw hw' := by
  obtain ⟨hw₁, t₀, f₀, log, ht⟩ := h.wired
  obtain ⟨firings, hw', records, hdrain⟩ := h.returns cycles
  have hok : advance cycles hw = ⟨.ok (), hw', records⟩ := hdrain.advance_eq
  have hnext : ∀ e ∈ hw.clock.queue, e.action = .counter → e.target = event.target := by
    intro e he ha
    have hmem : e ∈ hw.playing .counter := mem_playing.2 ⟨he, (Task.role_eq_counter_iff _).2 ha⟩
    rw [hfirst, List.mem_singleton] at hmem
    rw [hmem]
  have hstart : Counting hw event.target (hw.now + cycles) 0 hw :=
    ⟨.zero hw, nofun, fun e he ha ↦ by rw [hnext e he ha, Nat.zero_mul, Nat.add_zero]⟩
  obtain ⟨k, hcounting, hle⟩ := hstart.drains (.start hw₁ ht cycles) hdrain
  have hk : ticksBefore event.target (counterCycles (hw.reg Register.timerControl))
      (hw.now + cycles) = k := ticksBefore_eq hw.period_pos hcounting.past hle
  have hruns : hw.counterRuns ↔ hw.reg Register.timerControl &&& 0x04 ≠ 0 := decide_eq_true_iff
  refine ⟨hw', records, hok, hcounting.counted.control, hcounting.counted.reload, ?_,
    fun hoff ↦ hcounting.counted.halted fun hon ↦ hruns.1 hon hoff, ?_⟩
  · rintro hon value reload ticks rfl rfl rfl
    rw [hk]
    exact hcounting.counted.running (hruns.2 hon)
  · have hw₂ : Wired hw' := by
      have hreach := (h.perform (.advance cycles)).wired.1
      rwa [Operation.perform, hok] at hreach
    obtain ⟨e, he, hrole⟩ := exists_playing (hw₂.shares .counter (by decide))
    have hmem : e ∈ hw'.clock.queue := (mem_playing.1 (he ▸ List.mem_singleton_self e)).1
    refine ⟨e, he, ?_⟩
    rw [hk]
    exact hcounting.next e hmem ((Task.role_eq_counter_iff _).1 hrole)

end Hardware

namespace Console

open Hardware (CountsFrom)

/-- **The counter is a closed form of time.**  One tick of the counter of a reachable machine waits.
However long time passes, the ticks that fall into the window are those from this one on at the
period that is chosen; each counts if the counter is turned on, and the counter starts again from
its reload byte and requests its interrupt whenever it overflows.  The same holds after any write to
the control byte: it leaves the tick that waits where it is, and so changes the ticks after it
only. -/
theorem counter_closed_form (c : Console) (h : Reachable c) :
    ∃ first, c.hardware.playing .counter = [first] ∧ first.action = .counter ∧
      (∀ cycles, ∃ hw' records, Hardware.advance cycles c.hardware = ⟨.ok (), hw', records⟩ ∧
        CountsFrom first.target cycles c.hardware hw') ∧
      ∀ control : UInt8, ∃ written : Hardware,
        Hardware.write Register.timerControl control c.hardware = ⟨.ok (), written, #[]⟩ ∧
        written = c.hardware.put Register.timerControl control ∧
        written.playing .counter = [first] ∧
        ∀ cycles, ∃ hw' records, Hardware.advance cycles written = ⟨.ok (), hw', records⟩ ∧
          CountsFrom first.target cycles written hw' := by
  have hr := h.hardware
  obtain ⟨hw₁, -⟩ := hr.wired
  obtain ⟨first, hfirst, hrole⟩ := Hardware.exists_playing (hw₁.shares .counter (by decide))
  refine ⟨first, hfirst, (Task.role_eq_counter_iff _).1 hrole, hr.countsFrom hfirst,
    fun control ↦ ?_⟩
  have hwrite : Hardware.write Register.timerControl control c.hardware =
      ⟨.ok (), c.hardware.put Register.timerControl control, #[]⟩ :=
    Hardware.write_of_stores hw₁.listens (by decide) (by decide) fun _ ↦ rfl
  have hreach : Hardware.Reachable (c.hardware.put Register.timerControl control) := by
    have hperform := hr.perform (.write Register.timerControl control)
    rwa [Hardware.Operation.perform, hwrite] at hperform
  have hkept : (c.hardware.put Register.timerControl control).playing .counter = [first] := hfirst
  exact ⟨_, hwrite, rfl, hkept, hreach.countsFrom hkept⟩

/-- An empty cartridge whose counter is turned on, at its fastest, when it starts: the first tick is
still due after 1024 cycles, and the next ones follow every 16. -/
theorem counter_closed_form_faster : ∃ written hw' records,
    Hardware.write Register.timerControl 0x05 blank.hardware = ⟨.ok (), written, #[]⟩ ∧
      Hardware.advance 1089 written = ⟨.ok (), hw', records⟩ ∧
      (hw'.reg Register.counter).toNat = 5 ∧
      (hw'.reg Register.interruptRequest &&& 0x04 ≠ 0 ↔
        written.reg Register.interruptRequest &&& 0x04 ≠ 0) := by
  obtain ⟨first, hfirst, haction, -, hwrites⟩ := counter_closed_form blank reachable_blank
  obtain ⟨written, hwrite, hput, -, hcounts⟩ := hwrites 0x05
  obtain ⟨hw', records, hadvance, hcount⟩ := hcounts 1089
  have htarget : first.target = 1024 := by
    have hmem := (Hardware.mem_playing.1 (hfirst ▸ List.mem_singleton_self first)).1
    rw [hardware_blank, Hardware.clock_started, Clock.queue_schedule, Clock.mem_insert] at hmem
    rcases hmem with rfl | hmem
    · cases haction
    rcases Hardware.mem_queue_armed hmem with rfl | rfl | rfl
    · cases haction
    · rfl
    · cases haction
  have hnow : written.now = 0 := by
    rw [Timed.now, hput, Hardware.clock_put]
    exact now_blank
  have hcontrol : written.reg Register.timerControl = 0x05 := by
    rw [hput, Hardware.reg_put_self]
  have hvalue : written.reg Register.counter = 0 := by
    rw [hput, Hardware.reg_put_of_ne _ _ (by decide), hardware_blank]
    exact (Hardware.reg_covers (by decide) (by decide) (by decide)).started _
  have hticks : ticksBefore first.target (Hardware.counterCycles (written.reg
      Register.timerControl)) (written.now + 1089) = 5 := by
    rw [htarget, hcontrol, hnow]
    exact ticksBefore_eq (by decide) (by decide) (by decide)
  have hon : written.reg Register.timerControl &&& 0x04 ≠ 0 := by
    rw [hcontrol]
    decide
  obtain ⟨hshown, hrequested⟩ := hcount.running hon _ _ 5 rfl rfl hticks.symm
  rw [hvalue] at hshown hrequested
  refine ⟨written, hw', records, hwrite, hadvance, hshown, hrequested.trans (or_iff_left ?_)⟩
  decide

end Console

end DotMatrix
