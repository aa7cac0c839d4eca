import Mathlib.Data.Finset.Card
import DotMatrix.Proofs.Console.Acts
import DotMatrix.Proofs.Timer.Beat

/-!
# The divider and the calendar never drift

What was done to the hardware says when its regular timers ticked: at every multiple of their period
that has passed.  How the time was cut, what else was done meanwhile and when the divider was reset
do not matter for this.  The divider shows how many of its ticks came since it was reset last.

* `Hardware.Story` — hardware with all that was done to it and all that fired, and `elapsed` and
  `lastReset`, how long this took and when the divider was reset last.
* `Story.eq_last` — what operations alone set is as it was set last.
* `Story.accounts` — the timers are punctual along every story.
* `Accounts.mem_moments`, `Accounts.divider` — when they ticked, and what the divider shows.
* `Console.Story` — a machine with all that was done to its hardware.
* `never_drift` — both timers of every machine at any time.
-/

set_option autoImplicit false

namespace DotMatrix

/-- The multiples of a period from `since` on and before `now`, by their factors. -/
def ticksBetween (period since now : Nat) : Finset Nat :=
  (Finset.range now).filter fun k ↦ 1 ≤ k ∧ since ≤ period * k ∧ period * k < now

theorem mem_ticksBetween {period since now k : Nat} (hp : 0 < period) :
    k ∈ ticksBetween period since now ↔ 1 ≤ k ∧ since ≤ period * k ∧ period * k < now := by
  rw [ticksBetween, Finset.mem_filter, Finset.mem_range]
  refine ⟨And.right, fun h ↦ ⟨?_, h⟩⟩
  exact Nat.lt_of_le_of_lt (Nat.le_mul_of_pos_left k hp) h.2.2

/-- They can be counted one by one if it is known how many multiples there are before `now`. -/
theorem card_ticksBetween {period since now n : Nat} (hp : 0 < period)
    (hn : ∀ k, 1 ≤ k → (period * k < now ↔ k ≤ n)) :
    (ticksBetween period since now).card =
      Nat.count (fun k ↦ since ≤ period * (k + 1)) n := by
  have himage : ticksBetween period since now =
      ((Finset.range n).filter fun k ↦ since ≤ period * (k + 1)).image Nat.succ := by
    ext k
    rw [mem_ticksBetween hp, Finset.mem_image]
    constructor
    · rintro ⟨hpos, hsince, hlt⟩
      have hle := (hn k hpos).1 hlt
      refine ⟨k - 1, Finset.mem_filter.2 ⟨Finset.mem_range.2 (by omega), ?_⟩, by omega⟩
      rwa [Nat.sub_add_cancel hpos]
    · rintro ⟨j, hj, rfl⟩
      obtain ⟨hrange, hsince⟩ := Finset.mem_filter.1 hj
      have hpos : 1 ≤ j.succ := Nat.succ_pos j
      exact ⟨hpos, hsince, (hn _ hpos).2 (Finset.mem_range.1 hrange)⟩
  rw [himage, Finset.card_image_of_injective _ Nat.succ_injective, Nat.count_eq_card_filter_range]

namespace Hardware

open Timed (Drains Firing)

/-! ## Stories -/

namespace Operation

/-- How long an operation takes. -/
def duration : Operation → Nat
  | .advance cycles => cycles
  | .write _ _ | .withdraw _ | .press _ _ => 0

/-- A write to the divider resets it. -/
def resets : Operation → Bool
  | .write addr _ => addr = Register.divider
  | .advance _ | .withdraw _ | .press _ _ => false

end Operation

/-- How long operations took. -/
def elapsed (ops : List Operation) : Nat := (ops.map Operation.duration).sum

/-- The time at which the divider was reset last, by operations the newest first. -/
def lastReset : List Operation → Nat
  | [] => 0
  | op :: older => if op.resets then elapsed older else lastReset older

/-- Hardware that was started and acted on since, with what was done to it, the newest first, and
what fired on the way. -/
inductive Story : List Operation → List (Firing Task Board) → Hardware → Prop where
  | powerOn {image : Array UInt8} {cartridge : Cartridge}
      (h : Cartridge.ofImage image = .ok cartridge) : Story [] [] (powerOn cartridge).1
  | act {ops : List Operation} {fired : List (Firing Task Board)} {hw : Hardware} {op : Operation}
      (ha : ∀ cycles, op ≠ .advance cycles) (h : Story ops fired hw) :
      Story (op :: ops) fired (op.perform hw).state
  | pass {ops : List Operation} {fired firings : List (Firing Task Board)} {hw : Hardware}
      {cycles : Nat} {o : Outcome Hardware Unit} (h : Story ops fired hw)
      (hd : Drains fire (hw.now + cycles) hw firings o) :
      Story (.advance cycles :: ops) (fired ++ firings) o.state

variable {ops : List Operation} {fired : List (Firing Task Board)} {hw hw' : Hardware}
  {op : Operation} {beat : Beat}

theorem Story.reachable (h : Story ops fired hw) : Reachable hw := by
  induction h with
  | powerOn h => exact .powerOn h
  | act _ _ ih => exact .perform _ ih
  | @pass _ _ _ hw cycles o _ hd ih =>
    have hop : (Operation.advance cycles).perform hw = o := hd.advance_eq
    exact hop ▸ ih.perform (.advance cycles)

/-- A story goes on with any operation. -/
theorem Story.perform (h : Story ops fired hw) (op : Operation) :
    ∃ fired', Story (op :: ops) fired' (op.perform hw).state := by
  by_cases ha : ∃ cycles, op = .advance cycles
  · obtain ⟨cycles, rfl⟩ := ha
    obtain ⟨firings, hw', records, hd⟩ := h.reachable.returns cycles
    have hop : (Operation.advance cycles).perform hw = ⟨.ok (), hw', records⟩ := hd.advance_eq
    rw [hop]
    exact ⟨fired ++ firings, .pass h hd⟩
  · exact ⟨fired, .act (fun cycles he ↦ ha ⟨cycles, he⟩) h⟩

theorem Story.afterAll (h : Story ops fired hw) (more : List Operation) :
    ∃ fired', Story (more ++ ops) fired' (afterAll more hw) := by
  induction more with
  | nil => exact ⟨fired, h⟩
  | cons op older ih =>
    obtain ⟨fired', h'⟩ := ih
    exact h'.perform op

/-- What operations set, and nothing else changes, is as it was set last. -/
theorem Story.eq_last {α : Type} (view : Hardware → α) (set? : Operation → Option α) {first : α}
    (hfirst : ∀ cartridge, view (Hardware.powerOn cartridge).1 = first)
    (hset : ∀ {hw : Hardware} (op : Operation), Reachable hw →
      view (op.perform hw).state = (set? op).getD (view hw))
    (h : Story ops fired hw) : view hw = (ops.findSome? set?).getD first := by
  have hcons : ∀ (op : Operation) (older : List Operation),
      ((op :: older).findSome? set?).getD first =
        (set? op).getD ((older.findSome? set?).getD first) := fun op older ↦ by
    rw [List.findSome?_cons]
    cases set? op <;> rfl
  induction h with
  | powerOn => exact hfirst _
  | act _ h ih => rw [hset _ h.reachable, hcons, ih]
  | @pass _ _ _ hw cycles o h hd ih =>
    have hop : (Operation.advance cycles).perform hw = o := hd.advance_eq
    rw [← hop, hset _ h.reachable, hcons, ih]

/-! ## What operations leave of the timers -/

/-- Only a write to the divider reaches it, and resets it. -/
theorem divider_perform (hl : DisplayListens hw) (ha : ∀ cycles, op ≠ .advance cycles) :
    (op.perform hw).state.reg Register.divider =
      if op.resets then 0 else hw.reg Register.divider := by
  by_cases hw₁ : ∃ value, op = .write Register.divider value
  · obtain ⟨value, rfl⟩ := hw₁
    have hresets : (Operation.write Register.divider value).resets = true := rfl
    rw [if_pos hresets, Operation.perform,
      write_of_stores hl (by decide) (by decide) fun _ ↦ rfl]
    exact reg_put_self _ _ _
  · have hresets : op.resets = false := by
      cases op with
      | write addr value => exact decide_eq_false fun he ↦ hw₁ ⟨value, by rw [he]⟩
      | advance | withdraw | press => rfl
    rw [hresets, if_neg Bool.false_ne_true]
    exact reg_perform hl ha (by decide) (by decide) (by decide) (by decide) fun value he ↦
      hw₁ ⟨value, he⟩

/-! ## Accounts -/

/-- The time is what the operations took, and the timers have ticked as they should by then. -/
structure Accounts (ops : List Operation) (fired : List (Firing Task Board)) (hw : Hardware) :
    Prop where
  now : hw.now = elapsed ops
  since : lastReset ops ≤ hw.now
  punctual : Punctual (lastReset ops) fired hw
  fired : ∀ f ∈ fired, f.event.target < hw.now ∧ Fires f.before f.event.action f.after

theorem accounts_powerOn (cartridge : Cartridge) : Accounts [] [] (powerOn cartridge).1 where
  now := now_powerOn cartridge
  since := Nat.zero_le _
  punctual := {
    onBeat := fun beat ↦ by
      have harmed : OnBeat beat [] (armed cartridge) := by
        refine ⟨rfl, fun e he hb ↦ ?_⟩
        rcases mem_queue_armed he with rfl | rfl | rfl
        · obtain rfl := Option.some.inj hb
          rfl
        · cases hb
        · obtain rfl := Option.some.inj hb
          rfl
      rw [powerOn_eq]
      exact harmed.scheduled (clock_started _) (Option.some_ne_none beat).symm
    divider := by
      have hzero : (armed cartridge).reg Register.divider = 0 := rfl
      rw [powerOn_eq, divider_covers.started, hzero]
      rfl }
  fired _ hf := absurd hf List.not_mem_nil

/-- What fired of a timer did so in the past. -/
theorem Accounts.lt_now (h : Accounts ops fired hw) {time : Nat} (ht : time ∈ moments beat fired) :
    time < hw.now := by
  obtain ⟨f, hf, rfl⟩ := List.mem_map.1 ht
  exact (h.fired f (List.mem_of_mem_filter hf)).1

theorem Accounts.period_mul_lt (h : Accounts ops fired hw) {k : Nat} (hk : k < ticks beat fired) :
    beat.period * (k + 1) < hw.now := by
  have hmem : beat.period * (k + 1) ∈ moments beat fired := by
    rw [(h.punctual.onBeat beat).past]
    exact List.mem_map.2 ⟨k, List.mem_range.2 hk, rfl⟩
  exact h.lt_now hmem

theorem Accounts.act (h : Accounts ops fired hw) (hl : DisplayListens hw)
    (ha : ∀ cycles, op ≠ .advance cycles) : Accounts (op :: ops) fired (op.perform hw).state := by
  have hclock := clock_perform_cases hl ha
  have hnow : (op.perform hw).state.now = hw.now := by
    rw [Timed.now, Timed.now]
    rcases hclock with hc | ⟨_, _, hc⟩ <;> rw [hc]
    rfl
  have hduration : op.duration = 0 := by
    cases op with
    | advance cycles => exact absurd rfl (ha cycles)
    | write | withdraw | press => rfl
  have helapsed : elapsed (op :: ops) = elapsed ops := by
    rw [elapsed, List.map_cons, List.sum_cons, hduration, Nat.zero_add, elapsed]
  refine ⟨by rw [hnow, helapsed, h.now], ?_, ⟨fun beat ↦ ?_, ?_⟩,
    fun f hf ↦ by rw [hnow]; exact h.fired f hf⟩
  · rw [hnow, lastReset]
    split
    · exact Nat.le_of_eq h.now.symm
    · exact h.since
  · rcases hclock with hc | ⟨_, _, hc⟩
    · exact (h.punctual.onBeat beat).keep fun e he _ ↦ hc ▸ he
    · exact (h.punctual.onBeat beat).scheduled hc (Option.some_ne_none beat).symm
  · rw [divider_perform hl ha, lastReset]
    split
    · -- None of the ticks so far counts after a reset: all of them are in the past.
      have hnone : Nat.count (fun k ↦ elapsed ops ≤ dividerCycles * (k + 1))
          (ticks .divider fired) = 0 := by
        rw [Nat.count_eq_card_filter_range, Finset.card_eq_zero, Finset.filter_eq_empty_iff]
        intro k hk hle
        have hlt : dividerCycles * (k + 1) < hw.now := h.period_mul_lt (Finset.mem_range.1 hk)
        rw [h.now] at hlt
        exact Nat.not_le_of_lt hlt hle
      rw [hnone]
      rfl
    · exact h.punctual.divider

theorem Accounts.pass (h : Accounts ops fired hw) (hr : Reachable hw) {cycles : Nat}
    {firings : List (Firing Task Board)} {o : Outcome Hardware Unit}
    (hd : Drains fire (hw.now + cycles) hw firings o) :
    Accounts (.advance cycles :: ops) (fired ++ firings) o.state := by
  obtain ⟨hw₁, _, _, _, ht⟩ := hr.wired
  obtain ⟨hpunctual, hfired⟩ := h.punctual.drains h.since (.start hw₁ ht cycles) hd
  have hnow : o.state.now = hw.now + cycles := by
    have hop : advance cycles hw = o := hd.advance_eq
    exact hop ▸ hr.now_advance cycles
  have helapsed : elapsed (.advance cycles :: ops) = cycles + elapsed ops := by
    rw [elapsed, List.map_cons, List.sum_cons]
    rfl
  refine ⟨by rw [hnow, helapsed, h.now, Nat.add_comm], ?_, hpunctual, fun f hf ↦ ?_⟩
  · rw [hnow]
    exact Nat.le_add_right_of_le h.since
  · rw [hnow]
    rcases List.mem_append.1 hf with hf | hf
    · exact ⟨Nat.lt_add_right cycles (h.fired f hf).1, (h.fired f hf).2⟩
    · exact hfired f hf

/-- Every story is accounted for. -/
theorem Story.accounts (h : Story ops fired hw) : Accounts ops fired hw := by
  induction h with
  | powerOn => exact accounts_powerOn _
  | act ha h ih => exact ih.act h.reachable.wired.1.listens ha
  | pass h hd ih => exact ih.pass h.reachable hd

/-- The multiples of a period that have passed are those at which the timer ticked. -/
theorem Accounts.period_mul_lt_iff (h : Accounts ops fired hw) (hw₁ : Equipped hw) {k : Nat}
    (hk : 1 ≤ k) : beat.period * k < hw.now ↔ k ≤ ticks beat fired := by
  constructor
  · intro hlt
    obtain ⟨e, he, hb⟩ := hw₁.exists_next beat
    have htime := hw₁.sound.onTime e he
    rw [(h.punctual.onBeat beat).next e he hb] at htime
    exact Nat.le_of_lt_succ (Nat.lt_of_mul_lt_mul_left (Nat.lt_of_lt_of_le hlt htime))
  · intro hle
    obtain ⟨j, rfl⟩ : ∃ j, k = j + 1 := ⟨k - 1, by omega⟩
    exact h.period_mul_lt hle

/-- A timer ticked once at each multiple of its period that has passed, and at no other time. -/
theorem Accounts.mem_moments (h : Accounts ops fired hw) (hw₁ : Equipped hw) (beat : Beat) :
    (moments beat fired).Nodup ∧ ∀ time,
      time ∈ moments beat fired ↔ ∃ k, 1 ≤ k ∧ time = beat.period * k ∧ time < hw.now := by
  rw [(h.punctual.onBeat beat).past]
  constructor
  · refine List.nodup_range.map fun j k hjk ↦ ?_
    exact Nat.succ.inj (Nat.eq_of_mul_eq_mul_left beat.period_pos hjk)
  · intro time
    rw [List.mem_map]
    constructor
    · rintro ⟨k, hk, rfl⟩
      exact ⟨k + 1, Nat.succ_pos k, rfl, h.period_mul_lt (List.mem_range.1 hk)⟩
    · rintro ⟨k, hk, rfl, hlt⟩
      have hle := (h.period_mul_lt_iff hw₁ hk).1 hlt
      exact ⟨k - 1, List.mem_range.2 (by omega), by rw [Nat.sub_add_cancel hk]⟩

/-- The divider shows how many ticks came since it was reset last. -/
theorem Accounts.divider (h : Accounts ops fired hw) (hw₁ : Equipped hw) :
    (hw.reg Register.divider).toNat =
      (ticksBetween dividerCycles (lastReset ops) (elapsed ops)).card % 256 := by
  have hn : ∀ k, 1 ≤ k → (Beat.divider.period * k < hw.now ↔ k ≤ ticks .divider fired) :=
    fun k hk ↦ h.period_mul_lt_iff hw₁ hk
  rw [h.punctual.divider, ← h.now]
  exact congrArg (· % 256) (card_ticksBetween (by decide) hn).symm

end Hardware

namespace Console

open Hardware (elapsed lastReset moments)

variable {ops : List Hardware.Operation} {c : Console}

/-- A machine that was started and acted on since, with all that this did to its hardware, the
newest first. -/
inductive Story : List Hardware.Operation → Console → Prop where
  | powerOn {image : Array UInt8} {c : Console} {records : Array Record}
      (h : powerOn image = .ok (c, records)) : Story [] c
  | perform {ops : List Hardware.Operation} {c : Console} (op : Operation) (h : Story ops c) :
      Story (op.acts c ++ ops) (op.perform c).state

theorem Story.reachable (h : Story ops c) : Reachable c := by
  induction h with
  | powerOn h => exact .powerOn h
  | perform op _ ih => exact .perform op ih

theorem Reachable.exists_story (h : Reachable c) : ∃ ops, Story ops c := by
  induction h with
  | powerOn h => exact ⟨[], .powerOn h⟩
  | perform op _ ih =>
    obtain ⟨ops, hs⟩ := ih
    exact ⟨_, .perform op hs⟩

theorem story_blank : Story [] blank := by
  obtain ⟨records, hp⟩ := exists_powerOn Hardware.emptyImage_accepted
  exact .powerOn hp

/-- A story of a machine is one of its hardware. -/
theorem Story.hardware (h : Story ops c) : ∃ fired, Hardware.Story ops fired c.hardware := by
  induction h with
  | powerOn h =>
    obtain ⟨cartridge, hc, rfl⟩ := powerOn_cases h
    exact ⟨[], .powerOn hc⟩
  | perform op h ih =>
    obtain ⟨fired, hs⟩ := ih
    rw [hardware_perform_acts h.reachable.hardware]
    exact hs.afterAll _

/-- An instruction that stops the processor resets the divider when its step begins. -/
theorem lastReset_of_stop {i : Instruction} (hp : Performs c i) (hs : i.opcode = .stop) :
    lastReset (actsRunning c ++ ops) = elapsed ops := by
  have hmade : Hardware.made (stores i (past i c)) c.hardware = [.write Register.divider 0] := by
    rw [stores, hs, Hardware.made]
    split <;> rfl
  rw [actsRunning, if_neg (by rw [hp.1]; exact Bool.false_ne_true), hp.2]
  dsimp only
  rw [hmade]
  split <;> rfl

/-- **The divider and the calendar never drift.**  Every machine has a story, and along every story
the divider reads as the number of multiples of 256 cycles that have passed since a program last
wrote to it or stopped, as a byte.  The timers have ticked once at every multiple of their period
that has passed and at no other time, the divider at those of 256 cycles and the calendar of the
cartridge at those of 4194304, whatever else is done and however the time is cut. -/
theorem never_drift :
    (∀ c : Console, Reachable c → ∃ ops, Story ops c) ∧
    (∀ (ops : List Hardware.Operation) (c : Console) (i : Instruction), Performs c i →
      i.opcode = .stop → lastReset (actsRunning c ++ ops) = elapsed ops) ∧
    ∀ (ops : List Hardware.Operation) (c : Console), Story ops c →
      c.hardware.now = elapsed ops ∧
      (∃ value, (Hardware.load Register.divider c.hardware).result = .ok value ∧
        value.toNat = (ticksBetween 256 (lastReset ops) (elapsed ops)).card % 256) ∧
      (∃ fired, Hardware.Story ops fired c.hardware) ∧
      ∀ fired, Hardware.Story ops fired c.hardware →
        ((moments .divider fired).Nodup ∧ ∀ time, time ∈ moments .divider fired ↔
          ∃ k, 1 ≤ k ∧ time = 256 * k ∧ time < elapsed ops) ∧
        ((moments .calendar fired).Nodup ∧ ∀ time, time ∈ moments .calendar fired ↔
          ∃ k, 1 ≤ k ∧ time = 4194304 * k ∧ time < elapsed ops) ∧
        ∀ f ∈ fired,
          (Hardware.bus f.after).cartridge =
            (if f.event.action.beat? = some .calendar then
              (Hardware.bus f.before).cartridge.tickCalendar
            else (Hardware.bus f.before).cartridge) ∧
          Hardware.reg f.after Register.divider =
            if f.event.action.beat? = some .divider then
              Hardware.reg f.before Register.divider + 1
            else Hardware.reg f.before Register.divider := by
  refine ⟨fun c h ↦ h.exists_story, fun ops c i hp hs ↦ lastReset_of_stop hp hs,
    fun ops c h ↦ ?_⟩
  have hw₁ : Hardware.Equipped c.hardware := h.reachable.hardware.wired.1.toEquipped
  obtain ⟨fired, hs⟩ := h.hardware
  have ha := hs.accounts
  refine ⟨ha.now, ⟨_, rfl, ha.divider hw₁⟩, ⟨fired, hs⟩, fun fired' hs' ↦ ⟨?_, ?_,
    fun f hf ↦ ?_⟩⟩
  · rw [← ha.now]
    exact hs'.accounts.mem_moments hw₁ .divider
  · rw [← ha.now]
    exact hs'.accounts.mem_moments hw₁ .calendar
  · obtain ⟨-, hfires⟩ := hs'.accounts.fired f hf
    exact ⟨hfires.cartridge, hfires.divider⟩

/-- A program writes to the divider at the very moment at which its first tick is due, before it
fires. -/
def resetAtTick : Console :=
  [.advance 256, .write Register.divider 0x2a, .advance 1].foldl
    (fun c (op : Operation) ↦ (op.perform c).state) blank

/-- A program lets a second pass, and the moment after it. -/
def pastSecond : Console := ((Operation.advance 4194305).perform blank).state

/-- The tick that was due counts once the time goes on, and the calendar ticks when a second is
over. -/
theorem never_drift_at_tick :
    (Story [.advance 1, .write Register.divider 0x2a, .advance 256] resetAtTick ∧
      (Hardware.load Register.divider resetAtTick.hardware).result = .ok 1) ∧
    ∃ fired, Hardware.Story [.advance 4194305] fired pastSecond.hardware ∧
      moments .calendar fired = [4194304] := by
  constructor
  · have hstory : Story [.advance 1, .write Register.divider 0x2a, .advance 256] resetAtTick :=
      ((story_blank.perform (.advance 256)).perform (.write Register.divider 0x2a)).perform
        (.advance 1)
    obtain ⟨-, ⟨value, hload, hvalue⟩, -⟩ := never_drift.2.2 _ _ hstory
    obtain rfl : value = 1 := UInt8.toNat_inj.1 (hvalue.trans (by decide +kernel))
    exact ⟨hstory, hload⟩
  · have hstory : Story [.advance 4194305] pastSecond := story_blank.perform (.advance 4194305)
    obtain ⟨-, -, ⟨fired, hs⟩, hall⟩ := never_drift.2.2 _ _ hstory
    obtain ⟨-, ⟨hnodup, hmem⟩, -⟩ := hall fired hs
    refine ⟨fired, hs, List.perm_singleton.1 ?_⟩
    rw [List.perm_ext_iff_of_nodup hnodup (List.nodup_singleton _)]
    intro time
    have helapsed : elapsed [.advance 4194305] = 4194305 := rfl
    rw [hmem, helapsed, List.mem_singleton]
    constructor
    · rintro ⟨k, hk, rfl, hlt⟩
      omega
    · rintro rfl
      exact ⟨1, Nat.le_refl 1, rfl, by decide⟩

end Console

end DotMatrix
