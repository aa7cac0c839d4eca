import DotMatrix.Proofs.Console.Reach
import Mathlib.Data.List.Count

/-!
# One chain of transitions

Nothing that was planned is ever taken back, so every time the display is turned off its next
transition stays in the queue, and every time it is turned on another one joins it.  `SingleChain`
says what the queue holds nevertheless: one task of each timer, one transition that carries the
present epoch while the display is on and none while it is off, and stale transitions, which do
nothing when their moment comes, now or later.

* `Role.perm_filter` — a list is put together from the parts that play each role.
* `Stale.fire_eq` — a stale transition does nothing, in this epoch and in every later one.
* `epoch_le_perform` — epochs never go back, so what is stale stays stale.
* `Reachable.singleChain` — hardware that was started and acted on has a single chain.
-/

set_option autoImplicit false

namespace DotMatrix

/-- A list is put together from the parts that play each role. -/
theorem Role.perm_filter {α : Type} (role : α → Role) (l : List α) :
    l.Perm (l.filter (role · = .divider) ++ (l.filter (role · = .counter) ++
      (l.filter (role · = .calendar) ++ (l.filter (role · = .live) ++
        (l.filter (role · = .void) ++ l.filter (role · = .foreign)))))) := by
  classical
  have hcount : ∀ (a : α) (r : Role), List.count a (l.filter (role · = r)) =
      if role a = r then List.count a l else 0 := by
    intro a r
    by_cases h : role a = r
    · rw [if_pos h]
      exact List.count_filter (decide_eq_true h)
    · rw [if_neg h, List.count_eq_zero]
      intro hmem
      exact h (of_decide_eq_true (List.mem_filter.1 hmem).2)
  refine List.perm_iff_count.2 fun a ↦ ?_
  simp only [List.count_append, hcount]
  cases role a <;> simp

namespace Hardware

variable {hw hw' : Hardware} {e : Event Task}

/-! ## Stale transitions -/

/-- A transition that was planned in an earlier epoch. -/
def Stale (hw : Hardware) (e : Event Task) : Prop :=
  ∃ epoch transition, e.action = .display epoch transition ∧ epoch < hw.display.epoch

/-- A stale transition does nothing when its moment comes. -/
theorem Stale.fire_eq (h : Stale hw e) (hle : hw.display.epoch ≤ hw'.display.epoch) :
    fire e.action hw' = ⟨.ok (), hw', #[]⟩ := by
  obtain ⟨epoch, transition, ha, hlt⟩ := h
  rw [ha]
  refine followPlan_of_void hw' ?_ transition
  rintro ⟨-, rfl⟩
  exact Nat.not_lt_of_le hle hlt

/-! ## The queue -/

/-- What waits in each role. -/
theorem action_of_roleOf (hw : Hardware) (e : Event Task) :
    match hw.roleOf e with
    | .divider => e.action = .divider
    | .counter => e.action = .counter
    | .calendar => e.action = .calendar
    | .live => ∃ transition, e.action = .display hw.display.epoch transition
    | .void => Stale hw e
    | .foreign => True := by
  rw [roleOf]
  cases ha : e.action with
  | divider | counter | calendar => rfl
  | reaction => trivial
  | display epoch transition =>
    by_cases heq : epoch = hw.display.epoch
    · rw [Task.role, if_pos heq]
      exact ⟨transition, by rw [heq]⟩
    by_cases hlt : epoch < hw.display.epoch
    · rw [Task.role, if_neg heq, if_pos hlt]
      exact ⟨epoch, transition, ha, hlt⟩
    · rw [Task.role, if_neg heq, if_neg hlt]
      trivial

/-- The events that play a role. -/
def playing (hw : Hardware) (role : Role) : List (Event Task) :=
  hw.clock.queue.filter (hw.roleOf · = role)

theorem length_playing (hw : Hardware) (role : Role) :
    (hw.playing role).length = hw.waiting role :=
  List.countP_eq_length_filter.symm

theorem mem_playing {role : Role} :
    e ∈ hw.playing role ↔ e ∈ hw.clock.queue ∧ hw.roleOf e = role := by
  rw [playing, List.mem_filter, decide_eq_true_eq]

/-- A role that one event plays. -/
theorem exists_playing {role : Role} (h : hw.waiting role = 1) :
    ∃ e, hw.playing role = [e] ∧ hw.roleOf e = role := by
  obtain ⟨e, he⟩ := List.length_eq_one_iff.1 ((hw.length_playing role).trans h)
  have hmem : e ∈ hw.playing role := by
    rw [he]
    exact List.mem_cons_self
  exact ⟨e, he, (mem_playing.1 hmem).2⟩

/-- The queue holds the tasks of the machine's own, and the display is where its next transition
takes it from. -/
structure SingleChain (hw : Hardware) : Prop where
  /-- The display is on when its control byte says so. -/
  control : hw.display.enabled = turnsOn (hw.reg Register.lcdControl)
  /-- One task of each timer waits, one transition that leads out of the present phase while the
  display is on and none while it is off, and beyond these only stale transitions. -/
  queue : ∃ divider counter calendar live stale,
    hw.clock.queue.Perm (divider :: counter :: calendar :: (live ++ stale)) ∧
    divider.action = .divider ∧ counter.action = .counter ∧ calendar.action = .calendar ∧
    live.length = (if hw.display.enabled then 1 else 0) ∧
    (∀ e ∈ live, e.action = .display hw.display.epoch hw.display.phase.exit) ∧
    ∀ e ∈ stale, Stale hw e
  /-- While the display is on, its phase fits its line. -/
  line : hw.display.enabled → (hw.reg Register.line).toNat ≤ 153 ∧
    (hw.display.phase = .vblank ↔ 144 ≤ (hw.reg Register.line).toNat)
  /-- While the display is off, it stays at the top of the picture. -/
  dark : hw.display.enabled = false → hw.reg Register.line = 0 ∧ hw.display.phase = .hblank

theorem Equipped.queue_perm (h : Equipped hw) : ∃ divider counter calendar,
    hw.clock.queue.Perm
      (divider :: counter :: calendar :: (hw.playing .live ++ hw.playing .void)) ∧
    divider.action = .divider ∧ counter.action = .counter ∧ calendar.action = .calendar := by
  obtain ⟨divider, hd, hrd⟩ := exists_playing (h.shares .divider (by decide))
  obtain ⟨counter, hc, hrc⟩ := exists_playing (h.shares .counter (by decide))
  obtain ⟨calendar, hk, hrk⟩ := exists_playing (h.shares .calendar (by decide))
  have hforeign : hw.playing .foreign = [] :=
    List.eq_nil_of_length_eq_zero ((hw.length_playing _).trans (h.shares .foreign (by decide)))
  have hperm := Role.perm_filter hw.roleOf hw.clock.queue
  have had := hw.action_of_roleOf divider
  have hac := hw.action_of_roleOf counter
  have hak := hw.action_of_roleOf calendar
  rw [hrd] at had
  rw [hrc] at hac
  rw [hrk] at hak
  refine ⟨divider, counter, calendar, ?_, had, hac, hak⟩
  simp only [playing] at hd hc hk hforeign ⊢
  rwa [hd, hc, hk, hforeign, List.append_nil] at hperm

theorem Reachable.singleChain (h : Reachable hw) : SingleChain hw := by
  obtain ⟨hw₁, t₀, f₀, log, ht⟩ := h.wired
  refine ⟨hw₁.control, ?_, fun hon ↦ ?_, hw₁.dark⟩
  · obtain ⟨divider, counter, calendar, hperm, hd, hc, hk⟩ := hw₁.queue_perm
    refine ⟨divider, counter, calendar, _, _, hperm, hd, hc, hk, ?_, fun e he ↦ ?_, fun e he ↦ ?_⟩
    · rw [length_playing, hw₁.shares .live (by decide)]
      rfl
    · obtain ⟨hmem, hlive⟩ := mem_playing.1 he
      have hon : hw.display.enabled := by
        by_contra hoff
        refine roleOf_ne_of_waiting ?_ hmem hlive
        rw [hw₁.shares .live (by decide), Role.share, if_neg hoff]
      obtain ⟨y, hb, -⟩ := ht hon
      exact (hb.next e hmem hlive).2
    · have hs := hw.action_of_roleOf e
      rwa [(mem_playing.1 he).2] at hs
  · obtain ⟨y, hb, -⟩ := ht hon
    exact ⟨Nat.le_of_lt_succ hb.placed.lt, hb.placed.vblank⟩

/-! ## Epochs -/

/-- Time that passes stays in its epoch. -/
theorem allowsTurns_epoch :
    AllowsTurns fun hw _ hw' ↦ hw'.display.epoch = hw.display.epoch where
  refl _ := rfl
  trans h h' := h'.trans h
  moment _ _ _ := rfl
  turn h := by
    cases h with
    | tick h => exact congrArg Display.epoch h.quiet.display
    | void => rfl
    | display => exact epoch_followed _ _

/-- Epochs never go back. -/
theorem epoch_le_perform (h : Reachable hw) (op : Operation) :
    hw.display.epoch ≤ (op.perform hw).state.display.epoch := by
  by_cases ha : ∃ cycles, op = .advance cycles
  · obtain ⟨cycles, rfl⟩ := ha
    exact Nat.le_of_eq (allowsTurns_epoch.advance h cycles).symm
  by_cases hc : ∃ value, op = .write Register.lcdControl value
  · obtain ⟨value, rfl⟩ := hc
    rw [Operation.perform]
    rcases write_lcdControl_cases h.wired.1.listens value with ⟨-, ho⟩ | ⟨-, -, ho⟩ | ⟨-, -, ho⟩ <;>
      rw [ho]
    · exact Nat.le_refl _
    · rw [epoch_started]
      exact Nat.le_succ _
    · rw [epoch_stopped]
      exact Nat.le_succ _
  · have hq := quiet_perform h.wired.1.listens (fun cycles he ↦ ha ⟨cycles, he⟩)
      fun value he ↦ hc ⟨value, he⟩
    exact Nat.le_of_eq (congrArg Display.epoch hq.display.symm)

theorem Leads.epoch_le {log : Array Record} (h : Reachable hw) (hl : Leads hw log hw') :
    hw.display.epoch ≤ hw'.display.epoch := by
  induction hl with
  | refl => exact Nat.le_refl _
  | perform op hl ih => exact Nat.le_trans ih (epoch_le_perform (h.leads hl) op)

/-- A stale transition that fires changes nothing but the clock, which was set to its moment. -/
theorem Stale.after_eq {early : Hardware} {cycles : Nat}
    {firings : List (Timed.Firing Task Board)} {o : Outcome Hardware Unit} (h : Reachable hw)
    (hle : early.display.epoch ≤ hw.display.epoch)
    (hd : Timed.Drains fire (hw.now + cycles) hw firings o) {f : Timed.Firing Task Board}
    (hf : f ∈ firings) (hs : Stale early f.event) : f.after = f.before := by
  obtain ⟨hw₁, _, _, _, ht⟩ := h.wired
  obtain ⟨_, hepoch⟩ := (allowsTurns_epoch.window (.start hw₁ ht cycles) hd).1 f hf
  obtain ⟨result, records, hfire⟩ := hd.fired f hf
  rw [hs.fire_eq (Nat.le_trans hle (Nat.le_of_eq hepoch.symm))] at hfire
  exact (congrArg Outcome.state hfire).symm

end Hardware

namespace Console

open Hardware (SingleChain Stale fire)

/-- **There is a single chain of transitions.**  However often the display was turned on and off,
the queue of a reachable machine holds one task of each timer, the one transition that leads out of
the present phase while the display is on and none while it is off, and otherwise only stale
transitions.  Whatever is done to the machine before its moment comes, a stale transition stays
stale, and firing it changes nothing but the clock. -/
theorem single_chain (c : Console) (h : Reachable c) :
    SingleChain c.hardware ∧
    ∀ (log : Array Record) (hw : Hardware), Hardware.Leads c.hardware log hw →
      SingleChain hw ∧
      (∀ e, Stale c.hardware e → Stale hw e ∧ fire e.action hw = ⟨.ok (), hw, #[]⟩) ∧
      ∀ (cycles : Nat) (firings : List (Timed.Firing Task Board)) (o : Outcome Hardware Unit),
        Timed.Drains fire (hw.now + cycles) hw firings o →
        ∀ f ∈ firings, Stale c.hardware f.event → f.after = f.before := by
  refine ⟨h.hardware.singleChain, fun log hw hl ↦ ?_⟩
  have hr := h.hardware.leads hl
  have hle := hl.epoch_le h.hardware
  refine ⟨hr.singleChain, fun e hs ↦ ⟨?_, hs.fire_eq hle⟩, fun cycles firings o hd f hf hs ↦
    hs.after_eq hr hle hd hf⟩
  obtain ⟨epoch, transition, ha, hlt⟩ := hs
  exact ⟨epoch, transition, ha, Nat.lt_of_lt_of_le hlt hle⟩

/-! ## A stale transition -/

/-- The machine after its display was turned off and on again at once. -/
def toggled (c : Console) : Console :=
  ⟨c.cpu, ((c.hardware.put Register.lcdControl 0x11).stopped.put Register.lcdControl 0x91).started⟩

section

variable {c : Console}

theorem Reachable.toggled (h : Reachable c) (hon : c.hardware.display.enabled = true) :
    Reachable c.toggled := by
  have hl := h.hardware.wired.1.listens
  let off : Console := ⟨c.cpu, (c.hardware.put Register.lcdControl 0x11).stopped⟩
  have hoff : ((Operation.write Register.lcdControl 0x11).perform c).state = off := by
    rw [Operation.perform, store, state_onHardware, Hardware.write_lcdControl hl,
      Hardware.controlled, Hardware.display_put, hon, if_neg (by decide), if_neg (by decide)]
  have hl' : Hardware.DisplayListens off.hardware := (Hardware.observers_stopped _).trans hl
  have hon' : ((Operation.write Register.lcdControl 0x91).perform off).state = c.toggled := by
    have he : off.hardware.display.enabled = false := Hardware.enabled_stopped _
    rw [Operation.perform, store, state_onHardware, Hardware.write_lcdControl hl',
      Hardware.controlled, Hardware.display_put, he, if_neg (by decide), if_pos (by decide)]
    rfl
  rw [← hon', ← hoff]
  exact (h.perform _).perform _

/-- What waited for the display still waits, but is stale. -/
theorem stale_toggled {e : Event Task} {transition : Transition}
    (he : e ∈ c.hardware.clock.queue)
    (ha : e.action = .display c.hardware.display.epoch transition) :
    e ∈ c.toggled.hardware.clock.queue ∧ Stale c.toggled.hardware e := by
  refine ⟨?_, _, _, ha, ?_⟩
  · simp only [toggled, Hardware.clock_started, Hardware.clock_put, Hardware.clock_stopped,
      Clock.queue_schedule, Clock.mem_insert]
    exact Or.inr he
  · simp only [toggled, Hardware.epoch_started, Hardware.display_put, Hardware.epoch_stopped]
    omega

end

/-- An empty cartridge whose display was turned off and on again at once: the transition that was
planned first still waits, but is stale. -/
theorem single_chain_toggled : SingleChain blank.toggled.hardware ∧
    ∃ e ∈ blank.toggled.hardware.clock.queue, Stale blank.toggled.hardware e ∧
      fire e.action blank.toggled.hardware = ⟨.ok (), blank.toggled.hardware, #[]⟩ := by
  have hblank : blank.hardware = (Hardware.armed (.plain Hardware.emptyImage)).started := by
    rw [blank, Hardware.powerOn_eq]
  have hon : blank.hardware.display.enabled = true := by
    rw [hblank, Hardware.enabled_started]
  obtain ⟨hchain, hleads⟩ := single_chain _ (reachable_blank.toggled hon)
  obtain ⟨e, he, ha⟩ : ∃ e ∈ blank.hardware.clock.queue,
      e.action = .display blank.hardware.display.epoch .draw := by
    rw [hblank, Hardware.clock_started, Hardware.epoch_started]
    exact ⟨_, Clock.mem_insert.2 (Or.inl rfl), rfl⟩
  obtain ⟨hmem, hstale⟩ := stale_toggled he ha
  exact ⟨hchain, e, hmem, hstale, ((hleads _ _ .refl).2.1 e hstale).2⟩

end Console

end DotMatrix
