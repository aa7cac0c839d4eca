import DotMatrix.Proofs.Hardware.Passing

/-!
# What can happen to the hardware

The hardware is started with a cartridge, and then the processor and the player act on it: they
write to the bus, let time pass, withdraw a request that is served, and press or release buttons.
`Operation` is one such act and `Leads` is any number of them, each of which may have failed.

* `Reachable` — hardware that was started with an accepted cartridge and acted on since.
* `Reachable.wired` — it is wired.
* `Reachable.returns` — so time that passes on it always comes to an end, without a fault.
-/

set_option autoImplicit false

namespace DotMatrix.Hardware

/-! ## Operations -/

/-- Press or release a button; a new press requests an interrupt. -/
def press (button : Button) (pressed : Bool) : Exec Hardware Unit := do
  let isNew ← Exec.gets fun hw ↦ hw.body.bus.joypad.isNewPress button pressed
  onBus (Exec.modify fun b ↦ { b with joypad := b.joypad.update button pressed })
  if isNew then
    Exec.report (.buttonPressed button)
    requestInterrupt .joypad

/-- An act of the processor or the player on the hardware. -/
inductive Operation where
  | write (addr : UInt16) (value : UInt8)
  | advance (cycles : Nat)
  | withdraw (source : Interrupt)
  | press (button : Button) (pressed : Bool)

/-- Carry out an operation. -/
def Operation.perform : Operation → Exec Hardware Unit
  | .write addr value => Hardware.write addr value
  | .advance cycles => Hardware.advance cycles
  | .withdraw source => onBus (Exec.modify (Bus.withdrawInterrupt source))
  | .press button pressed => Hardware.press button pressed

/-- Operations lead from one state to another, and these are the records that they leave. -/
inductive Leads (hw : Hardware) : Array Record → Hardware → Prop where
  | refl : Leads hw #[] hw
  | perform {log : Array Record} {hw' : Hardware} (op : Operation) (h : Leads hw log hw') :
      Leads hw (log ++ (op.perform hw').records) (op.perform hw').state

/-- Hardware that was started with an accepted cartridge and acted on since. -/
inductive Reachable : Hardware → Prop where
  | powerOn {image : Array UInt8} {cartridge : Cartridge}
      (h : Cartridge.ofImage image = .ok cartridge) : Reachable (powerOn cartridge).1
  | perform {hw : Hardware} (op : Operation) (h : Reachable hw) :
      Reachable (op.perform hw).state

theorem leads_one (op : Operation) (hw : Hardware) :
    Leads hw (op.perform hw).records (op.perform hw).state := by
  have h := Leads.perform op (@Leads.refl hw)
  rwa [Array.empty_append] at h

theorem Leads.trans {hw hw' hw'' : Hardware} {log log' : Array Record} (h : Leads hw log hw')
    (h' : Leads hw' log' hw'') : Leads hw (log ++ log') hw'' := by
  induction h' with
  | refl => rwa [Array.append_empty]
  | perform op _ ih =>
    rw [← Array.append_assoc]
    exact .perform op ih

theorem Reachable.leads {hw hw' : Hardware} {log : Array Record} (h : Reachable hw)
    (hl : Leads hw log hw') : Reachable hw' := by
  induction hl with
  | refl => exact h
  | perform op _ ih => exact .perform op ih

/-! ## Quiet operations -/

theorem quiet_withdraw (source : Interrupt) (hw : Hardware) :
    Quiet hw #[] ((Operation.withdraw source).perform hw).state :=
  quiet_put (by decide) (by decide) (by decide) _ hw rfl

theorem quiet_press (button : Button) (pressed : Bool) (hw : Hardware) :
    Quiet hw (press button pressed hw).records (press button pressed hw).state := by
  let held : Hardware := { hw with body := { hw.body with
    bus := { hw.body.bus with joypad := hw.body.bus.joypad.update button pressed } } }
  have hheld : onBus (Exec.modify fun b ↦ { b with joypad := b.joypad.update button pressed }) hw =
      ⟨.ok (), held, #[]⟩ := rfl
  have hq : Quiet hw #[] held := ⟨rfl, rfl, rfl, rfl, rfl, rfl, rfl⟩
  rw [press, Exec.bind_gets, Exec.bind_of_ok hheld, Outcome.after_empty]
  split
  · rw [Exec.bind_report, requestInterrupt_apply]
    have hreport : Quiet held #[.notice (.buttonPressed button)] held :=
      ⟨rfl, rfl, rfl, rfl, rfl, rfl, rfl⟩
    have hrequest : Quiet held #[.notice (.interruptRequested .joypad)] (held.requesting .joypad) :=
      quiet_requesting (by decide) held
    have h := quiet_chains.trans hq (quiet_chains.trans hreport hrequest)
    rwa [Array.empty_append] at h
  · exact hq

/-- A button reaches no register but the requests. -/
theorem reg_press (button : Button) (pressed : Bool) (hw : Hardware) {addr : UInt16}
    (h : Register.interruptRequest.toUInt8 ≠ addr.toUInt8) :
    (press button pressed hw).state.reg addr = hw.reg addr := by
  rw [press, Exec.bind_gets]
  split
  · exact reg_requesting .joypad { hw with body := { hw.body with
      bus := { hw.body.bus with joypad := hw.body.bus.joypad.update button pressed } } } h
  · rfl

/-! ## Power -/

/-- Hardware with a cartridge, whose timers wait. -/
def timed (cartridge : Cartridge) : Hardware :=
  let blank : Hardware := { clock := {}, body := { bus := .start cartridge } }
  ((blank.later dividerCycles .divider).later
    (counterCycles (blank.reg Register.timerControl)) .counter).later secondCycles .calendar

/-- The same hardware with its display listening, but not yet turned on. -/
def armed (cartridge : Cartridge) : Hardware :=
  { timed cartridge with
    body := { (timed cartridge).body with observers := [(Register.lcdControl, .display)] } }

theorem reg_armed (cartridge : Cartridge) : (armed cartridge).reg Register.lcdControl = 0x91 :=
  rfl

/-- The hardware starts with its display turned on. -/
theorem powerOn_eq (cartridge : Cartridge) :
    powerOn cartridge = ((armed cartridge).started, (armed cartridge).startRecords) := by
  have hs : start { clock := {}, body := { bus := .start cartridge } } =
      ⟨.ok (), (armed cartridge).started, (armed cartridge).startRecords⟩ := by
    have ht : startTimers { clock := {}, body := { bus := .start cartridge } } =
        ⟨.ok (), timed cartridge, #[]⟩ := by
      simp only [startTimers, counterPeriod_eq]
      rfl
    have hw : watch Register.lcdControl .display (timed cartridge) =
        ⟨.ok (), armed cartridge, #[]⟩ := rfl
    rw [start, Exec.bind_of_ok ht, Exec.bind_of_ok hw, bind_register, reg_armed, if_pos (by decide),
      startDisplay_apply, Outcome.after_empty, Outcome.after_empty]
  rw [powerOn, hs]

theorem now_powerOn (cartridge : Cartridge) : (powerOn cartridge).1.now = 0 := by
  rw [powerOn_eq, Timed.now, clock_started]
  rfl

/-- The tasks of the timers wait for their first period. -/
theorem mem_queue_armed {cartridge : Cartridge} {event : Event Task}
    (h : event ∈ (armed cartridge).clock.queue) :
    event = ⟨dividerCycles, 0, .divider⟩ ∨ event = ⟨counterCycles 0xf8, 1, .counter⟩ ∨
      event = ⟨secondCycles, 2, .calendar⟩ := by
  have hq : (armed cartridge).clock = ((({} : Clock Task).schedule dividerCycles .divider).schedule
      (counterCycles 0xf8) .counter).schedule secondCycles .calendar := rfl
  rw [hq, Clock.queue_schedule, Clock.mem_insert, Clock.queue_schedule, Clock.mem_insert,
    Clock.queue_schedule, Clock.mem_insert] at h
  rcases h with rfl | rfl | rfl | h
  · exact Or.inr (Or.inr rfl)
  · exact Or.inr (Or.inl rfl)
  · exact Or.inl rfl
  · cases h

/-- Nothing fires before the first line is scanned for sprites. -/
theorem le_target_started (cartridge : Cartridge) {event : Event Task}
    (h : event ∈ (armed cartridge).started.clock.queue) : oamScanCycles ≤ event.target := by
  rw [clock_started, Clock.queue_schedule, Clock.mem_insert] at h
  rcases h with rfl | h
  · exact Nat.le_add_left oamScanCycles _
  rcases mem_queue_armed h with rfl | rfl | rfl <;> decide

theorem equipped_armed (cartridge : Cartridge) : Equipped (armed cartridge) where
  sound := ((Clock.sound_empty.schedule _ _).schedule _ _).schedule _ _
  listens := rfl
  shares role hr := by
    show (timed cartridge).waiting role = _
    rw [timed, waiting_later, waiting_later, waiting_later]
    cases role with
    | void => exact absurd rfl hr
    | divider | counter | calendar | live | foreign => rfl

theorem wired_powerOn (cartridge : Cartridge) : Wired (powerOn cartridge).1 := by
  rw [powerOn_eq]
  exact .started (equipped_armed cartridge) (by rw [reg_armed]; rfl)

theorem tracks_powerOn (cartridge : Cartridge) :
    Tracks 0 0 (powerOn cartridge).1.now (powerOn cartridge).2 (powerOn cartridge).1 := by
  rw [powerOn_eq]
  exact fun _ ↦ ⟨0, .started (equipped_armed cartridge), Or.inl rfl, Beam.pictures_startRecords⟩

/-! ## What every operation keeps -/

variable {hw : Hardware} {t₀ f₀ : Nat} {log : Array Record}

theorem Tracks.quiet {hw' : Hardware} {records : Array Record}
    (h : Tracks t₀ f₀ hw.now log hw) (hq : Quiet hw records hw') :
    Tracks t₀ f₀ hw'.now (log ++ records) hw' := by
  intro hon
  rw [hq.display] at hon
  obtain ⟨y, hb, hy, hl⟩ := h hon
  refine ⟨y, hb.quiet hq, ?_, ?_⟩
  · rwa [Timed.now, hq.clock]
  · rw [pictures_append, hq.pictures, List.append_nil, hl]

/-- The operations that the display does not notice. -/
theorem quiet_perform (hl : DisplayListens hw) {op : Operation}
    (ha : ∀ cycles, op ≠ .advance cycles) (hc : ∀ value, op ≠ .write Register.lcdControl value) :
    Quiet hw (op.perform hw).records (op.perform hw).state := by
  cases op with
  | write addr value =>
    have hne : addr ≠ Register.lcdControl := fun he ↦ hc value (by rw [he])
    rw [Operation.perform, write_of_ne hl hne]
    exact quiet_bus_write hne value hw
  | advance cycles => exact absurd rfl (ha cycles)
  | withdraw source => exact quiet_withdraw source hw
  | press button pressed => exact quiet_press button pressed hw

/-- Operations other than time let the first transition of the display wait at most. -/
theorem clock_perform_cases (hl : DisplayListens hw) {op : Operation}
    (ha : ∀ cycles, op ≠ .advance cycles) :
    (op.perform hw).state.clock = hw.clock ∨ ∃ epoch transition,
      (op.perform hw).state.clock =
        hw.clock.schedule oamScanCycles (.display epoch transition) := by
  by_cases hc : ∃ value, op = .write Register.lcdControl value
  · obtain ⟨value, rfl⟩ := hc
    rw [Operation.perform]
    rcases write_lcdControl_cases hl value with ⟨-, hop⟩ | ⟨-, -, hop⟩ | ⟨-, -, hop⟩ <;> rw [hop]
    · exact Or.inl rfl
    · exact Or.inr ⟨_, _, clock_started _⟩
    · exact Or.inl (clock_stopped _)
  · exact Or.inl (quiet_perform hl ha fun value he ↦ hc ⟨value, he⟩).clock

/-- An operation leaves the display on or off, or it is a write to the control byte that turns it on
or off. -/
theorem perform_cases (h : Wired hw) (ht : Tracks t₀ f₀ hw.now log hw) (op : Operation) :
    (Wired (op.perform hw).state ∧ (op.perform hw).state.display.enabled = hw.display.enabled ∧
      Tracks t₀ f₀ (op.perform hw).state.now (log ++ (op.perform hw).records)
        (op.perform hw).state) ∨
    (∃ value, op = .write Register.lcdControl value ∧ hw.display.enabled = false ∧ turnsOn value ∧
      op.perform hw = ⟨.ok (), (hw.put Register.lcdControl value).started,
        #[.notice .displayEnabled] ++ (hw.put Register.lcdControl value).startRecords⟩) ∨
    ∃ value, op = .write Register.lcdControl value ∧ hw.display.enabled ∧
      turnsOn value = false ∧
      op.perform hw = ⟨.ok (), (hw.put Register.lcdControl value).stopped,
        #[.notice .displayDisabled]⟩ := by
  by_cases ha : ∃ cycles, op = .advance cycles
  · obtain ⟨cycles, rfl⟩ := ha
    obtain ⟨firings, hw', records, hdrain, -, hruns⟩ := advance_wired h ht cycles
    have hop : (Operation.advance cycles).perform hw = ⟨.ok (), hw', records⟩ := hdrain.advance_eq
    have hnow : hw'.now = hw.now + cycles := hdrain.now_of_ok rfl
    rw [hop]
    refine Or.inl ⟨hruns.wired, hruns.enabled, ?_⟩
    rw [hnow]
    exact hruns.tracks
  by_cases hc : ∃ value, op = .write Register.lcdControl value
  · obtain ⟨value, rfl⟩ := hc
    rcases write_lcdControl_cases h.listens value with ⟨he, hop⟩ | ⟨hoff, hv, hop⟩ | ⟨hon, hv, hop⟩
    · rw [Operation.perform, hop]
      refine Or.inl ⟨h.untouched he, rfl, fun hon ↦ ?_⟩
      obtain ⟨y, hb, hy, hl⟩ := ht hon
      refine ⟨y, hb.keep hb.begun (reg_put_of_ne _ _ (by decide)) rfl fun _ hm _ ↦ hm, hy, ?_⟩
      rwa [Array.append_empty]
    · exact Or.inr (Or.inl ⟨value, rfl, hoff, hv, hop⟩)
    · exact Or.inr (Or.inr ⟨value, rfl, hon, hv, hop⟩)
  · have hq : Quiet hw (op.perform hw).records (op.perform hw).state :=
      quiet_perform h.listens (fun cycles he ↦ ha ⟨cycles, he⟩) fun value he ↦ hc ⟨value, he⟩
    exact Or.inl ⟨h.quiet hq, by rw [hq.display], ht.quiet hq⟩

/-- A display that was turned on starts to be tracked. -/
theorem tracks_started (h : Equipped hw) {records : Array Record} (hp : pictures records = []) :
    Tracks hw.now hw.display.frames hw.started.now records hw.started :=
  fun _ ↦ ⟨0, .started h, Or.inl rfl, hp⟩

/-- Hardware that was started and acted on is wired, and its display is tracked since some time. -/
theorem Reachable.wired (h : Reachable hw) :
    Wired hw ∧ ∃ t₀ f₀ log, Tracks t₀ f₀ hw.now log hw := by
  induction h with
  | powerOn _ => exact ⟨wired_powerOn _, _, _, _, tracks_powerOn _⟩
  | @perform hw op _ ih =>
    obtain ⟨hw₁, t₀, f₀, log, ht⟩ := ih
    rcases perform_cases hw₁ ht op with ⟨hw₂, -, ht'⟩ | ⟨value, -, -, hv, hop⟩ |
      ⟨value, -, -, hv, hop⟩
    · exact ⟨hw₂, _, _, _, ht'⟩
    · rw [hop]
      exact ⟨.started (hw₁.put _ _) (by rwa [reg_put_self]), _, _, _,
        tracks_started (hw₁.put _ _) pictures_empty⟩
    · rw [hop]
      refine ⟨.stopped (hw₁.put _ _) (by rwa [reg_put_self]), 0, 0, #[], fun hon ↦ ?_⟩
      rw [enabled_stopped] at hon
      cases hon

/-- Time that passes on hardware that was started and acted on comes to an end without a fault. -/
theorem Reachable.returns (h : Reachable hw) (cycles : Nat) :
    ∃ firings hw' records,
      Timed.Drains fire (hw.now + cycles) hw firings ⟨.ok (), hw', records⟩ := by
  obtain ⟨hw₁, _, _, _, ht⟩ := h.wired
  obtain ⟨firings, hw', records, hdrain, -⟩ := advance_wired hw₁ ht cycles
  exact ⟨firings, hw', records, hdrain⟩

theorem Reachable.advance_ok (h : Reachable hw) (cycles : Nat) :
    (advance cycles hw).result = .ok () := by
  obtain ⟨firings, hw', records, hdrain⟩ := h.returns cycles
  have ha : advance cycles hw = _ := hdrain.advance_eq
  rw [ha]

theorem Reachable.now_advance (h : Reachable hw) (cycles : Nat) :
    (advance cycles hw).state.now = hw.now + cycles := by
  obtain ⟨firings, hw', records, hdrain⟩ := h.returns cycles
  have ha : advance cycles hw = _ := hdrain.advance_eq
  rw [ha]
  exact hdrain.now_of_ok rfl

/-- A relation that allows every turn of the clock allows time that passes. -/
theorem AllowsTurns.advance {R : Hardware → Array Record → Hardware → Prop} (hR : AllowsTurns R)
    (h : Reachable hw) (cycles : Nat) :
    R hw (advance cycles hw).records (advance cycles hw).state := by
  obtain ⟨hw₁, _, _, _, ht⟩ := h.wired
  obtain ⟨firings, hw', records, hdrain⟩ := h.returns cycles
  have ha : Hardware.advance cycles hw = _ := hdrain.advance_eq
  rw [ha]
  exact (hR.window (.start hw₁ ht cycles) hdrain).2

/-! ## Time in pieces -/

/-- Letting no time pass does nothing. -/
theorem advance_zero (h : hw.clock.Sound) : advance 0 hw = ⟨.ok (), hw, #[]⟩ := by
  exact Timed.advance_of_waiting h.onTime

/-- **Time passes in one go or in pieces.**  On any machine that owns a clock, whatever its actions
do, an advance by `a` and then, if it succeeds, by `b` is an advance by `a + b`; if the first one
fails, it is all that the whole advance does.  So on any hardware a window can be cut into any
number of pieces whose advances come to an end, and on hardware to which nothing was attached they
always do. -/
theorem advance_in_pieces :
    (∀ (ε σ : Type) (fire : ε → Exec (Timed ε σ) Unit) (m : Timed ε σ) (a b : Nat),
      Timed.Returns fire a m →
        (∀ fault, (Timed.advance fire a m).result = .error fault →
          Timed.Returns fire (a + b) m ∧
            Timed.advance fire (a + b) m = Timed.advance fire a m) ∧
        ((Timed.advance fire a m).result = .ok () →
          Timed.Returns fire b (Timed.advance fire a m).state →
            Timed.Returns fire (a + b) m ∧ Timed.advance fire (a + b) m =
              (Timed.advance fire b (Timed.advance fire a m).state).after
                (Timed.advance fire a m).records)) ∧
    (∀ (hw : Hardware) (a : Nat) (pieces : List Nat),
      Timed.ReturnsAll fire (a :: pieces) hw →
        (a :: pieces).forM advance hw = advance (a :: pieces).sum hw) ∧
    ∀ hw : Hardware, Reachable hw → ∀ pieces : List Nat,
      (pieces.forM advance hw).result = .ok () ∧
        pieces.forM advance hw = advance pieces.sum hw := by
  refine ⟨fun ε σ fire m a b ha ↦ ⟨fun fault he ↦ ?_, fun hok hb ↦ ?_⟩, fun hw a pieces h ↦ ?_,
    fun hw h pieces ↦ ?_⟩
  · have hab : Timed.Returns fire (a + b) m :=
      Timed.returns_add_iff.2 ⟨ha, fun hok ↦ by rw [he] at hok; cases hok⟩
    refine ⟨hab, ?_⟩
    rw [Timed.advance_add hab]
    rcases ho : Timed.advance fire a m with ⟨fault' | ⟨⟩, m', records⟩
    · exact Exec.bind_of_error ho _
    · rw [ho] at he
      cases he
  · have hab : Timed.Returns fire (a + b) m := Timed.returns_add_iff.2 ⟨ha, fun _ ↦ hb⟩
    refine ⟨hab, ?_⟩
    rw [Timed.advance_add hab]
    rcases ho : Timed.advance fire a m with ⟨fault | ⟨⟩, m', records⟩
    · rw [ho] at hok
      cases hok
    · exact Exec.bind_of_ok ho _
  · exact Timed.forM_advance a pieces ((Timed.returns_sum_iff a pieces).2 h)
  · have heq : pieces.forM advance hw = advance pieces.sum hw := by
      cases pieces with
      | nil => exact (advance_zero h.wired.1.sound).symm
      | cons a pieces =>
        obtain ⟨firings, hw', records, hdrain⟩ := h.returns (a :: pieces).sum
        exact Timed.forM_advance a pieces ⟨_, _, hdrain⟩
    exact ⟨by rw [heq]; exact h.advance_ok _, heq⟩

/-- The smallest image that is accepted, with nothing in it. -/
def emptyImage : Array UInt8 := Array.replicate imageBankSize 0

theorem emptyImage_accepted : Cartridge.ofImage emptyImage = .ok (.plain emptyImage) := by
  have hs : emptyImage.size = imageBankSize := Array.size_replicate
  have hk : emptyImage[0x0147]?.getD 0 = 0 := by
    simp [emptyImage, imageBankSize]
  rw [Cartridge.ofImage, hs, hk]
  rfl

/-- A frame of an empty cartridge, cut into lines. -/
theorem advance_in_pieces_frame :
    (List.replicate totalLines lineCycles).forM advance (powerOn (.plain emptyImage)).1 =
      advance frameCycles (powerOn (.plain emptyImage)).1 := by
  have hs : (List.replicate totalLines lineCycles).sum = frameCycles := by
    rw [List.sum_replicate_nat, frameCycles, Nat.mul_comm]
  have h := advance_in_pieces.2.2 _ (.powerOn emptyImage_accepted)
    (List.replicate totalLines lineCycles)
  rw [hs] at h
  exact h.2

end DotMatrix.Hardware
