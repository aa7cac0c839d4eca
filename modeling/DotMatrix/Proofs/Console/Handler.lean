import DotMatrix.Proofs.Console.Steps

/-!
# Interrupt handlers

A step that serves an interrupt turns interrupts off.  The handler is guarded when they stay off,
and nothing is served, as long as the handler does not ask for the contrary: by RETI, or by an EI
once the instruction after it has run.

Serving an interrupt does not withdraw the wish to turn interrupts on, though.  If it is served in
the very step that ran EI, the wish is carried into the handler, and granted after the first
instruction of it unless that is DI, which withdraws the wish, or RETI.

* `Still.next`, `Still.iterate` — one step and any number of steps without a wish.
* `guarded_next_iff` — the handler is guarded except exactly when a wish is carried into it.
* `reentrant` — a machine that this happens to.
-/

set_option autoImplicit false

namespace DotMatrix

/-! ## The switches after an instruction -/

section

variable {op : Opcode} {cpu : Cpu} (taken : Bool)

theorem Cpu.settled_false (cpu : Cpu) : cpu.settled false = cpu := rfl

/-- A wish that was there before an instruction is gone after it: granted or withdrawn. -/
theorem Cpu.enablePending_settled_true (cpu : Cpu) : (cpu.settled true).enablePending = false := by
  rw [settled, Bool.true_and]
  cases h : cpu.enablePending with
  | false => rw [if_neg Bool.false_ne_true, h]
  | true => rw [if_pos rfl]

/-- No other opcode than EI leaves a wish to turn interrupts on. -/
theorem enablePending_settled (h : ¬ (op = .ei ∧ cpu.enablePending = false)) :
    ((op.switched taken cpu).settled cpu.enablePending).enablePending = false := by
  cases hp : cpu.enablePending with
  | true => exact Cpu.enablePending_settled_true _
  | false =>
    rw [Cpu.settled_false]
    rcases op.switched_cases cpu taken with ⟨-, hs⟩ | ⟨hop, -⟩ | ⟨-, hs⟩ | ⟨-, -, hs⟩ |
      ⟨-, -, -, hs⟩
    · rw [hs]
    · exact absurd ⟨hop, hp⟩ h
    · rw [hs, hp]
    · rw [hs]
    · rw [hs, hp]

/-- Without a wish only RETI turns interrupts on. -/
theorem interruptsOn_settled (hop : op ≠ .reti) (hoff : cpu.interruptsOn = false)
    (hp : cpu.enablePending = false) :
    ((op.switched taken cpu).settled cpu.enablePending).interruptsOn = false := by
  rw [hp, Cpu.settled_false]
  rcases op.switched_cases cpu taken with ⟨-, hs⟩ | ⟨-, hs⟩ | ⟨-, hs⟩ | ⟨hreti, -⟩ | ⟨-, -, -, hs⟩
  · rw [hs]
  · rw [hs, hoff]
  · rw [hs, hoff]
  · exact absurd hreti hop
  · rw [hs, hoff]

/-- A wish is granted after any other opcode than DI and RETI. -/
theorem interruptsOn_granted (hdi : op ≠ .di) (hreti : op ≠ .reti)
    (hp : cpu.enablePending = true) :
    ((op.switched taken cpu).settled cpu.enablePending).interruptsOn = true := by
  have hw : (op.switched taken cpu).enablePending = true := by
    rcases op.switched_cases cpu taken with ⟨hop, -⟩ | ⟨-, hs⟩ | ⟨-, hs⟩ | ⟨hop, -⟩ | ⟨-, -, -, hs⟩
    · exact absurd hop hdi
    · rw [hs]
    · rw [hs, hp]
    · exact absurd hop hreti
    · rw [hs, hp]
  rw [hp, Cpu.settled, hw]
  rfl

end

namespace Console

/-! ## Guarded handlers -/

/-- The next `n` steps succeed, none of them runs RETI, and none but the last runs EI. -/
structure Unconsented (c : Console) (n : Nat) : Prop where
  succeeds : ∀ k < n, Succeeds (next^[k] c)
  no_reti : ∀ k < n, ¬ Executes (next^[k] c) .reti
  no_ei : ∀ k, k + 1 < n → ¬ Executes (next^[k] c) .ei

/-- Interrupts stay off, and none is served, until the running code asks for it. -/
def Guarded (c : Console) : Prop :=
  ∀ n, Unconsented c n →
    (next^[n] c).cpu.interruptsOn = false ∧ ∀ k < n, ¬ Dispatches (next^[k] c)

/-- Interrupts are off, and they are not to be turned on. -/
def Still (c : Console) : Prop := c.cpu.interruptsOn = false ∧ c.cpu.enablePending = false

section

variable {c : Console}

/-- The step runs EI, and nothing wished for interrupts before. -/
def Wishes (c : Console) : Prop := Executes c .ei ∧ c.cpu.enablePending = false

/-- No other step than one that wishes for interrupts keeps a wish. -/
theorem enablePending_check (h : Reachable c) (hw : ¬ Wishes c) {cycles : Nat}
    (hok : (toCheck c).result = .ok cycles) : (toCheck c).state.cpu.enablePending = false := by
  rcases check_cases h hok with ⟨hh, hcpu⟩ | ⟨op, taken, registers, hop, hcpu⟩
  · rw [hcpu]
    exact h.attentive hh
  · rw [hcpu]
    exact enablePending_settled taken fun he ↦ hw ⟨he.1 ▸ hop, he.2⟩

/-- **One step inside a handler.**  Where interrupts are off and not wished for, a step that does
not run RETI serves none and leaves them off, and only EI wishes for them. -/
theorem Still.next (h : Reachable c) (hs : Still c) (hok : Succeeds c)
    (hreti : ¬ Executes c .reti) :
    ¬ Dispatches c ∧ c.next.cpu.interruptsOn = false ∧ (¬ Executes c .ei → Still c.next) := by
  obtain ⟨cycles, hok⟩ := hok.toCheck_ok
  have hoff : (toCheck c).state.cpu.interruptsOn = false := by
    rcases check_cases h hok with ⟨-, hcpu⟩ | ⟨op, taken, registers, hop, hcpu⟩ <;> rw [hcpu]
    · exact hs.1
    · exact interruptsOn_settled taken (fun he ↦ hreti (he ▸ hop)) hs.1 hs.2
  obtain ⟨hd, hon, hp⟩ := next_of_off hoff
  refine ⟨hd, hon, fun hei ↦ ⟨hon, ?_⟩⟩
  rw [hp]
  exact enablePending_check h (fun hw ↦ hei hw.1) hok

/-- As long as neither RETI nor EI is run, interrupts are off and not wished for. -/
theorem Still.iterate (h : Reachable c) (hs : Still c) {n : Nat}
    (hok : ∀ k < n, Succeeds (Console.next^[k] c))
    (hreti : ∀ k < n, ¬ Executes (Console.next^[k] c) .reti)
    (hei : ∀ k < n, ¬ Executes (Console.next^[k] c) .ei) : Still (Console.next^[n] c) := by
  induction n with
  | zero => exact hs
  | succ n ih =>
    have hn : Still (Console.next^[n] c) := ih (fun k hk ↦ hok k (by omega))
      (fun k hk ↦ hreti k (by omega)) fun k hk ↦ hei k (by omega)
    rw [Function.iterate_succ_apply']
    exact (hn.next (h.iterate n) (hok n (by omega)) (hreti n (by omega))).2.2 (hei n (by omega))

/-- Where interrupts are off and not wished for, the running code is guarded. -/
theorem Still.guarded (h : Reachable c) (hs : Still c) : Guarded c := by
  intro n hu
  -- EI may be run by the last step, so the state before it is the last that need be still.
  have hstill : ∀ k < n, Still (Console.next^[k] c) := fun k hk ↦
    hs.iterate h (fun j hj ↦ hu.succeeds j (by omega)) (fun j hj ↦ hu.no_reti j (by omega))
      fun j hj ↦ hu.no_ei j (by omega)
  have hstep : ∀ k, k < n → ¬ Dispatches (Console.next^[k] c) ∧
      (Console.next (Console.next^[k] c)).cpu.interruptsOn = false := fun k hk ↦
    have hk' := (hstill k hk).next (h.iterate k) (hu.succeeds k hk) (hu.no_reti k hk)
    ⟨hk'.1, hk'.2.1⟩
  refine ⟨?_, fun k hk ↦ (hstep k hk).1⟩
  cases n with
  | zero => exact hs.1
  | succ n =>
    rw [Function.iterate_succ_apply']
    exact (hstep n n.lt_succ_self).2

theorem unconsented_one (hs : Succeeds c) (hreti : ¬ Executes c .reti) : Unconsented c 1 where
  succeeds k hk := by
    obtain rfl : k = 0 := Nat.lt_one_iff.1 hk
    exact hs
  no_reti k hk := by
    obtain rfl : k = 0 := Nat.lt_one_iff.1 hk
    exact hreti
  no_ei k hk := absurd hk (Nat.not_lt.2 (Nat.le_add_left 1 k))

theorem Unconsented.tail {n : Nat} (hu : Unconsented c (n + 1)) : Unconsented c.next n where
  succeeds k hk := hu.succeeds (k + 1) (by omega)
  no_reti k hk := hu.no_reti (k + 1) (by omega)
  no_ei k hk := hu.no_ei (k + 1) (by omega)

/-- A handler that starts with DI is guarded, whatever was wished for before. -/
theorem guarded_of_di (h : Reachable c) (hoff : c.cpu.interruptsOn = false)
    (hdi : Executes c .di) : Guarded c := by
  intro n hu
  cases n with
  | zero => exact ⟨hoff, nofun⟩
  | succ n =>
    obtain ⟨cycles, hok⟩ := (hu.succeeds 0 n.succ_pos).toCheck_ok
    have hcheck : ∃ registers, (toCheck c).state.cpu =
        (Opcode.di.switched true c.cpu).withRegisters registers := by
      rcases check_cases h hok with ⟨hh, -⟩ | ⟨op, taken, registers, hop, hcpu⟩
      · rw [hdi.1] at hh
        cases hh
      · obtain rfl := hop.unique hdi
        refine ⟨registers, hcpu.trans ?_⟩
        rw [Cpu.settled]
        cases c.cpu.enablePending <;> rfl
    obtain ⟨registers, hcpu⟩ := hcheck
    obtain ⟨hd, hon, hp⟩ := next_of_off (c := c) (by rw [hcpu]; rfl)
    have hs : Still c.next := ⟨hon, by rw [hp, hcpu]; rfl⟩
    obtain ⟨hlast, hrest⟩ := hs.guarded h.next n hu.tail
    refine ⟨hlast, fun k hk ↦ ?_⟩
    cases k with
    | zero => exact hd
    | succ k => exact hrest k (by omega)

/-- A wish that is carried into a handler is granted there. -/
theorem next_of_wish (h : Reachable c) (hp : c.cpu.enablePending) (hok : Succeeds c)
    (hdi : ¬ Executes c .di) (hreti : ¬ Executes c .reti) :
    Dispatches c ∨ c.next.cpu.interruptsOn := by
  obtain ⟨cycles, hok⟩ := hok.toCheck_ok
  refine next_of_on hok ?_
  rcases check_cases h hok with ⟨hh, -⟩ | ⟨op, taken, registers, hop, hcpu⟩
  · rw [h.attentive hh] at hp
    cases hp
  · rw [hcpu]
    exact interruptsOn_granted taken (fun he ↦ hdi (he ▸ hop)) (fun he ↦ hreti (he ▸ hop)) hp

theorem Wishes.enablePending_check (h : Reachable c) (hw : Wishes c) {cycles : Nat}
    (hok : (toCheck c).result = .ok cycles) : (toCheck c).state.cpu.enablePending := by
  rcases check_cases h hok with ⟨hh, -⟩ | ⟨op, taken, registers, hop, hcpu⟩
  · rw [hw.1.1] at hh
    cases hh
  · obtain rfl := hop.unique hw.1
    rw [hcpu, hw.2]
    rfl

end

/-! ## An interrupt served after EI -/

/-- The hardware with a vertical blank requested and enabled. -/
def prompted (hw : Hardware) : Hardware :=
  (hw.put Register.interruptRequest 0xe1).put Register.interruptEnable 1

theorem request_prompted (hw : Hardware) : (prompted hw).reg Register.interruptRequest = 0xe1 := by
  rw [prompted, Hardware.reg_put_of_ne _ _ (by decide), Hardware.reg_put_self]

theorem pending_prompted (hw : Hardware) :
    (prompted hw).bus.pendingInterrupt? = some .vblank := by
  have he : (prompted hw).reg Register.interruptEnable = 1 := by
    rw [prompted, Hardware.reg_put_self]
  rw [Hardware.pendingInterrupt?_eq (request_prompted hw) he]
  rfl

theorem Reachable.prompted {cpu : Cpu} {hw : Hardware} (h : Reachable ⟨cpu, hw⟩) :
    Reachable ⟨cpu, Console.prompted hw⟩ := by
  have hl : Hardware.DisplayListens hw := h.hardware.wired.1.listens
  have hrequest : Hardware.write Register.interruptRequest 1 hw =
      ⟨.ok (), hw.put Register.interruptRequest 0xe1, #[]⟩ :=
    @Hardware.write_of_stores hw hl Register.interruptRequest 1 0xe1 (by decide) (by decide)
      fun _ ↦ rfl
  have henable : Hardware.write Register.interruptEnable 1 (hw.put Register.interruptRequest 0xe1) =
      ⟨.ok (), Console.prompted hw, #[]⟩ :=
    @Hardware.write_of_stores (hw.put Register.interruptRequest 0xe1) hl Register.interruptEnable 1
      1 (by decide) (by decide) fun _ ↦ rfl
  have hp := (h.perform (.write Register.interruptRequest 1)).perform
    (.write Register.interruptEnable 1)
  rw [Operation.perform, Operation.perform, store, store, state_onHardware, state_onHardware,
    hrequest, henable] at hp
  exact hp

section

variable {hw : Hardware} (hei : hw.bus.cartridge.image[0x100]? = some 0xfb)
  (hnop : hw.bus.cartridge.image[0x40]? = some 0)
  (hq : ∀ event ∈ hw.clock.queue, hw.now + 32 ≤ event.target)

include hq

include hei in
/-- The step that runs EI, up to its interrupt check. -/
theorem toCheck_prompted : ∃ records, Executes ⟨{}, prompted hw⟩ .ei ∧
    toCheck ⟨{}, prompted hw⟩ = ⟨.ok 4, ⟨⟨{ pc := 0x101 }, true, true, false⟩,
      (prompted hw).atTime (hw.now + 4)⟩, records⟩ := by
  have hlater : ∀ event ∈ (prompted hw).clock.queue, (prompted hw).now + 4 ≤ event.target := by
    intro event he
    have hle : hw.now + 32 ≤ event.target := hq event he
    show hw.now + 4 ≤ event.target
    omega
  obtain ⟨records, hf, ht⟩ := toCheck_of_byte (c := ⟨{}, prompted hw⟩)
    (i := ⟨.ei, none, none, 1, 4, none⟩) rfl (show (0x100 : UInt16) < 0x4000 by decide) hei
    (by decide) rfl rfl rfl
    (perform_of_switch (Or.inr (Or.inl rfl)) _) hlater
  exact ⟨records, ⟨rfl, _, hf, rfl⟩, ht⟩

/-- Serving the interrupt that waited for EI. -/
theorem dispatch_prompted (hl : Hardware.DisplayListens hw) : ∃ hw' records,
    dispatch .vblank ⟨⟨{ pc := 0x101 }, true, true, false⟩, (prompted hw).atTime (hw.now + 4)⟩ =
        ⟨.ok 24, ⟨⟨{ sp := 0xfffc, pc := 0x40 }, false, true, false⟩, hw'⟩, records⟩ ∧
      hw'.bus.cartridge = hw.bus.cartridge ∧ hw'.reg Register.interruptRequest = 0xe0 ∧
      ∀ event ∈ hw'.clock.queue, hw'.now + 4 ≤ event.target := by
  let hw₀ : Hardware := (prompted hw).atTime (hw.now + 4)
  let hw₁ : Hardware :=
    hw₀.put Register.interruptRequest (hw₀.reg Register.interruptRequest &&& ~~~ 0x01)
  have hsp : ({} : Registers).sp - 1 = 0xfffd := by decide
  have hsp' : ({} : Registers).sp - 1 - 1 = 0xfffc := by decide
  have hpc : highByte 0x101 = 1 ∧ lowByte 0x101 = 1 := by decide
  have hdrop : ((Hardware.Operation.withdraw .vblank).perform hw₀).state = hw₁ := rfl
  have h₁ : Hardware.write (({} : Registers).sp - 1) (highByte 0x101)
      ((Hardware.Operation.withdraw .vblank).perform hw₀).state =
        ⟨.ok (), hw₁.put 0xfffd 1, #[]⟩ := by
    rw [hsp, hpc.1, hdrop]
    exact @Hardware.write_of_stores hw₁ hl 0xfffd 1 1 (by decide) (by decide) fun _ ↦ rfl
  have h₂ : Hardware.write (({} : Registers).sp - 1 - 1) (lowByte 0x101) (hw₁.put 0xfffd 1) =
      ⟨.ok (), (hw₁.put 0xfffd 1).put 0xfffc 1, #[]⟩ := by
    rw [hsp', hpc.2]
    exact @Hardware.write_of_stores (hw₁.put 0xfffd 1) hl 0xfffc 1 1 (by decide) (by decide)
      fun _ ↦ rfl
  have h₃ : Hardware.advance dispatchCycles ((hw₁.put 0xfffd 1).put 0xfffc 1) =
      ⟨.ok (), ((hw₁.put 0xfffd 1).put 0xfffc 1).atTime (hw.now + 28), #[]⟩ := by
    refine Timed.advance_of_waiting fun event he ↦ ?_
    have hle : hw.now + 32 ≤ event.target := hq event he
    show hw.now + 28 ≤ event.target
    omega
  obtain ⟨records, hd⟩ :=
    dispatch_of_ok (c := ⟨⟨{ pc := 0x101 }, true, true, false⟩, hw₀⟩) h₁ h₂ h₃
  dsimp only at hd
  rw [hsp'] at hd
  refine ⟨_, records, hd, rfl, ?_, hq⟩
  have hr : hw₀.reg Register.interruptRequest = 0xe1 := request_prompted hw
  show ((hw₁.put 0xfffd 1).put 0xfffc 1).reg Register.interruptRequest = _
  rw [Hardware.reg_put_of_ne _ _ (by decide), Hardware.reg_put_of_ne _ _ (by decide),
    Hardware.reg_put_self, hr]
  decide

include hei in
/-- A machine whose program starts with EI serves the interrupt in its first step. -/
theorem step_prompted (hl : Hardware.DisplayListens hw) : ∃ hw' records,
    step ⟨{}, prompted hw⟩ =
        ⟨.ok 28, ⟨⟨{ sp := 0xfffc, pc := 0x40 }, false, true, false⟩, hw'⟩, records⟩ ∧
      Dispatches ⟨{}, prompted hw⟩ ∧ Wishes ⟨{}, prompted hw⟩ ∧
      hw'.bus.cartridge = hw.bus.cartridge ∧ hw'.reg Register.interruptRequest = 0xe0 ∧
      ∀ event ∈ hw'.clock.queue, hw'.now + 4 ≤ event.target := by
  obtain ⟨seen, hei, ht⟩ := toCheck_prompted hei hq
  obtain ⟨hw', served, hd, hrest⟩ := dispatch_prompted hq hl
  have hp : ((prompted hw).atTime (hw.now + 4)).body.bus.pendingInterrupt? = some .vblank :=
    pending_prompted hw
  have hs := serveInterrupts_of_some
    (c := ⟨⟨{ pc := 0x101 }, true, true, false⟩, (prompted hw).atTime (hw.now + 4)⟩) hp
  rw [if_pos rfl, awake_of_running rfl, hd, if_neg Bool.false_ne_true, Outcome.after_empty] at hs
  have hdispatch : Dispatches ⟨{}, prompted hw⟩ := ⟨4, .vblank, by rw [ht]; exact ⟨rfl, rfl, hp⟩⟩
  refine ⟨hw', seen ++ (served ++ #[]), ?_, hdispatch, ⟨hei, rfl⟩, hrest⟩
  rw [step_eq, Exec.bind_of_ok ht, Exec.bind_of_ok hs]
  rfl

include hei hnop in
/-- If its handler starts with NOP and nothing else is due, interrupts are on after the second
step. -/
theorem reenters_prompted (hl : Hardware.DisplayListens hw) :
    Dispatches ⟨{}, prompted hw⟩ ∧ Wishes ⟨{}, prompted hw⟩ ∧ Succeeds ⟨{}, prompted hw⟩ ∧
      Executes (next ⟨{}, prompted hw⟩) .nop ∧ Succeeds (next ⟨{}, prompted hw⟩) ∧
      (next (next ⟨{}, prompted hw⟩)).cpu.interruptsOn := by
  obtain ⟨hw', served, hstep, hdispatch, hwish, hc, hr, hlater⟩ := step_prompted hei hq hl
  have hnext : next ⟨{}, prompted hw⟩ =
      ⟨⟨{ sp := 0xfffc, pc := 0x40 }, false, true, false⟩, hw'⟩ := by
    rw [next, hstep]
  have hnone : hw'.bus.pendingInterrupt? = none := by
    rw [Hardware.pendingInterrupt?_eq hr rfl]
    rfl
  have hb : hw'.bus.cartridge.image[0x40]? = some 0 := by rw [hc]; exact hnop
  refine ⟨hdispatch, hwish, ⟨28, by rw [hstep]⟩, ?_⟩
  rw [hnext]
  obtain ⟨records, hf, ht'⟩ := toCheck_of_byte
    (c := ⟨⟨{ sp := 0xfffc, pc := 0x40 }, false, true, false⟩, hw'⟩)
    (i := ⟨.nop, none, none, 1, 4, none⟩) rfl (show (0x40 : UInt16) < 0x4000 by decide) hb
    (by decide) rfl rfl rfl rfl hlater
  have hstep' := step_of_none ht' hnone
  refine ⟨⟨rfl, _, hf, rfl⟩, ⟨_, by rw [hstep']⟩, ?_⟩
  rw [next, hstep']
  rfl

end

/-! ## Consent -/

/-- **Handlers are guarded, but for a late EI.**  After a step that served an interrupt, interrupts
stay off and none is served until the handler asks for it, except exactly if that step ran EI and
the handler starts with an instruction that succeeds and is neither DI nor RETI. -/
theorem guarded_next_iff {c : Console} (h : Reachable c) (hd : Dispatches c) :
    Guarded c.next ↔
      ¬ (Wishes c ∧ Succeeds c.next ∧ ¬ Executes c.next .di ∧ ¬ Executes c.next .reti) := by
  obtain ⟨hoff, -, hp⟩ := next_of_dispatches hd
  obtain ⟨cycles, source, hok, -⟩ := hd
  constructor
  · rintro hg ⟨hw, hs, hdi, hreti⟩
    obtain ⟨hlast, hnone⟩ := hg 1 (unconsented_one hs hreti)
    rcases next_of_wish h.next (by rw [hp]; exact hw.enablePending_check h hok) hs hdi hreti with
      hd' | hon
    · exact hnone 0 Nat.one_pos hd'
    · rw [Function.iterate_one, hon] at hlast
      cases hlast
  · intro hex
    by_cases hw : Wishes c
    · by_cases hdi : Executes c.next .di
      · exact guarded_of_di h.next hoff hdi
      intro n hu
      cases n with
      | zero => exact ⟨hoff, nofun⟩
      | succ n =>
        exact absurd ⟨hw, hu.succeeds 0 n.succ_pos, hdi, hu.no_reti 0 n.succ_pos⟩ hex
    · exact Still.guarded h.next ⟨hoff, by rw [hp]; exact enablePending_check h hw hok⟩

/-- The empty image with an EI where programs start. -/
def eagerImage : Array UInt8 := Hardware.emptyImage.setIfInBounds 0x100 0xfb

/-- The hardware as it starts with that image. -/
def eagerHardware : Hardware := (Hardware.powerOn (.plain eagerImage)).1

/-- A machine that is about to run EI while an interrupt waits to be served. -/
def eager : Console := ⟨{}, prompted eagerHardware⟩

theorem reachable_eager : Reachable eager := (reachable_booted 0xfb).prompted

/-- Its program starts with EI and its handler with NOP, and nothing is due soon. -/
theorem eagerHardware_ready : eagerHardware.bus.cartridge.image[0x100]? = some 0xfb ∧
    eagerHardware.bus.cartridge.image[0x40]? = some 0 ∧
    (∀ event ∈ eagerHardware.clock.queue, eagerHardware.now + 32 ≤ event.target) ∧
    Hardware.DisplayListens eagerHardware := by
  have hc : eagerHardware.bus.cartridge = .plain eagerImage := cartridge_booted 0xfb
  refine ⟨image_booted 0xfb, ?_, queue_booted 0xfb,
    (Hardware.wired_powerOn (.plain eagerImage)).listens⟩
  rw [hc, Cartridge.plain]
  simp [eagerImage, Hardware.emptyImage, imageBankSize]

/-- That machine carries its wish into the handler. -/
theorem reenters_eager : Dispatches eager ∧ Wishes eager ∧ Succeeds eager ∧
    Executes eager.next .nop ∧ Succeeds eager.next ∧ eager.next.next.cpu.interruptsOn := by
  obtain ⟨hei, hnop, hq, hl⟩ := eagerHardware_ready
  rw [eager]
  exact reenters_prompted hei hnop hq hl

/-- Its handler is not guarded. -/
theorem not_guarded_eager : Reachable eager ∧ Dispatches eager ∧ ¬ Guarded eager.next := by
  obtain ⟨hd, hw, -, hnop, hs, -⟩ := reenters_eager
  refine ⟨reachable_eager, hd, fun hg ↦ ?_⟩
  refine (@guarded_next_iff eager reachable_eager hd).1 hg ⟨hw, hs, fun hdi ↦ ?_, fun hreti ↦ ?_⟩
  · cases hnop.unique hdi
  · cases hnop.unique hreti

/-- **Handlers can be re-entered without consent.**  An interrupt is served in the step that runs
EI, and although the handler has run nothing but a NOP, interrupts are on again. -/
theorem reentrant : Reachable eager ∧ Dispatches eager ∧ Executes eager .ei ∧
    Unconsented eager.next 1 ∧ eager.next.next.cpu.interruptsOn := by
  obtain ⟨hd, hw, -, hnop, hs, hon⟩ := reenters_eager
  have hreti : ¬ Executes eager.next .reti := fun hreti ↦ by cases hnop.unique hreti
  exact ⟨reachable_eager, hd, hw.1, unconsented_one hs hreti, hon⟩

end Console

end DotMatrix
