import DotMatrix.Proofs.Console.Waiting
import DotMatrix.Proofs.Range.Console

/-!
# Halting is idling

A processor that halted lets time pass, four cycles at a step, and looks for an interrupt after
each of them.  Until one is requested and enabled nothing else happens: however many steps this
takes, they leave what a single advance of the hardware by their time leaves.

* `Reachable.behindHalt` — a halted processor stands right behind a HALT that it ran.
* `idled c k` — the machine after `4 * k` cycles on its hardware, and `step_idled`, what a step of
  it does.
* `dozes_iff`, `Dozes.steps_eq` — the machine stays halted as long as nothing is awaited, and all
  its steps together are one advance.
* `halt_idles` — these together, and what the step does in which something is awaited at last.
-/

set_option autoImplicit false

namespace DotMatrix

/-! ## Time in one go -/

namespace Hardware

variable {hw : Hardware}

/-- The hardware once time has passed on it. -/
def passed (hw : Hardware) (cycles : Nat) : Hardware := (advance cycles hw).state

/-- What is reported meanwhile. -/
def reported (hw : Hardware) (cycles : Nat) : Array Record := (advance cycles hw).records

theorem Reachable.passed (h : Reachable hw) (cycles : Nat) : Reachable (hw.passed cycles) :=
  h.perform (.advance cycles)

theorem Reachable.advance_eq (h : Reachable hw) (cycles : Nat) :
    advance cycles hw = ⟨.ok (), hw.passed cycles, hw.reported cycles⟩ := by
  have hok := h.advance_ok cycles
  rcases ha : advance cycles hw with ⟨result, hw', records⟩
  rw [ha] at hok
  obtain rfl : result = .ok () := hok
  rw [Hardware.passed, reported, ha]

/-- Time passes in one go or in two. -/
theorem Reachable.advance_add (h : Reachable hw) (a b : Nat) :
    advance (a + b) hw =
      ⟨.ok (), (hw.passed a).passed b, hw.reported a ++ (hw.passed a).reported b⟩ := by
  obtain ⟨firings, hw', records, hd⟩ := h.returns (a + b)
  have hadd : advance (a + b) hw = (do advance a; advance b : Exec Hardware Unit) hw :=
    Timed.advance_add ⟨firings, _, hd⟩
  rw [hadd, Exec.bind_of_ok (h.advance_eq a), (h.passed a).advance_eq]
  rfl

theorem Reachable.passed_add (h : Reachable hw) (a b : Nat) :
    hw.passed (a + b) = (hw.passed a).passed b := by
  rw [Hardware.passed, h.advance_add]

theorem Reachable.reported_add (h : Reachable hw) (a b : Nat) :
    hw.reported (a + b) = hw.reported a ++ (hw.passed a).reported b := by
  rw [reported, h.advance_add]

theorem Reachable.advance_zero (h : Reachable hw) : advance 0 hw = ⟨.ok (), hw, #[]⟩ :=
  Hardware.advance_zero h.wired.1.sound

theorem Reachable.passed_zero (h : Reachable hw) : hw.passed 0 = hw := by
  rw [Hardware.passed, h.advance_zero]

theorem Reachable.reported_zero (h : Reachable hw) : hw.reported 0 = #[] := by
  rw [reported, h.advance_zero]

/-- Neither the display nor the timers choose which interrupts are enabled. -/
theorem enable_covers :
    CoversTime fun hw hw' ↦ hw'.reg Register.interruptEnable = hw.reg Register.interruptEnable where
  toCoversDisplay := reg_covers (by decide) (by decide) (by decide)
  divider hw value := reg_put_of_ne hw value (by decide)
  counter hw value := reg_put_of_ne hw value (by decide)
  calendar _ := rfl

/-- If none is enabled, none will ever be awaited. -/
theorem Reachable.awaited_passed (h : Reachable hw) (hoff : hw.reg Register.interruptEnable = 0)
    (cycles : Nat) : (hw.passed cycles).awaited = 0 := by
  have hkept := enable_covers.allowsTurns.advance h cycles
  rw [awaited, Hardware.passed, hkept, hoff, UInt8.zero_and, UInt8.zero_and]

end Hardware

namespace Instruction

variable {σ : Type} {read : UInt16 → Exec σ UInt8} {pc : UInt16} {s : σ}

/-- HALT is one byte long. -/
theorem length_halt {i : Instruction} (h : (decode read Exec.fail pc s).result = .ok i)
    (hi : i.opcode = .halt) : i.length = 1 := by
  revert hi
  refine of_decode (P := fun i ↦ i.opcode = .halt → i.length = 1) h (fun _ hi ↦ hi)
    (fun ht ↦ ?_) (fun ht ↦ ?_)
  all_goals
    apply forall_template ht
    decide +kernel

end Instruction

namespace Console

open Hardware (passed reported)

variable {c : Console} {k : Nat}

/-! ## A halted machine -/

/-- The machine after things were done to it from outside, the newest first. -/
def afterwards : List Operation → Console → Console
  | [], c => c
  | op :: older, c => (op.perform (afterwards older c)).state

/-- The machine ran a HALT, and whatever was done to it since left the processor as it was then:
behind that instruction. -/
structure BehindHalt (c start : Console) : Prop where
  reachable : Reachable start
  executes : Executes start .halt
  since : ∃ ops, c = afterwards ops start.next
  cpu : c.cpu = start.next.cpu
  registers : c.cpu.registers = { start.cpu.registers with pc := start.cpu.registers.pc + 1 }

theorem BehindHalt.perform {start : Console} (h : BehindHalt c start) {op : Operation}
    (hcpu : (op.perform c).state.cpu = c.cpu) : BehindHalt (op.perform c).state start where
  reachable := h.reachable
  executes := h.executes
  since := by
    obtain ⟨ops, rfl⟩ := h.since
    exact ⟨op :: ops, rfl⟩
  cpu := hcpu.trans h.cpu
  registers := by rw [hcpu, h.registers]

/-- What a step does to a halted processor, if anything, is to end the halt. -/
theorem cpu_next_of_halted (h : Hardware.Reachable c.hardware) (hh : c.cpu.halted)
    (hnext : c.next.cpu.halted) : c.next.cpu = c.cpu := by
  rcases next_cases c with ⟨fault, he, -⟩ | ⟨cycles, -, hn⟩
  · rw [toCheck_of_halted hh, idle_eq h] at he
    cases he
  rw [hn] at hnext ⊢
  rw [toCheck_of_halted hh, idle_eq h] at hnext ⊢
  generalize hc : (⟨c.cpu, _⟩ : Console) = checked at hnext ⊢
  cases hp : checked.hardware.body.bus.pendingInterrupt? with
  | none =>
    rw [serveInterrupts_of_none hp, ← hc]
  | some source =>
    obtain ⟨registers, hcpu⟩ := cpu_serveInterrupts hp
    rw [hcpu] at hnext
    cases hnext

/-- A step after which the processor is halted, and was not before, ran a HALT. -/
theorem behindHalt_next (h : Reachable c) (hh : c.cpu.halted = false) (hnext : c.next.cpu.halted) :
    BehindHalt c.next c := by
  rcases next_cases c with ⟨fault, he, hn⟩ | ⟨cycles, hok, hn⟩
  · obtain ⟨registers, hcpu⟩ := keeps_toCheck_of_error h.hardware he
    rw [hn, hcpu, Cpu.halted_withRegisters, hh] at hnext
    cases hnext
  cases hp : (toCheck c).state.hardware.body.bus.pendingInterrupt? with
  | some source =>
    obtain ⟨registers, hcpu⟩ := cpu_serveInterrupts hp
    rw [hn, hcpu] at hnext
    cases hnext
  | none =>
  rw [serveInterrupts_of_none hp] at hn
  have hrun := toCheck_of_running hh
  rcases runInstruction_cases h.hardware with ⟨fault, seen, -, hr⟩ | ⟨i, seen, hf,
    ⟨fault, c', done, -, hr⟩ | ⟨taken, c', done, hw, ticks, hperform, -, hr⟩⟩
  · rw [hrun, hr] at hok
    cases hok
  · rw [hrun, hr] at hok
    cases hok
  have hcpu : c.next.cpu = c'.cpu.settled c.cpu.enablePending := by
    rw [hn, hrun, hr]
  have hop : i.opcode = .halt := by
    by_contra hop
    obtain ⟨registers, hs⟩ := (switches_perform i (past i c)).of_ok taken (by rw [hperform])
    rw [hperform] at hs
    rw [hcpu, halted_settled, show c'.cpu = _ from hs, Cpu.halted_withRegisters,
      halted_switched hop] at hnext
    rw [past, Cpu.halted_withRegisters, hh] at hnext
    cases hnext
  have hlength : i.length = 1 := Instruction.length_halt (decode_of_fetch (by rw [hf])) hop
  rw [perform_of_switch (Or.inr (Or.inr hop)), hop] at hperform
  cases hperform
  exact {
    reachable := h
    executes := ⟨hh, i, by rw [hf], hop⟩
    since := ⟨[], rfl⟩
    cpu := rfl
    registers := by
      rw [hcpu, past, hlength, Opcode.switched_withRegisters, Cpu.settled_withRegisters]
      rfl }

/-- A halted processor stands behind a HALT that it ran. -/
theorem Reachable.behindHalt (h : Reachable c) (hh : c.cpu.halted) :
    ∃ start, BehindHalt c start := by
  induction h with
  | powerOn h =>
    obtain ⟨_, -, rfl⟩ := powerOn_cases h
    cases hh
  | @perform c op h ih =>
    have hkept : (op.perform c).state.cpu = c.cpu →
        ∃ start, BehindHalt (op.perform c).state start := fun hcpu ↦ by
      rw [hcpu] at hh
      obtain ⟨start, hstart⟩ := ih hh
      exact ⟨start, hstart.perform hcpu⟩
    cases op with
    | write addr value => exact hkept rfl
    | advance cycles => exact hkept rfl
    | press button pressed =>
      refine hkept ?_
      rw [Operation.perform, pressButton_eq]
      rfl
    | step =>
      rw [state_perform_step] at hh hkept ⊢
      cases hrun : c.cpu.halted with
      | true => exact hkept (cpu_next_of_halted h.hardware hrun hh)
      | false => exact ⟨c, behindHalt_next h hrun hh⟩

/-! ## A step of a halted machine -/

/-- The machine after its processor idled for `k` steps. -/
def idled (c : Console) (k : Nat) : Console := ⟨c.cpu, c.hardware.passed (haltCycles * k)⟩

theorem idled_zero (h : Hardware.Reachable c.hardware) : c.idled 0 = c := by
  rw [idled, Nat.mul_zero, h.passed_zero]

theorem toCheck_idled (h : Hardware.Reachable c.hardware) (hh : c.cpu.halted) (k : Nat) :
    toCheck (c.idled k) =
      ⟨.ok haltCycles, c.idled (k + 1), (c.idled k).hardware.reported haltCycles⟩ := by
  have hk : Hardware.Reachable (c.idled k).hardware := h.passed _
  rw [toCheck_of_halted (c := c.idled k) hh, idle_eq hk, idled, idled, Nat.mul_succ, h.passed_add]
  rfl

/-- While nothing is awaited a step idles. -/
theorem step_idled (h : Hardware.Reachable c.hardware) (hh : c.cpu.halted)
    (hnone : (c.idled (k + 1)).hardware.awaited = 0) :
    step (c.idled k) =
      ⟨.ok haltCycles, c.idled (k + 1), (c.idled k).hardware.reported haltCycles⟩ :=
  step_of_none (toCheck_idled h hh k) ((Hardware.pendingInterrupt?_eq_none_iff _).2 hnone)

/-- Once something is awaited a step ends the halt: it serves the most urgent source, if interrupts
are on, and does nothing else if they are off. -/
structure Wakes (c checked : Console) : Prop where
  awaited : checked.hardware.awaited ≠ 0
  halted : c.next.cpu.halted = false
  of_off : checked.cpu.interruptsOn = false → ¬ Dispatches c ∧
    (step c).result = .ok haltCycles ∧ c.next = checked.awake
  of_on : checked.cpu.interruptsOn → Dispatches c ∧ ∃ source : Interrupt,
    checked.hardware.awaited &&& source.mask ≠ 0 ∧
    (∀ other : Interrupt,
      checked.hardware.awaited &&& other.mask ≠ 0 → source.mask ≤ other.mask) ∧
    c.next = (dispatch source checked.awake).state ∧
    ∀ n, (step c).result = .ok n → n = haltCycles + dispatchCycles ∧
      c.next.cpu.registers.pc = source.vector ∧ c.next.cpu.interruptsOn = false

theorem wakes_idled (h : Hardware.Reachable c.hardware) (hh : c.cpu.halted)
    (hsome : (c.idled (k + 1)).hardware.awaited ≠ 0) : Wakes (c.idled k) (c.idled (k + 1)) := by
  have ht := toCheck_idled h hh k
  obtain ⟨source, hp⟩ : ∃ source,
      (c.idled (k + 1)).hardware.bus.pendingInterrupt? = some source :=
    Option.ne_none_iff_exists'.1 fun hnone ↦
      hsome ((Hardware.pendingInterrupt?_eq_none_iff _).1 hnone)
  have hserve := serveInterrupts_of_some hp
  obtain ⟨registers, hcpu⟩ := cpu_serveInterrupts hp
  have hnext : (c.idled k).next = (serveInterrupts (c.idled (k + 1))).state := by
    rcases next_cases (c.idled k) with ⟨fault, he, -⟩ | ⟨cycles, -, hn⟩
    · rw [ht] at he
      cases he
    · rw [hn, ht]
  refine ⟨hsome, by rw [hnext, hcpu]; rfl, fun hoff ↦ ?_, fun hon ↦ ?_⟩
  · rw [hoff, if_neg Bool.false_ne_true] at hserve
    refine ⟨?_, ?_, by rw [hnext, hserve]; rfl⟩
    · rintro ⟨_, _, -, hon, -⟩
      rw [ht, hoff] at hon
      cases hon
    · rw [step_eq, Exec.bind_of_ok ht, Outcome.result_after]
      rw [Exec.bind_of_ok (a := 0) hserve]
      rfl
  · rw [if_pos hon] at hserve
    obtain ⟨hsource, hurgent⟩ := Hardware.pendingInterrupt?_eq_some hp
    have hstate := hnext.trans (congrArg Outcome.state hserve)
    rw [Outcome.state_after] at hstate
    refine ⟨⟨haltCycles, source, by rw [ht], by rwa [ht], by rwa [ht]⟩, source, hsource, hurgent,
      hstate, fun n hn ↦ ?_⟩
    rw [step_eq, Exec.bind_of_ok ht, Outcome.result_after] at hn
    obtain ⟨serving, hs, hn, -⟩ := Exec.bind_eq_ok hn
    rw [hserve, Outcome.result_after] at hs
    have hsum : haltCycles + serving = n := Except.ok.inj hn
    rw [← hsum, dispatch_eq hs, hstate]
    exact ⟨rfl, dispatch_ends hs⟩

/-! ## Any number of steps -/

/-- The first `k` steps leave the processor halted. -/
def Dozes (c : Console) (k : Nat) : Prop := ∀ j ≤ k, (next^[j] c).cpu.halted

/-- Some steps, adding up the cycles that they report. -/
def steps : Nat → Exec Console Nat
  | 0 => pure 0
  | k + 1 => do
    let earlier ← steps k
    let cycles ← step
    return earlier + cycles

theorem Dozes.mono (h : Dozes c k) {j : Nat} (hj : j ≤ k) : Dozes c j :=
  fun n hn ↦ h n (Nat.le_trans hn hj)

/-- As long as nothing is awaited, steps are idle. -/
theorem next_iterate_of_unawaited (h : Hardware.Reachable c.hardware) (hh : c.cpu.halted)
    (hnone : ∀ j < k, (c.idled (j + 1)).hardware.awaited = 0) : next^[k] c = c.idled k := by
  induction k with
  | zero => exact (idled_zero h).symm
  | succ k ih =>
    rw [Function.iterate_succ_apply', ih fun j hj ↦ hnone j (by omega), next,
      step_idled h hh (hnone k k.lt_succ_self)]

/-- The processor stays halted exactly as long as nothing is awaited at the checks. -/
theorem dozes_iff (h : Hardware.Reachable c.hardware) (hh : c.cpu.halted) :
    Dozes c k ↔ ∀ j < k, (c.idled (j + 1)).hardware.awaited = 0 := by
  constructor
  · intro hd
    induction k with
    | zero => exact fun j hj ↦ absurd hj (Nat.not_lt_zero j)
    | succ k ih =>
      have hnone := ih (hd.mono k.le_succ)
      intro j hj
      rcases Nat.lt_succ_iff_lt_or_eq.1 hj with hlt | rfl
      · exact hnone j hlt
      by_contra hsome
      have hlast := hd (j + 1) (Nat.le_refl _)
      rw [Function.iterate_succ_apply', next_iterate_of_unawaited h hh hnone,
        (wakes_idled h hh hsome).halted] at hlast
      cases hlast
  · intro hnone j hj
    rw [next_iterate_of_unawaited h hh fun i hi ↦ hnone i (Nat.lt_of_lt_of_le hi hj)]
    exact hh

/-- All steps of a machine that stays halted are one advance of its hardware. -/
theorem Dozes.steps_eq (h : Hardware.Reachable c.hardware) (hh : c.cpu.halted) (hd : Dozes c k) :
    steps k c =
      ⟨.ok (haltCycles * k), c.idled k, c.hardware.reported (haltCycles * k)⟩ := by
  induction k with
  | zero =>
    rw [idled_zero h, Nat.mul_zero, h.reported_zero]
    rfl
  | succ k ih =>
    have hnone := (dozes_iff h hh).1 hd k k.lt_succ_self
    rw [steps, Exec.bind_of_ok (ih (hd.mono k.le_succ)), Exec.bind_of_ok (step_idled h hh hnone),
      Nat.mul_succ, h.reported_add]
    simp [Outcome.after, idled]

/-- **Halting is idling.**  A halted machine stands behind a HALT that it ran, and it stays halted
for exactly as many steps as find no source that is both requested and enabled when they check,
which is four, eight, … cycles from now.  Until then nothing of the processor changes, and the steps
are, in what they report and in what they leave, one advance of the hardware by four cycles for
each.  The next step, the first to find one, ends the halt: if interrupts are on it serves the most
urgent one, and otherwise the processor goes on behind the HALT, on the hardware as it was at the
check, its requests included. -/
theorem halt_idles (c : Console) (h : Reachable c) (hh : c.cpu.halted) :
    (∃ start, BehindHalt c start) ∧ ∀ k,
      (Dozes c k ↔ ∀ j < k, (c.hardware.passed (4 * (j + 1))).awaited = 0) ∧
      ((Dozes c k ∧ (next^[k + 1] c).cpu.halted = false) ↔
        (∀ j < k, (c.hardware.passed (4 * (j + 1))).awaited = 0) ∧
          (c.hardware.passed (4 * (k + 1))).awaited ≠ 0) ∧
      (Dozes c k →
        (Hardware.advance (4 * k) c.hardware).result = .ok () ∧
        next^[k] c = ⟨c.cpu, c.hardware.passed (4 * k)⟩ ∧
        steps k c = ⟨.ok (4 * k), ⟨c.cpu, c.hardware.passed (4 * k)⟩,
          c.hardware.reported (4 * k)⟩ ∧
        ((next^[k + 1] c).cpu.halted = false →
          Wakes (next^[k] c) ⟨c.cpu, c.hardware.passed (4 * (k + 1))⟩)) := by
  refine ⟨h.behindHalt hh, fun k ↦ ?_⟩
  have hdozes : ∀ k, Dozes c k ↔
      ∀ j < k, (c.hardware.passed (4 * (j + 1))).awaited = 0 :=
    fun k ↦ dozes_iff h.hardware hh
  have hiterate : Dozes c k → next^[k] c = c.idled k := fun hd ↦
    next_iterate_of_unawaited h.hardware hh ((hdozes k).1 hd)
  have hends : Dozes c k → ((next^[k + 1] c).cpu.halted = false ↔
      (c.idled (k + 1)).hardware.awaited ≠ 0) := fun hd ↦ by
    rw [Function.iterate_succ_apply', hiterate hd]
    refine ⟨fun hawake hnone ↦ ?_, fun hsome ↦ (wakes_idled h.hardware hh hsome).halted⟩
    rw [next, step_idled h.hardware hh hnone, idled, hh] at hawake
    cases hawake
  refine ⟨hdozes k, ?_, fun hd ↦ ⟨h.hardware.advance_ok _, hiterate hd, hd.steps_eq h.hardware hh,
    fun hawake ↦ ?_⟩⟩
  · rw [← hdozes k]
    exact and_congr_right hends
  · rw [hiterate hd]
    exact wakes_idled h.hardware hh ((hends hd).1 hawake)

/-- The machine behind the HALT that its program starts with. -/
def resting : Console := (booted 0x76).next

theorem reachable_resting : Reachable resting := (reachable_booted 0x76).next

/-- The HALT took four cycles, in which nothing was due, and no interrupt is enabled. -/
theorem resting_booted : resting.cpu.halted ∧
    resting.hardware = (booted 0x76).hardware.atTime ((booted 0x76).hardware.now + 4) ∧
    resting.hardware.reg Register.interruptEnable = 0 := by
  have hoff : (booted 0x76).hardware.reg Register.interruptEnable = 0 := by
    rw [booted, Hardware.powerOn_eq, Hardware.enable_covers.started]
    rfl
  have hlater : ∀ event ∈ (booted 0x76).hardware.clock.queue,
      (booted 0x76).hardware.now + 4 ≤ event.target := fun event he ↦
    Nat.le_trans (Nat.add_le_add_left (by decide) _) (queue_booted 0x76 event he)
  obtain ⟨records, -, ht⟩ := toCheck_of_byte (c := booted 0x76)
    (i := ⟨.halt, none, none, 1, 4, none⟩) rfl (show (0x100 : UInt16) < 0x4000 by decide)
    (image_booted 0x76) (by decide) rfl rfl rfl (perform_of_switch (Or.inr (Or.inr rfl)) _) hlater
  have hnone : (toCheck (booted 0x76)).state.hardware.bus.pendingInterrupt? = none := by
    rw [Hardware.pendingInterrupt?_eq_none_iff, Hardware.awaited, ht]
    show (booted 0x76).hardware.reg Register.interruptEnable &&& _ &&& _ = _
    rw [hoff, UInt8.zero_and, UInt8.zero_and]
  rw [ht] at hnone
  rw [resting, next, step_of_none ht hnone]
  exact ⟨rfl, rfl, hoff⟩

/-- It is halted, and no interrupt is enabled. -/
theorem resting_ready :
    resting.cpu.halted ∧ resting.hardware.reg Register.interruptEnable = 0 :=
  ⟨resting_booted.1, resting_booted.2.2⟩

/-- With no interrupt enabled it stays halted forever, and its steps are nothing but time. -/
theorem halt_idles_resting : Reachable resting ∧ resting.cpu.halted ∧
    ∀ k, Dozes resting k ∧ steps k resting = ⟨.ok (4 * k),
      ⟨resting.cpu, resting.hardware.passed (4 * k)⟩,
      resting.hardware.reported (4 * k)⟩ := by
  obtain ⟨hh, hoff⟩ := resting_ready
  refine ⟨reachable_resting, hh, fun k ↦ ?_⟩
  obtain ⟨hdozes, -, hidle⟩ := (halt_idles resting reachable_resting hh).2 k
  have hd := hdozes.2 fun j _ ↦ reachable_resting.hardware.awaited_passed hoff _
  exact ⟨hd, (hidle hd).2.2.1⟩

end Console

end DotMatrix
