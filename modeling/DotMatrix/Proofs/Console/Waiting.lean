import DotMatrix.Proofs.Console.Handler
import DotMatrix.Proofs.Console.Stores
import DotMatrix.Proofs.Hardware.Requests

/-!
# Nothing is left waiting

Whenever a step succeeds and leaves interrupts on, or the processor halted, no source is both
requested and enabled.  For at its check a step that finds one ends a halt, and serves the most
urgent one if interrupts are on, which turns them off (`none_left_waiting`).
-/

set_option autoImplicit false

namespace DotMatrix.Console

variable {c : Console}

/-- A step that succeeds comes to its interrupt check, and what is done there succeeds. -/
theorem Succeeds.check (h : Succeeds c) : ∃ cycles checked records,
    toCheck c = ⟨.ok cycles, checked, records⟩ ∧ c.next = (serveInterrupts checked).state ∧
      ∃ more, (serveInterrupts checked).result = .ok more := by
  obtain ⟨total, h⟩ := h
  rw [step_eq] at h
  obtain ⟨running, hok, hrest, -⟩ := Exec.bind_eq_ok h
  obtain ⟨more, hserve, -⟩ := Exec.bind_eq_ok hrest
  rcases ht : toCheck c with ⟨result, checked, records⟩
  rw [ht] at hok hserve
  obtain rfl : result = .ok running := hok
  refine ⟨running, checked, records, rfl, ?_, more, hserve⟩
  rcases next_cases c with ⟨fault, he, -⟩ | ⟨_, -, hn⟩
  · rw [ht] at he
    cases he
  · rw [hn, ht]

/-- Serving a source calls its address. -/
theorem registers_dispatch {source : Interrupt} {more : Nat}
    (h : (dispatch source c).result = .ok more) :
    (dispatch source c).state.cpu.registers = c.cpu.registers.afterCall source.vector := by
  rw [dispatch, Exec.bind_report, bind_modifyCpu] at h ⊢
  obtain ⟨_, -, h, hw⟩ := Exec.bind_eq_ok h
  obtain ⟨_, -, h, hr⟩ := Exec.bind_eq_ok h
  obtain ⟨_, hpush, h, hp⟩ := Exec.bind_eq_ok h
  obtain ⟨_, -, h, hj⟩ := Exec.bind_eq_ok h
  obtain ⟨_, -, h, ha⟩ := Exec.bind_eq_ok h
  rw [hw, Outcome.state_after, hr, Outcome.state_after, hp, Outcome.state_after, hj,
    Outcome.state_after, ha]
  exact congrArg (fun r : Registers ↦ { r with pc := source.vector }) (registers_pushWord hpush)

/-- Serving a source ends at its address, with interrupts off. -/
theorem dispatch_ends {source : Interrupt} {more : Nat}
    (h : (dispatch source c).result = .ok more) :
    (dispatch source c).state.cpu.registers.pc = source.vector ∧
      (dispatch source c).state.cpu.interruptsOn = false := by
  obtain ⟨registers, hcpu⟩ := cpu_dispatch source c
  constructor
  · rw [registers_dispatch h]
    rfl
  · rw [hcpu]
    rfl

/-- **No eligible interrupt is left waiting.**  After a step that succeeds with interrupts on or the
processor halted, no source is both requested and enabled.  If one is at the step's check, the step
ends a halt, and it serves the most urgent one exactly if interrupts are on there. -/
theorem none_left_waiting (c : Console) (hok : Succeeds c) :
    (c.next.cpu.interruptsOn ∨ c.next.cpu.halted → c.next.hardware.awaited = 0) ∧
    ∃ cycles checked records, toCheck c = ⟨.ok cycles, checked, records⟩ ∧
      (checked.hardware.awaited = 0 → c.next = checked) ∧
      (checked.hardware.awaited ≠ 0 → c.next.cpu.halted = false ∧
        (checked.cpu.interruptsOn = false → c.next = checked.awake) ∧
        (checked.cpu.interruptsOn → Dispatches c ∧ ∃ source : Interrupt,
          checked.hardware.awaited &&& source.mask ≠ 0 ∧
          (∀ other : Interrupt,
            checked.hardware.awaited &&& other.mask ≠ 0 → source.mask ≤ other.mask) ∧
          c.next = (dispatch source checked.awake).state ∧
          c.next.cpu.registers.pc = source.vector ∧ c.next.cpu.interruptsOn = false)) := by
  obtain ⟨cycles, checked, records, ht, hn, more, hserve⟩ := hok.check
  cases hp : checked.hardware.bus.pendingInterrupt? with
  | none =>
    have hnone : checked.hardware.awaited = 0 :=
      (Hardware.pendingInterrupt?_eq_none_iff _).1 hp
    rw [serveInterrupts_of_none hp] at hn
    rw [hn]
    exact ⟨fun _ ↦ hnone, cycles, checked, records, ht, fun _ ↦ rfl, fun h ↦ absurd hnone h⟩
  | some source =>
    obtain ⟨hsource, hurgent⟩ := Hardware.pendingInterrupt?_eq_some hp
    have hsome : checked.hardware.awaited ≠ 0 := by
      intro h
      rw [h] at hsource
      simp at hsource
    obtain ⟨registers, hcpu⟩ := cpu_serveInterrupts hp
    have hoff : c.next.cpu.interruptsOn = false ∧ c.next.cpu.halted = false := by
      rw [hn, hcpu]
      exact ⟨rfl, rfl⟩
    refine ⟨fun h ↦ ?_, cycles, checked, records, ht, fun h ↦ absurd h hsome, fun _ ↦
      ⟨hoff.2, fun h ↦ ?_, fun hon ↦ ⟨⟨cycles, source, ?_⟩, source, hsource, hurgent, ?_⟩⟩⟩
    · rw [hoff.1, hoff.2] at h
      simp at h
    · rw [hn, serveInterrupts_of_some hp, h, if_neg Bool.false_ne_true]
      rfl
    · rw [ht]
      exact ⟨rfl, hon, hp⟩
    · rw [serveInterrupts_of_some hp, if_pos hon, Outcome.result_after] at hserve
      rw [hn, serveInterrupts_of_some hp, if_pos hon, Outcome.state_after]
      exact ⟨rfl, dispatch_ends hserve⟩

/-- A machine that is about to run EI while an interrupt waits goes on where that is served. -/
theorem none_left_waiting_eager : Reachable eager ∧ Succeeds eager ∧ Dispatches eager ∧
    ∃ source : Interrupt, eager.next.cpu.registers.pc = source.vector := by
  obtain ⟨hd, -, hs, -⟩ := reenters_eager
  obtain ⟨-, cycles, checked, records, ht, hnone, hsome⟩ := none_left_waiting eager hs
  obtain ⟨_, _, -, hon, hp⟩ := hd
  rw [ht] at hon hp
  have h := hsome fun h0 ↦ by
    rw [(Hardware.pendingInterrupt?_eq_none_iff _).2 h0] at hp
    cases hp
  obtain ⟨hdispatch, source, -, -, -, hpc, -⟩ := h.2.2 hon
  exact ⟨reachable_eager, hs, hdispatch, source, hpc⟩

end DotMatrix.Console
