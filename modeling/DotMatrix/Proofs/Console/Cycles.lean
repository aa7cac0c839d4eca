import DotMatrix.Proofs.Instruction.Disassembly
import DotMatrix.Proofs.Console.Writes
import DotMatrix.Proofs.Timer.Drift

/-!
# The cycles of a step

A step reports how many cycles have passed.  They are charged to the clock in one place and added up
in another: the duration of the instruction, or a little time if the processor is halted, and what
serving an interrupt takes.

* `Instruction.Timed` — what is known of the durations of every instruction.
* `taken_iff` — an instruction that succeeds tells whether its condition held.
* `Lasts` — how long what a step does before its interrupt check takes.
* `now_next` — the clock moves on by what the step did to the hardware, and `step_lasts`, how long
  this took.
* `cycles_of_step` — the cycles that a step reports, counted in both ways.
-/

set_option autoImplicit false

namespace DotMatrix

/-! ## The durations of instructions -/

namespace Instruction

/-- The condition that an instruction names. -/
def condition? (i : Instruction) : Option Condition :=
  match i.lhs with
  | some (.condition condition) => some condition
  | _ => none

/-- The instruction is a transfer that is not taken, since its condition does not hold. -/
def Declined (i : Instruction) (r : Registers) : Prop :=
  ∃ condition, i.condition? = some condition ∧ condition.holds r.f = false

/-- The extra time that the prefix byte takes. -/
def surcharge (i : Instruction) : Nat := if i.isPrefixed then 4 else 0

/-- Durations are multiples of four, and there is a second one exactly if the instruction is a
transfer that may not be taken. -/
def Timed (i : Instruction) : Prop :=
  (i.cycles % 4 = 0 ∧ 4 ≤ i.cycles) ∧
  (∀ short ∈ i.cyclesNotTaken, short % 4 = 0 ∧ 4 ≤ short) ∧
  (i.cyclesNotTaken.isSome = i.condition?.any (· ≠ .always)) ∧
  (i.condition?.isSome → i.opcode.isTransfer)

instance (i : Instruction) : Decidable i.Timed := inferInstanceAs (Decidable (_ ∧ _ ∧ _ ∧ _))

theorem condition?_blank (i : Instruction) : i.blank.condition? = i.condition? := by
  obtain ⟨opcode, _ | lhs, rhs, length, cycles, cyclesNotTaken⟩ := i
  · rfl
  · cases lhs <;> rfl

theorem timed_of_decode {σ : Type} {read : UInt16 → Exec σ UInt8} {pc : UInt16} {s : σ}
    {i : Instruction} (h : (decode read Exec.fail pc s).result = .ok i) : i.Timed := by
  refine of_decode (P := Timed) h (fun i hi ↦ ?_) (fun ht ↦ ?_) (fun ht ↦ ?_)
  · rw [Timed, condition?_blank] at hi
    exact hi
  all_goals
    apply forall_template ht
    decide +kernel

section

variable {i : Instruction} {r : Registers}

/-- A transfer that is not taken has a duration of its own. -/
theorem Declined.exists_short (h : i.Declined r) (ht : i.Timed) :
    ∃ short, i.cyclesNotTaken = some short := by
  obtain ⟨condition, hc, hr⟩ := h
  have hne : condition ≠ .always := fun he ↦ by
    rw [he] at hr
    cases hr
  refine Option.isSome_iff_exists.1 ?_
  rw [ht.2.2.1, hc]
  simpa using hne

theorem duration_true (i : Instruction) : i.duration true = i.cycles + i.surcharge := rfl

theorem duration_false {short : Nat} (h : i.cyclesNotTaken = some short) :
    i.duration false = short + i.surcharge := by
  rw [duration, h]
  rfl

theorem surcharge_mod (i : Instruction) : i.surcharge % 4 = 0 := by
  rw [surcharge]
  split <;> rfl

end

end Instruction

namespace Console

open Hardware (elapsed storeAll)
open Operand (Kind)

variable {c : Console} {i : Instruction} {taken : Bool} {n : Nat}

/-! ## Transfers that are taken -/

/-- Going to a target if a condition holds, and telling whether it did. -/
def branch (holds : Bool) (target : Exec Console UInt16) : Exec Console Bool :=
  if holds then do
    let addr ← target
    jumpTo addr
    return true
  else return false

theorem performJump_eq {condition : Condition} {target : Operand}
    (hl : i.lhs = some (.condition condition)) (hr : i.rhs = some target) (c : Console) :
    performJump i c = branch (condition.holds c.cpu.registers.f) (transferTarget i target) c := by
  rw [← Registers.satisfies_eq, performJump, bothOperands.eq_def, hl, hr, pure_bind]
  dsimp only
  rw [registers, Exec.bind_gets]
  rfl

theorem performReturn_eq {condition : Condition} (hl : i.lhs = some (.condition condition))
    (c : Console) :
    performReturn i c = branch (condition.holds c.cpu.registers.f) popWord c := by
  rw [← Registers.satisfies_eq, performReturn, soleOperand.eq_def, hl, pure_bind]
  dsimp only
  rw [registers, Exec.bind_gets]
  rfl

/-- A transfer under a condition that succeeds is taken if the condition holds. -/
theorem taken_branch {holds : Bool} {target : Exec Console UInt16}
    (hok : (branch holds target c).result = .ok taken) : taken = holds := by
  cases holds with
  | true =>
    obtain ⟨_, -, hok, -⟩ := Exec.bind_eq_ok hok
    obtain ⟨_, -, hok, -⟩ := Exec.bind_eq_ok hok
    cases hok
    rfl
  | false =>
    cases hok
    rfl

theorem taken_performJump {goal : Kind → Bool} (h : i.HasBoth (Kind.transfers goal))
    (hok : (performJump i c).result = .ok taken) :
    ∃ condition, i.lhs = some (.condition condition) ∧
      taken = condition.holds c.cpu.registers.f := by
  obtain ⟨lhs, rhs, hl, hr, hkinds⟩ := h.exists_operands
  obtain ⟨⟨condition, rfl⟩, -⟩ := Operand.transfers_cases hkinds
  rw [performJump_eq hl hr] at hok
  exact ⟨condition, hl, taken_branch hok⟩

theorem taken_performReturn (h : i.HasSole (· == .condition))
    (hok : (performReturn i c).result = .ok taken) :
    ∃ condition, i.lhs = some (.condition condition) ∧
      taken = condition.holds c.cpu.registers.f := by
  obtain ⟨lhs, hl, hkind⟩ := h.exists_lhs
  obtain ⟨condition, rfl⟩ := Operand.form_of_kind (beq_iff_eq.1 hkind)
  rw [performReturn_eq hl] at hok
  exact ⟨condition, hl, taken_branch hok⟩

theorem taken_performReturnFromInterrupt (h : i.HasSole (· == .condition))
    (hok : (performReturnFromInterrupt i c).result = .ok taken) :
    ∃ condition, i.lhs = some (.condition condition) ∧
      taken = condition.holds c.cpu.registers.f := by
  rcases hr : performReturn i c with ⟨fault | taken', c', records⟩
  · rw [performReturnFromInterrupt, Exec.bind_of_error hr] at hok
    cases hok
  · rw [performReturnFromInterrupt_of_ok hr] at hok
    obtain rfl : taken' = taken := Except.ok.inj hok
    exact taken_performReturn h (by rw [hr])

theorem not_declined_of_condition? (h : i.condition? = none) (r : Registers) : ¬ i.Declined r := by
  rintro ⟨condition, hc, -⟩
  rw [h] at hc
  cases hc

theorem declined_iff {condition : Condition} (h : i.lhs = some (.condition condition))
    (r : Registers) : i.Declined r ↔ condition.holds r.f = false := by
  have hc : i.condition? = some condition := by
    rw [Instruction.condition?, h]
  constructor
  · rintro ⟨other, ho, hr⟩
    rw [hc] at ho
    cases ho
    exact hr
  · exact fun hr ↦ ⟨condition, hc, hr⟩

/-- **An instruction that succeeds tells whether its condition held.** -/
theorem taken_iff (hf : i.Fits) (ht : i.Timed) (hok : (perform i c).result = .ok taken) :
    taken = false ↔ i.Declined c.cpu.registers := by
  have htransfer : (∃ condition, i.lhs = some (.condition condition) ∧
      taken = condition.holds c.cpu.registers.f) →
        (taken = false ↔ i.Declined c.cpu.registers) := by
    rintro ⟨condition, hl, rfl⟩
    exact (declined_iff hl _).symm
  rw [Instruction.Fits] at hf
  unfold perform at hok
  cases hop : i.opcode <;> rw [hop] at hf hok
  case jr | jp | call => exact htransfer (taken_performJump hf hok)
  case ret => exact htransfer (taken_performReturn hf hok)
  case reti => exact htransfer (taken_performReturnFromInterrupt hf hok)
  all_goals
    obtain ⟨_, -, hpure, -⟩ := Exec.bind_eq_ok hok
    cases hpure
    have hnone : i.condition? = none := by
      have hplain := ht.2.2.2
      rw [hop] at hplain
      exact Option.not_isSome_iff_eq_none.1 fun hsome ↦ Bool.false_ne_true (hplain hsome)
    exact iff_of_false (by decide) (not_declined_of_condition? hnone _)

/-! ## Up to the interrupt check -/

theorem elapsed_append (newer older : List Hardware.Operation) :
    elapsed (newer ++ older) = elapsed newer + elapsed older := by
  rw [elapsed, List.map_append, List.sum_append]
  rfl

/-- Writes take no time. -/
theorem elapsed_made (stores : List (UInt16 × UInt8)) (hw : Hardware) :
    elapsed (Hardware.made stores hw) = 0 := by
  induction stores generalizing hw with
  | nil => rfl
  | cons store rest ih =>
    rw [Hardware.made]
    split
    · rw [elapsed_append, ih]
      rfl
    · rfl

/-- What a step does before its interrupt check lasts so long. -/
inductive Lasts (c : Console) : Nat → Prop where
  /-- A halted processor idles. -/
  | halted (h : c.cpu.halted) : Lasts c 4
  /-- An instruction is run and takes its full time, -/
  | taken {i : Instruction} (hi : Performs c i) (h : ¬ i.Declined c.cpu.registers) :
      Lasts c (i.cycles + i.surcharge)
  /-- unless its condition does not hold. -/
  | declined {i : Instruction} {short : Nat} (hi : Performs c i) (h : i.Declined c.cpu.registers)
      (hs : i.cyclesNotTaken = some short) : Lasts c (short + i.surcharge)

theorem timed_of_fetch (h : (fetch c).result = .ok i) : i.Timed :=
  Instruction.timed_of_decode (decode_of_fetch h)

theorem Lasts.bounds (h : Lasts c n) : n % 4 = 0 ∧ 4 ≤ n := by
  cases h with
  | halted => decide
  | @taken i hi =>
    obtain ⟨⟨hmod, hle⟩, -⟩ := timed_of_fetch hi.2
    have hs := i.surcharge_mod
    omega
  | @declined i short hi _ hs =>
    obtain ⟨-, hshort, -⟩ := timed_of_fetch hi.2
    obtain ⟨hmod, hle⟩ := hshort short hs
    have hs := i.surcharge_mod
    omega

/-- A step that comes to its interrupt check lasts as long as it says, and the clock is charged
with that. -/
theorem lasts_of_toCheck (h : Hardware.Reachable c.hardware) (hok : (toCheck c).result = .ok n) :
    Lasts c n ∧ elapsed (actsRunning c) = n := by
  rw [actsRunning]
  cases hrun : c.cpu.halted with
  | true =>
    rw [toCheck_of_halted hrun, idle_eq h] at hok
    cases hok
    exact ⟨.halted hrun, rfl⟩
  | false =>
    rw [toCheck_of_running hrun] at hok
    rcases runInstruction_cases h with ⟨fault, seen, -, he⟩ | ⟨i, seen, hf,
      ⟨fault, c', done, -, he⟩ | ⟨taken, c', done, hw, ticks, hp, -, he⟩⟩ <;> rw [he] at hok
    · cases hok
    · cases hok
    cases hok
    have hi : Performs c i := ⟨hrun, by rw [hf]⟩
    have htimed := timed_of_fetch hi.2
    have htaken : taken = false ↔ i.Declined c.cpu.registers :=
      taken_iff (c := past i c) (fits_of_fetch hi.2) htimed (by rw [hp])
    constructor
    · cases taken with
      | true =>
        rw [Instruction.duration_true]
        exact .taken hi fun hd ↦ by cases htaken.2 hd
      | false =>
        have hd := htaken.1 rfl
        obtain ⟨short, hs⟩ := hd.exists_short htimed
        rw [Instruction.duration_false hs]
        exact .declined hi hd hs
    · rw [if_neg Bool.false_ne_true, hf]
      dsimp only
      rw [hp]
      dsimp only
      rw [elapsed, List.map_cons, List.sum_cons, ← elapsed, elapsed_made]
      rfl

/-! ## At the interrupt check -/

/-- Serving an interrupt takes 24 cycles, and serving none takes no time. -/
theorem serving_cases (hok : (serveInterrupts c).result = .ok n) :
    elapsed (actsServing c) = n ∧
      ((c.cpu.interruptsOn ∧ (∃ source, c.hardware.bus.pendingInterrupt? = some source) ∧ n = 24) ∨
        (¬ (c.cpu.interruptsOn ∧ ∃ source, c.hardware.bus.pendingInterrupt? = some source) ∧
          n = 0)) := by
  rw [actsServing]
  cases hp : c.hardware.bus.pendingInterrupt? with
  | none =>
    rw [serveInterrupts_of_none hp] at hok
    cases hok
    exact ⟨rfl, Or.inr ⟨by simp, rfl⟩⟩
  | some source =>
    rw [serveInterrupts_of_some hp, Outcome.result_after] at hok
    dsimp only
    cases hon : c.cpu.interruptsOn with
    | false =>
      rw [hon, if_neg Bool.false_ne_true] at hok
      cases hok
      exact ⟨rfl, Or.inr ⟨by simp, rfl⟩⟩
    | true =>
      rw [hon, if_pos rfl] at hok
      obtain rfl := dispatch_eq hok
      refine ⟨?_, Or.inl ⟨rfl, ⟨source, rfl⟩, rfl⟩⟩
      rw [if_pos rfl]
      rcases dispatch_cases source c.awake with ⟨fault, -, herr, -⟩ | ⟨hr, -, -⟩
      · rw [herr] at hok
        cases hok
      · rw [show (storeAll (pushing c c.cpu.registers.pc) (withdrawn source c)).result = _ from hr]
        dsimp only
        rw [elapsed, List.map_cons, List.sum_cons, ← elapsed, elapsed_append, elapsed_made]
        rfl

/-! ## The whole step -/

/-- The clock moves on by what the step did to the hardware. -/
theorem now_next (h : Reachable c) :
    c.next.hardware.now = c.hardware.now + elapsed (Operation.step.acts c) := by
  obtain ⟨ops, hs⟩ := h.exists_story
  obtain ⟨_, hbefore⟩ := hs.hardware
  obtain ⟨_, hafter⟩ := (hs.perform .step).hardware
  have hnow := hafter.accounts.now
  rw [state_perform_step, elapsed_append, ← hbefore.accounts.now, Nat.add_comm] at hnow
  exact hnow

/-- A step takes as long as it does up to its interrupt check and at it, and the clock is charged
with both. -/
theorem step_lasts (h : Hardware.Reachable c.hardware) (hok : (step c).result = .ok n) :
    elapsed (Operation.step.acts c) = n ∧ ∃ running, Lasts c running ∧
      ((Dispatches c ∧ n = running + 24) ∨ (¬ Dispatches c ∧ n = running)) := by
  rw [step_eq] at hok
  obtain ⟨running, hrunning, hok, -⟩ := Exec.bind_eq_ok hok
  obtain ⟨serving, hserving, hok, -⟩ := Exec.bind_eq_ok hok
  cases hok
  obtain ⟨hlasts, hrun⟩ := lasts_of_toCheck h hrunning
  obtain ⟨hserve, hcases⟩ := serving_cases hserving
  constructor
  · rcases ht : toCheck c with ⟨result, checked, records⟩
    rw [ht] at hrunning hserve
    obtain rfl : result = .ok running := hrunning
    rw [Operation.acts, ht]
    dsimp only
    rw [elapsed_append, hserve, hrun, Nat.add_comm]
  refine ⟨running, hlasts, ?_⟩
  rcases hcases with ⟨hon, ⟨source, hp⟩, rfl⟩ | ⟨hnot, rfl⟩
  · exact Or.inl ⟨⟨running, source, hrunning, hon, hp⟩, rfl⟩
  · refine Or.inr ⟨?_, rfl⟩
    rintro ⟨_, source, -, hon, hp⟩
    exact hnot ⟨hon, source, hp⟩

/-- An instruction has a prefix byte exactly if it starts with one. -/
theorem isPrefixed_iff (hi : Performs c i) :
    i.isPrefixed ↔ c.hardware.byteAt c.cpu.registers.pc = .ok Instruction.prefixByte := by
  obtain ⟨bytes, henc, hholds⟩ := Hardware.decode_load_iff.1 (decode_of_fetch hi.2)
  rcases henc.cases_isPrefixed with ⟨hp, -, opcode, rfl⟩ | ⟨hp, opcode, hne, rfl⟩
  · exact iff_of_true hp (Hardware.holds_cons.1 hholds).1
  · rw [hp, (Hardware.holds_cons.1 hholds).1]
    exact iff_of_false Bool.false_ne_true fun he ↦ hne (Except.ok.inj he)

/-- **The cycles of a step.**  The clock of the hardware has moved on by as many cycles as a step
reports, a multiple of four between 4 and 48.  They are the duration of the instruction, which is
that of a transfer that is not taken exactly if its condition does not hold, and includes 4 cycles
for a prefix byte; or 4 cycles of a halted processor; and 24 cycles more exactly if the step serves
an interrupt. -/
theorem cycles_of_step (h : Reachable c) (hok : (step c).result = .ok n) :
    c.next.hardware.now = c.hardware.now + n ∧ n % 4 = 0 ∧ 4 ≤ n ∧ n ≤ 48 ∧
    (∀ i, Performs c i → (i.isPrefixed ↔
      c.hardware.byteAt c.cpu.registers.pc = .ok Instruction.prefixByte)) ∧
    ∃ running, Lasts c running ∧
      ((Dispatches c ∧ n = running + 24) ∨ (¬ Dispatches c ∧ n = running)) := by
  obtain ⟨helapsed, running, hlasts, hcases⟩ := step_lasts h.hardware hok
  obtain ⟨hmod, hle⟩ := hlasts.bounds
  refine ⟨?_, ?_, ?_, step_le hok, fun i hi ↦ isPrefixed_iff hi, running, hlasts, hcases⟩
  · rw [now_next h, helapsed]
  · rcases hcases with ⟨-, rfl⟩ | ⟨-, rfl⟩ <;> omega
  · rcases hcases with ⟨-, rfl⟩ | ⟨-, rfl⟩ <;> omega

/-- A machine that runs EI while an interrupt waits serves it in a step of 28 cycles. -/
theorem cycles_of_step_eager : Reachable eager ∧ (step eager).result = .ok 28 ∧
    Dispatches eager ∧ eager.next.hardware.now = eager.hardware.now + 28 ∧ Lasts eager 4 := by
  obtain ⟨hei, -, hq, hl⟩ := eagerHardware_ready
  obtain ⟨hw', records, hstep, hd, -⟩ := step_prompted hei hq hl
  have hok : (step eager).result = .ok 28 := by
    rw [eager, hstep]
  obtain ⟨hnow, -, -, -, -, running, hlasts, ⟨-, hn⟩ | ⟨hnot, -⟩⟩ :=
    cycles_of_step reachable_eager hok
  · obtain rfl : running = 4 := by omega
    exact ⟨reachable_eager, hok, hd, hnow, hlasts⟩
  · exact absurd hd hnot

end Console

end DotMatrix
