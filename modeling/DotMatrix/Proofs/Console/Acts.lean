import DotMatrix.Proofs.Console.Requests

/-!
# What a machine does to its hardware

Whatever is done to a machine comes down to operations of its hardware: the writes that an
instruction makes, the time that it takes, and what serving an interrupt takes.  `acts` lists them.

* `Hardware.afterAll` — operations one after another, and `Hardware.made`, the writes of a list as
  operations.
* `Operation.acts` — the operations of the hardware that an operation of the machine comes down to.
* `hardware_perform_acts` — the hardware afterwards is the one that these leave.
-/

set_option autoImplicit false

namespace DotMatrix

namespace Hardware

/-! ## Operations one after another -/

/-- The hardware after operations, the newest first. -/
def afterAll : List Operation → Hardware → Hardware
  | [], hw => hw
  | op :: older, hw => (op.perform (afterAll older hw)).state

theorem afterAll_append (newer older : List Operation) (hw : Hardware) :
    afterAll (newer ++ older) hw = afterAll newer (afterAll older hw) := by
  induction newer with
  | nil => rfl
  | cons op newer ih =>
    rw [List.cons_append, afterAll, ih]
    rfl

/-- The writes that are made of a list, up to the first one that fails, the newest first. -/
def made : List (UInt16 × UInt8) → Hardware → List Operation
  | [], _ => []
  | (addr, value) :: rest, hw =>
    match write addr value hw with
    | ⟨.ok (), hw', _⟩ => made rest hw' ++ [.write addr value]
    | ⟨.error _, _, _⟩ => [.write addr value]

theorem afterAll_made (stores : List (UInt16 × UInt8)) (hw : Hardware) :
    afterAll (made stores hw) hw = (storeAll stores hw).state := by
  induction stores generalizing hw with
  | nil => rfl
  | cons store rest ih =>
    obtain ⟨addr, value⟩ := store
    rw [made]
    rcases hw₁ : write addr value hw with ⟨fault | ⟨⟩, hw', records⟩
    · rw [storeAll_cons_of_error hw₁, afterAll, Operation.perform, afterAll, hw₁]
    · rw [storeAll_cons_of_ok hw₁, afterAll_append, afterAll, Operation.perform, afterAll, hw₁]
      exact ih hw'

end Hardware

namespace Console

open Hardware (afterAll afterAll_append afterAll_made made storeAll)

variable {c : Console}

/-! ## The parts of a step -/

/-- What a step does to the hardware up to its interrupt check. -/
def actsRunning (c : Console) : List Hardware.Operation :=
  if c.cpu.halted then [.advance haltCycles]
  else
    match (fetch c).result with
    | .error _ => []
    | .ok i =>
      match (perform i (past i c)).result with
      | .error _ => made (stores i (past i c)) c.hardware
      | .ok taken => .advance (i.duration taken) :: made (stores i (past i c)) c.hardware

/-- What an interrupt check does to the hardware. -/
def actsServing (c : Console) : List Hardware.Operation :=
  match c.hardware.bus.pendingInterrupt? with
  | none => []
  | some source =>
    if c.cpu.interruptsOn then
      let writes := pushing c c.cpu.registers.pc
      let pushed := made writes (withdrawn source c) ++ [.withdraw source]
      match (storeAll writes (withdrawn source c)).result with
      | .error _ => pushed
      | .ok () => .advance dispatchCycles :: pushed
    else []

theorem hardware_toCheck (h : Hardware.Reachable c.hardware) :
    (toCheck c).state.hardware = afterAll (actsRunning c) c.hardware := by
  rw [actsRunning]
  cases hrun : c.cpu.halted with
  | true =>
    rw [if_pos rfl, toCheck_of_halted hrun, idle_eq h]
    rfl
  | false =>
    rw [if_neg Bool.false_ne_true, toCheck_of_running hrun]
    rcases runInstruction_cases h with ⟨fault, seen, hf, he⟩ |
      ⟨i, seen, hf, ⟨fault, c', done, hp, he⟩ | ⟨taken, c', done, hw, ticks, hp, ha, he⟩⟩ <;>
      rw [he, hf]
    · rfl
    all_goals
      have hstores := hardware_perform i (past i c)
      rw [hp] at hstores
      have hmade : afterAll (made (stores i (past i c)) c.hardware) c.hardware = c'.hardware :=
        (afterAll_made _ _).trans hstores.symm
      dsimp only
      rw [hp]
      dsimp only
    · exact hmade.symm
    · rw [afterAll, hmade, Hardware.Operation.perform, ha]

theorem hardware_serveInterrupts (c : Console) :
    (serveInterrupts c).state.hardware = afterAll (actsServing c) c.hardware := by
  rw [actsServing]
  cases hp : c.hardware.bus.pendingInterrupt? with
  | none =>
    rw [serveInterrupts_of_none hp]
    rfl
  | some source =>
    rw [serveInterrupts_of_some hp, Outcome.state_after]
    dsimp only
    cases hon : c.cpu.interruptsOn with
    | false =>
      rw [if_neg Bool.false_ne_true, if_neg Bool.false_ne_true]
      rfl
    | true =>
      rw [if_pos rfl, if_pos rfl]
      have hpushed : afterAll (made (pushing c c.cpu.registers.pc) (withdrawn source c) ++
          [.withdraw source]) c.hardware =
            (storeAll (pushing c c.cpu.registers.pc) (withdrawn source c)).state := by
        rw [afterAll_append]
        exact afterAll_made _ _
      rcases dispatch_cases source c.awake with ⟨fault, hr, -, hd⟩ | ⟨hr, -, hd⟩ <;> rw [hd]
      · rw [show (storeAll (pushing c c.cpu.registers.pc) (withdrawn source c)).result = _ from hr]
        exact hpushed.symm
      · rw [show (storeAll (pushing c c.cpu.registers.pc) (withdrawn source c)).result = _ from hr]
        dsimp only
        rw [afterAll, hpushed]
        rfl

/-! ## Operations of a machine -/

/-- What an operation of the machine does to its hardware, the newest first. -/
def Operation.acts (c : Console) : Operation → List Hardware.Operation
  | .step =>
    match toCheck c with
    | ⟨.ok _, checked, _⟩ => actsServing checked ++ actsRunning c
    | ⟨.error _, _, _⟩ => actsRunning c
  | .write addr value => [.write addr value]
  | .advance cycles => [.advance cycles]
  | .press button pressed => [.press button pressed]

/-- An operation of the machine leaves the hardware as its acts do. -/
theorem hardware_perform_acts (h : Hardware.Reachable c.hardware) (op : Operation) :
    (op.perform c).state.hardware = afterAll (op.acts c) c.hardware := by
  cases op with
  | write addr value => rfl
  | advance cycles => rfl
  | press button pressed =>
    rw [Operation.perform, pressButton_eq]
    rfl
  | step =>
    rw [state_perform_step, Operation.acts]
    have hrunning := hardware_toCheck h
    rcases next_cases c with ⟨fault, he, hn⟩ | ⟨cycles, hok, hn⟩ <;> rw [hn]
    · rcases ht : toCheck c with ⟨result, checked, records⟩
      rw [ht] at he hrunning
      obtain rfl : result = .error fault := he
      exact hrunning
    · rcases ht : toCheck c with ⟨result, checked, records⟩
      rw [ht] at hok hrunning
      obtain rfl : result = .ok cycles := hok
      dsimp only at hrunning ⊢
      rw [afterAll_append, ← hrunning, hardware_serveInterrupts]

end Console

end DotMatrix
