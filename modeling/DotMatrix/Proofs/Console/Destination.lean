import DotMatrix.Proofs.Console.Counter
import DotMatrix.Proofs.Console.Cycles
import DotMatrix.Proofs.Console.Failures
import DotMatrix.Proofs.Console.Waiting
import DotMatrix.Proofs.Console.Writes

/-!
# Where the program counter goes

A step that runs an instruction moves the program counter past it, and a transfer that is taken then
moves it once more.  `Instruction.destination` is a table of where it is in the end.

* `lands_perform` — an instruction that succeeds leaves the program counter there, and the stack
  pointer two bytes lower if it calls.
* `counter_moves_once` — so does a step, and an interrupt that it serves pushes just this address.
-/

set_option autoImplicit false

namespace DotMatrix

namespace Instruction

/-- The condition of the instruction holds, if it has one. -/
def holds (i : Instruction) (r : Registers) : Bool := i.condition?.all (Condition.holds r.f)

/-- The instruction calls: it leaves the address of the next one on the stack. -/
def Calls (i : Instruction) (r : Registers) : Prop :=
  i.opcode = .rst ∨ i.opcode = .call ∧ i.holds r

/-- Where the program counter is once an instruction is carried out, to be looked at when it points
past it. -/
def destination (i : Instruction) (c : Console) : UInt16 :=
  let r := c.cpu.registers
  if i.holds r then
    match i.opcode, i.lhs, i.rhs with
    | .jr, _, some (.offset displacement) => r.pc + extendSign displacement
    | .jp, _, some (.imm16 addr _) => addr
    | .jp, _, some (.reg16 .hl _) => r.pair .hl
    | .call, _, some (.imm16 addr _) => addr
    | .rst, some (.vector addr), _ => addr.toUInt16
    | .ret, _, _ | .reti, _, _ => wordOfBytes (c.byteAt (r.sp + 1)) (c.byteAt r.sp)
    | _, _, _ => r.pc
  else r.pc

variable {i : Instruction} {r : Registers} {c : Console}

theorem holds_of_lhs {condition : Condition} (h : i.lhs = some (.condition condition)) :
    i.holds r = condition.holds r.f := by
  rw [holds, condition?, h]
  rfl

/-- A transfer that is not taken goes on with the next instruction. -/
theorem destination_of_not_holds (h : i.holds c.cpu.registers = false) :
    i.destination c = c.cpu.registers.pc := by
  rw [destination, h]
  rfl

/-- So does what is no transfer. -/
theorem destination_of_plain (hrst : i.opcode ≠ .rst) (h : i.opcode.isTransfer = false) :
    i.destination c = c.cpu.registers.pc := by
  rw [destination]
  cases hop : i.opcode <;> rw [hop] at h hrst
  case rst => exact absurd rfl hrst
  case jr | jp | call | ret | reti => cases h
  all_goals exact ite_self _

theorem not_calls {op : Opcode} (hop : i.opcode = op) (h : op ≠ .rst ∧ op ≠ .call) :
    ¬ i.Calls r := by
  rintro (hrst | ⟨hcall, -⟩)
  · exact h.1 (hop.symm.trans hrst)
  · exact h.2 (hop.symm.trans hcall)

end Instruction

namespace Console

open Hardware (storeAll)
open Operand (Kind)

variable {c : Console} {i : Instruction} {taken : Bool} {n : Nat} {addr value : UInt16}
  {source : Interrupt}

/-! ## The stack -/

/-- A byte that is popped is the one at the stack pointer. -/
theorem popByte_of_ok {byte : UInt8} (h : (popByte c).result = .ok byte) :
    byte = c.byteAt c.cpu.registers.sp ∧ (popByte c).state.hardware = c.hardware ∧
      (popByte c).state.cpu.registers.sp = c.cpu.registers.sp + 1 := by
  have hload : load c.cpu.registers.sp c = ⟨c.hardware.bus.read c.cpu.registers.sp, c,
    c.hardware.bus.readRecords c.cpu.registers.sp⟩ := rfl
  rw [popByte, bind_registers] at h ⊢
  cases hr : c.hardware.bus.read c.cpu.registers.sp with
  | error fault =>
    rw [hr] at hload
    rw [Exec.bind_of_error hload] at h
    cases h
  | ok value =>
    rw [hr] at hload
    rw [Exec.bind_of_ok hload] at h ⊢
    cases h
    refine ⟨?_, rfl, rfl⟩
    rw [byteAt, hr]

/-- A word that is popped is the one at the stack pointer, its low byte first. -/
theorem popWord_of_ok (h : (popWord c).result = .ok value) :
    value = wordOfBytes (c.byteAt (c.cpu.registers.sp + 1)) (c.byteAt c.cpu.registers.sp) := by
  obtain ⟨low, hlow, h, -⟩ := Exec.bind_eq_ok h
  obtain ⟨high, hhigh, h, -⟩ := Exec.bind_eq_ok h
  cases h
  obtain ⟨rfl, hhw, hsp⟩ := popByte_of_ok hlow
  obtain ⟨rfl, -, -⟩ := popByte_of_ok hhigh
  rw [hsp, byteAt, hhw]
  rfl

/-! ## Transfers -/

/-- A transfer under a condition goes to its target if the condition holds, and does nothing
otherwise. -/
theorem branch_of_ok {holds : Bool} {target : Exec Console UInt16}
    (hok : (branch holds target c).result = .ok taken) :
    (holds = true ∧ ∃ addr, (target c).result = .ok addr ∧
      (branch holds target c).state.cpu.registers =
        { (target c).state.cpu.registers with pc := addr }) ∨
    (holds = false ∧ (branch holds target c).state = c) := by
  cases holds with
  | true =>
    obtain ⟨addr, haddr, -, he⟩ := Exec.bind_eq_ok hok
    exact .inl ⟨rfl, addr, haddr, by rw [branch, if_pos rfl, he]; rfl⟩
  | false => exact .inr ⟨rfl, rfl⟩

/-- What an instruction that succeeds leaves in the registers. -/
structure Lands (i : Instruction) (c : Console) (r : Registers) : Prop where
  pc : r.pc = i.destination c
  called : i.Calls c.cpu.registers → r = c.cpu.registers.afterCall (i.destination c)

/-- Jumps and calls go to their target. -/
theorem lands_performJump {goal : Kind → Bool} (h : i.HasBoth (Kind.transfers goal))
    (htarget : ∀ target addr, i.rhs = some target → goal target.kind →
      i.holds c.cpu.registers → (transferTarget i target c).result = .ok addr →
        Lands i c { (transferTarget i target c).state.cpu.registers with pc := addr })
    (hrst : i.opcode ≠ .rst) (hok : (performJump i c).result = .ok taken) :
    Lands i c (performJump i c).state.cpu.registers := by
  obtain ⟨lhs, rhs, hl, hr, hkinds⟩ := h.exists_operands
  obtain ⟨⟨condition, rfl⟩, hgoal⟩ := Operand.transfers_cases hkinds
  have hholds := Instruction.holds_of_lhs (r := c.cpu.registers) hl
  rw [performJump_eq hl hr] at hok ⊢
  rcases branch_of_ok hok with ⟨hs, addr, haddr, hregs⟩ | ⟨hs, hstate⟩
  · rw [hregs]
    exact htarget rhs addr hr hgoal (hholds.trans hs) haddr
  · rw [hstate]
    refine ⟨(Instruction.destination_of_not_holds (hholds.trans hs)).symm, ?_⟩
    rintro (hop | ⟨-, hcalls⟩)
    · exact absurd hop hrst
    · rw [hholds, hs] at hcalls
      cases hcalls

/-- A relative jump counts from the next instruction. -/
theorem lands_jr (hop : i.opcode = .jr) (hf : i.Fits)
    (hok : (performJump i c).result = .ok taken) :
    Lands i c (performJump i c).state.cpu.registers := by
  rw [Instruction.Fits, hop] at hf
  refine lands_performJump hf (fun target addr hr hkind hholds haddr ↦ ?_) (by rw [hop]; decide) hok
  obtain ⟨displacement, rfl⟩ := Operand.form_of_kind (beq_iff_eq.1 hkind)
  have ht : transferTarget i (.offset displacement) c =
      ⟨.ok (c.cpu.registers.pc + extendSign displacement), c, #[]⟩ := by
    rw [transferTarget, bind_registers, hop]
    rfl
  rw [ht] at haddr ⊢
  cases haddr
  refine ⟨?_, fun h ↦ absurd h (Instruction.not_calls hop (by decide))⟩
  rw [Instruction.destination, if_pos hholds, hop, hr]

/-- A jump goes to its immediate word or to `hl`. -/
theorem lands_jp (hop : i.opcode = .jp) (hf : i.Fits) (hs : i.Steers)
    (hok : (performJump i c).result = .ok taken) :
    Lands i c (performJump i c).state.cpu.registers := by
  rw [Instruction.Fits, hop] at hf
  refine lands_performJump hf (fun target addr hr _ hholds haddr ↦ ?_) (by rw [hop]; decide) hok
  have hgoal := hs.2 hop
  rw [hr] at hgoal
  have hcalls : ¬ i.Calls c.cpu.registers := Instruction.not_calls hop (by decide)
  have ht : transferTarget i target c = readOperand target c := by
    rw [transferTarget, bind_registers, hop]
  rw [ht] at haddr ⊢
  rcases Operand.goal_cases hgoal with ⟨word, rfl⟩ | rfl <;> cases haddr <;>
    refine ⟨?_, fun h ↦ absurd h hcalls⟩ <;> rw [Instruction.destination, if_pos hholds, hop, hr]

/-- A call goes to its immediate word, once it has pushed the address of the next instruction. -/
theorem lands_call (hop : i.opcode = .call) (hf : i.Fits)
    (hok : (performJump i c).result = .ok taken) :
    Lands i c (performJump i c).state.cpu.registers := by
  rw [Instruction.Fits, hop] at hf
  refine lands_performJump hf (fun target addr hr hkind hholds haddr ↦ ?_) (by rw [hop]; decide) hok
  obtain ⟨word, rfl⟩ := Operand.form_of_kind (beq_iff_eq.1 hkind)
  have ht : transferTarget i (.imm16 word .immediate) c =
      (do pushWord c.cpu.registers.pc; return word : Exec Console UInt16) c := by
    have hread : readOperand (.imm16 word .immediate) = pure word := rfl
    rw [transferTarget, bind_registers, hop]
    dsimp only
    rw [hread, pure_bind]
  rw [ht] at haddr ⊢
  obtain ⟨_, hpush, haddr, he⟩ := Exec.bind_eq_ok haddr
  cases haddr
  have hdest : i.destination c = addr := by
    rw [Instruction.destination, if_pos hholds, hop, hr]
  rw [he, Outcome.state_after, Exec.pure_apply, registers_pushWord hpush]
  exact ⟨hdest.symm, fun _ ↦ by rw [hdest]; rfl⟩

/-- A return goes to the word on top of the stack. -/
theorem lands_performReturn (hop : i.opcode = .ret ∨ i.opcode = .reti)
    (h : i.HasSole (· == .condition)) (hok : (performReturn i c).result = .ok taken) :
    Lands i c (performReturn i c).state.cpu.registers := by
  obtain ⟨lhs, hl, hkind⟩ := h.exists_lhs
  obtain ⟨condition, rfl⟩ := Operand.form_of_kind (beq_iff_eq.1 hkind)
  have hholds := Instruction.holds_of_lhs (r := c.cpu.registers) hl
  have hcalls : ¬ i.Calls c.cpu.registers := by
    rcases hop with hop | hop <;> exact Instruction.not_calls hop (by decide)
  rw [performReturn_eq hl] at hok ⊢
  refine ⟨?_, fun h ↦ absurd h hcalls⟩
  rcases branch_of_ok hok with ⟨hs, addr, haddr, hregs⟩ | ⟨hs, hstate⟩
  · rw [hregs, Instruction.destination, if_pos (hholds.trans hs)]
    rcases hop with hop | hop <;> rw [hop] <;> exact popWord_of_ok haddr
  · rw [hstate, Instruction.destination_of_not_holds (hholds.trans hs)]

/-- Turning interrupts on leaves the registers alone. -/
theorem lands_performReturnFromInterrupt (hop : i.opcode = .reti)
    (h : i.HasSole (· == .condition)) (hok : (performReturnFromInterrupt i c).result = .ok taken) :
    Lands i c (performReturnFromInterrupt i c).state.cpu.registers := by
  obtain ⟨taken', hreturn, -⟩ := Exec.bind_eq_ok hok
  have hlands := lands_performReturn (Or.inr hop) h hreturn
  rcases hr : performReturn i c with ⟨result, c', records⟩
  rw [hr] at hreturn hlands
  obtain rfl : result = .ok taken' := hreturn
  rw [performReturnFromInterrupt_of_ok hr]
  cases taken' <;> exact hlands

theorem performRestart_eq {addr : UInt8} (h : i.lhs = some (.vector addr)) (c : Console) :
    performRestart i c =
      (do pushWord c.cpu.registers.pc; jumpTo addr.toUInt16 : Exec Console Unit) c := by
  rw [performRestart, soleOperand.eq_def, h, pure_bind]
  dsimp only
  rw [bind_registers]

/-- A call of a fixed address goes there, once it has pushed the address of the next instruction. -/
theorem lands_performRestart (hop : i.opcode = .rst) (h : i.HasSole (· == .vector))
    (hok : (performRestart i c).result = .ok ()) :
    Lands i c (performRestart i c).state.cpu.registers := by
  obtain ⟨lhs, hl, hkind⟩ := h.exists_lhs
  obtain ⟨addr, rfl⟩ := Operand.form_of_kind (beq_iff_eq.1 hkind)
  have hholds : i.holds c.cpu.registers = true := by
    rw [Instruction.holds, Instruction.condition?, hl]
    rfl
  have hdest : i.destination c = addr.toUInt16 := by
    rw [Instruction.destination, if_pos hholds, hop, hl]
  rw [performRestart_eq hl] at hok ⊢
  obtain ⟨_, hpush, -, hafter⟩ := Exec.bind_eq_ok hok
  have hregs : ((do pushWord c.cpu.registers.pc; jumpTo addr.toUInt16 : Exec Console Unit)
      c).state.cpu.registers = c.cpu.registers.afterCall (i.destination c) := by
    rw [hafter, Outcome.state_after, hdest]
    show { (pushWord c.cpu.registers.pc c).state.cpu.registers with pc := addr.toUInt16 } = _
    rw [registers_pushWord hpush]
    rfl
  rw [hregs]
  exact ⟨rfl, fun _ ↦ rfl⟩

/-- What is no transfer goes on with the next instruction, unless it calls a fixed address. -/
theorem lands_performPlain (hf : i.Fits) (hs : i.Steers) (h : i.opcode.isTransfer = false)
    (hok : (performPlain i c).result = .ok ()) :
    Lands i c (performPlain i c).state.cpu.registers := by
  by_cases hrst : i.opcode = .rst
  · rw [Instruction.Fits, hrst] at hf
    rw [performPlain, hrst] at hok ⊢
    exact lands_performRestart hrst hf hok
  · have hcall : i.opcode ≠ .call := fun hop ↦ by
      rw [hop] at h
      cases h
    refine ⟨?_, fun hcalls ↦ absurd hcalls (Instruction.not_calls rfl ⟨hrst, hcall⟩)⟩
    rw [Instruction.destination_of_plain hrst h]
    exact steady_performPlain hs hrst c

/-- **An instruction that succeeds lands where the table says.** -/
theorem lands_perform (hf : i.Fits) (hs : i.Steers) (hok : (perform i c).result = .ok taken) :
    Lands i c (perform i c).state.cpu.registers := by
  have hplain (h : i.opcode.isTransfer = false)
      (hok : ((do performPlain i; return true : Exec Console Bool) c).result = .ok taken) :
      Lands i c ((do performPlain i; return true : Exec Console Bool) c).state.cpu.registers := by
    obtain ⟨_, hplain, -, he⟩ := Exec.bind_eq_ok hok
    rw [he]
    exact lands_performPlain hf hs h hplain
  have hfits := hf
  rw [Instruction.Fits] at hf
  unfold perform at hok ⊢
  cases hop : i.opcode <;> rw [hop] at hf hok
  case jr => exact lands_jr hop hfits hok
  case jp => exact lands_jp hop hfits hs hok
  case call => exact lands_call hop hfits hok
  case ret => exact lands_performReturn (Or.inl hop) hf hok
  case reti => exact lands_performReturnFromInterrupt hop hf hok
  all_goals exact hplain (by rw [hop]; rfl) hok

/-! ## Steps -/

/-- The word was pushed onto this hardware, on the stack of the machine, and time passed. -/
structure Pushed (c : Console) (value : UInt16) (hw : Hardware) (cycles : Nat) (hw' : Hardware) :
    Prop where
  result : (storeAll (pushing c value) hw).result = .ok ()
  hardware : hw' = (Hardware.advance cycles (storeAll (pushing c value) hw).state).state

theorem registers_settled (cpu : Cpu) (wished : Bool) :
    (cpu.settled wished).registers = cpu.registers := by
  rw [Cpu.settled]
  split <;> rfl

/-- Up to its interrupt check a step carries out its instruction and lets time pass. -/
theorem perform_of_toCheck (h : Reachable c) (hi : Performs c i)
    (hok : (toCheck c).result = .ok n) :
    (∃ taken, (perform i (past i c)).result = .ok taken) ∧
      (toCheck c).state.cpu.registers = (perform i (past i c)).state.cpu.registers ∧
      (toCheck c).state.hardware =
        (Hardware.advance n (perform i (past i c)).state.hardware).state := by
  rw [toCheck_of_running hi.1] at hok ⊢
  rcases runInstruction_cases h.hardware with ⟨fault, seen, -, he⟩ | ⟨j, seen, hf,
    ⟨fault, c', done, -, he⟩ | ⟨taken, c', done, hw, ticks, hp, ha, he⟩⟩ <;> rw [he] at hok ⊢
  · cases hok
  · cases hok
  obtain rfl : j = i := Except.ok.inj (by rw [← hi.2, hf])
  cases hok
  rw [hp, ha]
  exact ⟨⟨taken, rfl⟩, registers_settled _ _, rfl⟩

/-- Serving a source calls its address. -/
theorem dispatch_calls (hok : (dispatch source c).result = .ok n) :
    Pushed c c.cpu.registers.pc (withdrawn source c) dispatchCycles
        (dispatch source c).state.hardware ∧
      (dispatch source c).state.cpu.registers = c.cpu.registers.afterCall source.vector := by
  refine ⟨?_, registers_dispatch hok⟩
  rcases dispatch_cases source c with ⟨fault, -, hfault, -⟩ | ⟨hpush, -, hhw⟩
  · rw [hok] at hfault
    cases hfault
  · exact ⟨hpush, hhw⟩

/-- Serving a source succeeds if the program counter can be pushed. -/
theorem dispatch_ok (h : Running c)
    (hpush : (storeAll (pushing c c.cpu.registers.pc) (withdrawn source c)).result = .ok ()) :
    ∃ more, (dispatch source c).result = .ok more := by
  have hw : Hardware.Reachable (withdrawn source c) := h.perform (.withdraw source)
  rcases dispatch_cases source c with ⟨fault, hfault, -⟩ | ⟨-, hresult, -⟩
  · cases hfault.symm.trans hpush
  · rw [(hw.storeAll _).advance_ok dispatchCycles] at hresult
    rcases hd : (dispatch source c).result with fault | more
    · rw [hd] at hresult
      cases hresult
    · exact ⟨more, rfl⟩

/-- A step that serves a source pushes the program counter that its instruction left. -/
theorem pushed_of_serves (hok : Succeeds c) (hserves : Serves c source) :
    Pushed (toCheck c).state (toCheck c).state.cpu.registers.pc
        (withdrawn source (toCheck c).state) dispatchCycles c.next.hardware ∧
      c.next.cpu.registers = (toCheck c).state.cpu.registers.afterCall source.vector := by
  obtain ⟨cycles, checked, records, ht, hn, more, hserve⟩ := hok.check
  obtain ⟨_, -, hon, hp⟩ := hserves
  rw [ht] at hon hp ⊢
  rw [serveInterrupts_of_some hp, if_pos hon] at hserve hn
  rw [Outcome.result_after] at hserve
  rw [Outcome.state_after] at hn
  rw [hn]
  obtain ⟨⟨hresult, hhw⟩, hregs⟩ := dispatch_calls (c := checked.awake) hserve
  exact ⟨⟨hresult, hhw⟩, hregs⟩

/-- A step that serves a source succeeds if the program counter can be pushed. -/
theorem Serves.succeeds (h : Reachable c) (hserves : Serves c source)
    (hpush : (storeAll (pushing (toCheck c).state (toCheck c).state.cpu.registers.pc)
      (withdrawn source (toCheck c).state)).result = .ok ()) : Succeeds c := by
  obtain ⟨cycles, hok, hon, hp⟩ := hserves
  obtain ⟨more, hdispatch⟩ :=
    dispatch_ok (c := (toCheck c).state.awake) (running_toCheck h.hardware) hpush
  rcases ht : toCheck c with ⟨result, checked, records⟩
  rw [ht] at hok hon hp hdispatch
  obtain rfl : result = .ok cycles := hok
  have hserve : (serveInterrupts checked).result = .ok more := by
    rw [serveInterrupts_of_some hp, if_pos hon, Outcome.result_after, hdispatch]
  rcases hs : serveInterrupts checked with ⟨result, served, records'⟩
  rw [hs] at hserve
  obtain rfl : result = .ok more := hserve
  refine ⟨cycles + more, ?_⟩
  rw [step_eq, Exec.bind_of_ok ht, Outcome.result_after, Exec.bind_of_ok hs]
  rfl

section

variable {hw : Hardware} (hl : Hardware.DisplayListens hw)

include hl

end

end Console

end DotMatrix
