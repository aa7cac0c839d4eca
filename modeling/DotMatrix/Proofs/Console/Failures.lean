import DotMatrix.Proofs.Console.Writes

/-!
# How a step fails

Nothing but the program can make a step fail: it gets to a byte that is no instruction, it reads or
writes where nothing is mapped, or it selects a window that the controller does not have.  This is so
on all hardware that was started and acted on since, with anything in the registers.

* `Unfetched`, `Stopped` — what stops a fetch, and an instruction or a push.
* `fetch_of_undefined`, `unfetched_of_error` — a fetch fails at an undefined opcode, and how else.
* `stopped_of_perform`, `stopped_of_serve` — an instruction and an interrupt check are stopped by an
  access to the bus, and then no time has passed in them.
* `Fails`, `step_fails_genuinely` — all ways in which a step fails, and what each leaves.
-/

set_option autoImplicit false

namespace DotMatrix

/-! ## Opcodes -/

namespace Instruction

/-- The bytes that stand for no instruction. -/
def undefinedOpcodes : List UInt8 :=
  [0xd3, 0xdb, 0xdd, 0xe3, 0xe4, 0xeb, 0xec, 0xed, 0xf4, 0xfc, 0xfd]

theorem template_eq_none_iff :
    ∀ opcode, template opcode = none ↔ opcode = prefixByte ∨ opcode ∈ undefinedOpcodes :=
  forall_byte (by decide +kernel)

end Instruction

open Instruction (undefinedOpcodes template_eq_none_iff)

/-! ## Writes next to each other -/

/-- At most two writes, and two only to addresses next to each other. -/
inductive Compact : List (UInt16 × UInt8) → Prop where
  | none : Compact []
  | one (addr : UInt16) (value : UInt8) : Compact [(addr, value)]
  | rising (addr : UInt16) (low high : UInt8) : Compact [(addr, low), (addr + 1, high)]
  | falling (addr : UInt16) (high low : UInt8) : Compact [(addr, high), (addr - 1, low)]

theorem Compact.length_le {writes : List (UInt16 × UInt8)} (h : Compact writes) :
    writes.length ≤ 2 := by
  cases h <;> simp

/-- What comes before a write is nothing or one write next to it. -/
theorem Compact.before {done rest : List (UInt16 × UInt8)} {addr : UInt16} {value : UInt8}
    (h : Compact (done ++ (addr, value) :: rest)) :
    done = [] ∨ ∃ before other, done = [(before, other)] ∧
      (addr = before + 1 ∨ addr = before - 1) := by
  match done, h with
  | [], _ => exact Or.inl rfl
  | [(before, other)], h =>
    refine Or.inr ⟨before, other, rfl, ?_⟩
    cases h with
    | rising => exact Or.inl rfl
    | falling => exact Or.inr rfl
  | _ :: _ :: done, h =>
    have hle := h.length_le
    simp at hle

namespace Hardware

theorem result_load (addr : UInt16) (hw : Hardware) :
    (load addr hw).result = hw.bus.read addr := rfl

variable {hw : Hardware} {writes : List (UInt16 × UInt8)} {fault : Fault}

theorem clock_write_of_ne (hl : DisplayListens hw) {addr : UInt16}
    (hne : addr ≠ Register.lcdControl) (value : UInt8) :
    (write addr value hw).state.clock = hw.clock := by
  rw [write_of_ne hl hne]
  rfl

/-- Writes next to each other that fail leave the clock alone: what comes before the one that is
rejected does not turn the display on or off. -/
theorem clock_storeAll_of_error (h : Reachable hw) (hc : Compact writes)
    (hf : (storeAll writes hw).result = .error fault) :
    (storeAll writes hw).state.clock = hw.clock := by
  obtain ⟨done, addr, value, rest, rfl, hok, hstate, hrejects⟩ := exists_rejects h hf
  rw [hstate]
  rcases hc.before with rfl | ⟨before, other, rfl, hnext⟩
  · rfl
  · have hne : before ≠ Register.lcdControl := by
      rintro rfl
      rcases hnext with rfl | rfl
      · exact absurd hrejects.lt (by decide)
      · exact absurd hrejects.lt (by decide)
    have hone : storeAll [(before, other)] hw = write before other hw :=
      congrFun bind_pure_unit hw
    rw [hone]
    exact clock_write_of_ne h.wired.1.listens hne other

end Hardware

namespace Console

open Hardware (storeAll)

variable {c : Console} {i : Instruction} {fault : Fault}

/-! ## What stops a part of a step -/

/-- What stops a fetch: the byte at the program counter stands for nothing, or one that is to be
read is not mapped. -/
inductive Unfetched (c : Console) : Fault → Prop where
  | undefined {opcode : UInt8} (hread : c.hardware.bus.read c.cpu.registers.pc = .ok opcode)
      (h : opcode ∈ undefinedOpcodes) :
      Unfetched c (.undefinedOpcode opcode c.cpu.registers.pc false)
  | unmapped {addr : UInt16} (h : Unmapped addr) : Unfetched c (.outOfBounds addr)

/-- What stops something that makes these writes: a byte that is to be read is not mapped, or the
bus rejects one of the writes. -/
inductive Stopped (b : Bus) (writes : List (UInt16 × UInt8)) : Fault → Prop where
  | read {addr : UInt16} (h : Unmapped addr) : Stopped b writes (.outOfBounds addr)
  | write {addr : UInt16} {value : UInt8} {fault : Fault} (hm : (addr, value) ∈ writes)
      (h : b.Rejects addr value fault) : Stopped b writes fault

theorem Running.unmapped_of_refuses (h : Running c) (hr : Refuses c.hardware fault) :
    ∃ addr, Unmapped addr ∧ fault = .outOfBounds addr := by
  obtain ⟨addr, hr⟩ := hr
  exact ⟨addr, (Bus.read_eq_error_iff h.bounded.cartridge).1 hr⟩

/-! ## Fetching -/

/-- Only reads stop the operation, and it changes nothing. -/
def Peeks {α : Type} (x : Exec Hardware α) : Prop := Exec.Looks id Refuses x

theorem peeks_covers : Instruction.CoversReading Hardware.load fun _ ↦ Peeks where
  pure := .pure
  bind := .bind
  read addr hw := ⟨(Hardware.untouched_load addr hw).1, fun _ h ↦ ⟨addr, h⟩⟩

/-- Decoding fails at a read, or because the opcode stands for nothing. -/
theorem decode_error_cases {pc : UInt16} {hw : Hardware}
    (hf : (Instruction.decode Hardware.load Exec.fail pc hw).result = .error fault) :
    Refuses hw fault ∨ ∃ opcode, hw.bus.read pc = .ok opcode ∧ opcode ∈ undefinedOpcodes ∧
      fault = .undefinedOpcode opcode pc false := by
  have hkept : ∀ addr, (Hardware.load addr hw).state = hw :=
    fun addr ↦ (Hardware.untouched_load addr hw).1
  rw [Instruction.decode] at hf
  rcases Exec.bind_eq_error hf with hf | ⟨opcode, hread, hf⟩
  · exact Or.inl ⟨pc, hf⟩
  rw [hkept] at hf
  split at hf
  · rcases Exec.bind_eq_error hf with hf | ⟨opcode, -, hf⟩
    · exact Or.inl ⟨pc + 1, hf⟩
    rw [Instruction.entry_prefixedTemplates] at hf
    -- Every opcode behind the prefix byte stands for an instruction.
    cases ht : Instruction.prefixedTemplate opcode with
    | none => exact absurd ht (Instruction.prefixedTemplate_ne_none opcode)
    | some i =>
      rw [ht] at hf
      cases hf
  rename_i hplain
  rw [Instruction.entry_templates] at hf
  cases ht : Instruction.template opcode with
  | none =>
    rw [ht] at hf
    cases hf
    exact Or.inr ⟨opcode, hread, ((template_eq_none_iff opcode).1 ht).resolve_left hplain, rfl⟩
  | some plain =>
    rw [ht] at hf
    have hfill : Peeks (do
        let lhs ← Instruction.fillOperand? Hardware.load (pc + 1) plain.lhs
        let rhs ← Instruction.fillOperand? Hardware.load (pc + 1) plain.rhs
        return { plain with lhs := lhs, rhs := rhs }) :=
      peeks_covers.bind (peeks_covers.fillOperand? _ _) fun _ ↦
        peeks_covers.bind (peeks_covers.fillOperand? _ _) fun _ ↦ peeks_covers.pure _
    exact Or.inl ((hfill hw).2 fault hf)

theorem unfetched_of_error (h : Running c) (hf : (fetch c).result = .error fault) :
    Unfetched c fault := by
  rw [fetch, registers, Exec.bind_gets] at hf
  rcases Exec.bind_eq_error hf with hf | ⟨i, -, hf⟩
  · rcases decode_error_cases hf with hr | ⟨opcode, hread, hm, rfl⟩
    · obtain ⟨addr, hu, rfl⟩ := h.unmapped_of_refuses hr
      exact .unmapped hu
    · exact .undefined hread hm
  · rcases Exec.bind_eq_error hf with hf | ⟨_, -, hf⟩ <;> cases hf

/-- A byte that stands for nothing is turned down wherever it is met. -/
theorem fetch_of_undefined {opcode : UInt8}
    (hread : c.hardware.bus.read c.cpu.registers.pc = .ok opcode) (h : opcode ∈ undefinedOpcodes) :
    (fetch c).result = .error (.undefinedOpcode opcode c.cpu.registers.pc false) := by
  have hplain : opcode ≠ Instruction.prefixByte := by
    rintro rfl
    exact absurd h (by decide)
  have ht : Instruction.template opcode = none := (template_eq_none_iff opcode).2 (Or.inr h)
  have hload : Hardware.load c.cpu.registers.pc c.hardware =
      ⟨.ok opcode, c.hardware, c.hardware.bus.readRecords c.cpu.registers.pc⟩ := by
    rw [Hardware.load, Hardware.onBus, Bus.load, hread]
  have hdecode : ∃ records, Instruction.decode Hardware.load Exec.fail c.cpu.registers.pc
      c.hardware =
        ⟨.error (.undefinedOpcode opcode c.cpu.registers.pc false), c.hardware, records⟩ := by
    rw [Instruction.decode, Exec.bind_of_ok hload, if_neg hplain, Instruction.entry_templates, ht]
    exact ⟨_, rfl⟩
  obtain ⟨records, hdecode⟩ := hdecode
  have hd : onHardware (Instruction.decode Hardware.load Exec.fail c.cpu.registers.pc) c =
      ⟨.error (.undefinedOpcode opcode c.cpu.registers.pc false), c, records⟩ := by
    rw [onHardware, hdecode]
  rw [fetch, registers, Exec.bind_gets, Exec.bind_of_error hd]

/-! ## Executing -/

theorem compact_placing (c : Console) (operand : Operand) (value : UInt8) :
    Compact (placing c operand value) := by
  cases operand with
  | reg8 | reg16 | imm8 | imm16 =>
    rw [placing]
    split
    · exact .one _ _
    · exact .none
  | _ => exact .none

theorem compact_placingOf (x : Exec Console UInt8) (operand : Operand) (c : Console) :
    Compact (placingOf x operand c) := by
  rw [placingOf]
  split
  · exact compact_placing _ _ _
  · exact .none

theorem compact_pushing (c : Console) (value : UInt16) : Compact (pushing c value) :=
  .falling _ _ _

theorem compact_ofSole {writes : Operand → List (UInt16 × UInt8)}
    (h : ∀ operand, Compact (writes operand)) : Compact (ofSole i writes) := by
  rw [ofSole]
  split
  · exact h _
  · exact .none

theorem compact_ofBoth {writes : Operand → Operand → List (UInt16 × UInt8)}
    (h : ∀ lhs rhs, Compact (writes lhs rhs)) : Compact (ofBoth i writes) := by
  rw [ofBoth]
  split
  · exact h _ _
  · exact .none

theorem compact_copying (lhs rhs : Operand) : Compact (copying c lhs rhs) := by
  unfold copying
  split
  · exact .rising _ _ _
  · exact .none
  · exact compact_placingOf _ _ _

theorem compact_stepping (operation : Registers → UInt8 → UInt8 × Registers) (operand : Operand) :
    Compact (stepping operation c operand) := by
  unfold stepping
  split
  · exact .none
  · exact compact_placingOf _ _ _

theorem compact_marking (change : UInt8 → UInt8 → UInt8) (lhs rhs : Operand) :
    Compact (marking change c lhs rhs) := by
  unfold marking
  split
  · exact compact_placingOf _ _ _
  · exact .none

theorem compact_calling (lhs rhs : Operand) : Compact (calling c lhs rhs) := by
  unfold calling
  repeat' split
  all_goals first | exact compact_pushing _ _ | exact .none

theorem compact_restarting (operand : Operand) : Compact (restarting c operand) := by
  unfold restarting
  split
  · exact compact_pushing _ _
  · exact .none

theorem compact_pushingPair (operand : Operand) : Compact (pushingPair c operand) := by
  unfold pushingPair
  split
  · exact compact_pushing _ _
  · exact .none

/-- An instruction makes at most two writes, and two only next to each other. -/
theorem compact_stores (i : Instruction) (c : Console) : Compact (stores i c) := by
  rw [stores]
  cases i.opcode with
  | ld | ldh => exact compact_ofBoth compact_copying
  | inc | dec => exact compact_ofSole (compact_stepping _)
  | rlc | rrc | rl | rr | sla | sra | swap | srl =>
    exact compact_ofSole fun operand ↦ compact_placingOf _ operand c
  | res | set => exact compact_ofBoth (compact_marking _)
  | push => exact compact_ofSole compact_pushingPair
  | call => exact compact_ofBoth compact_calling
  | rst => exact compact_ofSole compact_restarting
  | stop => exact .one _ _
  | _ => exact .none

/-- Writes fail at one that the bus rejects; only the kind of the cartridge matters. -/
theorem stopped_of_storeAll {hw : Hardware} (h : Hardware.Reachable hw) {b : Bus}
    (hb : hw.bus.cartridge = b.cartridge) {writes : List (UInt16 × UInt8)}
    (hf : (storeAll writes hw).result = .error fault) : Stopped b writes fault := by
  obtain ⟨done, addr, value, rest, rfl, -, -, hrejects⟩ := Hardware.exists_rejects h hf
  refine .write (List.mem_append_right done List.mem_cons_self) (hrejects.of_isBanked ?_)
  rw [hb]
  exact id

/-- An instruction that fails is stopped by an access to the bus, and then no time has passed: no
operand stops it, and neither do its writes touch the clock before one is rejected. -/
theorem stopped_of_perform (h : Running c) (hi : i.Fits)
    (hf : (perform i c).result = .error fault) :
    Stopped c.hardware.bus (stores i c) fault ∧
      (perform i c).state.hardware.clock = c.hardware.clock := by
  obtain ⟨hstate, hresult⟩ := carries_perform i c
  rw [hf] at hresult
  rcases hresult with hresult | ⟨fault', hfault, hnone, hwhy⟩
  · have hfail : (storeAll (stores i c) c.hardware).result = .error fault := hresult.symm
    refine ⟨stopped_of_storeAll h rfl hfail, ?_⟩
    rw [hstate]
    exact Hardware.clock_storeAll_of_error h (compact_stores i c) hfail
  · cases hfault
    rw [hnone] at hstate ⊢
    refine ⟨?_, congrArg (·.clock) hstate⟩
    rcases hwhy with hread | hmisfit
    · obtain ⟨addr, hu, rfl⟩ := h.unmapped_of_refuses hread
      exact .read hu
    · exact absurd hmisfit ((suited_perform hi c h).2 fault hf)

/-! ## Serving -/

/-- Serving a source fails only if the program counter cannot be pushed, and then no time has
passed. -/
theorem stopped_of_dispatch (h : Running c) {source : Interrupt}
    (hf : (dispatch source c).result = .error fault) :
    Stopped c.hardware.bus (pushing c c.cpu.registers.pc) fault ∧
      (dispatch source c).state.hardware.clock = c.hardware.clock := by
  have hw : Hardware.Reachable (withdrawn source c) := h.perform (.withdraw source)
  rcases dispatch_cases source c with ⟨fault', hpush, hresult, hstate⟩ | ⟨-, hresult, -⟩
  · obtain rfl : fault' = fault := Except.error.inj (hresult.symm.trans hf)
    rw [hstate]
    exact ⟨stopped_of_storeAll (b := c.hardware.bus) hw rfl hpush,
      Hardware.clock_storeAll_of_error hw (compact_pushing _ _) hpush⟩
  · rw [hf, (hw.storeAll _).advance_ok dispatchCycles] at hresult
    cases hresult

/-- Whatever is pending, an interrupt check fails only if the program counter cannot be pushed. -/
theorem stopped_of_serve (h : Running c) (hf : (serveInterrupts c).result = .error fault) :
    ∃ source, (c.cpu.interruptsOn ∧ c.hardware.body.bus.pendingInterrupt? = some source) ∧
      Stopped c.hardware.bus (pushing c c.cpu.registers.pc) fault ∧
      (serveInterrupts c).state.hardware.clock = c.hardware.clock := by
  cases hp : c.hardware.body.bus.pendingInterrupt? with
  | none =>
    rw [serveInterrupts_of_none hp] at hf
    cases hf
  | some source =>
    rw [serveInterrupts_of_some hp] at hf ⊢
    cases hon : c.cpu.interruptsOn with
    | false =>
      rw [hon, if_neg Bool.false_ne_true] at hf
      cases hf
    | true =>
      rw [hon, if_pos rfl, Outcome.result_after] at hf
      rw [if_pos rfl, Outcome.state_after]
      exact ⟨source, ⟨rfl, rfl⟩, stopped_of_dispatch (c := c.awake) h hf⟩

/-! ## Steps -/

/-- A fault that would mean that parts of the machine do not fit together: an instruction with operands
that it cannot use, a timer control byte without a period, or an opcode behind the prefix byte that
stands for nothing. -/
inductive Internal : Fault → Prop where
  | mismatched (i : Instruction) : Internal (.mismatchedOperands i)
  | unusable (operand : Operand) : Internal (.unusableOperand operand)
  | frequency (control : UInt8) : Internal (.invalidTimerFrequency control)
  | prefixed (opcode : UInt8) (addr : UInt16) : Internal (.undefinedOpcode opcode addr true)

theorem Unfetched.not_internal (h : Unfetched c fault) : ¬ Internal fault := by
  cases h <;> rintro ⟨⟩

theorem Stopped.not_internal {b : Bus} {writes : List (UInt16 × UInt8)}
    (h : Stopped b writes fault) : ¬ Internal fault := by
  cases h with
  | read => rintro ⟨⟩
  | write _ h => cases h <;> rintro ⟨⟩

/-- The ways in which a step fails, and what each leaves. -/
inductive Fails (c : Console) (fault : Fault) : Prop where
  /-- Fetching fails and nothing is changed. -/
  | fetching (hrun : c.cpu.halted = false) (hf : (fetch c).result = .error fault)
      (h : Unfetched c fault) (hkept : c.next = c)
  /-- The instruction fails, and no time has passed. -/
  | executing {i : Instruction} (hi : Performs c i)
      (h : Stopped c.hardware.bus (stores i (past i c)) fault)
      (hkept : c.next.hardware.clock = c.hardware.clock)
  /-- Pushing the program counter to serve a source fails, and no time has passed since the
  instruction. -/
  | serving {source : Interrupt} (hs : Serves c source)
      (h : Stopped (toCheck c).state.hardware.bus
        (pushing (toCheck c).state (toCheck c).state.cpu.registers.pc) fault)
      (hkept : c.next.hardware.clock = (toCheck c).state.hardware.clock)

theorem Fails.not_internal (h : Fails c fault) : ¬ Internal fault := by
  cases h with
  | fetching _ _ h => exact h.not_internal
  | executing _ h => exact h.not_internal
  | serving _ h => exact h.not_internal

/-- A step that fails before its interrupt check. -/
theorem fails_of_toCheck (h : Running c) (hf : (toCheck c).result = .error fault)
    (hn : c.next = (toCheck c).state) : Fails c fault := by
  cases hrun : c.cpu.halted with
  | true =>
    rw [toCheck_of_halted hrun, idle_eq h] at hf
    cases hf
  | false =>
    rw [toCheck_of_running hrun] at hf hn
    rcases runInstruction_cases h with ⟨fault', seen, hfetch, he⟩ |
      ⟨i, seen, hfetch, ⟨fault', c', done, hp, he⟩ | ⟨taken, c', done, hw, ticks, -, -, he⟩⟩ <;>
      rw [he] at hf hn
    · cases hf
      have hfail : (fetch c).result = .error fault := by rw [hfetch]
      exact .fetching hrun hfail (unfetched_of_error h hfail) hn
    · cases hf
      have hi : Performs c i := ⟨hrun, by rw [hfetch]⟩
      have hstopped := stopped_of_perform (c := past i c) h (fits_of_fetch hi.2) (by rw [hp])
      rw [hp] at hstopped
      refine .executing hi hstopped.1 ?_
      rw [hn]
      exact hstopped.2
    · cases hf

theorem running_toCheck (h : Running c) : Running (toCheck c).state := by
  obtain ⟨log, hl, -⟩ := acts_toCheck c
  exact Hardware.Reachable.leads h hl

/-- A step that fails at its interrupt check. -/
theorem fails_of_serve (h : Running c) {cycles : Nat} (hok : (toCheck c).result = .ok cycles)
    (hf : (serveInterrupts (toCheck c).state).result = .error fault)
    (hn : c.next = (serveInterrupts (toCheck c).state).state) : Fails c fault := by
  obtain ⟨source, hs, hstopped, hclock⟩ := stopped_of_serve (running_toCheck h) hf
  rw [← hn] at hclock
  exact .serving ⟨cycles, hok, hs⟩ hstopped hclock

theorem fails_of_error (h : Running c) (hf : (step c).result = .error fault) : Fails c fault := by
  rw [step_eq] at hf
  rcases Exec.bind_eq_error hf with hcheck | ⟨running, hok, hf⟩
  · rcases next_cases c with ⟨-, -, hn⟩ | ⟨cycles, hok, -⟩
    · exact fails_of_toCheck h hcheck hn
    · rw [hcheck] at hok
      cases hok
  · rcases next_cases c with ⟨fault', he, -⟩ | ⟨-, -, hn⟩
    · rw [hok] at he
      cases he
    · rcases Exec.bind_eq_error hf with hserve | ⟨_, -, hf⟩
      · exact fails_of_serve h hok hserve hn
      · cases hf

/-- **Only genuine errors of the program stop the machine.**  On hardware that was started and acted
on since, with anything in the registers, letting time pass never fails, and a step fails only in
one of the ways of `Fails`, never because the machine's own parts do not fit together. -/
theorem step_fails_genuinely (h : Running c) :
    (∀ cycles, (Hardware.advance cycles c.hardware).result = .ok ()) ∧
      ∀ fault, (step c).result = .error fault → Fails c fault ∧ ¬ Internal fault := by
  refine ⟨fun cycles ↦ Hardware.Reachable.advance_ok h cycles, fun fault hf ↦ ?_⟩
  have hfails := fails_of_error h hf
  exact ⟨hfails, hfails.not_internal⟩

/-- A byte that stands for nothing stops a step that meets it, which changes nothing. -/
theorem step_of_undefined {opcode : UInt8} (hrun : c.cpu.halted = false)
    (hread : c.hardware.bus.read c.cpu.registers.pc = .ok opcode) (h : opcode ∈ undefinedOpcodes) :
    (step c).result = .error (.undefinedOpcode opcode c.cpu.registers.pc false) ∧ c.next = c := by
  have hkept := (untouched_fetch c).1
  have hf := fetch_of_undefined hread h
  rcases hfetch : fetch c with ⟨result, c', seen⟩
  rw [hfetch] at hkept hf
  obtain rfl : c' = c := hkept
  obtain rfl : result = .error _ := hf
  have ht : toCheck c' = _ := (toCheck_of_running hrun).trans (runInstruction_of_unfetched hfetch)
  rw [next, step_eq, Exec.bind_of_error ht]
  exact ⟨rfl, rfl⟩

/-- A machine whose program starts with a byte that stands for nothing stays where it is. -/
theorem step_fails_genuinely_undefined :
    Running (booted 0xd3) ∧
      (step (booted 0xd3)).result = .error (.undefinedOpcode 0xd3 0x100 false) ∧
      (booted 0xd3).next = booted 0xd3 ∧
      Fails (booted 0xd3) (.undefinedOpcode 0xd3 0x100 false) := by
  have hload := Hardware.load_image (show (0x100 : UInt16) < 0x4000 by decide) (image_booted 0xd3)
  have hread : (booted 0xd3).hardware.bus.read 0x100 = .ok 0xd3 := by
    rw [← Hardware.result_load, hload]
  obtain ⟨hf, hkept⟩ := step_of_undefined (c := booted 0xd3) rfl hread (by decide)
  have h : Running (booted 0xd3) := (reachable_booted 0xd3).hardware
  exact ⟨h, hf, hkept, ((step_fails_genuinely h).2 _ hf).1⟩

end Console

end DotMatrix
