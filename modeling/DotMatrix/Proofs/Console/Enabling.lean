import DotMatrix.Proofs.Console.Destination
import DotMatrix.Proofs.Console.Serving

/-!
# Turning interrupts on

EI asks for interrupts and the instruction after it gets them: whatever that is, interrupts are on
at its interrupt check, unless it is DI, which withdraws the request.  What lies between the two, be
it something that is done to the machine from outside or a step that fails before its check, does
not count as an instruction.

* `Follows` — one machine comes from another by operations of a certain kind.
* `Unchecked`, `Unasked` — by operations without an interrupt check, and by operations that run
  neither EI nor RETI.
* `Keen` — interrupts are off and wished for; `Keen.check` is the step after that.
* `Still.step` — a step where they are off and not wished for, also when it fails.
* `enabled_one_late` — both together.
-/

set_option autoImplicit false

namespace DotMatrix.Console

variable {c c' : Console} {i : Instruction} {source : Interrupt}

/-! ## One machine after another -/

/-- The second machine comes from the first by operations that are `allowed` where they happen. -/
inductive Follows (allowed : Console → Operation → Prop) (c : Console) : Console → Prop where
  | refl : Follows allowed c c
  | perform {c' : Console} {op : Operation} (h : Follows allowed c c') (ho : allowed c' op) :
    Follows allowed c (op.perform c').state

/-- Without an interrupt check: what is done comes from outside, or is a step that fails before. -/
def Unchecked : Console → Console → Prop :=
  Follows fun c op ↦ op = .step → ∃ fault, (toCheck c).result = .error fault

/-- Without a step that runs EI or RETI, whether it succeeds or fails. -/
def Unasked : Console → Console → Prop :=
  Follows fun c op ↦ op = .step → ¬ Executes c .ei ∧ ¬ Executes c .reti

section

variable {allowed : Console → Operation → Prop}

theorem Follows.reachable (h : Follows allowed c c') (hc : Reachable c) : Reachable c' := by
  induction h with
  | refl => exact hc
  | perform _ _ ih => exact ih.perform _

/-- What an operation and its kind keep is kept all along. -/
theorem Follows.keeps {P : Console → Prop} (h : Follows allowed c c') (hr : Reachable c)
    (hc : P c)
    (hstep : ∀ {c' op}, Reachable c' → P c' → allowed c' op → P (op.perform c').state) : P c' := by
  induction h with
  | refl => exact hc
  | perform h ho ih => exact hstep (h.reachable hr) ih ho

end

/-- Nothing but a step reaches the processor. -/
theorem cpu_perform {op : Operation} (h : op ≠ .step) (c : Console) :
    (op.perform c).state.cpu = c.cpu := by
  cases op with
  | step => exact absurd rfl h
  | write addr value => rfl
  | advance cycles => rfl
  | press button pressed =>
    rw [Operation.perform, pressButton_eq]
    rfl

/-! ## Where interrupts are off -/

theorem not_dispatches_of_error {fault : Fault} (he : (toCheck c).result = .error fault) :
    ¬ Dispatches c := by
  rintro ⟨cycles, source, hok, -⟩
  rw [he] at hok
  cases hok

/-- A step that fails before its interrupt check leaves the switches alone. -/
theorem keeps_next_of_error (h : Hardware.Reachable c.hardware) {fault : Fault}
    (he : (toCheck c).result = .error fault) : ∃ r, c.next.cpu = c.cpu.withRegisters r := by
  rcases next_cases c with ⟨_, -, hn⟩ | ⟨cycles, hok, -⟩
  · rw [hn]
    exact keeps_toCheck_of_error h he
  · rw [he] at hok
    cases hok

/-- With interrupts off at its check a step that gets there succeeds. -/
theorem succeeds_of_off {cycles : Nat} (hok : (toCheck c).result = .ok cycles)
    (hoff : (toCheck c).state.cpu.interruptsOn = false) : Succeeds c := by
  obtain ⟨hzero, -⟩ := serveInterrupts_of_not_dispatches (next_of_off hoff).1 hok
  rcases ht : toCheck c with ⟨result, checked, records⟩
  rw [ht] at hok hzero
  obtain rfl : result = .ok cycles := hok
  rcases hs : serveInterrupts checked with ⟨result, c', served⟩
  rw [hs] at hzero
  obtain rfl : result = .ok 0 := hzero
  refine ⟨cycles + 0, ?_⟩
  rw [step_eq, Exec.bind_of_ok ht, Exec.bind_of_ok hs]
  rfl

/-- Where interrupts are off and not wished for, a step that does not run RETI serves none and
leaves them off, and only EI wishes for them, also when the step fails. -/
theorem Still.step (h : Reachable c) (hs : Still c) (hreti : ¬ Executes c .reti) :
    ¬ Dispatches c ∧ c.next.cpu.interruptsOn = false ∧ (¬ Executes c .ei → Still c.next) := by
  rcases hcheck : (toCheck c).result with fault | cycles
  · obtain ⟨r, hcpu⟩ := keeps_next_of_error h.hardware hcheck
    have hstill : Still c.next := by
      rw [Still, hcpu]
      exact hs
    exact ⟨not_dispatches_of_error hcheck, hstill.1, fun _ ↦ hstill⟩
  · have hoff : (toCheck c).state.cpu.interruptsOn = false := by
      rcases check_cases h hcheck with ⟨-, hcpu⟩ | ⟨op, taken, registers, hop, hcpu⟩ <;> rw [hcpu]
      · exact hs.1
      · exact interruptsOn_settled taken (fun he ↦ hreti (he ▸ hop)) hs.1 hs.2
    exact hs.next h (succeeds_of_off hcheck hoff) hreti

/-- Until EI or RETI is run they are off and not wished for. -/
theorem Still.unasked (h : Reachable c) (hs : Still c) (hc : Unasked c c') : Still c' := by
  refine hc.keeps h hs fun {c' op} hr hs' ho ↦ ?_
  by_cases hop : op = .step
  · obtain ⟨hei, hreti⟩ := ho hop
    rw [hop, state_perform_step]
    exact (hs'.step hr hreti).2.2 hei
  · rw [Still, cpu_perform hop]
    exact hs'

/-! ## Where interrupts are wished for -/

/-- Interrupts are off and wished for. -/
def Keen (c : Console) : Prop := c.cpu.interruptsOn = false ∧ c.cpu.enablePending

/-- A processor that waits for its wish to be granted is running. -/
theorem Keen.running (hk : Keen c) (h : Reachable c) : c.cpu.halted = false := by
  cases hh : c.cpu.halted with
  | false => rfl
  | true =>
    have hwish := h.attentive hh
    rw [hk.2] at hwish
    cases hwish

/-- EI wishes for interrupts, and serves none. -/
theorem Still.enable (h : Reachable c) (hs : Still c) (hei : Executes c .ei) :
    Succeeds c ∧ ¬ Dispatches c ∧ Keen c.next := by
  obtain ⟨hrun, i, hfetch, hop⟩ := hei
  have hok : ∃ cycles, (toCheck c).result = .ok cycles := by
    rw [toCheck_of_running hrun]
    rcases runInstruction_cases h.hardware with ⟨fault, seen, hf, -⟩ | ⟨j, seen, hf,
      ⟨fault, c', done, hp, -⟩ | ⟨taken, c', done, hw, ticks, -, -, hr⟩⟩
    · rw [hf] at hfetch
      cases hfetch
    · obtain rfl : j = i := Except.ok.inj (by rw [← hfetch, hf])
      rw [perform_of_switch (Or.inr (Or.inl hop))] at hp
      cases hp
    · exact ⟨_, by rw [hr]⟩
  obtain ⟨cycles, hok⟩ := hok
  have hcheck : ∃ registers, (toCheck c).state.cpu =
      Cpu.withRegisters { c.cpu with enablePending := true } registers := by
    rcases check_cases h hok with ⟨hh, -⟩ | ⟨op, taken, registers, hop', hcpu⟩
    · rw [hrun] at hh
      cases hh
    · obtain rfl := hop'.unique ⟨hrun, i, hfetch, hop⟩
      rw [hs.2] at hcpu
      exact ⟨registers, hcpu⟩
  obtain ⟨registers, hcpu⟩ := hcheck
  have hoff : (toCheck c).state.cpu.interruptsOn = false := by
    rw [hcpu]
    exact hs.1
  obtain ⟨hd, hon, hp⟩ := next_of_off hoff
  exact ⟨succeeds_of_off hok hoff, hd, hon, by rw [hp, hcpu]; rfl⟩

/-- A wish is not granted before an interrupt check. -/
theorem Keen.unchecked (h : Reachable c) (hk : Keen c) (hc : Unchecked c c') : Keen c' := by
  refine hc.keeps h hk fun {c' op} hr hk' ho ↦ ?_
  by_cases hop : op = .step
  · obtain ⟨fault, he⟩ := ho hop
    obtain ⟨r, hcpu⟩ := keeps_next_of_error hr.hardware he
    rw [hop, state_perform_step, Keen, hcpu]
    exact hk'
  · rw [Keen, cpu_perform hop]
    exact hk'

/-- A wish is granted after any other opcode than DI. -/
theorem interruptsOn_settled_of_wish {op : Opcode} {cpu : Cpu} (taken : Bool) (hdi : op ≠ .di)
    (hp : cpu.enablePending) :
    ((op.switched taken cpu).settled cpu.enablePending).interruptsOn = true := by
  by_cases hreti : op = .reti
  · subst hreti
    cases taken with
    | true => rw [hp]; rfl
    | false => rw [hp, Opcode.switched, if_neg Bool.false_ne_true, Cpu.settled, hp]; rfl
  · exact interruptsOn_granted taken hdi hreti hp

/-! ## The interrupt check of a step -/

/-- Interrupts are on at the interrupt check of the step, where the program counter is `addr`: the
most urgent source that is awaited there, if any, is served with this as its return address. -/
structure Opens (c : Console) (addr : UInt16) : Prop where
  on : (toCheck c).state.cpu.interruptsOn
  counter : (toCheck c).state.cpu.registers.pc = addr
  of_none : (toCheck c).state.hardware.awaited = 0 →
    ¬ Dispatches c ∧ c.next = (toCheck c).state
  of_some : (toCheck c).state.hardware.awaited ≠ 0 → ∃ source : Interrupt,
    LowestBit (toCheck c).state.hardware.awaited source.number ∧ Serves c source ∧
    (Succeeds c → Pushed (toCheck c).state addr (withdrawn source (toCheck c).state)
        dispatchCycles c.next.hardware ∧
      c.next.cpu.registers = (toCheck c).state.cpu.registers.afterCall source.vector)

theorem opens {cycles : Nat} (hok : (toCheck c).result = .ok cycles)
    (hon : (toCheck c).state.cpu.interruptsOn) : Opens c (toCheck c).state.cpu.registers.pc where
  on := hon
  counter := rfl
  of_none hnone := by
    have hp := (Hardware.pendingInterrupt?_eq_none_iff _).2 hnone
    refine ⟨fun ⟨_, source, _, _, hsome⟩ ↦ ?_, ?_⟩
    · cases hp.symm.trans hsome
    · rcases next_cases c with ⟨fault, he, -⟩ | ⟨_, -, hn⟩
      · rw [hok] at he
        cases he
      · rw [hn, serveInterrupts_of_none hp]
  of_some hsome := by
    cases hp : (toCheck c).state.hardware.bus.pendingInterrupt? with
    | none => exact absurd ((Hardware.pendingInterrupt?_eq_none_iff _).1 hp) hsome
    | some source =>
      have hserves : Serves c source := ⟨cycles, hok, hon, hp⟩
      exact ⟨source, lowestBit_pending hp, hserves, fun hs ↦ pushed_of_serves hs hserves⟩

/-- A wish is granted by the interrupt check of the step, unless that runs DI. -/
theorem Keen.check (h : Reachable c) (hk : Keen c) {cycles : Nat}
    (hok : (toCheck c).result = .ok cycles) : ∃ i, Performs c i ∧
    (i.opcode ≠ .di → Opens c (i.destination (past i c))) ∧
    (i.opcode = .di → (toCheck c).state.cpu.interruptsOn = false ∧ ¬ Dispatches c ∧
      Still c.next) := by
  have hrun := hk.running h
  rcases check_cases h hok with ⟨hh, -⟩ | ⟨op, taken, registers, ⟨-, i, hfetch, rfl⟩, hcpu⟩
  · rw [hrun] at hh
    cases hh
  have hi : Performs c i := ⟨hrun, hfetch⟩
  refine ⟨i, hi, fun hdi ↦ ?_, fun hdi ↦ ?_⟩
  · obtain ⟨⟨taken, hp⟩, hregs, -⟩ := perform_of_toCheck h hi hok
    have hs := Instruction.steers_of_decode (decode_of_fetch hi.2)
    have hlands := lands_perform (fits_of_fetch hi.2) hs hp
    rw [← hregs] at hlands
    rw [← hlands.pc]
    refine opens hok ?_
    rw [hcpu]
    exact interruptsOn_settled_of_wish _ hdi hk.2
  · have hcpu' : (toCheck c).state.cpu = Cpu.withRegisters
        { c.cpu with interruptsOn := false, enablePending := false } registers := by
      rw [hcpu, hdi, hk.2]
      rfl
    have hoff : (toCheck c).state.cpu.interruptsOn = false := by rw [hcpu']; rfl
    obtain ⟨hd, hon, hp⟩ := next_of_off hoff
    exact ⟨hoff, hd, hon, by rw [hp, hcpu']; rfl⟩

/-- **EI turns interrupts on one instruction late.**  Where they are off and not wished for, a step
that runs EI succeeds, serves nothing and leaves them off.  In the next step that gets to its
interrupt check they are on there, and what is awaited is served with the address that the
instruction left as the return address, whatever that instruction is but DI.  After DI they stay
off and nothing is served until another EI or a RETI is run. -/
theorem enabled_one_late (h : Reachable c) (hs : Still c) (hei : Executes c .ei) :
    (Succeeds c ∧ ¬ Dispatches c ∧ c.next.cpu.interruptsOn = false) ∧
    ∀ c' cycles, Unchecked c.next c' → (toCheck c').result = .ok cycles →
      ∃ i, Performs c' i ∧
        (i.opcode ≠ .di → Opens c' (i.destination (past i c'))) ∧
        (i.opcode = .di → (toCheck c').state.cpu.interruptsOn = false ∧ ¬ Dispatches c' ∧
          ∀ c'', Unasked c'.next c'' → c''.cpu.interruptsOn = false ∧
            (¬ Executes c'' .reti → ¬ Dispatches c'' ∧ c''.next.cpu.interruptsOn = false)) := by
  obtain ⟨hok, hd, hkeen⟩ := hs.enable h hei
  refine ⟨⟨hok, hd, hkeen.1⟩, fun c' cycles hc hcheck ↦ ?_⟩
  have hr : Reachable c' := hc.reachable h.next
  obtain ⟨i, hi, hopens, hdi⟩ := (hkeen.unchecked h.next hc).check hr hcheck
  refine ⟨i, hi, hopens, fun hop ↦ ?_⟩
  obtain ⟨hoff, hd', hstill⟩ := hdi hop
  refine ⟨hoff, hd', fun c'' hc'' ↦ ?_⟩
  have hstill' := hstill.unasked hr.next hc''
  refine ⟨hstill'.1, fun hreti ↦ ?_⟩
  obtain ⟨hd'', hon, -⟩ := hstill'.step (hc''.reachable hr.next) hreti
  exact ⟨hd'', hon⟩

/-! ### An interrupt that waits -/

/-- With interrupts off at its check a step of a running processor ends there. -/
theorem step_of_off {cycles : Nat} {records : Array Record}
    (ht : toCheck c = ⟨.ok cycles, c', records⟩) (hoff : c'.cpu.interruptsOn = false)
    (hrun : c'.cpu.halted = false) : step c = ⟨.ok cycles, c', records⟩ := by
  have hserve : serveInterrupts c' = ⟨.ok 0, c', #[]⟩ := by
    cases hp : c'.hardware.bus.pendingInterrupt? with
    | none => exact serveInterrupts_of_none hp
    | some source =>
      rw [serveInterrupts_of_some hp, hoff, hrun, awake_of_running hrun]
      rfl
  rw [step_eq, Exec.bind_of_ok ht, Exec.bind_of_ok hserve]
  simp [Outcome.after]

/-- A machine at `pc` to which nothing has happened since its start but that time has passed, while
a vertical blank waits to be served. -/
def waiting (hw : Hardware) (pc : UInt16) (on wished : Bool) (cycles : Nat) : Console :=
  ⟨⟨{ pc := pc }, on, wished, false⟩, (prompted hw).atTime (hw.now + cycles)⟩

section

variable {hw : Hardware} (hq : ∀ event ∈ hw.clock.queue, hw.now + 32 ≤ event.target)

include hq

/-- An instruction of such a machine, while nothing else is due. -/
theorem toCheck_waiting (op : Opcode) (pc : UInt16) (on wished : Bool) (cycles : Nat)
    (hcycles : cycles ≤ 24) (hpc : pc < 0x4000) {byte : UInt8}
    (hb : hw.bus.cartridge.image[pc.toNat]? = some byte) (hplain : byte ≠ Instruction.prefixByte)
    (ht : Instruction.template byte = some ⟨op, none, none, 1, 4, none⟩)
    (hd : (⟨op, none, none, 1, 4, none⟩ : Instruction).duration true = 4)
    (hp : ∀ c, perform ⟨op, none, none, 1, 4, none⟩ c =
      ⟨.ok true, { c with cpu := op.switched true c.cpu }, #[]⟩) : ∃ records,
    Performs (waiting hw pc on wished cycles) ⟨op, none, none, 1, 4, none⟩ ∧
    toCheck (waiting hw pc on wished cycles) = ⟨.ok 4,
      ⟨(op.switched true ⟨{ pc := pc + 1 }, on, wished, false⟩).settled wished,
        (prompted hw).atTime (hw.now + cycles + 4)⟩, records⟩ := by
  have hlater : ∀ event ∈ (waiting hw pc on wished cycles).hardware.clock.queue,
      (waiting hw pc on wished cycles).hardware.now + 4 ≤ event.target := by
    intro event he
    have hle : hw.now + 32 ≤ event.target := hq event he
    show hw.now + cycles + 4 ≤ event.target
    omega
  obtain ⟨records, hf, hcheck⟩ := toCheck_of_byte (c := waiting hw pc on wished cycles)
    (i := ⟨op, none, none, 1, 4, none⟩) rfl hpc hb hplain ht rfl rfl (hp _)
    (by rw [hd]; exact hlater)
  rw [hd] at hcheck
  exact ⟨records, ⟨rfl, hf⟩, hcheck⟩

/-- A program that starts with DI and EI, step by step. -/
theorem opens_waiting (hdi : hw.bus.cartridge.image[0x100]? = some 0xf3)
    (hei : hw.bus.cartridge.image[0x101]? = some 0xfb)
    (hnop : hw.bus.cartridge.image[0x102]? = some 0) :
    next (waiting hw 0x100 true false 0) = waiting hw 0x101 false false 4 ∧
    Executes (waiting hw 0x101 false false 4) .ei ∧
    next (waiting hw 0x101 false false 4) = waiting hw 0x102 false true 8 ∧
    Performs (waiting hw 0x102 false true 8) ⟨.nop, none, none, 1, 4, none⟩ ∧
    ∃ records, toCheck (waiting hw 0x102 false true 8) =
      ⟨.ok 4, waiting hw 0x103 true false 12, records⟩ := by
  obtain ⟨_, -, h₁⟩ := toCheck_waiting hq .di 0x100 true false 0 (by decide) (by decide) hdi
    (by decide) rfl rfl (perform_of_switch (Or.inl rfl))
  obtain ⟨_, hi₂, h₂⟩ := toCheck_waiting hq .ei 0x101 false false 4 (by decide) (by decide) hei
    (by decide) rfl rfl (perform_of_switch (Or.inr (Or.inl rfl)))
  obtain ⟨records, hi₃, h₃⟩ := toCheck_waiting hq .nop 0x102 false true 8 (by decide) (by decide)
    hnop (by decide) rfl rfl fun _ ↦ rfl
  refine ⟨?_, ⟨hi₂.1, _, hi₂.2, rfl⟩, ?_, hi₃, records, h₃⟩
  · exact congrArg Outcome.state (step_of_off h₁ rfl rfl)
  · exact congrArg Outcome.state (step_of_off h₂ rfl rfl)

end

/-- The empty image with a DI and an EI where programs start. -/
def carefulImage : Array UInt8 := (opcodeImage 0xf3).setIfInBounds 0x101 0xfb

/-- The hardware as it starts with that image. -/
def carefulHardware : Hardware := (Hardware.powerOn (.plain carefulImage)).1

/-- A machine that is about to run EI, behind DI, while an interrupt waits to be served. -/
def careful : Console := waiting carefulHardware 0x101 false false 4

theorem carefulImage_accepted : Cartridge.ofImage carefulImage = .ok (.plain carefulImage) := by
  have hs : carefulImage.size = imageBankSize := by
    simp [carefulImage, opcodeImage, Hardware.emptyImage]
  have hk : carefulImage[0x0147]?.getD 0 = 0 := by
    simp [carefulImage, opcodeImage, Hardware.emptyImage, imageBankSize]
  rw [Cartridge.ofImage, hs, hk]
  rfl

/-- What it does next. -/
theorem careful_opens : next (waiting carefulHardware 0x100 true false 0) = careful ∧
    Executes careful .ei ∧ careful.next = waiting carefulHardware 0x102 false true 8 ∧
    Performs careful.next ⟨.nop, none, none, 1, 4, none⟩ ∧
    ∃ records, toCheck careful.next =
      ⟨.ok 4, waiting carefulHardware 0x103 true false 12, records⟩ := by
  have hc : carefulHardware.bus.cartridge.image = carefulImage := by
    rw [carefulHardware, cartridge_powerOn, Cartridge.plain]
  have hq : ∀ event ∈ carefulHardware.clock.queue, carefulHardware.now + 32 ≤ event.target := by
    rw [carefulHardware]
    exact queue_powerOn _
  obtain ⟨h₁, hei, h₂, hi, h₃⟩ := opens_waiting hq
    (by rw [hc]; simp [carefulImage, opcodeImage, Hardware.emptyImage, imageBankSize])
    (by rw [hc]; simp [carefulImage, opcodeImage, Hardware.emptyImage, imageBankSize])
    (by rw [hc]; simp [carefulImage, opcodeImage, Hardware.emptyImage, imageBankSize])
  rw [careful, h₂]
  exact ⟨h₁, hei, rfl, hi, h₃⟩

theorem reachable_careful : Reachable careful := by
  obtain ⟨records, hp⟩ := exists_powerOn carefulImage_accepted
  rw [← careful_opens.1]
  exact (Reachable.powerOn hp).prompted.next

/-- Its EI is not followed by the interrupt, but the NOP behind it is. -/
theorem enabled_one_late_careful : Reachable careful ∧ Still careful ∧ Executes careful .ei ∧
    ¬ Dispatches careful ∧ Opens careful.next 0x103 ∧ Serves careful.next .vblank := by
  obtain ⟨-, hei, -, hnop, records, hcheck⟩ := careful_opens
  have hstill : Still careful := ⟨rfl, rfl⟩
  obtain ⟨⟨-, hd, -⟩, hlater⟩ := enabled_one_late reachable_careful hstill hei
  obtain ⟨i, hi, hopens, -⟩ := hlater careful.next 4 .refl (by rw [hcheck])
  obtain rfl : i = ⟨.nop, none, none, 1, 4, none⟩ :=
    Except.ok.inj (hi.2.symm.trans hnop.2)
  have hopen := hopens (by decide)
  have haddr : (toCheck careful.next).state.cpu.registers.pc = 0x103 := by rw [hcheck]; rfl
  rw [← hopen.counter, haddr] at hopen
  refine ⟨reachable_careful, hstill, hei, hd, hopen, 4, by rw [hcheck], hopen.on, ?_⟩
  rw [hcheck]
  exact pending_prompted carefulHardware

end DotMatrix.Console
