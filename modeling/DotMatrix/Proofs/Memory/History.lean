import DotMatrix.Proofs.Console.Requests
import DotMatrix.Proofs.Memory.Frame

/-!
# What memory holds

Every slot of memory holds the byte that was written to it last, and 0 if none ever was.  A history
keeps the bytes that were written, each with the slot that its address selected when it was written;
reading an address gives the byte of the slot that it selects when it is read.

* `Hardware.Remembers` — a history of the hardware, and `Remembers.byteIn`, that it says what is in
  every slot.
* `Console.Remembers` — a history of a machine: steps write what their instructions store and what
  is pushed when an interrupt is served.
* `memory_holds_latest` — what a machine reads from memory, by its history.
-/

set_option autoImplicit false

namespace DotMatrix

/-- The byte written to a slot last, of those written, the newest first. -/
def Slot.latest (slot : Slot) : List (Slot × UInt8) → UInt8
  | [] => 0
  | (written, value) :: older => if written = slot then value else latest slot older

namespace Hardware

/-! ## Histories of the hardware -/

/-- What an operation writes to memory, with the slot that it writes to. -/
def Operation.noted (hw : Hardware) : Operation → List (Slot × UInt8)
  | .write addr value => (hw.bus.slot? addr).toList.map fun slot ↦ (slot, value)
  | .advance _ | .withdraw _ | .press _ _ => []

/-- Hardware that was started and acted on since, with what was written to memory meanwhile, the
newest first. -/
inductive Remembers : List (Slot × UInt8) → Hardware → Prop where
  | powerOn {image : Array UInt8} {cartridge : Cartridge}
      (h : Cartridge.ofImage image = .ok cartridge) : Remembers [] (powerOn cartridge).1
  | perform {log : List (Slot × UInt8)} {hw : Hardware} (op : Operation) (h : Remembers log hw) :
      Remembers (op.noted hw ++ log) (op.perform hw).state

section

variable {log : List (Slot × UInt8)} {hw : Hardware}

theorem Remembers.reachable (h : Remembers log hw) : Reachable hw := by
  induction h with
  | powerOn h => exact .powerOn h
  | perform op _ ih => exact .perform op ih

/-- Memory starts out empty. -/
theorem byteIn_powerOn (cartridge : Cartridge) (slot : Slot) :
    (powerOn cartridge).1.bus.byteIn slot = 0 := by
  have hkept : KeepsMemory (armed cartridge) #[] (powerOn cartridge).1 := by
    rw [powerOn_eq]
    exact keepsMemory_covers.started _ #[]
  rw [hkept.byteIn]
  cases slot with
  | video | work | sprite => exact Vector.getElem_replicate _

/-- What was noted of an operation is what it did to a slot. -/
theorem Reachable.byteIn_perform (h : Reachable hw) (op : Operation) (slot : Slot)
    (hs : hw.bus.byteIn slot = slot.latest log) :
    (op.perform hw).state.bus.byteIn slot = slot.latest (op.noted hw ++ log) := by
  by_cases hop : ∃ addr value, op = .write addr value
  · obtain ⟨addr, value, rfl⟩ := hop
    have hb : ((Operation.write addr value).perform hw).state.bus.byteIn slot = _ :=
      byteIn_write h.wired.1.listens addr value slot
    rw [hb, Operation.noted]
    cases hw.bus.slot? addr with
    | none => simpa using hs
    | some written => simp [Slot.latest, hs]
  · have hne : ∀ addr value, op ≠ .write addr value := fun addr value he ↦ hop ⟨addr, value, he⟩
    rw [(h.keepsMemory hne).byteIn, hs]
    cases op with
    | write addr value => exact absurd rfl (hne addr value)
    | advance | withdraw | press => rfl

/-- A history says what is in every slot. -/
theorem Remembers.byteIn (h : Remembers log hw) (slot : Slot) :
    hw.bus.byteIn slot = slot.latest log := by
  induction h with
  | powerOn => exact byteIn_powerOn _ slot
  | perform op h ih => exact h.reachable.byteIn_perform op slot ih

/-- What writes made one after another, until one fails, write to memory. -/
def notedAll : List (UInt16 × UInt8) → Hardware → List (Slot × UInt8)
  | [], _ => []
  | (addr, value) :: rest, hw =>
    match write addr value hw with
    | ⟨.ok (), hw', _⟩ => notedAll rest hw' ++ (Operation.write addr value).noted hw
    | ⟨.error _, _, _⟩ => (Operation.write addr value).noted hw

theorem Remembers.storeAll (h : Remembers log hw) (stores : List (UInt16 × UInt8)) :
    Remembers (notedAll stores hw ++ log) (storeAll stores hw).state := by
  induction stores generalizing log hw with
  | nil => exact h
  | cons store rest ih =>
    obtain ⟨addr, value⟩ := store
    have hone := h.perform (.write addr value)
    rw [Operation.perform] at hone
    rw [notedAll]
    rcases hw₁ : write addr value hw with ⟨fault | ⟨⟩, hw', records⟩ <;> rw [hw₁] at hone
    · rwa [storeAll_cons_of_error hw₁]
    · rw [storeAll_cons_of_ok hw₁, List.append_assoc]
      exact ih hone

end

end Hardware

namespace Console

open Hardware (notedAll)

variable {log : List (Slot × UInt8)} {c : Console}

/-! ## Histories of a machine -/

/-- What the instruction of a step writes to memory. -/
def notedRunning (c : Console) : List (Slot × UInt8) :=
  if c.cpu.halted then []
  else
    match (fetch c).result with
    | .ok i => notedAll (stores i (past i c)) c.hardware
    | .error _ => []

/-- What is written to memory at an interrupt check. -/
def notedServing (c : Console) : List (Slot × UInt8) :=
  match c.hardware.bus.pendingInterrupt? with
  | none => []
  | some source =>
    if c.cpu.interruptsOn then notedAll (pushing c c.cpu.registers.pc) (withdrawn source c) else []

/-- What an operation writes to memory. -/
def Operation.noted (c : Console) : Operation → List (Slot × UInt8)
  | .step =>
    match toCheck c with
    | ⟨.ok _, checked, _⟩ => notedServing checked ++ notedRunning c
    | ⟨.error _, _, _⟩ => notedRunning c
  | .write addr value => (Hardware.Operation.write addr value).noted c.hardware
  | .advance _ | .press _ _ => []

/-- A machine that was started and acted on since, with what was written to memory meanwhile, the
newest first. -/
inductive Remembers : List (Slot × UInt8) → Console → Prop where
  | powerOn {image : Array UInt8} {c : Console} {records : Array Record}
      (h : powerOn image = .ok (c, records)) : Remembers [] c
  | perform {log : List (Slot × UInt8)} {c : Console} (op : Operation) (h : Remembers log c) :
      Remembers (op.noted c ++ log) (op.perform c).state

theorem Remembers.reachable (h : Remembers log c) : Reachable c := by
  induction h with
  | powerOn h => exact .powerOn h
  | perform op _ ih => exact .perform op ih

theorem Reachable.exists_remembers (h : Reachable c) : ∃ log, Remembers log c := by
  induction h with
  | powerOn h => exact ⟨_, .powerOn h⟩
  | perform op _ ih =>
    obtain ⟨log, hl⟩ := ih
    exact ⟨_, .perform op hl⟩

/-- Up to its interrupt check a step writes what its instruction does. -/
theorem remembers_toCheck (h : Hardware.Remembers log c.hardware) :
    Hardware.Remembers (notedRunning c ++ log) (toCheck c).state.hardware := by
  have hr := h.reachable
  rw [notedRunning]
  cases hrun : c.cpu.halted with
  | true =>
    rw [if_pos rfl, toCheck_of_halted hrun, idle_eq hr]
    exact h.perform (.advance haltCycles)
  | false =>
    rw [if_neg Bool.false_ne_true, toCheck_of_running hrun]
    rcases runInstruction_cases hr with ⟨fault, seen, hf, he⟩ |
      ⟨i, seen, hf, ⟨fault, c', done, hp, he⟩ | ⟨taken, c', done, hw, ticks, hp, ha, he⟩⟩ <;>
      rw [he, hf]
    · exact h
    all_goals
      have hstores := hardware_perform i (past i c)
      rw [hp] at hstores
      have hmade := h.storeAll (stores i (past i c))
      rw [show (past i c).hardware = c.hardware from rfl] at hstores
      rw [← hstores] at hmade
    · exact hmade
    · have hpassed := hmade.perform (.advance (i.duration taken))
      rwa [Hardware.Operation.perform, ha] at hpassed

/-- At its interrupt check a step writes what is pushed. -/
theorem remembers_serveInterrupts (h : Hardware.Remembers log c.hardware) :
    Hardware.Remembers (notedServing c ++ log) (serveInterrupts c).state.hardware := by
  rw [notedServing]
  cases hp : c.hardware.bus.pendingInterrupt? with
  | none =>
    rw [serveInterrupts_of_none hp]
    exact h
  | some source =>
    rw [serveInterrupts_of_some hp, Outcome.state_after]
    dsimp only
    cases hon : c.cpu.interruptsOn with
    | false =>
      rw [if_neg Bool.false_ne_true, if_neg Bool.false_ne_true]
      exact h
    | true =>
      rw [if_pos rfl, if_pos rfl]
      have hpushed := (h.perform (.withdraw source)).storeAll (pushing c c.cpu.registers.pc)
      rcases dispatch_cases source c.awake with ⟨_, -, -, hd⟩ | ⟨-, -, hd⟩ <;> rw [hd]
      · exact hpushed
      · exact hpushed.perform (.advance dispatchCycles)

/-- A history of a machine is one of its hardware. -/
theorem Remembers.hardware (h : Remembers log c) : Hardware.Remembers log c.hardware := by
  induction h with
  | powerOn h =>
    obtain ⟨cartridge, hc, rfl⟩ := powerOn_cases h
    exact .powerOn hc
  | @perform log c op _ ih =>
    cases op with
    | write addr value => exact ih.perform (.write addr value)
    | advance cycles => exact ih.perform (.advance cycles)
    | press button pressed =>
      rw [Operation.perform, pressButton_eq]
      exact ih.perform (.press button pressed)
    | step =>
      rw [state_perform_step, Operation.noted]
      have hrunning := remembers_toCheck ih
      rcases next_cases c with ⟨fault, he, hn⟩ | ⟨cycles, hok, hn⟩ <;> rw [hn]
      · rcases ht : toCheck c with ⟨result, checked, records⟩
        rw [ht] at he hrunning
        obtain rfl : result = .error fault := he
        exact hrunning
      · rcases ht : toCheck c with ⟨result, checked, records⟩
        rw [ht] at hok hrunning
        obtain rfl : result = .ok cycles := hok
        rw [List.append_assoc]
        exact remembers_serveInterrupts hrunning

/-! ## What is read -/

/-- The bank registers read as they are stored. -/
theorem read_bankRegister (b : Bus) :
    b.read Register.videoBank = .ok (b.register Register.videoBank) ∧
      b.read Register.workBank = .ok (b.register Register.workBank) := ⟨rfl, rfl⟩

/-- **Memory is made of independent cells.**  Along every history of a machine, each address of
video memory, of work memory, of its echo and of the sprites reads as the byte written last to the
slot that the bank registers select for it, and 0 if none was written; an explicit bank of video
memory shows the same slots.  Time that passes changes no slot, and a write none but the one that
its address selects. -/
theorem memory_holds_latest :
    (∀ c : Console, Reachable c → ∃ log, Remembers log c) ∧
    ∀ (log : List (Slot × UInt8)) (c : Console), Remembers log c →
      (∃ videoSelect workSelect : UInt8,
        (Hardware.load Register.videoBank c.hardware).result = .ok videoSelect ∧
        (Hardware.load Register.workBank c.hardware).result = .ok workSelect ∧
        (∀ addr : UInt16, (0x8000 ≤ addr.toNat ∧ addr.toNat < 0xa000) ∨
            (0xc000 ≤ addr.toNat ∧ addr.toNat < 0xfea0) →
          ∃ slot, Slot.select? videoSelect workSelect addr.toNat = some slot ∧
            (Hardware.load addr c.hardware).result = .ok (slot.latest log)) ∧
        ∀ (slot : Slot) (addr : UInt16) (value : UInt8),
          Slot.select? videoSelect workSelect addr.toNat ≠ some slot →
            (Hardware.write addr value c.hardware).state.bus.byteIn slot = slot.latest log) ∧
      (∀ (bank : UInt8) (addr : UInt16), 0x8000 ≤ addr.toNat → addr.toNat < 0xa000 →
        c.hardware.bus.videoByte bank addr =
          (Slot.ofVideo (Slot.videoBank bank) addr.toNat).latest log) ∧
      ∀ (slot : Slot) (cycles : Nat), c.hardware.bus.byteIn slot = slot.latest log ∧
        (Hardware.advance cycles c.hardware).state.bus.byteIn slot = slot.latest log := by
  refine ⟨fun c h ↦ h.exists_remembers, fun log c h ↦ ?_⟩
  have hr : Hardware.Reachable c.hardware := h.reachable.hardware
  have hheld : ∀ slot, c.hardware.bus.byteIn slot = slot.latest log := h.hardware.byteIn
  obtain ⟨hvideo, hwork⟩ := read_bankRegister c.hardware.bus
  refine ⟨⟨_, _, hvideo, hwork, fun addr haddr ↦ ?_, fun slot addr value hne ↦ ?_⟩,
    fun bank addr hge hlt ↦ ?_, fun slot cycles ↦ ⟨hheld slot, ?_⟩⟩
  · obtain ⟨slot, hs⟩ := Slot.exists_select?_eq_some (c.hardware.bus.register Register.videoBank)
      (c.hardware.bus.register Register.workBank) haddr
    refine ⟨slot, hs, ?_⟩
    rw [← hheld slot]
    exact c.hardware.bus.read_of_slot hs
  · rw [Hardware.byteIn_write hr.wired.1.listens, ← hheld slot]
    exact if_neg hne
  · rw [c.hardware.bus.videoByte_eq bank hge hlt, hheld]
  · have hkept := Hardware.allowsTurns_memory.advance hr cycles
    rw [hkept.byteIn, hheld]

/-- A write leaves the byte in the bank register of work memory alone, unless it is to it. -/
theorem workBank_write (hl : Hardware.DisplayListens c.hardware) {addr : UInt16}
    (hc : addr ≠ Register.lcdControl) (value : UInt8) :
    ((Operation.write addr value).perform c).state.hardware.reg Register.workBank =
      if addr = Register.workBank then value else c.hardware.reg Register.workBank := by
  show (Hardware.write addr value c.hardware).state.reg Register.workBank = _
  by_cases hb : addr = Register.workBank
  · subst hb
    rw [Hardware.write_of_stores hl hc (by decide) fun _ ↦ rfl, if_pos rfl]
    exact Hardware.reg_put_self _ _ _
  · rw [Hardware.write_of_ne hl hc, if_neg hb]
    exact Bus.register_write_of_ne (by decide) hb value c.hardware.bus

/-- The writes of a program that uses two banks of work memory, the first selected by 0. -/
def bankedWrites : List Operation :=
  [.write Register.workBank 0, .write 0xd000 0x2a, .write Register.workBank 2, .write 0xd000 0x11,
    .write Register.workBank 1]

/-- The machine after these writes. -/
def banked : Console := bankedWrites.foldl (fun c op ↦ (op.perform c).state) blank

/-- What was written to the first bank is read from it through the echo, although the other one was
written to since. -/
theorem memory_holds_latest_banked :
    Remembers [(.work 2 0, 0x11), (.work 1 0, 0x2a)] banked ∧
      (Hardware.load 0xf000 banked.hardware).result = .ok 0x2a := by
  have hstart : Remembers [] blank := by
    have hp := powerOn.eq_1 Hardware.emptyImage
    rw [Hardware.emptyImage_accepted] at hp
    exact .powerOn hp
  have hselects : ∀ {log : List (Slot × UInt8)} {c : Console} (value : UInt8), Remembers log c →
      Remembers log ((Operation.write Register.workBank value).perform c).state ∧
        ((Operation.write Register.workBank value).perform c).state.hardware.reg
          Register.workBank = value := fun value h ↦
    ⟨h.perform (.write Register.workBank value),
      workBank_write h.reachable.hardware.wired.1.listens (by decide) value⟩
  have hstores : ∀ {log : List (Slot × UInt8)} {c : Console} (value : UInt8) {select : UInt8},
      Remembers log c → c.hardware.reg Register.workBank = select →
      Remembers ((.work (Slot.workBank select) 0, value) :: log)
        ((Operation.write 0xd000 value).perform c).state := fun {_ c} value _ h hs ↦ by
    have hslot : c.hardware.bus.slot? 0xd000 =
        some (.work (Slot.workBank (c.hardware.reg Register.workBank)) 0) := by
      show Slot.select? _ _ 0xd000 = _
      rw [Slot.select?, if_neg (by decide), if_pos (by decide), Slot.ofWork, if_neg (by decide)]
      rfl
    have hnoted : (Operation.write 0xd000 value).noted c = _ :=
      congrArg (fun slot? : Option Slot ↦ slot?.toList.map fun slot ↦ (slot, value)) hslot
    have hwritten := h.perform (.write 0xd000 value)
    rwa [hnoted, hs] at hwritten
  obtain ⟨h₁, hs₁⟩ := hselects 0 hstart
  obtain ⟨h₂, hs₂⟩ := hselects 2 (hstores 0x2a h₁ hs₁)
  obtain ⟨h, hs⟩ := hselects 1 (hstores 0x11 h₂ hs₂)
  refine ⟨h, ?_⟩
  obtain ⟨videoSelect, workSelect, -, hwork, hread, -⟩ := (memory_holds_latest.2 _ _ h).1
  obtain rfl : _ = workSelect := Except.ok.inj (hs ▸ hwork)
  obtain ⟨slot, hslot, hload⟩ := hread 0xf000 (by decide)
  have hecho : Slot.select? videoSelect 1 0xf000 = some (.work 1 0) := by
    rw [Slot.select?, if_neg (by decide), if_neg (by decide), if_pos (by decide), Slot.ofWork,
      if_neg (by decide)]
    rfl
  obtain rfl : Slot.work 1 0 = slot := Option.some.inj (hecho.symm.trans hslot)
  exact hload

end Console

end DotMatrix
