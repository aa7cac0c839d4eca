import DotMatrix.Proofs.Console.Handler
import DotMatrix.Proofs.Console.Stores

/-!
# No request is lost

A step clears the request of a source only by serving it, or by a bus write to the requests that its
instruction makes or that is made when the program counter is pushed to serve another source.

* `dispatch_cases` — serving a source withdraws its request, pushes and lets time pass.
* `clears_of_lost_toCheck`, `clears_of_lost_dispatch` — how a request is lost before the interrupt
  check of a step, and when a source is served.
* `no_request_lost` — both together, with everything that keeps requests.
-/

set_option autoImplicit false

namespace DotMatrix.Console

open Hardware (storeAll Requested Clears KeepsRequests)

variable {c : Console} {source served : Interrupt}

/-! ## Up to the interrupt check -/

/-- The step runs this instruction. -/
def Performs (c : Console) (i : Instruction) : Prop :=
  c.cpu.halted = false ∧ (fetch c).result = .ok i

/-- Up to its interrupt check a step loses a request only by a write of its instruction. -/
theorem clears_of_lost_toCheck (h : Reachable c) (hs : c.hardware.Requested source)
    (hlost : ¬ (toCheck c).state.hardware.Requested source) :
    ∃ i, Performs c i ∧ Clears source (stores i (past i c)) c.hardware := by
  have hr := h.hardware
  cases hrun : c.cpu.halted with
  | true =>
    rw [toCheck_of_halted hrun, idle_eq hr] at hlost
    exact absurd (hr.requested_advance hs haltCycles) hlost
  | false =>
    rw [toCheck_of_running hrun] at hlost
    rcases runInstruction_cases hr with ⟨fault, seen, -, he⟩ |
      ⟨i, seen, hf, ⟨fault, c', done, hp, he⟩ | ⟨taken, c', done, hw, ticks, hp, ha, he⟩⟩ <;>
      rw [he] at hlost
    · exact absurd hs hlost
    all_goals
      have hstores : c'.hardware = (storeAll (stores i (past i c)) c.hardware).state := by
        have h := hardware_perform i (past i c)
        rwa [hp] at h
      refine ⟨i, ⟨hrun, by rw [hf]⟩, Hardware.clears_of_lost hr hs fun hkept ↦ hlost ?_⟩
      rw [← hstores] at hkept
    · exact hkept
    · have hr' : Hardware.Reachable c'.hardware := by
        have h := reachable_perform (c := past i c) hr i
        rwa [hp] at h
      have hadvanced := hr'.requested_advance hkept (i.duration taken)
      rwa [ha] at hadvanced

/-! ## Serving a source -/

/-- The step serves a source: at its check interrupts are on, and it is the one to be served. -/
def Serves (c : Console) (source : Interrupt) : Prop :=
  ∃ cycles, (toCheck c).result = .ok cycles ∧ (toCheck c).state.cpu.interruptsOn ∧
    (toCheck c).state.hardware.body.bus.pendingInterrupt? = some source

/-- The hardware with the request of a source withdrawn. -/
def withdrawn (source : Interrupt) (c : Console) : Hardware :=
  ((Hardware.Operation.withdraw source).perform c.hardware).state

theorem onHardware_pure {α : Type} (x : Exec Hardware Unit) (a : α) (c : Console) :
    ((onHardware x >>= fun _ ↦ pure a) c).result.map (fun _ ↦ ()) = (x c.hardware).result ∧
      ((onHardware x >>= fun _ ↦ pure a) c).state.hardware = (x c.hardware).state := by
  rcases hx : x c.hardware with ⟨fault | ⟨⟩, hw, records⟩
  · have ho : onHardware x c = ⟨.error fault, { c with hardware := hw }, records⟩ := by
      rw [onHardware, hx]
    rw [Exec.bind_of_error ho]
    exact ⟨rfl, rfl⟩
  · have ho : onHardware x c = ⟨.ok (), { c with hardware := hw }, records⟩ := by
      rw [onHardware, hx]
    rw [Exec.bind_of_ok ho]
    exact ⟨rfl, rfl⟩

/-- Serving a source withdraws its request and pushes the program counter.  It fails where the push
does, and if the push succeeds time passes. -/
theorem dispatch_cases (source : Interrupt) (c : Console) :
    let push := storeAll (pushing c c.cpu.registers.pc) (withdrawn source c)
    (∃ fault, push.result = .error fault ∧ (dispatch source c).result = .error fault ∧
      (dispatch source c).state.hardware = push.state) ∨
    (push.result = .ok () ∧
      (dispatch source c).result.map (fun _ ↦ ()) =
        (Hardware.advance dispatchCycles push.state).result ∧
      (dispatch source c).state.hardware = (Hardware.advance dispatchCycles push.state).state) := by
  intro push
  let off : Console := ⟨{ c.cpu with interruptsOn := false }, withdrawn source c⟩
  have hoff : onHardware (Hardware.onBus (Exec.modify (Bus.withdrawInterrupt source)))
      { c with cpu := { c.cpu with interruptsOn := false } } = ⟨.ok (), off, #[]⟩ := rfl
  obtain ⟨hstate, hresult⟩ := commits_pushWord off.cpu.registers.pc off
  rw [dispatch, Exec.bind_report, bind_modifyCpu, Exec.bind_of_ok hoff, registers, Exec.bind_gets]
  rcases hp : pushWord off.cpu.registers.pc off with ⟨fault | ⟨⟩, c', records⟩ <;>
    rw [hp] at hstate hresult
  · rw [Exec.bind_of_error hp]
    exact Or.inl ⟨fault, hresult.symm, rfl, hstate⟩
  · obtain ⟨cpu, hw⟩ := c'
    obtain rfl : hw = push.state := hstate
    rw [Exec.bind_of_ok hp, jumpTo, modifyRegisters, bind_modifyCpu]
    refine Or.inr ⟨hresult.symm, ?_⟩
    exact onHardware_pure (Hardware.advance dispatchCycles) dispatchCycles
      ⟨cpu.withRegisters { cpu.registers with pc := source.vector }, push.state⟩

/-- Serving a source clears its request and no other, but for a write of the push. -/
theorem clears_of_lost_dispatch (hr : Hardware.Reachable c.hardware)
    (hs : c.hardware.Requested source)
    (hlost : ¬ (dispatch served c).state.hardware.Requested source) :
    source = served ∨ Clears source (pushing c c.cpu.registers.pc) (withdrawn served c) := by
  by_cases he : source = served
  · exact Or.inl he
  refine Or.inr ?_
  have hw : Hardware.Reachable (withdrawn served c) := hr.perform (.withdraw served)
  have hs' : (withdrawn served c).Requested source :=
    (Hardware.requested_withdraw_of_ne (Ne.symm he)).2 hs
  refine Hardware.clears_of_lost hw hs' fun hkept ↦ hlost ?_
  rcases dispatch_cases served c with ⟨_, -, -, hd⟩ | ⟨-, -, hd⟩ <;> rw [hd]
  · exact hkept
  · exact (hw.storeAll _).requested_advance hkept dispatchCycles

/-! ## A whole step -/

/-- How a step can lose the request of a source: it serves the source, its instruction writes to the
requests, or serving another source pushes onto them. -/
inductive Loses (source : Interrupt) (c : Console) : Prop where
  | served (h : Serves c source)
  | stored {i : Instruction} (hi : Performs c i)
      (h : Clears source (stores i (past i c)) c.hardware)
  | pushed {other : Interrupt} (ho : Serves c other)
      (h : Clears source (pushing (toCheck c).state (toCheck c).state.cpu.registers.pc)
        (withdrawn other (toCheck c).state))

/-- A step that succeeds or fails loses no request in another way. -/
theorem loses_of_lost (h : Reachable c) (hs : c.hardware.Requested source)
    (hlost : ¬ c.next.hardware.Requested source) : Loses source c := by
  by_cases hcheck : (toCheck c).state.hardware.Requested source
  · rcases next_cases c with ⟨fault, -, hn⟩ | ⟨cycles, hok, hn⟩ <;> rw [hn] at hlost
    · exact absurd hcheck hlost
    cases hp : (toCheck c).state.hardware.body.bus.pendingInterrupt? with
    | none =>
      rw [serveInterrupts_of_none hp] at hlost
      exact absurd hcheck hlost
    | some other =>
      rw [serveInterrupts_of_some hp, Outcome.state_after] at hlost
      cases hon : (toCheck c).state.cpu.interruptsOn with
      | false =>
        rw [hon, if_neg Bool.false_ne_true] at hlost
        exact absurd hcheck hlost
      | true =>
        rw [hon, if_pos rfl] at hlost
        have hr : Hardware.Reachable (toCheck c).state.awake.hardware := by
          obtain ⟨log, hl, -⟩ := acts_toCheck c
          exact h.hardware.leads hl
        have hserves : Serves c other := ⟨cycles, hok, hon, hp⟩
        rcases clears_of_lost_dispatch hr hcheck hlost with rfl | hclear
        · exact .served hserves
        · exact .pushed hserves hclear
  · obtain ⟨i, hi, hclear⟩ := clears_of_lost_toCheck h hs hcheck
    exact .stored hi hclear

/-- **No request is lost.**  On a reachable machine time that passes keeps the request of a source,
and a step, whether it succeeds or fails, keeps it too unless it serves the source or one of the
writes that are made, by its instruction or by the push when another source is served, is to the
requests with the source's bit clear.  The tasks of the timers and the display, the display's
answer to its control byte and the joypad only ever set requests; serving a source clears its bit
and nothing else; and raising the request of a source leaves the bits of the others alone. -/
theorem no_request_lost :
    (∀ (c : Console) (source : Interrupt), Reachable c → c.hardware.Requested source →
      (∀ cycles, (Hardware.advance cycles c.hardware).state.Requested source) ∧
      (¬ c.next.hardware.Requested source → Loses source c)) ∧
    ((∀ task : Task, (∀ react, task ≠ .reaction react) →
        Exec.Always KeepsRequests (Hardware.fire task)) ∧
      (∀ value, Exec.Always KeepsRequests (Hardware.controlDisplay value)) ∧
      ∀ button pressed, Exec.Always KeepsRequests (Hardware.press button pressed)) ∧
    (∀ (c : Console) (source : Interrupt),
      (withdrawn source c = c.hardware.put Register.interruptRequest
        (c.hardware.reg Register.interruptRequest &&& ~~~source.mask)) ∧
      ¬ (withdrawn source c).Requested source ∧
      ∀ other, source ≠ other →
        ((withdrawn source c).Requested other ↔ c.hardware.Requested other)) ∧
    ∀ (hw : Hardware) (source : Interrupt),
      (Hardware.requestInterrupt source hw).state.Requested source ∧
      ∀ other, source ≠ other →
        ((Hardware.requestInterrupt source hw).state.Requested other ↔ hw.Requested other) := by
  refine ⟨fun c source h hs ↦ ⟨h.hardware.requested_advance hs, loses_of_lost h hs⟩,
    ⟨fun task ht ↦ Hardware.keepsRequests_fire ht, Hardware.keepsRequests_controlDisplay,
      Hardware.keepsRequests_press⟩,
    fun c source ↦ ⟨rfl, Hardware.not_requested_withdraw source c.hardware, fun other ho ↦
      Hardware.requested_withdraw_of_ne ho⟩,
    fun hw source ↦ ⟨Hardware.requested_requesting source hw, fun other ho ↦
      Hardware.requested_requesting_of_ne ho⟩⟩

/-- A machine that is about to run EI while a vertical blank waits loses its request by serving
it. -/
theorem no_request_lost_eager : eager.hardware.Requested .vblank ∧
    ¬ eager.next.hardware.Requested .vblank ∧ Loses .vblank eager := by
  obtain ⟨hei, -, hq, hl⟩ := eagerHardware_ready
  obtain ⟨hw', records, hstep, -, -, -, hr, -⟩ := step_prompted hei hq hl
  have hs : eager.hardware.Requested .vblank := by
    have hrequests : eager.hardware.reg Register.interruptRequest = 0xe1 :=
      request_prompted eagerHardware
    rw [Requested, hrequests]
    decide
  have hlost : ¬ eager.next.hardware.Requested .vblank := by
    have hnext : eager.next.hardware = hw' := by
      rw [eager, next, hstep]
    rw [hnext, Requested, hr]
    decide
  exact ⟨hs, hlost, ((no_request_lost.1 eager .vblank reachable_eager hs).2 hlost)⟩

end DotMatrix.Console
