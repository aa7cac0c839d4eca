import DotMatrix.Proofs.Clock.Drain
import DotMatrix.Proofs.Hardware.Quiet

/-!
# Who tells of interrupts that are served

Serving an interrupt is reported by the processor.  Nothing that the hardware does tells of it, be
it a bus write with whoever watches its address, a task or time, whatever reactions were attached to
the machine.

* `dispatches` — the sources that records tell were served, in order.
* `Reserved` — an operation that tells of none; `Reserved.bind` puts such operations together.
* `reserved_write`, `reserved_fire` — bus writes and tasks.
* `dispatches_advance` — time that passes, if it comes to an end.
-/

set_option autoImplicit false

namespace DotMatrix

open Exec (Always)

/-- The source that a record tells was served. -/
def Record.dispatched? : Record → Option Interrupt
  | .notice (.interruptDispatched source) => some source
  | _ => none

/-- The sources that records tell were served, in order. -/
def dispatches (records : Array Record) : List Interrupt :=
  records.toList.filterMap Record.dispatched?

@[simp] theorem dispatches_append (before after : Array Record) :
    dispatches (before ++ after) = dispatches before ++ dispatches after := by
  simp [dispatches]

/-- The relation between states that were left without telling of an interrupt that was served. -/
def Unserved {σ : Type} (_ : σ) (records : Array Record) (_ : σ) : Prop := dispatches records = []

theorem unserved_chains {σ : Type} : Exec.Chains (@Unserved σ) where
  refl _ := rfl
  trans h h' := by rw [Unserved, dispatches_append, h, h', List.append_nil]

/-- The operation never tells of an interrupt that was served. -/
def Reserved {σ α : Type} (x : Exec σ α) : Prop := Always Unserved x

section

variable {σ α β : Type}

theorem reserved_pure (a : α) : Reserved (pure a : Exec σ α) := .pure unserved_chains a

theorem reserved_fail (fault : Fault) : Reserved (Exec.fail fault : Exec σ α) :=
  .fail unserved_chains fault

theorem reserved_ofExcept (result : Except Fault α) :
    Reserved (Exec.ofExcept result : Exec σ α) := fun _ ↦ rfl

theorem reserved_gets (f : σ → α) : Reserved (Exec.gets f) := .gets unserved_chains f

theorem Reserved.bind {x : Exec σ α} {f : α → Exec σ β} (hx : Reserved x)
    (hf : ∀ a, Reserved (f a)) : Reserved (x >>= f) := Always.bind unserved_chains hx hf

/-- A sequence tells of none if neither part does, the second as it is run. -/
theorem dispatches_bind {x : Exec σ α} {f : α → Exec σ β} {s : σ}
    (hx : dispatches (x s).records = [])
    (hf : ∀ a, (x s).result = .ok a → dispatches (f a (x s).state).records = []) :
    dispatches ((x >>= f) s).records = [] := by
  rcases hs : x s with ⟨fault | a, t, records⟩ <;> rw [hs] at hx hf
  · rw [Exec.bind_of_error hs]
    exact hx
  · rw [Exec.bind_of_ok hs, Outcome.records_after, dispatches_append, hx, hf a rfl, List.append_nil]

theorem reserved_ite {p : Prop} [Decidable p] {x y : Exec σ α} (hx : Reserved x)
    (hy : Reserved y) : Reserved (if p then x else y) := by
  split
  · exact hx
  · exact hy

end

/-! ## Bus writes -/

namespace Mbc3

theorem reserved_writeWindow (addr : UInt16) (value : UInt8) :
    Reserved (writeWindow addr value) := by
  intro m
  rw [writeWindow]
  split
  · split <;> rfl
  · rfl

theorem IsControl.reserved {operation : UInt8 → Exec Mbc3 Unit} (h : IsControl operation)
    (value : UInt8) : Reserved (operation value) := by
  cases h with
  | enable | selectBank => exact fun _ ↦ rfl
  | selectWindow =>
    rw [Mbc3.selectWindow]
    cases Window.ofCode? value <;> exact fun _ ↦ rfl
  | latch =>
    intro m
    rw [Mbc3.latch]
    split
    · rfl
    · split <;> rfl

end Mbc3

theorem Cartridge.reserved_onController {α : Type} {x : Exec Mbc3 α}
    {fallback : Exec Cartridge α} (hx : Reserved x) (hf : Reserved fallback) :
    Reserved (onController x fallback)
  | ⟨_, .mbc3 m⟩ => hx m
  | ⟨image, .plain⟩ => hf ⟨image, .plain⟩

theorem Cartridge.reserved_write (addr : UInt16) (value : UInt8) :
    Reserved (write addr value) := by
  rw [write]
  split
  · exact reserved_onController (Mbc3.reserved_writeWindow addr value) fun _ ↦ rfl
  · exact fun _ ↦ rfl

namespace Bus

theorem reserved_control (addr : UInt16) (value : UInt8) : Reserved (control addr value) := by
  obtain ⟨operation, ignored, h, hc⟩ := exists_control addr value
  have hignored : Reserved (Exec.report (.controlIgnored ignored value) : Exec Cartridge Unit) :=
    fun _ ↦ rfl
  rw [hc]
  exact fun b ↦ Cartridge.reserved_onController (h.reserved value) hignored b.cartridge

theorem reserved_writeRegister (addr : UInt16) (value : UInt8) :
    Reserved (writeRegister addr value) := by
  intro b
  rw [writeRegister]
  split
  · rw [writeJoypad_apply]
    show dispatches (if value &&& 0x30 = 0 then #[.notice .bothGroupsSelected] else #[]) = []
    split <;> rfl
  · repeat' split
    all_goals rfl

theorem reserved_write (addr : UInt16) (value : UInt8) : Reserved (write addr value) := by
  intro b
  rw [write]
  split
  · exact reserved_control addr value b
  · exact Cartridge.reserved_write addr value b.cartridge
  · rfl
  · exact reserved_writeRegister addr value b
  · rfl

theorem reserved_load (addr : UInt16) : Reserved (load addr) := by
  intro b
  show dispatches (b.readRecords addr) = []
  rw [readRecords]
  split
  · rename_i hout
    rw [Cartridge.readRecords, if_pos hout]
    cases b.cartridge.controller with
    | plain => rfl
    | mbc3 m =>
      dsimp only
      split <;> rfl
  · rfl

end Bus

namespace Hardware

/-! ## The display and the timers -/

theorem reserved_onBus {α : Type} {x : Exec Bus α} (h : Reserved x) : Reserved (onBus x) :=
  fun hw ↦ h hw.bus

theorem reserved_register (addr : UInt16) : Reserved (register addr) := reserved_gets _

theorem reserved_setRegister (addr : UInt16) (value : UInt8) :
    Reserved (setRegister addr value) := fun _ ↦ rfl

theorem reserved_modifyDisplay (f : Display → Display) : Reserved (modifyDisplay f) :=
  fun _ ↦ rfl

theorem reserved_requestInterrupt (source : Interrupt) : Reserved (requestInterrupt source) :=
  fun _ ↦ rfl

theorem reserved_schedule (delay : Nat) (task : Task) : Reserved (schedule delay task) :=
  fun _ ↦ rfl

theorem reserved_updateStatus (phaseStarts : Bool) : Reserved (updateStatus phaseStarts) := by
  refine (reserved_register _).bind fun _ ↦ (reserved_register _).bind fun _ ↦
    (reserved_register _).bind fun _ ↦ (reserved_gets _).bind fun _ ↦ (reserved_gets _).bind
    fun _ ↦ (reserved_setRegister _ _).bind fun _ ↦ ?_
  exact reserved_ite (reserved_requestInterrupt _) (reserved_pure ())

theorem reserved_setLine (line : UInt8) : Reserved (setLine line) :=
  (reserved_setRegister _ _).bind fun _ ↦ reserved_updateStatus false

theorem reserved_plan (delay : Nat) (transition : Transition) :
    Reserved (plan delay transition) := (reserved_gets _).bind fun _ ↦ reserved_schedule _ _

theorem reserved_present : Reserved present := fun _ ↦ rfl

theorem reserved_enter (phase : Phase) : Reserved (enter phase) := by
  have hreport : ∀ line, Reserved (Exec.report (.phaseEntered phase line) : Exec Hardware Unit) :=
    fun _ _ ↦ rfl
  refine (reserved_register _).bind fun line ↦ (hreport line).bind fun _ ↦
    (reserved_modifyDisplay _).bind fun _ ↦ (reserved_updateStatus true).bind fun _ ↦ ?_
  have hdraw : Reserved drawLine := fun _ ↦ rfl
  cases phase with
  | oamScan | hblank => exact reserved_plan _ _
  | drawing => exact hdraw.bind fun _ ↦ reserved_plan _ _
  | vblank =>
    exact reserved_present.bind fun _ ↦ (reserved_requestInterrupt _).bind fun _ ↦
      reserved_plan _ _

theorem reserved_nextLine : Reserved nextLine :=
  (reserved_register _).bind fun _ ↦ reserved_ite (reserved_fail _) (reserved_pure _)

theorem reserved_follow (transition : Transition) : Reserved (follow transition) := by
  cases transition with
  | draw => exact reserved_enter .drawing
  | blank => exact reserved_enter .hblank
  | endLine =>
    exact reserved_nextLine.bind fun line ↦ (reserved_setLine line).bind fun _ ↦
      reserved_ite (reserved_enter .vblank) (reserved_enter .oamScan)
  | nextBlankLine =>
    exact reserved_nextLine.bind fun line ↦
      reserved_ite ((reserved_setLine 0).bind fun _ ↦ reserved_enter .oamScan)
        ((reserved_setLine line).bind fun _ ↦ reserved_plan _ _)

theorem reserved_startDisplay : Reserved startDisplay :=
  (reserved_modifyDisplay _).bind fun _ ↦ (reserved_setLine 0).bind fun _ ↦
    reserved_enter .oamScan

theorem reserved_stopDisplay : Reserved stopDisplay :=
  (reserved_modifyDisplay _).bind fun _ ↦ (reserved_setRegister _ _).bind fun _ ↦
    reserved_updateStatus false

theorem reserved_controlDisplay (control : UInt8) : Reserved (controlDisplay control) := by
  have hon : Reserved (Exec.report .displayEnabled : Exec Hardware Unit) := fun _ ↦ rfl
  have hoff : Reserved (Exec.report .displayDisabled : Exec Hardware Unit) := fun _ ↦ rfl
  exact (reserved_gets _).bind fun enabled ↦
    reserved_ite (hon.bind fun _ ↦ reserved_startDisplay)
      (reserved_ite (hoff.bind fun _ ↦ reserved_stopDisplay) (reserved_pure ()))

theorem reserved_stepCounter : Reserved stepCounter := by
  have hreport : ∀ reload,
      Reserved (Exec.report (.counterOverflowed reload) : Exec Hardware Unit) := fun _ _ ↦ rfl
  exact (reserved_register _).bind fun value ↦
    reserved_ite ((reserved_register _).bind fun reload ↦ (hreport reload).bind fun _ ↦
      (reserved_setRegister _ _).bind fun _ ↦ reserved_requestInterrupt _)
      (reserved_setRegister _ _)

theorem reserved_tickCounter : Reserved tickCounter := by
  have hschedule : ∀ control, Reserved (do
      let cycles ← Exec.ofExcept (selectPeriod control)
      schedule cycles .counter) := fun control ↦
    (reserved_ofExcept _).bind fun _ ↦ reserved_schedule _ _
  exact (reserved_register _).bind fun control ↦
    reserved_ite (reserved_stepCounter.bind fun _ ↦ hschedule control) (hschedule control)

/-! ## Whoever watches -/

section

variable {write' : UInt16 → UInt8 → Exec Hardware Unit}
  (hwrite : ∀ addr value, Reserved (write' addr value))

include hwrite

/-- What a reaction reports are marks, requests and what its bus accesses report. -/
theorem reserved_run (react : Reaction) : Reserved (react.run write') := by
  induction react with
  | done => exact reserved_pure ()
  | fail fault => exact reserved_fail fault
  | read addr next ih => exact (reserved_onBus (Bus.reserved_load addr)).bind ih
  | write addr value next ih => exact (hwrite addr value).bind fun _ ↦ ih
  | request source next ih => exact (reserved_requestInterrupt source).bind fun _ ↦ ih
  | schedule delay task next _ ih => exact (reserved_schedule _ _).bind fun _ ↦ ih
  | watch addr observer next _ ih =>
    have hwatch : Reserved (watch addr (.reaction observer)) := fun _ ↦ rfl
    exact hwatch.bind fun _ ↦ ih
  | mark label written seen next ih =>
    have hmark : ∀ now, Reserved (Exec.emit (.mark label now written seen) : Exec Hardware Unit) :=
      fun _ _ ↦ rfl
    exact (reserved_gets _).bind fun now ↦ (hmark now).bind fun _ ↦ ih

theorem reserved_notify (value : UInt8) (observers : List Observer) :
    Reserved (notify write' value observers) := by
  induction observers with
  | nil => exact reserved_pure ()
  | cons observer rest ih =>
    refine Reserved.bind ?_ fun _ ↦ ih
    cases observer with
    | display => exact reserved_controlDisplay value
    | reaction react => exact reserved_run hwrite (react value)

end

theorem reserved_writeNested (depth : Nat) (addr : UInt16) (value : UInt8) :
    Reserved (writeNested depth addr value) := by
  induction depth generalizing addr value with
  | zero => exact reserved_fail _
  | succ depth ih =>
    exact (reserved_onBus (Bus.reserved_write addr value)).bind fun _ ↦
      (reserved_gets _).bind fun observers ↦ reserved_notify ih value observers

/-- A bus write, whoever watches its address. -/
theorem reserved_write (addr : UInt16) (value : UInt8) : Reserved (write addr value) :=
  reserved_writeNested maxNesting addr value

/-! ## Time -/

/-- A task, whoever let it wait. -/
theorem reserved_fire (task : Task) : Reserved (fire task) := by
  cases task with
  | divider => exact fun _ ↦ rfl
  | counter => exact reserved_tickCounter
  | calendar => exact fun _ ↦ rfl
  | display epoch transition =>
    exact (reserved_gets _).bind fun _ ↦
      reserved_ite (reserved_follow transition) (reserved_pure ())
  | reaction react => exact reserved_run reserved_write react

/-- Time that passes tells of none, if it comes to an end. -/
theorem dispatches_advance {cycles : Nat} {hw : Hardware} (h : Timed.Returns fire cycles hw) :
    dispatches (advance cycles hw).records = [] := by
  obtain ⟨firings, o, h⟩ := h
  rw [advance, h.advance_eq]
  generalize hw.now + cycles = limit at h
  induction h with
  | done => rfl
  | @stop m m' event rest fault records _ hf =>
    have hr := reserved_fire event.action (m.taking event rest)
    rwa [hf] at hr
  | @next m m' event rest records firings o _ hf _ ih =>
    have hr := reserved_fire event.action (m.taking event rest)
    rw [hf] at hr
    exact unserved_chains.trans hr (u := o.state) ih

end Hardware

end DotMatrix
