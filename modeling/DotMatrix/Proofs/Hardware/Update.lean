import DotMatrix.Hardware.Run
import DotMatrix.Proofs.Exec

/-!
# What the hardware's own operations do

The hardware's own operations hardly ever fail, so what they do can be written down as plain
functions from hardware to hardware.  Here are the elementary ones, each with what it leaves alone,
and the timers; a lemma for each operation says that it is its function (`tickDivider_apply`,
`tickCounter_apply`, …).
-/

set_option autoImplicit false

namespace DotMatrix

/-- What holds of the 256 bytes holds of every byte. -/
theorem forall_byte {P : UInt8 → Prop} (h : ∀ n : Fin 256, P (UInt8.ofNat n.val)) (b : UInt8) :
    P b := by
  have hb := h ⟨b.toNat, b.toNat_lt⟩
  rwa [UInt8.ofNat_toNat] at hb

namespace Hardware

/-! ## Elementary changes -/

/-- The stored byte of a register. -/
def reg (hw : Hardware) (addr : UInt16) : UInt8 := hw.body.bus.register addr

/-- The hardware with another byte in a register. -/
def put (addr : UInt16) (value : UInt8) (hw : Hardware) : Hardware :=
  { hw with body := { hw.body with bus := hw.body.bus.setRegister addr value } }

/-- The hardware with one more task that waits. -/
def later (delay : Nat) (task : Task) (hw : Hardware) : Hardware :=
  { hw with clock := hw.clock.schedule delay task }

/-- The hardware with its display changed. -/
def showing (f : Display → Display) (hw : Hardware) : Hardware :=
  { hw with body := { hw.body with display := f hw.body.display } }

/-- Which interrupt is pending depends on two registers. -/
theorem pendingInterrupt?_eq {hw : Hardware} {requests enables : UInt8}
    (hr : hw.reg Register.interruptRequest = requests)
    (he : hw.reg Register.interruptEnable = enables) :
    hw.bus.pendingInterrupt? = Interrupt.all.find? fun source ↦
      requests &&& source.mask ≠ 0 && enables &&& source.mask ≠ 0 := by
  subst hr he
  rfl

section

variable (hw : Hardware) (addr : UInt16) (value : UInt8) (delay : Nat) (task : Task)
  (f : Display → Display)

@[simp] theorem reg_put_self : (hw.put addr value).reg addr = value :=
  Bus.register_setRegister_self _ _ _

theorem reg_put_of_ne {x y : UInt16} (h : x.toUInt8 ≠ y.toUInt8) :
    (hw.put x value).reg y = hw.reg y := Bus.register_setRegister_of_ne _ h _

@[simp] theorem clock_put : (hw.put addr value).clock = hw.clock := rfl

@[simp] theorem display_put : (hw.put addr value).display = hw.display := rfl

@[simp] theorem observers_put : (hw.put addr value).body.observers = hw.body.observers := rfl

@[simp] theorem reg_later : (hw.later delay task).reg addr = hw.reg addr := rfl

@[simp] theorem clock_later : (hw.later delay task).clock = hw.clock.schedule delay task := rfl

@[simp] theorem display_later : (hw.later delay task).display = hw.display := rfl

@[simp] theorem observers_later : (hw.later delay task).body.observers = hw.body.observers := rfl

@[simp] theorem reg_showing : (hw.showing f).reg addr = hw.reg addr := rfl

@[simp] theorem clock_showing : (hw.showing f).clock = hw.clock := rfl

@[simp] theorem display_showing : (hw.showing f).display = f hw.display := rfl

@[simp] theorem observers_showing : (hw.showing f).body.observers = hw.body.observers := rfl

end

section

variable {α : Type} (hw : Hardware) (addr : UInt16)

@[simp] theorem bind_register (k : UInt8 → Exec Hardware α) :
    (register addr >>= k) hw = k (hw.reg addr) hw := Exec.bind_gets _ _ _

@[simp] theorem bind_setRegister (value : UInt8) (k : Unit → Exec Hardware α) :
    (setRegister addr value >>= k) hw = k () (hw.put addr value) :=
  (Exec.bind_of_ok (x := setRegister addr value) rfl k).trans (Outcome.after_empty _)

@[simp] theorem bind_modifyDisplay (f : Display → Display) (k : Unit → Exec Hardware α) :
    (modifyDisplay f >>= k) hw = k () (hw.showing f) :=
  (Exec.bind_of_ok (x := modifyDisplay f) rfl k).trans (Outcome.after_empty _)

@[simp] theorem schedule_apply (delay : Nat) (task : Task) :
    schedule delay task hw = ⟨.ok (), hw.later delay task, #[]⟩ := rfl

end

/-! ## Requests -/

/-- The hardware with the request of a source raised. -/
def requesting (source : Interrupt) (hw : Hardware) : Hardware :=
  hw.put Register.interruptRequest (hw.reg Register.interruptRequest ||| source.mask)

section

variable (source : Interrupt) (hw : Hardware)

theorem requestInterrupt_apply : requestInterrupt source hw =
    ⟨.ok (), hw.requesting source, #[.notice (.interruptRequested source)]⟩ := rfl

theorem reg_requesting {addr : UInt16} (h : Register.interruptRequest.toUInt8 ≠ addr.toUInt8) :
    (hw.requesting source).reg addr = hw.reg addr := reg_put_of_ne _ _ h

@[simp] theorem clock_requesting : (hw.requesting source).clock = hw.clock := rfl

@[simp] theorem display_requesting : (hw.requesting source).display = hw.display := rfl

@[simp] theorem observers_requesting :
    (hw.requesting source).body.observers = hw.body.observers := rfl

end

/-! ## The timers -/

theorem tickDivider_apply (hw : Hardware) : tickDivider hw =
    ⟨.ok (), (hw.put Register.divider (hw.reg Register.divider + 1)).later dividerCycles .divider,
      #[]⟩ := rfl

/-- The hardware after one more on the counter. -/
def counted (hw : Hardware) : Hardware :=
  if hw.reg Register.counter = 0xff then
    (hw.put Register.counter (hw.reg Register.reload)).requesting .timer
  else hw.put Register.counter (hw.reg Register.counter + 1)

/-- What one more on the counter gives rise to report. -/
def countRecords (hw : Hardware) : Array Record :=
  if hw.reg Register.counter = 0xff then
    #[.notice (.counterOverflowed (hw.reg Register.reload)), .notice (.interruptRequested .timer)]
  else #[]

theorem stepCounter_apply (hw : Hardware) :
    stepCounter hw = ⟨.ok (), hw.counted, hw.countRecords⟩ := by
  rw [stepCounter, bind_register, counted, countRecords]
  split
  · rfl
  · rfl

/-- Whether the counter runs. -/
def counterRuns (hw : Hardware) : Bool := hw.reg Register.timerControl &&& Register.counterOn ≠ 0

/-- The cycles between two ticks of the counter, for each value of the low two bits of the control
byte. -/
def counterCycles (control : UInt8) : Nat :=
  if control &&& 0x03 = 0 then 1024
  else if control &&& 0x03 = 1 then 16
  else if control &&& 0x03 = 2 then 64
  else 256

/-- No control byte is without a period. -/
theorem selectPeriod_eq (control : UInt8) :
    selectPeriod control = .ok (counterCycles control) := by
  have hcode : ∀ control : UInt8, control &&& 0x03 = 0 ∨ control &&& 0x03 = 1 ∨
      control &&& 0x03 = 2 ∨ control &&& 0x03 = 3 := forall_byte (by decide +kernel)
  rcases hcode control with h | h | h | h <;> rw [selectPeriod, counterCycles, h] <;> rfl

theorem counterPeriod_eq (control : UInt8) : counterPeriod control = counterCycles control := by
  rw [counterPeriod, selectPeriod_eq]

theorem le_counterCycles : ∀ control, 16 ≤ counterCycles control :=
  forall_byte (by decide +kernel)

theorem counterCycles_le : ∀ control, counterCycles control ≤ 1024 :=
  forall_byte (by decide +kernel)

/-- The hardware after a tick of the counter. -/
def counterTicked (hw : Hardware) : Hardware :=
  (if hw.counterRuns then hw.counted else hw).later
    (counterCycles (hw.reg Register.timerControl)) .counter

/-- A tick of the counter never fails: whatever its control byte, there is a next tick. -/
theorem tickCounter_apply (hw : Hardware) : tickCounter hw =
    ⟨.ok (), hw.counterTicked, if hw.counterRuns then hw.countRecords else #[]⟩ := by
  rw [tickCounter, bind_register, counterTicked, counterRuns, selectPeriod_eq, Exec.ofExcept_ok,
    pure_bind]
  by_cases h : hw.reg Register.timerControl &&& Register.counterOn ≠ 0
  · simp [h, Exec.bind_of_ok (stepCounter_apply hw), Outcome.after]
  · simp [h]

/-- The hardware after a tick of the calendar. -/
def calendarTicked (hw : Hardware) : Hardware :=
  { hw with body := { hw.body with
      bus := { hw.body.bus with cartridge := hw.body.bus.cartridge.tickCalendar } } }

theorem tickCalendar_apply (hw : Hardware) : tickCalendar hw =
    ⟨.ok (), hw.calendarTicked.later secondCycles .calendar, #[]⟩ := rfl

end Hardware

end DotMatrix
