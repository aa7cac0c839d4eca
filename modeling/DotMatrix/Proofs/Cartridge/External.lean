import DotMatrix.Proofs.Bus.Refusal

/-!
# What the external window shows

Gate, selection, four banks of RAM and two copies of the calendar share the external window of a
controller.  Here everything that is done to a controller is kept in a log, and what the window
reads as is told from the log alone.

* `Log` — what was done to a controller, and `Log.isOpen`, `Log.selected`, `Log.stored`,
  `Log.running`, `Log.latched`, what it says about each part.
* `Mirrors` — a controller is as its log says, and `mirrors_perform`, that every call keeps it so.
* `external_window` — what the window reads as, and which calls change what.
-/

set_option autoImplicit false

namespace DotMatrix

/-! ## Codes -/

/-- The field of the calendar that a select code stands for. -/
def CalendarField.ofCode? (code : UInt8) : Option CalendarField :=
  CalendarField.all.find? fun f ↦ 0x08 + f.slot = code

namespace Window

/-- The code stands for a bank or for a field of the calendar. -/
def IsCode (code : UInt8) : Prop := code ≤ 0x03 ∨ 0x08 ≤ code ∧ code ≤ 0x0c

instance (code : UInt8) : Decidable (IsCode code) := inferInstanceAs (Decidable (_ ∨ _))

theorem ofCode?_eq_none_iff : ∀ {code : UInt8}, ofCode? code = none ↔ ¬ IsCode code :=
  fun {code} ↦ forall_byte (P := fun code ↦ ofCode? code = none ↔ ¬ IsCode code)
    (by decide +kernel) code

theorem code_of_ofCode? {code : UInt8} {window : Window} (h : ofCode? code = some window) :
    window.code = code := by
  unfold ofCode? at h
  split at h <;> cases h <;> rfl

theorem exists_ofCode? {code : UInt8} (h : IsCode code) :
    ∃ window, ofCode? code = some window ∧ window.code = code := by
  cases hw : ofCode? code with
  | none => exact absurd h (ofCode?_eq_none_iff.1 hw)
  | some window => exact ⟨window, rfl, code_of_ofCode? hw⟩

theorem ofCode?_code (window : Window) : ofCode? window.code = some window := by
  cases window with
  | bank n =>
    revert n
    decide
  | calendar f => cases f <;> rfl

theorem code_inj {window other : Window} (h : window.code = other.code) : window = other := by
  have hw := ofCode?_code window
  rw [h, ofCode?_code other] at hw
  exact (Option.some.inj hw).symm

/-- The code of a bank is that of no field. -/
theorem fieldOfCode?_bank : ∀ n : Fin 4, CalendarField.ofCode? (bank n).code = none := by decide

theorem fieldOfCode?_calendar (f : CalendarField) :
    CalendarField.ofCode? (calendar f).code = some f := by cases f <;> rfl

end Window

namespace Mbc3

/-- An offset into a bank stands for a place of its own. -/
theorem ramIndex_eq_iff {n k : Fin 4} {addr other : UInt16} (h : isExternal addr)
    (ho : isExternal other) : (ramIndex n addr).val = (ramIndex k other).val ↔
      n = k ∧ addr.toNat - 0xa000 = other.toNat - 0xa000 := by
  simp only [isExternal, Bool.and_eq_true, decide_eq_true_eq, UInt16.le_iff_toNat_le,
    UInt16.lt_iff_toNat_lt, UInt16.reduceToNat] at h ho
  rw [ramIndex, ramIndex, Fin.ext_iff]
  dsimp only
  omega

variable {m : Mbc3} (addr : UInt16) (value : UInt8)

theorem writeWindow_of_closed (h : m.enabled = false) : writeWindow addr value m =
    ⟨.ok (), m, #[.notice (.disabledRamWrite value addr)]⟩ := by
  rw [writeWindow, h, if_neg Bool.false_ne_true]

theorem writeWindow_of_bank (h : m.enabled) {n : Fin 4} (hw : m.window = .bank n) :
    writeWindow addr value m = ⟨.ok (), { m with
      ram := m.ram.set (ramIndex n addr).val value (ramIndex n addr).isLt }, #[]⟩ := by
  rw [writeWindow, if_pos h, hw]

theorem writeWindow_of_calendar (h : m.enabled) {f : CalendarField}
    (hw : m.window = .calendar f) : writeWindow addr value m =
      ⟨.ok (), { m with calendar := m.calendar.set f value }, #[]⟩ := by
  rw [writeWindow, if_pos h, hw]

end Mbc3

namespace Cartridge

/-! ## Logs -/

/-- What the bus and the timers can do to a cartridge. -/
inductive Call where
  | enable (value : UInt8)
  | selectBank (value : UInt8)
  | selectWindow (code : UInt8)
  | latch (value : UInt8)
  | tick
  | read (addr : UInt16)
  | write (addr : UInt16) (value : UInt8)

/-- Carry out a call. -/
def Call.perform : Call → Exec Cartridge Unit
  | .enable value => Cartridge.enable value
  | .selectBank value => Cartridge.selectBank value
  | .selectWindow code => Cartridge.selectWindow code
  | .latch value => Cartridge.latch value
  | .tick => Exec.modify tickCalendar
  | .read addr => fun c ↦ ⟨(c.read addr).map fun _ ↦ (), c, c.readRecords addr⟩
  | .write addr value => Cartridge.write addr value

/-- The calls that were made, the newest first. -/
abbrev Log : Type := List Call

/-- A cartridge with a controller after these calls, whether they succeeded or not. -/
def called (image : Array UInt8) : Log → Cartridge
  | [] => mbc3 image
  | call :: older => (call.perform (called image older)).state

namespace Log

/-- The last byte that opened or closed the window had `0xa` as its low half. -/
def isOpen : Log → Bool
  | [] => false
  | .enable value :: _ => value.toNat % 16 = 0xa
  | _ :: older => isOpen older

/-- The code that was accepted last. -/
def selected : Log → UInt8
  | [] => 0
  | .selectWindow code :: older => if Window.IsCode code then code else selected older
  | _ :: older => selected older

/-- The byte that was written last to an offset of the window while it was open and showed the bank
with that code. -/
def stored (bank : UInt8) (offset : Nat) : Log → UInt8
  | [] => 0
  | .write addr value :: older =>
    if isExternal addr ∧ isOpen older ∧ selected older = bank ∧ addr.toNat - 0xa000 = offset then
      value
    else stored bank offset older
  | _ :: older => stored bank offset older

/-- The calendar as it ran, with what was written to the fields that the open window showed. -/
def running : Log → Calendar
  | [] => {}
  | .tick :: older => (running older).tick
  | .write addr value :: older =>
    if isExternal addr ∧ isOpen older then
      match CalendarField.ofCode? (selected older) with
      | some f => (running older).set f value
      | none => running older
    else running older
  | _ :: older => running older

/-- The last latch byte was `0x00`. -/
def isArmed : Log → Bool
  | [] => false
  | .latch value :: _ => value = 0x00
  | _ :: older => isArmed older

/-- The calendar when a latch byte `0x01` last came right after a latch byte `0x00`. -/
def latched : Log → Calendar
  | [] => {}
  | .latch value :: older =>
    if value = 0x01 ∧ isArmed older then running older else latched older
  | _ :: older => latched older

/-- What an address of the external window reads as. -/
def shown (log : Log) (addr : UInt16) : UInt8 :=
  if log.isOpen then
    match CalendarField.ofCode? log.selected with
    | some f => log.latched.field f
    | none => log.stored log.selected (addr.toNat - 0xa000)
  else 0xff

end Log

variable {log : Log} {m : Mbc3} {addr : UInt16}

/-! ## The calendars stay within their bits -/

theorem Log.masked_running (log : Log) : log.running.Masked := by
  induction log with
  | nil => exact Calendar.masked_start
  | cons call older ih =>
    cases call with
    | tick => exact ih.tick
    | write addr value =>
      rw [running]
      split
      · split
        · exact ih.set _ value
        · exact ih
      · exact ih
    | enable | selectBank | selectWindow | latch | read => exact ih

theorem Log.masked_latched (log : Log) : log.latched.Masked := by
  induction log with
  | nil => exact Calendar.masked_start
  | cons call older ih =>
    cases call with
    | latch value =>
      rw [latched]
      split
      · exact Log.masked_running older
      · exact ih
    | enable | selectBank | selectWindow | tick | read | write => exact ih

/-! ## A controller is as its log says -/

/-- The parts of a controller are what the log says about them. -/
structure Mirrors (log : Log) (m : Mbc3) : Prop where
  enabled : m.enabled = log.isOpen
  window : m.window.code = log.selected
  ram : ∀ (n : Fin 4) (addr : UInt16), isExternal addr →
    m.ram.get (Mbc3.ramIndex n addr) = log.stored (Window.bank n).code (addr.toNat - 0xa000)
  calendar : m.calendar = log.running
  latched : m.latched = log.latched
  latchArmed : m.latchArmed = log.isArmed

theorem mirrors_start : Mirrors [] {} where
  enabled := rfl
  window := rfl
  ram _ _ _ := Vector.getElem_replicate _
  calendar := rfl
  latched := rfl
  latchArmed := rfl

theorem low_half_eq_iff : ∀ value : UInt8, value &&& 0x0f = 0x0a ↔ value.toNat % 16 = 0xa :=
  forall_byte (by decide +kernel)

theorem Mirrors.enable (h : Mirrors log m) (value : UInt8) :
    Mirrors (.enable value :: log) (Mbc3.enable value m).state :=
  { h with enabled := decide_eq_decide.2 (low_half_eq_iff value) }

theorem Mirrors.selectWindow (h : Mirrors log m) (code : UInt8) :
    Mirrors (.selectWindow code :: log) (Mbc3.selectWindow code m).state := by
  rw [Mbc3.selectWindow]
  by_cases hc : Window.IsCode code
  · obtain ⟨window, hw, hcode⟩ := Window.exists_ofCode? hc
    rw [hw]
    exact { h with window := hcode.trans (if_pos hc).symm }
  · rw [Window.ofCode?_eq_none_iff.2 hc]
    exact { h with window := h.window.trans (if_neg hc).symm }

theorem Mirrors.latch (h : Mirrors log m) (value : UInt8) :
    Mirrors (.latch value :: log) (Mbc3.latch value m).state := by
  rw [Mbc3.latch]
  split
  · rename_i h0
    subst h0
    exact { h with latched := h.latched, latchArmed := rfl }
  rename_i h0
  split
  · rename_i h1
    have hlog : value = 0x01 ∧ log.isArmed := ⟨h1.1, h.latchArmed ▸ h1.2⟩
    exact { h with
      latched := h.calendar.trans (if_pos hlog).symm
      latchArmed := (decide_eq_false h0).symm }
  · rename_i h1
    have hlog : ¬ (value = 0x01 ∧ log.isArmed) := h.latchArmed ▸ h1
    exact { h with
      latched := h.latched.trans (if_neg hlog).symm
      latchArmed := (decide_eq_false h0).symm }

theorem Mirrors.tick (h : Mirrors log m) :
    Mirrors (.tick :: log) { m with calendar := m.calendar.tick } :=
  { h with calendar := congrArg Calendar.tick h.calendar }

/-- A write outside the window or to a closed one does nothing. -/
theorem Mirrors.write_ignored (h : Mirrors log m) (ha : ¬ (isExternal addr ∧ log.isOpen))
    (value : UInt8) : Mirrors (.write addr value :: log) m :=
  { h with
    ram := fun n other ho ↦ (h.ram n other ho).trans (if_neg fun hw ↦ ha ⟨hw.1, hw.2.1⟩).symm
    calendar := h.calendar.trans (if_neg ha).symm }

theorem Mirrors.write_bank (h : Mirrors log m) (ha : isExternal addr) (hopen : log.isOpen)
    {n : Fin 4} (hw : m.window = .bank n) (value : UInt8) :
    Mirrors (.write addr value :: log)
      { m with ram := m.ram.set (Mbc3.ramIndex n addr).val value (Mbc3.ramIndex n addr).isLt } := by
  have hcode : (Window.bank n).code = log.selected := hw ▸ h.window
  have hkept : log.running = Log.running (.write addr value :: log) := by
    rw [Log.running, ← hcode, Window.fieldOfCode?_bank, if_pos ⟨ha, hopen⟩]
  refine { h with ram := fun k other ho ↦ ?_, calendar := h.calendar.trans hkept }
  show (m.ram.set (Mbc3.ramIndex n addr).val value (Mbc3.ramIndex n addr).isLt)[
    (Mbc3.ramIndex k other).val] = _
  rw [Vector.getElem_set, Log.stored, ← hcode]
  by_cases hsame : (Mbc3.ramIndex n addr).val = (Mbc3.ramIndex k other).val
  · obtain ⟨rfl, hoffset⟩ := (Mbc3.ramIndex_eq_iff ha ho).1 hsame
    rw [if_pos hsame, if_pos ⟨ha, hopen, rfl, hoffset⟩]
  · rw [if_neg hsame, if_neg]
    · exact h.ram k other ho
    · rintro ⟨-, -, hbank, hoffset⟩
      cases Window.code_inj hbank
      exact hsame ((Mbc3.ramIndex_eq_iff ha ho).2 ⟨rfl, hoffset⟩)

theorem Mirrors.write_field (h : Mirrors log m) (ha : isExternal addr) (hopen : log.isOpen)
    {f : CalendarField} (hw : m.window = .calendar f) (value : UInt8) :
    Mirrors (.write addr value :: log) { m with calendar := m.calendar.set f value } := by
  have hcode : (Window.calendar f).code = log.selected := hw ▸ h.window
  have hset : m.calendar.set f value = Log.running (.write addr value :: log) := by
    rw [Log.running, ← hcode, Window.fieldOfCode?_calendar, if_pos ⟨ha, hopen⟩, h.calendar]
  refine { h with ram := fun k other ho ↦ (h.ram k other ho).trans ?_, calendar := hset }
  rw [Log.stored, ← hcode, if_neg]
  rintro ⟨-, -, hbank, -⟩
  cases Window.code_inj hbank

theorem Mirrors.write (h : Mirrors log m) (ha : isExternal addr) (value : UInt8) :
    Mirrors (.write addr value :: log) (Mbc3.writeWindow addr value m).state := by
  cases hopen : log.isOpen with
  | false =>
    rw [Mbc3.writeWindow_of_closed addr value (h.enabled.trans hopen)]
    exact h.write_ignored (fun hw ↦ by rw [hopen] at hw; cases hw.2) value
  | true =>
    have hm : m.enabled := h.enabled.trans hopen
    cases hw : m.window with
    | bank n =>
      rw [Mbc3.writeWindow_of_bank addr value hm hw]
      exact h.write_bank ha hopen hw value
    | calendar f =>
      rw [Mbc3.writeWindow_of_calendar addr value hm hw]
      exact h.write_field ha hopen hw value

/-- Every call leaves a controller as its log says. -/
theorem mirrors_perform (h : Mirrors log m) (image : Array UInt8) (call : Call) :
    ∃ m', (call.perform ⟨image, .mbc3 m⟩).state = ⟨image, .mbc3 m'⟩ ∧
      Mirrors (call :: log) m' := by
  cases call with
  | enable value => exact ⟨_, rfl, h.enable value⟩
  | selectBank value => exact ⟨_, rfl, { h with }⟩
  | selectWindow code => exact ⟨_, rfl, h.selectWindow code⟩
  | latch value => exact ⟨_, rfl, h.latch value⟩
  | tick => exact ⟨_, rfl, h.tick⟩
  | read addr => exact ⟨m, rfl, { h with }⟩
  | write addr value =>
    rw [Call.perform, Cartridge.write]
    split
    · rename_i ha
      exact ⟨_, rfl, h.write ha value⟩
    · rename_i ha
      exact ⟨m, rfl, h.write_ignored (fun hw ↦ ha hw.1) value⟩

theorem read_external (image : Array UInt8) (m : Mbc3) (ha : isExternal addr) :
    read ⟨image, .mbc3 m⟩ addr = .ok (m.readWindow addr) := by
  have hge : (0xa000 : UInt16) ≤ addr := by
    rw [isExternal, Bool.and_eq_true, decide_eq_true_eq] at ha
    exact ha.1
  rw [read, if_neg (UInt16.not_lt.2 (UInt16.le_trans (by decide) hge)),
    if_neg (UInt16.not_lt.2 (UInt16.le_trans (by decide) hge)), if_pos ha]

theorem exists_mirrors (image : Array UInt8) (log : Log) :
    ∃ m, called image log = ⟨image, .mbc3 m⟩ ∧ Mirrors log m := by
  induction log with
  | nil => exact ⟨{}, rfl, mirrors_start⟩
  | cons call older ih =>
    obtain ⟨m, hm, h⟩ := ih
    rw [called, hm]
    exact mirrors_perform h image call

/-- The window reads as its log says. -/
theorem Mirrors.readWindow (h : Mirrors log m) (ha : isExternal addr) :
    m.readWindow addr = log.shown addr := by
  rw [Mbc3.readWindow, Log.shown, h.enabled, ← h.window]
  split
  · cases m.window with
    | bank n => rw [Window.fieldOfCode?_bank, ← h.ram n addr ha]
    | calendar f =>
      rw [Window.fieldOfCode?_calendar, h.latched]
      exact log.masked_latched f
  · rfl

/-- **The external window holds what was done to it.**  After any calls in any order, failed ones
among them, an address of the window reads as `0xff` if it is closed, as the byte that was written
there last while the selected bank was shown, or as the selected field of the latched calendar.  A
write to the closed window does nothing.  A write to a field changes that field of the running
calendar, as far as it is wide, and nothing else.  A code that stands for no window is turned down,
and does nothing. -/
theorem external_window (image : Array UInt8) (log : Log) :
    ∃ m, called image log = ⟨image, .mbc3 m⟩ ∧
      (∀ addr, isExternal addr → (called image log).read addr = .ok (log.shown addr)) ∧
      (∀ addr value, isExternal addr → log.isOpen = false →
        (write addr value (called image log)).result = .ok () ∧
          (write addr value (called image log)).state = called image log) ∧
      (∀ addr value (f : CalendarField), isExternal addr → log.isOpen →
        log.selected = 0x08 + f.slot →
          write addr value (called image log) =
            ⟨.ok (), ⟨image, .mbc3 { m with calendar := m.calendar.set f value }⟩, #[]⟩ ∧
          ∀ g, (m.calendar.set f value).field g =
            if g = f then value &&& f.mask else m.calendar.field g) ∧
      ∀ code,
        (Window.IsCode code → (selectWindow code (called image log)).result = .ok ()) ∧
        (¬ Window.IsCode code → selectWindow code (called image log) =
          ⟨.error (.invalidRamBank code), called image log, #[]⟩) := by
  obtain ⟨m, hm, h⟩ := exists_mirrors image log
  rw [hm]
  refine ⟨m, rfl, fun addr ha ↦ ?_, fun addr value ha hclosed ↦ ?_,
    fun addr value f ha hopen hcode ↦ ⟨?_, fun g ↦ m.calendar.field_set f g value⟩,
    fun code ↦ ⟨fun hc ↦ ?_, fun hc ↦ ?_⟩⟩
  · rw [read_external image m ha]
    exact congrArg Except.ok (h.readWindow ha)
  · rw [write, if_pos ha, onController,
      Mbc3.writeWindow_of_closed addr value (h.enabled.trans hclosed)]
    exact ⟨rfl, rfl⟩
  · have hw : m.window = .calendar f := Window.code_inj (h.window.trans hcode)
    rw [write, if_pos ha, onController,
      Mbc3.writeWindow_of_calendar addr value (h.enabled.trans hopen) hw]
  · exact result_selectWindow fun _ hn ↦ Window.ofCode?_eq_none_iff.1 hn hc
  · exact selectWindow_of_none ⟨m, rfl⟩ (Window.ofCode?_eq_none_iff.2 hc)

/-- A program that fills the minutes and latches them, with a byte in the third bank before. -/
def minutesLog : Log :=
  [.latch 1, .tick, .latch 0, .write 0xa000 0x7f, .selectWindow 0x09, .write 0xa123 0x2a,
    .selectWindow 0x02, .enable 0x0a]

/-- All six bits of the minutes are read anywhere in the window, also after a code that is turned
down, and the bank still holds its byte once it is selected again. -/
theorem external_window_minutes :
    (called #[] (.selectWindow 0x04 :: minutesLog)).read 0xbfff = .ok 0x3f ∧
      selectWindow 0x04 (called #[] minutesLog) =
        ⟨.error (.invalidRamBank 0x04), called #[] minutesLog, #[]⟩ ∧
      (called #[] (.selectWindow 0x02 :: minutesLog)).read 0xa123 = .ok 0x2a := by
  obtain ⟨m, -, hread, -⟩ := external_window #[] (.selectWindow 0x04 :: minutesLog)
  obtain ⟨m', -, -, -, -, hselect⟩ := external_window #[] minutesLog
  obtain ⟨m'', -, hback, -⟩ := external_window #[] (.selectWindow 0x02 :: minutesLog)
  exact ⟨hread 0xbfff (by decide), (hselect 0x04).2 (by decide), hback 0xa123 (by decide)⟩

end Cartridge

end DotMatrix
