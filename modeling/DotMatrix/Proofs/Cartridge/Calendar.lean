import Mathlib.Logic.Function.Iterate
import DotMatrix.Proofs.Range.Cartridge

/-!
# The calendar counts seconds

A calendar that runs is a counter in mixed radix: seconds and minutes to sixty, hours to twenty-four
and days to five hundred and twelve, with a carry that stays once the days have wrapped.  A field
that was set past its usual range leaves that scheme: it counts up to the width it is stored in and
then starts again from zero, and the field above it does not notice.

* `tick_cases` — which fields a second changes, and how.
* `InRange.tick_counts` and `InRange.iterate_counts` — a second more on the total, and any number of
  them, while every field is within its range.
* `Nears` and `Past.iterate` — a second less until a field past its range starts again, and any
  number of them.
* `tick_iterate_counts` — both together, with what holds on every calendar that can come about.
-/

set_option autoImplicit false

namespace DotMatrix

/-- What a field counts to before it carries, if it was within that range. -/
def CalendarField.limit : CalendarField → Nat
  | .seconds | .minutes => 60
  | .hours => 24
  | .daysLow | .daysHigh => 256

namespace Calendar

/-- The seconds that the days, hours, minutes and seconds amount to. -/
def total (c : Calendar) : Nat :=
  ((c.days.toNat * 24 + c.hours.toNat) * 60 + c.minutes.toNat) * 60 + c.seconds.toNat

/-- The seconds that the calendar counts to before it starts again. -/
def span : Nat := 512 * 86400

/-- The carry bit says that the days have wrapped. -/
def carried (c : Calendar) : Bool := decide (c.daysHigh &&& 0x80 ≠ 0)

/-- The seconds, minutes and hours are those of a clock. -/
structure InRange (c : Calendar) : Prop where
  seconds : c.seconds.toNat < 60
  minutes : c.minutes.toNat < 60
  hours : c.hours.toNat < 24

/-- The calendars that writes to the fields and seconds that pass lead to. -/
inductive Reached : Calendar → Prop
  | start : Reached {}
  | set {c : Calendar} (h : c.Reached) (f : CalendarField) (value : UInt8) : Reached (c.set f value)
  | tick {c : Calendar} (h : c.Reached) : Reached c.tick

theorem Reached.masked {c : Calendar} (h : c.Reached) : c.Masked := by
  induction h with
  | start => exact masked_start
  | set _ f value ih => exact ih.set f value
  | tick _ ih => exact ih.tick

/-! ## One second -/

/-- A field of so many bits counts modulo the power of two. -/
theorem toNat_counted {mask : UInt8} {bits : Nat} (h : mask.toNat = 2 ^ bits - 1) (hle : bits ≤ 8)
    (x : UInt8) : ((x + 1) &&& mask).toNat = (x.toNat + 1) % 2 ^ bits := by
  rw [UInt8.toNat_and, h, Nat.and_two_pow_sub_one_eq_mod, UInt8.toNat_add]
  exact Nat.mod_mod_of_dvd _ (Nat.pow_dvd_pow 2 hle)

theorem toNat_sixtyCounted (x : UInt8) : ((x + 1) &&& 0x3f).toNat = (x.toNat + 1) % 64 :=
  @toNat_counted 0x3f 6 rfl (by decide) x

theorem toNat_hoursCounted (x : UInt8) : ((x + 1) &&& 0x1f).toNat = (x.toNat + 1) % 32 :=
  @toNat_counted 0x1f 5 rfl (by decide) x

/-- A second changes the seconds, and a field above them only when all those below it carry. -/
theorem tick_cases {c : Calendar} (h : c.isHalted = false) :
    ((c.seconds.toNat + 1) % 64 ≠ 60 ∧
      c.tick = { c with seconds := (c.seconds + 1) &&& 0x3f }) ∨
    ((c.seconds.toNat + 1) % 64 = 60 ∧ (c.minutes.toNat + 1) % 64 ≠ 60 ∧
      c.tick = { c with seconds := 0, minutes := (c.minutes + 1) &&& 0x3f }) ∨
    ((c.seconds.toNat + 1) % 64 = 60 ∧ (c.minutes.toNat + 1) % 64 = 60 ∧
      (c.hours.toNat + 1) % 32 ≠ 24 ∧
      c.tick = { c with seconds := 0, minutes := 0, hours := (c.hours + 1) &&& 0x1f }) ∨
    ((c.seconds.toNat + 1) % 64 = 60 ∧ (c.minutes.toNat + 1) % 64 = 60 ∧
      (c.hours.toNat + 1) % 32 = 24 ∧
      c.tick = { c with seconds := 0, minutes := 0, hours := 0 }.tickDay) := by
  rw [tick, if_neg (by rw [h]; decide), ← toNat_sixtyCounted, ← toNat_sixtyCounted,
    ← toNat_hoursCounted]
  dsimp only
  by_cases hs : (c.seconds + 1) &&& 0x3f = 60
  · have hs' : ((c.seconds + 1) &&& 0x3f).toNat = 60 := congrArg UInt8.toNat hs
    rw [if_pos hs, tickMinute]
    dsimp only
    by_cases hm : (c.minutes + 1) &&& 0x3f = 60
    · have hm' : ((c.minutes + 1) &&& 0x3f).toNat = 60 := congrArg UInt8.toNat hm
      rw [if_pos hm, tickHour]
      dsimp only
      by_cases hh : (c.hours + 1) &&& 0x1f = 24
      · have hh' : ((c.hours + 1) &&& 0x1f).toNat = 24 := congrArg UInt8.toNat hh
        exact .inr (.inr (.inr ⟨hs', hm', hh', if_pos hh⟩))
      · exact .inr (.inr (.inl ⟨hs', hm', fun h ↦ hh (UInt8.toNat_inj.1 h), if_neg hh⟩))
    · exact .inr (.inl ⟨hs', fun h ↦ hm (UInt8.toNat_inj.1 h), if_neg hm⟩)
  · exact .inl ⟨fun h ↦ hs (UInt8.toNat_inj.1 h), if_neg hs⟩

/-- New day bits in the flags: the halt bit stays, and the carry bit stays unless it is set anew. -/
theorem flags_renewed (flags : UInt8) : ∀ top ∈ ([0x80, 0, 1] : List UInt8),
    (flags &&& 0xfe ||| top) &&& 0x01 = top &&& 0x01 ∧
    (flags &&& 0xfe ||| top) &&& 0x40 = flags &&& 0x40 ∧
    decide ((flags &&& 0xfe ||| top) &&& 0x80 ≠ 0) =
      (decide (flags &&& 0x80 ≠ 0) || decide (top = 0x80)) := by
  revert flags
  exact forall_byte (by decide +kernel)

theorem renewed (c : Calendar) (low : UInt8) {top : UInt8}
    (h : top ∈ ([0x80, 0, 1] : List UInt8)) :
    { c with daysLow := low, daysHigh := c.daysHigh &&& 0xfe ||| top }.days.toNat =
      (top &&& 1).toNat * 256 + low.toNat ∧
    { c with daysLow := low, daysHigh := c.daysHigh &&& 0xfe ||| top }.carried =
      (c.carried || decide (top = 0x80)) ∧
    { c with daysLow := low, daysHigh := c.daysHigh &&& 0xfe ||| top }.isHalted = c.isHalted := by
  obtain ⟨hday, hhalt, hcarry⟩ := flags_renewed c.daysHigh top h
  refine ⟨?_, hcarry, ?_⟩
  · rw [toNat_days, hday]
  · rw [isHalted, hhalt, isHalted]

/-- A day more, modulo the days that nine bits count, and the carry when they wrap. -/
theorem tickDay_counts (c : Calendar) :
    c.tickDay.days.toNat = (c.days.toNat + 1) % 512 ∧
    c.tickDay.carried = (c.carried || decide (c.days.toNat = 511)) ∧
    c.tickDay.isHalted = c.isHalted := by
  obtain ⟨hdays, hday⟩ | ⟨hdays, htop, hday⟩ := c.tickDay_cases
  · obtain ⟨hcount, hcarry, hhalt⟩ := @renewed c 0 0x80 (by decide)
    rw [hday, hcount, hcarry, hhalt, hdays]
    exact ⟨rfl, rfl, rfl⟩
  · have hmem : highByte (c.days + 1) ∈ ([0x80, 0, 1] : List UInt8) := by
      rcases htop with h | h <;> rw [h] <;> decide
    have hbit : highByte (c.days + 1) &&& 1 = highByte (c.days + 1) := by
      rcases htop with h | h <;> rw [h] <;> rfl
    have hne : highByte (c.days + 1) ≠ 0x80 := by
      rcases htop with h | h <;> rw [h] <;> decide
    have hnext : (c.days + 1).toNat = c.days.toNat + 1 :=
      (UInt16.toNat_add c.days 1).trans
        (Nat.mod_eq_of_lt (by change c.days.toNat + 1 < 65536; omega))
    obtain ⟨hcount, hcarry, hhalt⟩ := c.renewed (lowByte (c.days + 1)) hmem
    rw [hday, hcount, hcarry, hhalt, hbit, toNat_highByte, toNat_lowByte, hnext,
      decide_eq_false hne, decide_eq_false (by omega : ¬ c.days.toNat = 511)]
    exact ⟨by omega, rfl, rfl⟩

theorem seconds_tickDay (c : Calendar) : c.tickDay.seconds = c.seconds := by
  obtain ⟨-, h⟩ | ⟨-, -, h⟩ := c.tickDay_cases <;> rw [h]

theorem minutes_tickDay (c : Calendar) : c.tickDay.minutes = c.minutes := by
  obtain ⟨-, h⟩ | ⟨-, -, h⟩ := c.tickDay_cases <;> rw [h]

theorem hours_tickDay (c : Calendar) : c.tickDay.hours = c.hours := by
  obtain ⟨-, h⟩ | ⟨-, -, h⟩ := c.tickDay_cases <;> rw [h]

theorem isHalted_tick (c : Calendar) : c.tick.isHalted = c.isHalted := by
  cases hrun : c.isHalted with
  | true => rw [tick, if_pos hrun, hrun]
  | false =>
    rw [← hrun]
    obtain ⟨-, h⟩ | ⟨-, -, h⟩ | ⟨-, -, -, h⟩ | ⟨-, -, -, h⟩ := tick_cases hrun <;> rw [h]
    · rfl
    · rfl
    · rfl
    · exact (tickDay_counts _).2.2

/-! ## Fields within range -/

variable {c : Calendar}

theorem InRange.total_lt (h : c.InRange) : c.total < span := by
  obtain ⟨hs, hm, hh⟩ := h
  have hd := c.days_lt
  rw [total, span]
  omega

theorem InRange.tick (h : c.InRange) : c.tick.InRange := by
  cases hrun : c.isHalted with
  | true => rwa [Calendar.tick, if_pos hrun]
  | false =>
    obtain ⟨hs, hm, hh⟩ := h
    have hsecond := toNat_sixtyCounted c.seconds
    have hminute := toNat_sixtyCounted c.minutes
    have hhour := toNat_hoursCounted c.hours
    obtain ⟨hs', htick⟩ | ⟨-, hm', htick⟩ | ⟨-, -, hh', htick⟩ | ⟨-, -, -, htick⟩ :=
      tick_cases hrun <;> rw [htick]
    · exact ⟨by dsimp only; omega, hm, hh⟩
    · exact ⟨Nat.zero_lt_succ 59, by dsimp only; omega, hh⟩
    · exact ⟨Nat.zero_lt_succ 59, Nat.zero_lt_succ 59, by dsimp only; omega⟩
    · refine ⟨?_, ?_, ?_⟩
      · rw [seconds_tickDay]
        exact Nat.zero_lt_succ 59
      · rw [minutes_tickDay]
        exact Nat.zero_lt_succ 59
      · rw [hours_tickDay]
        exact Nat.zero_lt_succ 23

/-- While the days do not wrap, a second more is one more of the total, and the carry stays. -/
theorem counts_of_lt {c' : Calendar} (hnext : c'.total = c.total + 1) (hlt : c.total + 1 < span)
    (hcarry : c'.carried = c.carried) :
    c'.total = (c.total + 1) % span ∧ (c'.carried ↔ c.carried ∨ c.total + 1 = span) := by
  rw [Nat.mod_eq_of_lt hlt, hcarry, or_iff_left (Nat.ne_of_lt hlt)]
  exact ⟨hnext, Iff.rfl⟩

/-- A running calendar within range counts a second on. -/
theorem InRange.tick_counts (h : c.InRange) (hrun : c.isHalted = false) :
    c.tick.total = (c.total + 1) % span ∧ (c.tick.carried ↔ c.carried ∨ c.total + 1 = span) := by
  obtain ⟨hs, hm, hh⟩ := h
  have hd := c.days_lt
  have htotal : c.total =
    ((c.days.toNat * 24 + c.hours.toNat) * 60 + c.minutes.toNat) * 60 + c.seconds.toNat := rfl
  have hspan : span = 512 * 86400 := rfl
  -- Only the last case reaches the days, so only there can the total start again.
  obtain ⟨hs', htick⟩ | ⟨hs', hm', htick⟩ | ⟨hs', hm', hh', htick⟩ | ⟨hs', hm', hh', htick⟩ :=
    tick_cases hrun
  · have hnext : c.tick.total = ((c.days.toNat * 24 + c.hours.toNat) * 60 + c.minutes.toNat) * 60 +
        (c.seconds.toNat + 1) % 64 := by
      rw [htick, ← toNat_sixtyCounted]
      rfl
    exact counts_of_lt (by omega) (by omega) (by rw [htick]; rfl)
  · have hnext : c.tick.total = ((c.days.toNat * 24 + c.hours.toNat) * 60 +
        (c.minutes.toNat + 1) % 64) * 60 := by
      rw [htick, ← toNat_sixtyCounted]
      rfl
    exact counts_of_lt (by omega) (by omega) (by rw [htick]; rfl)
  · have hnext : c.tick.total = (c.days.toNat * 24 + (c.hours.toNat + 1) % 32) * 60 * 60 := by
      rw [htick, ← toNat_hoursCounted]
      rfl
    exact counts_of_lt (by omega) (by omega) (by rw [htick]; rfl)
  · obtain ⟨hdays, hcarry, -⟩ := tickDay_counts { c with seconds := 0, minutes := 0, hours := 0 }
    have hnext : c.tick.total = (c.days.toNat + 1) % 512 * 24 * 60 * 60 := by
      rw [htick, total, hdays, seconds_tickDay, minutes_tickDay, hours_tickDay]
      rfl
    have hcarry' : c.tick.carried = (c.carried || decide (c.days.toNat = 511)) := by
      rw [htick, hcarry]
      rfl
    rw [hnext, hcarry', Bool.or_eq_true, decide_eq_true_eq, hspan]
    exact ⟨by omega, or_congr Iff.rfl (by omega)⟩

/-! ## Fields past their range -/

/-- The seconds that a field of sixty counts until it carries, from where it stands. -/
def untilCarry (x : UInt8) : Nat := if x.toNat < 60 then 60 - x.toNat else 124 - x.toNat

/-- The seconds until a field past its range starts again from zero. -/
def untilWrap (c : Calendar) : CalendarField → Nat
  | .seconds => 64 - c.seconds.toNat
  | .minutes => (63 - c.minutes.toNat) * 60 + untilCarry c.seconds
  | .hours =>
    (31 - c.hours.toNat) * 3600 + (untilCarry c.minutes - 1) * 60 + untilCarry c.seconds
  | .daysLow | .daysHigh => 0

theorem untilCarry_of_counted {x : UInt8} (hx : x.toNat ≤ 63) (h : (x.toNat + 1) % 64 ≠ 60) :
    untilCarry x = untilCarry ((x + 1) &&& 0x3f) + 1 := by
  rw [untilCarry, untilCarry, toNat_sixtyCounted]
  split <;> split <;> omega

theorem untilCarry_of_carried {x : UInt8} (hx : x.toNat ≤ 63) (h : (x.toNat + 1) % 64 = 60) :
    untilCarry x = 1 := by
  rw [untilCarry, if_pos (by omega)]
  omega

theorem untilCarry_pos {x : UInt8} (hx : x.toNat ≤ 63) : 0 < untilCarry x := by
  rw [untilCarry]
  split <;> omega

/-- A second brings a field past its range a second closer to where it starts again, and does not
change the fields above it. -/
structure Nears (c : Calendar) (f : CalendarField) : Prop where
  step : c.untilWrap f = 1 ∧ c.tick.field f = 0 ∨
    c.untilWrap f = c.tick.untilWrap f + 1 ∧ c.field f ≤ c.tick.field f
  above : ∀ g, f.slot < g.slot → c.tick.field g = c.field g

/-- The fields above one of seconds, minutes and hours. -/
theorem field_above {c' : Calendar} {f : CalendarField}
    (hminutes : f = .seconds → c'.minutes = c.minutes)
    (hhours : f ≠ .hours → c'.hours = c.hours) (hlow : c'.daysLow = c.daysLow)
    (hhigh : c'.daysHigh = c.daysHigh) : ∀ g, f.slot < g.slot → c'.field g = c.field g := by
  intro g hg
  cases g with
  | seconds => exact absurd hg (by cases f <;> decide)
  | minutes => exact hminutes (by cases f <;> first | rfl | exact absurd hg (by decide))
  | hours => exact hhours (by rintro rfl; exact absurd hg (by decide))
  | daysLow => exact hlow
  | daysHigh => exact hhigh

/-- A second that changes no field above. -/
theorem nears_of {c c' : Calendar} {f : CalendarField} (htick : c.tick = c')
    (hstep : c.untilWrap f = 1 ∧ (c'.field f).toNat = 0 ∨
      c.untilWrap f = c'.untilWrap f + 1 ∧ (c.field f).toNat ≤ (c'.field f).toNat)
    (habove : ∀ g, f.slot < g.slot → c'.field g = c.field g) : c.Nears f := by
  rw [← htick] at hstep habove
  exact ⟨hstep.imp (And.imp_right UInt8.toNat_inj.1) (And.imp_right UInt8.le_iff_toNat_le.2),
    habove⟩

theorem nears_seconds (h : c.Masked) (hrun : c.isHalted = false) (hpast : 60 ≤ c.seconds.toNat) :
    c.Nears .seconds := by
  have hle : c.seconds.toNat ≤ 63 := h.le_mask .seconds
  have hsecond := toNat_sixtyCounted c.seconds
  obtain ⟨-, htick⟩ | ⟨hs, -⟩ | ⟨hs, -⟩ | ⟨hs, -⟩ := tick_cases hrun
  · refine nears_of htick ?_ (field_above (fun _ ↦ rfl) (fun _ ↦ rfl) rfl rfl)
    simp only [untilWrap, field]
    omega
  all_goals omega

theorem nears_minutes (h : c.Masked) (hrun : c.isHalted = false) (hpast : 60 ≤ c.minutes.toNat) :
    c.Nears .minutes := by
  have hseconds : c.seconds.toNat ≤ 63 := h.le_mask .seconds
  have hle : c.minutes.toNat ≤ 63 := h.le_mask .minutes
  have hminute := toNat_sixtyCounted c.minutes
  obtain ⟨hs, htick⟩ | ⟨hs, -, htick⟩ | ⟨-, hm, -⟩ | ⟨-, hm, -⟩ := tick_cases hrun
  · have hcarry := untilCarry_of_counted hseconds hs
    refine nears_of htick ?_ (field_above nofun (fun _ ↦ rfl) rfl rfl)
    simp only [untilWrap, field]
    omega
  · have hcarry := untilCarry_of_carried hseconds hs
    have hzero : untilCarry 0 = 60 := rfl
    refine nears_of htick ?_ (field_above nofun (fun _ ↦ rfl) rfl rfl)
    simp only [untilWrap, field]
    omega
  all_goals omega

theorem nears_hours (h : c.Masked) (hrun : c.isHalted = false) (hpast : 24 ≤ c.hours.toNat) :
    c.Nears .hours := by
  have hseconds : c.seconds.toNat ≤ 63 := h.le_mask .seconds
  have hminutes : c.minutes.toNat ≤ 63 := h.le_mask .minutes
  have hle : c.hours.toNat ≤ 31 := h.le_mask .hours
  have hzero : untilCarry 0 = 60 := rfl
  have hhour := toNat_hoursCounted c.hours
  obtain ⟨hs, htick⟩ | ⟨hs, hm, htick⟩ | ⟨hs, hm, -, htick⟩ | ⟨-, -, hh, -⟩ := tick_cases hrun
  · have hcarry := untilCarry_of_counted hseconds hs
    refine nears_of htick ?_ (field_above nofun (absurd rfl) rfl rfl)
    simp only [untilWrap, field]
    omega
  · have hcarry := untilCarry_of_carried hseconds hs
    have hcounted := untilCarry_of_counted hminutes hm
    have hpos : 0 < untilCarry ((c.minutes + 1) &&& 0x3f) :=
      untilCarry_pos (by rw [toNat_sixtyCounted]; omega)
    refine nears_of htick ?_ (field_above nofun (absurd rfl) rfl rfl)
    simp only [untilWrap, field]
    omega
  · have hcarry := untilCarry_of_carried hseconds hs
    have hcarried := untilCarry_of_carried hminutes hm
    refine nears_of htick ?_ (field_above nofun (absurd rfl) rfl rfl)
    simp only [untilWrap, field]
    omega
  · omega

/-- A calendar that runs with a field past its range. -/
structure Past (c : Calendar) (f : CalendarField) : Prop where
  masked : c.Masked
  running : c.isHalted = false
  past : f.limit ≤ (c.field f).toNat

variable {f : CalendarField}

theorem Past.nears (h : c.Past f) : c.Nears f := by
  obtain ⟨h, hrun, hpast⟩ := h
  cases f with
  | seconds => exact nears_seconds h hrun hpast
  | minutes => exact nears_minutes h hrun hpast
  | hours => exact nears_hours h hrun hpast
  | daysLow => exact absurd hpast (Nat.not_le.2 c.daysLow.toNat_lt)
  | daysHigh => exact absurd hpast (Nat.not_le.2 c.daysHigh.toNat_lt)

theorem Past.untilWrap_pos (h : c.Past f) : 0 < c.untilWrap f := by
  obtain ⟨hone, -⟩ | ⟨hmore, -⟩ := h.nears.step
  · rw [hone]
    exact Nat.one_pos
  · rw [hmore]
    exact Nat.succ_pos _

theorem Past.tick_of_le (h : c.Past f) (hle : c.field f ≤ c.tick.field f) : c.tick.Past f :=
  ⟨h.masked.tick, (isHalted_tick c).trans h.running,
    Nat.le_trans h.past (UInt8.le_iff_toNat_le.1 hle)⟩

/-- The last second before a field past its range starts again. -/
theorem Past.field_tick_of_one (h : c.Past f) (hone : c.untilWrap f = 1) : c.tick.field f = 0 := by
  obtain ⟨-, hzero⟩ | ⟨hmore, hle⟩ := h.nears.step
  · exact hzero
  · have hpos := (h.tick_of_le hle).untilWrap_pos
    omega

/-! ## Any number of seconds -/

theorem tick_iterate_of_halted (h : c.isHalted = true) (k : Nat) : tick^[k] c = c :=
  Function.iterate_fixed (show c.tick = c from if_pos h) k

theorem isHalted_tick_iterate (c : Calendar) (k : Nat) : (tick^[k] c).isHalted = c.isHalted := by
  induction k with
  | zero => rfl
  | succ k ih => rw [Function.iterate_succ_apply', isHalted_tick, ih]

/-- However many seconds pass, a running calendar within range has counted them all. -/
theorem InRange.iterate_counts (h : c.InRange) (hrun : c.isHalted = false) (k : Nat) :
    (Calendar.tick^[k] c).InRange ∧ (Calendar.tick^[k] c).total = (c.total + k) % span ∧
    ((Calendar.tick^[k] c).carried ↔ c.carried ∨ span ≤ c.total + k) := by
  have hlt := h.total_lt
  induction k with
  | zero => exact ⟨h, (Nat.mod_eq_of_lt hlt).symm, (or_iff_left (Nat.not_le.2 hlt)).symm⟩
  | succ k ih =>
    obtain ⟨hrange, htotal, hcarry⟩ := ih
    obtain ⟨htotal', hcarry'⟩ := hrange.tick_counts ((isHalted_tick_iterate c k).trans hrun)
    have hspan : span = 512 * 86400 := rfl
    rw [Function.iterate_succ_apply', htotal', hcarry', htotal, hcarry, or_assoc, hspan]
    rw [hspan] at hlt
    exact ⟨hrange.tick, by omega, or_congr Iff.rfl (by omega)⟩

/-- Until it starts again, a field past its range stays there, and nothing above it changes. -/
theorem Past.iterate (h : c.Past f) {j : Nat} (hj : j < c.untilWrap f) :
    (tick^[j] c).Past f ∧ (tick^[j] c).untilWrap f + j = c.untilWrap f ∧
    c.field f ≤ (tick^[j] c).field f ∧ ∀ g, f.slot < g.slot → (tick^[j] c).field g = c.field g := by
  induction j with
  | zero => exact ⟨h, rfl, UInt8.le_refl _, fun _ _ ↦ rfl⟩
  | succ j ih =>
    obtain ⟨hpast, huntil, hle, habove⟩ := ih (by omega)
    rw [Function.iterate_succ_apply']
    obtain ⟨hone, -⟩ | ⟨hmore, hle'⟩ := hpast.nears.step
    · omega
    · exact ⟨hpast.tick_of_le hle', by omega, UInt8.le_trans hle hle',
        fun g hg ↦ (hpast.nears.above g hg).trans (habove g hg)⟩

/-- A field past its range starts again from zero, and nothing above it has changed by then. -/
theorem Past.iterate_untilWrap (h : c.Past f) :
    (tick^[c.untilWrap f] c).field f = 0 ∧
    ∀ g, f.slot < g.slot → (tick^[c.untilWrap f] c).field g = c.field g := by
  obtain ⟨n, hn⟩ := Nat.exists_eq_add_one.2 h.untilWrap_pos
  obtain ⟨hpast, huntil, -, habove⟩ := h.iterate (j := n) (by omega)
  rw [hn, Function.iterate_succ_apply']
  exact ⟨hpast.field_tick_of_one (by omega),
    fun g hg ↦ (hpast.nears.above g hg).trans (habove g hg)⟩

/-- A field stays within the bits it has on every calendar that can come about. -/
theorem Reached.fields (h : c.Reached) :
    c.seconds.toNat < 64 ∧ c.minutes.toNat < 64 ∧ c.hours.toNat < 32 ∧ c.daysHigh &&& 0x3e = 0 := by
  have hle := h.masked.le_mask
  refine ⟨Nat.lt_succ_of_le (hle .seconds), Nat.lt_succ_of_le (hle .minutes),
    Nat.lt_succ_of_le (hle .hours), ?_⟩
  rw [← show c.daysHigh &&& 0xc1 = c.daysHigh from h.masked .daysHigh, UInt8.and_assoc]
  exact UInt8.and_zero

/-- **The calendar is a counter in mixed radix.**  A running one with fields within range has
counted every second after any number of them, modulo the span of its nine bits of days, and the
carry bit is set exactly once that span is used up; a halted one does not change.  On every calendar
that writes and seconds lead to, the fields stay within their bits, so they read as they are stored
and no sum overflows, and a field past its range counts up to its width, then starts from zero, and
until then nothing above it changes. -/
theorem tick_iterate_counts :
    (∀ (c : Calendar) (k : Nat),
      c.seconds.toNat < 60 → c.minutes.toNat < 60 → c.hours.toNat < 24 → c.isHalted = false →
      (tick^[k] c).total = (c.total + k) % (512 * 86400) ∧
      ((tick^[k] c).carried ↔ c.carried ∨ 512 * 86400 ≤ c.total + k) ∧
      (tick^[k] c).isHalted = false) ∧
    (∀ (c : Calendar) (k : Nat), c.isHalted = true → tick^[k] c = c) ∧
    ∀ c : Calendar, c.Reached →
      (c.seconds.toNat < 64 ∧ c.minutes.toNat < 64 ∧ c.hours.toNat < 32 ∧
        c.daysHigh &&& 0x3e = 0) ∧
      (∀ f, c.get f = c.field f) ∧
      Checked.tick c = some c.tick ∧
      ∀ f, f.limit ≤ (c.field f).toNat → c.isHalted = false →
        (tick^[c.untilWrap f] c).field f = 0 ∧
        (∀ j < c.untilWrap f, c.field f ≤ (tick^[j] c).field f) ∧
        ∀ j ≤ c.untilWrap f, ∀ g, f.slot < g.slot → (tick^[j] c).field g = c.field g := by
  refine ⟨fun c k hs hm hh hrun ↦ ?_, fun c k h ↦ tick_iterate_of_halted h k, fun c h ↦
    ⟨h.fields, h.masked, h.masked.tick_inRange, fun f hpast hrun ↦ ?_⟩⟩
  · obtain ⟨-, htotal, hcarry⟩ := InRange.iterate_counts ⟨hs, hm, hh⟩ hrun k
    exact ⟨htotal, hcarry, (isHalted_tick_iterate c k).trans hrun⟩
  · have past : c.Past f := ⟨h.masked, hrun, hpast⟩
    obtain ⟨hzero, habove⟩ := past.iterate_untilWrap
    refine ⟨hzero, fun j hj ↦ (past.iterate hj).2.2.1, fun j hj ↦ ?_⟩
    rcases Nat.lt_or_eq_of_le hj with hlt | rfl
    · exact (past.iterate hlt).2.2.2
    · exact habove

/-- The last second of the last day, a halted calendar, and minutes that were set to sixty-three. -/
theorem tick_iterate_counts_lastSecond :
    (tick^[1] ⟨59, 59, 23, 0xff, 0x01⟩).total = 0 ∧ (tick^[1] ⟨59, 59, 23, 0xff, 0x01⟩).carried ∧
    tick^[1] ⟨59, 59, 23, 0xff, 0x41⟩ = ⟨59, 59, 23, 0xff, 0x41⟩ ∧
    (tick^[60] (({} : Calendar).set .minutes 63)).minutes = 0 ∧
    (tick^[60] (({} : Calendar).set .minutes 63)).hours = 0 := by
  obtain ⟨hcounts, hhalted, hreached⟩ := tick_iterate_counts
  obtain ⟨htotal, hcarry, -⟩ := hcounts ⟨59, 59, 23, 0xff, 0x01⟩ 1
    (by decide) (by decide) (by decide) (by decide)
  obtain ⟨-, -, -, hpast⟩ := hreached _ (Reached.start.set .minutes 63)
  obtain ⟨hzero, -, habove⟩ := hpast .minutes (by decide) (by decide)
  exact ⟨htotal, hcarry.2 (.inr (by decide)), hhalted _ 1 (by decide), hzero,
    habove 60 (by decide) .hours (by decide)⟩

end Calendar

end DotMatrix
