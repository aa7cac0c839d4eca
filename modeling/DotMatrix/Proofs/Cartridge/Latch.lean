import DotMatrix.Proofs.Cartridge.External

/-!
# When the calendar is copied

A controller keeps the copy through which its calendar is read apart from the calendar that runs.
The copy is made by a latch byte `0x01`, provided that the latch byte before it was `0x00`, whatever
else was done between the two; all other calls leave the copy as it is.

* `Log.Springs` — a latch byte of the log made a copy, told from the latch bytes alone.
* `Log.latched_cases` — the copy is the calendar when a latch byte last made one.
* `latched_eq_last` — the same of the controller after any calls, with what follows for latch bytes
  that do not make a copy.
-/

set_option autoImplicit false

namespace DotMatrix

namespace Cartridge

namespace Log

/-- The latch bytes that were written, the newest first. -/
def latchBytes (log : Log) : List UInt8 :=
  log.filterMap fun call ↦
    match call with
    | .latch value => some value
    | _ => none

/-- A latch byte `0x01` that came after the calls `older` was the first latch byte after a
`0x00`. -/
structure Springs (older log : Log) : Prop where
  suffix : .latch 0x01 :: older <:+ log
  before : older.latchBytes.head? = some 0x00

/-- No later latch byte did the same. -/
structure LastSprings (older log : Log) : Prop extends Springs older log where
  last : ∀ later, Springs later log → later <:+ older

variable {log older : Log} {call : Call}

theorem isArmed_iff (log : Log) : log.isArmed ↔ log.latchBytes.head? = some 0x00 := by
  induction log with
  | nil => exact iff_of_false Bool.false_ne_true fun h ↦ by cases h
  | cons call older ih =>
    cases call with
    | latch value => exact decide_eq_true_iff.trans (Option.some_inj).symm
    | enable | selectBank | selectWindow | tick | read | write => exact ih

theorem Springs.cons (h : Springs older log) (call : Call) : Springs older (call :: log) :=
  ⟨h.suffix.trans (List.suffix_cons call log), h.before⟩

theorem springs_cons_iff : Springs older (call :: log) ↔
    (call = .latch 0x01 ∧ older = log ∧ log.latchBytes.head? = some 0x00) ∨ Springs older log := by
  constructor
  · rintro ⟨hsuffix, hbefore⟩
    rcases List.suffix_cons_iff.1 hsuffix with heq | hsuffix
    · obtain ⟨hcall, rfl⟩ := List.cons.inj heq
      exact .inl ⟨hcall.symm, rfl, hbefore⟩
    · exact .inr ⟨hsuffix, hbefore⟩
  · rintro (⟨rfl, rfl, hbefore⟩ | h)
    · exact ⟨List.suffix_refl _, hbefore⟩
    · exact h.cons call

/-- A call that makes no copy leaves the last one that was made. -/
theorem latched_cons (call : Call) (log : Log) :
    (call = .latch 0x01 ∧ log.latchBytes.head? = some 0x00 ∧
      Log.latched (call :: log) = log.running) ∨
    (¬ (call = .latch 0x01 ∧ log.latchBytes.head? = some 0x00) ∧
      Log.latched (call :: log) = log.latched) := by
  cases call with
  | latch value =>
    by_cases h : value = 0x01 ∧ log.isArmed
    · exact .inl ⟨congrArg Call.latch h.1, (isArmed_iff log).1 h.2, if_pos h⟩
    · exact .inr ⟨fun h' ↦ h ⟨Call.latch.inj h'.1, (isArmed_iff log).2 h'.2⟩, if_neg h⟩
  | enable | selectBank | selectWindow | tick | read | write =>
    exact .inr ⟨fun h ↦ (nomatch h.1), rfl⟩

/-- The copy is the calendar as it ran when a latch byte last made one. -/
theorem latched_cases (log : Log) :
    (∃ older, LastSprings older log ∧ log.latched = older.running) ∨
    ((∀ older, ¬ Springs older log) ∧ log.latched = {}) := by
  induction log with
  | nil => exact .inr ⟨fun older h ↦ (List.cons_ne_nil _ _) (List.suffix_nil.1 h.suffix), rfl⟩
  | cons call log ih =>
    rcases latched_cons call log with ⟨rfl, hbefore, hcopy⟩ | ⟨hnone, hkept⟩
    · refine .inl ⟨log, ⟨⟨List.suffix_refl _, hbefore⟩, fun later h ↦ ?_⟩, hcopy⟩
      rcases springs_cons_iff.1 h with ⟨-, rfl, -⟩ | h
      · exact List.suffix_refl later
      · exact (List.suffix_cons _ _).trans h.suffix
    · have hlater : ∀ {later}, Springs later (call :: log) → Springs later log := fun h ↦
        (springs_cons_iff.1 h).resolve_left fun h' ↦ hnone ⟨h'.1, h'.2.2⟩
      rw [hkept]
      rcases ih with ⟨older, h, hcopy⟩ | ⟨hno, hzero⟩
      · exact .inl ⟨older, ⟨h.toSprings.cons call, fun later h' ↦ h.last later (hlater h')⟩, hcopy⟩
      · exact .inr ⟨fun older h ↦ hno older (hlater h), hzero⟩

theorem head?_latchBytes_append {between : Log} (h : between.latchBytes = []) (value : UInt8)
    (older : Log) : (between ++ .latch value :: older).latchBytes.head? = some value := by
  rw [latchBytes, List.filterMap_append, show between.filterMap _ = [] from h]
  rfl

end Log

/-- The calendar that runs, if the cartridge has one. -/
def calendar? (c : Cartridge) : Option Calendar :=
  match c.controller with
  | .plain => none
  | .mbc3 m => some m.calendar

/-- The copy through which the calendar is read, if the cartridge has one. -/
def latched? (c : Cartridge) : Option Calendar :=
  match c.controller with
  | .plain => none
  | .mbc3 m => some m.latched

theorem calendar?_called (image : Array UInt8) (log : Log) :
    (called image log).calendar? = some log.running := by
  obtain ⟨m, hm, h⟩ := exists_mirrors image log
  rw [hm, ← h.calendar]
  rfl

theorem latched?_called (image : Array UInt8) (log : Log) :
    (called image log).latched? = some log.latched := by
  obtain ⟨m, hm, h⟩ := exists_mirrors image log
  rw [hm, ← h.latched]
  rfl

/-- **The copy is the calendar at the last `0x01` right after a `0x00`.**  After any calls in any
order, the copy through which the calendar is read is the calendar as it ran when a latch byte
`0x01` last came with `0x00` as the latch byte before it, whatever else was done in between, and all
zeros if that never happened.  No other call changes the copy, and it is taken as a whole when the
`0x01` comes. -/
theorem latched_eq_last (image : Array UInt8) :
    (∀ log, (called image log).calendar?.isSome) ∧
    (∀ log : Log,
      (∃ older, Log.LastSprings older log ∧
        (called image log).latched? = (called image older).calendar?) ∨
      (∀ older, ¬ Log.Springs older log) ∧ (called image log).latched? = some {}) ∧
    (∀ (log : Log) (call : Call), ¬ (call = .latch 0x01 ∧ log.latchBytes.head? = some 0x00) →
      (called image (call :: log)).latched? = (called image log).latched?) ∧
    ∀ between older : Log, between.latchBytes = [] →
      (called image (.latch 0x01 :: (between ++ .latch 0x00 :: older))).latched? =
        (called image (between ++ .latch 0x00 :: older)).calendar? := by
  refine ⟨fun log ↦ ?_, fun log ↦ ?_, fun log call hnone ↦ ?_, fun between older hbetween ↦ ?_⟩
  · rw [calendar?_called]
    rfl
  · rw [latched?_called]
    rcases log.latched_cases with ⟨older, h, hcopy⟩ | ⟨hno, hzero⟩
    · exact .inl ⟨older, h, by rw [calendar?_called, hcopy]⟩
    · exact .inr ⟨hno, congrArg some hzero⟩
  · rw [latched?_called, latched?_called]
    rcases Log.latched_cons call log with ⟨hcall, hbefore, -⟩ | ⟨-, hkept⟩
    · exact absurd ⟨hcall, hbefore⟩ hnone
    · rw [hkept]
  · rw [latched?_called, calendar?_called]
    have hbefore := Log.head?_latchBytes_append hbetween 0x00 older
    rcases Log.latched_cons (.latch 0x01) (between ++ .latch 0x00 :: older) with
      ⟨-, -, hcopy⟩ | ⟨hnone, -⟩
    · rw [hcopy]
    · exact absurd ⟨rfl, hbefore⟩ hnone

/-- A second passes between the two bytes and is in the copy; the one that passes before another
`0x01`, which comes after a `0x02`, is not. -/
theorem latched_eq_last_ticked :
    (called #[] [.latch 1, .tick, .latch 2, .latch 1, .tick, .latch 0]).latched? =
      some { seconds := 1 } := by
  obtain ⟨-, -, hkept, hcopy⟩ := latched_eq_last #[]
  rw [hkept _ (.latch 1) fun h ↦ absurd h.2 (by decide), hkept _ .tick fun h ↦ (nomatch h.1),
    hkept _ (.latch 2) fun h ↦ absurd (Call.latch.inj h.1) (by decide)]
  exact hcopy [.tick] [] rfl

end Cartridge

end DotMatrix
